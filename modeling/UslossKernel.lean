import UslossKernel.AnyOrder
import UslossKernel.CallLines
import UslossKernel.CallOrder
import UslossKernel.Clients
import UslossKernel.ClockInterrupts
import UslossKernel.ClockService
import UslossKernel.ClockValues
import UslossKernel.ConditionalCalls
import UslossKernel.DeadProcesses
import UslossKernel.Deadlocks
import UslossKernel.DumpProcesses
import UslossKernel.EntryChanges
import UslossKernel.EntryCounts
import UslossKernel.EntryFates
import UslossKernel.ExitStatus
import UslossKernel.FamilyTree
import UslossKernel.IdReuse
import UslossKernel.InitRun
import UslossKernel.KernelSemaphores
import UslossKernel.Library.BoundedQueue
import UslossKernel.Library.Forest
import UslossKernel.Library.History
import UslossKernel.Library.Holdings
import UslossKernel.Library.LinkedList
import UslossKernel.Library.Population
import UslossKernel.Library.RingBuffer
import UslossKernel.Library.Transition
import UslossKernel.Library.WaitGraph
import UslossKernel.Lifetime
import UslossKernel.LineBuffers
import UslossKernel.LineReads
import UslossKernel.MailQueues
import UslossKernel.MailboxCounts
import UslossKernel.MailboxKernel
import UslossKernel.MailboxKernelRuns
import UslossKernel.MailboxRefinement
import UslossKernel.Mailboxes
import UslossKernel.MboxCalls
import UslossKernel.Messages
import UslossKernel.OwnWaiters
import UslossKernel.Phase1aDump
import UslossKernel.Phase1aInit
import UslossKernel.Phase1aJoins
import UslossKernel.Phase1aKernel
import UslossKernel.Phase1aLists
import UslossKernel.Phase1aSporks
import UslossKernel.Phase4Init
import UslossKernel.PidOrder
import UslossKernel.PidResidues
import UslossKernel.ProcessForest
import UslossKernel.ProcessTable
import UslossKernel.ProcessTree
import UslossKernel.Processes
import UslossKernel.QueueCalls
import UslossKernel.QuitWakes
import UslossKernel.ReadCalls
import UslossKernel.ReadyQueues
import UslossKernel.Receipts
import UslossKernel.RecordSources
import UslossKernel.Release
import UslossKernel.ReleaseOverlap
import UslossKernel.RingSteps
import UslossKernel.ScheduledRuns
import UslossKernel.ScheduledTurns
import UslossKernel.Scheduler
import UslossKernel.SchedulerSteps
import UslossKernel.Segments
import UslossKernel.Selection
import UslossKernel.SemaphoreMailboxes
import UslossKernel.SemaphorePermits
import UslossKernel.SemaphoreSignals
import UslossKernel.ServiceCalls
import UslossKernel.ServiceOrder
import UslossKernel.SleepDelays
import UslossKernel.SleepScans
import UslossKernel.SleepTimes
import UslossKernel.Sleepers
import UslossKernel.Sleeping
import UslossKernel.SlotConservation
import UslossKernel.SlotOwnership
import UslossKernel.SlotPool
import UslossKernel.StrandedReceivers
import UslossKernel.StrandedSenders
import UslossKernel.SuspensionTimes
import UslossKernel.SyscallTables
import UslossKernel.TerminalDrivers
import UslossKernel.TerminalOutput
import UslossKernel.TerminalReads
import UslossKernel.TerminalWrites
import UslossKernel.TerminateReaps
import UslossKernel.Transfers
import UslossKernel.UserCalls
import UslossKernel.UserStarts
import UslossKernel.UserStatus
import UslossKernel.UserSteps
import UslossKernel.UserTurns
import UslossKernel.UserWaits
import UslossKernel.WaiterRecords
import UslossKernel.Waiting
import UslossKernel.WaitingLists
import UslossKernel.Waking
import UslossKernel.ZeroSlot
import UslossKernel.ZeroSlotLists
import UslossKernel.ZeroSlotMessages
