import UslossKernel.Mailboxes

namespace UslossKernel

/-- Where a receive is to put the message: whether `msg_ptr` is not `NULL`,
and `msg_max_size`. -/
structure Buffer where
  msg_ptr : Bool
  msg_max_size : Int
deriving DecidableEq, Repr

/-- A call of one of the six mailbox operations, with its arguments. For
`MboxCreate` the last one says whether `malloc` succeeds. -/
inductive Call
  | create (numSlots slotSize : Int) (malloc : Bool)
  | release (mbox_id : Int)
  | send (mbox_id : Int) (msg_ptr : Option Message) (msg_size : Int)
  | recv (mbox_id : Int) (buffer : Buffer)
  | condSend (mbox_id : Int) (msg_ptr : Option Message) (msg_size : Int)
  | condRecv (mbox_id : Int) (buffer : Buffer)
deriving DecidableEq, Repr

/-- The operation a call is of, and the mailbox id it was made with. -/
inductive Fn
  | create
  | release (mbox_id : Int)
  | send (mbox_id : Int)
  | recv (mbox_id : Int)
  | condSend (mbox_id : Int)
  | condRecv (mbox_id : Int)
deriving DecidableEq, Repr

def Call.fn : Call → Fn
  | .create .. => .create
  | .release id => .release id
  | .send id .. => .send id
  | .recv id _ => .recv id
  | .condSend id .. => .condSend id
  | .condRecv id _ => .condRecv id

/-- The `blockMe()` a suspended call stands at, with the locals it needs
when it runs on. -/
inductive Wait
  | sendZero (m : MboxId)
  | sendFull (m : MboxId) (msg : Message)
  | recvZero (m : MboxId)
  | recvEmpty (m : MboxId) (buffer : Buffer)
deriving DecidableEq, Repr

def Wait.mbox : Wait → MboxId
  | .sendZero m | .sendFull m _ | .recvZero m | .recvEmpty m _ => m

def Wait.fn : Wait → Fn
  | .sendZero m | .sendFull m _ => .send (m : Nat)
  | .recvZero m | .recvEmpty m _ => .recv (m : Nat)

/-- Suspended in `MboxSend` on `m`. -/
def Wait.sendsTo (m : MboxId) : Wait → Bool
  | .sendZero n | .sendFull n _ => n = m
  | .recvZero _ | .recvEmpty .. => false

/-- Suspended in `MboxRecv` on `m`. -/
def Wait.receivesFrom (m : MboxId) : Wait → Bool
  | .recvZero n | .recvEmpty n _ => n = m
  | .sendZero _ | .sendFull .. => false

/-- The `unblockProc()` a call stands in, with the locals it needs when that
returns. The two loops of `MboxRelease` keep the next value of `i`. -/
inductive Cont
  | sendMatched (m : MboxId)
  | sendStored (m : MboxId)
  | recvMatched (m : MboxId)
  | recvTaken (m : MboxId) (r : Result)
  | condSendStored (m : MboxId)
  | condRecvTaken (m : MboxId) (r : Result)
  | releaseProducers (m : MboxId) (i : Nat)
  | releaseConsumers (m : MboxId) (i : Nat)
  | releasePointer (m : MboxId)
deriving DecidableEq, Repr

def Cont.mbox : Cont → MboxId
  | .sendMatched m | .sendStored m | .recvMatched m | .recvTaken m _ | .condSendStored m | .condRecvTaken m _
  | .releaseProducers m _ | .releaseConsumers m _ | .releasePointer m => m

def Cont.fn : Cont → Fn
  | .sendMatched m | .sendStored m => .send (m : Nat)
  | .recvMatched m | .recvTaken m _ => .recv (m : Nat)
  | .condSendStored m => .condSend (m : Nat)
  | .condRecvTaken m _ => .condRecv (m : Nat)
  | .releaseProducers m _ | .releaseConsumers m _ | .releasePointer m => .release (m : Nat)

/-- Inside `MboxRelease` of `m`. -/
def Cont.releases (m : MboxId) : Cont → Bool
  | .releaseProducers n _ | .releaseConsumers n _ | .releasePointer n => n = m
  | _ => false

/-- What C leaves undefined: `freeSlotQueue[-1]`, a `NULL` ring, `% 0` and a
`NULL` receive buffer. -/
inductive Fault
  | slotUnderflow
  | nullQueue
  | divideByZero
  | nullBuffer
deriving DecidableEq, Repr

/-- How a stretch of code between two points where the CPU may change hands ends. -/
inductive Outcome
  | returns (r : Result)
  | blocks (w : Wait)
  | unblocks (pid : Pid) (k : Cont)
  | faults (f : Fault)
deriving DecidableEq, Repr

abbrev Segment := Globals × Outcome

/-- `return code;` without a message. -/
def returnCode (g : Globals) (code : Int) : Segment :=
  (g, .returns ⟨code, []⟩)

def mboxCreate (g : Globals) (numSlots slotSize : Int) (malloc : Bool) : Segment :=
  if numSlots > maxSlots ∨ numSlots < 0 ∨ slotSize < 0 ∨ slotSize > maxMessage then returnCode g (-1)
  else match g.firstInactive with
    | none => returnCode g (-1)
    | some m =>
      if malloc then returnCode (g.createMailbox m numSlots.toNat slotSize.toNat) (m : Nat)
      else returnCode (g.loseMailbox m numSlots.toNat slotSize.toNat) (-1)

/-- The end of `MboxRelease`, from `free` on. -/
def releaseQueue (g : Globals) (m : MboxId) : Segment :=
  returnCode (g.freeQueue m) 0

/-- The loop over `blockedConsumers`, entered with the given `i`. -/
def releaseConsumers (g : Globals) (m : MboxId) (i : Nat) : Segment :=
  match (g.blockedConsumers m)[i]? with
  | some pid => (g, .unblocks pid (.releaseConsumers m (i + 1)))
  | none => releaseQueue (g.setBlockedConsumers m []) m

def releaseReceivers (g : Globals) (m : MboxId) : Segment :=
  if (g.mailboxes m).numSlots = 0 then releaseConsumers g m 0
  else match (g.mailboxes m).consumers with
    | some entry => (g, .unblocks (g.shadowProcesses entry) (.releasePointer m))
    | none => releaseQueue g m

/-- The loop over `blockedProducers`, entered with the given `i`. -/
def releaseProducers (g : Globals) (m : MboxId) (i : Nat) : Segment :=
  match (g.blockedProducers m)[i]? with
  | some pid => (g, .unblocks pid (.releaseProducers m (i + 1)))
  | none => releaseReceivers (g.setBlockedProducers m []) m

def mboxRelease (g : Globals) (mbox_id : Int) : Segment :=
  match g.activeMbox mbox_id with
  | none => returnCode g (-1)
  | some m => releaseProducers (g.deactivate m) m 0

/-- Wakes the first recorded receiver, if any, and returns `r`. -/
def wakeupConsumer (g : Globals) (m : MboxId) (k : Cont) (r : Result) : Segment :=
  match g.blockedConsumers m with
  | [] => (g, .returns r)
  | pid :: rest => (g.setBlockedConsumers m rest, .unblocks pid k)

/-- Wakes the first recorded sender, if any, and returns `r`. -/
def wakeupProducer (g : Globals) (m : MboxId) (k : Cont) (r : Result) : Segment :=
  match g.blockedProducers m with
  | [] => (g, .returns r)
  | pid :: rest => (g.setBlockedProducers m rest, .unblocks pid k)

/-- The code both sends share, from `freeSlotQueue[--freeSlotCount]` on. -/
def storeAndWake (g : Globals) (m : MboxId) (msg : Message) (k : Cont) : Segment :=
  if g.freeSlotCount = 0 then (g, .faults .slotUnderflow)
  else if (g.mailboxSlotQueues m).queue.isNone then (g, .faults .nullQueue)
  else if (g.mailboxSlotQueues m).capacity = 0 then (g, .faults .divideByZero)
  else if ((g.storeMessage m msg).mailboxes m).consumers.isSome then
    wakeupConsumer (g.storeMessage m msg) m k ⟨0, []⟩
  else returnCode (g.storeMessage m msg) 0

/-- The code both receives share, from `queue[head]` on. -/
def takeAndWake (g : Globals) (m : MboxId) (buffer : Buffer) (k : Result → Cont) : Segment :=
  let sq := g.mailboxSlotQueues m
  match sq.queue with
  | none => (g, .faults .nullQueue)
  | some queue =>
    let slotIndex := queue sq.head
    let slot := g.mailSlots slotIndex
    let received : Result := ⟨slot.messageLength, slot.contents⟩
    if sq.capacity = 0 then (g, .faults .divideByZero)
    else if buffer.msg_max_size < slot.messageLength then
      returnCode (g.dequeueSlot m ⟨buffer.msg_max_size, -1, []⟩) (-1)
    else if buffer.msg_ptr = false ∧ 0 < slot.messageLength then (g, .faults .nullBuffer)
    else
      wakeupProducer ((g.dequeueSlot m ⟨buffer.msg_max_size, received⟩).freeSlot slotIndex) m (k received) received

/-- A sender on a zero-slot mailbox that no receiver waits on. -/
def awaitReceiver (g : Globals) (pid : Pid) (m : MboxId) : Globals :=
  (g.setBlockedProducers m (Globals.pushWaiter maxBlockedProducers (g.blockedProducers m) pid)).pointProducers m pid

/-- A sender on a full mailbox is recorded unless it already is. -/
def recordSender (g : Globals) (pid : Pid) (m : MboxId) : Globals :=
  if pid ∈ g.blockedProducers m then g
  else g.setBlockedProducers m (Globals.pushWaiter maxBlockedProducers (g.blockedProducers m) pid)

/-- The top of the `while` in `MboxSend`, which a woken sender enters again. -/
def mboxSendLoop (g : Globals) (pid : Pid) (m : MboxId) (msg : Message) : Segment :=
  if (g.mailboxes m).numSlots ≤ (g.mailboxSlotQueues m).count ∧ 0 < (g.mailboxes m).numSlots then
    if (g.mailboxes m).isActive = false then returnCode g (-1)
    else (recordSender g pid m, .blocks (.sendFull m msg))
  else storeAndWake g m msg (.sendStored m)

def mboxSend (g : Globals) (pid : Pid) (mbox_id : Int) (msg_ptr : Option Message) (msg_size : Int) : Segment :=
  match g.activeMbox mbox_id with
  | none => returnCode g (-1)
  | some m =>
    if g.accepts m msg_ptr msg_size = false then returnCode g (-1)
    else if (g.mailboxes m).numSlots = 0 then
      match (g.mailboxes m).consumers with
      | some entry => (g, .unblocks (g.shadowProcesses entry) (.sendMatched m))
      | none => (awaitReceiver g pid m, .blocks (.sendZero m))
    else if g.freeSlotCount = 0 then returnCode g (-2)
    else mboxSendLoop g pid m (bytesAt msg_ptr msg_size.toNat)

/-- A receiver that has to wait: it is recorded while the array has room, and
the pointer is set to it in any case. -/
def awaitMessage (g : Globals) (pid : Pid) (m : MboxId) : Globals :=
  (g.setBlockedConsumers m (Globals.pushWaiter maxBlockedConsumers (g.blockedConsumers m) pid)).pointConsumers m pid

def mboxRecv (g : Globals) (pid : Pid) (mbox_id : Int) (buffer : Buffer) : Segment :=
  match g.activeMbox mbox_id with
  | none => returnCode g (-1)
  | some m =>
    if buffer.msg_max_size < 0 then returnCode g (-1)
    else if (g.mailboxes m).numSlots = 0 then
      match g.blockedProducers m with
      | [] => (awaitMessage g pid m, .blocks (.recvZero m))
      | producer :: rest => (g.setBlockedProducers m rest, .unblocks producer (.recvMatched m))
    else if (g.mailboxSlotQueues m).count = 0 then (awaitMessage g pid m, .blocks (.recvEmpty m buffer))
    else takeAndWake g m buffer (.recvTaken m)

def mboxCondSend (g : Globals) (mbox_id : Int) (msg_ptr : Option Message) (msg_size : Int) : Segment :=
  match g.activeMbox mbox_id with
  | none => returnCode g (-1)
  | some m =>
    if g.accepts m msg_ptr msg_size = false then returnCode g (-1)
    else if g.freeSlotCount = 0 ∨ (g.mailboxes m).numSlots ≤ (g.mailboxSlotQueues m).count then returnCode g (-2)
    else storeAndWake g m (bytesAt msg_ptr msg_size.toNat) (.condSendStored m)

def mboxCondRecv (g : Globals) (mbox_id : Int) (buffer : Buffer) : Segment :=
  match g.activeMbox mbox_id with
  | none => returnCode g (-1)
  | some m =>
    if buffer.msg_max_size < 0 then returnCode g (-1)
    else if (g.mailboxSlotQueues m).count = 0 then returnCode g (-2)
    else takeAndWake g m buffer (.condRecvTaken m)

def Call.start (g : Globals) (pid : Pid) : Call → Segment
  | .create numSlots slotSize malloc => mboxCreate g numSlots slotSize malloc
  | .release id => mboxRelease g id
  | .send id msg_ptr msg_size => mboxSend g pid id msg_ptr msg_size
  | .recv id buffer => mboxRecv g pid id buffer
  | .condSend id msg_ptr msg_size => mboxCondSend g id msg_ptr msg_size
  | .condRecv id buffer => mboxCondRecv g id buffer

/-- What follows the `blockMe()` once the process runs again. -/
def Wait.resume (g : Globals) (pid : Pid) : Wait → Segment
  | .sendZero m | .recvZero m => if (g.mailboxes m).isActive = false then returnCode g (-1) else returnCode g 0
  | .sendFull m msg => if (g.mailboxes m).isActive = false then returnCode g (-1) else mboxSendLoop g pid m msg
  | .recvEmpty m buffer =>
    if (g.mailboxes m).isActive = false then returnCode g (-1)
    else if (g.mailboxSlotQueues m).count = 0 then returnCode (g.clearConsumers m) (-1)
    else takeAndWake (g.clearConsumers m) m buffer (.recvTaken m)

/-- What follows the `unblockProc()` once it returns. -/
def Cont.resume (g : Globals) : Cont → Segment
  | .sendMatched m => returnCode (g.clearConsumers m) 0
  | .sendStored _ | .recvMatched _ | .condSendStored _ => returnCode g 0
  | .recvTaken _ r | .condRecvTaken _ r => (g, .returns r)
  | .releaseProducers m i => UslossKernel.releaseProducers g m i
  | .releaseConsumers m i => UslossKernel.releaseConsumers g m i
  | .releasePointer m => releaseQueue (g.clearConsumers m) m

/-- The tables before `MboxCreate` is called in `phase2_init`: the first six
mailboxes are active, everything else is zero. -/
def phase2Tables : Globals where
  mailboxes m :=
    { id := 0, numSlots := 0, slotSize := 0, isActive := decide (m.val < 6), producers := none, consumers := none }
  mailSlots _ := { mailboxID := 0, messageLength := 0, inUse := false, message := List.replicate maxMessage 0 }
  freeSlotQueue i := i
  freeSlotCount := maxSlots
  mailboxSlotQueues _ := { queue := none, capacity := 0, head := 0, tail := 0, count := 0 }
  shadowProcesses _ := -1
  blockedProducers _ := []
  blockedConsumers _ := []
  stored _ := []
  taken _ := []

/-- `phase2_init`, which makes the clock mailbox last. -/
@[irreducible] def phase2Init : Globals :=
  (mboxCreate phase2Tables 1 4 true).1

end UslossKernel
