import UslossKernel.Library.EntryTable
import UslossKernel.Library.LinkedList
import UslossKernel.Mailboxes

namespace UslossKernel.Phase1b

open LinkedList

/-- `USLOSS_MIN_STACK` -/
def minStack : Int := 80 * 1024

/-- An entry of `process_table`; the pointers of `struct process` lead to entries. -/
abbrev Slot := Fin maxProc

/-- The values of `status`: 0, 1 and -1. A free entry has the last one too. -/
inductive Status
  | runnable
  | blocked
  | terminated
deriving DecidableEq, Repr

/-- `struct process`, without the name, the argument and the context. Of
`stack` and `startFunc` only matters whether they are `NULL`. -/
structure Process where
  pid : Int
  priority : Nat
  status : Status
  exit_status : Int
  parent : Option Slot
  children : Option Slot
  sibling : Option Slot
  next : Option Slot
  zap_target : Option Slot
  stack : Bool
  startFunc : Bool

/-- The file-scope variables of `phase1b.c`. -/
structure Kernel where
  process_table : Slot → Process
  running_process : Option Slot
  next_pid : Nat
  ready_queues : Nat → Option Slot

/-- In which list a walk does not come to an end. -/
inductive Walk
  | queue
  | children
deriving DecidableEq, Repr

/-- The `dispatcher()` a call stands in, with the locals it needs when that returns. -/
inductive Inside
  | spork (new_proc : Slot)
  | join
  | quit (status : Int)
  | blockMe
  | unblockProc (pid : Int)
  | zap (pid : Int)
  | dispatcher
deriving DecidableEq, Repr

/-- How a stretch of code between two points where the CPU may change hands
ends. `status` is what `join` stores through its argument. -/
inductive Ending
  | returns (value : Int) (status : Option Int)
  | dispatches (place : Inside)
  | halts (code : Int)
  | hangs (walk : Walk)
  | crashes
deriving DecidableEq, Repr

abbrev Segment := Kernel × Ending

namespace Kernel

def modify (k : Kernel) (i : Slot) (f : Process → Process) : Kernel :=
  { k with process_table := EntryTable.modify k.process_table i f }

def setHead (k : Kernel) (q : Nat) (head : Option Slot) : Kernel :=
  { k with ready_queues := Function.update k.ready_queues q head }

/-- The pid marks a free entry. -/
def occupied (k : Kernel) (i : Slot) : Bool := (k.process_table i).pid ≠ -1

def status (k : Kernel) (i : Slot) : Status := (k.process_table i).status

def next (k : Kernel) (i : Slot) : Option Slot := (k.process_table i).next

def sibling (k : Kernel) (i : Slot) : Option Slot := (k.process_table i).sibling

/-- The index of the ready queue an entry belongs to. -/
def queue (k : Kernel) (i : Slot) : Nat := (k.process_table i).priority - 1

/-- The two loops for a free entry, from `next_pid % MAXPROC` on and then from 0. -/
def freeSlot (k : Kernel) : Option Slot :=
  let start := k.next_pid % maxProc
  (((List.finRange maxProc).drop start) ++ ((List.finRange maxProc).take start)).find? fun i => !k.occupied i

/-- `pid > 2 && (pid % 50 == 1 || pid % 50 == 2)` -/
def skipped (pid : Nat) : Bool := 2 < pid && (pid % 50 = 1 || pid % 50 = 2)

/-- `do { pid = next_pid++ } while (..)`: two pids in a row are skipped at most. -/
def drawPid (next_pid : Nat) : Nat :=
  if skipped next_pid then if skipped (next_pid + 1) then next_pid + 2 else next_pid + 1 else next_pid

theorem skipped_eq_true {pid : Nat} : skipped pid = true ↔ 2 < pid ∧ (pid % 50 = 1 ∨ pid % 50 = 2) := by
  simp [skipped]

/-- It is the first pid from `next_pid` on that the loop does not skip. -/
theorem drawPid_first (next_pid : Nat) : next_pid ≤ drawPid next_pid ∧ skipped (drawPid next_pid) ≠ true ∧
    ∀ pid, next_pid ≤ pid → pid < drawPid next_pid → skipped pid = true := by
  unfold drawPid
  simp only [ne_eq, skipped_eq_true]
  split
  · split
    · refine ⟨by omega, by omega, fun pid from_ below => ?_⟩
      obtain rfl | rfl : pid = next_pid ∨ pid = next_pid + 1 := by omega
      · assumption
      · assumption
    · refine ⟨by omega, by assumption, fun pid from_ below => ?_⟩
      obtain rfl : pid = next_pid := by omega
      assumption
  · exact ⟨le_rfl, by assumption, fun pid from_ below => absurd below (Nat.not_lt.mpr from_)⟩

/-- `spork` fills in the entry. The fields that it does not set keep what they had. -/
def newProcess (k : Kernel) (slot : Slot) (startFunc : Bool) (priority : Nat) : Kernel :=
  { k.modify slot fun p =>
      { p with pid := drawPid k.next_pid, priority, status := .runnable, stack := true, startFunc } with
    next_pid := drawPid k.next_pid + 1 }

/-- A child of lower priority than its parent goes to the end of the list of
children, any other to the front. -/
def linkChild (k : Kernel) (child : Slot) : Option Kernel :=
  match k.running_process with
  | none => some (k.modify child fun p => { p with parent := none })
  | some parent =>
    let k := k.modify child fun p => { p with parent := some parent }
    if (k.process_table parent).priority < (k.process_table child).priority then
      let k := k.modify child fun p => { p with sibling := none }
      match seek k.sibling (fun i => (k.sibling i).isNone) maxProc none (k.process_table parent).children with
      | .endless => none
      | .absent => some (k.modify parent fun p => { p with children := some child })
      | .at _ last => some (k.modify last fun p => { p with sibling := some child })
    else
      let k := k.modify child fun p => { p with sibling := (k.process_table parent).children }
      some (k.modify parent fun p => { p with children := some child })

/-- The walk to the end of a ready queue, and the entry put behind it. -/
def appendToQueue (k : Kernel) (i : Slot) : Option Kernel :=
  match seek k.next (fun j => (k.next j).isNone) maxProc none (k.ready_queues (k.queue i)) with
  | .endless => none
  | .absent => some (k.setHead (k.queue i) (some i))
  | .at _ last => some (k.modify last fun p => { p with next := some i })

def remove_from_ready_queue (k : Kernel) (p : Slot) : Option Kernel :=
  match seek k.next (fun j => j = p) maxProc none (k.ready_queues (k.queue p)) with
  | .endless => none
  | .absent => some k
  | .at none _ => some ((k.setHead (k.queue p) (k.next p)).modify p fun e => { e with next := none })
  | .at (some before) _ =>
    some ((k.modify before fun e => { e with next := k.next p }).modify p fun e => { e with next := none })

/-- What `dispatcher` selects: the head of the first queue that has one and
whose head is not blocked. -/
def selected (k : Kernel) : Option Slot :=
  (List.range 6).findSome? fun q => (k.ready_queues q).filter fun i => k.status i ≠ .blocked

/-- `none` when it calls `USLOSS_Halt(0)`. -/
def contextSwitch (k : Kernel) (next : Slot) : Option Kernel :=
  if k.running_process = some next then none else some { k with running_process := some next }

/-- `none` when it calls `USLOSS_Halt(0)`. -/
def dispatcher (k : Kernel) : Option Kernel :=
  k.selected.bind k.contextSwitch

def spork (k : Kernel) (kernelMode startFunc malloc : Bool) (stackSize priority : Int) : Segment :=
  if kernelMode = false then (k, .halts 1)
  else if priority < 1 ∨ 5 < priority then (k, .returns (-1) none)
  else if stackSize < minStack then (k, .returns (-2) none)
  else match k.freeSlot with
    | none => (k, .returns (-1) none)
    | some slot =>
      if malloc = false then (k, .halts 1)
      else match (k.newProcess slot startFunc priority.toNat).linkChild slot with
        | none => (k, .hangs .children)
        | some linked => match linked.appendToQueue slot with
          | none => (k, .hangs .queue)
          | some queued =>
            let k' := queued.modify slot fun p => { p with next := none }
            match k'.running_process with
            | some parent =>
              if (k'.process_table slot).priority ≤ (k'.process_table parent).priority then
                (k', .dispatches (.spork slot))
              else (k', .returns (k'.process_table slot).pid none)
            | none => (k', .returns (k'.process_table slot).pid none)

/-- Take a child out of the list of children and free its entry. -/
def collect (k : Kernel) (parent : Slot) (before : Option Slot) (child : Slot) : Kernel :=
  let unlinked := match before with
    | none => k.modify parent fun p => { p with children := k.sibling child }
    | some b => k.modify b fun p => { p with sibling := k.sibling child }
  unlinked.modify child fun p => { p with stack := false, pid := -1, sibling := none }

/-- The `while` of `join`, entered again when the parent has been woken. -/
def joinLoop (k : Kernel) (parent : Slot) : Segment :=
  match seek k.sibling (fun i => k.status i = .terminated) maxProc none (k.process_table parent).children with
  | .endless => (k, .hangs .children)
  | .absent => (k.modify parent fun p => { p with status := .blocked }, .dispatches .join)
  | .at before child =>
    (k.collect parent before child,
      .returns (k.process_table child).pid (some (k.process_table child).exit_status))

/-- `status` says whether the argument is not `NULL`. -/
def join (k : Kernel) (status : Bool) : Segment :=
  if status = false then (k, .returns (-3) none)
  else match k.running_process with
    | none => (k, .crashes)
    | some parent =>
      if (k.process_table parent).children = none then (k, .returns (-2) none) else k.joinLoop parent

/-- The parent is made runnable if it is blocked, and stays where it is in its queue. -/
def wakeParent (k : Kernel) (p : Slot) : Kernel :=
  match (k.process_table p).parent with
  | none => k
  | some q => if k.status q = .blocked then k.modify q fun e => { e with status := .runnable } else k

/-- A process that has zapped `p` is made runnable and put at the front of its queue. -/
def wakeZapper (p : Slot) (k : Kernel) (i : Slot) : Kernel :=
  if k.status i = .blocked ∧ (k.process_table i).zap_target = some p then
    (k.modify i fun e =>
      { e with status := .runnable, zap_target := none, next := k.ready_queues (k.queue i) }).setHead
        (k.queue i) (some i)
  else k

def wakeZappers (k : Kernel) (p : Slot) : Kernel :=
  (List.finRange maxProc).foldl (wakeZapper p) k

/-- What `quit` does to the tables before it takes the process out of its queue. -/
def terminate (k : Kernel) (p : Slot) (status : Int) : Kernel :=
  ((k.modify p fun e => { e with status := .terminated, exit_status := status }).wakeParent p).wakeZappers p

def quit (k : Kernel) (kernelMode : Bool) (status : Int) : Segment :=
  if kernelMode = false then (k, .halts 1)
  else match k.running_process with
    | none => (k, .crashes)
    | some p =>
      if (k.process_table p).children ≠ none then (k, .halts 1)
      else match (k.terminate p status).remove_from_ready_queue p with
        | none => (k, .hangs .queue)
        | some k' => (k', .dispatches (.quit status))

/-- The end of `processWrapper`, after `startFunc` has returned `rc`. -/
def finish (k : Kernel) (kernelMode : Bool) (rc : Int) : Segment :=
  match k.running_process with
  | none => (k, .crashes)
  | some p => if (k.process_table p).children ≠ none then (k, .halts 1) else k.quit kernelMode rc

def blockMe (k : Kernel) : Segment :=
  match k.running_process with
  | none => (k, .crashes)
  | some p => (k.modify p fun e => { e with status := .blocked }, .dispatches .blockMe)

def unblockProc (k : Kernel) (pid : Int) : Segment :=
  match (List.finRange maxProc).find? fun i => (k.process_table i).pid = pid ∧ k.status i = .blocked with
  | none => (k, .returns (-2) none)
  | some i => match (k.modify i fun e => { e with status := .runnable }).appendToQueue i with
    | none => (k, .hangs .queue)
    | some k' => (k', .dispatches (.unblockProc pid))

def zap (k : Kernel) (pid : Int) : Segment :=
  match k.running_process with
  | none => (k, .crashes)
  | some p =>
    if pid = (k.process_table p).pid then (k, .halts 1)
    else match (List.finRange maxProc).find? fun i => (k.process_table i).pid = pid with
      | none => (k, .halts 1)
      | some target =>
        if k.status target = .terminated then (k, .returns 0 none)
        else (k.modify p fun e => { e with status := .blocked, zap_target := some target }, .dispatches (.zap pid))

end Kernel

/-- `process_table` and the variables before `phase1_init`. -/
def emptyProcess : Process where
  pid := -1
  priority := 0
  status := .terminated
  exit_status := 0
  parent := none
  children := none
  sibling := none
  next := none
  zap_target := none
  stack := false
  startFunc := false

def initSlot : Slot := ⟨1, by decide⟩

/-- `phase1_init`: the process `init` is alone in the table and in its queue. -/
def phase1_init : Kernel where
  process_table := Function.update (fun _ => emptyProcess) initSlot
    { emptyProcess with pid := 1, priority := 6, status := .runnable, stack := true, startFunc := true }
  running_process := none
  next_pid := 2
  ready_queues := Function.update (fun _ => none) 5 (some initSlot)

theorem phase1_init_of_ne {i : Slot} (other : i ≠ initSlot) : phase1_init.process_table i = emptyProcess := by
  simp [phase1_init, other]

theorem phase1_init_initSlot : phase1_init.process_table initSlot =
    { emptyProcess with pid := 1, priority := 6, status := .runnable, stack := true, startFunc := true } := by
  simp [phase1_init]

end UslossKernel.Phase1b
