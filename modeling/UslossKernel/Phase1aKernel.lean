import UslossKernel.Library.EntryTable
import UslossKernel.Library.LinkedList
import UslossKernel.Library.Transition
import UslossKernel.Mailboxes

namespace UslossKernel.Phase1a

open LinkedList

/-- An entry of `process_table`; the pointers of `struct process` lead to entries. -/
abbrev Slot := Fin maxProc

/-- The values of `status`: 0 and -1. A free entry has the first one. -/
inductive Status
  | runnable
  | terminated
deriving DecidableEq, Repr

/-- `struct process`, as far as a function reads it. Of `startFunc` only matters
whether it is `NULL`. -/
structure Process where
  pid : Int
  status : Status
  children : Option Slot
  next : Option Slot
  parent : Option Slot
  startFunc : Bool
  exit_status : Int
  termOrder : Nat

/-- The file-scope variables of `phase1a.c`. -/
structure Kernel where
  process_table : Slot → Process
  running_process : Option Slot
  next_pid : Nat
  terminationCounter : Nat

/-- How a call ends. A switch to another process leaves it where it is;
`crashes` stands for the use of a `NULL` pointer and for the overflow of an `int`. -/
inductive Ending
  | returns (value : Int) (status : Option Int)
  | switches
  | halts (code : Int)
  | hangs
  | crashes
deriving DecidableEq, Repr

abbrev Segment := Kernel × Ending

/-- The first value that an `int` counter cannot take. -/
def intLimit : Nat := 2 ^ 31

namespace Kernel

def modify (k : Kernel) (i : Slot) (f : Process → Process) : Kernel :=
  { k with process_table := EntryTable.modify k.process_table i f }

/-- The pid marks a free entry. -/
def occupied (k : Kernel) (i : Slot) : Bool := (k.process_table i).pid ≠ -1

def status (k : Kernel) (i : Slot) : Status := (k.process_table i).status

def next (k : Kernel) (i : Slot) : Option Slot := (k.process_table i).next

def children (k : Kernel) (i : Slot) : Option Slot := (k.process_table i).children

def parent (k : Kernel) (i : Slot) : Option Slot := (k.process_table i).parent

/-- The only entry that `spork` looks at, `next_pid % MAXPROC` after the increment. -/
def slot (k : Kernel) : Slot := ⟨(k.next_pid + 1) % maxProc, Nat.mod_lt _ (by decide)⟩

/-- `spork` fills in the entry. -/
def newProcess (k : Kernel) (slot parent : Slot) (startFunc : Bool) (pid : Int) : Kernel :=
  k.modify slot fun p => { p with
    pid, status := .runnable, children := none, next := none, parent := some parent, startFunc }

/-- The new process is put at the end of the list of its parent. -/
def linkChild (k : Kernel) (parent child : Slot) : Option Kernel :=
  match seek k.next (fun i => (k.next i).isNone) maxProc none (k.children parent) with
  | .endless => none
  | .absent => some (k.modify parent fun p => { p with children := some child })
  | .at _ last => some (k.modify last fun p => { p with next := some child })

def spork (k : Kernel) (startFunc malloc : Bool) : Segment :=
  if intLimit ≤ k.next_pid + 1 then (k, .crashes)
  else
    let k' := { k with next_pid := k.next_pid + 1 }
    if k.occupied k.slot then (k', .returns (-1) none)
    else if malloc = false then (k', .halts 1)
    else match k.running_process with
      | none => (k', .crashes)
      | some parent => match (k'.newProcess k.slot parent startFunc k.next_pid).linkChild parent k.slot with
        | none => (k', .hangs)
        | some k'' => (k'', .returns k.next_pid none)

/-- The walk of `join` for the terminated child with the greatest `termOrder`;
`none` when the list has no end. -/
def target (k : Kernel) : Nat → Int → Option Slot → Option Slot → Option (Option Slot)
  | _, _, found, none => some found
  | 0, _, _, some _ => none
  | fuel + 1, highestOrder, found, some child =>
    if k.status child = .terminated ∧ highestOrder < (k.process_table child).termOrder then
      k.target fuel (k.process_table child).termOrder (some child) (k.next child)
    else k.target fuel highestOrder found (k.next child)

/-- The target is taken out of the list, which has a case of its own for the first child. -/
def unlink (k : Kernel) (parent child : Slot) : Option Kernel :=
  if k.children parent = some child then some (k.modify parent fun p => { p with children := k.next child })
  else match seek k.next (fun i => k.next i = some child) maxProc none (k.children parent) with
    | .endless => none
    | .absent => some k
    | .at _ prev => some (k.modify prev fun p => { p with next := k.next child })

/-- `status` says whether the argument is not `NULL`. -/
def join (k : Kernel) (status : Bool) : Segment :=
  if status = false then (k, .returns (-3) none)
  else match k.running_process with
    | none => (k, .crashes)
    | some parent => match k.target maxProc (-1) none (k.children parent) with
      | none => (k, .hangs)
      | some none => (k, .returns (-2) none)
      | some (some child) => match k.unlink parent child with
        | none => (k, .hangs)
        | some k' => (k'.modify child fun p => { p with pid := -1, status := .runnable },
            .returns (k.process_table child).pid (some (k.process_table child).exit_status))

/-- The loop for the process to switch to. -/
def find (k : Kernel) (pid : Int) : Option Slot :=
  ((List.finRange maxProc).find? fun i => (k.process_table i).pid = pid).filter fun i => k.occupied i

/-- `none` when no process has the pid. -/
def switchTo (k : Kernel) (pid : Int) : Option Kernel :=
  (k.find pid).map fun i => { k with running_process := some i }

def quit_phase_1a (k : Kernel) (status switchToPid : Int) : Segment :=
  match k.running_process with
  | none => (k, .crashes)
  | some p =>
    if intLimit ≤ k.terminationCounter + 1 then (k, .crashes)
    else
      let k' := { k.modify p fun e =>
        { e with status := .terminated, exit_status := status, termOrder := k.terminationCounter } with
        terminationCounter := k.terminationCounter + 1 }
      match k'.switchTo switchToPid with
      | none => (k', .halts 1)
      | some k'' => (k'', .switches)

/-- The end of `processWrapper`: the process goes to its parent. -/
def finish (k : Kernel) (rc : Int) : Segment :=
  match k.running_process with
  | none => (k, .crashes)
  | some p => k.quit_phase_1a rc (match k.parent p with
    | some q => (k.process_table q).pid
    | none => 0)

def TEMP_switchTo (k : Kernel) (newpid : Int) : Segment :=
  match k.switchTo newpid with
  | none => (k, .halts 1)
  | some k' => (k', .switches)

end Kernel

def emptyProcess : Process where
  pid := -1
  status := .runnable
  children := none
  next := none
  parent := none
  startFunc := false
  exit_status := 0
  termOrder := 0

theorem one_lt_maxProc : 1 < maxProc := by decide

def initSlot : Slot := ⟨1, one_lt_maxProc⟩

/-- `phase1_init`: the process `init` is alone in the table. -/
def phase1_init : Kernel where
  process_table := Function.update (fun _ => emptyProcess) initSlot { emptyProcess with pid := 1, startFunc := true }
  running_process := none
  next_pid := 2
  terminationCounter := 0

/-- A call of one of the functions of `phase1a.h`. `finish` is the return of
`startFunc` to `processWrapper`. -/
inductive Call
  | spork (startFunc malloc : Bool)
  | join (status : Bool)
  | quit_phase_1a (status switchToPid : Int)
  | finish (rc : Int)
  | TEMP_switchTo (newpid : Int)
deriving DecidableEq, Repr

/-- The function a call is of. -/
inductive Fn
  | spork
  | join
  | quit_phase_1a
  | TEMP_switchTo
deriving DecidableEq, Repr

def Call.fn : Call → Fn
  | .spork .. => .spork
  | .join _ => .join
  | .quit_phase_1a .. | .finish _ => .quit_phase_1a
  | .TEMP_switchTo _ => .TEMP_switchTo

def Call.exec (k : Kernel) : Call → Segment
  | .spork startFunc malloc => k.spork startFunc malloc
  | .join status => k.join status
  | .quit_phase_1a status switchToPid => k.quit_phase_1a status switchToPid
  | .finish rc => k.finish rc
  | .TEMP_switchTo newpid => k.TEMP_switchTo newpid

/-- Where the process of an entry stands: it has not run yet, it runs code of
its own, or it has called a function that switches. -/
inductive Place
  | fresh
  | user
  | inside (fn : Fn)
deriving DecidableEq, Repr

inductive Event
  | called (pid : Int) (fn : Fn)
  | returned (pid : Int) (fn : Fn) (value : Int) (status : Option Int)
deriving DecidableEq, Repr

/-- Why nothing runs any more. -/
inductive Stop
  | halted (code : Int)
  | hung
  | crashed
deriving DecidableEq, Repr

/-- The kernel with its processes. `log` is history, with the newest event first. -/
structure Machine where
  kernel : Kernel
  place : Slot → Place
  stopped : Option Stop
  log : List Event

/-- The bootstrap switches to the first process, the running process makes a
call, or it runs on after it has been switched to. -/
inductive Act
  | start (newpid : Int)
  | call (c : Call)
  | resume
deriving DecidableEq, Repr

namespace Machine

def boot : Machine where
  kernel := phase1_init
  place _ := .fresh
  stopped := none
  log := []

def pid (m : Machine) (p : Slot) : Int := (m.kernel.process_table p).pid

/-- An entry that `spork` has taken gets a new context. -/
def contexts (m : Machine) (k : Kernel) : Slot → Place :=
  EntryTable.renewed m.kernel.occupied k.occupied .fresh m.place

def stop (m : Machine) (reason : Stop) : Machine :=
  { m with stopped := some reason }

def settle (m : Machine) (p : Slot) (fn : Fn) (seg : Segment) : Machine :=
  match seg.2 with
  | .returns value status =>
    { m with kernel := seg.1, place := m.contexts seg.1, log := .returned (m.pid p) fn value status :: m.log }
  | .switches => { m with kernel := seg.1, place := Function.update m.place p (.inside fn) }
  | .halts code => m.stop (.halted code)
  | .hangs => m.stop .hung
  | .crashes => m.stop .crashed

/-- `p` makes a call. -/
def run (m : Machine) (p : Slot) (c : Call) : Machine :=
  { m with log := .called (m.pid p) c.fn :: m.log }.settle p c.fn (c.exec m.kernel)

def step (m : Machine) (a : Act) : Option Machine :=
  if m.stopped.isSome then none
  else match a, m.kernel.running_process with
  | .start newpid, none => match m.kernel.switchTo newpid with
    | some k => some { m with kernel := k }
    | none => some (m.stop (.halted 1))
  | .call c, some p => if m.place p = .user then some (m.run p c) else none
  | .resume, some p => match m.place p with
    | .fresh =>
      if (m.kernel.process_table p).startFunc then some { m with place := Function.update m.place p .user }
      else some (m.stop (.halted 1))
    | .inside .quit_phase_1a => some (m.stop (.halted 1))
    | .inside fn =>
      some { m with place := Function.update m.place p .user, log := .returned (m.pid p) fn 0 none :: m.log }
    | .user => none
  | _, _ => none

/-- What a step can do to a machine that goes on. -/
inductive Move (m : Machine) : Machine → Prop
  | starts {newpid : Int} {k : Kernel} : m.kernel.switchTo newpid = some k → Move m { m with kernel := k }
  | begins {p : Slot} : m.place p = .fresh → Move m { m with place := Function.update m.place p .user }
  | returns {p : Slot} {fn : Fn} : m.place p = .inside fn → fn ≠ .quit_phase_1a → Move m { m with
      place := Function.update m.place p .user, log := .returned (m.pid p) fn 0 none :: m.log }
  | calls {p : Slot} {c : Call} : m.kernel.running_process = some p → m.place p = .user → Move m (m.run p c)
  | stops {reason : Stop} : Move m (m.stop reason)

variable {m m' : Machine} {p i : Slot} {a : Act} {c : Call} {k : Kernel} {value : Int} {status : Option Int}

theorem step_move (moves : m.step a = some m') : m.stopped = none ∧ Move m m' := by
  unfold step at moves
  split at moves
  · cases moves
  rename_i goesOn
  refine ⟨by simpa using goesOn, ?_⟩
  split at moves
  · split at moves
    · rename_i switched
      cases moves
      exact .starts switched
    · cases moves
      exact .stops
  · rename_i runs
    split at moves
    · rename_i place
      cases moves
      exact .calls runs place
    · cases moves
  · split at moves
    · rename_i place
      split at moves
      · cases moves
        exact .begins place
      · cases moves
        exact .stops
    · cases moves
      exact .stops
    · rename_i other place
      cases moves
      exact .returns place other
    · cases moves
  · cases moves

theorem run_returns (goes : c.exec m.kernel = (k, .returns value status)) : m.run p c = { m with
      kernel := k, place := m.contexts k
      log := .returned (m.pid p) c.fn value status :: .called (m.pid p) c.fn :: m.log } := by
  unfold run settle
  rw [goes]
  rfl

theorem run_switches (goes : c.exec m.kernel = (k, .switches)) : m.run p c = { m with
    kernel := k, place := Function.update m.place p (.inside c.fn), log := .called (m.pid p) c.fn :: m.log } := by
  unfold run settle
  rw [goes]

theorem run_stops {ending : Ending} (goes : c.exec m.kernel = (k, ending))
    (notReturns : ∀ value status, ending ≠ .returns value status) (notSwitches : ending ≠ .switches) :
    ∃ reason, m.run p c = { m with stopped := some reason, log := .called (m.pid p) c.fn :: m.log } := by
  unfold run settle
  rw [goes]
  cases ending with
  | returns value status => exact absurd rfl (notReturns value status)
  | switches => exact absurd rfl notSwitches
  | halts code => exact ⟨.halted code, rfl⟩
  | hangs => exact ⟨.hung, rfl⟩
  | crashes => exact ⟨.crashed, rfl⟩

end Machine

end UslossKernel.Phase1a
