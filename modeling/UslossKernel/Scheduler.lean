import UslossKernel.Library.Transition
import UslossKernel.ProcessTable

namespace UslossKernel.Phase1b

open LinkedList

/-- A call of one of the functions of `phase1b.h`, with its arguments.
`kernelMode` is the mode of the processor; for `join` the argument says whether
the pointer is not `NULL`, and for `spork` two say whether `startFunc` is not
`NULL` and whether `malloc` succeeds. `finish` is the return of `startFunc` to
`processWrapper`, and `dispatcher` also the call that the clock interrupt makes. -/
inductive Call
  | spork (kernelMode startFunc malloc : Bool) (stackSize priority : Int)
  | join (status : Bool)
  | quit (kernelMode : Bool) (status : Int)
  | finish (kernelMode : Bool) (rc : Int)
  | blockMe
  | unblockProc (pid : Int)
  | zap (pid : Int)
  | dispatcher
deriving DecidableEq, Repr

/-- The function a call is of. -/
inductive Fn
  | spork
  | join
  | quit (status : Int)
  | blockMe
  | unblockProc (pid : Int)
  | zap (pid : Int)
  | dispatcher
deriving DecidableEq, Repr

def Call.fn : Call → Fn
  | .spork .. => .spork
  | .join _ => .join
  | .quit _ status | .finish _ status => .quit status
  | .blockMe => .blockMe
  | .unblockProc pid => .unblockProc pid
  | .zap pid => .zap pid
  | .dispatcher => .dispatcher

def Inside.fn : Inside → Fn
  | .spork _ => .spork
  | .join => .join
  | .quit status => .quit status
  | .blockMe => .blockMe
  | .unblockProc pid => .unblockProc pid
  | .zap pid => .zap pid
  | .dispatcher => .dispatcher

/-- A place in the code from which a process runs on. -/
inductive Point
  | call (c : Call)
  | resume (inside : Inside)
deriving DecidableEq, Repr

def Point.fn : Point → Fn
  | .call c => c.fn
  | .resume inside => inside.fn

def Call.exec (k : Kernel) : Call → Segment
  | .spork kernelMode startFunc malloc stackSize priority => k.spork kernelMode startFunc malloc stackSize priority
  | .join status => k.join status
  | .quit kernelMode status => k.quit kernelMode status
  | .finish kernelMode rc => k.finish kernelMode rc
  | .blockMe => k.blockMe
  | .unblockProc pid => k.unblockProc pid
  | .zap pid => k.zap pid
  | .dispatcher => (k, .dispatches .dispatcher)

/-- What follows the `dispatcher()` once the process `p` runs again. -/
def Inside.exec (k : Kernel) (p : Slot) : Inside → Segment
  | .spork new_proc => (k, .returns (k.process_table new_proc).pid none)
  | .join => k.joinLoop p
  | .quit _ | .blockMe | .unblockProc _ | .zap _ | .dispatcher => (k, .returns 0 none)

def Point.exec (k : Kernel) (p : Slot) : Point → Segment
  | .call c => c.exec k
  | .resume inside => inside.exec k p

/-- Where the process of an entry stands: it has not run yet, it runs code of
its own, or it is in a call that has called `dispatcher`. -/
inductive Place
  | fresh
  | user
  | inside (inside : Inside)
deriving DecidableEq, Repr

inductive Event
  | called (pid : Int) (fn : Fn)
  | returned (pid : Int) (fn : Fn) (value : Int) (status : Option Int)
deriving DecidableEq, Repr

/-- Why nothing runs any more: `USLOSS_Halt`, a walk without end, or the use of
a `NULL` pointer or of a freed stack. -/
inductive Stop
  | halted (code : Int)
  | hung (walk : Walk)
  | crashed
deriving DecidableEq, Repr

/-- The kernel with its processes. The last two fields are history: the events
so far, newest first, and how many there were when the process of an entry made
its last call, that call included. -/
structure Machine where
  kernel : Kernel
  place : Slot → Place
  stopped : Option Stop
  log : List Event
  entered : Slot → Nat

/-- `startup` calls `dispatcher` once, the running process makes a call, or it
runs on after it has been switched to. -/
inductive Act
  | start
  | call (c : Call)
  | resume
deriving DecidableEq, Repr

namespace Machine

def boot : Machine where
  kernel := phase1_init
  place _ := .fresh
  stopped := none
  log := []
  entered _ := 0

def pid (m : Machine) (p : Slot) : Int := (m.kernel.process_table p).pid

/-- Enter a call in the history. -/
def enter (m : Machine) (p : Slot) : Point → Machine
  | .call c =>
    { m with
      log := .called (m.pid p) c.fn :: m.log
      entered := Function.update m.entered p (m.log.length + 1) }
  | .resume _ => m

/-- An entry that `spork` has taken gets a new context. -/
def contexts (m : Machine) (k : Kernel) : Slot → Place :=
  EntryTable.renewed m.kernel.occupied k.occupied .fresh m.place

/-- `p` returns to its own code. -/
def back (m : Machine) (p : Slot) (fn : Fn) (k : Kernel) (value : Int) (status : Option Int) : Machine :=
  { m with
    kernel := k
    place := Function.update (m.contexts k) p .user
    log := .returned (m.pid p) fn value status :: m.log }

/-- `p` has called `dispatcher`, which has switched to another process. -/
def switch (m : Machine) (p : Slot) (inside : Inside) (k : Kernel) : Machine :=
  { m with
    kernel := k
    place := Function.update (m.contexts k) p (.inside inside) }

/-- The tables no longer matter. -/
def stop (m : Machine) (reason : Stop) : Machine :=
  { m with stopped := some reason }

def settle (m : Machine) (p : Slot) (fn : Fn) (seg : Segment) : Machine :=
  match seg.2 with
  | .returns value status => m.back p fn seg.1 value status
  | .dispatches inside => match seg.1.dispatcher with
    | some k => m.switch p inside k
    | none => m.stop (.halted 0)
  | .halts code => m.stop (.halted code)
  | .hangs walk => m.stop (.hung walk)
  | .crashes => m.stop .crashed

def run (m : Machine) (p : Slot) (pt : Point) : Machine :=
  (m.enter p pt).settle p pt.fn (pt.exec m.kernel p)

def step (m : Machine) (a : Act) : Option Machine :=
  if m.stopped.isSome then none
  else match a, m.kernel.running_process with
  | .start, none => match m.kernel.dispatcher with
    | some k => some { m with kernel := k }
    | none => some (m.stop (.halted 0))
  | .call c, some p => if m.place p = .user then some (m.run p (.call c)) else none
  | .resume, some p => match m.place p with
    | .fresh =>
      if (m.kernel.process_table p).startFunc then some { m with place := Function.update m.place p .user }
      else some (m.stop (.halted 1))
    | .inside inside =>
      if (m.kernel.process_table p).stack then some (m.run p (.resume inside)) else some (m.stop .crashed)
    | .user => none
  | _, _ => none

end Machine

namespace Kernel

theorem dispatcher_eq_some {k k' : Kernel} : k.dispatcher = some k' ↔
    ∃ next, k.selected = some next ∧ k.running_process ≠ some next ∧
      k' = { k with running_process := some next } := by
  unfold dispatcher contextSwitch
  constructor
  · intro switched
    obtain ⟨next, selected, switched⟩ := Option.bind_eq_some_iff.mp switched
    split at switched
    · cases switched
    · rename_i other
      exact ⟨next, selected, other, (Option.some.inj switched).symm⟩
  · rintro ⟨next, selected, other, rfl⟩
    simp [selected, other]

theorem findSome?_range {α : Type} {f : Nat → Option α} {n : Nat} {a : α} :
    (List.range n).findSome? f = some a ↔ ∃ q < n, f q = some a ∧ ∀ q' < q, f q' = none := by
  induction n with
  | zero => simp
  | succ n ih =>
    rw [List.range_succ, List.findSome?_append, Option.or_eq_some_iff, ih]
    have none : (List.range n).findSome? f = none ↔ ∀ q < n, f q = none := by simp
    have single : [n].findSome? f = f n := by cases atN : f n <;> simp [atN]
    rw [none, single]
    constructor
    · rintro (⟨q, bound, atQ, before⟩ | ⟨before, atN⟩)
      · exact ⟨q, by omega, atQ, before⟩
      · exact ⟨n, by omega, atN, before⟩
    · rintro ⟨q, bound, atQ, before⟩
      by_cases last : q = n
      · subst last
        exact .inr ⟨before, atQ⟩
      · exact .inl ⟨q, by omega, atQ, before⟩

/-- The head that is selected is not blocked, and those before it are. -/
theorem selected_eq_some {k : Kernel} {next : Slot} : k.selected = some next ↔
    ∃ q < 6, k.ready_queues q = some next ∧ k.status next ≠ .blocked ∧
      ∀ q' < q, ∀ i, k.ready_queues q' = some i → k.status i = .blocked := by
  unfold selected
  rw [findSome?_range]
  simp [Option.filter_eq_some_iff, Option.filter_eq_none_iff, and_assoc]

theorem selected_eq_none {k : Kernel} : k.selected = none ↔
    ∀ q < 6, ∀ i, k.ready_queues q = some i → k.status i = .blocked := by
  simp [selected, List.findSome?_eq_none_iff, Option.filter_eq_none_iff]

end Kernel

end UslossKernel.Phase1b
