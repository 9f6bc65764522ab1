import UslossKernel.MboxCalls
import UslossKernel.Library.Transition

namespace UslossKernel

/-- Where a process is. `outside` is any state in which it is not inside a
mailbox call and not suspended; `asleep` is suspended by another layer's
`blockMe`, `join` or `zap`. -/
inductive Proc
  | outside
  | asleep
  | blocked (w : Wait)
  | woken (w : Wait)
  | unblocking (k : Cont)
deriving DecidableEq, Repr

/-- `blockMe` has suspended it and nobody has named its pid since. -/
def Proc.suspended : Proc → Bool
  | .blocked _ | .asleep => true
  | _ => false

/-- In no mailbox call. -/
def Proc.idle : Proc → Bool
  | .outside | .asleep => true
  | _ => false

/-- The effect of `unblockProc` on the process it names. -/
def Proc.wake : Proc → Proc
  | .blocked w => .woken w
  | .asleep => .outside
  | proc => proc

def Proc.blockedIn (kind : Wait → Bool) : Proc → Bool
  | .blocked w => kind w
  | _ => false

def Proc.wokenIn (kind : Wait → Bool) : Proc → Bool
  | .woken w => kind w
  | _ => false

/-- Suspended or woken but not yet running again. -/
def Proc.waitsIn (kind : Wait → Bool) : Proc → Bool
  | .blocked w | .woken w => kind w
  | _ => false

/-- Inside an `unblockProc` that has not returned. -/
def Proc.unblockingIn (kind : Cont → Bool) : Proc → Bool
  | .unblocking k => kind k
  | _ => false

namespace Proc

@[simp] theorem blockedIn_outside (kind : Wait → Bool) : Proc.outside.blockedIn kind = false := rfl
@[simp] theorem blockedIn_asleep (kind : Wait → Bool) : Proc.asleep.blockedIn kind = false := rfl
@[simp] theorem blockedIn_blocked (kind : Wait → Bool) (w : Wait) : (Proc.blocked w).blockedIn kind = kind w := rfl
@[simp] theorem blockedIn_woken (kind : Wait → Bool) (w : Wait) : (Proc.woken w).blockedIn kind = false := rfl
@[simp] theorem blockedIn_unblocking (kind : Wait → Bool) (k : Cont) :
    (Proc.unblocking k).blockedIn kind = false := rfl

@[simp] theorem wokenIn_outside (kind : Wait → Bool) : Proc.outside.wokenIn kind = false := rfl
@[simp] theorem wokenIn_asleep (kind : Wait → Bool) : Proc.asleep.wokenIn kind = false := rfl
@[simp] theorem wokenIn_blocked (kind : Wait → Bool) (w : Wait) : (Proc.blocked w).wokenIn kind = false := rfl
@[simp] theorem wokenIn_woken (kind : Wait → Bool) (w : Wait) : (Proc.woken w).wokenIn kind = kind w := rfl
@[simp] theorem wokenIn_unblocking (kind : Wait → Bool) (k : Cont) :
    (Proc.unblocking k).wokenIn kind = false := rfl

@[simp] theorem unblockingIn_outside (kind : Cont → Bool) : Proc.outside.unblockingIn kind = false := rfl
@[simp] theorem unblockingIn_asleep (kind : Cont → Bool) : Proc.asleep.unblockingIn kind = false := rfl
@[simp] theorem unblockingIn_blocked (kind : Cont → Bool) (w : Wait) :
    (Proc.blocked w).unblockingIn kind = false := rfl
@[simp] theorem unblockingIn_woken (kind : Cont → Bool) (w : Wait) :
    (Proc.woken w).unblockingIn kind = false := rfl
@[simp] theorem unblockingIn_unblocking (kind : Cont → Bool) (k : Cont) :
    (Proc.unblocking k).unblockingIn kind = kind k := rfl

end Proc

/-- The mailbox layer with its processes. `cpu` is the process that has the
CPU, `none` while any runnable process may get it. The last three fields are
history: for each operation the calls made so far, which of them a process
made last, and what the calls have returned. -/
structure Sys where
  globals : Globals
  proc : Pid → Proc
  cpu : Option Pid
  fault : Option Fault
  calls : Fn → List Call
  ordinal : Pid → Nat
  returned : Fn → List (Nat × Result)

/-- What can happen next. Outside the mailbox layer a process may give up
the CPU (`yield`), suspend itself (`sleep`) or be made runnable (`rouse`). -/
inductive Act
  | call (p : Pid) (c : Call)
  | resume (p : Pid)
  | yield (p : Pid)
  | sleep (p : Pid)
  | rouse (p : Pid)
deriving DecidableEq, Repr

def Act.pid : Act → Pid
  | .call p _ | .resume p | .yield p | .sleep p | .rouse p => p

/-- A place in the code from which a process runs on. -/
inductive Point
  | start (c : Call)
  | afterBlock (w : Wait)
  | afterUnblock (k : Cont)
deriving DecidableEq, Repr

def Point.fn : Point → Fn
  | .start c => c.fn
  | .afterBlock w => w.fn
  | .afterUnblock k => k.fn

def Point.exec (g : Globals) (pid : Pid) : Point → Segment
  | .start c => c.start g pid
  | .afterBlock w => w.resume g pid
  | .afterUnblock k => k.resume g

def Point.act (p : Pid) : Point → Act
  | .start c => .call p c
  | .afterBlock _ | .afterUnblock _ => .resume p

@[simp] theorem Point.act_pid (p : Pid) (pt : Point) : (pt.act p).pid = p := by
  cases pt <;> rfl

/-- The points a process can run on from. -/
inductive Proc.At : Proc → Point → Prop
  | start {c} : Proc.At .outside (.start c)
  | afterBlock {w} : Proc.At (.woken w) (.afterBlock w)
  | afterUnblock {k} : Proc.At (.unblocking k) (.afterUnblock k)

namespace Sys

def boot : Sys where
  globals := phase2Init
  proc _ := .outside
  cpu := none
  fault := none
  calls _ := []
  ordinal _ := 0
  returned _ := []

/-- The CPU stays with a process until it blocks, wakes another or leaves. -/
def mayRun (s : Sys) (p : Pid) : Bool :=
  s.fault.isNone && (s.cpu = none || s.cpu = some p)

/-- Enter a call in the history. -/
def enter (s : Sys) (p : Pid) : Point → Sys
  | .start c =>
    { s with
      calls := Function.update s.calls c.fn (s.calls c.fn ++ [c])
      ordinal := Function.update s.ordinal p (s.calls c.fn).length }
  | _ => s

/-- The state after `p`, inside a call of `fn`, has run a stretch of code.
`unblockProc` gives up the CPU only when it has made a process runnable. -/
def settle (s : Sys) (p : Pid) (fn : Fn) (g : Globals) : Outcome → Sys
  | .returns r =>
    { s with
      globals := g
      proc := Function.update s.proc p .outside
      cpu := some p
      returned := Function.update s.returned fn (s.returned fn ++ [(s.ordinal p, r)]) }
  | .blocks w => { s with globals := g, proc := Function.update s.proc p (.blocked w), cpu := none }
  | .unblocks pid k =>
    let proc := Function.update s.proc p (.unblocking k)
    { s with
      globals := g
      proc := Function.update proc pid (proc pid).wake
      cpu := if (proc pid).suspended then none else some p }
  | .faults f => { s with fault := some f }

/-- The state after `p` has run a stretch of code from the given point. -/
def after (s : Sys) (p : Pid) (pt : Point) (seg : Segment) : Sys :=
  (s.enter p pt).settle p pt.fn seg.1 seg.2

def run (s : Sys) (p : Pid) (pt : Point) : Sys :=
  s.after p pt (pt.exec s.globals p)

def step (s : Sys) : Act → Option Sys
  | .call p c => if s.mayRun p ∧ s.proc p = .outside then some (s.run p (.start c)) else none
  | .resume p =>
    if s.mayRun p then
      match s.proc p with
      | .woken w => some (s.run p (.afterBlock w))
      | .unblocking k => some (s.run p (.afterUnblock k))
      | _ => none
    else none
  | .yield p => if s.mayRun p ∧ s.proc p = .outside then some { s with cpu := none } else none
  | .sleep p =>
    if s.mayRun p ∧ s.proc p = .outside then
      some { s with proc := Function.update s.proc p .asleep, cpu := none }
    else none
  | .rouse p =>
    if s.fault.isNone ∧ s.proc p = .asleep then some { s with proc := Function.update s.proc p .outside } else none

/-- Suspended inside `MboxSend` on `m` and not yet woken. -/
abbrev SuspendedSend (s : Sys) (m : MboxId) (p : Pid) : Prop :=
  (s.proc p).blockedIn (Wait.sendsTo m) = true

/-- Suspended inside `MboxRecv` on `m` and not yet woken. -/
abbrev SuspendedRecv (s : Sys) (m : MboxId) (p : Pid) : Prop :=
  (s.proc p).blockedIn (Wait.receivesFrom m) = true

/-- No process already woken by `unblockProc` is still waiting to resume. -/
def Settled (s : Sys) : Prop :=
  ∀ p w, s.proc p ≠ .woken w

/-- What a step of the system can do: run a stretch of code, or move a
process that is not in a mailbox call. -/
inductive Move (s : Sys) : Act → Sys → Prop
  | segment {p pt} : s.mayRun p = true → (s.proc p).At pt → Move s (pt.act p) (s.run p pt)
  | idle {a proc cpu} : (s.proc a.pid).idle = true → proc.idle = true →
      Move s a { s with proc := Function.update s.proc a.pid proc, cpu := cpu }

theorem step_move {s s' : Sys} {a : Act} (moves : s.step a = some s') : Move s a s' := by
  cases a with
  | call p c =>
    simp only [step, Option.ite_none_right_eq_some, Option.some.injEq] at moves
    obtain ⟨⟨may, out⟩, rfl⟩ := moves
    have here : (s.proc p).At (.start c) := by rw [out]; exact .start
    exact .segment may here
  | resume p =>
    simp only [step, Option.ite_none_right_eq_some] at moves
    obtain ⟨may, moves⟩ := moves
    split at moves
    · rename_i w atW
      obtain rfl := Option.some.inj moves
      have here : (s.proc p).At (.afterBlock w) := by rw [atW]; exact .afterBlock
      exact .segment may here
    · rename_i k atK
      obtain rfl := Option.some.inj moves
      have here : (s.proc p).At (.afterUnblock k) := by rw [atK]; exact .afterUnblock
      exact .segment may here
    · cases moves
  | yield p =>
    simp only [step, Option.ite_none_right_eq_some, Option.some.injEq] at moves
    obtain ⟨⟨_, out⟩, rfl⟩ := moves
    have same : Function.update s.proc p .outside = s.proc := by rw [← out, Function.update_eq_self]
    have moved : Move s (.yield p) { s with proc := Function.update s.proc p .outside, cpu := none } :=
      .idle (by rw [Act.pid, out]; rfl) rfl
    rwa [same] at moved
  | sleep p =>
    simp only [step, Option.ite_none_right_eq_some, Option.some.injEq] at moves
    obtain ⟨⟨_, out⟩, rfl⟩ := moves
    exact .idle (by rw [Act.pid, out]; rfl) rfl
  | rouse p =>
    simp only [step, Option.ite_none_right_eq_some, Option.some.injEq] at moves
    obtain ⟨⟨_, asleep⟩, rfl⟩ := moves
    exact .idle (by rw [Act.pid, asleep]; rfl) rfl

/-- Carried out from the start, the actions lead to `s`. -/
def Reaches (actions : List Act) (s : Sys) : Prop :=
  Transition.execute Sys.step (fun _ _ => true) boot actions = some s

theorem exists_reaches (actions : List Act) (test : Sys → Bool)
    (passes : (Transition.execute Sys.step (fun _ _ => true) boot actions).any test = true) :
    ∃ s, Reaches actions s ∧ test s = true :=
  Transition.exists_executed _ _ _ _ _ passes

theorem Reaches.concat {actions : List Act} {a : Act} {s s' : Sys} (reaches : Reaches actions s)
    (moves : s.step a = some s') : Reaches (actions ++ [a]) s' :=
  Transition.execute_concat.mpr ⟨s, reaches, moves⟩

@[simp] theorem enter_proc (s : Sys) (p : Pid) (pt : Point) : (s.enter p pt).proc = s.proc := by
  cases pt <;> rfl

@[simp] theorem enter_globals (s : Sys) (p : Pid) (pt : Point) : (s.enter p pt).globals = s.globals := by
  cases pt <;> rfl

/-- A process that is not suspended stays where it is while another runs. -/
theorem after_other {s : Sys} {p q : Pid} {pt : Point} {seg : Segment} (other : q ≠ p)
    (awake : (s.proc q).wake = s.proc q) : (s.after p pt seg).proc q = s.proc q := by
  obtain ⟨g, outcome⟩ := seg
  cases outcome with
  | returns | blocks => simp only [after, settle, enter_proc, Function.update_of_ne other]
  | unblocks pid k =>
    simp only [after, settle, enter_proc]
    by_cases named : q = pid
    · subst named
      rw [Function.update_self, Function.update_of_ne other, awake]
    · rw [Function.update_of_ne named, Function.update_of_ne other]
  | faults => simp only [after, settle, enter_proc]

theorem after_outside {s : Sys} {p q : Pid} {pt : Point} {seg : Segment} (other : q ≠ p)
    (out : s.proc q = .outside) : (s.after p pt seg).proc q = .outside := by
  rw [after_other other (by rw [out]; rfl), out]

/-- A process that none of the actions is by is in no call. -/
def Within (actions : List Act) (s : Sys) : Prop :=
  ∀ q, (∀ a ∈ actions, a.pid ≠ q) → s.proc q = .outside

/-- An action outside the mailbox layer. -/
theorem step_idle {s s' : Sys} {a : Act} (call : ∀ c, a ≠ .call a.pid c) (resume : a ≠ .resume a.pid)
    (moves : s.step a = some s') : ∃ proc cpu, (s.proc a.pid).idle = true ∧ proc.idle = true ∧
      s' = { s with proc := Function.update s.proc a.pid proc, cpu := cpu } := by
  cases step_move moves with
  | @segment p pt =>
    cases pt with
    | start c => exact (call c rfl).elim
    | afterBlock | afterUnblock => exact (resume rfl).elim
  | idle was becomes => exact ⟨_, _, was, becomes, rfl⟩

theorem step_outside {s s' : Sys} {a : Act} {q : Pid} (other : q ≠ a.pid) (out : s.proc q = .outside)
    (moves : s.step a = some s') : s'.proc q = .outside := by
  cases step_move moves with
  | segment _ _ =>
    rw [Point.act_pid] at other
    exact after_outside other out
  | idle => exact (Function.update_of_ne other _ _).trans out

theorem Within.step {actions : List Act} {s s' : Sys} {a : Act} (within : s.Within actions) (member : a ∈ actions)
    (moves : s.step a = some s') : s'.Within actions :=
  fun q absent => step_outside (absent a member).symm (within q absent) moves

/-- It is enough to look at the processes that act. -/
theorem Within.forall {actions : List Act} {s : Sys} (within : s.Within actions) (test : Proc → Bool)
    (outside : test .outside = true) (acting : (actions.all fun a => test (s.proc a.pid)) = true) (q : Pid) :
    test (s.proc q) = true := by
  by_cases actor : ∃ a ∈ actions, a.pid = q
  · obtain ⟨a, member, rfl⟩ := actor
    exact List.all_eq_true.mp acting a member
  · push Not at actor
    rw [within q actor]
    exact outside

theorem Within.not_blocked {actions : List Act} {s : Sys} (within : s.Within actions) {kind : Wait → Bool}
    (awake : (actions.all fun a => !(s.proc a.pid).blockedIn kind) = true) (q : Pid) :
    ¬ (s.proc q).blockedIn kind = true := by
  simpa using within.forall (fun proc => !proc.blockedIn kind) rfl awake q

theorem Within.settled {actions : List Act} {s : Sys} (within : s.Within actions)
    (awake : (actions.all fun a => !(s.proc a.pid).wokenIn fun _ => true) = true) : s.Settled := by
  intro q w atW
  have here := within.forall (fun proc => !proc.wokenIn fun _ => true) rfl awake q
  simp [atW] at here

theorem Reaches.within {actions : List Act} {s : Sys} (reaches : Reaches actions s) : s.Within actions :=
  (Transition.Run.of_executed reaches).invariant (Within actions) (fun _ _ => rfl)
    fun _ _ _ within both moves => within.step both.2 moves

theorem Reaches.settled {actions : List Act} {s : Sys} (reaches : Reaches actions s)
    (awake : (actions.all fun a => !(s.proc a.pid).wokenIn fun _ => true) = true) : s.Settled :=
  reaches.within.settled awake

/-- A run under a guard for which there is a test. -/
theorem Reaches.run {guard : Sys → Act → Prop} {actions : List Act} {s : Sys} (reaches : Reaches actions s)
    (admits : Sys → Act → Bool) (implies : ∀ s a, s.Within actions → admits s a = true → guard s a)
    (passes : (Transition.execute Sys.step admits boot actions).isSome = true) :
    Transition.Run Sys.step guard boot s := by
  obtain ⟨finish, executed⟩ := Option.isSome_iff_exists.mp passes
  have same := (Transition.execute_admitting executed).symm.trans reaches
  cases Option.some.inj same
  have run := (Transition.Run.of_executed executed).with_invariant (Within actions) (fun _ _ => rfl)
    fun _ _ _ within both moves => within.step both.2 moves
  exact run.mono fun s a both => implies s a both.1 both.2.1

end Sys

end UslossKernel
