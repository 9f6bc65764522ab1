import UslossKernel.EntryFates
import UslossKernel.Processes

namespace UslossKernel

open Phase1b (Slot Machine Turn Ledger)

/-- Where a process stands that is inside a mailbox call: it has called
`blockMe`, or `unblockProc`. -/
inductive Stand
  | wait (w : Wait)
  | cont (k : Cont)
deriving DecidableEq, Repr

def Stand.point : Stand → Point
  | .wait w => .afterBlock w
  | .cont k => .afterUnblock k

/-- Phase 2 on top of phase 1: the mailbox calls of the processes in the process
table, with `blockMe` and `unblockProc` as they are there. `holder` is inside a
mailbox call and has the CPU, since its `unblockProc` has returned at once. The
last three fields are history. -/
structure MailKernel where
  machine : Machine
  globals : Globals
  mail : Slot → Option Stand
  holder : Option Slot
  fault : Option Fault
  calls : Fn → List Call
  ordinal : Pid → Nat
  returned : Fn → List (Nat × Result)

/-- A process makes a mailbox call, runs on inside one, or takes a turn outside
of these. -/
inductive MailAct
  | call (p : Slot) (c : Call)
  | resume (p : Slot)
  | turn (t : Turn)
deriving DecidableEq, Repr

namespace MailKernel

def boot : MailKernel where
  machine := Machine.boot
  globals := phase2Init
  mail _ := none
  holder := none
  fault := none
  calls _ := []
  ordinal _ := 0
  returned _ := []

/-- The process is in its own code or in that of a mailbox call, and may run. -/
def runs (s : MailKernel) (p : Slot) : Bool :=
  s.machine.stopped.isNone && s.machine.live p && s.machine.place p = .user

/-- Nobody else is in the middle of a mailbox call. -/
def free (s : MailKernel) (p : Slot) : Bool :=
  s.fault.isNone && (s.holder = none || s.holder = some p)

/-- Enter a call in the history. -/
def enter (s : MailKernel) (p : Slot) : Point → MailKernel
  | .start c =>
    { s with
      calls := Function.update s.calls c.fn (s.calls c.fn ++ [c])
      ordinal := Function.update s.ordinal (s.machine.pid p) (s.calls c.fn).length }
  | _ => s

/-- How a stretch of code of a mailbox call ends; a turn of phase 1 begins with `blockMe` and `unblockProc`. -/
def settle (s : MailKernel) (p : Slot) (fn : Fn) (g : Globals) : Outcome → Option MailKernel
  | .returns r =>
    some { s with
      globals := g
      mail := Function.update s.mail p none
      holder := none
      returned := Function.update s.returned fn (s.returned fn ++ [(s.ordinal (s.machine.pid p), r)]) }
  | .blocks w => (s.machine.turn (.call p .blockMe)).map fun m =>
      { s with machine := m, globals := g, mail := Function.update s.mail p (some (.wait w)), holder := none }
  | .unblocks pid k => (s.machine.turn (.call p (.unblockProc pid))).map fun m =>
      { s with
        machine := m
        globals := g
        mail := Function.update s.mail p (some (.cont k))
        holder := if m.place p = .user then some p else none }
  | .faults f => some { s with fault := some f }

def run (s : MailKernel) (p : Slot) (pt : Point) : Option MailKernel :=
  let seg := pt.exec s.globals (s.machine.pid p)
  (s.enter p pt).settle p pt.fn seg.1 seg.2

def step (s : MailKernel) : MailAct → Option MailKernel
  | .call p c => if s.free p ∧ s.runs p ∧ s.mail p = none then s.run p (.start c) else none
  | .resume p => match s.mail p with
    | none => none
    | some stand =>
      if s.free p = false then none
      else if s.runs p then s.run p stand.point
      else (s.machine.turn (.resume p)).bind fun m =>
        let s' := { s with machine := m }
        if m.stopped.isSome then some s' else s'.run p stand.point
  | .turn t =>
    if s.free t.process ∧ s.mail t.process = none then
      (s.machine.turn t).map fun m => { s with machine := m }
    else none

/-- Where a process stands as the mailbox layer sees it. -/
def standing (s : MailKernel) (i : Slot) : Proc :=
  match s.mail i with
  | none => if s.machine.kernel.status i = .blocked then .asleep else .outside
  | some (.wait w) => if s.machine.kernel.status i = .blocked then .blocked w else .woken w
  | some (.cont k) => .unblocking k

/-- No turn outside of the mailbox calls wakes a process that is suspended in one. -/
def Spares (s : MailKernel) : MailAct → Prop
  | .turn t => ∀ i w, s.standing i = .blocked w → ¬ s.machine.Wakes t i
  | _ => True

end MailKernel

/-- What the mailbox layer knows of the processes is what stands in the process table. -/
structure Depicts (s : MailKernel) (sys : Sys) : Prop where
  globals : sys.globals = s.globals
  fault : sys.fault = s.fault
  calls : sys.calls = s.calls
  ordinal : sys.ordinal = s.ordinal
  returned : sys.returned = s.returned
  cpu : sys.cpu = s.holder.map s.machine.pid
  there : ∀ i, s.machine.kernel.occupied i = true → sys.proc (s.machine.pid i) = s.standing i
  absent : ∀ pid, (∀ i, s.machine.kernel.occupied i = true → s.machine.pid i ≠ pid) → sys.proc pid = .outside

/-- A process inside a mailbox call is in the `blockMe` or `unblockProc` that it has called there. -/
structure Seated (s : MailKernel) (i : Slot) : Prop where
  waits : ∀ w, s.mail i = some (.wait w) →
    s.machine.place i = .inside .blockMe ∧ s.machine.kernel.status i ≠ .terminated
  conts : ∀ k, s.mail i = some (.cont k) → s.machine.kernel.status i = .runnable ∧
    (s.machine.place i = .user ∧ s.holder = some i ∨ ∃ pid, s.machine.place i = .inside (.unblockProc pid))

/-- All are, and only such a process keeps the CPU. -/
structure Seating (s : MailKernel) : Prop where
  seated : ∀ i, Seated s i
  held : ∀ i, s.holder = some i → ∃ k, s.mail i = some (.cont k)

variable {s s' : MailKernel} {sys : Sys} {p i : Slot} {pt : Point} {fn : Fn} {g : Globals} {m : Machine} {t : Turn}
  {q : Pid}

theorem Proc.wake_awake {proc : Proc} (awake : proc.suspended = false) : proc.wake = proc := by
  cases proc with
  | asleep | blocked => cases awake
  | _ => rfl

theorem Sys.step_at (may : sys.mayRun q = true) (here : (sys.proc q).At pt) :
    sys.step (pt.act q) = some (sys.run q pt) := by
  generalize there : sys.proc q = proc at here
  cases here <;> simp [Sys.step, Point.act, may, there]

/-- Sleepers can be roused one after the other. -/
theorem Sys.rouses (l : List Pid) (lives : sys.fault = none)
    (asleep : ∀ q ∈ l, sys.proc q = .asleep ∨ sys.proc q = .outside) :
    Transition.Run Sys.step (fun _ _ => True) sys
      { sys with proc := fun q => if q ∈ l then .outside else sys.proc q } := by
  induction l generalizing sys with
  | nil => simpa using Relation.ReflTransGen.refl
  | cons q l ih =>
    -- the first one is roused, unless that has been done
    have first : Transition.Run Sys.step (fun _ _ => True) sys
        { sys with proc := Function.update sys.proc q .outside } := by
      rcases asleep q (List.mem_cons_self ..) with sleeps | outside
      · exact .single ⟨.rouse q, trivial, by simp [Sys.step, lives, sleeps]⟩
      · rw [← outside, Function.update_eq_self]
    have others : ∀ q' ∈ l, Function.update sys.proc q .outside q' = .asleep ∨
        Function.update sys.proc q .outside q' = .outside := by
      intro q' member
      by_cases same : q' = q
      · subst same
        exact .inr (Function.update_self ..)
      · rw [Function.update_of_ne same]
        exact asleep q' (List.mem_cons_of_mem _ member)
    have rest := @ih { sys with proc := Function.update sys.proc q .outside } lives others
    have final : (fun q' => if q' ∈ q :: l then Proc.outside else sys.proc q') =
        fun q' => if q' ∈ l then .outside else Function.update sys.proc q .outside q' := by
      funext q'
      by_cases same : q' = q
      · subst same
        simp
      · simp [same]
    rw [final]
    exact first.trans rest

/-- After that a process in no call may go to sleep itself. -/
theorem Sys.rouses_sleeps {l : List Pid} {b : Prop} [Decidable b] (lives : sys.fault = none)
    (idle : sys.cpu = none) (asleep : ∀ q ∈ l, sys.proc q = .asleep ∨ sys.proc q = .outside)
    (outside : sys.proc q = .outside) :
    Transition.Run Sys.step (fun _ _ => True) sys { sys with proc := fun q' =>
      if q' = q ∧ b then .asleep else if q' ∈ l then .outside else sys.proc q' } := by
  have rouses := Sys.rouses l lives asleep
  by_cases sleep : b
  · refine rouses.tail ⟨.sleep q, trivial, ?_⟩
    have falls : Function.update (fun q' => if q' ∈ l then Proc.outside else sys.proc q') q .asleep =
        fun q' => if q' = q then .asleep else if q' ∈ l then .outside else sys.proc q' := by
      funext q'
      simp [Function.update_apply]
    simp [Sys.step, Sys.mayRun, lives, idle, outside, sleep, falls]
  · simpa [sleep] using rouses

namespace MailKernel

theorem standing_congr (mail : s'.mail i = s.mail i)
    (status : s'.machine.kernel.status i = s.machine.kernel.status i) : s'.standing i = s.standing i := by
  unfold standing
  rw [mail, status]

theorem standing_awake (awake : s.machine.kernel.status i ≠ .blocked) : (s.standing i).suspended = false := by
  unfold standing
  split <;> simp [awake, Proc.suspended]

theorem standing_outside (mail : s.mail i = none) (awake : s.machine.kernel.status i ≠ .blocked) :
    s.standing i = .outside := by
  simp [standing, mail, awake]

@[simp] theorem enter_machine : (s.enter p pt).machine = s.machine := by
  cases pt <;> rfl

@[simp] theorem enter_mail : (s.enter p pt).mail = s.mail := by
  cases pt <;> rfl

@[simp] theorem enter_holder : (s.enter p pt).holder = s.holder := by
  cases pt <;> rfl

@[simp] theorem enter_fault : (s.enter p pt).fault = s.fault := by
  cases pt <;> rfl

theorem runs_spec (runs : s.runs p = true) : s.machine.stopped = none ∧ s.machine.kernel.occupied p = true ∧
    s.machine.kernel.status p = .runnable ∧ s.machine.place p = .user := by
  simpa [MailKernel.runs, Machine.live, and_assoc] using runs

theorem free_spec (free : s.free p = true) : s.fault = none ∧ ∀ i, s.holder = some i → i = p := by
  simp only [MailKernel.free, Bool.and_eq_true, Bool.or_eq_true, decide_eq_true_eq, Option.isNone_iff_eq_none] at free
  refine ⟨free.1, fun i holds => ?_⟩
  rcases free.2 with nobody | own
  · cases nobody.symm.trans holds
  · exact Option.some.inj (holds.symm.trans own)

end MailKernel

end UslossKernel
