import UslossKernel.Deadlocks

namespace UslossKernel.Phase1b

open LinkedList Kernel

/-- `blockMe` has been called under this pid, and since then nobody has called `unblockProc` with it. -/
def BlockedSince (log : List Event) (pid : Int) : Prop :=
  History.Since (fun e => e = .called pid .blockMe) (fun e => ∃ q, e = .called q (.unblockProc pid)) log

variable {k k' : Kernel} {p i : Slot} {pt : Point} {ending : Ending} {log : List Event} {pid q value : Int} {fn : Fn}
  {status : Option Int}

theorem blockedSince_called : BlockedSince (.called q fn :: log) pid ↔
    (q = pid ∧ fn = .blockMe) ∨ fn ≠ .unblockProc pid ∧ BlockedSince log pid := by
  unfold BlockedSince
  rw [History.since_cons]
  simp

theorem blockedSince_returned : BlockedSince (.returned q fn value status :: log) pid ↔ BlockedSince log pid := by
  unfold BlockedSince
  rw [History.since_cons]
  simp

/-- `unblockProc` leaves nobody of this pid blocked. -/
theorem unblockProc_wakes (family : Family k) (goes : k.unblockProc pid = (k', ending))
    (goesOn : (∃ value status, ending = .returns value status) ∨ ∃ inside, ending = .dispatches inside)
    (named : (k.process_table i).pid = pid) (blocked : k.status i = .blocked) : k'.status i = .runnable := by
  unfold Kernel.unblockProc at goes
  cases found : (List.finRange maxProc).find? fun i => (k.process_table i).pid = pid ∧ k.status i = .blocked with
  | none =>
    have absent := List.find?_eq_none.mp found i (List.mem_finRange i)
    simp [named, blocked] at absent
  | some j =>
    have atJ : (k.process_table j).pid = pid ∧ k.status j = .blocked := by simpa using List.find?_some found
    have taken : k.occupied j = true := by
      by_contra free
      cases (family.free j (by simpa using free)).symm.trans atJ.2
    obtain rfl := family.distinct j i taken (atJ.1.trans named.symm)
    rw [found] at goes
    simp only at goes
    cases appended : (k.modify j fun e => { e with status := .runnable }).appendToQueue j with
    | none =>
      rw [appended] at goes
      obtain ⟨_, rfl⟩ := Prod.mk.inj goes
      rcases goesOn with ⟨_, _, other⟩ | ⟨_, other⟩ <;> cases other
    | some k'' =>
      rw [appended] at goes
      obtain ⟨rfl, _⟩ := Prod.mk.inj goes
      rw [status_congr (appendToQueue_unlinked appended j), status_modify_self]

/-- Only `blockMe` comes to its `dispatcher`, and it has blocked its caller. -/
theorem Path.blockMe_dispatches (path : Path k p pt (k', .dispatches .blockMe)) :
    pt = .call .blockMe ∧ (k'.process_table p).pid = (k.process_table p).pid ∧ k'.status p = .blocked := by
  cases path with
  | sporks _ _ ending => simp at ending
  | blocks => exact ⟨rfl, modify_field Process.pid (fun _ => by rfl) p, status_modify_self⟩

namespace Machine

variable {m m' : Machine}

/-- The process sleeps in `blockMe`. -/
def Sleeps (m : Machine) (i : Slot) : Prop :=
  m.kernel.status i = .blocked ∧ m.place i = .inside .blockMe

/-- Nobody quits who would wake a process that sleeps in `blockMe`: no child of
it, and none that it has zapped before. -/
def SparesSleepers (m : Machine) (t : Turn) : Prop :=
  ∀ p c exit, t = .call p c → c.fn = .quit exit → ∀ i, m.Sleeps i →
    (m.kernel.process_table p).parent ≠ some i ∧ (m.kernel.process_table i).zap_target ≠ some p

theorem blockedSince_enter : BlockedSince (m.enter p pt).log pid ↔
    (m.pid p = pid ∧ pt = .call .blockMe) ∨ pt ≠ .call (.unblockProc pid) ∧ BlockedSince m.log pid := by
  cases pt with
  | call c =>
    refine blockedSince_called.trans ?_
    cases c <;> simp [Call.fn]
  | resume => simp [enter]

/-- Whoever else sleeps goes on to sleep, unless it is woken with its pid. -/
theorem Ready.others_sleep (ready : m.Ready p pt) (ledger : Ledger m) (spares : m.SparesSleepers (pt.turn p))
    (goes : pt.exec (m.give p).kernel p = (k, ending))
    (goesOn : (∃ value status, ending = .returns value status) ∨ ∃ inside, ending = .dispatches inside)
    (kernel : m'.kernel = k) (other : i ≠ p) (place : m'.place i = m.contexts k i) :
    (m'.pid i = pid ∧ m'.Sleeps i) ↔ (m.pid i = pid ∧ m.Sleeps i) ∧ pt ≠ .call (.unblockProc pid) := by
  have path := ready.path goes
  subst kernel
  constructor
  · rintro ⟨named, blocked, there⟩
    have same := path.blocked_before other blocked
    have before : m.kernel.status i = .blocked := (status_congr same).symm.trans blocked
    have named' : m.pid i = pid := (pid_congr same).symm.trans named
    refine ⟨⟨named', before, (contexts_inside (place.symm.trans there)).1⟩, ?_⟩
    rintro rfl
    cases (unblockProc_wakes (ledger.give p).family goes goesOn named' before).symm.trans blocked
  · rintro ⟨⟨named, blocked, there⟩, unnamed⟩
    have taken : m.kernel.occupied i = true := by
      by_contra free
      cases (ledger.family.free i (by simpa using free)).symm.trans blocked
    have stays : m'.place i = .inside .blockMe := (place.trans (EntryTable.renewed_of_taken taken)).trans there
    have same : m'.kernel.unlinked i = m.kernel.unlinked i := by
      have change := path.change i
      have spared : ∀ exit, pt.quits exit = true →
          (m.kernel.process_table p).parent ≠ some i ∧ (m.kernel.process_table i).zap_target ≠ some p := by
        intro exit quits
        obtain ⟨c, rfl, fn⟩ := quits_call quits
        exact spares p c exit rfl fn i ⟨blocked, there⟩
      generalize m'.kernel.unlinked i = e at change
      cases change with
      | same => rfl
      | created free => cases free.symm.trans taken
      | blocks here | died here => exact absurd here other
      | collected dead => cases dead.symm.trans blocked
      | parentWoken quits isParent => exact absurd isParent (spared _ quits).1
      | zapperWoken quits target => exact absurd target (spared _ quits).2
      | unblocked atCall atPid =>
        subst atPid
        exact absurd (atCall.trans (by rw [← named]; rfl)) unnamed
    exact ⟨(pid_congr same).trans named, (status_congr same).trans blocked, stays⟩

/-- Those who sleep in `blockMe` are those that the log says should. -/
def Slumber (m : Machine) : Prop :=
  m.stopped = none → ∀ pid, (∃ i, m.pid i = pid ∧ m.Sleeps i) ↔ BlockedSince m.log pid

/-- The running process goes to sleep by calling `blockMe`, and the others as they did. -/
theorem Slumber.ran (slumber : m.Slumber) (ready : m.Ready p pt) (ledger : Ledger m)
    (spares : m.SparesSleepers (pt.turn p)) (goes : pt.exec (m.give p).kernel p = (k, ending))
    (goesOn : (∃ value status, ending = .returns value status) ∨ ∃ inside, ending = .dispatches inside)
    (kernel : m'.kernel = k) (places : ∀ i, i ≠ p → m'.place i = m.contexts k i)
    (log : BlockedSince m'.log pid ↔ BlockedSince (m.entering p pt).log pid)
    (self : (m'.pid p = pid ∧ m'.Sleeps p) ↔ m.pid p = pid ∧ pt = .call .blockMe) :
    (∃ i, m'.pid i = pid ∧ m'.Sleeps i) ↔ BlockedSince m'.log pid := by
  have others : ∀ i, i ≠ p → ((m'.pid i = pid ∧ m'.Sleeps i) ↔
      (m.pid i = pid ∧ m.Sleeps i) ∧ pt ≠ .call (.unblockProc pid)) := fun i other =>
    ready.others_sleep ledger spares goes goesOn kernel other (places i other)
  have awake : ¬ m.Sleeps p := fun sleeps => by cases ready.runnable.symm.trans sleeps.1
  rw [log, blockedSince_enter, give_log, give_pid, ← slumber ready.goesOn pid]
  constructor
  · rintro ⟨i, sleeps⟩
    by_cases here : i = p
    · subst here
      exact .inl (self.mp sleeps)
    · obtain ⟨before, unnamed⟩ := (others i here).mp sleeps
      exact .inr ⟨unnamed, i, before⟩
  · rintro (blocks | ⟨unnamed, i, before⟩)
    · exact ⟨p, self.mpr blocks⟩
    · have other : i ≠ p := by
        rintro rfl
        exact awake before.2
      exact ⟨i, (others i other).mpr ⟨before, unnamed⟩⟩

theorem Slumber.turn {t : Turn} (slumber : m.Slumber) (ledger : Ledger m) (spares : m.SparesSleepers t)
    (taken : Taken m t m') : m'.Slumber := by
  intro goesOn pid
  cases taken with
  | @begins p running live place =>
    have same : ∀ i, Sleeps { m.give p with place := Function.update m.place p .user } i ↔ m.Sleeps i := by
      intro i
      by_cases here : i = p
      · subst here
        simp [Sleeps, place]
      · simp [Sleeps, here]
    simp only [same]
    exact slumber running pid
  | @returns p pt k value status ready goes =>
    refine slumber.ran ready ledger spares goes (.inl ⟨_, _, rfl⟩) rfl (fun i other => back_place_of_ne other)
      blockedSince_returned ?_
    refine iff_of_false (fun sleeps => ?_) fun blocks => ?_
    · cases back_place_self.symm.trans sleeps.2.2
    · rw [blocks.2] at goes
      cases goes
  | @yields p pt k inside ready goes =>
    refine slumber.ran ready ledger spares goes (.inr ⟨_, rfl⟩) rfl (fun i other => switch_place_of_ne other) .rfl ?_
    constructor
    · rintro ⟨named, _, there⟩
      obtain rfl : inside = .blockMe := by
        rw [switch_place_self] at there
        exact Place.inside.inj there
      obtain ⟨called, pid, _⟩ := (ready.path goes).blockMe_dispatches
      exact ⟨pid.symm.trans named, called⟩
    · rintro ⟨named, rfl⟩
      obtain rfl : inside = .blockMe := by
        cases goes
        rfl
      obtain ⟨_, pid, blocked⟩ := (ready.path goes).blockMe_dispatches
      exact ⟨pid.trans named, blocked, switch_place_self⟩
  | halts => cases goesOn
  | stops => cases goesOn

/-- Where no quit wakes a process that sleeps in `blockMe`, a pid sleeps there
if and only if it has called `blockMe` and nobody has called `unblockProc` with
it since: no `unblockProc` is lost on a sleeper, and none wakes another. -/
theorem sleeps_iff (run : Transition.Run turn SparesSleepers boot m) (goesOn : m.stopped = none) (pid : Int) :
    (∃ i, m.pid i = pid ∧ m.kernel.status i = .blocked ∧ m.place i = .inside .blockMe) ↔ BlockedSince m.log pid := by
  have slumber : m.Slumber := by
    refine run.invariant_above (fun _ earlier => Ordered.ledger (earlier.mono fun _ _ _ => trivial)) Slumber ?_
      fun _ _ _ ledger before spares moves => before.turn ledger spares (turn_taken moves)
    intro _ pid
    refine iff_of_false ?_ History.not_since_nil
    rintro ⟨i, _, _, there⟩
    cases there
  exact slumber goesOn pid

/-- A test that nobody quits. -/
def testSpares (_ : Machine) : Turn → Bool
  | .call _ (.quit ..) | .call _ (.finish ..) => false
  | _ => true

theorem SparesSleepers.of_test {t : Turn} (admitted : m.testSpares t = true) : m.SparesSleepers t := by
  rintro p c exit rfl fn
  cases c with
  | quit | finish => cases admitted
  | _ => cases fn

/-- `testcase_main` blocks and its child unblocks it, blocks in turn, and is not
what the next `unblockProc` names. -/
def unblockedThenBlocks : List Turn :=
  [.resume initSlot, .call initSlot (sporks 3), .resume testcaseSlot, .call testcaseSlot (sporks 4),
    .call testcaseSlot .blockMe, .resume childSlot, .call childSlot (.unblockProc 2), .resume testcaseSlot,
    .resume childSlot, .call childSlot .blockMe, .call testcaseSlot (.unblockProc 2)]

theorem sleeps_iff_run : ∃ m : Machine, BlockedSince m.log 3 ∧ ¬ BlockedSince m.log 2 ∧
    Event.called 2 .blockMe ∈ m.log := by
  obtain ⟨m, run, test⟩ := Transition.exists_run turn boot unblockedThenBlocks testSpares
    (fun _ _ => SparesSleepers.of_test)
    (fun m => decide (m.stopped = none ∧ (m.pid childSlot = 3 ∧ m.kernel.status childSlot = .blocked ∧
      m.place childSlot = .inside .blockMe) ∧ Event.called 2 .blockMe ∈ m.log ∧
      ∀ i, ¬ (m.pid i = 2 ∧ m.kernel.status i = .blocked))) (by decide +kernel)
  obtain ⟨goesOn, sleeps, called, awake⟩ := of_decide_eq_true test
  refine ⟨m, (sleeps_iff run goesOn 3).mp ⟨childSlot, sleeps⟩, fun blocked => ?_, called⟩
  obtain ⟨i, named, status, _⟩ := (sleeps_iff run goesOn 2).mpr blocked
  exact awake i ⟨named, status⟩

end Machine

end UslossKernel.Phase1b
