import UslossKernel.Library.History
import UslossKernel.EntryChanges

namespace UslossKernel.Phase1b

open Kernel

/-- Inside `zap`. -/
def Place.zaps : Place → Bool
  | .inside (.zap _) => true
  | _ => false

/-- A call of `quit` by the process with this pid. -/
def Event.quits (pid : Int) : Event → Bool
  | .called p (.quit _) => p = pid
  | _ => false

def Event.unblocks : Event → Bool
  | .called _ (.unblockProc _) => true
  | _ => false

namespace Machine

/-- A step in which no code of a process changes the tables. -/
structure Quiet (m m' : Machine) : Prop where
  tables : ∀ j, m'.kernel.unlinked j = m.kernel.unlinked j
  log : m'.log = m.log ∨ ∃ c : Call, ∃ p : Slot, m'.log = .called (m.pid p) c.fn :: m.log
  inside : ∀ i inside, m'.place i = .inside inside → m.place i = .inside inside ∧ m'.entered i = m.entered i
  running : ∀ p, m'.kernel.running_process = some p → m.kernel.running_process = some p ∨ m.kernel.status p ≠ .blocked

/-- What became of the process that ran. -/
inductive Outcome (m : Machine) (p : Slot) (pt : Point) (m' : Machine) : Prop
  | returned {k value status} : Path m.kernel p pt (k, .returns value status) → m'.kernel = k → m'.place p = .user →
      m'.log = .returned (m.pid p) pt.fn value status :: (m.enter p pt).log → Outcome m p pt m'
  | left {k inside next} : Path m.kernel p pt (k, .dispatches inside) → k.status next ≠ .blocked →
      m'.kernel = { k with running_process := some next } → m'.place p = .inside inside →
      m'.log = (m.enter p pt).log → Outcome m p pt m'

/-- A step in which `p` has run from this point. -/
structure Stretch (m : Machine) (p : Slot) (pt : Point) (m' : Machine) : Prop where
  here : m.At p pt
  outcome : Outcome m p pt m'
  entered : m'.entered = (m.enter p pt).entered
  others : ∀ i, i ≠ p → ∀ inside, m'.place i = .inside inside →
    m.place i = .inside inside ∧ (m.kernel.occupied i = false → m'.kernel.occupied i = false)

variable {m m' : Machine} {p : Slot} {pt : Point}

theorem Stretch.change (stretch : m.Stretch p pt m') (j : Slot) :
    Change m.kernel p pt j (m'.kernel.unlinked j) := by
  cases stretch.outcome with
  | returned path kernel =>
    rw [kernel]
    exact path.change j
  | left path _ kernel =>
    rw [kernel]
    exact path.change j

theorem step_cases {a : Act} (moves : m.step a = some m') :
    m.Quiet m' ∨ ∃ p pt, pt.act = a ∧ m.Stretch p pt m' := by
  cases step_move moves with
  | starts _ selected =>
    obtain ⟨_, _, _, awake, _⟩ := selected_eq_some.mp selected
    refine .inl ⟨fun _ => rfl, .inl rfl, fun _ _ there => ⟨there, rfl⟩, ?_⟩
    rintro p ⟨⟩
    exact .inr awake
  | @begins p =>
    refine .inl ⟨fun _ => rfl, .inl rfl, fun i inside there => ?_, fun _ running => .inl running⟩
    by_cases here : i = p
    · subst here
      simp at there
    · simp only [Function.update_of_ne here] at there
      exact ⟨there, rfl⟩
  | halts => exact .inl ⟨fun _ => rfl, .inl rfl, fun _ _ there => ⟨there, rfl⟩, fun _ running => .inl running⟩
  | @stops p pt _ here =>
    cases pt with
    | resume => exact .inl ⟨fun _ => rfl, .inl rfl, fun _ _ there => ⟨there, rfl⟩, fun _ running => .inl running⟩
    | call c =>
      refine .inl ⟨fun _ => rfl, .inr ⟨c, p, rfl⟩, fun i inside there => ⟨there, Function.update_of_ne ?_ ..⟩,
        fun _ running => .inl running⟩
      rintro rfl
      cases here.user.symm.trans there
  | @returns p pt k value status here ends =>
    have path := here.path
    rw [ends] at path
    refine .inr ⟨p, pt, rfl, here, .returned path rfl back_place_self (by simp [Machine.back]), rfl,
      fun i other inside there => ?_⟩
    rw [back_place_of_ne other] at there
    exact contexts_inside there
  | @switches p pt k inside next here ends selected =>
    have path := here.path
    rw [ends] at path
    obtain ⟨_, _, _, awake, _⟩ := selected_eq_some.mp selected
    refine .inr ⟨p, pt, rfl, here, .left path awake rfl switch_place_self rfl, rfl, fun i other inside there => ?_⟩
    rw [switch_place_of_ne other] at there
    exact contexts_inside there

/-- The events of the step come in front. -/
theorem Stretch.added (stretch : m.Stretch p pt m') :
    ∃ added, m'.log = added ++ m.log ∧ ∀ c, pt = .call c → .called (m.pid p) c.fn ∈ added := by
  have entered : ∃ added, (m.enter p pt).log = added ++ m.log ∧
      ∀ c, pt = .call c → .called (m.pid p) c.fn ∈ added := by
    cases pt with
    | resume => exact ⟨[], rfl, by rintro _ ⟨⟩⟩
    | call c =>
      refine ⟨[.called (m.pid p) c.fn], rfl, ?_⟩
      rintro _ ⟨⟩
      exact List.mem_singleton_self _
  obtain ⟨added, log, called⟩ := entered
  cases stretch.outcome with
  | @returned _ value status _ _ _ log' =>
    rw [log', log]
    exact ⟨.returned (m.pid p) pt.fn value status :: added, rfl, fun c call => List.mem_cons_of_mem _ (called c call)⟩
  | left _ _ _ _ log' =>
    rw [log', log]
    exact ⟨added, rfl, called⟩

theorem Stretch.log_grows (stretch : m.Stretch p pt m') {e : Event} (member : e ∈ m.log) : e ∈ m'.log := by
  obtain ⟨added, log, _⟩ := stretch.added
  rw [log]
  exact List.mem_append_right _ member

theorem Stretch.called {c : Call} (stretch : m.Stretch p (.call c) m') : .called (m.pid p) c.fn ∈ m'.log := by
  obtain ⟨added, log, called⟩ := stretch.added
  rw [log]
  exact List.mem_append_left _ (called c rfl)

theorem Quiet.log_grows (quiet : m.Quiet m') {e : Event} (member : e ∈ m.log) : e ∈ m'.log := by
  rcases quiet.log with same | ⟨_, _, more⟩
  · rwa [same]
  · rw [more]
    exact List.mem_cons_of_mem _ member

theorem Quiet.awake (quiet : m.Quiet m')
    (awake : ∀ p, m.kernel.running_process = some p → m.kernel.status p ≠ .blocked) {p : Slot}
    (running : m'.kernel.running_process = some p) : m'.kernel.status p ≠ .blocked := by
  rw [status_congr (quiet.tables p)]
  rcases quiet.running p running with before | selected
  · exact awake p before
  · exact selected

/-- Whoever quits is on record. -/
theorem Stretch.quitted (stretch : m.Stretch p pt m') {status : Int} (quits : pt.quits status = true) :
    .called (m.pid p) (.quit status) ∈ m'.log := by
  cases pt with
  | resume => cases quits
  | call c =>
    have called := stretch.called
    cases c with
    | quit kernelMode s | finish kernelMode s =>
      obtain rfl : s = status := by
        cases kernelMode with
        | false => cases quits
        | true => simpa [Point.quits] using quits
      exact called
    | _ => cases quits

/-- The process that is switched to is not blocked, nor the one that goes on. -/
theorem Stretch.awake (stretch : m.Stretch p pt m') (awake : m.kernel.status p ≠ .blocked) {q : Slot}
    (running : m'.kernel.running_process = some q) : m'.kernel.status q ≠ .blocked := by
  cases stretch.outcome with
  | left _ next kernel =>
    rw [kernel] at running ⊢
    cases running
    exact next
  | returned path kernel =>
    rw [kernel] at running ⊢
    obtain rfl : p = q := Option.some.inj (stretch.here.running.symm.trans (path.running.symm.trans running))
    cases path with
    | stays | zapsDead => exact awake
    | @sporks _ slot _ _ _ sporked =>
      by_cases here : p = slot
      · subst here
        have status := sporked.created.2.1
        simp [Kernel.status, status]
      · rwa [status_congr (sporked.other here)]
    | collects => rwa [collect_status]

/-- Nobody but its target wakes a process inside `zap`: no `unblockProc` is for
it, and no other child of it quits. -/
def ZapsUndisturbed (m : Machine) (a : Act) : Prop :=
  m.AtUnblock (fun m i => (m.place i).zaps = false) a ∧
    m.AtQuit (fun m p => ∀ i, (m.kernel.process_table p).parent = some i → m.kernel.status i = .blocked →
      (m.place i).zaps = true → (m.kernel.process_table i).zap_target = some p) a

instance (m : Machine) (a : Act) : Decidable (m.ZapsUndisturbed a) :=
  inferInstanceAs (Decidable (m.AtUnblock (fun m i => (m.place i).zaps = false) a ∧
    m.AtQuit (fun m p => ∀ i, (m.kernel.process_table p).parent = some i → m.kernel.status i = .blocked →
      (m.place i).zaps = true → (m.kernel.process_table i).zap_target = some p) a))

/-- The process with this pid has called `quit`. -/
def Quitted (pid : Int) (log : List Event) : Prop := ∃ status, .called pid (.quit status) ∈ log

/-- A `zap` has returned only after its target has quit. -/
def AfterTarget (e : Event) (older : List Event) : Prop :=
  ∀ p pid value status, e = .returned p (.zap pid) value status → pid ≠ -1 → Quitted pid older

structure Zapping (m : Machine) : Prop where
  awake : ∀ p, m.kernel.running_process = some p → m.kernel.status p ≠ .blocked
  quitted : ∀ i, m.kernel.occupied i = true → m.kernel.status i = .terminated → Quitted (m.pid i) m.log
  waits : ∀ i pid, m.place i = .inside (.zap pid) → pid ≠ -1 → Quitted pid m.log ∨
    m.kernel.status i = .blocked ∧ ∃ target, (m.kernel.process_table i).zap_target = some target ∧ m.pid target = pid
  returned : History.Justified AfterTarget m.log

theorem Zapping.quiet (zapping : m.Zapping) (quiet : m.Quiet m') : m'.Zapping where
  awake p running := quiet.awake zapping.awake running
  quitted i occupied dead := by
    rw [occupied_congr (quiet.tables i)] at occupied
    rw [status_congr (quiet.tables i)] at dead
    obtain ⟨status, called⟩ := zapping.quitted i occupied dead
    unfold pid
    rw [pid_congr (quiet.tables i)]
    exact ⟨status, quiet.log_grows called⟩
  waits i pid there process := by
    rw [status_congr (quiet.tables i), target_congr (quiet.tables i)]
    have before := (quiet.inside i _ there).1
    rcases zapping.waits i pid before process with ⟨status, called⟩ | ⟨blocked, target, atTarget, same⟩
    · exact .inl ⟨status, quiet.log_grows called⟩
    · exact .inr ⟨blocked, target, atTarget, (pid_congr (quiet.tables target)).trans same⟩
  returned := by
    rcases quiet.log with same | ⟨c, p, more⟩
    · rw [same]
      exact zapping.returned
    · rw [more]
      exact zapping.returned.cons fun _ _ _ _ other => by cases other

theorem Quitted.mono {pid : Int} {log log' : List Event} (quitted : Quitted pid log) (grows : ∀ e ∈ log, e ∈ log') :
    Quitted pid log' := by
  obtain ⟨status, called⟩ := quitted
  exact ⟨status, grows _ called⟩

theorem Zapping.quitted_after (zapping : m.Zapping) (stretch : m.Stretch p pt m') (i : Slot)
    (occupied : m'.kernel.occupied i = true) (dead : m'.kernel.status i = .terminated) :
    Quitted (m'.pid i) m'.log := by
  have grows : ∀ e ∈ m.log, e ∈ m'.log := fun _ => stretch.log_grows
  have change := stretch.change i
  have atStatus : (m'.kernel.unlinked i).status = .terminated := dead
  have atPid : (m'.kernel.unlinked i).pid ≠ -1 := of_decide_eq_true occupied
  have same : m'.pid i = (m'.kernel.unlinked i).pid := rfl
  rw [same]
  generalize m'.kernel.unlinked i = e at change atStatus atPid
  cases change with
  | same => exact (zapping.quitted i (decide_eq_true atPid) atStatus).mono grows
  | died here quits =>
    subst here
    exact ⟨_, stretch.quitted quits⟩
  | collected => exact absurd rfl atPid
  | created _ _ status => cases atStatus.symm.trans status
  | blocks | parentWoken | zapperWoken | unblocked => cases atStatus

/-- The process it waits for is still there, or has quit. -/
theorem Zapping.target_after (zapping : m.Zapping) (stretch : m.Stretch p pt m') {target : Slot} {pid : Int}
    (same : m.pid target = pid) (process : pid ≠ -1) : Quitted pid m'.log ∨ m'.pid target = pid := by
  have grows : ∀ e ∈ m.log, e ∈ m'.log := fun _ => stretch.log_grows
  have occupied : m.kernel.occupied target = true := decide_eq_true (by rw [← same] at process; exact process)
  have change := stretch.change target
  have atPid : m'.pid target = (m'.kernel.unlinked target).pid := rfl
  rw [atPid]
  generalize m'.kernel.unlinked target = e at change
  cases change with
  | same | blocks | died | parentWoken | zapperWoken | unblocked => exact .inr same
  | created free => cases free.symm.trans occupied
  | collected dead =>
    rw [← same]
    exact .inl ((zapping.quitted target occupied dead).mono grows)

theorem Zapping.waits_after (zapping : m.Zapping) (stretch : m.Stretch p pt m')
    (undisturbed : m.ZapsUndisturbed pt.act) {i : Slot} {pid : Int} (other : i ≠ p)
    (there : m'.place i = .inside (.zap pid)) (process : pid ≠ -1) :
    Quitted pid m'.log ∨
      m'.kernel.status i = .blocked ∧ ∃ target, (m'.kernel.process_table i).zap_target = some target ∧
        m'.pid target = pid := by
  have grows : ∀ e ∈ m.log, e ∈ m'.log := fun _ => stretch.log_grows
  obtain ⟨place, kept⟩ := stretch.others i other _ there
  rcases zapping.waits i pid place process with quitted | ⟨blocked, target, atTarget, same⟩
  · exact .inl (quitted.mono grows)
  have zaps : (m.place i).zaps = true := by rw [place]; rfl
  have change := stretch.change i
  have atStatus : m'.kernel.status i = (m'.kernel.unlinked i).status := rfl
  have zapTarget : (m'.kernel.process_table i).zap_target = (m'.kernel.unlinked i).zap_target := rfl
  have atPid : m'.kernel.occupied i = decide ((m'.kernel.unlinked i).pid ≠ -1) := rfl
  rw [atPid] at kept
  rw [atStatus, zapTarget]
  -- only the quit of the target itself can have woken it
  have woken : ∀ {status}, pt.quits status = true → (m.kernel.process_table i).zap_target = some p →
      Quitted pid m'.log := by
    intro status quits byTarget
    cases atTarget.symm.trans byTarget
    rw [← same]
    exact ⟨status, stretch.quitted quits⟩
  generalize m'.kernel.unlinked i = e at change kept
  cases change with
  | same =>
    rcases zapping.target_after stretch same process with quitted | stays
    · exact .inl quitted
    · exact .inr ⟨blocked, target, atTarget, stays⟩
  | created free pid =>
    have unused := of_decide_eq_false (kept free)
    rw [pid] at unused
    omega
  | blocks here | died here => exact absurd here other
  | collected dead => cases blocked.symm.trans dead
  | parentWoken quits isParent _ =>
    exact .inl (woken quits (undisturbed.2.holds stretch.here quits i isParent blocked zaps))
  | zapperWoken quits byTarget _ => exact .inl (woken quits byTarget)
  | unblocked atCall named _ =>
    subst atCall
    have away := undisturbed.1 i named blocked
    cases zaps.symm.trans away

theorem Zapping.enter (zapping : m.Zapping) (p : Slot) (pt : Point) :
    History.Justified AfterTarget (m.enter p pt).log := by
  cases pt with
  | resume => exact zapping.returned
  | call c => exact zapping.returned.cons fun _ _ _ _ other => by cases other

/-- `zap` returns at once if the target has terminated, and otherwise once its process runs again. -/
theorem Zapping.answers (zapping : m.Zapping) (here : m.At p pt) {k : Kernel} {value : Int} {status : Option Int}
    (path : Path m.kernel p pt (k, .returns value status)) {pid : Int} (fn : pt.fn = .zap pid) (process : pid ≠ -1) :
    Quitted pid (m.enter p pt).log := by
  cases pt with
  | resume w =>
    have place := here.inside
    cases w <;> cases fn
    rcases zapping.waits p pid place process with quitted | ⟨blocked, _⟩
    · exact quitted
    · exact absurd blocked (zapping.awake p here.running)
  | call c =>
    cases c <;> cases fn
    cases path with
    | stays away => exact absurd rfl (away pid)
    | zapsDead named dead =>
      have quitted := zapping.quitted _ (decide_eq_true (by rwa [named])) dead
      rw [Machine.pid, named] at quitted
      exact quitted.mono fun _ member => List.mem_cons_of_mem _ member
    | sporks fn => cases fn
    | collects joins => cases joins

theorem Zapping.step (zapping : m.Zapping) {a : Act} (undisturbed : m.ZapsUndisturbed a) (moves : m.step a = some m') :
    m'.Zapping := by
  rcases step_cases moves with quiet | ⟨p, pt, rfl, stretch⟩
  · exact zapping.quiet quiet
  refine ⟨fun q running => stretch.awake (zapping.awake p stretch.here.running) running, zapping.quitted_after stretch,
    fun i pid there process => ?_, ?_⟩
  · by_cases here : i = p
    · subst here
      cases stretch.outcome with
      | returned _ _ place => cases place.symm.trans there
      | left path _ kernel place =>
        cases place.symm.trans there
        cases path with
        | @zaps _ target named =>
          have kept : ∀ j, ((m.kernel.modify i fun e =>
              { e with status := .blocked, zap_target := some target }).process_table j).pid =
                (m.kernel.process_table j).pid := modify_field Process.pid fun _ => by rfl
          refine .inr ⟨by simp [kernel, Kernel.status], target, by simp [kernel], ?_⟩
          unfold Machine.pid
          rw [kernel]
          exact (kept target).trans named
        | sporks _ _ ends => rcases ends with ends | ends <;> cases ends
    · exact zapping.waits_after stretch undisturbed here there process
  · cases stretch.outcome with
    | left _ _ _ _ log =>
      rw [log]
      exact zapping.enter p pt
    | returned path _ _ log =>
      rw [log]
      refine (zapping.enter p pt).cons fun q pid value status same process => ?_
      obtain ⟨_, fn, _, _⟩ := Event.returned.inj same
      exact zapping.answers stretch.here path fn process

theorem zapping_boot : boot.Zapping where
  awake p running := by cases running
  quitted i occupied dead := by
    by_cases here : i = initSlot
    · subst here
      unfold boot Kernel.status at dead
      simp only [phase1_init_initSlot] at dead
      cases dead
    · unfold boot Kernel.occupied at occupied
      simp [phase1_init_of_ne here, emptyProcess] at occupied
  waits i pid there := by cases there
  returned := .nil

/-- In a run in which nobody but its target wakes a process inside `zap`, every
`zap` that has returned did so after its target, a process, had called `quit`.
(No process has the pid -1, which marks the free entries.) -/
theorem zap_waits (run : Transition.Run Machine.step ZapsUndisturbed boot m) {newer older : List Event}
    {p pid value : Int} {status : Option Int}
    (returned : m.log = newer ++ .returned p (.zap pid) value status :: older) (process : pid ≠ -1) :
    ∃ status, .called pid (.quit status) ∈ older := by
  have zapping := run.invariant Zapping zapping_boot fun _ _ _ zapping undisturbed moves =>
    zapping.step undisturbed moves
  exact zapping.returned newer _ older returned p pid value status rfl process

/-- `testcase_main` creates a process of lower priority and zaps it. -/
def zapsChild : List Act :=
  testcaseRuns ++ [.call (sporks 4), .call (.zap 3), .resume]

theorem zap_waits_run : ∃ (m : Machine) (older : List Event), m.log = .returned 2 (.zap 3) 0 none :: older ∧
    ∃ status, .called 3 (.quit status) ∈ older := by
  obtain ⟨m, run, holds⟩ := Transition.exists_run step boot (zapsChild ++ [.call (.quit true 0), .resume])
    (fun m a => decide (m.ZapsUndisturbed a)) (fun _ _ => of_decide_eq_true)
    (fun m => m.log.head? = some (.returned 2 (.zap 3) 0 none)) (by decide +kernel)
  obtain ⟨older, log⟩ := List.head?_eq_some_iff.mp (of_decide_eq_true holds)
  exact ⟨m, older, log, zap_waits run (show m.log = [] ++ _ :: older from log) (by decide)⟩

/-- The target unblocks the process that has zapped it. -/
theorem zap_returns_early : ∃ (m : Machine) (older : List Event),
    Reaches (zapsChild ++ [.call (.unblockProc 2), .resume]) m ∧ m.log = .returned 2 (.zap 3) 0 none :: older ∧
    m.pid childSlot = 3 ∧ m.kernel.status childSlot = .runnable ∧ ∀ status, .called 3 (.quit status) ∉ older := by
  obtain ⟨m, reaches, holds⟩ := exists_reaches (zapsChild ++ [.call (.unblockProc 2), .resume])
    (fun m => m.log.head? = some (.returned 2 (.zap 3) 0 none) && m.pid childSlot = 3 &&
      m.kernel.status childSlot = .runnable && m.log.tail.all fun e => !e.quits 3) (by decide +kernel)
  simp only [Bool.and_eq_true, decide_eq_true_eq] at holds
  obtain ⟨⟨⟨first, pid⟩, awake⟩, none⟩ := holds
  obtain ⟨older, log⟩ := List.head?_eq_some_iff.mp first
  refine ⟨m, older, reaches, log, pid, awake, fun status called => ?_⟩
  rw [log] at none
  exact absurd (List.all_eq_true.mp none _ called) (by simp [Event.quits])

/-- Nobody quits who would wake a process inside `blockMe`: no child of it, and
none that it has zapped before. -/
def BlocksUndisturbed (m : Machine) (a : Act) : Prop :=
  m.AtQuit (fun m p => ∀ i, m.place i = .inside .blockMe → m.kernel.status i = .blocked →
    (m.kernel.process_table p).parent ≠ some i ∧ (m.kernel.process_table i).zap_target ≠ some p) a

instance (m : Machine) (a : Act) : Decidable (m.BlocksUndisturbed a) :=
  inferInstanceAs (Decidable (m.AtQuit (fun m p => ∀ i, m.place i = .inside .blockMe → m.kernel.status i = .blocked →
    (m.kernel.process_table p).parent ≠ some i ∧ (m.kernel.process_table i).zap_target ≠ some p) a))

/-- The last call of the process of this entry is one of `blockMe`, and it is
blocked or has been unblocked since. -/
structure Blocking (m : Machine) (i : Slot) (newer older : List Event) : Prop where
  log : m.log = newer ++ .called (m.pid i) .blockMe :: older
  entered : m.entered i = older.length + 1
  alive : m.kernel.status i ≠ .terminated
  waits : m.kernel.status i = .blocked ∨ ∃ q, .called q (.unblockProc (m.pid i)) ∈ newer

/-- Nothing has happened to the process, and events may have been added. -/
theorem Blocking.later {i : Slot} {newer older added : List Event} (blocking : m.Blocking i newer older)
    (same : m'.kernel.unlinked i = m.kernel.unlinked i) (log : m'.log = added ++ m.log)
    (entered : m'.entered i = m.entered i) : m'.Blocking i (added ++ newer) older := by
  have pid : m'.pid i = m.pid i := pid_congr same
  refine ⟨?_, entered.trans blocking.entered, ?_, ?_⟩
  · rw [log, blocking.log, pid, List.append_assoc]
  · rw [status_congr same]
    exact blocking.alive
  · rw [status_congr same, pid]
    rcases blocking.waits with blocked | ⟨q, called⟩
    · exact .inl blocked
    · exact .inr ⟨q, List.mem_append_right _ called⟩

theorem Blocking.after {i : Slot} {newer older : List Event} (blocking : m.Blocking i newer older)
    (stretch : m.Stretch p pt m') (undisturbed : m.BlocksUndisturbed pt.act) (other : i ≠ p)
    (there : m'.place i = .inside .blockMe) : ∃ newer', m'.Blocking i newer' older := by
  obtain ⟨place, kept⟩ := stretch.others i other _ there
  obtain ⟨added, log, called⟩ := stretch.added
  have entered : m'.entered i = m.entered i := by
    rw [stretch.entered]
    cases pt with
    | resume => rfl
    | call => exact Function.update_of_ne other ..
  have change := stretch.change i
  have atPid : m'.kernel.occupied i = decide ((m'.kernel.unlinked i).pid ≠ -1) := rfl
  rw [atPid] at kept
  generalize entry : m'.kernel.unlinked i = e at change kept
  cases change with
  | same => exact ⟨_, blocking.later entry log entered⟩
  | created free pid =>
    have unused := of_decide_eq_false (kept free)
    rw [pid] at unused
    omega
  | blocks here | died here => exact absurd here other
  | collected dead => exact absurd dead blocking.alive
  | parentWoken quits isParent blocked =>
    exact absurd isParent (undisturbed.holds stretch.here quits i place blocked).1
  | zapperWoken quits target blocked =>
    exact absurd target (undisturbed.holds stretch.here quits i place blocked).2
  | unblocked atCall named =>
    subst atCall
    have pid : m'.pid i = m.pid i := by
      have same := congrArg Process.pid entry
      exact same
    have awake : m'.kernel.status i = .runnable := by
      have same := congrArg Process.status entry
      exact same
    refine ⟨added ++ newer, ⟨?_, entered.trans blocking.entered, by simp [awake], .inr ⟨m.pid p, ?_⟩⟩⟩
    · rw [log, blocking.log, pid, List.append_assoc]
    · subst named
      rw [pid]
      exact List.mem_append_left _ (called _ rfl)

/-- While a process inside `blockMe` is woken by `unblockProc` only. -/
def Blockings (m : Machine) : Prop :=
  (∀ p, m.kernel.running_process = some p → m.kernel.status p ≠ .blocked) ∧
    ∀ i, m.place i = .inside .blockMe → ∃ newer older, m.Blocking i newer older

theorem Blockings.step (blockings : m.Blockings) {a : Act} (undisturbed : m.BlocksUndisturbed a)
    (moves : m.step a = some m') : m'.Blockings := by
  rcases step_cases moves with quiet | ⟨p, pt, rfl, stretch⟩
  · refine ⟨fun p running => quiet.awake blockings.1 running, fun i there => ?_⟩
    obtain ⟨place, entered⟩ := quiet.inside i _ there
    obtain ⟨newer, older, blocking⟩ := blockings.2 i place
    rcases quiet.log with same | ⟨c, p, more⟩
    · exact ⟨[] ++ newer, older, blocking.later (quiet.tables i) same entered⟩
    · exact ⟨[_] ++ newer, older, blocking.later (quiet.tables i) more entered⟩
  refine ⟨fun q running => stretch.awake (blockings.1 p stretch.here.running) running, fun i there => ?_⟩
  by_cases here : i = p
  · subst here
    cases stretch.outcome with
    | returned _ _ place => cases place.symm.trans there
    | left path _ kernel place log =>
      cases place.symm.trans there
      cases path with
      | blocks =>
        have pid : m'.pid i = m.pid i := by
          unfold Machine.pid
          rw [kernel]
          simp
        have blocked : m'.kernel.status i = .blocked := by simp [kernel, Kernel.status]
        refine ⟨[], m.log, ?_, ?_, by simp [blocked], .inl blocked⟩
        · rw [log, pid]
          rfl
        · rw [stretch.entered]
          exact Function.update_self ..
      | sporks _ _ ends => rcases ends with ends | ends <;> cases ends
  · obtain ⟨newer, older, blocking⟩ := blockings.2 i (stretch.others i here _ there).1
    obtain ⟨newer', after⟩ := blocking.after stretch undisturbed here there
    exact ⟨newer', older, after⟩

/-- In a run in which no process inside `blockMe` is woken by a quit, such a
process runs only after an `unblockProc` with its pid, called since. -/
theorem blockMe_waits (run : Transition.Run Machine.step BlocksUndisturbed boot m) {i : Slot}
    (running : m.kernel.running_process = some i) (place : m.place i = .inside .blockMe) :
    ∃ newer older, m.log = newer ++ .called (m.pid i) .blockMe :: older ∧ m.entered i = older.length + 1 ∧
      ∃ q, .called q (.unblockProc (m.pid i)) ∈ newer := by
  have initial : boot.Blockings := by
    refine ⟨?_, ?_⟩
    · rintro _ ⟨⟩
    · rintro _ ⟨⟩
  have blockings := run.invariant Blockings initial fun _ _ _ blockings undisturbed moves =>
    blockings.step undisturbed moves
  obtain ⟨newer, older, blocking⟩ := blockings.2 i place
  exact ⟨newer, older, blocking.log, blocking.entered, blocking.waits.resolve_left (blockings.1 i running)⟩

/-- `testcase_main` unblocks the process it has created. -/
theorem blockMe_waits_run : ∃ m : Machine, m.kernel.running_process = some childSlot ∧
    ∃ newer older, m.log = newer ++ .called (m.pid childSlot) .blockMe :: older ∧
      m.entered childSlot = older.length + 1 ∧ ∃ q, .called q (.unblockProc (m.pid childSlot)) ∈ newer := by
  obtain ⟨m, run, holds⟩ := Transition.exists_run step boot
    (testcaseRuns ++ [.call (sporks 2), .resume, .call .blockMe, .resume, .call (.unblockProc 3)])
    (fun m a => decide (m.BlocksUndisturbed a)) (fun _ _ => of_decide_eq_true)
    (fun m => m.kernel.running_process = some childSlot && m.place childSlot = .inside .blockMe) (by decide +kernel)
  simp only [Bool.and_eq_true, decide_eq_true_eq] at holds
  exact ⟨m, holds.1, blockMe_waits run holds.1 holds.2⟩

/-- `testcase_main` creates a process of lower priority and blocks; its child quits. -/
def childQuits : List Act :=
  testcaseRuns ++ [.call (sporks 4), .call .blockMe, .resume, .call (.quit true 0)]

/-- `testcase_main` runs, and `unblockProc` has not been called at all. -/
theorem blockMe_woken_by_quit : ∃ m, Reaches childQuits m ∧ m.kernel.running_process = some testcaseSlot ∧
    m.place testcaseSlot = .inside .blockMe ∧ ∀ p pid, .called p (.unblockProc pid) ∉ m.log := by
  obtain ⟨m, reaches, holds⟩ := exists_reaches childQuits
    (fun m => m.kernel.running_process = some testcaseSlot && m.place testcaseSlot = .inside .blockMe &&
      m.log.all fun e => !e.unblocks) (by decide +kernel)
  simp only [Bool.and_eq_true, decide_eq_true_eq] at holds
  obtain ⟨⟨running, place⟩, none⟩ := holds
  refine ⟨m, reaches, running, place, fun p pid called => ?_⟩
  exact absurd (List.all_eq_true.mp none _ called) (by simp [Event.unblocks])

end Machine

end UslossKernel.Phase1b
