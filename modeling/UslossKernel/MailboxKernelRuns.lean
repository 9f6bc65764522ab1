import UslossKernel.MailboxKernel

namespace UslossKernel

open Phase1b (Slot Machine Turn Ledger)

variable {s s' : MailKernel} {sys : Sys} {p i : Slot} {pt : Point} {fn : Fn} {g : Globals} {m : Machine} {t : Turn}

/-- Who has not terminated is in the table. -/
theorem taken_of_alive (ledger : Ledger m) (alive : m.kernel.status i ≠ .terminated) : m.kernel.occupied i = true := by
  by_contra free
  exact alive (ledger.family.free i (by simpa using free))

theorem pid_apart (ledger : Ledger m) {j : Slot} (occupied : m.kernel.occupied i = true) (other : i ≠ j) :
    m.pid i ≠ m.pid j :=
  fun same => other (ledger.family.distinct i j occupied same)

theorem Seated.alive (seated : Seated s i) {stand : Stand} (mail : s.mail i = some stand) :
    s.machine.kernel.status i ≠ .terminated := by
  cases stand with
  | wait w => exact (seated.waits w mail).2
  | cont k =>
    rw [(seated.conts k mail).1]
    decide

namespace Depicts

theorem enter (depicts : Depicts s sys) : Depicts (s.enter p pt) (sys.enter (s.machine.pid p) pt) := by
  cases pt with
  | start c =>
    refine ⟨depicts.globals, depicts.fault, ?_, ?_, depicts.returned, depicts.cpu, depicts.there, depicts.absent⟩
    · simp [MailKernel.enter, Sys.enter, depicts.calls]
    · simp [MailKernel.enter, Sys.enter, depicts.calls, depicts.ordinal]
  | afterBlock | afterUnblock => exact depicts

/-- Nobody under the pid is suspended. -/
theorem awake (depicts : Depicts s sys) {pid : Pid}
    (awake : ∀ i, s.machine.pid i = pid → s.machine.kernel.status i ≠ .blocked) :
    (sys.proc pid).suspended = false := by
  by_cases there : ∃ i, s.machine.kernel.occupied i = true ∧ s.machine.pid i = pid
  · obtain ⟨i, occupied, rfl⟩ := there
    rw [depicts.there i occupied]
    exact MailKernel.standing_awake (awake i rfl)
  · push Not at there
    rw [depicts.absent pid there]
    rfl

/-- Where a process comes to does not concern the others. -/
theorem update_other (depicts : Depicts s sys) (ledger : Ledger s.machine) {proc : Proc}
    (occupied : s.machine.kernel.occupied i = true) (other : i ≠ p) :
    Function.update sys.proc (s.machine.pid p) proc (s.machine.pid i) = s.standing i :=
  (Function.update_of_ne (pid_apart ledger occupied other) ..).trans (depicts.there i occupied)

theorem update_absent (depicts : Depicts s sys) {proc : Proc} {pid : Pid}
    (occupied : s.machine.kernel.occupied p = true)
    (absent : ∀ i, s.machine.kernel.occupied i = true → s.machine.pid i ≠ pid) :
    Function.update sys.proc (s.machine.pid p) proc pid = .outside :=
  (Function.update_of_ne (absent p occupied).symm ..).trans (depicts.absent pid absent)

section settle
variable (depicts : Depicts s sys) (ledger : Ledger s.machine) (occupied : s.machine.kernel.occupied p = true)
include depicts ledger occupied

theorem returns (lives : s.fault = none) (runnable : s.machine.kernel.status p = .runnable) {r : Result}
    (moves : s.settle p fn g (.returns r) = some s') :
    ∃ sys', Transition.Run Sys.step (fun _ _ => True) (sys.settle (s.machine.pid p) fn g (.returns r)) sys' ∧
      Depicts s' sys' := by
  cases Option.some.inj moves
  -- the process may go on, or somebody else
  have yields : (sys.settle (s.machine.pid p) fn g (.returns r)).step (.yield (s.machine.pid p)) =
      some { sys.settle (s.machine.pid p) fn g (.returns r) with cpu := none } := by
    simp [Sys.step, Sys.settle, Sys.mayRun, depicts.fault, lives]
  refine ⟨_, .single ⟨_, trivial, yields⟩, rfl, depicts.fault, depicts.calls, depicts.ordinal, ?_, rfl,
    fun i taken => ?_, fun pid absent => ?_⟩
  · simp [Sys.settle, depicts.returned, depicts.ordinal]
  · by_cases here : i = p
    · subst here
      refine (Function.update_self ..).trans ?_
      simp [MailKernel.standing, runnable]
    · refine (depicts.update_other ledger taken here).trans ?_
      simp [MailKernel.standing, here]
  · exact depicts.update_absent occupied absent

theorem blocks {w : Wait} (moves : s.settle p fn g (.blocks w) = some s') :
    Depicts s' (sys.settle (s.machine.pid p) fn g (.blocks w)) := by
  obtain ⟨m, turned, rfl⟩ := Option.map_eq_some_iff.mp moves
  obtain ⟨pids, _, statuses⟩ := Machine.turn_blockMe turned
  refine ⟨rfl, depicts.fault, depicts.calls, depicts.ordinal, depicts.returned, rfl, fun i taken => ?_,
    fun pid absent => ?_⟩
  · simp only [pids, Machine.occupied_of_pid pids] at taken ⊢
    by_cases here : i = p
    · subst here
      refine (Function.update_self ..).trans ?_
      simp [MailKernel.standing, statuses]
    · refine (depicts.update_other ledger taken here).trans ?_
      simp [MailKernel.standing, here, statuses]
  · simp only [pids, Machine.occupied_of_pid pids] at absent
    exact depicts.update_absent occupied absent

/-- `unblockProc` wakes the process the mailbox layer takes it to wake, and gives up the CPU if there is one. -/
theorem unblocks (runnable : s.machine.kernel.status p = .runnable) (user : s.machine.place p = .user)
    (seated : ∀ i, i ≠ p → Seated s i) {pid : Pid} {k : Cont}
    (moves : s.settle p fn g (.unblocks pid k) = some s') (goesOn : s'.machine.stopped = none) :
    Depicts s' (sys.settle (s.machine.pid p) fn g (.unblocks pid k)) := by
  obtain ⟨m, turned, rfl⟩ := Option.map_eq_some_iff.mp moves
  obtain ⟨pids, ⟨nobody, places, statuses⟩ | ⟨j, named, blocked, places, statuses⟩⟩ :=
    Machine.turn_unblockProc turned goesOn
  · have still : (Function.update sys.proc (s.machine.pid p) (.unblocking k) pid).suspended = false := by
      by_cases own : pid = s.machine.pid p
      · rw [own, Function.update_self]
        rfl
      · rw [Function.update_of_ne own]
        exact depicts.awake nobody
    refine ⟨rfl, depicts.fault, depicts.calls, depicts.ordinal, depicts.returned, ?_, fun i taken => ?_,
      fun pid' absent => ?_⟩
    · simp [Sys.settle, still, places, user, pids]
    · simp only [pids, Machine.occupied_of_pid pids] at taken ⊢
      simp only [Sys.settle, Proc.wake_awake still, Function.update_eq_self]
      by_cases here : i = p
      · subst here
        simp [MailKernel.standing]
      · rw [depicts.update_other ledger taken here]
        simp [MailKernel.standing, here, statuses]
    · simp only [pids, Machine.occupied_of_pid pids] at absent
      simp only [Sys.settle, Proc.wake_awake still, Function.update_eq_self]
      exact depicts.update_absent occupied absent
  · subst named
    have other : j ≠ p := by
      rintro rfl
      cases blocked.symm.trans runnable
    have taken : s.machine.kernel.occupied j = true := taken_of_alive ledger (by rw [blocked]; decide)
    have stands : Function.update sys.proc (s.machine.pid p) (.unblocking k) (s.machine.pid j) = s.standing j :=
      depicts.update_other ledger taken other
    -- it is suspended for the mailbox layer too, since a process in `unblockProc` is not blocked
    have suspended : (s.standing j).suspended = true := by
      cases mail : s.mail j with
      | none => simp [MailKernel.standing, mail, blocked, Proc.suspended]
      | some stand =>
        cases stand with
        | wait w => simp [MailKernel.standing, mail, blocked, Proc.suspended]
        | cont k => cases ((seated j other).conts k mail).1.symm.trans blocked
    refine ⟨rfl, depicts.fault, depicts.calls, depicts.ordinal, depicts.returned, ?_, fun i there => ?_,
      fun pid' absent => ?_⟩
    · simp [Sys.settle, stands, suspended, places]
    · simp only [pids, Machine.occupied_of_pid pids] at there ⊢
      simp only [Sys.settle]
      by_cases woken : i = j
      · subst woken
        rw [Function.update_self, stands]
        cases mail : s.mail i with
        | none => simp [MailKernel.standing, mail, blocked, other, statuses, Proc.wake]
        | some stand => cases stand <;> simp [MailKernel.standing, mail, blocked, other, statuses, Proc.wake]
      · rw [Function.update_of_ne (pid_apart ledger there woken)]
        by_cases here : i = p
        · subst here
          simp [MailKernel.standing]
        · rw [depicts.update_other ledger there here]
          simp [MailKernel.standing, here, statuses, woken]
    · simp only [pids, Machine.occupied_of_pid pids] at absent
      simp only [Sys.settle]
      rw [Function.update_of_ne (absent j taken).symm]
      exact depicts.update_absent occupied absent

end settle

/-- The machine may move without anybody's status changing. -/
theorem congr (depicts : Depicts s sys) (pids : m.pid = s.machine.pid)
    (statuses : m.kernel.status = s.machine.kernel.status) : Depicts { s with machine := m } sys := by
  have occupied := Machine.occupied_of_pid pids
  refine ⟨depicts.globals, depicts.fault, depicts.calls, depicts.ordinal, depicts.returned, ?_, fun i taken => ?_,
    fun pid absent => ?_⟩
  · rw [depicts.cpu, pids]
  · simp only [pids, occupied] at taken ⊢
    have same : MailKernel.standing { s with machine := m } i = s.standing i :=
      MailKernel.standing_congr rfl (congrFun statuses i)
    rw [depicts.there i taken, same]
  · simp only [pids, occupied] at absent
    exact depicts.absent pid absent

end Depicts

section seats

theorem Seated.outside (mail : s.mail i = none) : Seated s i :=
  ⟨fun w waits => (by cases mail.symm.trans waits), fun k conts => (by cases mail.symm.trans conts)⟩

theorem Seated.keep (seated : Seated s i) (mail : s'.mail i = s.mail i)
    (place : s'.machine.place i = s.machine.place i)
    (status : s'.machine.kernel.status i = s.machine.kernel.status i ∨
      s.machine.kernel.status i = .blocked ∧ s'.machine.kernel.status i = .runnable)
    (idle : s.holder ≠ some i) : Seated s' i := by
  constructor
  · intro w waits
    obtain ⟨there, alive⟩ := seated.waits w (mail.symm.trans waits)
    refine ⟨place.trans there, ?_⟩
    rcases status with same | ⟨_, woken⟩
    · rwa [same]
    · rw [woken]
      decide
  · intro k conts
    obtain ⟨runnable, there⟩ := seated.conts k (mail.symm.trans conts)
    constructor
    · rcases status with same | ⟨blocked, _⟩
      · exact same.trans runnable
      · cases blocked.symm.trans runnable
    · obtain ⟨pid, inside⟩ := there.resolve_left fun both => idle both.2
      exact .inr ⟨pid, place.trans inside⟩

theorem Seated.enter (seated : Seated s i) : Seated (s.enter p pt) i := by
  cases pt <;> exact ⟨seated.waits, seated.conts⟩

/-- A stretch of code of a mailbox call leaves everybody seated. -/
theorem Seating.settle {outcome : Outcome} (others : ∀ i, i ≠ p → Seated s i)
    (own : ∀ i, s.holder = some i → i = p) (runnable : s.machine.kernel.status p = .runnable)
    (user : s.machine.place p = .user) (moves : s.settle p fn g outcome = some s')
    (goesOn : s'.machine.stopped = none) (lives : s'.fault = none) : Seating s' := by
  have idle : ∀ i, i ≠ p → s.holder ≠ some i := fun i other holds => other (own i holds)
  cases outcome with
  | returns r =>
    cases Option.some.inj moves
    refine ⟨fun i => ?_, fun i holds => by cases holds⟩
    by_cases here : i = p
    · subst here
      exact .outside (Function.update_self ..)
    · exact (others i here).keep (Function.update_of_ne here ..) rfl (.inl rfl) (idle i here)
  | blocks w =>
    obtain ⟨m, turned, rfl⟩ := Option.map_eq_some_iff.mp moves
    obtain ⟨_, places, statuses⟩ := Machine.turn_blockMe turned
    refine ⟨fun i => ?_, fun i holds => by cases holds⟩
    by_cases here : i = p
    · subst here
      refine ⟨fun w' _ => ?_, fun k conts => ?_⟩
      · simp [places, statuses]
      · simp at conts
    · refine (others i here).keep (Function.update_of_ne here ..) ?_ (.inl ?_) (idle i here)
      · simp [places, here]
      · simp [statuses, here]
  | unblocks pid k =>
    obtain ⟨m, turned, rfl⟩ := Option.map_eq_some_iff.mp moves
    obtain ⟨_, ⟨_, places, statuses⟩ | ⟨j, _, blocked, places, statuses⟩⟩ := Machine.turn_unblockProc turned goesOn
    · refine ⟨fun i => ?_, fun i holds => ?_⟩
      · by_cases here : i = p
        · subst here
          refine ⟨fun w waits => ?_, fun k' _ => ?_⟩
          · simp at waits
          · simp [places, statuses, runnable, user]
        · exact (others i here).keep (Function.update_of_ne here ..) (congrFun places i)
            (.inl (congrFun statuses i)) (idle i here)
      · simp only [places, user, if_true, Option.some.injEq] at holds
        subst holds
        exact ⟨k, Function.update_self ..⟩
    · have other : p ≠ j := by
        rintro rfl
        cases blocked.symm.trans runnable
      refine ⟨fun i => ?_, fun i holds => ?_⟩
      · by_cases here : i = p
        · subst here
          refine ⟨fun w waits => ?_, fun k' _ => ?_⟩
          · simp at waits
          · simp [places, statuses, runnable, other]
        · refine (others i here).keep (Function.update_of_ne here ..) ?_ ?_ (idle i here)
          · simp [places, here]
          · by_cases woken : i = j
            · subst woken
              exact .inr ⟨blocked, by simp [statuses]⟩
            · exact .inl (by simp [statuses, woken])
      · simp [places] at holds
  | faults f =>
    cases Option.some.inj moves
    cases lives

/-- So does a turn outside of the mailbox calls. -/
theorem Seating.turned (seating : Seating s) (ledger : Ledger s.machine) (taken : Machine.Taken s.machine t m)
    (goesOn : m.stopped = none) (outside : s.mail t.process = none) (nobody : s.holder = none) :
    Seating { s with machine := m } := by
  refine ⟨fun i => ?_, fun i holds => by cases nobody.symm.trans holds⟩
  have idle : s.holder ≠ some i := by simp [nobody]
  cases mail : s.mail i with
  | none => exact .outside mail
  | some stand =>
    have seated := seating.seated i
    have alive := seated.alive mail
    have other : i ≠ t.process := by
      rintro rfl
      cases outside.symm.trans mail
    cases taken.fate ledger goesOn other with
    | stays _ status place => exact seated.keep rfl (place (taken_of_alive ledger alive)) (.inl status) idle
    | woken _ _ blocked status place => exact seated.keep rfl place (.inr ⟨blocked, status⟩) idle
    | created free => cases free.symm.trans (taken_of_alive ledger alive)
    | freed dead => exact absurd dead alive

end seats

/-- Who is woken by a turn outside of the mailbox calls is in none. -/
theorem Seating.woken (seating : Seating s) (ledger : Ledger s.machine) (taken : Machine.Taken s.machine t m)
    (goesOn : m.stopped = none) (live : s.machine.kernel.status t.process = .runnable) (spares : s.Spares (.turn t))
    (blocked : s.machine.kernel.status i = .blocked) (awake : m.kernel.status i ≠ .blocked) : s.mail i = none := by
  have other : i ≠ t.process := by
    rintro rfl
    cases blocked.symm.trans live
  cases taken.fate ledger goesOn other with
  | stays _ status => exact absurd (status.trans blocked) awake
  | woken wakes =>
    by_contra inside
    obtain ⟨stand, mail⟩ := Option.ne_none_iff_exists'.mp inside
    cases stand with
    | wait w => exact spares i w (by simp [MailKernel.standing, mail, blocked]) wakes
    | cont k => cases ((seating.seated i).conts k mail).1.symm.trans blocked
  | created free => cases free.symm.trans (taken_of_alive ledger (by rw [blocked]; decide))
  | freed dead => cases dead.symm.trans blocked

theorem Seating.dead_outside (seating : Seating s) (dead : s.machine.kernel.status i = .terminated) :
    s.mail i = none := by
  by_contra inside
  obtain ⟨stand, mail⟩ := Option.ne_none_iff_exists'.mp inside
  exact (seating.seated i).alive mail dead

/-- A turn outside of the mailbox calls, which rouses sleepers and may put its
process to sleep. -/
theorem Depicts.turned (depicts : Depicts s sys) (seating : Seating s) (ledger : Ledger s.machine)
    (taken : Machine.Taken s.machine t m) (live : s.machine.kernel.status t.process = .runnable)
    (occupied : s.machine.kernel.occupied t.process = true) (goesOn : m.stopped = none) (lives : s.fault = none)
    (outside : s.mail t.process = none) (nobody : s.holder = none) (spares : s.Spares (.turn t)) :
    ∃ sys', Transition.Run Sys.step (fun _ _ => True) sys sys' ∧ Depicts { s with machine := m } sys' := by
  have ownPid := (taken.own goesOn).1
  have ownOutside : sys.proc (s.machine.pid t.process) = .outside := by
    rw [depicts.there _ occupied]
    exact MailKernel.standing_outside outside (by rw [live]; decide)
  have idle : sys.cpu = none := by simp [depicts.cpu, nobody]
  let roused : List Pid := ((List.finRange maxProc).filter fun i =>
    s.machine.kernel.status i = .blocked ∧ m.kernel.status i ≠ .blocked).map s.machine.pid
  have mem_roused : ∀ pid, pid ∈ roused ↔
      ∃ i, (s.machine.kernel.status i = .blocked ∧ m.kernel.status i ≠ .blocked) ∧ s.machine.pid i = pid := by
    simp [roused]
  have asleep : ∀ pid ∈ roused, sys.proc pid = .asleep ∨ sys.proc pid = .outside := by
    intro pid member
    obtain ⟨i, ⟨blocked, awake⟩, rfl⟩ := (mem_roused pid).mp member
    have mail := seating.woken ledger taken goesOn live spares blocked awake
    rw [depicts.there i (taken_of_alive ledger (by rw [blocked]; decide))]
    simp [MailKernel.standing, mail, blocked]
  have unroused : ∀ i, s.machine.kernel.occupied i = true →
      ¬ (s.machine.kernel.status i = .blocked ∧ m.kernel.status i ≠ .blocked) → s.machine.pid i ∉ roused := by
    intro i there same member
    obtain ⟨j, changed, named⟩ := (mem_roused _).mp member
    obtain rfl := ledger.family.distinct i j there named.symm
    exact same changed
  have ownUnroused : s.machine.pid t.process ∉ roused := unroused _ occupied fun changed => by
    cases changed.1.symm.trans live
  have run := Sys.rouses_sleeps (b := m.kernel.status t.process = .blocked) (depicts.fault.trans lives) idle asleep
    ownOutside
  refine ⟨_, run, depicts.globals, depicts.fault, depicts.calls, depicts.ordinal, depicts.returned, ?_,
    fun i there => ?_, fun pid absent => ?_⟩
  · simp [idle, nobody]
  · by_cases here : i = t.process
    · subst here
      by_cases sleeps : m.kernel.status t.process = .blocked
      · simp [MailKernel.standing, ownPid, outside, sleeps]
      · simp [MailKernel.standing, ownPid, outside, sleeps, ownUnroused, ownOutside]
    · cases taken.fate ledger goesOn here with
      | stays pid status =>
        have before := (Machine.occupied_same pid).symm.trans there
        have apart := pid_apart ledger before here
        have kept : s.machine.pid i ∉ roused := unroused i before fun changed => changed.2 (status.trans changed.1)
        have same : MailKernel.standing { s with machine := m } i = s.standing i :=
          MailKernel.standing_congr rfl status
        simp only [pid, apart, kept, false_and, if_false, same]
        exact depicts.there i before
      | woken _ pid blocked status =>
        have awake : m.kernel.status i ≠ .blocked := by rw [status]; decide
        have before : s.machine.kernel.occupied i = true := taken_of_alive ledger (by rw [blocked]; decide)
        have apart := pid_apart ledger before here
        have member : s.machine.pid i ∈ roused := (mem_roused _).mpr ⟨i, ⟨blocked, awake⟩, rfl⟩
        have mail := seating.woken ledger taken goesOn live spares blocked awake
        simp [pid, apart, member, MailKernel.standing, mail, status]
      | created free above status =>
        -- a pid that has just been drawn is nobody else's
        have fresh : ∀ j, s.machine.pid j ≠ m.pid i := fun j same => by
          have below := ledger.family.below j
          unfold Machine.pid at same above
          omega
        have apart : m.pid i ≠ s.machine.pid t.process := fun same => fresh _ same.symm
        have kept : m.pid i ∉ roused := fun member => by
          obtain ⟨j, _, named⟩ := (mem_roused _).mp member
          exact fresh j named
        have mail := seating.dead_outside (ledger.family.free i free)
        simp [apart, kept, depicts.absent _ fun j _ => fresh j, MailKernel.standing, mail, status]
      | freed _ gone => cases gone.symm.trans there
  · have apart : pid ≠ s.machine.pid t.process := by
      rw [← ownPid]
      exact (absent _ ((Machine.occupied_same ownPid).trans occupied)).symm
    simp only [apart, false_and, if_false, ite_eq_left_iff]
    intro _
    by_cases before : ∃ i, s.machine.kernel.occupied i = true ∧ s.machine.pid i = pid
    · obtain ⟨i, there, rfl⟩ := before
      have other : i ≠ t.process := by
        rintro rfl
        exact apart rfl
      cases taken.fate ledger goesOn other with
      | stays same => exact absurd same (absent i ((Machine.occupied_same same).trans there))
      | woken _ same => exact absurd same (absent i ((Machine.occupied_same same).trans there))
      | created free => cases free.symm.trans there
      | freed dead =>
        rw [depicts.there i there]
        exact MailKernel.standing_outside (seating.dead_outside dead) (by rw [dead]; decide)
    · push Not at before
      exact depicts.absent pid before

theorem MailKernel.settle_ordered {outcome : Outcome} (ordered : Machine.Ordered s.machine)
    (moves : s.settle p fn g outcome = some s') : Machine.Ordered s'.machine := by
  cases outcome with
  | returns | faults =>
    cases Option.some.inj moves
    exact ordered
  | blocks | unblocks =>
    obtain ⟨m, turned, rfl⟩ := Option.map_eq_some_iff.mp moves
    exact Transition.Run.next ordered trivial turned

theorem Depicts.settle {outcome : Outcome} (depicts : Depicts s sys) (ledger : Ledger s.machine)
    (seated : ∀ i, i ≠ p → Seated s i) (occupied : s.machine.kernel.occupied p = true)
    (runnable : s.machine.kernel.status p = .runnable) (user : s.machine.place p = .user) (lives : s.fault = none)
    (moves : s.settle p fn g outcome = some s') (goesOn : s'.machine.stopped = none) :
    ∃ sys', Transition.Run Sys.step (fun _ _ => True) (sys.settle (s.machine.pid p) fn g outcome) sys' ∧
      Depicts s' sys' := by
  cases outcome with
  | returns r => exact depicts.returns ledger occupied lives runnable moves
  | blocks w => exact ⟨_, .refl, depicts.blocks ledger occupied moves⟩
  | unblocks pid k => exact ⟨_, .refl, depicts.unblocks ledger occupied runnable user seated moves goesOn⟩
  | faults f =>
    cases Option.some.inj moves
    exact ⟨_, .refl, depicts.globals, rfl, depicts.calls, depicts.ordinal, depicts.returned, depicts.cpu,
      depicts.there, depicts.absent⟩

/-- The two layers go together as long as phase 1 has not stopped. -/
structure Simulates (s : MailKernel) (sys : Sys) : Prop where
  ordered : Machine.Ordered s.machine
  depicts : s.machine.stopped = none → Depicts s sys
  seating : s.machine.stopped = none → s.fault = none → Seating s

/-- A stretch of code of a mailbox call is one step of the mailbox layer, and
its return a second one. -/
theorem Depicts.run (depicts : Depicts s sys) (ordered : Machine.Ordered s.machine)
    (seated : ∀ i, i ≠ p → Seated s i) (free : s.free p = true) (runs : s.runs p = true)
    (here : (s.standing p).At pt) (moves : s.run p pt = some s') :
    ∃ sys', Transition.Run Sys.step (fun _ _ => True) sys sys' ∧ Simulates s' sys' := by
  obtain ⟨_, occupied, runnable, user⟩ := MailKernel.runs_spec runs
  obtain ⟨lives, own⟩ := MailKernel.free_spec free
  have settled : (s.enter p pt).settle p pt.fn (pt.exec s.globals (s.machine.pid p)).1
      (pt.exec s.globals (s.machine.pid p)).2 = some s' := moves
  have after : Machine.Ordered s'.machine :=
    MailKernel.settle_ordered (by rwa [MailKernel.enter_machine]) settled
  by_cases goesOn : s'.machine.stopped = none
  · have seats : ∀ i, i ≠ p → Seated (s.enter p pt) i := fun i other => (seated i other).enter
    have may : sys.mayRun (s.machine.pid p) = true := by
      rw [Sys.mayRun, depicts.fault, depicts.cpu, lives]
      cases holder : s.holder with
      | none => rfl
      | some i =>
        obtain rfl := own i holder
        simp
    have first : sys.step (pt.act (s.machine.pid p)) = some (sys.run (s.machine.pid p) pt) := by
      refine Sys.step_at may ?_
      rwa [depicts.there p occupied]
    have entered : Depicts (s.enter p pt) (sys.enter (s.machine.pid p) pt) := depicts.enter
    obtain ⟨sys', rest, depicts'⟩ := entered.settle (by simpa using ordered.ledger) seats (by simpa using occupied)
      (by simpa using runnable) (by simpa using user) (by simpa using lives) settled goesOn
    refine ⟨sys', .head ⟨_, trivial, first⟩ ?_, after, fun _ => depicts', fun _ lives' => ?_⟩
    · rw [MailKernel.enter_machine, ← depicts.globals] at rest
      exact rest
    · exact .settle seats (by simpa using own) (by simpa using runnable) (by simpa using user) settled goesOn lives'
  · exact ⟨sys, .refl, after, fun still => absurd still goesOn, fun still => absurd still goesOn⟩

/-- Where a process inside a mailbox call runs on. -/
theorem MailKernel.standing_at {stand : Stand} (mail : s.mail p = some stand)
    (runnable : s.machine.kernel.status p = .runnable) : (s.standing p).At stand.point := by
  cases stand with
  | wait w =>
    have stands : s.standing p = .woken w := by simp [MailKernel.standing, mail, runnable]
    rw [stands]
    exact .afterBlock
  | cont k =>
    have stands : s.standing p = .unblocking k := by simp [MailKernel.standing, mail]
    rw [stands]
    exact .afterUnblock

/-- Every step of the processes on top of phase 1 is a run of the mailbox layer. -/
theorem Simulates.step {a : MailAct} (simulates : Simulates s sys) (spares : s.Spares a) (moves : s.step a = some s') :
    ∃ sys', Transition.Run Sys.step (fun _ _ => True) sys sys' ∧ Simulates s' sys' := by
  have ordered := simulates.ordered
  cases a with
  | call p c =>
    simp only [MailKernel.step, Option.ite_none_right_eq_some] at moves
    obtain ⟨⟨free, runs, outside⟩, moves⟩ := moves
    obtain ⟨goesOn, _, runnable, _⟩ := MailKernel.runs_spec runs
    have seating := simulates.seating goesOn (MailKernel.free_spec free).1
    have here : (s.standing p).At (.start c) := by
      rw [MailKernel.standing_outside outside (by rw [runnable]; decide)]
      exact .start
    exact (simulates.depicts goesOn).run ordered (fun i _ => seating.seated i) free runs here moves
  | resume p =>
    simp only [MailKernel.step] at moves
    cases mail : s.mail p with
    | none =>
      rw [mail] at moves
      cases moves
    | some stand =>
      rw [mail] at moves
      simp only at moves
      split at moves
      · cases moves
      rename_i isFree
      have free : s.free p = true := by simpa using isFree
      obtain ⟨lives, own⟩ := MailKernel.free_spec free
      split at moves
      · rename_i runs
        obtain ⟨goesOn, _, runnable, _⟩ := MailKernel.runs_spec runs
        have seating := simulates.seating goesOn lives
        exact (simulates.depicts goesOn).run ordered (fun i _ => seating.seated i) free runs
          (MailKernel.standing_at mail runnable) moves
      · rename_i waits
        obtain ⟨m, turned, moves⟩ := Option.bind_eq_some_iff.mp moves
        obtain ⟨goesOn, occupied, runnable⟩ := Machine.turn_live turned
        have occupied : s.machine.kernel.occupied p = true := occupied
        have runnable : s.machine.kernel.status p = .runnable := runnable
        have after : Machine.Ordered m := Transition.Run.next ordered trivial turned
        split at moves
        · rename_i stops
          cases moves
          have stopped : m.stopped ≠ none := by
            intro still
            simp [still] at stops
          exact ⟨sys, .refl, after, fun still => absurd still stopped, fun still => absurd still stopped⟩
        · rename_i stops
          have still : m.stopped = none := by simpa using stops
          have seating := simulates.seating goesOn lives
          -- it comes back from the call of phase 1 in which it has left the CPU
          have place : s.machine.place p = .inside .blockMe ∨
              ∃ pid, s.machine.place p = .inside (.unblockProc pid) := by
            cases stand with
            | wait w => exact .inl ((seating.seated p).waits w mail).1
            | cont k =>
              refine ((seating.seated p).conts k mail).2.imp_left fun both => ?_
              exact absurd (by simp [MailKernel.runs, Machine.live, goesOn, occupied, runnable, both.1]) waits
          obtain ⟨pids, places, statuses⟩ := Machine.turn_resumed turned still place
          have seats : ∀ i, i ≠ p → Seated { s with machine := m } i := by
            intro i other
            refine (seating.seated i).keep rfl ?_ (.inl (congrFun statuses i)) fun holds => other (own i holds)
            simp [places, other]
          have runnable' : m.kernel.status p = .runnable := (congrFun statuses p).trans runnable
          have runs' : MailKernel.runs { s with machine := m } p = true := by
            have there := (congrFun (Machine.occupied_of_pid pids) p).trans occupied
            simp [MailKernel.runs, Machine.live, still, there, runnable', places]
          exact ((simulates.depicts goesOn).congr pids statuses).run after seats free runs'
            (MailKernel.standing_at mail runnable') moves
  | turn t =>
    simp only [MailKernel.step, Option.ite_none_right_eq_some] at moves
    obtain ⟨⟨free, outside⟩, moves⟩ := moves
    obtain ⟨m, turned, rfl⟩ := Option.map_eq_some_iff.mp moves
    obtain ⟨goesOn, occupied, runnable⟩ := Machine.turn_live turned
    obtain ⟨lives, own⟩ := MailKernel.free_spec free
    have after : Machine.Ordered m := Transition.Run.next ordered trivial turned
    by_cases still : m.stopped = none
    · have seating := simulates.seating goesOn lives
      have taken := Machine.turn_taken turned
      have nobody : s.holder = none := by
        by_contra somebody
        obtain ⟨i, holder⟩ := Option.ne_none_iff_exists'.mp somebody
        obtain ⟨k, mail⟩ := seating.held i holder
        obtain rfl := own i holder
        cases outside.symm.trans mail
      obtain ⟨sys', run, depicts⟩ := (simulates.depicts goesOn).turned seating ordered.ledger taken runnable occupied
        still lives outside nobody spares
      exact ⟨sys', run, after, fun _ => depicts, fun _ _ => seating.turned ordered.ledger taken still outside nobody⟩
    · exact ⟨sys, .refl, after, fun goes => absurd goes still, fun goes => absurd goes still⟩

theorem boot_simulates : Simulates MailKernel.boot Sys.boot := by
  have awake : ∀ i, MailKernel.boot.machine.kernel.status i ≠ .blocked := by
    intro i
    by_cases here : i = Phase1b.initSlot
    · subst here
      decide
    · show (Phase1b.phase1_init.process_table i).status ≠ .blocked
      rw [Phase1b.phase1_init_of_ne here]
      decide
  refine ⟨.refl, fun _ => ⟨rfl, rfl, rfl, rfl, rfl, rfl, fun i _ => ?_, fun _ _ => rfl⟩, fun _ _ => ⟨fun i => ?_, ?_⟩⟩
  · exact (MailKernel.standing_outside rfl (awake i)).symm
  · exact .outside rfl
  · intro i holds
    cases holds

/-- Phase 2 on top of phase 1 refines the mailbox layer over any processes: as
long as no turn outside of the mailbox calls wakes a process that is suspended
in one, every run leads to tables, calls and results that a run of the mailbox
layer leads to, in which every process of the process table stands where it
does there. -/
theorem MailKernel.refines_mailboxes (run : Transition.Run MailKernel.step MailKernel.Spares MailKernel.boot s)
    (goesOn : s.machine.stopped = none) :
    ∃ sys, Transition.Run Sys.step (fun _ _ => True) Sys.boot sys ∧ sys.globals = s.globals ∧ sys.fault = s.fault ∧
      sys.calls = s.calls ∧ sys.returned = s.returned ∧
      ∀ i, s.machine.kernel.occupied i = true → sys.proc (s.machine.pid i) = s.standing i := by
  obtain ⟨sys, runs, simulates⟩ := Transition.Run.simulated run Simulates boot_simulates
    fun _ _ _ _ related spares moves => related.step spares moves
  have depicts := simulates.depicts goesOn
  exact ⟨sys, runs, depicts.globals, depicts.fault, depicts.calls, depicts.returned, depicts.there⟩

namespace MailKernel

/-- A test that the turn wakes nobody. -/
def testSpares (_ : MailKernel) : MailAct → Bool
  | .turn (.call _ (.quit ..)) | .turn (.call _ (.finish ..)) | .turn (.call _ (.unblockProc _)) => false
  | _ => true

theorem Spares.of_test {a : MailAct} (admitted : s.testSpares a = true) : s.Spares a := by
  cases a with
  | call | resume => exact trivial
  | turn t =>
    rintro i w _ ⟨p, c, rfl, rfl | ⟨⟨exit, fn⟩, _⟩⟩
    · cases admitted
    · cases c with
      | quit | finish => cases admitted
      | _ => cases fn

/-- `testcase_main` creates a mailbox and a child that receives from it, and
sends it a message. -/
def childReceives : List MailAct :=
  [.turn (.resume Phase1b.initSlot), .turn (.call Phase1b.initSlot (Machine.sporks 3)),
    .turn (.resume Machine.testcaseSlot), .call Machine.testcaseSlot (.create 1 4 true),
    .turn (.call Machine.testcaseSlot (Machine.sporks 4)), .turn (.resume Machine.childSlot),
    .call Machine.childSlot (.recv 7 ⟨true, 4⟩), .call Machine.testcaseSlot (.send 7 (some [5]) 1),
    .resume Machine.childSlot, .resume Machine.testcaseSlot]

theorem refines_mailboxes_run : ∃ sys, Transition.Run Sys.step (fun _ _ => True) Sys.boot sys ∧
    sys.returned (.recv 7) = [(0, ⟨1, [5]⟩)] ∧ sys.returned (.send 7) = [(0, ⟨0, []⟩)] ∧ sys.proc 3 = .outside := by
  obtain ⟨s, run, test⟩ := Transition.exists_run step boot childReceives testSpares (fun _ _ => Spares.of_test)
    (fun s => decide (s.machine.stopped = none ∧ s.returned (.recv 7) = [(0, ⟨1, [5]⟩)] ∧
      s.returned (.send 7) = [(0, ⟨0, []⟩)] ∧ s.machine.kernel.occupied Machine.childSlot = true ∧
      s.machine.pid Machine.childSlot = 3 ∧ s.standing Machine.childSlot = .outside)) (by decide +kernel)
  obtain ⟨goesOn, received, sent, occupied, pid, outside⟩ := of_decide_eq_true test
  obtain ⟨sys, runs, _, _, _, returned, there⟩ := refines_mailboxes run goesOn
  refine ⟨sys, runs, by rw [returned, received], by rw [returned, sent], ?_⟩
  rw [← pid, there _ occupied, outside]

end MailKernel

end UslossKernel
