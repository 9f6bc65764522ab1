import UslossKernel.Library.CountingSemaphore
import UslossKernel.SemaphoreMachine

namespace UslossKernel

/-- The semaphores as the system calls use them. -/
abbrev SemSys := SemMachine SemOp

abbrev SemSys.step : SemSys → SemAct SemOp Int → Option SemSys := SemMachine.step

/-- The two counters of a semaphore are those of a counting semaphore. -/
def Semaphore.Refines (sem : Semaphore) (c : CountingSemaphore) : Prop :=
  sem.value = c.value ∧ sem.blocked = c.waiting

def SemOp.apply (c : CountingSemaphore) : SemOp → CountingSemaphore
  | .semp => c.down
  | .semv => c.up

/-- The operation is one for the mailbox: a down that waits, or an up that
lets one pass. -/
def SemOp.meets (c : CountingSemaphore) : SemOp → Bool
  | .semp => !decide (0 < c.value)
  | .semv => !decide (c.waiting = 0)

/-- Both system calls work on a counting semaphore, and go to the mailbox
exactly where the operation is one for it. -/
theorem SemOp.entry_refines {sem : Semaphore} {c : CountingSemaphore} {n p v : Nat} (op : SemOp)
    (after : CountingSemaphore.After n p v c) (refines : sem.Refines c) :
    ((SemCall.sys op).entry sem).1.Refines (op.apply c) ∧ ((SemCall.sys op).entry sem).2 = op.meets c := by
  obtain ⟨value, blocked⟩ := refines
  have waiting := after.waiting
  cases op with
  | semp =>
    by_cases positive : 0 < c.value
    · have entry : (SemCall.sys .semp).entry sem = ({ sem with value := sem.value - 1 }, false) := if_neg (by omega)
      simp [entry, Semaphore.Refines, apply, CountingSemaphore.down, meets, positive, value, blocked]
    · have entry : (SemCall.sys .semp).entry sem =
          ({ sem with value := sem.value - 1, blocked := sem.blocked + 1 }, true) := if_pos (by omega)
      simp [entry, Semaphore.Refines, apply, CountingSemaphore.down, meets, positive, value, blocked]
  | semv =>
    by_cases none : c.waiting = 0
    · have entry : (SemCall.sys .semv).entry sem = ({ sem with value := sem.value + 1 }, false) := if_neg (by omega)
      simp [entry, Semaphore.Refines, apply, CountingSemaphore.up, meets, none, value, blocked]
    · have entry : (SemCall.sys .semv).entry sem =
          ({ sem with value := sem.value + 1, blocked := sem.blocked - 1 }, true) := if_pos (by omega)
      have one : ((c.waiting - 1 : Nat) : Int) = c.waiting - 1 := by omega
      simp [entry, Semaphore.Refines, apply, CountingSemaphore.up, meets, none, value, blocked, one]

/-- An operation that is not one for the mailbox leaves those that wait, and
passes if it is a down. -/
theorem SemOp.apply_unmet {c : CountingSemaphore} (op : SemOp) (meets : op.meets c = false) :
    (op.apply c).waiting = c.waiting ∧ (op.apply c).passed = c.passed + if SemOp.semp = op then 1 else 0 := by
  cases op with
  | semp =>
    have positive : 0 < c.value := by simpa [SemOp.meets] using meets
    simp [apply, CountingSemaphore.down, positive]
  | semv =>
    have none : c.waiting = 0 := by simpa [SemOp.meets] using meets
    simp [apply, CountingSemaphore.up, none]

theorem SemOp.after_apply {c : CountingSemaphore} {n : Nat} {counts : SemOp → SemId → Nat} {i : SemId} (op : SemOp)
    (after : CountingSemaphore.After n (counts .semp i) (counts .semv i) c) :
    CountingSemaphore.After n (countCall counts op i .semp i) (countCall counts op i .semv i) (op.apply c) := by
  cases op with
  | semp => simpa [countCall_apply, apply] using after.down
  | semv => simpa [countCall_apply, apply] using after.up

namespace SemSys

/-- As many processes are at this place. -/
abbrev Counted (s : SemSys) (place : CallPlace SemOp) (n : Nat) : Prop :=
  Counts s.place (fun here => decide (here = place)) n

/-- The semaphore is a counting semaphore on which those that wait are
suspended in `sys_semp`, and those that have passed have returned or been woken.
Nobody is suspended in `sys_semv`. -/
structure Tracks (s : SemSys) (i : SemId) (c : CountingSemaphore) (woken : Nat) : Prop where
  nonneg : 0 ≤ s.initial i
  after : CountingSemaphore.After (s.initial i).toNat (s.started .semp i) (s.started .semv i) c
  value : (s.sems i).in_use = true → (s.sems i).value = c.value
  blocked : (s.sems i).blocked = c.waiting
  suspended : Counted s (.suspended .semp i) c.waiting
  runnable : Counted s (.runnable .semp i) woken
  passed : s.returned .semp i + woken = c.passed
  running : Counted s (.suspended .semv i) 0

structure Sound (s : SemSys) : Prop where
  tidy : s.Tidy
  tracks : ∀ i, ∃ c woken, Tracks s i c woken

variable {s s' : SemSys} {i : SemId} {p : Pid} {c : CountingSemaphore} {woken : Nat}

theorem Tracks.not_suspended (tracks : Tracks s i c woken) (q : Pid) : s.place q ≠ .suspended .semv i := by
  simpa using Counts.zero_iff.mp tracks.running q

theorem Tracks.congr (tracks : Tracks s i c woken) (untouched : s.Untouched s' i) : Tracks s' i c woken := by
  obtain ⟨sem, initial, started, returned, places⟩ := untouched
  have places' : ∀ place : CallPlace SemOp, place.on i = true → ∀ n, Counted s place n → Counted s' place n :=
    fun place within => places _ (CallPlace.ne_of_not_on within)
  refine ⟨?_, ?_, ?_, ?_, places' _ (by simp [CallPlace.on]) _ tracks.suspended,
    places' _ (by simp [CallPlace.on]) _ tracks.runnable, ?_, places' _ (by simp [CallPlace.on]) _ tracks.running⟩
  · rw [initial]
    exact tracks.nonneg
  · rw [initial, started, started]
    exact tracks.after
  · rw [sem]
    exact tracks.value
  · rw [sem]
    exact tracks.blocked
  · rw [returned]
    exact tracks.passed

/-- A new semaphore. -/
theorem Sound.create {initial_value : Int} (sound : Sound s) (found : s.sems.firstUnused initial_value = some i)
    (mboxID : Int) : Tracks (s.create i initial_value mboxID) i (.new initial_value.toNat) 0 := by
  obtain ⟨nonneg, free⟩ := Sems.firstUnused_spec found
  obtain ⟨blocked, counts, _⟩ := sound.tidy.unused i free
  have initial : (s.create i initial_value mboxID).initial i = initial_value := Function.update_self ..
  have sem : (s.create i initial_value mboxID).sems i =
      { s.sems i with value := initial_value, mboxID, in_use := true } := Sems.sysSemcreate_self ..
  have nobody : ∀ place : CallPlace SemOp, place.on i = true → Counted s place 0 :=
    fun place within => sound.tidy.nobody free (CallPlace.ne_of_not_on within)
  refine ⟨by rw [initial]; exact nonneg, ?_, fun _ => ?_, ?_, nobody _ (by simp [CallPlace.on]),
    nobody _ (by simp [CallPlace.on]), ?_, nobody _ (by simp [CallPlace.on])⟩
  · rw [initial]
    simp only [SemMachine.create, (counts _).1]
    exact .new
  · rw [sem]
    exact (Int.toNat_of_nonneg nonneg).symm
  · rw [sem]
    exact blocked
  · exact (counts .semp).2

/-- A call on a semaphore changes it as it changes a counting semaphore. -/
theorem Tracks.call {op : SemOp} {woken' : Nat} (tracks : Tracks s i c woken) (used : (s.sems i).in_use = true)
    (called : s.Called p op i s') (suspended : Counted s' (.suspended .semp i) (op.apply c).waiting)
    (runnable : Counted s' (.runnable .semp i) woken') (passed : s'.returned .semp i + woken' = (op.apply c).passed)
    (running : Counted s' (.suspended .semv i) 0) : Tracks s' i (op.apply c) woken' := by
  obtain ⟨value, blocked⟩ := (op.entry_refines tracks.after ⟨tracks.value used, tracks.blocked⟩).1
  refine ⟨?_, ?_, fun _ => ?_, ?_, suspended, runnable, passed, running⟩
  · rw [called.initial]
    exact tracks.nonneg
  · rw [called.initial, called.started]
    exact op.after_apply tracks.after
  · rw [called.sems_self]
    exact value
  · rw [called.sems_self]
    exact blocked

theorem Tracks.called {op : SemOp} (tracks : Tracks s i c woken) (used : (s.sems i).in_use = true)
    (out : s.place p = .outside) (called : s.Called p op i s') : ∃ c woken, Tracks s' i c woken := by
  have meets := (op.entry_refines tracks.after ⟨tracks.value used, tracks.blocked⟩).2
  have passed := tracks.passed
  cases called with
  | passes unmet =>
    obtain ⟨waiting, more⟩ := op.apply_unmet (meets.symm.trans unmet)
    refine ⟨op.apply c, woken, tracks.call (p := p) used (.passes unmet) ?_ tracks.runnable ?_ tracks.running⟩
    · rw [waiting]
      exact tracks.suspended
    · simp only [countCall_apply, and_true]
      omega
  | waits met alone =>
    have met' : op.meets c = true := meets.symm.trans met
    cases op with
    | semp =>
      have positive : ¬ 0 < c.value := by simpa [SemOp.meets] using met'
      have down : c.down = ⟨c.value - 1, c.waiting + 1, c.passed⟩ := if_neg positive
      refine ⟨SemOp.semp.apply c, woken, tracks.call used (.waits met alone) ?_ ?_ ?_ ?_⟩
      · simpa [SemOp.apply, down] using
          SemMachine.counts_enter tracks.suspended out (by simp) (.suspended .semp i)
      · simpa using SemMachine.counts_enter tracks.runnable out (by simp) (.suspended .semp i)
      · simpa [SemOp.apply, down] using passed
      · simpa using SemMachine.counts_enter tracks.running out (by simp) (.suspended .semp i)
    | semv =>
      -- the send finds one of those that wait
      have waits : c.waiting ≠ 0 := by simpa [SemOp.meets] using met'
      obtain ⟨q, here⟩ := tracks.suspended.exists_of_pos (Nat.pos_of_ne_zero waits)
      exact absurd (alone q .semp (of_decide_eq_true here)) (by decide)
  | @wakes q other met here opposite =>
    have met' : op.meets c = true := meets.symm.trans met
    cases other with
    | semv => exact absurd here (tracks.not_suspended q)
    | semp =>
      cases op with
      | semp => exact absurd rfl opposite
      | semv =>
        have waits : c.waiting ≠ 0 := by simpa [SemOp.meets] using met'
        have up : c.up = ⟨c.value + 1, c.waiting - 1, c.passed + 1⟩ := if_neg waits
        refine ⟨SemOp.semv.apply c, woken + 1, tracks.call used (.wakes met here opposite) ?_ ?_ ?_ ?_⟩
        · simpa [SemOp.apply, up] using
            SemMachine.counts_wake tracks.suspended out (by simp) here (.runnable .semv i) (.runnable .semp i)
        · simpa using
            SemMachine.counts_wake tracks.runnable out (by simp) here (.runnable .semv i) (.runnable .semp i)
        · simp only [SemOp.apply, up]
          omega
        · simpa using
            SemMachine.counts_wake tracks.running out (by simp) here (.runnable .semv i) (.runnable .semp i)

/-- A call that has been woken, or has woken another, returns. -/
theorem Tracks.resume {op : SemOp} (tracks : Tracks s i c woken) (here : s.place p = .runnable op i) :
    ∃ woken, Tracks { s with
      place := Function.update s.place p .outside, returned := countCall s.returned op i } i c woken := by
  refine ⟨_, tracks.nonneg, tracks.after, tracks.value, tracks.blocked, ?_, tracks.runnable.update p .outside, ?_, ?_⟩
  · simpa [here] using tracks.suspended.update p .outside
  · have passed := tracks.passed
    rw [here]
    simp only [countCall_apply]
    cases op with
    | semp =>
      have woken := tracks.runnable.pos (i := p) (by simpa using here)
      simp
      omega
    | semv => simpa using passed
  · simpa [here] using tracks.running.update p .outside

theorem Sound.step {a : SemAct SemOp Int} (sound : Sound s) (ideal : s.IdealMailbox a) (moves : s.step a = some s') :
    Sound s' := by
  have stepped := sound.tidy.stepped ideal moves
  refine ⟨sound.tidy.step stepped, fun i => ?_⟩
  obtain ⟨c, woken, tracks⟩ := sound.tracks i
  cases stepped.at i with
  | untouched untouched => exact ⟨c, woken, tracks.congr untouched⟩
  | creates found => exact ⟨_, _, sound.create found _⟩
  | calls found out called => exact tracks.called (Sems.inUse_spec found).2 out called
  | resumes here =>
    obtain ⟨woken', tracks'⟩ := tracks.resume here
    exact ⟨c, woken', tracks'⟩

theorem Sound.boot : Sound .boot := by
  have nobody : ∀ place : CallPlace SemOp, place ≠ .outside → Counted .boot place 0 := fun place other =>
    Counts.zero_iff.mpr fun _ => decide_eq_false other.symm
  refine ⟨.boot, fun i => ⟨.new 0, 0, le_rfl, .new, ?_, rfl, nobody _ (by simp), nobody _ (by simp), rfl,
    nobody _ (by simp)⟩⟩
  rintro ⟨⟩

theorem sound_of_run (run : Transition.Run SemSys.step SemMachine.IdealMailbox .boot s) : Sound s :=
  run.invariant Sound .boot fun _ _ _ sound ideal moves => sound.step ideal moves

/-- Over mailboxes that match partners, the semaphores made with `n` are
counting semaphores: `value` and `blocked` say who is suspended in `sys_semp`,
as many have passed as should, and nobody is ever suspended in `sys_semv`. -/
theorem semaphores_count (run : Transition.Run SemSys.step SemMachine.IdealMailbox .boot s)
    (used : (s.sems i).in_use = true) :
    (s.sems i).value = s.initial i + s.started .semv i - s.started .semp i ∧
    (s.sems i).blocked = max 0 (-(s.sems i).value) ∧
    (∃ suspended, Counted s (.suspended .semp i) suspended ∧ suspended = (s.sems i).blocked) ∧
    (∃ woken, Counted s (.runnable .semp i) woken ∧
      (s.returned .semp i + woken : Int) = min (s.started .semp i : Int) (s.initial i + s.started .semv i)) ∧
    ∀ q, s.place q ≠ .suspended .semv i := by
  have sound := sound_of_run run
  obtain ⟨c, woken, tracks⟩ := sound.tracks i
  have nonneg := tracks.nonneg
  have value := (tracks.value used).trans tracks.after.value
  have passed := tracks.passed.trans tracks.after.passed
  refine ⟨by omega, ?_, ⟨_, tracks.suspended, tracks.blocked.symm⟩, ⟨woken, tracks.runnable, by omega⟩,
    tracks.not_suspended⟩
  rw [tracks.blocked, tracks.value used, tracks.after.waiting]

/-- One waits on a semaphore made with 0 and the next up lets it pass. -/
theorem semaphores_count_run : ∃ s, Transition.Run SemSys.step SemMachine.IdealMailbox .boot s ∧ (s.sems 0).value = 0 ∧
    (s.sems 0).blocked = 0 ∧
    ∃ woken, Counted s (.runnable .semp 0) woken ∧ (s.returned .semp 0 + woken : Int) = 1 := by
  obtain ⟨s₁, made, empty⟩ : ∃ s₁, SemSys.step .boot (.create 1 0 7) = some s₁ ∧ s₁.place = fun _ => .outside :=
    ⟨_, rfl, rfl⟩
  obtain ⟨s₂, waits⟩ : ∃ s₂, s₁.step (.call 1 .semp 0 .suspends) = some s₂ := by
    cases made
    exact ⟨_, rfl⟩
  obtain ⟨s₃, wakes, used, started⟩ : ∃ s₃, s₂.step (.call 2 .semv 0 (.wakes 1)) = some s₃ ∧
      (s₃.sems 0).in_use = true ∧ s₃.initial 0 = 0 ∧ s₃.started .semp 0 = 1 ∧ s₃.started .semv 0 = 1 := by
    cases made
    cases waits
    exact ⟨_, rfl, rfl, rfl, rfl, rfl⟩
  have run₁ : Transition.Run SemSys.step SemMachine.IdealMailbox .boot s₁ :=
    Transition.Run.next .refl (.of_create (SemMachine.fresh_boot 7)) made
  have run₂ : Transition.Run SemSys.step SemMachine.IdealMailbox .boot s₂ :=
    run₁.next (.of_nobody (congrFun empty) ..) waits
  have run₃ : Transition.Run SemSys.step SemMachine.IdealMailbox .boot s₃ := run₂.next (.of_wakes ..) wakes
  obtain ⟨value, blocked, _, passed, _⟩ := semaphores_count run₃ used
  rw [started.1, started.2.1, started.2.2] at value passed
  exact ⟨s₃, run₃, value, by rw [blocked, value]; rfl, passed⟩

end SemSys

end UslossKernel
