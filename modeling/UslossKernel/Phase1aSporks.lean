import UslossKernel.Phase1aLists

namespace UslossKernel.Phase1a.Machine

variable {m m' : Machine} {p : Slot} {startFunc malloc : Bool}

/-- The call has returned -1 for a full table, or else a pid that no process in the table has. -/
def SporkRight (m : Machine) (p : Slot) (m' : Machine) : Prop :=
  ∃ value, m'.log.head? = some (.returned (m.pid p) .spork value none) ∧
    (value = -1 ∧ (∀ i, m.kernel.occupied i = true) ∨
      value ≠ -1 ∧ ∀ i, m.kernel.occupied i = true → m.pid i ≠ value)

theorem step_call {c : Call} (runs : m.kernel.running_process = some p) (moves : m.step (.call c) = some m') :
    m' = m.run p c := by
  unfold step at moves
  split at moves
  · cases moves
  simp only [runs] at moves
  split at moves
  · exact (Option.some.inj moves).symm
  · cases moves

/-- A call that has come back is the newest event. -/
theorem run_answers {c : Call} {value : Int} {status : Option Int} :
    (m.run p c).log.head? = some (.returned (m.pid p) c.fn value status) ↔
      (c.exec m.kernel).2 = .returns value status := by
  unfold run settle
  cases (c.exec m.kernel).2 with
  | returns => simp [pid]
  | switches | halts | hangs | crashes => simp [stop]

/-- What `spork` returns when `malloc` gives it a stack. -/
theorem spork_returns {k : Kernel} (sound : k.Sound) (runs : k.running_process = some p) (value : Int) :
    (k.spork startFunc true).2 = .returns value none ↔
      k.next_pid + 1 < intLimit ∧ value = if k.occupied k.slot then (-1 : Int) else k.next_pid := by
  unfold Kernel.spork
  split
  · rename_i overflows
    exact ⟨by rintro ⟨⟩, fun both => absurd both.1 (not_lt.mpr overflows)⟩
  rename_i inRange
  have inRange := not_le.mp inRange
  split
  · exact ⟨fun same => ⟨inRange, (Ending.returns.inj same).1.symm⟩, fun both => by rw [both.2]⟩
  · rename_i free
    obtain ⟨k', linked, _⟩ := sound.sporks runs (by simpa using free) startFunc
    rw [if_neg (by decide)]
    split
    · rename_i idle
      cases runs.symm.trans idle
    rename_i parent runs'
    obtain rfl := Option.some.inj (runs.symm.trans runs')
    rw [linked]
    exact ⟨fun same => ⟨inRange, (Ending.returns.inj same).1.symm⟩, fun both => by rw [both.2]⟩

/-- The call does what it should exactly when its counter does not overflow and
the entry it looks at is free, or no entry is. -/
theorem spork_right_iff (run : Transition.Run step (fun _ _ => True) boot m) (runs : m.kernel.running_process = some p)
    (moves : m.step (.call (.spork startFunc true)) = some m') :
    m.SporkRight p m' ↔ m.kernel.next_pid + 1 < intLimit ∧
      (m.kernel.occupied m.kernel.slot = false ∨ ∀ i, m.kernel.occupied i = true) := by
  have sound := sound_of_run run
  have answers : ∀ value, m'.log.head? = some (.returned (m.pid p) .spork value none) ↔
      m.kernel.next_pid + 1 < intLimit ∧
        value = if m.kernel.occupied m.kernel.slot then (-1 : Int) else m.kernel.next_pid := by
    intro value
    rw [step_call runs moves, ← spork_returns sound runs]
    exact run_answers (c := .spork startFunc true)
  constructor
  · rintro ⟨value, answered, right⟩
    obtain ⟨inRange, same⟩ := (answers value).mp answered
    refine ⟨inRange, ?_⟩
    cases taken : m.kernel.occupied m.kernel.slot with
    | false => exact .inl rfl
    | true =>
      rw [taken, if_pos rfl] at same
      exact .inr (right.resolve_right fun other => other.1 same).2
  · rintro ⟨inRange, some⟩
    refine ⟨_, (answers _).mpr ⟨inRange, rfl⟩, ?_⟩
    cases taken : m.kernel.occupied m.kernel.slot with
    | true =>
      refine .inl ⟨rfl, some.resolve_left ?_⟩
      simp [taken]
    | false =>
      refine .inr ⟨by simp, fun i _ same => ?_⟩
      have bound := sound.below i
      rw [if_neg (by decide)] at same
      exact absurd same bound.ne

theorem three_lt_maxProc : 3 < maxProc := by decide

/-- `testcase_main` has entry 3. -/
def testcaseSlot : Slot := ⟨3, three_lt_maxProc⟩

/-- `init` creates `testcase_main` and switches to it. -/
def testcaseRuns : List Act :=
  [.start 1, .resume, .call (.spork true true), .call (.TEMP_switchTo 2), .resume]

theorem spork_right_first : ∃ m m' : Machine, m'.log.head? = some (.returned 2 .spork 3 none) ∧
    (m.SporkRight testcaseSlot m' ↔ m.kernel.next_pid + 1 < intLimit ∧
      (m.kernel.occupied m.kernel.slot = false ∨ ∀ i, m.kernel.occupied i = true)) := by
  obtain ⟨m, run, both⟩ := @Transition.exists_run Machine Act (fun _ _ => True) step boot testcaseRuns
    (fun _ _ => true) (fun _ _ _ => trivial) (fun m => decide (m.kernel.running_process = some testcaseSlot) &&
      (m.step (.call (.spork true true))).any fun m' => m'.log.head? = some (.returned 2 .spork 3 none))
    (by decide +kernel)
  rw [Bool.and_eq_true, decide_eq_true_eq, Option.any_eq_true_iff_get] at both
  obtain ⟨runs, isSome, told⟩ := both
  exact ⟨m, _, of_decide_eq_true told, spork_right_iff run runs (Option.some_get isSome).symm⟩

/-- The next 47 sporks take the entries from 4 on, and entry 0. -/
def lapAround : List Act :=
  testcaseRuns ++ List.replicate 47 (.call (.spork true true))

theorem two_lt_maxProc : 2 < maxProc := by decide

def unusedSlot : Slot := ⟨2, two_lt_maxProc⟩

/-- Then the entry is that of `init`, and `spork` fails although entry 2 is free. -/
theorem spork_fails_early : ∃ m m', Transition.Run step (fun _ _ => True) boot m ∧
    m.kernel.running_process = some testcaseSlot ∧ m.step (.call (.spork true true)) = some m' ∧
    m'.log.head? = some (.returned 2 .spork (-1) none) ∧ m.kernel.occupied unusedSlot = false ∧
    ¬ m.SporkRight testcaseSlot m' := by
  obtain ⟨m, run, holds⟩ := @Transition.exists_run Machine Act (fun _ _ => True) step boot lapAround (fun _ _ => true)
    (fun _ _ _ => trivial) (fun m => decide (m.kernel.running_process = some testcaseSlot ∧ m.pid testcaseSlot = 2 ∧
      m.kernel.occupied unusedSlot = false) &&
      (m.step (.call (.spork true true))).any fun m' => m'.log.head? = some (.returned 2 .spork (-1) none))
    (by decide +kernel)
  rw [Bool.and_eq_true, decide_eq_true_eq, Option.any_eq_true_iff_get] at holds
  obtain ⟨⟨runs, named, free⟩, isSome, failed⟩ := holds
  have failed := of_decide_eq_true failed
  refine ⟨m, _, run, runs, (Option.some_get isSome).symm, failed, free, ?_⟩
  rintro ⟨value, answered, ⟨_, full⟩ | ⟨other, _⟩⟩
  · exact absurd (free.symm.trans (full unusedSlot)) (by decide)
  · rw [failed] at answered
    exact other (Event.returned.inj (Option.some.inj answered)).2.2.1.symm

end UslossKernel.Phase1a.Machine
