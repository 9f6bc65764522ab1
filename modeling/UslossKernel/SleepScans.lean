import UslossKernel.ClockService

namespace UslossKernel

namespace Phase4a

/-- The inner loop of `ClockDriver` is not over, and the others stay away from
its mailbox. -/
def Scanning (driver : Pid) (s : Client Clock ClockTask) (a : ClientAct (BitVec 32) Empty) : Prop :=
  Client.Apart clockMbox s a ∧ s.task driver ≠ .waitingDevice

section

variable {ticksPerSec : BitVec 32} {driver : Pid} {s s₀ s₁ s₂ : Client Clock ClockTask}
  {a : ClientAct (BitVec 32) Empty}

/-- The loop is a scan of the requests. -/
theorem scan_of_run (well : ClockWell ticksPerSec driver s₁)
    (loop : Transition.Run (Client.step (clocking ticksPerSec)) (Scanning driver) s₁ s₂) :
    ClockWell ticksPerSec driver s₂ ∧ ScannedQueue.Scan (view driver s₁) (view driver s₂) := by
  refine loop.invariant (fun s => ClockWell ticksPerSec driver s ∧ ScannedQueue.Scan (view driver s₁) (view driver s))
    ⟨well, .refl⟩ ?_
  rintro before act after ⟨well, scan⟩ ⟨apart, goesOn⟩ moves
  obtain ⟨well', label, effect⟩ := well.step apart (Client.step_move moves)
  exact ⟨well', scan.tail ⟨by simpa [view] using goesOn, label, effect.step⟩⟩

/-- When `waitDevice` has returned, the driver has nothing in hand. -/
theorem Effect.begins {label : ScannedQueue.Label SleepReq} (effect : Effect ticksPerSec driver s a s₁ label)
    (waiting : s.task driver = .waitingDevice) (goesOn : s₁.task driver ≠ .waitingDevice) : held driver s₁ = none := by
  have off : (view driver s).scanning = false := by simp [view, waiting]
  have on : (view driver s₁).scanning = true := by simpa [view] using goesOn
  have step := effect.step
  show (view driver s₁).held = none
  generalize view driver s = v at *
  generalize view driver s₁ = v' at *
  cases step with
  | quiet | sends => exact absurd (off.symm.trans on) (by simp)
  | ticks _ _ none => exact none
  | takes scanning | ends scanning | passes scanning | putsBack scanning | loses scanning =>
    exact absurd (off.symm.trans scanning) (by simp)

/-- After a tick everything that is due is passed on, once, and nothing due is
left behind, if and only if no due request stood behind one that was not due. -/
theorem sleepers_passed_iff
    (run : Transition.Run (Client.step (clocking ticksPerSec)) (Client.Apart clockMbox) (startClock driver) s₀)
    (apart : Client.Apart clockMbox s₀ a) (ticks : s₀.step (clocking ticksPerSec) a = some s₁)
    (waiting : s₀.task driver = .waitingDevice) (begins : s₁.task driver ≠ .waitingDevice)
    (loop : Transition.Run (Client.step (clocking ticksPerSec)) (Scanning driver) s₁ s₂)
    (ended : s₂.task driver = .waitingDevice) :
    ∃ incoming outgoing, s₂.shared.sent = s₁.shared.sent ++ incoming ∧
      s₂.shared.passed = s₁.shared.passed ++ outgoing ∧
      (((∀ r ∈ requests s₂, r.due s₂.shared.tickCount = false) ∧
          ∀ r : SleepReq, r.due s₂.shared.tickCount = true →
            outgoing.count r = (requests s₁ ++ incoming).count r) ↔
        (requests s₁ ++ incoming).Pairwise fun earlier later =>
          later.due s₂.shared.tickCount = true → earlier.due s₂.shared.tickCount = true) := by
  have well₀ : ClockWell ticksPerSec driver s₀ := clockWell_of_run run fun _ _ apart => apart
  obtain ⟨well₁, label, effect⟩ := well₀.step apart (Client.step_move ticks)
  obtain ⟨_, scan⟩ := scan_of_run well₁ loop
  obtain ⟨incoming, outgoing, scanned⟩ :=
    ScannedQueue.Scanned.of_scan (by simpa [view] using begins) (effect.begins waiting begins) scan
  have same : SleepReq.due s₂.shared.tickCount = SleepReq.due s₁.shared.tickCount := scanned.due
  rw [same]
  exact ⟨incoming, outgoing, scanned.sent, scanned.passed, scanned.complete_iff (by simp [view, ended])⟩

end

/-- A run up to the end of one inner loop; the driver is process 2. -/
structure Ticked (s₀ s₁ s₂ : Client Clock ClockTask) : Prop where
  run : Transition.Run (Client.step (clocking 10)) (Client.Apart clockMbox) (startClock 2) s₀
  ticks : s₀.step (clocking 10) (.resume 2) = some s₁
  waiting : s₀.task 2 = .waitingDevice
  begins : s₁.task 2 ≠ .waitingDevice
  loop : Transition.Run (Client.step (clocking 10)) (Scanning 2) s₁ s₂
  ended : s₂.task 2 = .waitingDevice

theorem exists_ticked (before loop : List (ClientAct (BitVec 32) Empty))
    (test : Client Clock ClockTask → Client Clock ClockTask → Bool)
    (passes : (Transition.execute (Client.step (clocking 10)) (fun _ a => Client.isApart clockMbox a) (startClock 2)
      before).any (fun s₀ => decide (s₀.task 2 = .waitingDevice) && (s₀.step (clocking 10) (.resume 2)).any fun s₁ =>
        decide (s₁.task 2 ≠ .waitingDevice) && (Transition.execute (Client.step (clocking 10))
          (fun s a => Client.isApart clockMbox a && decide (s.task 2 ≠ .waitingDevice)) s₁ loop).any fun s₂ =>
            decide (s₂.task 2 = .waitingDevice) && test s₁ s₂) = true) :
    ∃ s₀ s₁ s₂, Ticked s₀ s₁ s₂ ∧ test s₁ s₂ = true := by
  obtain ⟨s₀, run, passes⟩ := Transition.exists_run _ _ _ _ (fun _ _ => Client.Apart.of_test) _ passes
  rw [Bool.and_eq_true, decide_eq_true_eq] at passes
  obtain ⟨waiting, passes⟩ := passes
  obtain ⟨s₁, ticks, passes⟩ := (Option.any_eq_true _ _).mp passes
  rw [Bool.and_eq_true, decide_eq_true_eq] at passes
  obtain ⟨begins, passes⟩ := passes
  have scans : ∀ (s : Client Clock ClockTask) (a : ClientAct (BitVec 32) Empty),
      (Client.isApart clockMbox a && decide (s.task 2 ≠ .waitingDevice)) = true → Scanning 2 s a := by
    intro s a both
    rw [Bool.and_eq_true, decide_eq_true_eq] at both
    exact ⟨.of_test both.1, both.2⟩
  obtain ⟨s₂, scan, passes⟩ := Transition.exists_run _ _ _ _ scans _ passes
  rw [Bool.and_eq_true, decide_eq_true_eq] at passes
  exact ⟨s₀, s₁, s₂, ⟨run, ticks, waiting, begins, scan, passes.1⟩, passes.2⟩

/-- Process 3 asks for no time at all, and a tick comes. -/
def oneSleeper : List (ClientAct (BitVec 32) Empty) :=
  [.run 2, .invoke 3 0, .run 3, .user (.call 5 (.send 6 (some (intBytes 0)) 4))]

theorem sleepers_passed_iff_run : ∃ s₁ s₂ : Client Clock ClockTask, requests s₁ = [⟨3, 0⟩] ∧ requests s₂ = [] ∧
    s₂.shared.passed = [⟨3, 0⟩] ∧ ∃ incoming outgoing, s₂.shared.sent = s₁.shared.sent ++ incoming ∧
      s₂.shared.passed = s₁.shared.passed ++ outgoing ∧
      (((∀ r ∈ requests s₂, r.due s₂.shared.tickCount = false) ∧
          ∀ r : SleepReq, r.due s₂.shared.tickCount = true →
            outgoing.count r = (requests s₁ ++ incoming).count r) ↔
        (requests s₁ ++ incoming).Pairwise fun earlier later =>
          later.due s₂.shared.tickCount = true → earlier.due s₂.shared.tickCount = true) := by
  obtain ⟨s₀, s₁, s₂, ticked, passes⟩ := exists_ticked oneSleeper [.run 2, .run 2, .run 2]
    (fun s₁ s₂ => requests s₁ = [⟨3, 0⟩] && requests s₂ = [] && s₂.shared.passed = [⟨3, 0⟩]) (by decide +kernel)
  simp only [Bool.and_eq_true, decide_eq_true_eq] at passes
  exact ⟨s₁, s₂, passes.1.1, passes.1.2, passes.2, sleepers_passed_iff ticked.run
    (Client.Apart.of_test rfl) ticked.ticks ticked.waiting ticked.begins ticked.loop ticked.ended⟩

/-- Process 3 asks for a second, process 4 for no time, and a tick comes. -/
def twoSleepers : List (ClientAct (BitVec 32) Empty) :=
  [.run 2, .invoke 3 1, .run 3, .invoke 4 0, .run 4, .user (.call 5 (.send 6 (some (intBytes 0)) 4))]

theorem sleeper_left_behind : ∃ s₀ s₁ s₂, Ticked s₀ s₁ s₂ ∧ requests s₁ = [⟨3, 10⟩, ⟨4, 0⟩] ∧
    s₂.shared.passed = [] ∧ ∃ r ∈ requests s₂, r.due s₂.shared.tickCount = true := by
  obtain ⟨s₀, s₁, s₂, ticked, passes⟩ := exists_ticked twoSleepers [.run 2, .run 2]
    (fun s₁ s₂ => requests s₁ = [⟨3, 10⟩, ⟨4, 0⟩] && s₂.shared.passed = [] &&
      (requests s₂).any (SleepReq.due s₂.shared.tickCount)) (by decide +kernel)
  simp only [Bool.and_eq_true, decide_eq_true_eq] at passes
  obtain ⟨⟨first, none⟩, left⟩ := passes
  exact ⟨s₀, s₁, s₂, ticked, first, none, List.any_eq_true.mp left⟩

end Phase4a

end UslossKernel
