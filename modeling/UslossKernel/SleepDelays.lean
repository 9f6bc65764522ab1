import UslossKernel.SleepScans
import UslossKernel.SleepTimes

namespace UslossKernel

namespace Phase4a

/-- The others stay away from the mailbox of the driver, and the tick counter is
not at the largest `int`. -/
def Ticking (s : Client Clock ClockTask) (a : ClientAct (BitVec 32) Empty) : Prop :=
  Client.Apart clockMbox s a ∧ s.shared.tickCount.toInt + 1 < 2 ^ 31

variable {ticksPerSec : BitVec 32} {driver : Pid} {s s' : Client Clock ClockTask} {r : SleepReq} {k : Nat}

theorem tickCount_of_due {tickCount tickCount' : BitVec 32} (same : SleepReq.due tickCount' = SleepReq.due tickCount) :
    tickCount' = tickCount := by
  have first : tickCount.toInt ≤ tickCount'.toInt := by
    have due : SleepReq.due tickCount ⟨0, tickCount⟩ = true := due_iff.mpr le_rfl
    rw [← same] at due
    exact due_iff.mp due
  have second : tickCount'.toInt ≤ tickCount.toInt := by
    have due : SleepReq.due tickCount' ⟨0, tickCount'⟩ = true := due_iff.mpr le_rfl
    rw [same] at due
    exact due_iff.mp due
  exact BitVec.toInt_inj.mp (le_antisymm second first)

/-- What has become of a request that was due at place `k`: it has been passed
on, or it has come nearer with every tick. -/
structure Nearer (driver : Pid) (r : SleepReq) (k : Nat) (s s' : Client Clock ClockTask) : Prop where
  due : r.due s'.shared.tickCount = true
  progress : ∃ more, s'.shared.passed = s.shared.passed ++ more ∧ (r ∈ more ∨
    ∃ k' : Nat, (view driver s').outstanding[k']? = some r ∧
      k' + (view driver s).busy + s'.shared.tickCount.toInt ≤
        k + (view driver s').busy + s.shared.tickCount.toInt)

theorem Nearer.step {s'' : Client Clock ClockTask} {a : ClientAct (BitVec 32) Empty} (nearer : Nearer driver r k s s')
    (well : ClockWell ticksPerSec driver s') (ticking : Ticking s' a) (moves : s'.Move (clocking ticksPerSec) a s'') :
    Nearer driver r k s s'' := by
  obtain ⟨due, more, passed, place⟩ := nearer
  obtain ⟨_, label, effect⟩ := well.step ticking.1 moves
  have step := effect.step
  obtain ⟨new, passed', named⟩ := step.passed_eq
  have counts : s''.shared.tickCount.toInt = s'.shared.tickCount.toInt ∨
      s''.shared.tickCount.toInt = s'.shared.tickCount.toInt + 1 ∧ label.began = 1 := by
    rcases tickCount_of_move moves with same | next
    · exact .inl (by rw [same])
    by_cases quiet : label.began = 0
    · exact .inl (by rw [tickCount_of_due (step.due_eq quiet)])
    · have one : label.began = 1 := by
        cases label <;> first | rfl | exact absurd rfl quiet
      refine .inr ⟨?_, one⟩
      have sum := toInt_add_ofNat (x := s'.shared.tickCount) (m := 1) (by exact_mod_cast ticking.2)
      rw [next]
      exact_mod_cast sum
  refine ⟨?_, more ++ new, ?_, ?_⟩
  · rw [due_iff] at due ⊢
    omega
  · have passed' : s''.shared.passed = s'.shared.passed ++ new := passed'
    rw [passed', passed, List.append_assoc]
  · rcases place with gone | ⟨k', waits, bound⟩
    · exact .inl (List.mem_append_left _ gone)
    · rcases step.nearer waits due with passes | ⟨k'', waits', bound'⟩
      · exact .inl (List.mem_append_right _ (named r passes))
      · refine .inr ⟨k'', waits', ?_⟩
        omega

/-- Whoever sleeps oversleeps by no more ticks than there are requests that are
looked at before its own, whatever these are due for. -/
theorem oversleep_bounded
    (run : Transition.Run (Client.step (clocking ticksPerSec)) (Client.Apart clockMbox) (startClock driver) s)
    (scanning : s.task driver ≠ .waitingDevice) (waits : ((held driver s).toList ++ requests s)[k]? = some r)
    (due : r.due s.shared.tickCount = true)
    (later : Transition.Run (Client.step (clocking ticksPerSec)) Ticking s s')
    (ended : s'.task driver = .waitingDevice) (ticks : s.shared.tickCount.toInt + k ≤ s'.shared.tickCount.toInt) :
    ∃ more, s'.shared.passed = s.shared.passed ++ more ∧ r ∈ more := by
  have well : ClockWell ticksPerSec driver s := clockWell_of_run run fun _ _ apart => apart
  have nearer : ClockWell ticksPerSec driver s' ∧ Nearer driver r k s s' := by
    refine later.invariant (fun s' => ClockWell ticksPerSec driver s' ∧ Nearer driver r k s s')
      ⟨well, due, [], ?_, ?_⟩ ?_
    · exact (List.append_nil _).symm
    · exact .inr ⟨k, waits, le_rfl⟩
    · rintro before a after ⟨well, nearer⟩ ticking moves
      have move := Client.step_move moves
      exact ⟨(well.step ticking.1 move).1, nearer.step well ticking move⟩
  obtain ⟨_, more, passed, gone | ⟨k', _, bound⟩⟩ := nearer.2
  · exact ⟨more, passed, gone⟩
  · have busy : (view driver s).busy = 1 := if_pos (by simpa [view] using scanning)
    have idle : (view driver s').busy = 0 := if_neg (by simp [view, ended])
    rw [busy, idle] at bound
    omega

/-- The first tick finds the other request first, and puts it behind. -/
def nextTick : List (ClientAct (BitVec 32) Empty) :=
  [.run 2, .run 2, .run 2, .user (.call 7 (.send 6 (some (intBytes 0)) 4)), .resume 2, .run 2, .run 2, .run 2, .run 2]

theorem oversleep_bounded_run : ∃ s s' : Client Clock ClockTask, requests s = [⟨3, 10⟩, ⟨4, 0⟩] ∧
    s.shared.tickCount = 1 ∧ s'.shared.tickCount = 2 ∧
    ∃ more, s'.shared.passed = s.shared.passed ++ more ∧ ⟨4, 0⟩ ∈ more := by
  have apart : ∀ (s : Client Clock ClockTask) (a : ClientAct (BitVec 32) Empty),
      Client.isApart clockMbox a = true → Client.Apart clockMbox s a := fun _ _ => .of_test
  obtain ⟨s, run, facts⟩ := Transition.exists_run (Client.step (clocking 10)) (startClock 2)
    (twoSleepers ++ [.resume 2]) (fun _ a => Client.isApart clockMbox a) apart
    (fun s : Client Clock ClockTask => decide (s.task 2 ≠ .waitingDevice ∧ requests s = [⟨3, 10⟩, ⟨4, 0⟩] ∧
      held 2 s = none ∧ s.shared.tickCount = 1) &&
      (Transition.execute (Client.step (clocking 10))
        (fun s a => Client.isApart clockMbox a && decide (s.shared.tickCount.toInt < 3)) s nextTick).any
          fun s' : Client Clock ClockTask => decide (s'.task 2 = .waitingDevice ∧ s'.shared.tickCount = 2))
    (by decide +kernel)
  rw [Bool.and_eq_true, decide_eq_true_eq] at facts
  obtain ⟨⟨scanning, queue, idle, one⟩, passes⟩ := facts
  have admits : ∀ (s : Client Clock ClockTask) (a : ClientAct (BitVec 32) Empty),
      (Client.isApart clockMbox a && decide (s.shared.tickCount.toInt < 3)) = true → Ticking s a := by
    intro s a both
    rw [Bool.and_eq_true, decide_eq_true_eq] at both
    exact ⟨apart s a both.1, by omega⟩
  obtain ⟨s', later, ends⟩ := Transition.exists_run _ _ _ _ admits _ passes
  obtain ⟨ended, two⟩ := of_decide_eq_true ends
  have waits : ((held 2 s).toList ++ requests s)[1]? = some ⟨4, 0⟩ := by rw [idle, queue]; rfl
  have due : SleepReq.due s.shared.tickCount ⟨4, 0⟩ = true := by rw [one]; decide
  have ticks : s.shared.tickCount.toInt + (1 : Nat) ≤ s'.shared.tickCount.toInt := by rw [one, two]; decide
  exact ⟨s, s', queue, one, two, oversleep_bounded run scanning waits due later ended ticks⟩

end Phase4a

end UslossKernel
