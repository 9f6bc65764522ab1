import Mathlib.Data.Finset.Max
import UslossKernel.DeadProcesses

namespace UslossKernel.Phase1b

namespace Kernel

def Runnable (k : Kernel) (i : Slot) : Prop := k.occupied i = true ∧ k.status i = .runnable

/-- A runnable process, and none has a numerically smaller priority. -/
def Best (k : Kernel) (i : Slot) : Prop :=
  k.Runnable i ∧ ∀ j, k.Runnable j → k.priority i ≤ k.priority j

/-- What `dispatcher` is for. -/
def SelectsBest (k : Kernel) : Prop :=
  (∀ next, k.selected = some next → k.Best next) ∧ (k.selected = none → ∀ i, ¬ k.Runnable i)

/-- No blocked process is at the head of the queue of the best. -/
def BestAtHead (k : Kernel) : Prop :=
  ∀ i, k.Best i → ∃ head, k.ready_queues (k.queue i) = some head ∧ k.status head ≠ .blocked

variable {k : Kernel} {i : Slot}

instance : Decidable (k.Runnable i) := inferInstanceAs (Decidable (k.occupied i = true ∧ k.status i = .runnable))

instance : Decidable (k.Best i) :=
  inferInstanceAs (Decidable (k.Runnable i ∧ ∀ j, k.Runnable j → k.priority i ≤ k.priority j))

instance : Decidable k.BestAtHead :=
  inferInstanceAs (Decidable (∀ i, k.Best i →
    ∃ head, k.ready_queues (k.queue i) = some head ∧ k.status head ≠ .blocked))

theorem exists_best (runnable : k.Runnable i) : ∃ j, k.Best j := by
  have inhabited : (Finset.univ.filter fun j => k.Runnable j).Nonempty := ⟨i, by simpa using runnable⟩
  obtain ⟨best, member, least⟩ := Finset.exists_min_image _ k.priority inhabited
  simp only [Finset.mem_filter, Finset.mem_univ, true_and] at member least
  exact ⟨best, member, least⟩

theorem Runnable.live (runnable : k.Runnable i) : k.Live i :=
  ⟨runnable.1, by simp [runnable.2]⟩

theorem Linked.runnable_head (linked : k.Linked) {q : Nat} (head : k.ready_queues q = some i)
    (awake : k.status i ≠ .blocked) : k.Runnable i ∧ k.priority i = q + 1 := by
  obtain ⟨live, prio⟩ := linked.head head
  refine ⟨⟨live.1, ?_⟩, prio⟩
  cases status : k.status i with
  | runnable => rfl
  | blocked => exact absurd status awake
  | terminated => exact absurd status live.2

/-- `dispatcher` looks at the heads only, and that is enough exactly when none
of the best is behind a blocked one. -/
theorem Linked.selectsBest_iff (linked : k.Linked) : k.SelectsBest ↔ k.BestAtHead := by
  constructor
  · rintro ⟨selects, reports⟩ best isBest
    cases atNext : k.selected with
    | none => exact absurd isBest.1 (reports atNext best)
    | some next =>
      obtain ⟨nextRunnable, least⟩ := selects next atNext
      obtain ⟨q, _, head, awake, _⟩ := selected_eq_some.mp atNext
      have atQ := (linked.runnable_head head awake).2
      have same : k.priority best = k.priority next :=
        le_antisymm (isBest.2 next nextRunnable) (least best isBest.1)
      have queue : k.queue best = q := by
        have atBest := linked.queue_eq isBest.1.live
        omega
      exact ⟨next, by rwa [queue], awake⟩
  · intro atHead
    have small : ∀ j, k.Runnable j → k.queue j < 6 := by
      intro j runnable
      have bounds := linked.priorities j runnable.live
      have atJ := linked.queue_eq runnable.live
      omega
    constructor
    · intro next atNext
      obtain ⟨q, bound, head, awake, before⟩ := selected_eq_some.mp atNext
      obtain ⟨runnable, atQ⟩ := linked.runnable_head head awake
      refine ⟨runnable, fun j other => ?_⟩
      obtain ⟨best, isBest⟩ := exists_best other
      obtain ⟨first, atFirst, firstAwake⟩ := atHead best isBest
      have atBest := linked.queue_eq isBest.1.live
      have order := isBest.2 j other
      -- the queue of the best does not come before that of the one selected
      by_contra smaller
      exact firstAwake (before (k.queue best) (by omega) first atFirst)
    · intro atNone j runnable
      obtain ⟨best, isBest⟩ := exists_best runnable
      obtain ⟨first, atFirst, firstAwake⟩ := atHead best isBest
      exact firstAwake (selected_eq_none.mp atNone _ (small best isBest.1) first atFirst)

end Kernel

open Kernel

namespace Machine

/-- In the course of this action `dispatcher` is called with these tables. -/
inductive Dispatches (m : Machine) : Act → Kernel → Prop
  | starts : m.kernel.running_process = none → Dispatches m .start m.kernel
  | calls {p : Slot} {pt : Point} {k : Kernel} {inside : Inside} : m.At p pt →
      pt.exec m.kernel p = (k, .dispatches inside) → Dispatches m pt.act k

/-- In a run in which whoever quits leaves its queue, `dispatcher` selects a best
runnable process, and none only if none is runnable, exactly in the states
where the head of the queue of the best is not blocked. -/
theorem dispatcher_selects_best {m : Machine} (run : Transition.Run Machine.step QuitsOnce boot m) {a : Act}
    {k : Kernel} (once : m.QuitsOnce a) (calls : m.Dispatches a k) : k.SelectsBest ↔ k.BestAtHead := by
  have buried := buried_of_run run
  cases calls with
  | starts => exact buried.linked.selectsBest_iff
  | calls here ends =>
    obtain ⟨live, head⟩ := buried.running _ here.running
    have linked := (here.path.linked buried.linked live head fun _ quits => once.holds here quits).1
    rw [ends] at linked
    exact linked.selectsBest_iff

theorem dispatcher_selects_best_run : ∃ (m : Machine) (k : Kernel), m.Dispatches (.call (sporks 2)) k ∧
    k.selected = some childSlot ∧ k.Best childSlot := by
  obtain ⟨m, run, holds⟩ := Transition.exists_run step boot testcaseRuns (fun m a => decide (m.QuitsOnce a))
    (fun _ _ => of_decide_eq_true)
    (fun m => m.kernel.running_process = some testcaseSlot && m.stopped = none && m.place testcaseSlot = .user &&
      ((sporks 2).exec m.kernel).2 = .dispatches (.spork childSlot) &&
      ((sporks 2).exec m.kernel).1.selected = some childSlot && ((sporks 2).exec m.kernel).1.BestAtHead)
    (by decide +kernel)
  simp only [Bool.and_eq_true, decide_eq_true_eq] at holds
  obtain ⟨⟨⟨⟨⟨running, goesOn⟩, place⟩, ends⟩, selected⟩, atHead⟩ := holds
  have calls : m.Dispatches (.call (sporks 2)) ((sporks 2).exec m.kernel).1 :=
    .calls (.of_user running goesOn place) (Prod.ext rfl ends)
  have once : m.QuitsOnce (.call (sporks 2)) := trivial
  have selects := (dispatcher_selects_best run once calls).mpr atHead
  exact ⟨m, _, calls, selected, selects.1 childSlot selected⟩

/-- A process of priority 2 blocks at the head of its queue. -/
def blockedAtHead : List Act :=
  testcaseRuns ++ [.call (sporks 2), .resume, .call .blockMe, .resume]

/-- The next process of its priority is behind it, and `testcase_main` is selected. -/
theorem best_hidden : ∃ (m : Machine) (k : Kernel), Reaches blockedAtHead m ∧ m.Dispatches (.call (sporks 2)) k ∧
    k.selected = some testcaseSlot ∧ k.Runnable secondChildSlot ∧
    k.priority secondChildSlot < k.priority testcaseSlot ∧ ¬ k.SelectsBest := by
  obtain ⟨m, reaches, holds⟩ := exists_reaches blockedAtHead
    (fun m => m.kernel.running_process = some testcaseSlot && m.stopped = none && m.place testcaseSlot = .user &&
      ((sporks 2).exec m.kernel).2 = .dispatches (.spork secondChildSlot) &&
      ((sporks 2).exec m.kernel).1.selected = some testcaseSlot &&
      ((sporks 2).exec m.kernel).1.Runnable secondChildSlot &&
      ((sporks 2).exec m.kernel).1.priority secondChildSlot < ((sporks 2).exec m.kernel).1.priority testcaseSlot)
    (by decide +kernel)
  simp only [Bool.and_eq_true, decide_eq_true_eq] at holds
  obtain ⟨⟨⟨⟨⟨⟨running, goesOn⟩, place⟩, ends⟩, selected⟩, runnable⟩, smaller⟩ := holds
  have here : m.At testcaseSlot (.call (sporks 2)) := .of_user running goesOn place
  refine ⟨m, _, reaches, .calls here (Prod.ext rfl ends), selected, runnable, smaller, fun selects => ?_⟩
  exact absurd ((selects.1 _ selected).2 _ runnable) (Nat.not_le.mpr smaller)

variable {m : Machine} {p : Slot} {pt : Point} {k : Kernel} {inside : Inside}

/-- While a process is runnable, the call of `dispatcher` does not halt, and to a
best runnable caller control comes back with the tables as they were. -/
def KeepsRunning (m : Machine) (p : Slot) (pt : Point) (k : Kernel) : Prop :=
  (∃ i, k.Runnable i) → (m.run p pt).stopped = none ∧ (k.Best p → (m.run p pt).kernel = k)

/-- The first of the queues whose head is not blocked is headed by another process. -/
def OtherAtFront (k : Kernel) (p : Slot) : Prop :=
  ∃ q < 6, ∃ head, k.ready_queues q = some head ∧ k.status head ≠ .blocked ∧ head ≠ p ∧
    ∀ q' < q, ∀ i, k.ready_queues q' = some i → k.status i = .blocked

/-- `dispatcher` goes on exactly when it comes to another process first; the
caller that is a best choice itself is never gone back to. -/
theorem keepsRunning_iff (here : m.At p pt) (calls : pt.exec m.kernel p = (k, .dispatches inside)) :
    m.KeepsRunning p pt k ↔ ((∃ i, k.Runnable i) → OtherAtFront k p ∧ ¬ k.Best p) := by
  have running : k.running_process = some p := by
    have same := here.path.running
    rw [calls] at same
    exact same.trans here.running
  have front : OtherAtFront k p ↔ ∃ next, k.selected = some next ∧ next ≠ p := by
    constructor
    · rintro ⟨q, bound, head, atQ, awake, other, before⟩
      exact ⟨head, selected_eq_some.mpr ⟨q, bound, atQ, awake, before⟩, other⟩
    · rintro ⟨next, selected, other⟩
      obtain ⟨q, bound, atQ, awake, before⟩ := selected_eq_some.mp selected
      exact ⟨q, bound, next, atQ, awake, other, before⟩
  refine imp_congr_right fun _ => ?_
  unfold run settle
  rw [calls, front]
  simp only
  cases switched : k.dispatcher with
  | none =>
    constructor
    · rintro ⟨⟨⟩, _⟩
    · rintro ⟨⟨next, selected, other⟩, _⟩
      have goes : k.dispatcher = some { k with running_process := some next } :=
        dispatcher_eq_some.mpr ⟨next, selected, by simpa [running] using other.symm, rfl⟩
      cases switched.symm.trans goes
  | some k' =>
    obtain ⟨next, selected, other, rfl⟩ := dispatcher_eq_some.mp switched
    rw [running] at other
    constructor
    · rintro ⟨_, back⟩
      refine ⟨⟨next, selected, fun same => other (congrArg some same.symm)⟩, fun best => ?_⟩
      have same := congrArg Kernel.running_process (back best)
      exact other (running.symm.trans same.symm)
    · rintro ⟨_, notBest⟩
      exact ⟨by simpa [switch] using here.goesOn, fun best => absurd best notBest⟩

theorem keepsRunning_iff_run : ∃ (m : Machine) (k : Kernel), m.Dispatches (.call (sporks 2)) k ∧
    k.Runnable childSlot ∧ m.KeepsRunning testcaseSlot (.call (sporks 2)) k := by
  obtain ⟨m, _, holds⟩ := exists_reaches testcaseRuns
    (fun m => m.kernel.running_process = some testcaseSlot && m.stopped = none && m.place testcaseSlot = .user &&
      ((sporks 2).exec m.kernel).2 = .dispatches (.spork childSlot) &&
      ((sporks 2).exec m.kernel).1.ready_queues 1 = some childSlot &&
      ((sporks 2).exec m.kernel).1.Runnable childSlot &&
      ((sporks 2).exec m.kernel).1.ready_queues 0 = none &&
      !((sporks 2).exec m.kernel).1.Best testcaseSlot) (by decide +kernel)
  simp only [Bool.and_eq_true, decide_eq_true_eq, Bool.not_eq_true', decide_eq_false_iff_not] at holds
  obtain ⟨⟨⟨⟨⟨⟨⟨running, goesOn⟩, place⟩, ends⟩, head⟩, runnable⟩, before⟩, notBest⟩ := holds
  have here : m.At testcaseSlot (.call (sporks 2)) := .of_user running goesOn place
  have ends : (Point.call (sporks 2)).exec m.kernel testcaseSlot =
      (((sporks 2).exec m.kernel).1, .dispatches (.spork childSlot)) := Prod.ext rfl ends
  have front : OtherAtFront ((sporks 2).exec m.kernel).1 testcaseSlot := by
    refine ⟨1, by omega, childSlot, head, by simp [runnable.2], by decide, fun q' first i atHead => ?_⟩
    obtain rfl : q' = 0 := by omega
    cases before.symm.trans atHead
  exact ⟨m, _, .calls here ends, runnable, (keepsRunning_iff here ends).mpr fun _ => ⟨front, notBest⟩⟩

/-- The clock interrupts `testcase_main`, and the machine halts. -/
theorem halts_with_work : ∃ (m : Machine), Reaches testcaseRuns m ∧ m.Dispatches (.call .dispatcher) m.kernel ∧
    m.kernel.Best testcaseSlot ∧ (m.run testcaseSlot (.call .dispatcher)).stopped = some (.halted 0) := by
  obtain ⟨m, reaches, holds⟩ := exists_reaches testcaseRuns
    (fun m => m.kernel.running_process = some testcaseSlot && m.stopped = none && m.place testcaseSlot = .user &&
      m.kernel.Best testcaseSlot && (m.run testcaseSlot (.call .dispatcher)).stopped = some (.halted 0))
    (by decide +kernel)
  simp only [Bool.and_eq_true, decide_eq_true_eq] at holds
  obtain ⟨⟨⟨⟨running, goesOn⟩, place⟩, best⟩, halts⟩ := holds
  have here : m.At testcaseSlot (.call .dispatcher) := .of_user running goesOn place
  exact ⟨m, reaches, .calls here rfl, best, halts⟩

end Machine

end UslossKernel.Phase1b
