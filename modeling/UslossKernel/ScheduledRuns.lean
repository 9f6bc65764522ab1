import UslossKernel.DeadProcesses
import UslossKernel.Deadlocks
import UslossKernel.ScheduledTurns

namespace UslossKernel.Phase1b.Machine

open LinkedList Kernel

variable {k : Kernel} {p : Slot} {m m' : Machine} {a : Act}

/-- The process that has the CPU can use it. -/
def Spry (m : Machine) : Prop :=
  ∀ p, m.kernel.running_process = some p → m.kernel.status p = .runnable

theorem runnable_of_live {next : Slot} (live : k.Live next) (awake : k.status next ≠ .blocked) :
    k.status next = .runnable := by
  cases status : k.status next with
  | runnable => rfl
  | blocked => exact absurd status awake
  | terminated => exact absurd status live.2

theorem Spry.step (spry : m.Spry) (buried : m'.Buried) (moves : m.step a = some m') : m'.Spry := by
  intro q runs
  have live := (buried.running q runs).1
  refine runnable_of_live live ?_
  cases step_move moves with
  | starts _ selected =>
    cases runs
    obtain ⟨_, _, _, awake, _⟩ := selected_eq_some.mp selected
    exact awake
  | begins | halts =>
    have awake : m.kernel.status q = .runnable := spry q runs
    simp [stop, awake]
  | @returns p pt k value status here goes =>
    have path := here.path
    rw [goes] at path
    obtain rfl : p = q := Option.some.inj (here.running.symm.trans (path.running.symm.trans runs))
    have awake : k.status p = .runnable := path.returns_runnable (spry p here.running)
    exact awake.trans_ne (by decide)
  | switches _ _ selected =>
    cases runs
    obtain ⟨_, _, _, awake, _⟩ := selected_eq_some.mp selected
    exact awake
  | stops =>
    simp only [stop, enter_kernel] at runs ⊢
    rw [spry q runs]
    decide

theorem spry_of_run (run : Transition.Run step QuitsOnce boot m) : m.Spry :=
  run.invariant_above (fun _ earlier => buried_of_run earlier) Spry (by rintro _ ⟨⟩)
    fun _ _ _ buried spry once moves => spry.step (buried.step once moves) moves

/-- While every process that quits is in its queue only at the head, every run
of the scheduler is a run of live processes in one of the orders: what holds
whatever `dispatcher` selects holds of what it does select. -/
theorem scheduled_ordered (run : Transition.Run step QuitsOnce boot m) (goesOn : m.stopped = none) :
    ∃ n, Ordered n ∧ Follows m n := by
  revert goesOn
  have base : ∀ m, Transition.Run step QuitsOnce boot m → m.Buried ∧ m.Spry :=
    fun _ earlier => ⟨buried_of_run earlier, spry_of_run earlier⟩
  refine run.invariant_above base (fun m => m.stopped = none → ∃ n, Ordered n ∧ Follows m n)
    (fun _ => ⟨boot, .refl, .refl⟩) fun m a m' base ih _ moves goesOn => ?_
  obtain ⟨n, ordered, follows⟩ := ih (step_goesOn moves)
  have running : ∀ p, m.kernel.running_process = some p → m.kernel.Live p ∧ m.kernel.status p = .runnable :=
    fun p runs => ⟨(base.1.running p runs).1, base.2 p runs⟩
  obtain ⟨n', turns, follows'⟩ := follows.turn running moves goesOn
  exact ⟨n', Relation.ReflTransGen.trans ordered turns, follows'⟩

/-- `testcase_main` zaps its child, which quits. -/
def zappedChildQuits : List Act :=
  testcaseRuns ++ [.call (sporks 4), .call (.zap 3), .resume, .call (.quit true 5), .resume]

theorem scheduled_ordered_run : ∃ m : Machine, Event.returned 2 (.zap 3) 0 none ∈ m.log ∧
    ∃ n, Ordered n ∧ Follows m n := by
  obtain ⟨m, run, test⟩ := Transition.exists_run step boot zappedChildQuits (fun m a => decide (m.QuitsOnce a))
    (fun _ _ => of_decide_eq_true)
    (fun m => decide (Event.returned 2 (.zap 3) 0 none ∈ m.log) && m.stopped.isNone) (by decide +kernel)
  simp only [Bool.and_eq_true, decide_eq_true_eq, Option.isNone_iff_eq_none] at test
  exact ⟨m, test.1, scheduled_ordered run test.2⟩

end UslossKernel.Phase1b.Machine
