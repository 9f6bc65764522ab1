import UslossKernel.AnyOrder
import UslossKernel.ReadyQueues

namespace UslossKernel.Phase1b

open LinkedList Kernel

/-- A call of `spork`, `join` or `quit`, the return to `processWrapper`, or the clock interrupt. -/
def Call.plain : Call → Bool
  | .spork .. | .join _ | .quit .. | .finish .. | .dispatcher => true
  | .blockMe | .unblockProc _ | .zap _ => false

variable {k : Kernel} {p : Slot} {pt : Point} {seg : Segment}

/-- Nobody has called `zap`. -/
def Kernel.Untargeted (k : Kernel) : Prop := ∀ i, (k.process_table i).zap_target = none

theorem target_of_unlinked {e : Process} {j : Slot} (atJ : k.unlinked j = e) :
    (k.process_table j).zap_target = e.zap_target := by
  subst atJ
  rfl

theorem Path.untargeted (path : Path k p pt seg) (noZap : ∀ pid, pt ≠ .call (.zap pid)) (untargeted : k.Untargeted) :
    seg.1.Untargeted := by
  intro j
  cases path with
  | halts | sporkHangs | linkHangs | joinHangs | quitHangs | unblockHangs => exact untargeted j
  | stays | zapsDead | yields => exact untargeted j
  | @sporks _ slot _ _ _ sporked =>
    by_cases here : j = slot
    · subst here
      obtain ⟨_, _, _, _, target⟩ := sporked.created
      exact target.trans (untargeted j)
    · exact (target_congr (sporked.other here)).trans (untargeted j)
  | waits | blocks =>
    dsimp only
    rw [modify_field Process.zap_target (fun _ => by rfl)]
    exact untargeted j
  | zaps => exact absurd rfl (noZap _)
  | collects =>
    dsimp only
    rw [collect_field Process.zap_target (fun _ _ => by rfl) (fun _ _ => by rfl) fun _ => by rfl]
    exact untargeted j
  | @quits _ status _ _ _ removed =>
    refine (target_congr (remove_unlinked removed j)).trans ?_
    by_cases here : j = p
    · subst here
      rw [target_of_unlinked terminate_self]
      exact untargeted j
    · rcases terminate_other (k := k) here with same | ⟨_, ⟨_, woken⟩ | ⟨_, woken⟩⟩
      · rw [target_congr same]
        exact untargeted j
      · rw [target_of_unlinked woken]
        exact untargeted j
      · rw [target_of_unlinked woken]
  | unblocks _ _ appended =>
    refine (target_congr (appendToQueue_unlinked appended j)).trans ?_
    rw [modify_field Process.zap_target (fun _ => by rfl)]
    exact untargeted j

namespace Machine

/-- Any mix of `spork`, `quit` and `join`. -/
def Plain (_ : Machine) : Act → Prop
  | .call c => c.plain = true
  | .start | .resume => True

instance (m : Machine) (a : Act) : Decidable (m.Plain a) :=
  match a with
  | .call c => inferInstanceAs (Decidable (c.plain = true))
  | .start | .resume => inferInstanceAs (Decidable True)

variable {m m' n : Machine} {a : Act}

theorem Plain.keepsQueues (plain : m.Plain a) (untargeted : m.kernel.Untargeted) : m.KeepsQueues a := by
  have unzapped : ∀ p, m.kernel.Unzapped p := by
    intro p i _ target
    rw [untargeted i] at target
    cases target
  cases a with
  | start | resume => exact ⟨trivial, trivial⟩
  | call c =>
    cases c with
    | spork | join | dispatcher => exact ⟨trivial, trivial⟩
    | quit kernelMode | finish kernelMode =>
      cases kernelMode with
      | false => exact ⟨trivial, trivial⟩
      | true => exact ⟨trivial, fun p _ => unzapped p⟩
    | blockMe | unblockProc | zap => cases plain

theorem Plain.no_zap (plain : m.Plain pt.act) (pid : Int) : pt ≠ .call (.zap pid) := by
  rintro rfl
  cases plain

/-- What the queues and the entries look like without `zap` and `unblockProc`. -/
structure Regular (m : Machine) : Prop extends m.Orderly where
  untargeted : m.kernel.Untargeted

theorem Regular.step (regular : m.Regular) (plain : m.Plain a) (moves : m.step a = some m') : m'.Regular := by
  refine ⟨regular.toOrderly.step (plain.keepsQueues regular.untargeted) moves, ?_⟩
  cases step_move moves with
  | starts | begins | halts => exact regular.untargeted
  | @returns p pt k value status here goes =>
    have path := here.path
    rw [goes] at path
    exact path.untargeted plain.no_zap regular.untargeted
  | @switches p pt k inside next here goes =>
    have path := here.path
    rw [goes] at path
    exact path.untargeted plain.no_zap regular.untargeted
  | @stops p pt reason =>
    show ((m.enter p pt).kernel).Untargeted
    rw [enter_kernel]
    exact regular.untargeted

theorem regular_boot : boot.Regular := by
  refine ⟨orderly_boot, ?_⟩
  intro i
  show (phase1_init.process_table i).zap_target = none
  by_cases here : i = initSlot
  · rw [here, phase1_init_initSlot]
    rfl
  · rw [phase1_init_of_ne here]
    rfl

theorem regular_of_run (run : Transition.Run step Plain boot m) : m.Regular :=
  run.invariant Regular regular_boot fun _ _ _ regular plain moves => regular.step plain moves

/-- The machine with another process in `running_process`. -/
def setRunning (n : Machine) (r : Option Slot) : Machine :=
  { n with kernel := { n.kernel with running_process := r } }

/-- The scheduler's machine is one of any order, `running_process` apart. -/
def Follows (m n : Machine) : Prop :=
  ∃ r, m = n.setRunning r

theorem Follows.give (follows : Follows m n) (runs : m.kernel.running_process = some p) : n.give p = m := by
  obtain ⟨r, rfl⟩ := follows
  cases runs
  rfl

theorem Follows.refl : Follows m m := ⟨m.kernel.running_process, rfl⟩

/-- The code of a process does the same, and then the scheduler picks one process where any may go on. -/
theorem run_follows (goesOn : (m.run p pt).stopped = none) : Follows (m.run p pt) (m.runOn p pt) := by
  unfold run settle at goesOn
  unfold run runOn yieldOrSettle settle
  cases ends : (pt.exec m.kernel p).2 with
  | returns => exact .refl
  | dispatches inside =>
    simp only [ends] at goesOn ⊢
    cases switched : (pt.exec m.kernel p).1.dispatcher with
    | none =>
      rw [switched] at goesOn
      cases goesOn
    | some k =>
      obtain ⟨next, _, _, rfl⟩ := dispatcher_eq_some.mp switched
      exact ⟨some next, rfl⟩
  | halts | hangs | crashes => exact .refl

theorem Follows.turn (follows : Follows m n)
    (running : ∀ p, m.kernel.running_process = some p → m.kernel.Live p ∧ m.kernel.status p = .runnable)
    (moves : m.step a = some m') (goesOn : m'.stopped = none) :
    ∃ n', Transition.Run turn (fun _ _ => True) n n' ∧ Follows m' n' := by
  have alive : ∀ p, m.kernel.running_process = some p → n.live p = true := by
    intro p runs
    obtain ⟨live, awake⟩ := running p runs
    obtain ⟨r, rfl⟩ := follows
    exact (Bool.and_eq_true _ _).mpr ⟨live.1, decide_eq_true awake⟩
  unfold step at moves
  split at moves
  · cases moves
  rename_i unstopped
  have nGoesOn : n.stopped.isSome = false := by
    obtain ⟨r, rfl⟩ := follows
    simpa [setRunning] using unstopped
  have once : ∀ t n', n.turn t = some n' → Transition.Run Machine.turn (fun _ _ => True) n n' :=
    fun t _ taken => .single ⟨t, trivial, taken⟩
  split at moves
  · split at moves
    · rename_i k switched
      obtain ⟨next, _, _, rfl⟩ := dispatcher_eq_some.mp switched
      cases moves
      obtain ⟨r, rfl⟩ := follows
      exact ⟨n, .refl, some next, rfl⟩
    · cases moves
      cases goesOn
  · rename_i c p runs
    obtain rfl := follows.give runs
    split at moves
    · rename_i place
      rw [give_place] at place
      cases moves
      refine ⟨(n.give p).runOn p (.call c), once (.call p c) _ ?_, run_follows goesOn⟩
      simp [Machine.turn, Turn.process, nGoesOn, alive p runs, place]
    · cases moves
  · rename_i p runs
    obtain rfl := follows.give runs
    split at moves
    · rename_i place
      rw [give_place] at place
      split at moves
      · rename_i startFunc
        rw [give_table] at startFunc
        cases moves
        refine ⟨{ n.give p with place := Function.update n.place p .user }, once (.resume p) _ ?_, .refl⟩
        simp [Machine.turn, Turn.process, nGoesOn, alive p runs, place, startFunc]
      · cases moves
        cases goesOn
    · rename_i inside place
      rw [give_place] at place
      split at moves
      · rename_i stack
        rw [give_table] at stack
        cases moves
        refine ⟨(n.give p).runOn p (.resume inside), once (.resume p) _ ?_, run_follows goesOn⟩
        simp [Machine.turn, Turn.process, nGoesOn, alive p runs, place, stack]
      · cases moves
        cases goesOn
    · cases moves
  · cases moves

theorem step_goesOn (moves : m.step a = some m') : m.stopped = none := by
  unfold step at moves
  split at moves
  · cases moves
  · simpa using ‹¬ m.stopped.isSome = true›

/-- The scheduler's runs of `spork`, `quit` and `join` are runs in one of the orders. -/
theorem run_ordered (run : Transition.Run step Plain boot m) (goesOn : m.stopped = none) :
    ∃ n, Ordered n ∧ Follows m n := by
  revert goesOn
  refine run.invariant_above (fun _ earlier => regular_of_run earlier)
    (fun m => m.stopped = none → ∃ n, Ordered n ∧ Follows m n) (fun _ => ⟨boot, .refl, .refl⟩)
    fun m a m' regular ih _ moves goesOn => ?_
  obtain ⟨n, ordered, follows⟩ := ih (step_goesOn moves)
  obtain ⟨n', turns, follows'⟩ := follows.turn regular.running moves goesOn
  exact ⟨n', Relation.ReflTransGen.trans ordered turns, follows'⟩

end Machine

end UslossKernel.Phase1b
