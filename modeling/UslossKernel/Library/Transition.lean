import Mathlib.Logic.Relation

namespace Transition

universe u v
variable {State : Type u} {Action : Type v}

/-- One step of a partial transition function, by an action which the guard
admits in the state before it. -/
def Guarded (step : State → Action → Option State) (guard : State → Action → Prop)
    (before after : State) : Prop :=
  ∃ action, guard before action ∧ step before action = some after

/-- Guarded runs of any finite length. -/
abbrev Run (step : State → Action → Option State) (guard : State → Action → Prop) :
    State → State → Prop :=
  Relation.ReflTransGen (Guarded step guard)

/-- Executing a list of actions; `none` when one of them is not enabled or
does not pass the test. -/
def execute (step : State → Action → Option State) (admits : State → Action → Bool) :
    State → List Action → Option State
  | start, [] => some start
  | start, action :: rest =>
    if admits start action then (step start action).bind (execute step admits · rest) else none

variable {step : State → Action → Option State} {guard weaker : State → Action → Prop}

theorem Run.next {start before after : State} {action : Action} (run : Run step guard start before)
    (admitted : guard before action) (moves : step before action = some after) :
    Run step guard start after :=
  run.tail ⟨action, admitted, moves⟩

theorem Run.mono (implies : ∀ state action, guard state action → weaker state action)
    {start finish : State} (run : Run step guard start finish) : Run step weaker start finish := by
  induction run with
  | refl => exact .refl
  | tail _ last ih =>
    obtain ⟨action, admitted, moves⟩ := last
    exact ih.next (implies _ _ admitted) moves

/-- The invariant rule: what holds at the start and is preserved by every
admitted step holds at the end of every run. -/
theorem Run.invariant {start finish : State} (run : Run step guard start finish) (Inv : State → Prop)
    (initial : Inv start)
    (preserved : ∀ before action after, Inv before → guard before action →
      step before action = some after → Inv after) : Inv finish := by
  induction run with
  | refl => exact initial
  | tail _ last ih =>
    obtain ⟨action, admitted, moves⟩ := last
    exact preserved _ _ _ ih admitted moves

/-- The same rule above an invariant that is already known along the run. -/
theorem Run.invariant_above {start finish : State} (run : Run step guard start finish) {Base : State → Prop}
    (base : ∀ state, Run step guard start state → Base state) (Inv : State → Prop) (initial : Inv start)
    (preserved : ∀ before action after, Base before → Inv before → guard before action →
      step before action = some after → Inv after) : Inv finish := by
  induction run with
  | refl => exact initial
  | tail earlier last ih =>
    obtain ⟨action, admitted, moves⟩ := last
    exact preserved _ _ _ (base _ earlier) ih admitted moves

/-- What is known along a run can be added to its guard. -/
theorem Run.with_invariant {start finish : State} (run : Run step guard start finish) (Inv : State → Prop)
    (initial : Inv start)
    (preserved : ∀ before action after, Inv before → guard before action →
      step before action = some after → Inv after) :
    Run step (fun state action => Inv state ∧ guard state action) start finish := by
  induction run with
  | refl => exact .refl
  | tail earlier last ih =>
    obtain ⟨action, admitted, moves⟩ := last
    exact ih.next ⟨Run.invariant earlier Inv initial preserved, admitted⟩ moves

/-- The same, where it is known of every run. -/
theorem Run.with_known {start finish : State} (run : Run step guard start finish) {Known : State → Prop}
    (known : ∀ state, Run step guard start state → Known state) :
    Run step (fun state action => Known state ∧ guard state action) start finish := by
  induction run with
  | refl => exact .refl
  | tail earlier last ih =>
    obtain ⟨action, admitted, moves⟩ := last
    exact ih.next ⟨known _ earlier, admitted⟩ moves

/-- What no step can do without can be added to the guard. -/
theorem Run.enabled {start finish : State} (run : Run step guard start finish) {Needed : State → Prop}
    (needs : ∀ before action after, step before action = some after → Needed before) :
    Run step (fun state action => Needed state ∧ guard state action) start finish := by
  induction run with
  | refl => exact .refl
  | tail _ last ih =>
    obtain ⟨action, admitted, moves⟩ := last
    exact ih.next ⟨needs _ _ _ moves, admitted⟩ moves

/-- The simulation rule: where every admitted step is matched by a run of the
other system, so is every run. -/
theorem Run.simulated {State' : Type*} {Action' : Type*} {step' : State' → Action' → Option State'}
    {guard' : State' → Action' → Prop} {start finish : State} {start' : State'} (run : Run step guard start finish)
    (Related : State → State' → Prop) (initial : Related start start')
    (simulates : ∀ before action after before', Related before before' → guard before action →
      step before action = some after → ∃ after', Run step' guard' before' after' ∧ Related after after') :
    ∃ finish', Run step' guard' start' finish' ∧ Related finish finish' := by
  induction run with
  | refl => exact ⟨start', .refl, initial⟩
  | tail _ last ih =>
    obtain ⟨action, admitted, moves⟩ := last
    obtain ⟨middle', earlier, related⟩ := ih
    obtain ⟨finish', later, related⟩ := simulates _ _ _ _ related admitted moves
    exact ⟨finish', earlier.trans later, related⟩

/-- Executing a list is a run by the listed actions, all of which pass the test. -/
theorem Run.of_executed {admits : State → Action → Bool} {start finish : State} {actions : List Action}
    (executed : execute step admits start actions = some finish) :
    Run step (fun state action => admits state action = true ∧ action ∈ actions) start finish := by
  induction actions generalizing start with
  | nil =>
    cases Option.some.inj executed
    exact .refl
  | cons action rest ih =>
    simp only [execute, Option.ite_none_right_eq_some] at executed
    obtain ⟨admitted, executed⟩ := executed
    obtain ⟨middle, moves, executed⟩ := Option.bind_eq_some_iff.mp executed
    have first : Guarded step (fun state other => admits state other = true ∧ other ∈ action :: rest) start middle :=
      ⟨action, ⟨admitted, List.mem_cons_self ..⟩, moves⟩
    exact .head first ((ih executed).mono fun _ _ both => ⟨both.1, List.mem_cons_of_mem _ both.2⟩)

theorem exists_executed (step : State → Action → Option State) (admits : State → Action → Bool) (start : State)
    (actions : List Action) (test : State → Bool) (passes : (execute step admits start actions).any test = true) :
    ∃ finish, execute step admits start actions = some finish ∧ test finish = true := by
  cases executed : execute step admits start actions with
  | none => simp [executed] at passes
  | some finish => exact ⟨finish, rfl, by simpa [executed] using passes⟩

/-- A run under a guard for which there is a test. -/
theorem exists_run (step : State → Action → Option State) (start : State) (actions : List Action)
    (admits : State → Action → Bool)
    (implies : ∀ state action, admits state action = true → guard state action) (test : State → Bool)
    (passes : (execute step admits start actions).any test = true) :
    ∃ finish, Run step guard start finish ∧ test finish = true := by
  obtain ⟨finish, executed, holds⟩ := exists_executed _ _ _ _ _ passes
  exact ⟨finish, (Run.of_executed executed).mono fun state action both => implies state action both.1, holds⟩

/-- The test may rely on what is known of the run so far. -/
theorem Run.along {admits : State → Action → Bool} {origin start finish : State} {actions : List Action}
    (implies : ∀ state action, Run step guard origin state → admits state action = true → guard state action)
    (run : Run step guard origin start) (executed : execute step admits start actions = some finish) :
    Run step guard origin finish := by
  induction actions generalizing start with
  | nil =>
    cases Option.some.inj executed
    exact run
  | cons action rest ih =>
    simp only [execute, Option.ite_none_right_eq_some] at executed
    obtain ⟨admitted, executed⟩ := executed
    obtain ⟨middle, moves, executed⟩ := Option.bind_eq_some_iff.mp executed
    exact ih (run.next (implies start action run admitted) moves) executed

theorem execute_admitting {admits : State → Action → Bool} {start finish : State} {actions : List Action}
    (executed : execute step admits start actions = some finish) :
    execute step (fun _ _ => true) start actions = some finish := by
  induction actions generalizing start with
  | nil => exact executed
  | cons action rest ih =>
    simp only [execute, Option.ite_none_right_eq_some] at executed
    obtain ⟨_, executed⟩ := executed
    obtain ⟨middle, moves, executed⟩ := Option.bind_eq_some_iff.mp executed
    simp [execute, moves, ih executed]

theorem execute_append {admits : State → Action → Bool} {start finish : State} {first second : List Action} :
    execute step admits start (first ++ second) = some finish ↔
      ∃ middle, execute step admits start first = some middle ∧ execute step admits middle second = some finish := by
  induction first generalizing start with
  | nil => simp [execute]
  | cons action rest ih =>
    simp only [List.cons_append, execute, Option.ite_none_right_eq_some, Option.bind_eq_some_iff, ih]
    constructor
    · rintro ⟨admitted, next, moved, middle, executed, finished⟩
      exact ⟨middle, ⟨admitted, next, moved, executed⟩, finished⟩
    · rintro ⟨middle, ⟨admitted, next, moved, executed⟩, finished⟩
      exact ⟨admitted, next, moved, middle, executed, finished⟩

theorem execute_concat {start finish : State} {actions : List Action} {action : Action} :
    execute step (fun _ _ => true) start (actions ++ [action]) = some finish ↔
      ∃ middle, execute step (fun _ _ => true) start actions = some middle ∧ step middle action = some finish := by
  rw [execute_append]
  simp [execute]

/-- From `start` nothing can happen but these many steps to `finish`. -/
inductive Forced (step : State → Action → Option State) : Nat → State → State → Prop
  | done {state} : Forced step 0 state state
  | next {n before action after finish} : step before action = some after →
      (∀ other after', step before other = some after' → after' = after) → Forced step n after finish →
      Forced step (n + 1) before finish

/-- Every run has come part of the way, or all of it. -/
theorem Forced.run {n : Nat} {start state finish : State} (forced : Forced step n start finish)
    (final : ∀ action, step finish action = none) (run : Run step guard start state) :
    ∃ k ≤ n, Forced step k state finish := by
  induction run with
  | refl => exact ⟨n, Nat.le_refl n, forced⟩
  | tail _ last ih =>
    obtain ⟨action, _, moves⟩ := last
    obtain ⟨k, bound, rest⟩ := ih
    cases rest with
    | done =>
      rw [final] at moves
      cases moves
    | next _ only later =>
      obtain rfl := only _ _ moves
      exact ⟨_, Nat.le_of_succ_le bound, later⟩

end Transition
