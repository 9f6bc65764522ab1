import Mathlib.Data.List.Basic

universe u

/-- A queue with room for so many items, the oldest first. -/
structure BoundedQueue (α : Type u) where
  room : Nat
  items : List α

namespace BoundedQueue

variable {α : Type u}

/-- What can be done with a queue that comes and goes; whoever closes it loses its items. -/
inductive Act (α : Type u)
  | make (room : Nat)
  | put (item : α)
  | take (item : α)
  | close (lost : List α)

/-- What each act does; `none` while there is no queue. -/
inductive Does : Act α → Option (BoundedQueue α) → Option (BoundedQueue α) → Prop
  | make (room : Nat) : Does (.make room) none (some ⟨room, []⟩)
  | put {room items} (item : α) : items.length < room →
      Does (.put item) (some ⟨room, items⟩) (some ⟨room, items ++ [item]⟩)
  | take {room item rest} : Does (.take item) (some ⟨room, item :: rest⟩) (some ⟨room, rest⟩)
  | close {room items} : Does (.close items) (some ⟨room, items⟩) none

/-- The runs, with the last act first. -/
inductive Run (start : Option (BoundedQueue α)) : List (Act α) → Option (BoundedQueue α) → Prop
  | start : Run start [] start
  | step {acts act q q'} : Run start acts q → Does act q q' → Run start (act :: acts) q'

/-- The items of a queue that is there. -/
def contents : Option (BoundedQueue α) → List α
  | none => []
  | some q => q.items

namespace Act

/-- What the act puts in. -/
def puts : Act α → List α
  | .put item => [item]
  | .make _ | .take _ | .close _ => []

/-- What the act takes out. -/
def takes : Act α → List α
  | .take item => [item]
  | .make _ | .put _ | .close _ => []

/-- What leaves the queue, taken out or lost. -/
def outs : Act α → List α
  | .take item => [item]
  | .close lost => lost
  | .make _ | .put _ => []

end Act

/-- What has been put in, the oldest first. -/
def puts (acts : List (Act α)) : List α :=
  acts.reverse.flatMap Act.puts

/-- What has been taken out. -/
def takes (acts : List (Act α)) : List α :=
  acts.reverse.flatMap Act.takes

/-- What has left, taken out or lost. -/
def outs (acts : List (Act α)) : List α :=
  acts.reverse.flatMap Act.outs

@[simp] theorem puts_cons (act : Act α) (acts : List (Act α)) : puts (act :: acts) = puts acts ++ act.puts := by
  simp [puts]

@[simp] theorem takes_cons (act : Act α) (acts : List (Act α)) : takes (act :: acts) = takes acts ++ act.takes := by
  simp [takes]

@[simp] theorem outs_cons (act : Act α) (acts : List (Act α)) : outs (act :: acts) = outs acts ++ act.outs := by
  simp [outs]

variable {start finish : Option (BoundedQueue α)} {acts : List (Act α)}

/-- Items leave in the order in which they have been put in, over all the queues there have been. -/
theorem Run.fifo (run : Run start acts finish) (empty : contents start = []) :
    puts acts = outs acts ++ contents finish := by
  induction run with
  | start => simp [puts, outs, empty]
  | @step acts act q q' _ does ih =>
    rw [puts_cons, outs_cons, ih]
    cases does <;> simp [Act.puts, Act.outs, contents]

/-- A queue never holds more than it has room for. -/
theorem Run.bounded (run : Run start acts finish) (fits : ∀ q, start = some q → q.items.length ≤ q.room)
    {q : BoundedQueue α} (there : finish = some q) : q.items.length ≤ q.room := by
  induction run generalizing q with
  | start => exact fits q there
  | step _ does ih =>
    cases does with
    | make =>
      cases there
      exact Nat.zero_le _
    | put item room =>
      cases there
      rw [List.length_append, List.length_singleton]
      exact room
    | take =>
      cases there
      exact Nat.le_of_succ_le (ih rfl)
    | close => cases there

/-- What is taken is part of what leaves. -/
theorem takes_sublist (acts : List (Act α)) : (takes acts).Sublist (outs acts) := by
  induction acts with
  | nil => exact .slnil
  | cons act acts ih =>
    rw [takes_cons, outs_cons]
    refine ih.append ?_
    cases act <;> simp [Act.takes, Act.outs]

end BoundedQueue
