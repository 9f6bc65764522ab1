import Mathlib.Data.List.Infix

namespace History

universe u
variable {Event : Type u} {J : Event → List Event → Prop} {log older newer : List Event} {e : Event}

/-- In a log with the newest event first, every event is justified by the older ones. -/
def Justified (J : Event → List Event → Prop) (log : List Event) : Prop :=
  ∀ newer e older, log = newer ++ e :: older → J e older

theorem Justified.nil : Justified J [] := by
  intro newer e older split
  cases newer <;> cases split

theorem Justified.cons (before : Justified J log) (last : J e log) : Justified J (e :: log) := by
  intro newer e' older split
  cases newer with
  | nil =>
    cases split
    exact last
  | cons _ newer =>
    cases split
    exact before newer e' older rfl

/-- It has begun, and has not ended since. -/
def Since (begins ends : Event → Prop) (log : List Event) : Prop :=
  ∃ newer e older, log = newer ++ e :: older ∧ begins e ∧ ∀ e' ∈ newer, ¬ ends e'

variable {begins ends : Event → Prop}

theorem not_since_nil : ¬ Since begins ends [] := by
  rintro ⟨newer, e, older, split, _⟩
  cases newer <;> cases split

theorem since_cons : Since begins ends (e :: log) ↔ begins e ∨ ¬ ends e ∧ Since begins ends log := by
  constructor
  · rintro ⟨newer, e', older, split, begun, lasts⟩
    cases newer with
    | nil =>
      cases split
      exact .inl begun
    | cons _ newer =>
      cases split
      exact .inr ⟨lasts e (List.mem_cons_self ..), newer, e', older, rfl, begun,
        fun e'' member => lasts e'' (List.mem_cons_of_mem _ member)⟩
  · rintro (begun | ⟨still, newer, e', older, rfl, begun, lasts⟩)
    · exact ⟨[], e, log, rfl, begun, fun _ member => absurd member List.not_mem_nil⟩
    · exact ⟨e :: newer, e', older, rfl, begun, List.forall_mem_cons.mpr ⟨still, lasts⟩⟩

end History
