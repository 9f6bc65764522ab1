import Mathlib.Data.Fintype.EquivFin

namespace WaitGraph

variable {Process : Type*} {waits up other : Process → Process → Prop}

/-- Where finitely many processes all wait for one of their number, some of
them waits, through others, for itself. -/
theorem exists_cycle [Finite Process] {asleep : Process → Prop} {p : Process} (start : asleep p)
    (waiting : ∀ p, asleep p → ∃ q, asleep q ∧ waits p q) : ∃ q, asleep q ∧ Relation.TransGen waits q q := by
  by_contra acyclic
  push Not at acyclic
  -- among the sleepers, the processes waited for come first in a well-founded order
  let before : Process → Process → Prop := fun q p => (asleep p ∧ asleep q) ∧ Relation.TransGen waits p q
  have transitive : IsTrans Process before :=
    ⟨fun _ _ _ first second => ⟨⟨second.1.1, first.1.2⟩, second.2.trans first.2⟩⟩
  have irreflexive : Std.Irrefl before := ⟨fun q cycle => acyclic q cycle.1.1 cycle.2⟩
  have founded := Finite.wellFounded_of_trans_of_irrefl before
  induction p using founded.induction with
  | _ p ih =>
    obtain ⟨q, asleep, waitsFor⟩ := waiting p start
    exact ih q ⟨⟨start, asleep⟩, .single waitsFor⟩ asleep

/-- A walk rises, or one of its steps is of the other kind. -/
theorem rises_or_takes {rank : Process → Int} (rises : ∀ p q, up p q → rank p < rank q) {p q : Process}
    (walk : Relation.TransGen (fun p q => up p q ∨ other p q) p q) : rank p < rank q ∨ ∃ a b, other a b ∧
      Relation.ReflTransGen (fun p q => up p q ∨ other p q) p a ∧
      Relation.ReflTransGen (fun p q => up p q ∨ other p q) b q := by
  induction walk with
  | @single q step =>
    rcases step with step | step
    · exact .inl (rises p q step)
    · exact .inr ⟨p, q, step, .refl, .refl⟩
  | @tail b c walk step ih =>
    rcases ih with lower | ⟨a, b', taken, first, second⟩
    · rcases step with step | step
      · exact .inl (lower.trans (rises b c step))
      · exact .inr ⟨b, c, step, walk.to_reflTransGen, .refl⟩
    · exact .inr ⟨a, b', taken, first, second.tail step⟩

/-- A cycle takes a step of the other kind. -/
theorem cycle_takes {rank : Process → Int} (rises : ∀ p q, up p q → rank p < rank q) {p : Process}
    (cycle : Relation.TransGen (fun p q => up p q ∨ other p q) p p) :
    ∃ a b, other a b ∧ Relation.ReflTransGen (fun p q => up p q ∨ other p q) b a := by
  rcases rises_or_takes rises cycle with lower | ⟨a, b, taken, first, second⟩
  · exact absurd lower (lt_irrefl _)
  · exact ⟨a, b, taken, second.trans first⟩

end WaitGraph
