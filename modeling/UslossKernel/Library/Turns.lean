import Mathlib.Logic.Function.Basic

/-- Calls numbered in the order in which they are made, the first `served` of
the `total` being done: the numbers held are those of the others. -/
structure Turns {Process : Type*} (turn : Process → Option Nat) (served total : Nat) : Prop where
  ordered : served ≤ total
  bounds : ∀ q j, turn q = some j → served ≤ j ∧ j < total
  pending : ∀ j, served ≤ j → j < total → ∃ q, turn q = some j

namespace Turns

variable {Process : Type*} {turn : Process → Option Nat} {served total : Nat}

theorem start : Turns (fun _ : Process => none) 0 0 where
  ordered := Nat.le_refl 0
  bounds := by rintro _ _ ⟨⟩
  pending := by omega

variable [DecidableEq Process] {p : Process}

/-- A new call takes the next number. -/
theorem enter (turns : Turns turn served total) (out : turn p = none) :
    Turns (Function.update turn p (some total)) served (total + 1) where
  ordered := by
    have ordered := turns.ordered
    omega
  bounds q j held := by
    have ordered := turns.ordered
    by_cases self : q = p
    · subst self
      rw [Function.update_self, Option.some.injEq] at held
      omega
    · rw [Function.update_of_ne self] at held
      have bounds := turns.bounds q j held
      omega
  pending j low high := by
    by_cases last : j = total
    · exact ⟨p, by rw [Function.update_self, last]⟩
    · obtain ⟨q, held⟩ := turns.pending j low (by omega)
      have other : q ≠ p := by
        rintro rfl
        rw [out] at held
        cases held
      exact ⟨q, by rw [Function.update_of_ne other, held]⟩

/-- Where the one that is served has the lowest number, that is the next one. -/
theorem serve {j : Nat} (turns : Turns turn served total) (mine : turn p = some j)
    (first : ∀ q, q ≠ p → ∀ i, turn q = some i → j < i) :
    j = served ∧ Turns (Function.update turn p none) (served + 1) total := by
  obtain ⟨low, high⟩ := turns.bounds p j mine
  have next : j = served := by
    obtain ⟨q, held⟩ := turns.pending served (Nat.le_refl _) (by omega)
    by_cases self : q = p
    · subst self
      exact Option.some.inj (mine.symm.trans held)
    · have later := first q self served held
      omega
  subst next
  refine ⟨rfl, high, fun q i held => ?_, fun i above below => ?_⟩
  · by_cases self : q = p
    · subst self
      rw [Function.update_self] at held
      cases held
    · rw [Function.update_of_ne self] at held
      exact ⟨first q self i held, (turns.bounds q i held).2⟩
  · obtain ⟨q, held⟩ := turns.pending i (by omega) below
    have other : q ≠ p := by
      rintro rfl
      have same := Option.some.inj (mine.symm.trans held)
      omega
    exact ⟨q, by rw [Function.update_of_ne other, held]⟩

end Turns
