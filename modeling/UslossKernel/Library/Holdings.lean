import Mathlib.Algebra.BigOperators.Group.Finset.Piecewise
import Mathlib.Algebra.Order.BigOperators.Group.Finset
import Mathlib.Data.Fintype.Basic

/-- Everything the owners of a finite table hold together. Irreducible, since
unfolding it runs through the whole table. -/
@[irreducible] def totalHoldings {ι M : Type*} [Fintype ι] [AddCommMonoid M] (holding : ι → M) : M :=
  ∑ i, holding i

namespace totalHoldings

variable {ι M : Type*} [Fintype ι] [AddCommMonoid M]

theorem split [DecidableEq ι] (holding : ι → M) (i : ι) :
    totalHoldings holding = holding i + ∑ j ∈ Finset.univ.erase i, holding j := by
  unfold totalHoldings
  exact (Finset.add_sum_erase _ _ (Finset.mem_univ i)).symm

/-- Exchanging what one owner holds exchanges it in the total. -/
theorem update [DecidableEq ι] (holding : ι → M) (i : ι) (other : M) :
    totalHoldings (Function.update holding i other) + holding i = totalHoldings holding + other := by
  have rest : ∑ j ∈ Finset.univ.erase i, Function.update holding i other j = ∑ j ∈ Finset.univ.erase i, holding j :=
    Finset.sum_congr rfl fun j member => Function.update_of_ne (Finset.ne_of_mem_erase member) _ _
  rw [split _ i, split holding i, rest, Function.update_self]
  generalize ∑ j ∈ Finset.univ.erase i, holding j = rest'
  calc other + rest' + holding i = other + (holding i + rest') := by rw [add_assoc, add_comm rest']
    _ = _ := add_comm _ _

theorem map {N F : Type*} [AddCommMonoid N] [FunLike F M N] [AddMonoidHomClass F M N] (f : F) (holding : ι → M) :
    f (totalHoldings holding) = totalHoldings fun i => f (holding i) := by
  unfold totalHoldings
  exact map_sum f holding _

theorem eq_zero {holding : ι → M} (nothing : ∀ i, holding i = 0) : totalHoldings holding = 0 := by
  unfold totalHoldings
  exact Finset.sum_eq_zero fun i _ => nothing i

theorem eq_zero_iff {holding : ι → Nat} : totalHoldings holding = 0 ↔ ∀ i, holding i = 0 := by
  unfold totalHoldings
  simp [Finset.sum_eq_zero_iff]

theorem mono {holding other : ι → Nat} (pointwise : ∀ i, holding i ≤ other i) :
    totalHoldings holding ≤ totalHoldings other := by
  unfold totalHoldings
  exact Finset.sum_le_sum fun i _ => pointwise i

/-- A single unit has a single owner. -/
theorem eq_one [DecidableEq ι] {holding : ι → Nat} (single : totalHoldings holding = 1) :
    ∃ i, holding i = 1 ∧ ∀ j, j ≠ i → holding j = 0 := by
  obtain ⟨i, some⟩ : ∃ i, holding i ≠ 0 := by
    by_contra nobody
    push Not at nobody
    rw [eq_zero_iff.mpr nobody] at single
    cases single
  have parts := split holding i
  have rest : ∑ j ∈ Finset.univ.erase i, holding j = 0 := by omega
  refine ⟨i, by omega, fun j different => ?_⟩
  exact Finset.sum_eq_zero_iff.mp rest j (Finset.mem_erase.mpr ⟨different, Finset.mem_univ j⟩)

end totalHoldings
