import Mathlib.Data.Set.Card

/-- The indices at which a table holds an entry of the given kind. -/
def population {ι α : Type*} (table : ι → α) (kind : α → Bool) : Set ι :=
  {i | kind (table i) = true}

/-- The table holds exactly `n` entries of the given kind. -/
def Counts {ι α : Type*} (table : ι → α) (kind : α → Bool) (n : Nat) : Prop :=
  (population table kind).encard = n

namespace Counts

variable {ι α : Type*} {table : ι → α} {kind : α → Bool} {n : Nat}

theorem unique {m : Nat} (first : Counts table kind n) (second : Counts table kind m) : n = m := by
  have same : (n : ℕ∞) = m := first.symm.trans second
  exact_mod_cast same

theorem zero_iff : Counts table kind 0 ↔ ∀ i, kind (table i) = false := by
  simp [Counts, population, Set.eq_empty_iff_forall_notMem]

theorem pos {i : ι} (counted : Counts table kind n) (member : kind (table i) = true) : 0 < n := by
  rcases Nat.eq_zero_or_pos n with rfl | positive
  · have absent := zero_iff.mp counted i
    rw [member] at absent
    cases absent
  · exact positive

theorem exists_of_pos (counted : Counts table kind n) (positive : 0 < n) : ∃ i, kind (table i) = true := by
  by_contra none
  have empty : Counts table kind 0 := zero_iff.mpr fun i => by
    simpa using fun member => none ⟨i, member⟩
  exact positive.ne' (counted.unique empty)

/-- Overwriting one entry moves the count by what the entry was and what it becomes. -/
theorem update [DecidableEq ι] (counted : Counts table kind n) (i : ι) (entry : α) :
    Counts (Function.update table i entry) kind
      (n + (if kind entry then 1 else 0) - (if kind (table i) then 1 else 0)) := by
  have others : ∀ j, j ≠ i → (j ∈ population (Function.update table i entry) kind ↔ j ∈ population table kind) := by
    intro j different
    simp only [population, Set.mem_ofPred_eq, Function.update_of_ne different]
  have atEntry : i ∈ population (Function.update table i entry) kind ↔ kind entry = true := by
    simp only [population, Set.mem_ofPred_eq, Function.update_self]
  unfold Counts at counted ⊢
  by_cases before : kind (table i) = true <;> by_cases after : kind entry = true
  · have same : population (Function.update table i entry) kind = population table kind := by
      ext j
      by_cases here : j = i
      · subst here; exact iff_of_true (atEntry.mpr after) before
      · exact others j here
    simp [same, counted, before, after]
  · have removed : population (Function.update table i entry) kind = population table kind \ {i} := by
      ext j
      by_cases here : j = i
      · subst here; simp [atEntry, after]
      · simpa [here] using others j here
    have member : i ∈ population table kind := before
    rw [removed, Set.encard_sdiff_singleton_of_mem member, counted]
    simp [before, after]
  · have added : population (Function.update table i entry) kind = insert i (population table kind) := by
      ext j
      by_cases here : j = i
      · subst here; simp [atEntry, after]
      · simpa [here] using others j here
    have absent : i ∉ population table kind := before
    rw [added, Set.encard_insert_of_notMem absent, counted]
    simp [before, after]
  · have same : population (Function.update table i entry) kind = population table kind := by
      ext j
      by_cases here : j = i
      · subst here; exact iff_of_false (fun member => after (atEntry.mp member)) before
      · exact others j here
    simp [same, counted, before, after]

end Counts
