import Mathlib.Logic.Function.Basic

namespace EntryTable

universe u v w
variable {ι : Type u} {α : Type v} {β : Type w}

section modify
variable [DecidableEq ι] {table : ι → α} {i j : ι} {f : α → α}

/-- The table with one entry changed. -/
def modify (table : ι → α) (i : ι) (f : α → α) : ι → α :=
  Function.update table i (f (table i))

@[simp] theorem modify_self : modify table i f i = f (table i) := Function.update_self ..

@[simp] theorem modify_of_ne (other : j ≠ i) : modify table i f j = table j := Function.update_of_ne other ..

theorem fields_modify (field : α → β) : (fun j => field (modify table i f j)) =
    Function.update (fun j => field (table j)) i (field (f (table i))) := Function.comp_update ..

/-- A field that the change leaves alone. -/
theorem fields_modify_of_blind (field : α → β) (blind : ∀ e, field (f e) = field e) :
    (fun j => field (modify table i f j)) = fun j => field (table j) := by
  rw [fields_modify, blind, Function.update_eq_self]

end modify

/-- A field that does not show what is erased is that of any other entry with
the same rest. -/
theorem field_of_rest (rest : α → α) (field : α → β) (blind : ∀ e, field (rest e) = field e) {e e' : α}
    (same : rest e = rest e') : field e = field e' := by
  rw [← blind, ← blind e']
  exact congrArg field same

section renewed
variable {before after : ι → Bool} {new value : β} {values : ι → β} {i : ι}

/-- Values beside a table: an entry that was free and is taken gets a new one. -/
def renewed (before after : ι → Bool) (new : β) (values : ι → β) (i : ι) : β :=
  if before i = false ∧ after i = true then new else values i

theorem renewed_new (free : before i = false) (taken : after i = true) : renewed before after new values i = new :=
  if_pos ⟨free, taken⟩

theorem renewed_of_kept (kept : before i = false → after i = false) : renewed before after new values i = values i :=
  if_neg fun both => absurd (both.2.symm.trans (kept both.1)) (by decide)

theorem renewed_of_taken (taken : before i = true) : renewed before after new values i = values i :=
  if_neg fun both => absurd (taken.symm.trans both.1) (by decide)

/-- No entry is taken. -/
theorem renewed_eq_self (kept : ∀ i, before i = false → after i = false) : renewed before after new values = values :=
  funext fun i => renewed_of_kept (kept i)

/-- A value other than the new one was there before. -/
theorem of_renewed (there : renewed before after new values i = value) (other : new ≠ value) :
    values i = value ∧ (before i = false → after i = false) := by
  unfold renewed at there
  split at there
  · exact absurd there other
  · rename_i kept
    exact ⟨there, fun free => by simpa [free] using kept⟩

end renewed

end EntryTable
