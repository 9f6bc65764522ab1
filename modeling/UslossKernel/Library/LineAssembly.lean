import Mathlib.Data.List.Induction

namespace LineAssembly

universe u

/-- The complete lines of a text, and what it has of the next one. -/
structure Assembly (α : Type u) where
  lines : List (List α)
  current : List α
deriving DecidableEq

variable {α : Type u} [DecidableEq α] (terminator : α) (limit : Nat)

/-- A line ends at its terminator, or where no more fits. -/
def push (a : Assembly α) (c : α) : Assembly α :=
  if c = terminator ∨ (a.current ++ [c]).length = limit then ⟨a.lines ++ [a.current ++ [c]], []⟩
  else ⟨a.lines, a.current ++ [c]⟩

def assemble (text : List α) : Assembly α :=
  text.foldl (push terminator limit) ⟨[], []⟩

/-- What the lines of a text look like. -/
structure IsLine (line : List α) : Prop where
  nonempty : line ≠ []
  short : line.length ≤ limit
  inner : terminator ∉ line.dropLast
  ended : line.getLast? = some terminator ∨ line.length = limit

@[simp] theorem assemble_nil : assemble terminator limit [] = ⟨[], []⟩ := rfl

theorem assemble_concat (text : List α) (c : α) :
    assemble terminator limit (text ++ [c]) = push terminator limit (assemble terminator limit text) c := by
  rw [assemble, List.foldl_append]
  rfl

variable {terminator limit}

theorem push_ends {a : Assembly α} {c : α} (ends : c = terminator ∨ (a.current ++ [c]).length = limit) :
    push terminator limit a c = ⟨a.lines ++ [a.current ++ [c]], []⟩ :=
  if_pos ends

theorem push_goesOn {a : Assembly α} {c : α} (goesOn : ¬ (c = terminator ∨ (a.current ++ [c]).length = limit)) :
    push terminator limit a c = ⟨a.lines, a.current ++ [c]⟩ :=
  if_neg goesOn

/-- A line that has not ended has room for one more. -/
theorem assemble_current (positive : 0 < limit) (text : List α) :
    terminator ∉ (assemble terminator limit text).current ∧
      (assemble terminator limit text).current.length < limit := by
  induction text using List.reverseRecOn with
  | nil => simpa using positive
  | append_singleton text c ih =>
    rw [assemble_concat]
    by_cases ends : c = terminator ∨ ((assemble terminator limit text).current ++ [c]).length = limit
    · simpa [push_ends ends] using positive
    · rw [push_goesOn ends]
      simp only [not_or, List.length_append, List.length_singleton] at ends
      obtain ⟨inner, short⟩ := ih
      refine ⟨?_, by simp only [List.length_append, List.length_singleton]; omega⟩
      simp only [List.mem_append, List.mem_singleton, not_or]
      exact ⟨inner, fun same => ends.1 same.symm⟩

/-- The lines and the rest are the text. -/
theorem assemble_flatten (text : List α) :
    (assemble terminator limit text).lines.flatten ++ (assemble terminator limit text).current = text := by
  induction text using List.reverseRecOn with
  | nil => rfl
  | append_singleton text c ih =>
    rw [assemble_concat]
    by_cases ends : c = terminator ∨ ((assemble terminator limit text).current ++ [c]).length = limit
    · rw [push_ends ends, List.flatten_append, List.flatten_singleton, List.append_nil, ← List.append_assoc, ih]
    · rw [push_goesOn ends, ← List.append_assoc, ih]

theorem assemble_lines (positive : 0 < limit) (text : List α) :
    ∀ line ∈ (assemble terminator limit text).lines, IsLine terminator limit line := by
  induction text using List.reverseRecOn with
  | nil => simp
  | append_singleton text c ih =>
    obtain ⟨inner, short⟩ := @assemble_current _ _ terminator limit positive text
    rw [assemble_concat]
    by_cases ends : c = terminator ∨ ((assemble terminator limit text).current ++ [c]).length = limit
    · rw [push_ends ends]
      intro line member
      rcases List.mem_append.mp member with old | new
      · exact ih line old
      · rw [List.mem_singleton.mp new]
        refine ⟨by simp, by simpa using Nat.succ_le_of_lt short, by simpa using inner, ?_⟩
        exact ends.imp_left fun same => by simp [same]
    · rw [push_goesOn ends]
      exact ih

end LineAssembly
