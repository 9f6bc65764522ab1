import Mathlib.Data.List.Basic
import Mathlib.Data.Nat.ModEq
import Mathlib.Logic.Function.Basic

/-- An array with wrapping `head` and `tail` cursors and a count. -/
structure RingBuffer (α : Type*) where
  cells : Nat → α
  capacity : Nat
  head : Nat
  tail : Nat
  count : Nat

namespace RingBuffer

variable {α : Type*}

/-- The cells from `head` on, `count` of them, in queue order. -/
def window (ring : RingBuffer α) : List α :=
  (List.range ring.count).map fun i => ring.cells ((ring.head + i) % ring.capacity)

/-- Write at `tail` and advance it. -/
def push (ring : RingBuffer α) (value : α) : RingBuffer α :=
  { ring with
    cells := Function.update ring.cells ring.tail value
    tail := (ring.tail + 1) % ring.capacity
    count := ring.count + 1 }

/-- Advance `head` past the cell it stands on. -/
def pop (ring : RingBuffer α) : RingBuffer α :=
  { ring with head := (ring.head + 1) % ring.capacity, count := ring.count - 1 }

structure WellFormed (ring : RingBuffer α) : Prop where
  bounded : ring.count ≤ ring.capacity
  head_lt : 0 < ring.capacity → ring.head < ring.capacity
  tail_eq : 0 < ring.capacity → ring.tail = (ring.head + ring.count) % ring.capacity

@[simp] theorem window_length (ring : RingBuffer α) : ring.window.length = ring.count := by
  simp [window]

theorem window_eq_nil {ring : RingBuffer α} : ring.window = [] ↔ ring.count = 0 := by
  simp [window]

/-- A ring whose cursors were all reset is well formed and empty. -/
theorem WellFormed.reset (cells : Nat → α) (capacity : Nat) :
    (RingBuffer.mk cells capacity 0 0 0).WellFormed :=
  ⟨Nat.zero_le _, id, fun _ => (Nat.zero_mod _).symm⟩

theorem WellFormed.push {ring : RingBuffer α} (valid : ring.WellFormed) (room : ring.count < ring.capacity)
    (value : α) : (ring.push value).WellFormed where
  bounded := room
  head_lt := valid.head_lt
  tail_eq positive := by
    change (ring.tail + 1) % ring.capacity = (ring.head + (ring.count + 1)) % ring.capacity
    rw [valid.tail_eq positive, Nat.mod_add_mod, Nat.add_assoc]

theorem WellFormed.pop {ring : RingBuffer α} (valid : ring.WellFormed) (occupied : 0 < ring.count) :
    ring.pop.WellFormed where
  bounded := Nat.le_trans (Nat.sub_le _ _) valid.bounded
  head_lt positive := Nat.mod_lt _ positive
  tail_eq positive := by
    change ring.tail = ((ring.head + 1) % ring.capacity + (ring.count - 1)) % ring.capacity
    rw [valid.tail_eq positive, Nat.mod_add_mod]
    congr 1
    omega

/-- Two offsets below the capacity never meet after wrapping. -/
theorem wrapped_ne {head capacity i j : Nat} (low : i < capacity) (high : j < capacity) (distinct : i ≠ j) :
    (head + i) % capacity ≠ (head + j) % capacity := by
  intro same
  have congruent : i ≡ j [MOD capacity] := Nat.ModEq.add_left_cancel' head same
  exact distinct (Nat.ModEq.eq_of_lt_of_lt congruent low high)

/-- Pushing appends: the written cell is none of the cells in use. -/
theorem WellFormed.window_push {ring : RingBuffer α} (valid : ring.WellFormed)
    (room : ring.count < ring.capacity) (value : α) :
    (ring.push value).window = ring.window ++ [value] := by
  have positive : 0 < ring.capacity := by omega
  have atTail := valid.tail_eq positive
  simp only [window, RingBuffer.push, List.range_succ, List.map_append, List.map_cons, List.map_nil]
  congr 1
  · refine List.map_congr_left fun i member => ?_
    have used := List.mem_range.mp member
    rw [Function.update_of_ne]
    rw [atTail]
    exact wrapped_ne (by omega) room (by omega)
  · rw [← atTail, Function.update_self]

/-- Popping removes the first element of the window. -/
theorem window_pop {ring : RingBuffer α} (occupied : 0 < ring.count) :
    ring.window = ring.cells (ring.head % ring.capacity) :: ring.pop.window := by
  obtain ⟨rest, atRest⟩ : ∃ rest, ring.count = rest + 1 := ⟨ring.count - 1, by omega⟩
  simp only [window, RingBuffer.pop, atRest, List.range_succ_eq_map, List.map_cons, List.map_map, Nat.add_zero,
    Nat.add_sub_cancel]
  congr 1
  refine List.map_congr_left fun i _ => ?_
  simp only [Function.comp_apply, Nat.mod_add_mod, Nat.succ_eq_add_one]
  congr 2
  omega

theorem WellFormed.window_pop {ring : RingBuffer α} (valid : ring.WellFormed) (occupied : 0 < ring.count) :
    ring.window = ring.cells ring.head :: ring.pop.window := by
  have positive : 0 < ring.capacity := occupied.trans_le valid.bounded
  rw [RingBuffer.window_pop occupied, Nat.mod_eq_of_lt (valid.head_lt positive)]

end RingBuffer

/-- An array used as a stack: the first `count` cells, bottom first. -/
def stackList {α : Type*} (cells : Nat → α) (count : Nat) : List α :=
  (List.range count).map cells

namespace stackList

variable {α : Type*}

@[simp] theorem length (cells : Nat → α) (count : Nat) : (stackList cells count).length = count := by
  simp [stackList]

theorem push (cells : Nat → α) (count : Nat) (value : α) :
    stackList (Function.update cells count value) (count + 1) = stackList cells count ++ [value] := by
  simp only [stackList, List.range_succ, List.map_append, List.map_cons, List.map_nil, Function.update_self]
  congr 1
  refine List.map_congr_left fun i member => ?_
  exact Function.update_of_ne (List.mem_range.mp member).ne _ _

theorem pop (cells : Nat → α) {count : Nat} (occupied : 0 < count) :
    stackList cells count = stackList cells (count - 1) ++ [cells (count - 1)] := by
  obtain ⟨rest, rfl⟩ : ∃ rest, count = rest + 1 := ⟨count - 1, by omega⟩
  simp [stackList, List.range_succ]

end stackList
