import Mathlib.Order.Basic
import Mathlib.Tactic.Basic

/-- A counting semaphore: its value, and how many downs wait and how many
have passed. A negative value is the number of those that wait. -/
structure CountingSemaphore where
  value : Int
  waiting : Nat
  passed : Nat

namespace CountingSemaphore

def new (n : Nat) : CountingSemaphore := ⟨n, 0, 0⟩

def down (c : CountingSemaphore) : CountingSemaphore :=
  if 0 < c.value then ⟨c.value - 1, c.waiting, c.passed + 1⟩ else ⟨c.value - 1, c.waiting + 1, c.passed⟩

/-- An up lets one that waits pass, if any does. -/
def up (c : CountingSemaphore) : CountingSemaphore :=
  if c.waiting = 0 then ⟨c.value + 1, 0, c.passed⟩ else ⟨c.value + 1, c.waiting - 1, c.passed + 1⟩

/-- A semaphore made with `n` after so many downs and ups, in some order. -/
inductive After (n : Nat) : Nat → Nat → CountingSemaphore → Prop
  | new : After n 0 0 (new n)
  | down {p v c} : After n p v c → After n (p + 1) v c.down
  | up {p v c} : After n p v c → After n p (v + 1) c.up

variable {n p v : Nat} {c : CountingSemaphore}

theorem After.value (after : After n p v c) : c.value = n + v - p := by
  induction after with
  | new => simp [CountingSemaphore.new]
  | down _ ih =>
    unfold CountingSemaphore.down
    split <;> simp only [ih] <;> omega
  | up _ ih =>
    unfold CountingSemaphore.up
    split <;> simp only [ih] <;> omega

theorem After.waiting (after : After n p v c) : (c.waiting : Int) = max 0 (-c.value) := by
  induction after with
  | new =>
    show (0 : Int) = max 0 (-(n : Int))
    omega
  | @down _ _ c _ ih =>
    unfold CountingSemaphore.down
    split
    · show (c.waiting : Int) = max 0 (-(c.value - 1))
      omega
    · show ((c.waiting + 1 : Nat) : Int) = max 0 (-(c.value - 1))
      omega
  | @up _ _ c _ ih =>
    unfold CountingSemaphore.up
    split
    · show ((0 : Nat) : Int) = max 0 (-(c.value + 1))
      omega
    · show ((c.waiting - 1 : Nat) : Int) = max 0 (-(c.value + 1))
      omega

theorem After.total (after : After n p v c) : c.waiting + c.passed = p := by
  induction after with
  | new => rfl
  | down _ ih =>
    unfold CountingSemaphore.down
    split <;> simp only <;> omega
  | up _ ih =>
    unfold CountingSemaphore.up
    split <;> simp only <;> omega

/-- As many downs have passed as the value and the ups allow. -/
theorem After.passed (after : After n p v c) : c.passed = min p (n + v) := by
  have value := after.value
  have waiting := after.waiting
  have total := after.total
  omega

end CountingSemaphore
