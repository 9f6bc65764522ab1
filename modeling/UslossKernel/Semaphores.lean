import UslossKernel.Mailboxes

namespace UslossKernel

/-- `MAXSEMS` -/
def maxSems : Nat := 200

instance : NeZero maxSems := ⟨by decide⟩

abbrev SemId := Fin maxSems

/-- `Semaphore`. The `int` fields are unbounded here. -/
structure Semaphore where
  value : Int
  mboxID : Int
  in_use : Bool
  blocked : Int

/-- The table `sems`. -/
abbrev Sems := SemId → Semaphore

/-- The system calls that work on one semaphore. -/
inductive SemOp
  | semp
  | semv
deriving DecidableEq, Repr

/-- All calls that work on one semaphore, those of the kernel included. -/
inductive SemCall
  | sys (op : SemOp)
  | kernSemP
  | kernSemV
deriving DecidableEq, Repr

/-- The two functions that make a semaphore, with their arguments. -/
inductive SemCreation
  | sys_semcreate (initial_value : Int)
  | kernSemCreate (value : Int)
deriving DecidableEq, Repr

/-- How a call goes on once the table is updated: with `arg4 = -1`, with
`arg4 = 0`, or with a call of the mailbox of this semaphore and then `arg4 = 0`.
The calls of the kernel return these codes. -/
inductive SemOutcome
  | refused
  | returns (i : SemId)
  | calls (i : SemId)
deriving DecidableEq, Repr

namespace Sems

/-- The table that `phase3_init` leaves. -/
def init : Sems := fun _ => { value := -1, mboxID := -1, in_use := false, blocked := 0 }

/-- `index < 0 || index >= MAXSEMS || !sems[index].in_use` fails. -/
def inUse (sems : Sems) (index : Int) : Option SemId :=
  if bounds : 0 ≤ index ∧ index < maxSems then
    if (sems ⟨index.toNat, by omega⟩).in_use then some ⟨index.toNat, by omega⟩ else none
  else none

def setValue (sems : Sems) (i : SemId) (value : Int) : Sems :=
  Function.update sems i { sems i with value }

def setBlocked (sems : Sems) (i : SemId) (blocked : Int) : Sems :=
  Function.update sems i { sems i with blocked }

/-- The semaphore `sys_semcreate` makes, if it makes one. -/
def firstUnused (sems : Sems) (initial_value : Int) : Option SemId :=
  if initial_value < 0 then none else (List.finRange maxSems).find? fun i => !(sems i).in_use

/-- `sys_semcreate` once `MboxCreate(0, 0)` has returned `mboxID`. -/
def sysSemcreate (sems : Sems) (i : SemId) (initial_value mboxID : Int) : Sems :=
  Function.update sems i { sems i with value := initial_value, mboxID, in_use := true }

/-- Calls `MboxRecv(sems[index].mboxID, NULL, 0)` if the value is then negative. -/
def sysSemp (sems : Sems) (index : Int) : Sems × SemOutcome :=
  match sems.inUse index with
  | none => (sems, .refused)
  | some i =>
    let sems := sems.setValue i ((sems i).value - 1)
    if (sems i).value < 0 then (sems.setBlocked i ((sems i).blocked + 1), .calls i) else (sems, .returns i)

/-- Calls `MboxSend(sems[index].mboxID, NULL, 0)` if someone is to be woken. -/
def sysSemv (sems : Sems) (index : Int) : Sems × SemOutcome :=
  match sems.inUse index with
  | none => (sems, .refused)
  | some i =>
    let sems := sems.setValue i ((sems i).value + 1)
    if (sems i).value ≤ 0 ∧ (sems i).blocked > 0 then (sems.setBlocked i ((sems i).blocked - 1), .calls i)
    else (sems, .returns i)

/-- The semaphore `kernSemCreate` makes, if it makes one. -/
def kernFirstUnused (sems : Sems) : Option SemId :=
  (List.finRange maxSems).find? fun i => !(sems i).in_use

/-- Calls `MboxSend(sems[semaphore].mboxID, NULL, 0)` if the value is 0. -/
def kernSemP (sems : Sems) (semaphore : Int) : Sems × SemOutcome :=
  match sems.inUse semaphore with
  | none => (sems, .refused)
  | some i => if (sems i).value = 0 then (sems, .calls i) else (sems.setValue i ((sems i).value - 1), .returns i)

/-- Calls `MboxRecv(sems[semaphore].mboxID, NULL, 0)` in any case. -/
def kernSemV (sems : Sems) (semaphore : Int) : Sems × SemOutcome :=
  match sems.inUse semaphore with
  | none => (sems, .refused)
  | some i => (sems.setValue i ((sems i).value + 1), .calls i)

variable {sems : Sems} {i : SemId}

theorem inUse_spec {index : Int} (found : sems.inUse index = some i) :
    index = (i : Nat) ∧ (sems i).in_use = true := by
  unfold inUse at found
  split at found
  · rename_i bounds
    split at found
    · cases found
      exact ⟨(Int.toNat_of_nonneg bounds.1).symm, by assumption⟩
    · cases found
  · cases found

theorem firstUnused_spec {initial_value : Int} (found : sems.firstUnused initial_value = some i) :
    0 ≤ initial_value ∧ (sems i).in_use = false := by
  unfold firstUnused at found
  split at found
  · cases found
  · exact ⟨by omega, by simpa using List.find?_some found⟩

theorem sysSemcreate_self (initial_value mboxID : Int) : sems.sysSemcreate i initial_value mboxID i =
    { sems i with value := initial_value, mboxID, in_use := true } := Function.update_self ..

theorem sysSemcreate_of_ne {j : SemId} (other : j ≠ i) (initial_value mboxID : Int) :
    sems.sysSemcreate i initial_value mboxID j = sems j := Function.update_of_ne other ..

end Sems

namespace SemCreation

/-- The entry it is going to use, if it finds one. -/
def entry (sems : Sems) : SemCreation → Option SemId
  | .sys_semcreate initial_value => sems.firstUnused initial_value
  | .kernSemCreate _ => sems.kernFirstUnused

def value : SemCreation → Int
  | .sys_semcreate initial_value => initial_value
  | .kernSemCreate value => value

theorem entry_unused {sems : Sems} {i : SemId} {creation : SemCreation} (found : creation.entry sems = some i) :
    (sems i).in_use = false := by
  cases creation with
  | sys_semcreate => exact (Sems.firstUnused_spec found).2
  | kernSemCreate => simpa using List.find?_some found

end SemCreation

namespace SemCall

def start (sems : Sems) (index : Int) : SemCall → Sems × SemOutcome
  | .sys .semp => sems.sysSemp index
  | .sys .semv => sems.sysSemv index
  | .kernSemP => sems.kernSemP index
  | .kernSemV => sems.kernSemV index

/-- Whether its mailbox call is `MboxSend`. -/
def sends : SemCall → Bool
  | .sys .semv | .kernSemP => true
  | .sys .semp | .kernSemV => false

/-- What a call makes of the semaphore, and whether it goes to the mailbox. -/
def entry (sem : Semaphore) : SemCall → Semaphore × Bool
  | .sys .semp =>
    if sem.value - 1 < 0 then ({ sem with value := sem.value - 1, blocked := sem.blocked + 1 }, true)
    else ({ sem with value := sem.value - 1 }, false)
  | .sys .semv =>
    if sem.value + 1 ≤ 0 ∧ sem.blocked > 0 then ({ sem with value := sem.value + 1, blocked := sem.blocked - 1 }, true)
    else ({ sem with value := sem.value + 1 }, false)
  | .kernSemP => if sem.value = 0 then (sem, true) else ({ sem with value := sem.value - 1 }, false)
  | .kernSemV => ({ sem with value := sem.value + 1 }, true)

variable {sems : Sems} {index : Int} {i : SemId} {sem : Semaphore}

theorem start_eq (call : SemCall) (found : sems.inUse index = some i) :
    call.start sems index = (Function.update sems i (call.entry (sems i)).1,
      if (call.entry (sems i)).2 then .calls i else .returns i) := by
  cases call with
  | sys op =>
    cases op with
    | semp =>
      simp only [start, Sems.sysSemp, found, Sems.setValue, Sems.setBlocked, entry, Function.update_self]
      split <;> simp
    | semv =>
      simp only [start, Sems.sysSemv, found, Sems.setValue, Sems.setBlocked, entry, Function.update_self]
      split <;> simp
  | kernSemP =>
    simp only [start, Sems.kernSemP, found, Sems.setValue, entry]
    split <;> simp
  | kernSemV => simp [start, Sems.kernSemV, found, Sems.setValue, entry]

theorem start_refused (call : SemCall) (absent : sems.inUse index = none) :
    call.start sems index = (sems, .refused) := by
  cases call with
  | sys op => cases op <;> simp [start, Sems.sysSemp, Sems.sysSemv, absent]
  | kernSemP => simp [start, Sems.kernSemP, absent]
  | kernSemV => simp [start, Sems.kernSemV, absent]

theorem entry_mboxID (call : SemCall) : (call.entry sem).1.mboxID = sem.mboxID := by
  cases call with
  | sys op => cases op <;> simp only [entry] <;> split <;> rfl
  | kernSemP =>
    simp only [entry]
    split <;> rfl
  | kernSemV => rfl

theorem entry_in_use (call : SemCall) : (call.entry sem).1.in_use = sem.in_use := by
  cases call with
  | sys op => cases op <;> simp only [entry] <;> split <;> rfl
  | kernSemP =>
    simp only [entry]
    split <;> rfl
  | kernSemV => rfl

/-- A call leaves which semaphores are in use and their mailboxes, and comes to
the mailbox of the semaphore it was given. -/
theorem start_keeps {sems' : Sems} {call : SemCall} {outcome : SemOutcome}
    (starts : call.start sems index = (sems', outcome)) :
    (∀ j, (sems' j).in_use = (sems j).in_use ∧ (sems' j).mboxID = (sems j).mboxID) ∧
      ∀ i, outcome = .calls i → sems.inUse index = some i := by
  cases found : sems.inUse index with
  | none =>
    rw [call.start_refused found] at starts
    cases starts
    exact ⟨fun _ => ⟨rfl, rfl⟩, by rintro _ ⟨⟩⟩
  | some i =>
    rw [call.start_eq found] at starts
    cases starts
    refine ⟨fun j => ?_, fun j calls => ?_⟩
    · by_cases same : j = i
      · subst same
        rw [Function.update_self]
        exact ⟨call.entry_in_use, call.entry_mboxID⟩
      · rw [Function.update_of_ne same]
        exact ⟨rfl, rfl⟩
    · split at calls
      · cases calls
        rfl
      · cases calls

end SemCall

end UslossKernel
