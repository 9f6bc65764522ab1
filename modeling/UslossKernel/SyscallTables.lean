import Mathlib.Algebra.GroupWithZero.Nat
import Mathlib.Logic.Function.Basic

namespace UslossKernel

/-- The value that a sequence of stores leaves under a key, if it stores one. -/
def lastStored {κ V : Type*} [DecidableEq κ] (stores : List (κ × V)) (key : κ) : Option V :=
  (stores.reverse.find? fun entry => entry.1 = key).map Prod.snd

theorem lastStored_cons {κ V : Type*} [DecidableEq κ] (entry : κ × V) (stores : List (κ × V)) (key : κ) :
    lastStored (entry :: stores) key = (lastStored stores key).or (if entry.1 = key then some entry.2 else none) := by
  unfold lastStored
  rw [List.reverse_cons, List.find?_append, List.find?_singleton]
  cases stores.reverse.find? fun entry => decide (entry.1 = key) with
  | some found => rfl
  | none =>
    rw [Option.none_or]
    by_cases here : entry.1 = key
    · simp [here]
    · simp [here]

/-- `MAXSYSCALLS`, which is also `MAX_SYSCALLS`. -/
def maxSyscalls : Nat := 50

abbrev SyscallNo := Fin maxSyscalls

instance : NeZero maxSyscalls := ⟨by decide⟩

/-- The functions whose addresses are put into the system-call tables. -/
inductive SyscallFn
  | nullsys
  | sys_spawn
  | sys_wait
  | sys_terminate
  | sys_semcreate
  | sys_semp
  | sys_semv
  | sys_gettime
  | sys_getpid
  | sys_sleep
  | sys_term_read
  | sys_term_write
  | other (address : Nat)
deriving DecidableEq, Repr

/-- The functions whose addresses are put into `USLOSS_IntVec`. -/
inductive IntFn
  | syscall_handler
  | interrupt_handler
  | clock_interrupt_handler
deriving DecidableEq, Repr

/-- The interrupts that `phase2.c` handles. -/
inductive Interrupt
  | clock
  | syscall
deriving DecidableEq, Repr

/-- What a system-call interrupt comes to. -/
inductive Dispatch
  | runs (fn : SyscallFn)
  | invalid
  | unhandled
deriving DecidableEq, Repr

/-- The tables of handlers; the entries are `NULL` before `phase2_init`. -/
structure SyscallTables where
  sys_vec : SyscallNo → Option SyscallFn
  systemCallVec : SyscallNo → Option SyscallFn
  intVec : Interrupt → Option IntFn

namespace SyscallTables

/-- `init_syscall_table` -/
def initSyscallTable (t : SyscallTables) : SyscallTables :=
  { t with sys_vec := fun _ => some .nullsys }

/-- `systemCallVec[number] = fn` -/
def register (t : SyscallTables) (number : SyscallNo) (fn : SyscallFn) : SyscallTables :=
  { t with systemCallVec := Function.update t.systemCallVec number (some fn) }

/-- `USLOSS_IntVec[interrupt] = fn` -/
def setIntVec (t : SyscallTables) (interrupt : Interrupt) (fn : IntFn) : SyscallTables :=
  { t with intVec := Function.update t.intVec interrupt (some fn) }

/-- What `phase2_init` does to these tables. -/
def phase2Init (t : SyscallTables) : SyscallTables :=
  let t := t.initSyscallTable
  let t := { t with sys_vec := Function.update t.sys_vec 0 (some .nullsys) }
  let t := (t.setIntVec .syscall .syscall_handler).setIntVec .clock .interrupt_handler
  let t := { t with systemCallVec := fun _ => some .nullsys }
  t.setIntVec .clock .clock_interrupt_handler

/-- What `phase3_init` registers. -/
def phase3Handlers : List (SyscallNo × SyscallFn) :=
  [(3, .sys_spawn), (4, .sys_wait), (5, .sys_terminate), (16, .sys_semcreate), (17, .sys_semp), (18, .sys_semv),
    (20, .sys_gettime), (22, .sys_getpid)]

/-- The numbers that `usyscall.h` gives to the calls of phase 4. -/
structure Phase4Numbers where
  SYS_SLEEP : SyscallNo
  SYS_TERMREAD : SyscallNo
  SYS_TERMWRITE : SyscallNo

/-- What `phase4_init` registers. -/
def phase4Handlers (numbers : Phase4Numbers) : List (SyscallNo × SyscallFn) :=
  [(numbers.SYS_SLEEP, .sys_sleep), (numbers.SYS_TERMREAD, .sys_term_read), (numbers.SYS_TERMWRITE, .sys_term_write)]

def registerAll (t : SyscallTables) (handlers : List (SyscallNo × SyscallFn)) : SyscallTables :=
  handlers.foldl (fun t entry => t.register entry.1 entry.2) t

/-- `syscall_handler` with `args->number`. -/
def syscallHandler (t : SyscallTables) (number : Int) : Dispatch :=
  if bounds : 0 ≤ number ∧ number < maxSyscalls then
    match t.sys_vec ⟨number.toNat, by omega⟩ with
    | none => .invalid
    | some fn => .runs fn
  else .invalid

/-- A system-call interrupt. -/
def syscallInterrupt (t : SyscallTables) (number : Int) : Dispatch :=
  match t.intVec .syscall with
  | some .syscall_handler => t.syscallHandler number
  | _ => .unhandled

end SyscallTables

/-- What can be done to the tables after `phase2_init`. -/
inductive Registration
  | phase3_init
  | phase4_init
  | store (number : SyscallNo) (fn : SyscallFn)
deriving DecidableEq, Repr

/-- The stores into `systemCallVec` this amounts to. -/
def Registration.stores (numbers : SyscallTables.Phase4Numbers) : Registration → List (SyscallNo × SyscallFn)
  | .phase3_init => SyscallTables.phase3Handlers
  | .phase4_init => SyscallTables.phase4Handlers numbers
  | .store number fn => [(number, fn)]

namespace SyscallTables

variable (numbers : Phase4Numbers)

/-- The tables after a sequence of initialisations and registrations. -/
def carryOut (t : SyscallTables) (log : List Registration) : SyscallTables :=
  log.foldl (fun t registration => t.registerAll (registration.stores numbers)) t

/-- The handler registered last for a number. -/
def registered (log : List Registration) (number : SyscallNo) : Option SyscallFn :=
  lastStored (log.flatMap fun registration => registration.stores numbers) number

variable {numbers} {t : SyscallTables} {number : SyscallNo} {handlers : List (SyscallNo × SyscallFn)}
  {log : List Registration}

theorem registerAll_systemCallVec :
    (t.registerAll handlers).systemCallVec number = (lastStored handlers number).or (t.systemCallVec number) := by
  induction handlers generalizing t with
  | nil => rfl
  | cons entry rest ih =>
    have step : t.registerAll (entry :: rest) = (t.register entry.1 entry.2).registerAll rest := rfl
    have stored : (t.register entry.1 entry.2).systemCallVec number =
        (if entry.1 = number then some entry.2 else none).or (t.systemCallVec number) := by
      simp only [register, Function.update_apply]
      by_cases here : number = entry.1
      · rw [if_pos here, if_pos here.symm, Option.some_or]
      · rw [if_neg here, if_neg (Ne.symm here), Option.none_or]
    rw [step, ih, stored, lastStored_cons, Option.or_assoc]

/-- Registering leaves the tables alone that the interrupt is dispatched by. -/
theorem registerAll_dispatch : (t.registerAll handlers).sys_vec = t.sys_vec ∧
    (t.registerAll handlers).intVec = t.intVec := by
  induction handlers generalizing t with
  | nil => exact ⟨rfl, rfl⟩
  | cons entry rest ih => exact @ih (t.register entry.1 entry.2)

theorem carryOut_eq_registerAll :
    t.carryOut numbers log = t.registerAll (log.flatMap fun registration => registration.stores numbers) := by
  unfold carryOut registerAll
  rw [List.foldl_flatMap]

/-- `systemCallVec` holds what was stored last, and `nullsys` where nothing was. -/
theorem carryOut_systemCallVec :
    (t.phase2Init.carryOut numbers log).systemCallVec number =
      some ((registered numbers log number).getD .nullsys) := by
  rw [carryOut_eq_registerAll, registerAll_systemCallVec, registered]
  cases lastStored _ number <;> rfl

/-- The interrupt runs `nullsys` whatever was registered. -/
theorem syscallInterrupt_eq :
    (t.phase2Init.carryOut numbers log).syscallInterrupt (number : Nat) = .runs .nullsys := by
  have vec : ∀ n, t.phase2Init.sys_vec n = some .nullsys := by
    intro n
    simp only [phase2Init, setIntVec, initSyscallTable, Function.update_apply, ite_self]
  have handler : t.phase2Init.intVec .syscall = some .syscall_handler := rfl
  obtain ⟨same, sameInt⟩ := @registerAll_dispatch t.phase2Init
    (log.flatMap fun registration => registration.stores numbers)
  have bounds : (0 : Int) ≤ (number : Nat) ∧ ((number : Nat) : Int) < maxSyscalls :=
    ⟨by omega, by exact_mod_cast number.isLt⟩
  rw [carryOut_eq_registerAll, syscallInterrupt, sameInt, handler]
  simp only [syscallHandler, same, dif_pos bounds, vec]

/-- What is registered for a number runs, and `nullsys` if nothing is, only
where nothing is registered. -/
theorem registered_runs_iff (t : SyscallTables) (numbers : Phase4Numbers) (log : List Registration)
    (number : SyscallNo) :
    ((∀ fn, (t.phase2Init.carryOut numbers log).systemCallVec number = some fn →
        (t.phase2Init.carryOut numbers log).syscallInterrupt (number : Nat) = .runs fn) ∧
      ((t.phase2Init.carryOut numbers log).syscallInterrupt (number : Nat) = .runs .nullsys ↔
        registered numbers log number = none)) ↔ registered numbers log number = none := by
  rw [syscallInterrupt_eq, carryOut_systemCallVec]
  constructor
  · rintro ⟨_, unregistered⟩
    exact unregistered.mp rfl
  · intro unregistered
    rw [unregistered]
    refine ⟨fun fn stored => ?_, iff_of_true rfl rfl⟩
    exact congrArg Dispatch.runs (Option.some.inj stored)

/-- The tables before `phase2_init`. -/
def zero : SyscallTables where
  sys_vec _ := none
  systemCallVec _ := none
  intVec _ := none

/-- After `phase3_init` number 3 stands for `sys_spawn`, but `nullsys` runs. -/
theorem spawn_not_run :
    (zero.phase2Init.carryOut ⟨12, 1, 2⟩ [.phase3_init]).systemCallVec 3 = some .sys_spawn ∧
      (zero.phase2Init.carryOut ⟨12, 1, 2⟩ [.phase3_init]).syscallInterrupt 3 = .runs .nullsys := by
  decide

end SyscallTables

end UslossKernel
