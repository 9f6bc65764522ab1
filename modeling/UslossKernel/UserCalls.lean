import Mathlib.Data.BitVec
import UslossKernel.Deadlocks
import UslossKernel.PidOrder

namespace UslossKernel.Phase3

open Phase1b

/-- `(void*)(long)value` of an `int`. -/
def pointer (value : BitVec 32) : BitVec 64 := value.signExtend 64

/-- `(int)(long)arg` -/
def int (arg : BitVec 64) : BitVec 32 := arg.setWidth 32

/-- What is put into an argument is what is read from it. -/
@[simp] theorem int_pointer (value : BitVec 32) : int (pointer value) = value := by
  ext i bound
  simp only [int, pointer, BitVec.getElem_setWidth, BitVec.getLsbD_signExtend]
  simp [bound]
  omega

/-- `USLOSS_Sysargs` -/
structure Sysargs where
  number : Nat
  arg1 : BitVec 64
  arg2 : BitVec 64
  arg3 : BitVec 64
  arg4 : BitVec 64
  arg5 : BitVec 64
deriving DecidableEq, Repr

/-- `memset(&args, 0, sizeof(args)); args.number = number` -/
def Sysargs.cleared (number : Nat) : Sysargs := ⟨number, 0, 0, 0, 0, 0⟩

/-- `functionArgs` -/
structure FunctionArgs where
  function : BitVec 64
  argument : BitVec 64
deriving DecidableEq, Repr

/-- A system call of a user process, or the return of its function to
`trampoline`. `wrapper` says whether the `malloc` in `sys_spawn` succeeds.
`other` is a system call for semaphores, the clock or a terminal. -/
inductive UserCall
  | Spawn (name func arg : BitVec 64) (stack_size priority : BitVec 32) (wrapper : Bool)
  | Wait
  | Terminate (status : BitVec 32)
  | GetPID
  | other
  | returns (ret : BitVec 32)
deriving DecidableEq, Repr

/-- `Spawn` before `USLOSS_Syscall`. -/
def Spawn (name func arg : BitVec 64) (stack_size priority : BitVec 32) : Sysargs :=
  { Sysargs.cleared 3 with
    arg1 := func
    arg2 := arg
    arg3 := pointer stack_size
    arg4 := pointer priority
    arg5 := name }

def Wait : Sysargs := .cleared 4

def Terminate (status : BitVec 32) : Sysargs := { Sysargs.cleared 5 with arg1 := pointer status }

def GetPID : Sysargs := .cleared 22

/-- The `spork` in `sys_spawn`. -/
def sys_spawn (args : Sysargs) (malloc : Bool) : Phase1b.Call :=
  .spork true true malloc (int args.arg3).toInt (int args.arg4).toInt

/-- `sys_spawn` when `spork` has returned. -/
def sys_spawnReturn (args : Sysargs) (retval : Int) : Sysargs :=
  { args with arg1 := pointer (.ofInt 32 retval), arg4 := 0 }

/-- `sys_wait` when `join` has returned; without a child `status` is still 0. -/
def sys_waitReturn (args : Sysargs) (retval : Int) (status : Option Int) : Sysargs :=
  { args with
    arg2 := pointer (.ofInt 32 (status.getD 0))
    arg1 := pointer (.ofInt 32 retval)
    arg4 := if retval = -2 then pointer (-2) else 0 }

def sys_getpid (args : Sysargs) (pid : Int) : Sysargs :=
  { args with arg1 := pointer (.ofInt 32 pid) }

/-- A process inside a system call, with the block of arguments. For `sys_spawn`
also the address of the wrapper, for `sys_terminate` what its last `join` has returned. -/
inductive Syscall
  | spawn (args : Sysargs) (wrapper : Nat)
  | wait (args : Sysargs)
  | terminate (args : Sysargs) (retval : Option Int)
  | other
deriving DecidableEq, Repr

/-- The calls of phase 1 that the handlers of the other system calls come to. -/
def waitsOrWakes : Phase1b.Call → Bool
  | .blockMe | .unblockProc _ | .dispatcher => true
  | _ => false

/-- Whether the handler may make this call of phase 1 next. -/
def Syscall.makes : Syscall → Phase1b.Call → Prop
  | .spawn args _, call => ∃ malloc, call = sys_spawn args malloc
  | .wait _, call => call = .join true
  | .terminate args retval, call => call = sys_terminate (int args.arg1).toInt retval
  | .other, call => waitsOrWakes call = true

instance (c : Syscall) (call : Phase1b.Call) : Decidable (c.makes call) :=
  match c with
  | .spawn args _ => inferInstanceAs (Decidable (∃ malloc, call = sys_spawn args malloc))
  | .wait _ => inferInstanceAs (Decidable (call = .join true))
  | .terminate args retval => inferInstanceAs (Decidable (call = sys_terminate (int args.arg1).toInt retval))
  | .other => inferInstanceAs (Decidable (waitsOrWakes call = true))

/-- What the user processes see and do. `created` is a process made by `sys_spawn`. -/
inductive UserEvent
  | created (parent child : Int) (f : FunctionArgs)
  | spawned (parent : Int) (f : FunctionArgs) (pid ret : BitVec 32)
  | started (pid : Int) (f : FunctionArgs)
  | waited (parent : Int) (pid status ret : BitVec 32)
  | ended (pid : Int) (status : BitVec 32)
  | reaped (parent child : Int)
  | gotPid (pid : Int) (value : BitVec 32)
deriving DecidableEq, Repr

/-- The processes, some of which run user code that makes system calls only.
Those that do not concern processes are known by what they call of phase 1.
`arg` is the address that `spork` has been given for a process, `heap` holds the
wrappers that are allocated. The log is history, newest event first. -/
structure Users where
  machine : Machine
  user : Slot → Bool
  arg : Slot → Option Nat
  call : Slot → Option Syscall
  heap : Nat → Option FunctionArgs
  mallocs : Nat
  log : List UserEvent

/-- A turn of a process in kernel mode, which says of the process it may create
whether that is put into user mode at once; a user process makes a call, or its
handler makes its next one, or it runs on within one, or returns to user code. -/
inductive UserAct
  | kernel (t : Turn) (user : Bool)
  | call (p : Slot) (c : UserCall)
  | handler (p : Slot) (call : Phase1b.Call)
  | resume (p : Slot)
  | leave (p : Slot)
deriving DecidableEq, Repr

/-- What a turn returns to its process, with the status that a `join` stores. -/
def reply (m m' : Machine) : Option (Int × Option Int) :=
  if m'.log.length ≤ m.log.length then none
  else match m'.log.head? with
    | some (.returned _ _ value status) => some (value, status)
    | _ => none

namespace Users

def boot : Users where
  machine := Machine.boot
  user _ := false
  arg _ := none
  call _ := none
  heap _ := none
  mallocs := 0
  log := []

/-- The entry is taken in a turn. -/
def taken (m m' : Machine) (i : Slot) : Bool :=
  !m.kernel.occupied i && m'.kernel.occupied i

/-- The state after a turn of the machine; a new process is a user process or
not and has been given an argument. -/
def become (s : Users) (m : Machine) (user : Bool) (arg : Option Nat) : Users :=
  { s with
    machine := m
    user := fun i => if taken s.machine m i then user else s.user i
    arg := fun i => if taken s.machine m i then arg else s.arg i
    call := fun i => if taken s.machine m i then none else s.call i }

def record (s : Users) (e : UserEvent) : Users := { s with log := e :: s.log }

def setCall (s : Users) (p : Slot) (c : Option Syscall) : Users :=
  { s with call := Function.update s.call p c }

/-- The use of a wrapper that is not allocated. -/
def crash (s : Users) : Users := { s with machine := s.machine.stop .crashed }

/-- `p` enters `Terminate`. -/
def terminates (s : Users) (p : Slot) (status : BitVec 32) : Users :=
  (s.record (.ended (s.machine.pid p) status)).setCall p (some (.terminate (Terminate status) none))

/-- A user process in its own code makes a call. -/
def enter (s : Users) (p : Slot) : UserCall → Users
  | .Spawn name func arg stack_size priority wrapper =>
    let args := Spawn name func arg stack_size priority
    if wrapper then
      { s with
        heap := Function.update s.heap s.mallocs (some ⟨args.arg1, args.arg2⟩)
        mallocs := s.mallocs + 1
        call := Function.update s.call p (some (.spawn args s.mallocs)) }
    else s.crash
  | .Wait => s.setCall p (some (.wait Wait))
  | .Terminate status => s.terminates p status
  | .other => s.setCall p (some .other)
  | .GetPID => s.record (.gotPid (s.machine.pid p) (int (sys_getpid GetPID (s.machine.pid p)).arg1))
  | .returns ret => match s.arg p with
    | none => s.terminates p ret
    | some wrapper => match s.heap wrapper with
      | none => s.crash
      | some _ => { s with heap := Function.update s.heap wrapper none }.terminates p ret

/-- `trampoline` in a new process, which `m` is the machine after. -/
def begin (s : Users) (p : Slot) (m : Machine) : Users :=
  let s := { s with machine := m }
  match s.arg p with
  | none => s
  | some wrapper => match s.heap wrapper with
    | none => s.crash
    | some f => s.record (.started (m.pid p) f)

/-- The process that `sys_spawn` has created. -/
def creates (s : Users) (p : Slot) (m : Machine) : Syscall → Users
  | .spawn args wrapper =>
    { s.become m true (some wrapper) with
      log := ((List.finRange maxProc).filter (taken s.machine m)).map
        (fun i => .created (s.machine.pid p) (m.pid i) ⟨args.arg1, args.arg2⟩) ++ s.log }
  | _ => s.become m true none

/-- The handler goes on when its call has returned. -/
def answered (s : Users) (p : Slot) (value : Int) (status : Option Int) : Syscall → Users
  | .spawn args _ =>
    let args' := sys_spawnReturn args value
    (s.record (.spawned (s.machine.pid p) ⟨args.arg1, args.arg2⟩ (int args'.arg1) (int args'.arg4))).setCall p none
  | .wait args =>
    let args' := sys_waitReturn args value status
    (s.record (.waited (s.machine.pid p) (int args'.arg1) (int args'.arg2) (int args'.arg4))).setCall p none
  | .terminate args _ =>
    (if 0 < value then s.record (.reaped (s.machine.pid p) value) else s).setCall p
      (some (.terminate args (some value)))
  | .other => s.setCall p (some .other)

/-- A turn of `p` inside a system call, which `m` is the machine after. -/
def within (s : Users) (p : Slot) (c : Syscall) (m : Machine) : Users :=
  match reply s.machine m with
  | none => s.creates p m c
  | some (value, status) => (s.creates p m c).answered p value status c

/-- The user process is in no call of phase 1. -/
def outside (s : Users) (p : Slot) : Bool :=
  s.machine.stopped.isNone && s.machine.live p && s.machine.place p = .user && s.user p

def step (s : Users) : UserAct → Option Users
  | .kernel t user =>
    if s.user t.process = true then none else (s.machine.turn t).map fun m => s.become m user none
  | .call p c => if s.outside p ∧ s.call p = none then some (s.enter p c) else none
  | .handler p call => match s.call p with
    | none => none
    | some c =>
      if s.user p = true ∧ c.makes call then (s.machine.turn (.call p call)).map (s.within p c) else none
  | .resume p =>
    if s.user p = false then none
    else match s.machine.place p, s.call p with
    | .fresh, _ => (s.machine.turn (.resume p)).map (s.begin p)
    | _, some c => (s.machine.turn (.resume p)).map (s.within p c)
    | _, none => none
  | .leave p => if s.outside p ∧ s.call p = some .other then some (s.setCall p none) else none

/-- The states of the runs in which fewer than 2^31 pids are drawn. -/
abbrev Reached (s : Users) : Prop :=
  Transition.Run step (fun s _ => s.machine.kernel.next_pid + 3 ≤ 2 ^ 31) boot s

end Users

end UslossKernel.Phase3
