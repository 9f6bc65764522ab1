import UslossKernel.ServiceCalls
import UslossKernel.TerminalWrites

namespace UslossKernel

/-- The operation in a service that has more variables and more places. -/
def Op.embed {σ τ σ' τ' : Type} (get : σ' → σ) (set : σ' → σ → σ') (place : τ → τ') : Op σ τ → Op σ' τ'
  | .idle => .idle
  | .call c next => .call c fun r s => ((next r (get s)).map (set s) place)
  | .blockMe next => .blockMe fun s => (next (get s)).map (set s) place
  | .unblockProc pid next => .unblockProc pid fun s => (next (get s)).map (set s) place
  | .go next => .go fun s => (next (get s)).map (Prod.map (set s) place)

namespace Phase4a

/-- `USLOSS_DEV_READY`, `USLOSS_DEV_BUSY` and `USLOSS_DEV_ERROR` -/
inductive DevStatus
  | ready
  | busy
  | error
deriving DecidableEq, Repr

/-- A status as `USLOSS_TERM_STAT_CHAR` and `USLOSS_TERM_STAT_RECV` take it apart. -/
structure TermStatus where
  recvChar : UInt8
  recvStatus : DevStatus
deriving DecidableEq, Repr

/-- The terminals with the library that phase 4 is linked against: what an
interrupt of a unit does, and what `waitDevice(USLOSS_TERM_DEV, unit, &status)`
gives. A call that gives nothing waits. -/
structure WaitDevice (δ : Type) where
  interrupt : δ → TermUnit → TermStatus → δ
  waitDevice : δ → TermUnit → Option (TermStatus × δ)

/-- The variables of one of the four `TermDriver`s; of `currLine` the first
`currLen` characters. -/
structure TermDriver where
  number : Fin maxTerms
  unit : TermUnit
  currLine : Message
deriving DecidableEq, Repr

/-- A line that a driver has sent, and whether it has got through. -/
structure Line where
  mbox : MboxId
  currLine : Message
  kept : Bool
deriving DecidableEq, Repr

/-- A call of `sys_term_read` that has passed the checks: its number and its
`userBufSize`. -/
structure ReadCall where
  number : Nat
  userBufSize : Int
deriving DecidableEq, Repr

/-- A call of `sys_term_read` that has come to its end. -/
structure Read where
  call : ReadCall
  userBuf : Message
  ret : Sysreturn
deriving DecidableEq, Repr

/-- Where a process stands in `TermDriver`, in `sys_term_read` or in
`sys_term_write`. -/
inductive TermTask
  | outside
  | waiting (d : TermDriver)
  | sending (d : TermDriver)
  | reading (unit : TermUnit) (call : ReadCall)
  | writing (place : Writer)
deriving DecidableEq, Repr

/-- What the terminals have to give out, and what they have got. The other
fields are history: the statuses that have come in, those that drivers have
been given, the lines of each driver, the number of calls of `sys_term_read`,
the reads of each unit, and what `sys_term_read` has left where its arguments
did not pass the check. -/
structure TermState (δ : Type) where
  device : δ
  terminals : Terminals
  arrived : List (TermUnit × TermStatus)
  given : List (Fin maxTerms × TermUnit × TermStatus)
  completed : Fin maxTerms → List Line
  begun : Nat
  reads : TermUnit → List Read
  refused : List Sysreturn

/-- The two calls of the terminals. -/
inductive TermCall
  | read (args : TermArgs)
  | write (args : TermArgs)
deriving DecidableEq, Repr

def newline : UInt8 := 10

/-- The C string that begins these bytes. -/
def text (bytes : Message) : Message :=
  bytes.takeWhile fun byte => byte ≠ 0

def strlen (bytes : Message) : Nat :=
  (text bytes).length

/-- The body of the loop of `TermDriver`, with what `waitDevice` gave. -/
def TermDriver.receive (d : TermDriver) (status : TermStatus) : TermTask :=
  if status.recvStatus = .busy then
    let currLine := d.currLine ++ [status.recvChar]
    if status.recvChar = newline ∨ currLine.length = maxLine then .sending { d with currLine }
    else .waiting { d with currLine }
  else .waiting d

/-- `MboxCondSend(termBuffers[unit].lineReadyMbox, currLine, strlen(currLine) + 1)`,
the line terminated. -/
def lineSend (unit : TermUnit) (currLine : Message) : Call :=
  .condSend (lineReadyMbox unit).val (some (currLine ++ [0])) (strlen (currLine ++ [0]) + 1 : Nat)

/-- What follows the `MboxRecv` of `sys_term_read`. -/
def copyLine (call : ReadCall) (r : Result) : Read :=
  if r.ret < 0 then ⟨call, [], ⟨none, -1⟩⟩
  else
    let len : Int := if call.userBufSize < strlen r.buf then call.userBufSize else strlen r.buf
    ⟨call, r.buf.take len.toNat, ⟨some len, 0⟩⟩

/-- The place of a process in `sys_term_write` among the places of all. -/
def TermTask.ofWriter : Writer → TermTask
  | .outside => .outside
  | place => .writing place

section

variable {δ : Type}

namespace TermState

/-- The driver is given a status. -/
def give (t : TermState δ) (d : TermDriver) (status : TermStatus) (device : δ) : TermState δ :=
  { t with device, given := t.given ++ [(d.number, d.unit, status)] }

/-- The read is over. -/
def copied (t : TermState δ) (unit : TermUnit) (read : Read) : TermState δ :=
  { t with reads := Function.update t.reads unit (t.reads unit ++ [read]) }

@[simp] theorem copied_reads (t : TermState δ) (unit : TermUnit) (read : Read) :
    (t.copied unit read).reads = Function.update t.reads unit (t.reads unit ++ [read]) := rfl

end TermState

/-- After the `MboxCondSend`. A line that does not get through is dropped. -/
def TermDriver.sent (d : TermDriver) (r : Result) (t : TermState δ) : TermState δ × TermTask :=
  let line : Line := ⟨lineReadyMbox d.unit, d.currLine, decide (0 ≤ r.ret)⟩
  ({ t with completed := Function.update t.completed d.number (t.completed d.number ++ [line]) },
    .waiting { d with currLine := [] })

/-- `sys_term_read` up to its `MboxRecv`. -/
def sys_term_read (t : TermState δ) (args : TermArgs) : TermState δ × TermTask :=
  match args.check with
  | none => ({ t with refused := t.refused ++ [⟨none, -1⟩] }, .outside)
  | some unit => ({ t with begun := t.begun + 1 }, .reading unit ⟨t.begun, args.userBufSize⟩)

variable (W : WaitDevice δ)

/-- What follows in `TermDriver`, `sys_term_read` and `sys_term_write`. The
`waitDevice` of `sys_term_write` takes a status as well. -/
def TermTask.op : TermTask → Op (TermState δ) TermTask
  | .outside => .idle
  | .waiting d => .go fun t => (W.waitDevice t.device d.unit).map fun (status, device) =>
      (t.give d status device, d.receive status)
  | .sending d => .call (lineSend d.unit d.currLine) d.sent
  | .reading unit call => .call (.recv (lineReadyMbox unit).val ⟨true, (maxLine + 1 : Nat)⟩) fun r t =>
      (t.copied unit (copyLine call r), .outside)
  | .writing (.waiting w i) => .go fun t => (W.waitDevice t.device w.unit).map fun (_, device) =>
      ({ t with device }, .ofWriter (.loop w (i + 1)))
  | .writing place => place.op.embed TermState.terminals (fun t terminals => { t with terminals }) .ofWriter

/-- The variables of the driver that a process runs. -/
def TermTask.driver : TermTask → Option TermDriver
  | .waiting d | .sending d => some d
  | .outside | .reading .. | .writing _ => none

/-- The unit a process writes to. -/
def TermTask.writesTo : TermTask → Option TermUnit
  | .writing place => place.write.map Write.unit
  | .outside | .waiting _ | .sending _ | .reading .. => none

/-- The two system calls. -/
def TermCall.begin (t : TermState δ) : TermCall → TermState δ × TermTask
  | .read args => sys_term_read t args
  | .write args => (sys_term_write t.terminals args).map (fun terminals => { t with terminals }) .ofWriter

/-- Whether the CPU can be taken from the process here: a driver can be
preempted anywhere, a system call only gives it up by itself. -/
def TermTask.yields : TermTask → Bool
  | .waiting _ | .sending _ => true
  | .writing place => place.waits
  | .outside | .reading .. => false

def terminals : Routines (TermState δ) TermTask TermCall (TermUnit × TermStatus) where
  op := TermTask.op W
  invoke _ t call := some (call.begin t)
  yields := TermTask.yields
  event t e := { t with device := W.interrupt t.device e.1 e.2, arrived := t.arrived ++ [e] }

/-- The terminals when the four drivers start, each with its `arg`. -/
def startTerminals (device : δ) (drivers : Fin maxTerms ↪ Pid) (arg : Fin maxTerms → TermUnit) :
    Client (TermState δ) TermTask :=
  start ⟨device, ⟨fun _ => [], [], []⟩, [], [], fun _ => [], 0, fun _ => [], []⟩ fun p =>
    match (List.finRange maxTerms).find? fun i => drivers i = p with
    | some i => .waiting ⟨i, arg i, []⟩
    | none => .outside

end

/-- The `arg` that every `spork` of a `TermDriver` passes. -/
def nullArg : Fin maxTerms → TermUnit := fun _ => 0

/-- The characters among the statuses. -/
def characters (statuses : List TermStatus) : List UInt8 :=
  (statuses.filter fun status => status.recvStatus = .busy).map TermStatus.recvChar

namespace TermState

variable {δ : Type}

/-- The characters that have come in on the unit. -/
def received (t : TermState δ) (unit : TermUnit) : List UInt8 :=
  characters ((t.arrived.filter fun e => e.1 = unit).map Prod.snd)

/-- The characters that the driver has been given. -/
def consumedBy (t : TermState δ) (i : Fin maxTerms) : List UInt8 :=
  characters ((t.given.filter fun entry => entry.1 = i).map fun entry => entry.2.2)

end TermState

end Phase4a

end UslossKernel
