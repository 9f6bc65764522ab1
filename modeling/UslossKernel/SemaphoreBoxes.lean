import UslossKernel.Semaphores
import UslossKernel.Transfers

namespace UslossKernel

/-- The mailboxes when `phase3_init` has made `mbox_lock_id`. -/
@[irreducible] def phase3Init : Globals :=
  (mboxCreate phase2Init 0 0 true).1

/-- What a call that returns at once returns. -/
def Outcome.ret : Outcome → Int
  | .returns r => r.ret
  | _ => -1

@[simp] theorem returnCode_ret (g : Globals) (code : Int) : (returnCode g code).2.ret = code := rfl

/-- What a creation reports: `arg4` or the return value, and the semaphore it
stores in `arg1` or in `*semaphore`. -/
structure SemReport where
  code : Int
  semaphore : Option SemId
deriving DecidableEq, Repr

/-- The table it leaves and what it reports, where `mboxID` is what
`MboxCreate(0, 0)` returns if it is called. Nothing looks at that. -/
def SemCreation.finish (sems : Sems) (mboxID : Int) (creation : SemCreation) : Sems × SemReport :=
  match creation.entry sems with
  | none => (sems, ⟨-1, none⟩)
  | some i => (sems.sysSemcreate i creation.value mboxID, ⟨0, some i⟩)

/-- `MboxRecv(mboxID, NULL, 0)` or `MboxSend(mboxID, NULL, 0)` -/
def SemCall.mailboxCall (mboxID : Int) (call : SemCall) : Call :=
  if call.sends then .send mboxID none 0 else .recv mboxID ⟨false, 0⟩

/-- The semaphores over the whole mailbox layer. -/
structure SemBoxes where
  sys : Sys
  sems : Sems

/-- What can happen next; `mailbox` is anything else in the mailbox layer, also
that a process runs on inside a semaphore call. -/
inductive SemBoxAct
  | create (p : Pid) (creation : SemCreation) (malloc : Bool)
  | call (p : Pid) (call : SemCall) (index : Int)
  | mailbox (a : Act)
deriving DecidableEq, Repr

namespace SemBoxes

def boot : SemBoxes where
  sys := { Sys.boot with globals := phase3Init }
  sems := .init

/-- What `MboxCreate(0, 0)` returns now. -/
def newMbox (s : SemBoxes) (malloc : Bool) : Int :=
  (mboxCreate s.sys.globals 0 0 malloc).2.ret

/-- `p` comes back from a call that has called no mailbox. -/
def keepsCpu (s : SemBoxes) (p : Pid) : SemBoxes :=
  { s with sys := { s.sys with cpu := some p } }

def step (s : SemBoxes) : SemBoxAct → Option SemBoxes
  | .create p creation malloc =>
    if s.sys.mayRun p ∧ s.sys.proc p = .outside then
      match creation.entry s.sems with
      | none => some (s.keepsCpu p)
      | some _ => (s.sys.step (.call p (.create 0 0 malloc))).map fun sys =>
        { sys, sems := (creation.finish s.sems (s.newMbox malloc)).1 }
    else none
  | .call p call index =>
    if s.sys.mayRun p ∧ s.sys.proc p = .outside then
      match call.start s.sems index with
      | (sems, .calls i) => (s.sys.step (.call p (call.mailboxCall (sems i).mboxID))).map fun sys => { sys, sems }
      | (sems, _) => some { s.keepsCpu p with sems }
    else none
  | .mailbox a => (s.sys.step a).map fun sys => { s with sys }

variable {s s' : SemBoxes} {p : Pid}

/-- A creation finds no entry, or goes on to `MboxCreate`. -/
theorem create_cases {creation : SemCreation} {malloc : Bool} (moves : s.step (.create p creation malloc) = some s') :
    (s.sys.mayRun p = true ∧ s.sys.proc p = .outside) ∧
      (s' = s.keepsCpu p ∨
        ∃ i sys, creation.entry s.sems = some i ∧ s.sys.step (.call p (.create 0 0 malloc)) = some sys ∧
          s' = ⟨sys, s.sems.sysSemcreate i creation.value (s.newMbox malloc)⟩) := by
  simp only [step, Option.ite_none_right_eq_some] at moves
  obtain ⟨runs, moves⟩ := moves
  refine ⟨runs, ?_⟩
  split at moves
  · exact .inl (Option.some.inj moves).symm
  · rename_i i found
    obtain ⟨sys, moved, rfl⟩ := Option.map_eq_some_iff.mp moves
    exact .inr ⟨i, sys, found, moved, by rw [SemCreation.finish, found]⟩

/-- A call needs no mailbox, or goes on to that of its semaphore. -/
theorem call_cases {call : SemCall} {index : Int} (moves : s.step (.call p call index) = some s') :
    (s.sys.mayRun p = true ∧ s.sys.proc p = .outside) ∧
      (((∀ i, (call.start s.sems index).2 ≠ .calls i) ∧
          s' = { s.keepsCpu p with sems := (call.start s.sems index).1 }) ∨
        ∃ sems i sys, call.start s.sems index = (sems, .calls i) ∧
          s.sys.step (.call p (call.mailboxCall (sems i).mboxID)) = some sys ∧ s' = ⟨sys, sems⟩) := by
  simp only [step, Option.ite_none_right_eq_some] at moves
  obtain ⟨runs, moves⟩ := moves
  refine ⟨runs, ?_⟩
  split at moves
  · rename_i sems i starts
    obtain ⟨sys, moved, rfl⟩ := Option.map_eq_some_iff.mp moves
    exact .inr ⟨sems, i, sys, starts, moved, rfl⟩
  · rename_i sems outcome other starts
    refine .inl ⟨fun i calls => ?_, ?_⟩
    · rw [starts] at calls
      exact other i calls
    · rw [starts]
      exact (Option.some.inj moves).symm

end SemBoxes

end UslossKernel
