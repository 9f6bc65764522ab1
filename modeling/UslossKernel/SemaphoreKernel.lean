import UslossKernel.SemaphoreBoxes
import UslossKernel.SemaphoreCounts

namespace UslossKernel

/-- The semaphores over the mailbox layer, used by system calls only. `inside`
is the system call whose mailbox call a process has not returned from. -/
structure SemKernel extends SemBoxes where
  inside : Pid → Option (SemOp × SemId)

/-- What can happen next; `other` is an action outside both layers. -/
inductive SemKernelAct
  | create (p : Pid) (initial_value : Int) (malloc : Bool)
  | call (p : Pid) (op : SemOp) (index : Int)
  | resume (p : Pid)
  | other (a : Act)
deriving DecidableEq, Repr

def SemKernelAct.pid : SemKernelAct → Pid
  | .create p _ _ | .call p _ _ | .resume p => p
  | .other a => a.pid

namespace SemKernel

def boot : SemKernel where
  toSemBoxes := .boot
  inside _ := none

/-- `p` has run on in the mailbox layer, inside a system call if it is given,
and leaves that with the mailbox call. -/
def ran (k : SemKernel) (p : Pid) (call : Option (SemOp × SemId)) (boxes : SemBoxes) : SemKernel where
  toSemBoxes := boxes
  inside := Function.update k.inside p (if boxes.sys.proc p = .outside then none else call)

def step (k : SemKernel) : SemKernelAct → Option SemKernel
  | .create p initial_value malloc =>
    (k.toSemBoxes.step (.create p (.sys_semcreate initial_value) malloc)).map fun boxes =>
      { k with toSemBoxes := boxes }
  | .call p op index =>
    (k.toSemBoxes.step (.call p (.sys op) index)).map fun boxes =>
      match ((SemCall.sys op).start k.sems index).2 with
      | .calls i => k.ran p (some (op, i)) boxes
      | _ => { k with toSemBoxes := boxes }
  | .resume p => (k.toSemBoxes.step (.mailbox (.resume p))).map (k.ran p (k.inside p))
  | .other (.call ..) | .other (.resume _) => none
  | .other a => (k.toSemBoxes.step (.mailbox a)).map fun boxes => { k with toSemBoxes := boxes }

/-- Where a process is, as seen from the semaphores. -/
def place (k : SemKernel) (p : Pid) : CallPlace SemOp :=
  match k.inside p with
  | none => .outside
  | some (op, i) => if (k.sys.proc p).suspended then .suspended op i else .runnable op i

/-- `MboxCreate` succeeds. Where `sys_semv` signals, the pointer of the mailbox
names a process suspended in `sys_semp` on that semaphore. -/
structure Signals (k : SemKernel) (a : SemKernelAct) : Prop where
  created : ∀ p initial_value malloc, a = .create p initial_value malloc →
    malloc = true ∧ k.sys.globals.firstInactive ≠ none
  pointed : ∀ p index i, a = .call p .semv index → (k.sems.sysSemv index).2 = .calls i →
    ∀ m : MboxId, (k.sems i).mboxID = (m : Nat) → ∃ entry, (k.sys.globals.mailboxes m).consumers = some entry ∧
      k.place (k.sys.globals.shadowProcesses entry) = .suspended .semp i

end SemKernel

theorem mboxCreate_blockedProducers (g : Globals) (numSlots slotSize : Int) (malloc : Bool) :
    (mboxCreate g numSlots slotSize malloc).1.blockedProducers = g.blockedProducers := by
  unfold mboxCreate
  split
  · rfl
  · split
    · rfl
    · split <;> rfl

namespace Sys

variable {s : Sys} {p : Pid} {m : MboxId}

theorem step_recvZero (may : s.mayRun p = true) (out : s.proc p = .outside)
    (active : (s.globals.mailboxes m).isActive = true) (zero : (s.globals.mailboxes m).numSlots = 0)
    (none : s.globals.blockedProducers m = []) (buffer : Buffer) (size : 0 ≤ buffer.msg_max_size) :
    s.step (.call p (.recv (m : Nat) buffer)) =
      some (s.after p (.start (.recv (m : Nat) buffer)) (awaitMessage s.globals p m, .blocks (.recvZero m))) := by
  have found : s.globals.activeMbox (m : Nat) = some m := Globals.activeMbox_eq_some.mpr ⟨rfl, active⟩
  have runs : mboxRecv s.globals p (m : Nat) buffer = (awaitMessage s.globals p m, .blocks (.recvZero m)) := by
    simp only [mboxRecv, found, zero, none, if_neg (not_lt.mpr size), if_true]
  rw [step, if_pos ⟨may, out⟩, run, Point.exec, Call.start, runs]

theorem step_sendZero (may : s.mayRun p = true) (out : s.proc p = .outside)
    (active : (s.globals.mailboxes m).isActive = true) (zero : (s.globals.mailboxes m).numSlots = 0) {entry : Nat}
    (pointed : (s.globals.mailboxes m).consumers = some entry) :
    s.step (.call p (.send (m : Nat) none 0)) = some (s.after p (.start (.send (m : Nat) none 0))
      (s.globals, .unblocks (s.globals.shadowProcesses entry) (.sendMatched m))) := by
  have found : s.globals.activeMbox (m : Nat) = some m := Globals.activeMbox_eq_some.mpr ⟨rfl, active⟩
  have accepted : s.globals.accepts m none 0 = true := by simp [Globals.accepts]
  have runs : mboxSend s.globals p (m : Nat) none 0 =
      (s.globals, .unblocks (s.globals.shadowProcesses entry) (.sendMatched m)) := by
    simp [mboxSend, found, accepted, zero, pointed]
  rw [step, if_pos ⟨may, out⟩, run, Point.exec, Call.start, runs]

end Sys

namespace SemKernel

variable {k k' : SemKernel} {p : Pid}

theorem step_create {initial_value : Int} {malloc : Bool} (moves : k.step (.create p initial_value malloc) = some k') :
    (k.sys.mayRun p = true ∧ k.sys.proc p = .outside) ∧
      (k' = { k with toSemBoxes := k.keepsCpu p } ∨
        ∃ i sys, k.sems.firstUnused initial_value = some i ∧ k.sys.step (.call p (.create 0 0 malloc)) = some sys ∧
          k' = { k with sys, sems := k.sems.sysSemcreate i initial_value (k.newMbox malloc) }) := by
  obtain ⟨boxes, moved, rfl⟩ := Option.map_eq_some_iff.mp moves
  obtain ⟨runs, cases⟩ := SemBoxes.create_cases moved
  refine ⟨runs, cases.imp (fun same => by rw [same]) ?_⟩
  rintro ⟨i, sys, found, ran, rfl⟩
  exact ⟨i, sys, found, ran, rfl⟩

theorem step_call {op : SemOp} {index : Int} (moves : k.step (.call p op index) = some k') :
    (k.sys.mayRun p = true ∧ k.sys.proc p = .outside) ∧
      (((∀ i, ((SemCall.sys op).start k.sems index).2 ≠ .calls i) ∧ k' = { k with
          toSemBoxes := { k.keepsCpu p with sems := ((SemCall.sys op).start k.sems index).1 } }) ∨
        ∃ sems i sys, (SemCall.sys op).start k.sems index = (sems, .calls i) ∧
          k.sys.step (.call p ((SemCall.sys op).mailboxCall (sems i).mboxID)) = some sys ∧
          k' = k.ran p (some (op, i)) ⟨sys, sems⟩) := by
  obtain ⟨boxes, moved, rfl⟩ := Option.map_eq_some_iff.mp moves
  obtain ⟨runs, cases⟩ := SemBoxes.call_cases moved
  refine ⟨runs, cases.imp ?_ ?_⟩
  · rintro ⟨stays, rfl⟩
    refine ⟨stays, ?_⟩
    split
    · rename_i i calls
      exact (stays i calls).elim
    · rfl
  · rintro ⟨sems, i, sys, starts, ran, rfl⟩
    exact ⟨sems, i, sys, starts, ran, by simp only [starts]⟩

theorem step_resume (moves : k.step (.resume p) = some k') :
    ∃ sys, k.sys.step (.resume p) = some sys ∧ k' = k.ran p (k.inside p) ⟨sys, k.sems⟩ := by
  obtain ⟨boxes, moved, rfl⟩ := Option.map_eq_some_iff.mp moves
  obtain ⟨sys, ran, rfl⟩ := Option.map_eq_some_iff.mp moved
  exact ⟨sys, ran, rfl⟩

theorem step_other {a : Act} (moves : k.step (.other a) = some k') : (∀ p c, a ≠ .call p c) ∧ (∀ p, a ≠ .resume p) ∧
    ∃ sys, k.sys.step a = some sys ∧ k' = { k with sys } := by
  cases a with
  | call | resume => cases moves
  | yield | sleep | rouse =>
    obtain ⟨boxes, moved, rfl⟩ := Option.map_eq_some_iff.mp moves
    obtain ⟨sys, ran, rfl⟩ := Option.map_eq_some_iff.mp moved
    exact ⟨by rintro _ _ ⟨⟩, by rintro _ ⟨⟩, sys, ran, rfl⟩

/-- The places a process inside this system call can be at in the mailbox
layer: senders never wait. -/
inductive Located (sems : Sems) : Option (SemOp × SemId) → Proc → Prop
  | outside : Located sems none .outside
  | asleep : Located sems none .asleep
  | waits {i} {m : MboxId} : (sems i).in_use = true → (sems i).mboxID = (m : Nat) →
      Located sems (some (.semp, i)) (.blocked (.recvZero m))
  | woken {i} {m : MboxId} : (sems i).in_use = true → (sems i).mboxID = (m : Nat) →
      Located sems (some (.semp, i)) (.woken (.recvZero m))
  | signals {i} {m : MboxId} : (sems i).in_use = true → (sems i).mboxID = (m : Nat) →
      Located sems (some (.semv, i)) (.unblocking (.sendMatched m))

/-- Every semaphore has a zero-slot mailbox of its own, and no sender is recorded anywhere. -/
structure Backed (k : SemKernel) : Prop where
  mailbox : ∀ i, (k.sems i).in_use = true → ∃ m : MboxId, (k.sems i).mboxID = (m : Nat) ∧
    (k.sys.globals.mailboxes m).isActive = true ∧ (k.sys.globals.mailboxes m).numSlots = 0
  producers : ∀ m, k.sys.globals.blockedProducers m = []
  located : ∀ p, Located k.sems (k.inside p) (k.sys.proc p)

theorem Located.mono {sems sems' : Sems} {call : Option (SemOp × SemId)} {proc : Proc}
    (located : Located sems call proc)
    (keeps : ∀ j, (sems j).in_use = true → (sems' j).in_use = true ∧ (sems' j).mboxID = (sems j).mboxID) :
    Located sems' call proc := by
  cases located with
  | outside => exact .outside
  | asleep => exact .asleep
  | waits used mboxID => exact .waits (keeps _ used).1 ((keeps _ used).2.trans mboxID)
  | woken used mboxID => exact .woken (keeps _ used).1 ((keeps _ used).2.trans mboxID)
  | signals used mboxID => exact .signals (keeps _ used).1 ((keeps _ used).2.trans mboxID)

/-- Nobody is suspended in `sys_semv`. -/
theorem Backed.place_ne_semv (backed : k.Backed) (q : Pid) (i : SemId) : k.place q ≠ .suspended .semv i := by
  have located := backed.located q
  unfold place
  generalize k.inside q = call at located
  generalize k.sys.proc q = proc at located
  cases located with
  | outside | asleep => simp
  | waits | woken => simp [Proc.suspended]
  | signals => simp [Proc.suspended]

theorem Backed.of_suspended (backed : k.Backed) {q : Pid} {i : SemId} {m : MboxId}
    (mboxID : (k.sems i).mboxID = (m : Nat)) (here : k.place q = .suspended .semp i) :
    k.inside q = some (.semp, i) ∧ k.sys.proc q = .blocked (.recvZero m) := by
  have located := backed.located q
  unfold place at here
  generalize k.inside q = call at located here
  generalize k.sys.proc q = proc at located here
  cases located with
  | outside | asleep => cases here
  | woken | signals => simp [Proc.suspended] at here
  | @waits j n _ other =>
    simp only [Proc.suspended, if_true, CallPlace.suspended.injEq, true_and] at here
    subst here
    have same : n = m := Fin.ext (by exact_mod_cast other.symm.trans mboxID)
    subst same
    exact ⟨rfl, rfl⟩

/-- A process at no place is in no system call. -/
theorem Backed.inside_of_outside (backed : k.Backed) (out : k.sys.proc p = .outside) : k.inside p = none := by
  have located := backed.located p
  rw [out] at located
  generalize k.inside p = call at located
  cases located
  rfl

/-- Only the process that runs changes its place. -/
theorem place_update {here : CallPlace SemOp} (inside : ∀ q, q ≠ p → k'.inside q = k.inside q)
    (proc : ∀ q, q ≠ p → k'.sys.proc q = k.sys.proc q) (becomes : k'.place p = here) :
    k'.place = Function.update k.place p here := by
  funext q
  by_cases same : q = p
  · subst same
    rw [Function.update_self, becomes]
  · rw [Function.update_of_ne same]
    simp only [place, inside q same, proc q same]

/-- The mailboxes stay as they are, but for pointers and recorded receivers. -/
theorem Backed.congr (backed : k.Backed)
    (keeps : ∀ j, (k'.sems j).in_use = (k.sems j).in_use ∧ (k'.sems j).mboxID = (k.sems j).mboxID)
    (status : ∀ m, (k'.sys.globals.mailboxes m).isActive = (k.sys.globals.mailboxes m).isActive ∧
      (k'.sys.globals.mailboxes m).numSlots = (k.sys.globals.mailboxes m).numSlots)
    (producers : k'.sys.globals.blockedProducers = k.sys.globals.blockedProducers)
    (located : ∀ p, Located k.sems (k'.inside p) (k'.sys.proc p)) : k'.Backed := by
  refine ⟨fun i used => ?_, fun m => ?_, fun p => ?_⟩
  · rw [(keeps i).1] at used
    obtain ⟨m, mboxID, active, zero⟩ := backed.mailbox i used
    exact ⟨m, (keeps i).2.trans mboxID, (status m).1.trans active, (status m).2.trans zero⟩
  · rw [producers]
    exact backed.producers m
  · exact (located p).mono fun j used => ⟨(keeps j).1.trans used, (keeps j).2⟩

end SemKernel

end UslossKernel
