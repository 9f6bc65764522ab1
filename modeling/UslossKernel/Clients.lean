import UslossKernel.MailQueues

namespace UslossKernel

/-- The suspensions inside a call. -/
def Call.Waits (c : Call) : Wait → Prop
  | .sendZero m => ∃ msg_ptr msg_size, c = .send (m : Nat) msg_ptr msg_size
  | .sendFull m msg => ∃ msg_ptr msg_size, c = .send (m : Nat) msg_ptr msg_size ∧ msg = bytesAt msg_ptr msg_size.toNat
  | .recvZero m => ∃ buffer, c = .recv (m : Nat) buffer
  | .recvEmpty m buffer => c = .recv (m : Nat) buffer

/-- Where a process can be that is about to make the call or is inside it. -/
inductive Call.Inside (c : Call) : Proc → Prop
  | before : Call.Inside c .outside
  | blocked {w} : c.Waits w → Call.Inside c (.blocked w)
  | woken {w} : c.Waits w → Call.Inside c (.woken w)
  | unblocking {k} : k.fn = c.fn → Call.Inside c (.unblocking k)

/-- The points of the call from which it runs on. -/
inductive Call.Runs (c : Call) : Point → Prop
  | start : Call.Runs c (.start c)
  | afterBlock {w} : c.Waits w → Call.Runs c (.afterBlock w)
  | afterUnblock {k} : k.fn = c.fn → Call.Runs c (.afterUnblock k)

/-- The operation a process is inside, if any. -/
def Proc.fn : Proc → Option Fn
  | .blocked w | .woken w => some w.fn
  | .unblocking k => some k.fn
  | .outside | .asleep => none

theorem Call.Waits.fn {c : Call} {w : Wait} (waits : c.Waits w) : w.fn = c.fn := by
  cases w with
  | sendZero m =>
    obtain ⟨_, _, rfl⟩ := waits
    rfl
  | sendFull m msg =>
    obtain ⟨_, _, rfl, _⟩ := waits
    rfl
  | recvZero m =>
    obtain ⟨_, rfl⟩ := waits
    rfl
  | recvEmpty m buffer =>
    obtain rfl := waits
    rfl

/-- The conditional calls do not wait. -/
theorem Call.condRecv_waits {id : Int} {buffer : Buffer} {w : Wait} : ¬ (Call.condRecv id buffer).Waits w := by
  cases w <;> simp [Call.Waits]

theorem Call.condSend_waits {id msg_size : Int} {msg_ptr : Option Message} {w : Wait} :
    ¬ (Call.condSend id msg_ptr msg_size).Waits w := by
  cases w <;> simp [Call.Waits]

theorem Call.Runs.start_eq {c c' : Call} (runs : c.Runs (.start c')) : c' = c := by
  cases runs
  rfl

theorem Call.Runs.waits {c : Call} {w : Wait} (runs : c.Runs (.afterBlock w)) : c.Waits w := by
  cases runs with
  | afterBlock waits => exact waits

theorem Call.Runs.fn {c : Call} {pt : Point} (runs : c.Runs pt) : pt.fn = c.fn := by
  cases runs with
  | start => rfl
  | afterBlock waits => exact waits.fn
  | afterUnblock same => exact same

theorem Call.Inside.wake {c : Call} {proc : Proc} (inside : c.Inside proc) : c.Inside proc.wake := by
  cases inside with
  | before => exact .before
  | blocked waits | woken waits => exact .woken waits
  | unblocking same => exact .unblocking same

theorem Call.Inside.runs {c : Call} {proc : Proc} {pt : Point} (inside : c.Inside proc) (here : proc.At pt)
    (first : ∀ c', pt = .start c' → c' = c) : c.Runs pt := by
  cases here with
  | start =>
    obtain rfl := first _ rfl
    exact .start
  | afterBlock =>
    cases inside with
    | woken waits => exact .afterBlock waits
  | afterUnblock =>
    cases inside with
    | unblocking same => exact .afterUnblock same

theorem Proc.fn_wake {proc : Proc} {fn : Fn} (inside : proc.wake.fn = some fn) : proc.fn = some fn := by
  cases proc <;> exact inside

theorem Proc.fn_idle {proc : Proc} (idle : proc.idle = true) : proc.fn = none := by
  cases proc <;> first | rfl | cases idle

theorem Proc.At.fn {proc : Proc} {pt : Point} (here : proc.At pt) (first : ∀ c, pt ≠ .start c) :
    proc.fn = some pt.fn := by
  cases here with
  | start => exact absurd rfl (first _)
  | afterBlock | afterUnblock => rfl

section

variable {g : Globals} {p : Pid} {pt : Point} {seg : Segment}

/-- Inside a call the process stays in that call. -/
theorem Path.fn_unblocks (path : Path g p pt seg) {pid : Pid} {k : Cont} (ends : seg.2 = .unblocks pid k) :
    k.fn = pt.fn := by
  cases path with
  | storesAndWakes at_ =>
    cases ends
    cases at_ <;> rfl
  | takesAndWakes at_ =>
    cases ends
    cases at_ <;> rfl
  | sendMatches | recvMatches => cases ends; rfl
  | releaseWakesProducer at_ | releaseWakesConsumer at_ | releaseWakesPointer at_ =>
    cases ends
    exact at_.fn.symm
  | refused | created | createFails | sendZeroBlocks | sendFullBlocks | resumedFullBlocks | storeFaults | stores
  | recvZeroBlocks | recvEmptyBlocks | resumedEmpty | takeFaults | takeRejects | takes | resumedInactive
  | resumedZero | sendMatchedReturns | sendStoredReturns | recvTakenReturns | releaseReturns => cases ends

theorem Path.waits_blocks (path : Path g p pt seg) {c : Call} (runs : c.Runs pt) {w : Wait}
    (ends : seg.2 = .blocks w) : c.Waits w := by
  cases path with
  | sendZeroBlocks =>
    cases ends
    exact ⟨_, _, runs.start_eq.symm⟩
  | sendFullBlocks =>
    cases ends
    exact ⟨_, _, runs.start_eq.symm, rfl⟩
  | recvZeroBlocks =>
    cases ends
    exact ⟨_, runs.start_eq.symm⟩
  | recvEmptyBlocks =>
    cases ends
    exact runs.start_eq.symm
  | resumedFullBlocks =>
    cases ends
    exact runs.waits
  | refused | created | createFails | sendMatches | storeFaults | stores | storesAndWakes | recvMatches
  | resumedEmpty | takeFaults | takeRejects | takes | takesAndWakes | resumedInactive | resumedZero
  | sendMatchedReturns | sendStoredReturns | recvTakenReturns | releaseWakesProducer | releaseWakesConsumer
  | releaseWakesPointer | releaseReturns => cases ends

theorem Path.fn_blocks (path : Path g p pt seg) {w : Wait} (ends : seg.2 = .blocks w) : w.fn = pt.fn := by
  cases path with
  | sendZeroBlocks | sendFullBlocks | recvZeroBlocks | recvEmptyBlocks | resumedFullBlocks => cases ends; rfl
  | refused | created | createFails | sendMatches | storeFaults | stores | storesAndWakes | recvMatches
  | resumedEmpty | takeFaults | takeRejects | takes | takesAndWakes | resumedInactive | resumedZero
  | sendMatchedReturns | sendStoredReturns | recvTakenReturns | releaseWakesProducer | releaseWakesConsumer
  | releaseWakesPointer | releaseReturns => cases ends

end

namespace Sys

/-- `unblockProc(pid)` by `p`, outside the mailbox layer. -/
def unblockProc (s : Sys) (p pid : Pid) : Sys :=
  { s with
    proc := Function.update s.proc pid (s.proc pid).wake
    cpu := if (s.proc pid).suspended then none else some p }

/-- `blockMe()` by `p`, outside the mailbox layer. -/
def blockMe (s : Sys) (p : Pid) : Sys :=
  { s with proc := Function.update s.proc p .asleep, cpu := none }

/-- A stretch of code changes the other processes only by waking one. -/
theorem after_wakes {s : Sys} {p q : Pid} {pt : Point} {seg : Segment} (other : q ≠ p) :
    (s.after p pt seg).proc q = s.proc q ∨
      (s.after p pt seg).proc q = (s.proc q).wake ∧ ∃ k, seg.2 = .unblocks q k := by
  obtain ⟨g, outcome⟩ := seg
  cases outcome with
  | returns | blocks =>
    refine .inl ?_
    simp only [after, settle, enter_proc, Function.update_of_ne other]
  | faults => exact .inl (by simp only [after, settle, enter_proc])
  | unblocks pid k =>
    by_cases named : q = pid
    · subst named
      refine .inr ⟨?_, k, rfl⟩
      simp only [after, settle, enter_proc, Function.update_self, Function.update_of_ne other]
    · refine .inl ?_
      simp only [after, settle, enter_proc, Function.update_of_ne named, Function.update_of_ne other]

end Sys

/-- What a process does next in a routine that is built on mailboxes: `σ` are
the variables the routines share, `τ` the places in their code. A `go` that
has no result yet waits for a device. -/
inductive Op (σ τ : Type)
  | idle
  | call (c : Call) (next : Result → σ → σ × τ)
  | blockMe (next : σ → σ × τ)
  | unblockProc (pid : Pid) (next : σ → σ × τ)
  | go (next : σ → Option (σ × τ))

/-- The routines of a service: their code, how a process outside them enters
one, and where the CPU can be taken from it. `event` is what the devices do. -/
structure Routines (σ τ α ε : Type) where
  op : τ → Op σ τ
  invoke : Pid → σ → α → Option (σ × τ)
  yields : τ → Bool
  event : σ → ε → σ

/-- Processes that run these routines over the mailbox layer. -/
structure Client (σ τ : Type) where
  sys : Sys
  shared : σ
  task : Pid → τ

/-- What can happen next: `user` is any action of a process that is in none of
the routines, or an `unblockProc` of another layer. -/
inductive ClientAct (α ε : Type)
  | user (a : Act)
  | invoke (p : Pid) (arg : α)
  | run (p : Pid)
  | resume (p : Pid)
  | yield (p : Pid)
  | event (e : ε)

def Op.isIdle {σ τ : Type} : Op σ τ → Bool
  | .idle => true
  | _ => false

def Op.blocks {σ τ : Type} : Op σ τ → Bool
  | .blockMe _ => true
  | _ => false

namespace Client

variable {σ τ α ε : Type} (R : Routines σ τ α ε)

/-- The process has come to a new place; `blockMe` suspends it there. -/
def enter (s : Client σ τ) (p : Pid) (next : σ × τ) : Client σ τ where
  sys := if (R.op next.2).blocks then s.sys.blockMe p else s.sys
  shared := next.1
  task := Function.update s.task p next.2

/-- The process runs on in a mailbox call, and past it if it returns. -/
def advance (s : Client σ τ) (p : Pid) (pt : Point) (next : Result → σ → σ × τ) : Client σ τ :=
  match (pt.exec s.sys.globals p).2 with
  | .returns r => enter R { s with sys := s.sys.run p pt } p (next r s.shared)
  | _ => { s with sys := s.sys.run p pt }

/-- The process runs on from its place, outside any mailbox call. -/
def runOn (s : Client σ τ) (p : Pid) : Op σ τ → Option (Client σ τ)
  | .idle => none
  | .call c next => some (s.advance R p (.start c) next)
  | .blockMe next => some (enter R { s with sys.cpu := some p } p (next s.shared))
  | .unblockProc pid next => some (enter R { s with sys := s.sys.unblockProc p pid } p (next s.shared))
  | .go next => (next s.shared).map (enter R { s with sys.cpu := some p } p)

/-- The process runs on from where its mailbox call stands. -/
def resumeCall (s : Client σ τ) (p : Pid) : Op σ τ → Option (Client σ τ)
  | .call _ next =>
    match s.sys.proc p with
    | .woken w => some (s.advance R p (.afterBlock w) next)
    | .unblocking k => some (s.advance R p (.afterUnblock k) next)
    | _ => none
  | _ => none

/-- Whether the action can be one of a process in no routine. -/
def userMay (s : Client σ τ) (a : Act) : Bool :=
  (R.op (s.task a.pid)).isIdle || a == .rouse a.pid

def step (s : Client σ τ) : ClientAct α ε → Option (Client σ τ)
  | .user a => if s.userMay R a then (s.sys.step a).map fun sys => { s with sys } else none
  | .invoke p arg =>
    if (R.op (s.task p)).isIdle ∧ s.sys.mayRun p ∧ s.sys.proc p = .outside then
      (R.invoke p s.shared arg).map (enter R { s with sys.cpu := some p } p)
    else none
  | .run p => if s.sys.mayRun p ∧ s.sys.proc p = .outside then s.runOn R p (R.op (s.task p)) else none
  | .resume p => if s.sys.mayRun p then s.resumeCall R p (R.op (s.task p)) else none
  | .yield p => if R.yields (s.task p) then (s.sys.step (.yield p)).map fun sys => { s with sys } else none
  | .event e => some { s with shared := R.event s.shared e }

/-- What a step of the system can do. -/
inductive Move (s : Client σ τ) : ClientAct α ε → Client σ τ → Prop
  | user {a sys} : s.userMay R a = true → s.sys.step a = some sys → Move s (.user a) { s with sys }
  | invokes {p arg next} : R.op (s.task p) = .idle → s.sys.mayRun p = true → s.sys.proc p = .outside →
      R.invoke p s.shared arg = some next → Move s (.invoke p arg) (enter R { s with sys.cpu := some p } p next)
  | calls {p c next} : R.op (s.task p) = .call c next → s.sys.mayRun p = true → s.sys.proc p = .outside →
      Move s (.run p) (s.advance R p (.start c) next)
  | resumes {p pt c next} : R.op (s.task p) = .call c next → s.sys.mayRun p = true → (s.sys.proc p).At pt →
      (∀ c', pt ≠ .start c') → Move s (.resume p) (s.advance R p pt next)
  | wakes {p pid next} : R.op (s.task p) = .unblockProc pid next → s.sys.mayRun p = true → s.sys.proc p = .outside →
      Move s (.run p) (enter R { s with sys := s.sys.unblockProc p pid } p (next s.shared))
  | returns {p next} : R.op (s.task p) = .blockMe next → s.sys.mayRun p = true → s.sys.proc p = .outside →
      Move s (.run p) (enter R { s with sys.cpu := some p } p (next s.shared))
  | goes {p next result} : R.op (s.task p) = .go next → s.sys.mayRun p = true → s.sys.proc p = .outside →
      next s.shared = some result → Move s (.run p) (enter R { s with sys.cpu := some p } p result)
  | yields {p} : R.yields (s.task p) = true → s.sys.mayRun p = true → s.sys.proc p = .outside →
      Move s (.yield p) { s with sys.cpu := none }
  | event {e} : Move s (.event e) { s with shared := R.event s.shared e }

variable {R}

theorem Op.isIdle_iff {o : Op σ τ} : o.isIdle = true ↔ o = .idle := by
  cases o <;> simp [Op.isIdle]

theorem step_move {s s' : Client σ τ} {a : ClientAct α ε} (moves : s.step R a = some s') : s.Move R a s' := by
  cases a with
  | user a =>
    simp only [step, Option.ite_none_right_eq_some, Option.map_eq_some_iff] at moves
    obtain ⟨may, sys, moved, rfl⟩ := moves
    exact .user may moved
  | invoke p arg =>
    simp only [step, Option.ite_none_right_eq_some, Option.map_eq_some_iff] at moves
    obtain ⟨⟨idle, may, out⟩, next, invoked, rfl⟩ := moves
    exact .invokes (Op.isIdle_iff.mp idle) may out invoked
  | run p =>
    simp only [step, Option.ite_none_right_eq_some] at moves
    obtain ⟨⟨may, out⟩, moves⟩ := moves
    cases place : R.op (s.task p) with
    | idle =>
      rw [place] at moves
      cases moves
    | call c next =>
      rw [place] at moves
      obtain rfl := Option.some.inj moves
      exact .calls place may out
    | blockMe next =>
      rw [place] at moves
      obtain rfl := Option.some.inj moves
      exact .returns place may out
    | unblockProc pid next =>
      rw [place] at moves
      obtain rfl := Option.some.inj moves
      exact .wakes place may out
    | go next =>
      rw [place] at moves
      obtain ⟨result, went, rfl⟩ := Option.map_eq_some_iff.mp moves
      exact .goes place may out went
  | resume p =>
    simp only [step, Option.ite_none_right_eq_some] at moves
    obtain ⟨may, moves⟩ := moves
    cases place : R.op (s.task p) with
    | idle | blockMe | unblockProc | go =>
      rw [place] at moves
      cases moves
    | call c next =>
      simp only [place, resumeCall] at moves
      split at moves
      · rename_i w atW
        obtain rfl := Option.some.inj moves
        have here : (s.sys.proc p).At (.afterBlock w) := by rw [atW]; exact .afterBlock
        exact .resumes place may here (by simp)
      · rename_i k atK
        obtain rfl := Option.some.inj moves
        have here : (s.sys.proc p).At (.afterUnblock k) := by rw [atK]; exact .afterUnblock
        exact .resumes place may here (by simp)
      · cases moves
  | yield p =>
    simp only [step, Option.ite_none_right_eq_some, Option.map_eq_some_iff, Sys.step, Option.some.injEq] at moves
    obtain ⟨here, sys, ⟨⟨may, out⟩, rfl⟩, rfl⟩ := moves
    exact .yields here may out
  | event e =>
    obtain rfl := Option.some.inj moves
    exact .event

/-- And it does every one of these. -/
theorem Move.step {s s' : Client σ τ} {a : ClientAct α ε} (moves : s.Move R a s') : s.step R a = some s' := by
  cases moves with
  | user may moved => simp [Client.step, may, moved]
  | invokes place may out invoked => simp [Client.step, place, Op.isIdle, may, out, invoked]
  | calls place may out | wakes place may out | returns place may out => simp [Client.step, place, may, out, runOn]
  | goes place may out went => simp [Client.step, place, may, out, runOn, went]
  | event => rfl
  | yields here may out => simp [Client.step, Sys.step, here, may, out]
  | @resumes p pt _ _ place may here resumes =>
    generalize at_ : s.sys.proc p = proc at here
    cases here with
    | start => exact absurd rfl (resumes _)
    | afterBlock | afterUnblock => simp [Client.step, place, may, resumeCall, at_]

@[simp] theorem enter_globals (s : Client σ τ) (p : Pid) (next : σ × τ) :
    (s.enter R p next).sys.globals = s.sys.globals := by
  unfold enter
  split <;> rfl

@[simp] theorem enter_task (s : Client σ τ) (p : Pid) (next : σ × τ) :
    (s.enter R p next).task = Function.update s.task p next.2 := rfl

@[simp] theorem enter_shared (s : Client σ τ) (p : Pid) (next : σ × τ) : (s.enter R p next).shared = next.1 := rfl

theorem enter_proc_of_ne (s : Client σ τ) {p q : Pid} (other : q ≠ p) (next : σ × τ) :
    (s.enter R p next).sys.proc q = s.sys.proc q := by
  unfold enter
  split
  · exact Function.update_of_ne other _ _
  · rfl

@[simp] theorem advance_globals (s : Client σ τ) (p : Pid) (pt : Point) (next : Result → σ → σ × τ) :
    (s.advance R p pt next).sys.globals = (s.sys.run p pt).globals := by
  unfold advance
  split <;> simp

theorem advance_proc_of_ne (s : Client σ τ) {p q : Pid} (other : q ≠ p) (pt : Point) (next : Result → σ → σ × τ) :
    (s.advance R p pt next).sys.proc q = (s.sys.run p pt).proc q := by
  unfold advance
  split
  · exact enter_proc_of_ne _ other _
  · rfl

theorem advance_task_of_ne (s : Client σ τ) {p q : Pid} (other : q ≠ p) (pt : Point) (next : Result → σ → σ × τ) :
    (s.advance R p pt next).task q = s.task q := by
  unfold advance
  split
  · exact Function.update_of_ne other _ _
  · rfl

/-- What a process becomes when the routine it runs in goes on or not. -/
theorem advance_cases (s : Client σ τ) (p : Pid) (pt : Point) (next : Result → σ → σ × τ) :
    (∃ r, (pt.exec s.sys.globals p).2 = .returns r ∧
      s.advance R p pt next = enter R { s with sys := s.sys.run p pt } p (next r s.shared)) ∨
    (∀ r, (pt.exec s.sys.globals p).2 ≠ .returns r) ∧ s.advance R p pt next = { s with sys := s.sys.run p pt } := by
  unfold advance
  split
  · rename_i r returns
    exact .inl ⟨r, returns, rfl⟩
  · rename_i other
    exact .inr ⟨other, rfl⟩

end Client

namespace Sys

theorem run_transfer (s : Sys) (p : Pid) (pt : Point) : Transfer s.globals pt (s.run p pt).globals :=
  after_transfer (Point.exec_path ..)

theorem run_globals {s : Sys} {p : Pid} {pt : Point} (lives : ∀ f, (pt.exec s.globals p).2 ≠ .faults f) :
    (s.run p pt).globals = (pt.exec s.globals p).1 :=
  after_globals lives

theorem run_faults {s : Sys} {p : Pid} {pt : Point} {f : Fault} (ends : (pt.exec s.globals p).2 = .faults f) :
    (s.run p pt).globals = s.globals ∧ (s.run p pt).proc = s.proc := by
  unfold run after
  rw [ends]
  exact ⟨enter_globals .., enter_proc ..⟩

/-- The frame rule for a stretch of code that a process runs. -/
theorem run_sameBox {s : Sys} {p : Pid} {pt : Point} {m : MboxId} (sound : s.globals.Sound)
    (active : (s.globals.mailboxes m).isActive = true) (away : pt.fn.addresses m = false) :
    s.globals.SameBox m (s.run p pt).globals := by
  have same := (Point.exec_path s.globals p pt).sameBox sound active away
  unfold run after
  generalize pt.exec s.globals p = seg at same
  obtain ⟨g, outcome⟩ := seg
  cases outcome with
  | returns | blocks | unblocks => exact same
  | faults =>
    simp only [settle, enter_globals]
    exact .refl m _

theorem run_fits {s : Sys} {p : Pid} {pt : Point} {m : MboxId} (fits : ∀ q, (s.proc q).FitsAt s.globals m)
    (sound : s.globals.Sound) (here : (s.proc p).At pt) (unreleased : pt ≠ .start (.release (m : Nat))) (q : Pid) :
    ((s.run p pt).proc q).FitsAt (s.run p pt).globals m :=
  after_fits fits ((Point.exec_path ..).fits here (fits p) sound unreleased)
    (fun active => (s.run_transfer p pt).status active unreleased) q

theorem run_other {s : Sys} {p q : Pid} {pt : Point} (other : q ≠ p) :
    (s.run p pt).proc q = s.proc q ∨
      (s.run p pt).proc q = (s.proc q).wake ∧ ∃ k, (pt.exec s.globals p).2 = .unblocks q k :=
  after_wakes other

end Sys

/-- Where a process can be that stands at this place of a routine. Outside the
routines it is in no call with the id of `m`. -/
def Op.Placed {σ τ : Type} (m : MboxId) (proc : Proc) : Op σ τ → Prop
  | .idle => ∀ fn, proc.fn = some fn → fn.addresses m = false
  | .call c _ => c.Inside proc
  | .blockMe _ => proc = .outside ∨ proc = .asleep
  | .unblockProc .. | .go _ => proc = .outside

theorem Op.Placed.wake {σ τ : Type} {m : MboxId} {proc : Proc} {o : Op σ τ} (placed : o.Placed m proc) :
    o.Placed m proc.wake := by
  cases o with
  | idle => exact fun fn inside => placed fn (Proc.fn_wake inside)
  | call c next => exact Call.Inside.wake placed
  | blockMe next =>
    rcases placed with rfl | rfl
    · exact .inl rfl
    · exact .inl rfl
  | unblockProc pid next | go next =>
    obtain rfl := placed
    rfl

theorem Op.Placed.outside {σ τ : Type} (m : MboxId) (o : Op σ τ) : o.Placed m .outside := by
  cases o with
  | idle =>
    intro fn inside
    cases inside
  | call => exact .before
  | blockMe => exact .inl rfl
  | unblockProc | go => rfl

namespace Client

variable {σ τ α ε : Type} {R : Routines σ τ α ε} {m : MboxId} {s s' : Client σ τ} {a : ClientAct α ε}

/-- The action is no call of another process with the id of `m`. -/
def Apart (m : MboxId) (_ : Client σ τ) (a : ClientAct α ε) : Prop :=
  ∀ p c, a = .user (.call p c) → c.fn.addresses m = false

/-- What holds of a mailbox that only the routines use. -/
structure Keeps (R : Routines σ τ α ε) (m : MboxId) (s : Client σ τ) : Prop where
  sound : s.sys.globals.Sound
  active : (s.sys.globals.mailboxes m).isActive = true
  fits : ∀ p, (s.sys.proc p).FitsAt s.sys.globals m
  placed : ∀ p, (R.op (s.task p)).Placed m (s.sys.proc p)

theorem enter_placed (s : Client σ τ) {p : Pid} (next : σ × τ) (out : s.sys.proc p = .outside)
    (others : ∀ q, q ≠ p → (R.op (s.task q)).Placed m (s.sys.proc q)) (q : Pid) :
    (R.op ((s.enter R p next).task q)).Placed m ((s.enter R p next).sys.proc q) := by
  by_cases own : q = p
  · subst own
    rw [enter_task, Function.update_self]
    unfold enter
    split
    · rename_i blocks
      cases atNext : R.op next.2 with
      | blockMe => exact .inr (Function.update_self ..)
      | idle | call | unblockProc | go =>
        rw [atNext] at blocks
        cases blocks
    · rw [out]
      exact .outside m _
  · rw [enter_proc_of_ne s own, enter_task, Function.update_of_ne own]
    exact others q own

theorem enter_fits (s : Client σ τ) {p : Pid} (next : σ × τ) (fits : ∀ q, (s.sys.proc q).FitsAt s.sys.globals m)
    (q : Pid) : ((s.enter R p next).sys.proc q).FitsAt (s.enter R p next).sys.globals m := by
  rw [enter_globals]
  by_cases own : q = p
  · subst own
    unfold enter
    split
    · simp only [Sys.blockMe, Function.update_self]
      trivial
    · exact fits q
  · rw [enter_proc_of_ne s own]
    exact fits q

theorem run_placed {p : Pid} {pt : Point} (placed : ∀ q, (R.op (s.task q)).Placed m (s.sys.proc q)) {q : Pid}
    (other : q ≠ p) : (R.op (s.task q)).Placed m ((s.sys.run p pt).proc q) := by
  rcases Sys.run_other other with same | ⟨woken, _⟩
  · rw [same]
    exact placed q
  · rw [woken]
    exact (placed q).wake

/-- The process that runs on in a call of its routine. -/
theorem advance_placed {p : Pid} {pt : Point} {c : Call} {next : Result → σ → σ × τ}
    (placed : ∀ q, (R.op (s.task q)).Placed m (s.sys.proc q)) (place : R.op (s.task p) = .call c next)
    (runs : c.Runs pt) (q : Pid) :
    (R.op ((s.advance R p pt next).task q)).Placed m ((s.advance R p pt next).sys.proc q) := by
  rcases advance_cases (R := R) s p pt next with ⟨r, returns, same⟩ | ⟨goesOn, same⟩
  · rw [same]
    refine enter_placed _ _ ?_ (fun q other => run_placed placed other) q
    rcases Sys.run_self s.sys p pt with ⟨_, _, out⟩ | ⟨_, ends, _⟩ | ⟨_, _, ends, _⟩ | ⟨_, ends, _⟩
    · exact out
    all_goals rw [returns] at ends; cases ends
  · rw [same]
    by_cases own : q = p
    · subst own
      have path := Point.exec_path s.sys.globals q pt
      simp only [place]
      rcases Sys.run_self s.sys q pt with ⟨r, ends, _⟩ | ⟨w, ends, at_⟩ | ⟨pid, k, ends, at_⟩ | ⟨f, _, at_⟩
      · exact absurd ends (goesOn r)
      · rw [at_]
        exact .blocked (path.waits_blocks runs ends)
      · rw [at_]
        exact .unblocking ((path.fn_unblocks ends).trans runs.fn)
      · rw [at_]
        have inside := placed q
        rwa [place] at inside
    · exact run_placed placed own

theorem runs_of_placed {p : Pid} {pt : Point} {c : Call} {next : Result → σ → σ × τ}
    (placed : ∀ q, (R.op (s.task q)).Placed m (s.sys.proc q)) (place : R.op (s.task p) = .call c next)
    (here : (s.sys.proc p).At pt) (resumes : ∀ c', pt ≠ .start c') : c.Runs pt := by
  have inside := placed p
  rw [place] at inside
  exact Call.Inside.runs inside here fun c' start => absurd start (resumes c')

/-- No routine releases `m`. -/
def Unreleasing (R : Routines σ τ α ε) (m : MboxId) : Prop :=
  ∀ place c next, R.op place = .call c next → c ≠ .release (m : Nat)

theorem userMay_cases {a : Act} (may : s.userMay R a = true) : R.op (s.task a.pid) = .idle ∨ a = .rouse a.pid := by
  simp only [userMay, Bool.or_eq_true, beq_iff_eq] at may
  exact may.imp_left Op.isIdle_iff.mp

/-- The frame rule for what processes outside the routines do. -/
theorem Keeps.user {sys : Sys} {a : Act} (keeps : s.Keeps R m) (may : s.userMay R a = true)
    (apart : ∀ p c, a = .call p c → c.fn.addresses m = false) (moves : s.sys.step a = some sys) :
    s.sys.globals.SameBox m sys.globals ∧ Keeps R m { s with sys } := by
  have sound : sys.globals.Sound := by
    rcases Sys.step_transfer moves with same | ⟨_, _, transfer⟩
    · rw [same]
      exact keeps.sound
    · exact transfer.sound keeps.sound
  cases Sys.step_move moves with
  | @segment p pt _ here =>
    have place : R.op (s.task p) = .idle := by
      rcases userMay_cases may with idle | rouse
      · rwa [Point.act_pid] at idle
      · cases pt <;> cases rouse
    have outsideCalls := keeps.placed p
    rw [place] at outsideCalls
    have away : pt.fn.addresses m = false := by
      cases pt with
      | start c => exact apart p c rfl
      | afterBlock | afterUnblock => exact outsideCalls _ (here.fn (by simp))
    have same := Sys.run_sameBox (p := p) keeps.sound keeps.active away
    have unreleased : pt ≠ .start (.release (m : Nat)) := by
      rintro rfl
      simp [Point.fn, Call.fn, Fn.addresses] at away
    refine ⟨same, sound, by rw [same.mbox]; exact keeps.active, Sys.run_fits keeps.fits keeps.sound here unreleased,
      fun q => ?_⟩
    by_cases own : q = p
    · subst own
      have path := Point.exec_path s.sys.globals q pt
      simp only [place]
      rcases Sys.run_self s.sys q pt with ⟨r, _, at_⟩ | ⟨w, ends, at_⟩ | ⟨pid, k, ends, at_⟩ | ⟨f, _, at_⟩ <;> rw [at_]
      · exact Op.Placed.outside (σ := σ) (τ := τ) m .idle
      · rintro fn ⟨⟩
        rw [path.fn_blocks ends]
        exact away
      · rintro fn ⟨⟩
        rw [path.fn_unblocks ends]
        exact away
      · exact outsideCalls
    · exact run_placed keeps.placed own
  | @idle a proc cpu was becomes =>
    refine ⟨.refl m _, sound, keeps.active, fun q => ?_, fun q => ?_⟩
    · by_cases own : q = a.pid
      · subst own
        simp only [Function.update_self]
        cases proc <;> trivial
      · simp only [Function.update_of_ne own]
        exact keeps.fits q
    by_cases own : q = a.pid
    · subst own
      simp only [Function.update_self]
      rcases userMay_cases may with idle | rouse
      · rw [idle]
        intro fn inside
        rw [Proc.fn_idle becomes] at inside
        cases inside
      · rw [rouse] at moves
        simp only [Sys.step, Option.ite_none_right_eq_some, Option.some.injEq] at moves
        have same := congrFun (congrArg Sys.proc moves.2) a.pid
        obtain rfl : Proc.outside = proc := by simpa [Act.pid] using same
        exact .outside m _
    · simp only [Function.update_of_ne own]
      exact keeps.placed q

theorem Unreleasing.point {p : Pid} {pt : Point} {c : Call} {next : Result → σ → σ × τ}
    (unreleasing : Unreleasing R m) (place : R.op (s.task p) = .call c next) (runs : c.Runs pt) :
    pt ≠ .start (.release (m : Nat)) := by
  rintro rfl
  cases runs
  exact unreleasing _ _ _ place rfl

theorem Keeps.advance {p : Pid} {pt : Point} {c : Call} {next : Result → σ → σ × τ} (keeps : s.Keeps R m)
    (unreleasing : Unreleasing R m) (place : R.op (s.task p) = .call c next) (here : (s.sys.proc p).At pt)
    (runs : c.Runs pt) : (s.advance R p pt next).Keeps R m where
  sound := by
    rw [advance_globals]
    exact (s.sys.run_transfer p pt).sound keeps.sound
  active := by
    rw [advance_globals]
    exact ((s.sys.run_transfer p pt).status keeps.active (unreleasing.point place runs)).1
  fits := by
    have fits := Sys.run_fits keeps.fits keeps.sound here (unreleasing.point place runs)
    rcases advance_cases (R := R) s p pt next with ⟨r, returns, same⟩ | ⟨goesOn, same⟩ <;> rw [same]
    · exact enter_fits _ _ fits
    · exact fits
  placed := advance_placed keeps.placed place runs

theorem Keeps.enter {sys : Sys} {p : Pid} (keeps : s.Keeps R m) (next : σ × τ)
    (globals : sys.globals = s.sys.globals) (out : sys.proc p = .outside)
    (others : ∀ q, q ≠ p → sys.proc q = s.sys.proc q ∨ sys.proc q = (s.sys.proc q).wake) :
    (Client.enter R { s with sys } p next).Keeps R m where
  sound := by
    rw [enter_globals]
    exact globals ▸ keeps.sound
  active := by
    rw [enter_globals]
    exact globals ▸ keeps.active
  fits := enter_fits _ _ fun q => by
    by_cases own : q = p
    · subst own
      simp only [out]
      trivial
    · rcases others q own with same | woken
      · simp only [same, globals]
        exact keeps.fits q
      · simp only [woken, globals]
        exact (keeps.fits q).wake
  placed := enter_placed _ _ out fun q other => by
    rcases others q other with same | woken
    · exact same ▸ keeps.placed q
    · exact woken ▸ (keeps.placed q).wake

theorem unblockProc_out {sys : Sys} {p pid : Pid} (out : sys.proc p = .outside) :
    (sys.unblockProc p pid).proc p = .outside := by
  by_cases named : p = pid
  · subst named
    simp [Sys.unblockProc, out, Proc.wake]
  · simp [Sys.unblockProc, Function.update_of_ne named, out]

theorem unblockProc_other {sys : Sys} {p pid : Pid} (q : Pid) :
    (sys.unblockProc p pid).proc q = sys.proc q ∨ (sys.unblockProc p pid).proc q = (sys.proc q).wake := by
  by_cases named : q = pid
  · subst named
    exact .inr (Function.update_self ..)
  · exact .inl (Function.update_of_ne named _ _)

/-- A mailbox that only the routines use stays active and sound, and their
processes stay where the code has them. -/
theorem Keeps.step (keeps : s.Keeps R m) (unreleasing : Unreleasing R m) (apart : Apart m s a)
    (moves : s.Move R a s') : s'.Keeps R m := by
  cases moves with
  | user may moved => exact (keeps.user may (fun p c same => apart p c (by rw [same])) moved).2
  | invokes place may out invoked => exact keeps.enter _ rfl out fun _ _ => .inl rfl
  | calls place may out => exact keeps.advance unreleasing place (out ▸ .start) .start
  | resumes place may here resumes =>
    exact keeps.advance unreleasing place here (runs_of_placed keeps.placed place here resumes)
  | wakes place may out => exact keeps.enter _ rfl (unblockProc_out out) fun q _ => unblockProc_other q
  | returns place may out => exact keeps.enter _ rfl out fun _ _ => .inl rfl
  | goes place may out went => exact keeps.enter _ rfl out fun _ _ => .inl rfl
  | yields => exact ⟨keeps.sound, keeps.active, keeps.fits, keeps.placed⟩
  | event => exact ⟨keeps.sound, keeps.active, keeps.fits, keeps.placed⟩

theorem keeps_of_run {start : Client σ τ} {guard : Client σ τ → ClientAct α ε → Prop}
    (run : Transition.Run (Client.step R) guard start s) (apart : ∀ s a, guard s a → Apart m s a)
    (unreleasing : Unreleasing R m) (initial : start.Keeps R m) : s.Keeps R m :=
  run.invariant (Keeps R m) initial fun before a _ keeps admitted moves =>
    keeps.step unreleasing (apart before a admitted) (step_move moves)

/-- The frame rule for the routines themselves. -/
theorem Keeps.advance_sameBox {p : Pid} {pt : Point} {c : Call} {next : Result → σ → σ × τ} (keeps : s.Keeps R m)
    (runs : c.Runs pt) (away : c.fn.addresses m = false) :
    s.sys.globals.SameBox m (s.advance R p pt next).sys.globals := by
  rw [advance_globals]
  exact Sys.run_sameBox keeps.sound keeps.active (by rw [runs.fn]; exact away)

theorem enter_sys (s : Client σ τ) (p : Pid) {next : σ × τ} (runs : (R.op next.2).blocks = false) :
    (s.enter R p next).sys = s.sys := by
  unfold enter
  rw [if_neg (by simp [runs])]

/-- An action outside the routines is by a process that is in none of them, or
wakes one that is in `blockMe`. -/
theorem Keeps.user_place {sys : Sys} {a : Act} (keeps : s.Keeps R m) (may : s.userMay R a = true)
    (moves : s.sys.step a = some sys) : R.op (s.task a.pid) = .idle ∨
      (∃ next, R.op (s.task a.pid) = .blockMe next) ∧ a = .rouse a.pid ∧ s.sys.proc a.pid = .asleep ∧
        sys = { s.sys with proc := Function.update s.sys.proc a.pid .outside } := by
  rcases userMay_cases may with idle | rouse
  · exact .inl idle
  · rw [rouse] at moves
    simp only [Sys.step, Option.ite_none_right_eq_some, Option.some.injEq] at moves
    obtain ⟨⟨_, asleep⟩, rfl⟩ := moves
    have placed := keeps.placed a.pid
    rw [asleep] at placed
    cases place : R.op (s.task a.pid) with
    | idle => exact .inl rfl
    | blockMe next => exact .inr ⟨⟨next, rfl⟩, rouse, asleep, rfl⟩
    | call c next =>
      rw [place] at placed
      cases placed
    | unblockProc pid next | go next =>
      rw [place] at placed
      cases placed

theorem user_other {sys : Sys} {a : Act} (moves : s.sys.step a = some sys) (q : Pid) (other : q ≠ a.pid) :
    sys.proc q = s.sys.proc q ∨ sys.proc q = (s.sys.proc q).wake := by
  cases Sys.step_move moves with
  | @segment p pt =>
    rw [Point.act_pid] at other
    exact (Sys.run_other other).imp_right And.left
  | idle => exact .inl (Function.update_of_ne other _ _)

theorem advance_other {p : Pid} {pt : Point} {next : Result → σ → σ × τ} (q : Pid) (other : q ≠ p) :
    (s.advance R p pt next).sys.proc q = s.sys.proc q ∨
      (s.advance R p pt next).sys.proc q = (s.sys.proc q).wake := by
  rw [advance_proc_of_ne s other]
  exact (Sys.run_other other).imp_right And.left

/-- A call that returns brings the process to its next place. -/
theorem advance_returns {p : Pid} {pt : Point} (next : Result → σ → σ × τ) {r : Result}
    (ends : (pt.exec s.sys.globals p).2 = .returns r) (runs : (R.op (next r s.shared).2).blocks = false) :
    (s.advance R p pt next).sys = s.sys.run p pt ∧
      (s.advance R p pt next).task p = (next r s.shared).2 ∧
      (s.advance R p pt next).shared = (next r s.shared).1 ∧ (s.sys.run p pt).proc p = .outside := by
  have out : (s.sys.run p pt).proc p = .outside := by
    rcases Sys.run_self s.sys p pt with ⟨_, _, out⟩ | ⟨_, other, _⟩ | ⟨_, _, other, _⟩ | ⟨_, other, _⟩
    · exact out
    all_goals rw [ends] at other; cases other
  rcases advance_cases (R := R) s p pt next with ⟨r', returns, same⟩ | ⟨goesOn, _⟩
  · rw [ends] at returns
    cases returns
    rw [same]
    exact ⟨enter_sys _ p runs, Function.update_self .., rfl, out⟩
  · exact absurd ends (goesOn r)

theorem enter_eq {p : Pid} {next : σ × τ} (runs : (R.op next.2).blocks = false) :
    s.enter R p next = ⟨s.sys, next.1, Function.update s.task p next.2⟩ := by
  unfold enter
  rw [if_neg (by simp [runs])]

theorem advance_eq {p : Pid} {pt : Point} {next : Result → σ → σ × τ} {r : Result}
    (ends : (pt.exec s.sys.globals p).2 = .returns r) :
    s.advance R p pt next = enter R { s with sys := s.sys.run p pt } p (next r s.shared) := by
  unfold advance
  rw [ends]

/-- A call that is made and returns at once. -/
theorem step_call_eq {p : Pid} {c : Call} {next : Result → σ → σ × τ} {r : Result}
    (place : R.op (s.task p) = .call c next) (may : s.sys.mayRun p = true) (out : s.sys.proc p = .outside)
    (ends : ((Point.start c).exec s.sys.globals p).2 = .returns r) (runs : (R.op (next r s.shared).2).blocks = false) :
    s.step R (.run p : ClientAct α ε) =
      some ⟨s.sys.run p (.start c), (next r s.shared).1, Function.update s.task p (next r s.shared).2⟩ := by
  rw [(Move.calls (R := R) place may out).step, advance_eq ends, enter_eq runs]

theorem step_go_eq {p : Pid} {next : σ → Option (σ × τ)} {result : σ × τ} (place : R.op (s.task p) = .go next)
    (may : s.sys.mayRun p = true) (out : s.sys.proc p = .outside) (went : next s.shared = some result)
    (runs : (R.op result.2).blocks = false) : s.step R (.run p : ClientAct α ε) =
      some ⟨{ s.sys with cpu := some p }, result.1, Function.update s.task p result.2⟩ := by
  rw [(Move.goes (R := R) place may out went).step, enter_eq runs]

theorem step_invoke_eq {p : Pid} {call : α} {result : σ × τ} (place : R.op (s.task p) = .idle)
    (may : s.sys.mayRun p = true) (out : s.sys.proc p = .outside) (invoked : R.invoke p s.shared call = some result)
    (runs : (R.op result.2).blocks = false) : s.step R (.invoke p call : ClientAct α ε) =
      some ⟨{ s.sys with cpu := some p }, result.1, Function.update s.task p result.2⟩ := by
  rw [(Move.invokes (R := R) place may out invoked).step, enter_eq runs]

/-- One that does not leaves it where it is. -/
theorem advance_stays {p : Pid} {pt : Point} {next : Result → σ → σ × τ}
    (ends : ∀ r, (pt.exec s.sys.globals p).2 ≠ .returns r) :
    s.advance R p pt next = { s with sys := s.sys.run p pt } := by
  rcases advance_cases (R := R) s p pt next with ⟨r, returns, _⟩ | ⟨_, same⟩
  · exact absurd returns (ends r)
  · exact same

/-- The process after its mailbox call has run on and ended in one of the ways
a stretch of code can end. -/
inductive Advanced (R : Routines σ τ α ε) (s : Client σ τ) (p : Pid) (next : Result → σ → σ × τ) :
    Segment → Client σ τ → Prop
  | returns {g r s'} : s'.sys.globals = g → s'.shared = (next r s.shared).1 → s'.task p = (next r s.shared).2 →
      s'.sys.proc p = (if (R.op (next r s.shared).2).blocks then .asleep else .outside) →
      Advanced R s p next (g, .returns r) s'
  | blocks {g w s'} : s'.sys.globals = g → s'.shared = s.shared → s'.task = s.task → s'.sys.proc p = .blocked w →
      Advanced R s p next (g, .blocks w) s'
  | unblocks {g pid k s'} : s'.sys.globals = g → s'.shared = s.shared → s'.task = s.task →
      s'.sys.proc p = .unblocking k → Advanced R s p next (g, .unblocks pid k) s'
  | faults {g f s'} : s'.sys.globals = s.sys.globals → s'.shared = s.shared → s'.task = s.task →
      s'.sys.proc p = s.sys.proc p → Advanced R s p next (g, .faults f) s'

theorem advanced (s : Client σ τ) (p : Pid) (pt : Point) (next : Result → σ → σ × τ) :
    Advanced R s p next (pt.exec s.sys.globals p) (s.advance R p pt next) := by
  have globals := advance_globals (R := R) s p pt next
  have self := Sys.run_self s.sys p pt
  have ran := @Sys.run_globals s.sys p pt
  have faulted := @Sys.run_faults s.sys p pt
  rcases advance_cases (R := R) s p pt next with ⟨r, ends, same⟩ | ⟨goesOn, same⟩
  · have out : (s.sys.run p pt).proc p = .outside := by
      rcases self with ⟨_, _, out⟩ | ⟨_, other, _⟩ | ⟨_, _, other, _⟩ | ⟨_, other, _⟩
      · exact out
      all_goals rw [ends] at other; cases other
    rw [ran (by simp [ends])] at globals
    have proc : (s.advance R p pt next).sys.proc p =
        if (R.op (next r s.shared).2).blocks then .asleep else .outside := by
      rw [same, enter]
      split
      · exact Function.update_self ..
      · exact out
    have shared : (s.advance R p pt next).shared = (next r s.shared).1 := by rw [same, enter_shared]
    have task : (s.advance R p pt next).task p = (next r s.shared).2 := by
      rw [same, enter_task, Function.update_self]
    generalize pt.exec s.sys.globals p = seg at ends globals
    obtain ⟨g, outcome⟩ := seg
    cases ends
    exact .returns globals shared task proc
  · rw [same]
    generalize atSeg : pt.exec s.sys.globals p = seg at ran self faulted goesOn
    obtain ⟨g, outcome⟩ := seg
    rcases self with ⟨r, ends, _⟩ | ⟨w, ends, at_⟩ | ⟨pid, k, ends, at_⟩ | ⟨f, ends, at_⟩
    · exact absurd ends (goesOn r)
    · cases ends
      exact .blocks (ran (by simp)) rfl rfl at_
    · cases ends
      exact .unblocks (ran (by simp)) rfl rfl at_
    · cases ends
      exact .faults (faulted rfl).1 rfl rfl at_

/-- The mailbox code that the action runs. -/
inductive Running (R : Routines σ τ α ε) (s : Client σ τ) : ClientAct α ε → Pid → Point → Prop
  | user {p pt} : (s.sys.proc p).At pt → Running R s (.user (pt.act p)) p pt
  | calls {p c next} : R.op (s.task p) = .call c next → Running R s (.run p) p (.start c)
  | resumes {p pt} : (s.sys.proc p).At pt → (∀ c, pt ≠ .start c) → Running R s (.resume p) p pt

/-- The action wakes `q`, and not as the `unblockProc` of a routine. -/
def Strays (R : Routines σ τ α ε) (s : Client σ τ) (a : ClientAct α ε) (q : Pid) : Prop :=
  a = .user (.rouse q) ∨ ∃ p pt k, Running R s a p pt ∧ (pt.exec s.sys.globals p).2 = .unblocks q k

/-- What the mailbox layer does for processes outside the routines, the whole
system does. -/
theorem execute_user {sys : Sys} {actions : List Act} (idle : ∀ a ∈ actions, R.op (s.task a.pid) = .idle)
    (executed : Transition.execute Sys.step (fun _ _ => true) s.sys actions = some sys) :
    Transition.execute (Client.step R) (fun _ _ => true) s (actions.map ClientAct.user) = some { s with sys } := by
  induction actions generalizing s with
  | nil =>
    cases Option.some.inj executed
    rfl
  | cons a rest ih =>
    simp only [Transition.execute, if_true, Option.bind_eq_some_iff] at executed
    obtain ⟨middle, moves, executed⟩ := executed
    have may : s.userMay R a = true := by
      simp [userMay, idle a (List.mem_cons_self ..), Op.isIdle]
    have later := ih (s := { s with sys := middle }) (fun b member => idle b (List.mem_cons_of_mem _ member)) executed
    simp only [List.map_cons, Transition.execute, if_true, Client.step, may, moves, Option.map_some, Option.bind_some]
    exact later

/-- A test for `Apart`. -/
def isApart (m : MboxId) : ClientAct α ε → Bool
  | .user (.call _ c) => !c.fn.addresses m
  | _ => true

theorem Apart.of_test (passes : isApart m a = true) : Apart m s a := by
  rintro p c rfl
  simpa [isApart] using passes

end Client

end UslossKernel
