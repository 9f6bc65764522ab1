import UslossKernel.Phase4Init
import UslossKernel.SlotPool

namespace UslossKernel

namespace Phase4a

/-- One call of `sys_term_write`: its number, and the arguments that passed
the checks. -/
structure Write where
  number : Nat
  unit : TermUnit
  userBuf : Message
deriving DecidableEq, Repr

/-- The arguments of `sys_term_read` and `sys_term_write`. -/
structure TermArgs where
  userBuf : Option Message
  userBufSize : Int
  unit : Int
deriving DecidableEq, Repr

/-- What a system call leaves in `arg2` and `arg4`. -/
structure Sysreturn where
  arg2 : Option Int
  arg4 : Int
deriving DecidableEq, Repr

/-- Where a process stands in `sys_term_write`; `i` is the loop index. -/
inductive Writer
  | outside
  | locking (w : Write)
  | putting (w : Write) (i : Nat)
  | waiting (w : Write) (i : Nat)
  | unlocking (w : Write)
deriving DecidableEq, Repr

/-- The output of the terminals, each character with the number of the call
that sent it. The other fields are history: the calls that have begun, and
what calls have left in their arguments. -/
structure Terminals where
  output : TermUnit → List (Nat × UInt8)
  writes : List Write
  returned : List Sysreturn

/-- `unit < 0 || unit >= MAX_TERMS || userBuf == NULL || userBufSize <= 0`
fails: the check of both terminal calls. -/
def TermArgs.check (args : TermArgs) : Option TermUnit :=
  if bounds : 0 ≤ args.unit ∧ args.unit < maxTerms then
    if args.userBuf.isSome ∧ 0 < args.userBufSize then some ⟨args.unit.toNat, by omega⟩ else none
  else none

/-- The calls that pass the checks, in their order. -/
def accepted (calls : List (Pid × TermArgs)) : List (Pid × TermArgs) :=
  calls.filter fun call => call.2.check.isSome

/-- The `for` loop of `sys_term_write`, entered with the given `i`. -/
def Writer.loop (w : Write) (i : Nat) : Writer :=
  if i < w.userBuf.length then .putting w i else .unlocking w

namespace Terminals

/-- `USLOSS_DeviceOutput(USLOSS_TERM_DEV, unit, userBuf[i])` -/
def deviceOutput (t : Terminals) (w : Write) (i : Nat) : Terminals :=
  { t with output := Function.update t.output w.unit (t.output w.unit ++ [(w.number, w.userBuf.getD i 0)]) }

end Terminals

/-- `sys_term_write` up to its first `MboxSend`. -/
def sys_term_write (t : Terminals) (args : TermArgs) : Terminals × Writer :=
  match args.check with
  | none => ({ t with returned := t.returned ++ [⟨none, -1⟩] }, .outside)
  | some unit =>
    let w : Write := ⟨t.writes.length, unit, bytesAt args.userBuf args.userBufSize.toNat⟩
    ({ t with writes := t.writes ++ [w] }, .locking w)

/-- What follows in `sys_term_write`. The result of `MboxSend` is not looked
at, and the terminal status `waitDevice` gives is not used. -/
def Writer.op : Writer → Op Terminals Writer
  | .outside => .idle
  | .locking w => .call (.send (mutexMbox w.unit).val none 0) fun _ t => (t, .loop w 0)
  | .putting w i => .go fun t => some (t.deviceOutput w i, .waiting w i)
  | .waiting w i => .go fun t => some (t, .loop w (i + 1))
  | .unlocking w => .call (.recv (mutexMbox w.unit).val ⟨false, 0⟩) fun _ t =>
      ({ t with returned := t.returned ++ [⟨some w.userBuf.length, 0⟩] }, .outside)

/-- Whether the process is in `waitDevice`. -/
def Writer.waits : Writer → Bool
  | .waiting .. => true
  | _ => false

def writing : Routines Terminals Writer TermArgs Empty where
  op := Writer.op
  invoke _ t args := some (sys_term_write t args)
  yields := Writer.waits
  event t _ := t

/-- The call a process is in. -/
def Writer.write : Writer → Option Write
  | .outside => none
  | .locking w | .putting w _ | .waiting w _ | .unlocking w => some w

/-- How many characters the call has sent. -/
def Writer.sent : Writer → Nat
  | .outside | .locking _ => 0
  | .putting _ i => i
  | .waiting _ i => i + 1
  | .unlocking w => w.userBuf.length

def startWriting : Client Terminals Writer :=
  start ⟨fun _ => [], [], []⟩ fun _ => .outside

theorem TermArgs.check_eq_some {args : TermArgs} {unit : TermUnit} : args.check = some unit ↔
    args.unit = unit.val ∧ args.userBuf.isSome ∧ 0 < args.userBufSize := by
  unfold TermArgs.check
  constructor
  · intro passes
    split at passes
    · rename_i bounds
      obtain ⟨rest, same⟩ := Option.ite_none_right_eq_some.mp passes
      obtain rfl := Option.some.inj same
      exact ⟨(Int.toNat_of_nonneg bounds.1).symm, rest⟩
    · cases passes
  · rintro ⟨same, rest⟩
    have bound := unit.isLt
    rw [dif_pos (by omega), if_pos rest]
    exact congrArg some (Fin.ext (by simp [same]))

theorem loop_write (w : Write) (i : Nat) : (Writer.loop w i).write = some w := by
  unfold Writer.loop
  split <;> rfl

/-- The lock mailbox as it is made, whatever is in it. -/
structure LockBox (g : Globals) (m : MboxId) : Prop where
  numSlots : (g.mailboxes m).numSlots = 1
  consumers : (g.mailboxes m).consumers = none
  allocated : (g.mailboxSlotQueues m).queue ≠ none
  noBytes : ∀ r ∈ g.queued m, r.ret = 0

section

variable {g g' : Globals} {p : Pid} {pt : Point} {m : MboxId} {seg : Segment}

theorem LockBox.of_sameBox (box : LockBox g m) (same : g.SameBox m g') : LockBox g' m where
  numSlots := by rw [same.mbox, box.numSlots]
  consumers := by rw [same.mbox, box.consumers]
  allocated := by rw [same.ring]; exact box.allocated
  noBytes := by rw [same.queued]; exact box.noBytes

theorem LockBox.setBlockedProducers (box : LockBox g m) (waiting : List Pid) :
    LockBox (g.setBlockedProducers m waiting) m :=
  ⟨box.numSlots, box.consumers, box.allocated, box.noBytes⟩

theorem LockBox.recordSender (box : LockBox g m) (p : Pid) : LockBox (recordSender g p m) m := by
  unfold UslossKernel.recordSender
  split
  · exact box
  · exact box.setBlockedProducers _

/-- A send on the lock takes it, or waits because it is taken. -/
theorem LockBox.sends (box : LockBox g m) (sound : g.Sound) (active : (g.mailboxes m).isActive = true)
    (path : Path g p pt seg) (runs : (Call.send m.val none 0).Runs pt)
    (slots : ∀ w, pt = .afterBlock w → w.zeroSlot = false) (stocked : ∀ c, pt = .start c → g.freeSlotCount ≠ 0)
    (awake : ∀ k, pt ≠ .afterUnblock k) :
    (∃ r, seg.2 = .returns r ∧ LockBox seg.1 m ∧ g.queued m = [] ∧ seg.1.queued m ≠ []) ∨
    (∃ w, seg.2 = .blocks w ∧ LockBox seg.1 m ∧ seg.1.queued m = g.queued m) ∨ ∃ f, seg.2 = .faults f := by
  have on : pt.fn.addresses m = true := by simp [runs.fn, Call.fn, Fn.addresses]
  have here : ∀ {msg k}, StorePoint g pt m msg k → (g.mailboxSlotQueues m).count = 0 ∧ msg = [] := by
    intro msg k at_
    have numSlots := box.numSlots
    cases at_ with
    | send _ _ _ _ room =>
      cases runs.start_eq
      exact ⟨by omega, rfl⟩
    | resumed _ room =>
      obtain ⟨msg_ptr, msg_size, same, bytes⟩ := runs.waits
      cases same
      exact ⟨by omega, bytes⟩
    | condSend => cases runs.start_eq
  have zero := box.numSlots
  cases path with
  | @refused c _ refused _ =>
    cases runs.start_eq
    refine absurd ⟨m, Globals.activeMbox_eq_some.mpr ⟨rfl, active⟩, ?_, .inr (stocked _ rfl)⟩ refused
    simp [Globals.accepts]
  | storeFaults => exact .inr (.inr ⟨_, rfl⟩)
  | @stores _ n msg _ at_ storable =>
    obtain rfl := at_.addressed on
    obtain ⟨empty, rfl⟩ := here at_
    have nothing : g.queued n = [] := by
      rw [← List.length_eq_zero_iff, Globals.queued_length sound active, empty]
    have after := Globals.queued_storeMessage sound storable (at_.room sound storable) []
    rw [nothing] at after
    refine .inl ⟨_, rfl, ⟨box.numSlots, box.consumers, ?_, ?_⟩, nothing, ?_⟩
    · have allocated := box.allocated
      simpa [returnCode, SlotQueue.enqueue] using allocated
    · simp [returnCode, after]
    · simp [returnCode, after]
  | @storesAndWakes _ n _ _ _ _ at_ _ pointed =>
    obtain rfl := at_.addressed on
    exact absurd box.consumers pointed
  | @sendFullBlocks n =>
    obtain rfl : n = m := Fin.ext (by simpa [Point.fn, Call.fn, Fn.addresses] using on)
    exact .inr (.inl ⟨_, rfl, box.recordSender p, (Globals.recordSender_sameMail g p n).queued_eq n⟩)
  | @resumedFullBlocks n =>
    obtain rfl : n = m := Fin.ext (by simpa [Point.fn, Wait.fn, Fn.addresses] using on)
    exact .inr (.inl ⟨_, rfl, box.recordSender p, (Globals.recordSender_sameMail g p n).queued_eq n⟩)
  | @sendMatches n _ _ _ _ _ none | @sendZeroBlocks n _ _ _ _ none =>
    obtain rfl : n = m := Fin.ext (by simpa [Point.fn, Call.fn, Fn.addresses] using on)
    omega
  | @resumedInactive w inactive =>
    rw [Wait.addressed on, active] at inactive
    cases inactive
  | resumedZero kind =>
    have slot := slots _ rfl
    rcases kind with rfl | rfl <;> cases slot
  | sendMatchedReturns | sendStoredReturns | recvTakenReturns => exact absurd rfl (awake _)
  | created | createFails | recvMatches | recvZeroBlocks | recvEmptyBlocks => cases runs.start_eq
  | resumedEmpty => cases runs.waits
  | takeFaults at_ | takeRejects at_ | takes at_ | takesAndWakes at_ =>
    have fn := runs.fn
    rcases at_.fn with receives | receives <;> rw [receives] at fn <;> cases fn
  | releaseWakesProducer at_ | releaseWakesConsumer at_ | releaseWakesPointer at_ | releaseReturns at_ =>
    have fn := runs.fn
    rw [at_.fn] at fn
    cases fn

/-- The receive of the holder gives the lock back. -/
theorem LockBox.receives (box : LockBox g m) (sound : g.Sound) (active : (g.mailboxes m).isActive = true)
    (path : Path g p pt seg) (starts : pt = .start (.recv m.val ⟨false, 0⟩)) (taken : g.queued m ≠ []) :
    (∃ r, seg.2 = .returns r ∧ LockBox seg.1 m ∧ seg.1.queued m = []) ∨
    (∃ pid r, seg.2 = .unblocks pid (.recvTaken m r) ∧ LockBox seg.1 m ∧ seg.1.queued m = []) ∨
    ∃ f, seg.2 = .faults f := by
  have on : pt.fn.addresses m = true := by simp [starts, Point.fn, Call.fn, Fn.addresses]
  have single : (g.queued m).length ≤ 1 := by
    rw [Globals.queued_length sound active, ← box.numSlots]
    exact sound.count_le active
  have occupied : (g.mailboxSlotQueues m).count ≠ 0 := by
    rw [← Globals.queued_length sound active]
    exact fun none => taken (List.length_eq_zero_iff.mp none)
  have zero := box.numSlots
  -- the one message is taken, and nothing else of the mailbox changes
  have leaves : ∀ {g₀ buffer k} (delivery : Delivery), TakePoint g pt g₀ m buffer k →
      LockBox (g₀.dequeueSlot m delivery) m ∧ (g₀.dequeueSlot m delivery).queued m = [] ∧ (g.received m).ret = 0 := by
    intro g₀ buffer k delivery at_
    have queued := at_.queued sound box.allocated delivery
    have nothing : (g₀.dequeueSlot m delivery).queued m = [] := by
      rw [queued, List.length_cons] at single
      exact List.length_eq_zero_iff.mp (by omega)
    have first := box.noBytes (g.received m) (by rw [queued]; exact List.mem_cons_self ..)
    have numSlots : ((g₀.dequeueSlot m delivery).mailboxes m).numSlots = 1 := (at_.sameMail.numSlots m).trans zero
    have consumers : ((g₀.dequeueSlot m delivery).mailboxes m).consumers = none := by
      rcases at_.tables with rfl | rfl
      · exact box.consumers
      · simp
    have allocated : ((g₀.dequeueSlot m delivery).mailboxSlotQueues m).queue ≠ none := by
      have before := box.allocated
      simpa [SlotQueue.dequeue, at_.sameMail.rings] using before
    exact ⟨⟨numSlots, consumers, allocated, by simp [nothing]⟩, nothing, first⟩
  cases path with
  | @refused c _ refused _ =>
    cases starts
    exact absurd ⟨m, Globals.activeMbox_eq_some.mpr ⟨rfl, active⟩, le_rfl⟩ refused
  | @recvMatches n _ _ _ _ _ none | @recvZeroBlocks n _ _ _ none =>
    obtain rfl : n = m := Fin.ext (by simpa [Point.fn, Call.fn, Fn.addresses] using on)
    omega
  | @recvEmptyBlocks n _ _ _ _ empty =>
    obtain rfl : n = m := Fin.ext (by simpa [Point.fn, Call.fn, Fn.addresses] using on)
    exact absurd empty occupied
  | takeFaults => exact .inr (.inr ⟨_, rfl⟩)
  | @takeRejects _ _ n buffer _ at_ _ small =>
    obtain rfl := at_.addressed on
    have first := (leaves ⟨0, g.received n⟩ at_).2.2
    rw [(at_.of_recv starts).1, first] at small
    exact absurd small (lt_irrefl _)
  | @takes _ g₀ n buffer _ at_ =>
    obtain rfl := at_.addressed on
    obtain ⟨box', nothing, _⟩ := leaves ⟨buffer.msg_max_size, g.received n⟩ at_
    have freed := Globals.queued_freeSlot (g₀.dequeueSlot n ⟨buffer.msg_max_size, g.received n⟩) (g.headSlot n) n
    exact .inl ⟨_, rfl, box'.of_sameBox (Globals.freeSlot_sameBox _), freed.trans nothing⟩
  | @takesAndWakes _ g₀ n buffer _ pid rest at_ =>
    obtain rfl := at_.addressed on
    obtain ⟨box', nothing, _⟩ := leaves ⟨buffer.msg_max_size, g.received n⟩ at_
    have freed := Globals.queued_freeSlot (g₀.dequeueSlot n ⟨buffer.msg_max_size, g.received n⟩) (g.headSlot n) n
    obtain rfl := (at_.of_recv starts).2
    exact .inr (.inl ⟨pid, _, rfl, (box'.of_sameBox (Globals.freeSlot_sameBox _)).setBlockedProducers rest,
      freed.trans nothing⟩)
  | storeFaults at_ | stores at_ | storesAndWakes at_ =>
    rcases at_.fn with sends | sends <;> rw [starts] at sends <;> cases sends
  | releaseWakesProducer at_ | releaseWakesConsumer at_ | releaseWakesPointer at_ | releaseReturns at_ =>
    have fn := at_.fn
    rw [starts] at fn
    cases fn
  | created | createFails | sendMatches | sendZeroBlocks | sendFullBlocks | resumedFullBlocks | resumedEmpty
  | resumedInactive | resumedZero | sendMatchedReturns | sendStoredReturns | recvTakenReturns => cases starts

end

/-- Between the `MboxSend` and the `MboxRecv` of a call on the terminal. -/
def Writer.Holds (unit : TermUnit) (proc : Proc) : Writer → Prop
  | .outside | .locking _ => False
  | .putting w _ | .waiting w _ => w.unit = unit
  | .unlocking w => w.unit = unit ∧ proc = .outside

/-- Whoever is between the two mailbox calls has the message of the lock in
its mailbox, and is alone there. -/
structure Exclusive (unit : TermUnit) (s : Client Terminals Writer) : Prop where
  box : LockBox s.sys.globals (mutexMbox unit)
  locking : ∀ p w k, s.task p = .locking w → w.unit = unit → s.sys.proc p ≠ .unblocking k
  unlocking : ∀ p w, s.task p = .unlocking w → w.unit = unit →
    s.sys.proc p = .outside ∨ ∃ r, s.sys.proc p = .unblocking (.recvTaken (mutexMbox unit) r)
  taken : ∀ p, (s.task p).Holds unit (s.sys.proc p) → s.sys.globals.queued (mutexMbox unit) ≠ []
  alone : ∀ p q, (s.task p).Holds unit (s.sys.proc p) → (s.task q).Holds unit (s.sys.proc q) → p = q

/-- No process outside `sys_term_write` calls with the id of the lock, and a
send on the lock that looks for a free slot finds one. -/
def LockStocked (unit : TermUnit) (s : Client Terminals Writer) (a : ClientAct TermArgs Empty) : Prop :=
  Client.Apart (mutexMbox unit) s a ∧ ∀ p w, s.task p = .locking w → w.unit = unit →
    (a = .run p → s.sys.globals.freeSlotCount ≠ 0) ∧
    (a = .resume p → (s.sys.globals.mailboxSlotQueues (mutexMbox unit)).count = 0 → s.sys.globals.freeSlotCount ≠ 0)

section

variable {unit : TermUnit} {s s' : Client Terminals Writer}

/-- What matters of the other processes is kept when they are woken. -/
theorem Exclusive.others {sys : Sys} {task : Pid → Writer} (exclusive : Exclusive unit s) {p : Pid}
    (tasks : ∀ q, q ≠ p → task q = s.task q)
    (procs : ∀ q, q ≠ p → sys.proc q = s.sys.proc q ∨ sys.proc q = (s.sys.proc q).wake) {q : Pid} (other : q ≠ p) :
    (∀ w k, task q = .locking w → w.unit = unit → sys.proc q ≠ .unblocking k) ∧
    (∀ w, task q = .unlocking w → w.unit = unit →
      sys.proc q = .outside ∨ ∃ r, sys.proc q = .unblocking (.recvTaken (mutexMbox unit) r)) ∧
    ((task q).Holds unit (sys.proc q) → (s.task q).Holds unit (s.sys.proc q)) := by
  rw [tasks q other]
  rcases procs q other with same | woken
  · rw [same]
    exact ⟨fun w k => exclusive.locking q w k, fun w => exclusive.unlocking q w, id⟩
  · rw [woken]
    refine ⟨fun w k at_ own unblocking => ?_, fun w at_ own => ?_, fun holds => ?_⟩
    · refine exclusive.locking q w k at_ own ?_
      cases before : s.sys.proc q <;> rw [before] at unblocking <;> cases unblocking
      rfl
    · rcases exclusive.unlocking q w at_ own with out | ⟨r, inside⟩
      · exact .inl (by rw [out]; rfl)
      · exact .inr ⟨r, by rw [inside]; rfl⟩
    · cases at_ : s.task q with
      | outside | locking | putting | waiting =>
        rw [at_] at holds
        exact holds
      | unlocking w =>
        rw [at_] at holds
        obtain ⟨own, woken⟩ := holds
        rcases exclusive.unlocking q w at_ own with out | ⟨r, inside⟩
        · exact ⟨own, out⟩
        · rw [inside] at woken
          cases woken

/-- What a step by `p` has to leave, as far as `p` is concerned. -/
theorem Exclusive.build (exclusive : Exclusive unit s) {p : Pid} (box : LockBox s'.sys.globals (mutexMbox unit))
    (tasks : ∀ q, q ≠ p → s'.task q = s.task q)
    (procs : ∀ q, q ≠ p → s'.sys.proc q = s.sys.proc q ∨ s'.sys.proc q = (s.sys.proc q).wake)
    (locking : ∀ w k, s'.task p = .locking w → w.unit = unit → s'.sys.proc p ≠ .unblocking k)
    (unlocking : ∀ w, s'.task p = .unlocking w → w.unit = unit →
      s'.sys.proc p = .outside ∨ ∃ r, s'.sys.proc p = .unblocking (.recvTaken (mutexMbox unit) r))
    (enters : (s'.task p).Holds unit (s'.sys.proc p) → s'.sys.globals.queued (mutexMbox unit) ≠ [] ∧
      (s.sys.globals.queued (mutexMbox unit) = [] ∨ (s.task p).Holds unit (s.sys.proc p)))
    (stays : ∀ q, q ≠ p → (s.task q).Holds unit (s.sys.proc q) → s'.sys.globals.queued (mutexMbox unit) ≠ []) :
    Exclusive unit s' where
  box := box
  locking q := by
    by_cases own : q = p
    · subst own
      exact fun w k => locking w k
    · exact (exclusive.others tasks procs own).1
  unlocking q := by
    by_cases own : q = p
    · subst own
      exact unlocking
    · exact (exclusive.others tasks procs own).2.1
  taken q holds := by
    by_cases own : q = p
    · subst own
      exact (enters holds).1
    · exact stays q own ((exclusive.others tasks procs own).2.2 holds)
  alone := by
    have first : ∀ q, q ≠ p → (s'.task q).Holds unit (s'.sys.proc q) →
        ¬ (s'.task p).Holds unit (s'.sys.proc p) := by
      intro q other holds entered
      have before := (exclusive.others tasks procs other).2.2 holds
      rcases (enters entered).2 with free | held
      · exact exclusive.taken q before free
      · exact other (exclusive.alone q p before held)
    intro q r holds holds'
    by_cases own : q = p
    · by_cases own' : r = p
      · rw [own, own']
      · exact absurd (own ▸ holds) (first r own' holds')
    · by_cases own' : r = p
      · exact absurd (own' ▸ holds') (first q own holds)
      · exact exclusive.alone q r ((exclusive.others tasks procs own).2.2 holds)
          ((exclusive.others tasks procs own').2.2 holds')

theorem writing_blocks (place : Writer) : (writing.op place).blocks = false := by
  cases place <;> rfl

theorem mutexMbox_injective {unit unit' : TermUnit} (same : mutexMbox unit = mutexMbox unit') : unit = unit' := by
  have value := congrArg Fin.val same
  simp only [mutexMbox] at value
  exact Fin.ext (by omega)

/-- A step in which `p` comes to another place of the same kind. -/
theorem Exclusive.goes (exclusive : Exclusive unit s) (sys : Sys) {p : Pid} {next : Terminals × Writer}
    (globals : sys.globals = s.sys.globals) (procs : ∀ q, q ≠ p → sys.proc q = s.sys.proc q)
    (out : sys.proc p = .outside)
    (enters : next.2.Holds unit (sys.proc p) → (s.task p).Holds unit (s.sys.proc p)) :
    Exclusive unit (Client.enter writing { s with sys } p next) := by
  have same : (Client.enter writing { s with sys } p next).sys = sys := Client.enter_sys _ p (writing_blocks _)
  have mine : (Client.enter writing { s with sys } p next).task p = next.2 := Function.update_self ..
  refine exclusive.build (p := p) ?_ (fun q other => Function.update_of_ne other _ _) ?_ ?_ ?_ ?_ ?_ <;>
    rw [same]
  · exact globals ▸ exclusive.box
  · exact fun q other => .inl (procs q other)
  · intro w k _ _ inside
    rw [out] at inside
    cases inside
  · exact fun _ _ _ => .inl out
  · intro holds
    rw [mine] at holds
    have before := enters holds
    exact ⟨globals ▸ exclusive.taken p before, .inr before⟩
  · exact fun q _ holds => globals ▸ exclusive.taken q holds

theorem Exclusive.locks (exclusive : Exclusive unit s) (keeps : s.Keeps writing (mutexMbox unit)) {p : Pid} {w : Write}
    {pt : Point} {next : Result → Terminals → Terminals × Writer} (task : s.task p = .locking w) (own : w.unit = unit)
    (here : (s.sys.proc p).At pt)
    (runs : (Call.send (mutexMbox unit).val none 0).Runs pt)
    (stocked : ∀ c, pt = .start c → s.sys.globals.freeSlotCount ≠ 0) :
    Exclusive unit (s.advance writing p pt next) := by
  have slots : ∀ w', pt = .afterBlock w' → w'.zeroSlot = false := by
    rintro w' rfl
    have on : w'.mbox = mutexMbox unit := Wait.addressed (by rw [runs.waits.fn]; simp [Call.fn, Fn.addresses])
    have fits := (here.wait_fits (keeps.fits p) on).2
    rw [on, exclusive.box.numSlots] at fits
    simpa using fits
  have awake : ∀ k, pt ≠ .afterUnblock k := by
    rintro k rfl
    exact exclusive.locking p w k task own here.unblocking_eq
  -- the call does not return: nobody comes to hold the lock
  have stuck : (∀ r, (pt.exec s.sys.globals p).2 ≠ .returns r) → LockBox (s.sys.run p pt).globals (mutexMbox unit) →
      (s.sys.run p pt).globals.queued (mutexMbox unit) = s.sys.globals.queued (mutexMbox unit) →
      (∀ k, (s.sys.run p pt).proc p ≠ .unblocking k) → Exclusive unit (s.advance writing p pt next) := by
    intro ends box same still
    rw [Client.advance_stays ends]
    refine exclusive.build (p := p) box (fun _ _ => rfl) (fun q other => ?_) (fun _ k _ _ => still k) ?_ ?_ ?_
    · exact (Sys.run_other other).imp_right And.left
    · intro w' at_
      rw [task] at at_
      cases at_
    · intro holds
      rw [task] at holds
      exact holds.elim
    · exact fun q _ holds => by rw [same]; exact exclusive.taken q holds
  have path := Point.exec_path s.sys.globals p pt
  rcases exclusive.box.sends keeps.sound keeps.active path runs slots stocked awake with
    ⟨r, ends, box, free, now⟩ | ⟨w', ends, box, same⟩ | ⟨f, ends⟩
  · have globals : (s.sys.run p pt).globals = (pt.exec s.sys.globals p).1 := Sys.run_globals (by simp [ends])
    obtain ⟨sys, _, _, out⟩ := Client.advance_returns (R := writing) next ends (writing_blocks _)
    refine exclusive.build (p := p) ?_ (fun q other => Client.advance_task_of_ne s other ..)
      (fun q other => Client.advance_other q other) ?_ ?_ ?_ ?_ <;> rw [sys]
    · rw [globals]
      exact box
    · intro w' k _ _ inside
      rw [out] at inside
      cases inside
    · exact fun _ _ _ => .inl out
    · exact fun _ => ⟨by rw [globals]; exact now, .inl free⟩
    · exact fun _ _ _ => by rw [globals]; exact now
  · have globals : (s.sys.run p pt).globals = (pt.exec s.sys.globals p).1 := Sys.run_globals (by simp [ends])
    refine stuck (by simp [ends]) (by rw [globals]; exact box) (by rw [globals]; exact same) fun k inside => ?_
    rcases Sys.run_self s.sys p pt with ⟨_, _, at_⟩ | ⟨_, _, at_⟩ | ⟨_, _, other, _⟩ | ⟨_, other, _⟩
    · rw [at_] at inside
      cases inside
    · rw [at_] at inside
      cases inside
    all_goals rw [ends] at other; cases other
  · obtain ⟨globals, procs⟩ := Sys.run_faults ends
    refine stuck (by simp [ends]) (by rw [globals]; exact exclusive.box) (by rw [globals]) fun k inside => ?_
    rw [procs] at inside
    exact exclusive.locking p w k task own inside

/-- The holder's receive gives the lock back. -/
theorem Exclusive.unlocks (exclusive : Exclusive unit s) (keeps : s.Keeps writing (mutexMbox unit)) {p : Pid}
    {w : Write} {next : Result → Terminals → Terminals × Writer} (task : s.task p = .unlocking w)
    (own : w.unit = unit) (lands : ∀ r t, (next r t).2 = .outside) (out : s.sys.proc p = .outside) :
    Exclusive unit (s.advance writing p (.start (.recv (mutexMbox unit).val ⟨false, 0⟩)) next) := by
  have held : (s.task p).Holds unit (s.sys.proc p) := by
    rw [task]
    exact ⟨own, out⟩
  have others : ∀ q, q ≠ p → ¬ (s.task q).Holds unit (s.sys.proc q) := fun q other holds =>
    other (exclusive.alone q p holds held)
  generalize starts : Point.start (.recv (mutexMbox unit).val ⟨false, 0⟩) = pt
  have path := Point.exec_path s.sys.globals p pt
  rcases exclusive.box.receives keeps.sound keeps.active path starts.symm (exclusive.taken p held) with
    ⟨r, ends, box, _⟩ | ⟨pid, r, ends, box, _⟩ | ⟨f, ends⟩
  · have globals : (s.sys.run p pt).globals = (pt.exec s.sys.globals p).1 := Sys.run_globals (by simp [ends])
    obtain ⟨sys, at_, _, _⟩ := Client.advance_returns (R := writing) next ends (writing_blocks _)
    rw [lands] at at_
    refine exclusive.build (p := p) (by rw [sys, globals]; exact box)
      (fun q other => Client.advance_task_of_ne s other ..) (fun q other => Client.advance_other q other) ?_ ?_ ?_
      (fun q other holds => absurd holds (others q other))
    · intro w' _ there
      rw [at_] at there
      cases there
    · intro w' there
      rw [at_] at there
      cases there
    · intro holds
      rw [at_] at holds
      exact holds.elim
  · have globals : (s.sys.run p pt).globals = (pt.exec s.sys.globals p).1 := Sys.run_globals (by simp [ends])
    rw [Client.advance_stays (by simp [ends])]
    have inside : (s.sys.run p pt).proc p = .unblocking (.recvTaken (mutexMbox unit) r) := by
      rcases Sys.run_self s.sys p pt with ⟨_, other, _⟩ | ⟨_, other, _⟩ | ⟨_, _, same, at_⟩ | ⟨_, other, _⟩
      · rw [ends] at other
        cases other
      · rw [ends] at other
        cases other
      · rw [ends] at same
        cases same
        exact at_
      · rw [ends] at other
        cases other
    refine exclusive.build (p := p) (by rw [globals]; exact box) (fun _ _ => rfl)
      (fun q other => (Sys.run_other other).imp_right And.left) ?_ (fun _ _ _ => .inr ⟨r, inside⟩) ?_
      (fun q other holds => absurd holds (others q other))
    · intro w' k at_
      rw [task] at at_
      cases at_
    · intro holds
      rw [task, inside] at holds
      cases holds.2
  · obtain ⟨globals, procs⟩ := Sys.run_faults ends
    rw [Client.advance_stays (by simp [ends])]
    refine exclusive.build (p := p) (by rw [globals]; exact exclusive.box) (fun _ _ => rfl)
      (fun q _ => .inl (congrFun procs q)) ?_ ?_ ?_ (fun q other holds => absurd holds (others q other))
    · intro w' k at_
      rw [task] at at_
      cases at_
    · exact fun _ _ _ => .inl ((congrFun procs p).trans out)
    · exact fun _ => ⟨by rw [globals]; exact exclusive.taken p held, .inr held⟩

/-- It returns when the sender it has woken has had its turn. -/
theorem Exclusive.unlocked (exclusive : Exclusive unit s) {p : Pid} {r : Result}
    {next : Result → Terminals → Terminals × Writer} (lands : ∀ r t, (next r t).2 = .outside) :
    Exclusive unit (s.advance writing p (.afterUnblock (.recvTaken (mutexMbox unit) r)) next) := by
  have ends : ((Point.afterUnblock (.recvTaken (mutexMbox unit) r)).exec s.sys.globals p).2 = .returns r := rfl
  have globals := @Sys.run_globals s.sys p (.afterUnblock (.recvTaken (mutexMbox unit) r)) (by simp [ends])
  obtain ⟨sys, at_, _, _⟩ := Client.advance_returns (R := writing) next ends (writing_blocks _)
  rw [lands] at at_
  refine exclusive.build (p := p) ?_ (fun q other => Client.advance_task_of_ne s other ..)
    (fun q other => Client.advance_other q other) ?_ ?_ ?_ ?_
  · rw [sys, globals]
    exact exclusive.box
  · intro w' _ there
    rw [at_] at there
    cases there
  · intro w' there
    rw [at_] at there
    cases there
  · intro holds
    rw [at_] at holds
    exact holds.elim
  · intro q _ holds
    rw [sys, globals]
    exact exclusive.taken q holds

/-- A call on another lock. -/
theorem Exclusive.elsewhere (exclusive : Exclusive unit s) {p : Pid} {pt : Point} {w : Write}
    {next : Result → Terminals → Terminals × Writer} (write : (s.task p).write = some w) (other : w.unit ≠ unit)
    (lands : ∀ r t, (next r t).2.write = some w ∨ (next r t).2 = .outside)
    (same : s.sys.globals.SameBox (mutexMbox unit) (s.advance writing p pt next).sys.globals) :
    Exclusive unit (s.advance writing p pt next) := by
  -- wherever the process comes to, it is not in a call on this terminal
  have away : ∀ place : Writer, place.write = some w ∨ place = .outside →
      (∀ w', place = .locking w' → w'.unit ≠ unit) ∧ (∀ w', place = .unlocking w' → w'.unit ≠ unit) ∧
        ∀ proc, ¬ place.Holds unit proc := by
    rintro place (there | rfl)
    · cases place with
      | outside => cases there
      | locking w' | putting w' i | waiting w' i | unlocking w' =>
        cases there
        refine ⟨?_, ?_, ?_⟩ <;> simp [Writer.Holds, other]
    · simp [Writer.Holds]
  have lands' : ((s.advance writing p pt next).task p).write = some w ∨
      (s.advance writing p pt next).task p = .outside := by
    rcases Client.advance_cases (R := writing) s p pt next with ⟨r, _, same⟩ | ⟨_, same⟩ <;> rw [same]
    · rw [Client.enter_task, Function.update_self]
      exact lands _ _
    · exact .inl write
  obtain ⟨notLocking, notUnlocking, notHolding⟩ := away _ lands'
  exact exclusive.build (p := p) (exclusive.box.of_sameBox same) (fun q other => Client.advance_task_of_ne s other ..)
    (fun q other => Client.advance_other q other) (fun w' _ there own => absurd own (notLocking w' there))
    (fun w' there own => absurd own (notUnlocking w' there)) (fun holds => absurd holds (notHolding _))
    (fun q _ holds => by rw [same.queued]; exact exclusive.taken q holds)

theorem idle_outside {place : Writer} (idle : writing.op place = .idle) : place = .outside := by
  cases place <;> first | rfl | cases idle

theorem addresses_mutexMbox {unit unit' : TermUnit} (other : unit' ≠ unit) (msg_ptr : Option Message)
    (msg_size : Int) (buffer : Buffer) :
    (Call.send (mutexMbox unit').val msg_ptr msg_size).fn.addresses (mutexMbox unit) = false ∧
      (Call.recv (mutexMbox unit').val buffer).fn.addresses (mutexMbox unit) = false := by
  have apart : ((mutexMbox unit').val : Int) ≠ (mutexMbox unit).val := by
    intro same
    exact other (mutexMbox_injective (Fin.ext (by exact_mod_cast same)))
  exact ⟨decide_eq_false apart, decide_eq_false apart⟩

/-- One stretch of code of a mailbox call in `sys_term_write`. -/
theorem Exclusive.advance (exclusive : Exclusive unit s) (keeps : s.Keeps writing (mutexMbox unit)) {p : Pid}
    {pt : Point} {c : Call} {next : Result → Terminals → Terminals × Writer}
    (place : writing.op (s.task p) = .call c next) (here : (s.sys.proc p).At pt) (runs : c.Runs pt)
    (stocked : ∀ w c', s.task p = .locking w → w.unit = unit → pt = .start c' → s.sys.globals.freeSlotCount ≠ 0) :
    Exclusive unit (s.advance writing p pt next) := by
  cases task : s.task p with
  | outside | putting w i | waiting w i =>
    rw [task] at place
    cases place
  | locking w =>
    rw [task] at place
    cases place
    by_cases own : w.unit = unit
    · subst own
      exact exclusive.locks keeps task rfl here runs fun c' => stocked w c' task rfl
    · have away := (addresses_mutexMbox own none 0 ⟨false, 0⟩).1
      exact exclusive.elsewhere (by rw [task]; rfl) own (fun _ _ => .inl (loop_write w 0))
        (keeps.advance_sameBox runs away)
  | unlocking w =>
    rw [task] at place
    cases place
    by_cases own : w.unit = unit
    · subst own
      rcases exclusive.unlocking p w task rfl with out | ⟨r, inside⟩
      · rw [out] at here
        cases here
        cases runs.start_eq
        exact exclusive.unlocks keeps task rfl (fun _ _ => rfl) out
      · rw [inside] at here
        cases here
        exact exclusive.unlocked fun _ _ => rfl
    · have away := (addresses_mutexMbox own none 0 ⟨false, 0⟩).2
      exact exclusive.elsewhere (by rw [task]; rfl) own (fun _ _ => .inr rfl) (keeps.advance_sameBox runs away)

theorem Exclusive.step {a : ClientAct TermArgs Empty} (exclusive : Exclusive unit s)
    (keeps : s.Keeps writing (mutexMbox unit)) (stocked : LockStocked unit s a) (moves : s.Move writing a s') :
    Exclusive unit s' := by
  cases moves with
  | @user a sys may moved =>
    have same := (keeps.user may (fun p c same => stocked.1 p c (by rw [same])) moved).1
    have task : s.task a.pid = .outside := by
      rcases keeps.user_place may moved with idle | ⟨⟨_, blocked⟩, _⟩
      · exact idle_outside idle
      · cases task : s.task a.pid <;> rw [task] at blocked <;> cases blocked
    refine exclusive.build (p := a.pid) (exclusive.box.of_sameBox same) (fun _ _ => rfl) (Client.user_other moved)
      ?_ ?_ ?_ (fun q _ holds => by rw [same.queued]; exact exclusive.taken q holds) <;> simp only [task]
    · intro w k at_
      cases at_
    · intro w at_
      cases at_
    · exact fun holds => holds.elim
  | @invokes p args next idle may out invoked =>
    refine exclusive.goes { s.sys with cpu := some p } rfl (fun _ _ => rfl) out fun holds => ?_
    obtain rfl := Option.some.inj invoked
    unfold sys_term_write at holds
    split at holds <;> exact holds.elim
  | @calls p c next place may out =>
    exact exclusive.advance keeps place (out ▸ .start) .start fun w _ task own _ => (stocked.2 p w task own).1 rfl
  | @resumes p pt c next place may here resumes =>
    exact exclusive.advance keeps place here (Client.runs_of_placed keeps.placed place here resumes)
      fun _ c' _ _ start => absurd start (resumes c')
  | @wakes p _ _ place | @returns p _ place => cases task : s.task p <;> rw [task] at place <;> cases place
  | @goes p next result place may out went =>
    refine exclusive.goes { s.sys with cpu := some p } rfl (fun _ _ => rfl) out fun holds => ?_
    cases task : s.task p with
    | outside | locking w | unlocking w =>
      rw [task] at place
      cases place
    | putting w i =>
      rw [task] at place
      cases place
      obtain rfl := Option.some.inj went
      exact holds
    | waiting w i =>
      rw [task] at place
      cases place
      obtain rfl := Option.some.inj went
      simp only [Writer.loop] at holds
      split at holds
      · exact holds
      · exact holds.1
  | yields => exact ⟨exclusive.box, exclusive.locking, exclusive.unlocking, exclusive.taken, exclusive.alone⟩
  | @event e => exact e.elim

end

end Phase4a

end UslossKernel
