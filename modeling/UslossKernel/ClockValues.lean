import UslossKernel.CallTurns
import UslossKernel.ClockService
import UslossKernel.Receipts

namespace UslossKernel

variable {g g' : Globals} {p q : Pid} {pt : Point} {seg : Segment} {m : MboxId} {w : Wait}

/-- A call that waits has moved no message. -/
theorem Path.suspends (path : Path g p pt seg) (ends : seg.2 = .blocks w) :
    (pt = .afterBlock w ∨ ∃ c, pt = .start c ∧ c.Waits w) ∧ seg.1.stored = g.stored ∧ seg.1.taken = g.taken := by
  have recorded : ∀ m, (recordSender g p m).stored = g.stored ∧ (recordSender g p m).taken = g.taken := by
    intro m
    have same := Globals.recordSender_sameMail g p m
    exact ⟨same.stored, same.taken⟩
  cases path with
  | sendZeroBlocks =>
    cases ends
    exact ⟨.inr ⟨_, rfl, _, _, rfl⟩, rfl, rfl⟩
  | sendFullBlocks =>
    cases ends
    exact ⟨.inr ⟨_, rfl, _, _, rfl, rfl⟩, recorded _⟩
  | resumedFullBlocks =>
    cases ends
    exact ⟨.inl rfl, recorded _⟩
  | recvZeroBlocks =>
    cases ends
    exact ⟨.inr ⟨_, rfl, _, rfl⟩, rfl, rfl⟩
  | recvEmptyBlocks =>
    cases ends
    exact ⟨.inr ⟨_, rfl, rfl⟩, rfl, rfl⟩
  | refused | created | createFails | sendMatches | storeFaults | stores | storesAndWakes | recvMatches
  | resumedEmpty | takeFaults | takeRejects | takes | takesAndWakes | resumedInactive | resumedZero
  | sendMatchedReturns | sendStoredReturns | recvTakenReturns | releaseWakesProducer | releaseWakesConsumer
  | releaseWakesPointer | releaseReturns => cases ends

/-- What has been stored in a mailbox grows where a message is stored in it. -/
theorem Transfer.stored (transfer : Transfer g pt g') (m : MboxId) :
    g'.stored m = g.stored m ∨ ∃ msg k, StorePoint g pt m msg k ∧ g'.stored m = g.stored m ++ [msg] := by
  cases transfer with
  | keeps same | creates _ _ same | createFails _ same | rejects _ _ _ same | takes _ _ _ same | deactivates _ same
  | frees _ same | releases _ _ same =>
    rw [same.stored]
    exact .inl rfl
  | @stores _ _ n msg k at_ _ same =>
    rw [same.stored, Globals.storeMessage_stored]
    by_cases here : m = n
    · subst here
      rw [Function.update_self]
      exact .inr ⟨msg, k, at_, rfl⟩
    · rw [Function.update_of_ne here]
      exact .inl rfl

/-- What has been taken from it grows where a message is taken from it. -/
theorem Transfer.taken (transfer : Transfer g pt g') (m : MboxId) :
    g'.taken m = g.taken m ∨ ∃ g₀ buffer k r, TakePoint g pt g₀ m buffer k ∧
      g'.taken m = g.taken m ++ [⟨buffer.msg_max_size, r⟩] := by
  have taken : ∀ {n g₀ buffer k r}, TakePoint g pt g₀ n buffer k →
      g'.taken = (g.dequeueSlot n ⟨buffer.msg_max_size, r⟩).taken → g'.taken m = g.taken m ∨
      ∃ g₀ buffer k r, TakePoint g pt g₀ m buffer k ∧ g'.taken m = g.taken m ++ [⟨buffer.msg_max_size, r⟩] := by
    intro n g₀ buffer k r at_ more
    rw [more, Globals.dequeueSlot_taken]
    by_cases here : m = n
    · subst here
      rw [Function.update_self]
      exact .inr ⟨g₀, buffer, k, r, at_, rfl⟩
    · rw [Function.update_of_ne here]
      exact .inl rfl
  cases transfer with
  | keeps same | creates _ _ same | createFails _ same | stores _ _ same | deactivates _ same | frees _ same
  | releases _ _ same =>
    rw [same.taken]
    exact .inl rfl
  | rejects at_ _ _ same => exact taken at_ same.taken
  | takes at_ _ _ same => exact taken at_ same.taken

/-- A receive from a mailbox with slots hands out what it has taken, unless a
woken receiver finds nothing there. -/
theorem Path.received (path : Path g p pt seg) (fn : pt.fn = .recv (m : Nat))
    (active : (g.mailboxes m).isActive = true) (slotted : (g.mailboxes m).numSlots ≠ 0) {proc : Proc}
    (here : proc.At pt) (fits : proc.FitsAt g m) (asks : ∀ b, pt = .start (.recv (m : Nat) b) → 0 ≤ b.msg_max_size)
    (found : ∀ b, pt = .afterBlock (.recvEmpty m b) → (g.mailboxSlotQueues m).count ≠ 0) :
    (∀ r, seg.2 = .returns r → pt = .afterUnblock (.recvTaken m r) ∨ r ∈ (seg.1.taken m).map Delivery.result) ∧
      ∀ pid k, seg.2 = .unblocks pid k → ∃ r, k = .recvTaken m r ∧ r ∈ (seg.1.taken m).map Delivery.result := by
  have addressed : ∀ {n : MboxId}, Fn.recv (n : Nat) = .recv (m : Nat) → n = m := by
    intro n same
    exact Fin.ext (by exact_mod_cast Fn.recv.inj same)
  have takes : ∀ {n g₀ b k}, TakePoint g pt g₀ n b k → n = m ∧ k = .recvTaken m := by
    intro n g₀ b k at_
    cases at_ with
    | recv | resumed =>
      obtain rfl := addressed fn
      exact ⟨rfl, rfl⟩
    | condRecv => cases fn
  have last : ∀ (g₀ : Globals) (delivery : Delivery),
      delivery.result ∈ ((g₀.dequeueSlot m delivery).taken m).map Delivery.result := by
    intro g₀ delivery
    simp
  cases path with
  | @refused c _ refused =>
    cases c with
    | recv id b =>
      obtain rfl : id = (m : Nat) := Fn.recv.inj fn
      refine absurd ⟨m, Globals.activeMbox_eq_some.mpr ⟨rfl, active⟩, asks b rfl⟩ refused
    | create | release | send | condSend | condRecv => cases fn
  | takeRejects at_ =>
    obtain ⟨rfl, _⟩ := takes at_
    refine ⟨?_, by rintro _ _ ⟨⟩⟩
    rintro r ⟨⟩
    exact .inr (last _ ⟨_, _⟩)
  | takes at_ =>
    obtain ⟨rfl, _⟩ := takes at_
    refine ⟨?_, by rintro _ _ ⟨⟩⟩
    rintro r ⟨⟩
    exact .inr (last _ ⟨_, _⟩)
  | takesAndWakes at_ =>
    obtain ⟨rfl, rfl⟩ := takes at_
    refine ⟨by rintro _ ⟨⟩, ?_⟩
    rintro _ _ ⟨⟩
    exact ⟨_, rfl, last _ ⟨_, _⟩⟩
  | resumedEmpty _ empty =>
    obtain rfl := addressed fn
    exact absurd empty (found _ rfl)
  | @resumedInactive w inactive =>
    have same : w.fn = .recv (m : Nat) := fn
    rw [Wait.addressed (m := m) (by simp [same, Fn.addresses])] at inactive
    exact absurd (active.symm.trans inactive) (by decide)
  | @resumedZero w n same =>
    rcases same with rfl | rfl
    · cases fn
    · obtain rfl := addressed fn
      exact absurd ((here.wait_fits fits rfl).2.mp rfl) slotted
  | @sendStoredReturns k n same =>
    rcases same with rfl | rfl | rfl
    · cases fn
    · obtain rfl := addressed fn
      exact absurd (here.cont_fits fits rfl).2 slotted
    · cases fn
  | @recvTakenReturns k n r same =>
    rcases same with rfl | rfl
    · obtain rfl := addressed fn
      refine ⟨?_, by rintro _ _ ⟨⟩⟩
      rintro _ ⟨⟩
      exact .inl rfl
    · cases fn
  | @recvMatches n _ _ _ _ _ zero =>
    obtain rfl := addressed fn
    exact absurd zero slotted
  | recvZeroBlocks | recvEmptyBlocks | takeFaults | storeFaults => exact ⟨by rintro _ ⟨⟩, by rintro _ _ ⟨⟩⟩
  | created | createFails | sendMatches | sendZeroBlocks | sendFullBlocks | resumedFullBlocks
  | sendMatchedReturns => cases fn
  | stores at_ | storesAndWakes at_ => rcases at_.fn with sends | sends <;> rw [fn] at sends <;> cases sends
  | releaseWakesProducer at_ | releaseWakesConsumer at_ | releaseWakesPointer at_ | releaseReturns at_ =>
    rw [at_.fn] at fn
    cases fn

namespace Sys

/-- The same run, but for a process that may have got the CPU earlier. -/
structure Early (s n : Sys) : Prop where
  same : s = { n with cpu := s.cpu }
  cpu : n.cpu = none ∨ n.cpu = s.cpu

variable {s s' n : Sys} {a : Act}

theorem Early.mayRun (early : s.Early n) (may : s.mayRun p = true) : n.mayRun p = true := by
  obtain ⟨same, cpu⟩ := early
  have fault : s.fault = n.fault := by rw [same]
  unfold Sys.mayRun at may ⊢
  rw [fault, Bool.and_eq_true] at may
  rw [Bool.and_eq_true]
  refine ⟨may.1, ?_⟩
  rcases cpu with free | held
  · simp [free]
  · rw [held]
    exact may.2

/-- A process that may run gets the CPU. -/
theorem Early.given (early : s.Early n) (may : s.mayRun p = true) : { s with cpu := some p }.Early n := by
  obtain ⟨same, cpu⟩ := early
  refine ⟨by rw [same], ?_⟩
  unfold Sys.mayRun at may
  rw [Bool.and_eq_true] at may
  rcases cpu with free | held
  · exact .inl free
  · rw [held]
    simpa using may.2

theorem Early.run (early : s.Early n) (p : Pid) (pt : Point) : (s.run p pt).Early (n.run p pt) := by
  obtain ⟨same, cpu⟩ := early
  obtain ⟨globals, proc, cpu', fault, calls, ordinal, returned⟩ := n
  generalize s.cpu = c at same cpu
  subst same
  unfold Sys.run Sys.after
  cases (pt.exec globals p).2 with
  | returns | blocks | unblocks => cases pt <;> exact ⟨rfl, .inr rfl⟩
  | faults => cases pt <;> exact ⟨rfl, cpu⟩

theorem Early.step (early : s.Early n) (moves : s.step a = some s') : ∃ n', n.step a = some n' ∧ s'.Early n' := by
  have proc : n.proc = s.proc := by rw [early.same]
  cases a with
  | call p c =>
    simp only [Sys.step, Option.ite_none_right_eq_some, Option.some.injEq] at moves ⊢
    obtain ⟨⟨may, out⟩, rfl⟩ := moves
    exact ⟨_, ⟨⟨early.mayRun may, proc ▸ out⟩, rfl⟩, early.run p _⟩
  | resume p =>
    simp only [Sys.step, Option.ite_none_right_eq_some, proc] at moves ⊢
    obtain ⟨may, moves⟩ := moves
    cases place : s.proc p with
    | woken w | unblocking k =>
      simp only [place, Option.some.injEq] at moves ⊢
      subst moves
      exact ⟨_, ⟨early.mayRun may, rfl⟩, early.run p _⟩
    | outside | asleep | blocked => simp [place] at moves
  | yield p =>
    simp only [Sys.step, Option.ite_none_right_eq_some, Option.some.injEq] at moves ⊢
    obtain ⟨⟨may, out⟩, rfl⟩ := moves
    refine ⟨_, ⟨⟨early.mayRun may, proc ▸ out⟩, rfl⟩, ?_, .inl rfl⟩
    rw [early.same]
  | sleep p =>
    simp only [Sys.step, Option.ite_none_right_eq_some, Option.some.injEq] at moves ⊢
    obtain ⟨⟨may, out⟩, rfl⟩ := moves
    refine ⟨_, ⟨⟨early.mayRun may, proc ▸ out⟩, rfl⟩, ?_, .inl rfl⟩
    rw [early.same]
  | rouse p =>
    simp only [Sys.step, Option.ite_none_right_eq_some, Option.some.injEq] at moves ⊢
    obtain ⟨⟨may, asleep⟩, rfl⟩ := moves
    refine ⟨_, ⟨⟨by rw [early.same] at may; exact may, proc ▸ asleep⟩, rfl⟩, ?_, early.cpu⟩
    rw [early.same]

end Sys

/-- The process that an action is one of. -/
def ClockAct.pid : ClockAct → Pid
  | .mailbox a => a.pid
  | .waitDevice p _ _ | .interrupt p => p

/-- The value of `clockTicks` after `n` interrupts, in memory. -/
def tickBytes (n : Nat) : Message :=
  intBytes (BitVec.ofNat 32 (n * 100000))

/-- The clock with its ticks counted. `tick` is the number of the interrupt a
process has handled last, and `sent` has the number of the interrupt that has
sent it for each message stored in the clock mailbox. No function reads these. -/
structure CountedClock where
  clock : ClockSys
  ticks : Nat
  tick : Pid → Nat
  sent : List Nat

namespace CountedClock

def boot : CountedClock where
  clock := .boot
  ticks := 0
  tick _ := 0
  sent := []

/-- An interrupt is counted when it comes. -/
def count (t : CountedClock) : ClockAct → CountedClock
  | .interrupt p => { t with ticks := t.ticks + 1, tick := Function.update t.tick p (t.ticks + 1) }
  | _ => t

/-- What has been stored meanwhile comes from the process that has run. -/
def record (t : CountedClock) (p : Pid) (clock : ClockSys) : CountedClock :=
  { t with
    clock
    sent := t.sent ++ List.replicate ((clock.sys.globals.stored clockMailbox).length -
      (t.clock.sys.globals.stored clockMailbox).length) (t.tick p) }

def step (t : CountedClock) (a : ClockAct) : Option CountedClock :=
  (t.clock.step a).map ((t.count a).record a.pid)

/-- Waiting in a send on the clock mailbox. -/
def SendWaits (t : CountedClock) (p : Pid) : Prop :=
  (t.clock.sys.proc p).waitsIn (Wait.sendsTo clockMailbox) = true

/-- Nobody but `p` is about to send the latest tick. -/
structure Sends (t : CountedClock) (p : Pid) : Prop where
  first : 1 ≤ t.ticks
  unsent : t.ticks ∉ t.sent
  tick : t.tick p = t.ticks
  handling : t.clock.handling p = true
  alone : ∀ q, t.SendWaits q → q = p

/-- What holds of a process that is inside a call on the clock mailbox. -/
def Standing (t : CountedClock) (p : Pid) : Proc → Prop
  | .blocked w | .woken w => (∀ msg, w = .sendFull clockMailbox msg → msg = tickBytes t.ticks ∧ t.Sends p) ∧
      ∀ b, w = .recvEmpty clockMailbox b → b = ⟨true, 4⟩
  | .unblocking k => ∀ r, k = .recvTaken clockMailbox r →
      r ∈ (t.clock.sys.globals.taken clockMailbox).map Delivery.result
  | .outside | .asleep => True

/-- The ticks that have been stored are in order, each with its own value, and
the latest one is stored or on its way. -/
structure Ticking (t : CountedClock) : Prop where
  follows : ∃ n, Transition.Run Sys.step (Sys.Unreleased clockMailbox) Sys.boot n ∧ t.clock.sys.Early n
  active : (t.clock.sys.globals.mailboxes clockMailbox).isActive = true
  slotted : (t.clock.sys.globals.mailboxes clockMailbox).numSlots ≠ 0
  counter : t.clock.clockTicks = BitVec.ofNat 32 (t.ticks * 100000)
  bound : t.ticks * 100000 < 2 ^ 31
  stored : t.clock.sys.globals.stored clockMailbox = t.sent.map tickBytes
  increasing : t.sent.Pairwise (· < ·)
  ticked : ∀ n ∈ t.sent, 1 ≤ n ∧ n ≤ t.ticks
  sizes : ∀ d ∈ t.clock.sys.globals.taken clockMailbox, d.maxSize = 4
  returned : ∀ e ∈ t.clock.sys.returned (.recv (clockMailbox : Nat)),
    e.2 ∈ (t.clock.sys.globals.taken clockMailbox).map Delivery.result
  standing : ∀ q, t.Standing q (t.clock.sys.proc q)

/-- The points a process runs on from: on the clock mailbox only the handler
sends, and a woken receiver finds a tick. -/
inductive Enters (t : CountedClock) (p : Pid) : Point → Prop
  | elsewhere {c : Call} : c.fn.addresses clockMailbox = false → Enters t p (.start c)
  | ticks : t.Sends p → Enters t p (.start t.clock.handlerSend)
  | waits : Enters t p (.start (.recv (clockMailbox : Nat) ⟨true, 4⟩))
  | resumes {w : Wait} : (∀ b, w = .recvEmpty clockMailbox b →
      (t.clock.sys.globals.mailboxSlotQueues clockMailbox).count ≠ 0) → Enters t p (.afterBlock w)
  | returns {k : Cont} : Enters t p (.afterUnblock k)

variable {t t' : CountedClock} {msg : Message} {k : Cont} {b : Buffer}

theorem Ticking.handlerSend_carries (ticking : t.Ticking) :
    bytesAt (some (intBytes t.clock.clockTicks)) 4 = tickBytes t.ticks := by
  have length : (intBytes t.clock.clockTicks).length = 4 := by simp [intBytes]
  rw [bytesAt_take _ length.ge, ← length, List.take_length, ticking.counter]
  rfl

/-- What is stored in the clock mailbox is the latest tick. -/
theorem Ticking.stores (ticking : t.Ticking) (here : (t.clock.sys.proc p).At pt) (enters : t.Enters p pt)
    (at_ : StorePoint t.clock.sys.globals pt clockMailbox msg k) : msg = tickBytes t.ticks ∧ t.Sends p := by
  cases at_ with
  | send =>
    cases enters with
    | elsewhere away => simp [Call.fn, Fn.addresses] at away
    | ticks sends => exact ⟨ticking.handlerSend_carries, sends⟩
  | resumed =>
    have standing := ticking.standing p
    rw [here.woken_eq] at standing
    exact standing.1 _ rfl
  | condSend =>
    cases enters with
    | elsewhere away => simp [Call.fn, Fn.addresses] at away

/-- What is taken from it is an `int`. -/
theorem Ticking.takes (ticking : t.Ticking) (here : (t.clock.sys.proc p).At pt) (enters : t.Enters p pt)
    {g₀ : Globals} {k : Result → Cont} (at_ : TakePoint t.clock.sys.globals pt g₀ clockMailbox b k) :
    b = ⟨true, 4⟩ := by
  cases at_ with
  | recv =>
    cases enters with
    | elsewhere away => simp [Call.fn, Fn.addresses] at away
    | waits => rfl
  | resumed =>
    have standing := ticking.standing p
    rw [here.woken_eq] at standing
    exact standing.2 _ rfl
  | condRecv =>
    cases enters with
    | elsewhere away => simp [Call.fn, Fn.addresses] at away

/-- The state after `p` has run a stretch of code. -/
def run (t : CountedClock) (p : Pid) (pt : Point) : CountedClock :=
  t.record p (t.clock.moveTo (t.clock.sys.run p pt))

/-- Who waits with a send after the stretch did so before, or has the latest
tick to send. -/
theorem waiting (here : (t.clock.sys.proc p).At pt) (enters : t.Enters p pt)
    (waits : (t.run p pt).SendWaits q) : t.SendWaits q ∨ q = p ∧ t.Sends p := by
  have path := Point.exec_path t.clock.sys.globals p pt
  by_cases own : q = p
  · subst own
    change ((t.clock.sys.run q pt).proc q).waitsIn (Wait.sendsTo clockMailbox) = true at waits
    rcases Sys.run_self t.clock.sys q pt with ⟨_, _, place⟩ | ⟨w, ends, place⟩ | ⟨_, _, _, place⟩ | ⟨_, _, place⟩ <;>
      rw [place] at waits
    · cases waits
    · rcases (path.suspends ends).1 with rfl | ⟨c, rfl, waiting⟩
      · exact .inl (by rw [SendWaits, here.woken_eq]; exact waits)
      · have fn : c.fn = .send (clockMailbox : Nat) := by
          rw [← waiting.fn]
          cases w <;> simp_all [Proc.waitsIn, Wait.sendsTo, Wait.fn]
        cases enters with
        | elsewhere away => simp [fn, Fn.addresses] at away
        | ticks sends => exact .inr ⟨rfl, sends⟩
        | waits => cases fn
    · cases waits
    · exact .inl waits
  · refine .inl ?_
    change ((t.clock.sys.run p pt).proc q).waitsIn (Wait.sendsTo clockMailbox) = true at waits
    rcases Sys.run_other own with same | ⟨woken, _⟩
    · rwa [same] at waits
    · rwa [woken, Proc.wake_waitsIn] at waits

theorem Ticking.lasting (ticking : t.Ticking) : t.clock.sys.Lasting clockMailbox := by
  obtain ⟨n, run, early⟩ := ticking.follows
  have lasting := Sys.lasting_of_run run
  rw [early.same]
  exact ⟨lasting.1, lasting.2⟩

theorem run_taken (t : CountedClock) (p : Pid) (pt : Point) {r : Result}
    (taken : r ∈ (t.clock.sys.globals.taken clockMailbox).map Delivery.result) :
    r ∈ ((t.run p pt).clock.sys.globals.taken clockMailbox).map Delivery.result := by
  change r ∈ ((t.clock.sys.run p pt).globals.taken clockMailbox).map Delivery.result
  rcases (t.clock.sys.run_transfer p pt).taken clockMailbox with same | ⟨_, _, _, _, _, more⟩
  · rwa [same]
  · rw [more, List.map_append]
    exact List.mem_append_left _ taken

/-- Either nothing is stored, or the latest tick is, and the process goes on. -/
theorem Ticking.run_stored (ticking : t.Ticking) (here : (t.clock.sys.proc p).At pt) (enters : t.Enters p pt) :
    (t.clock.sys.run p pt).globals.stored clockMailbox = t.clock.sys.globals.stored clockMailbox ∧
        (t.run p pt).sent = t.sent ∨
      t.Sends p ∧ ¬ (t.run p pt).SendWaits p ∧ (t.run p pt).sent = t.sent ++ [t.ticks] ∧
        (t.clock.sys.run p pt).globals.stored clockMailbox =
          t.clock.sys.globals.stored clockMailbox ++ [tickBytes t.ticks] := by
  have sent : (t.run p pt).sent = t.sent ++ List.replicate
      (((t.clock.sys.run p pt).globals.stored clockMailbox).length -
        (t.clock.sys.globals.stored clockMailbox).length) (t.tick p) := rfl
  rcases (t.clock.sys.run_transfer p pt).stored clockMailbox with same | ⟨msg, k, at_, grown⟩
  · refine .inl ⟨same, ?_⟩
    rw [sent, same, Nat.sub_self]
    simp
  · obtain ⟨rfl, sends⟩ := ticking.stores here enters at_
    refine .inr ⟨sends, fun waits => ?_, ?_, grown⟩
    · change ((t.clock.sys.run p pt).proc p).waitsIn (Wait.sendsTo clockMailbox) = true at waits
      have still : (t.clock.sys.run p pt).globals.stored clockMailbox = t.clock.sys.globals.stored clockMailbox := by
        rcases Sys.run_self t.clock.sys p pt with
          ⟨_, _, place⟩ | ⟨w, ends, _⟩ | ⟨_, _, _, place⟩ | ⟨_, ends, _⟩
        · rw [place] at waits
          cases waits
        · rw [Sys.run_globals (by simp [ends]), ((Point.exec_path ..).suspends ends).2.1]
        · rw [place] at waits
          cases waits
        · rw [(Sys.run_faults ends).1]
      rw [grown] at still
      exact absurd (congrArg List.length still) (by simp)
    · rw [sent, grown, sends.tick]
      simp

/-- Who has the latest tick to send still has, if it waits. -/
theorem Ticking.run_sends (ticking : t.Ticking) (here : (t.clock.sys.proc p).At pt) (enters : t.Enters p pt)
    (sends : t.Sends q) (own : q = p ∨ t.SendWaits q) (still : (t.run p pt).SendWaits q) :
    (t.run p pt).Sends q := by
  have only : t.Sends p → q = p := fun sends' => own.elim id (sends'.alone q)
  rcases ticking.run_stored here enters with ⟨_, same⟩ | ⟨sends', moved, _⟩
  · refine ⟨sends.first, ?_, sends.tick, ?_, fun q' waits => ?_⟩
    · rw [same]
      exact sends.unsent
    · change (t.clock.handling q && !((t.clock.sys.run p pt).proc q).idle) = true
      have busy : ((t.clock.sys.run p pt).proc q).idle = false := waitsIn_idle still
      rw [sends.handling, busy]
      rfl
    · rcases waiting here enters waits with before | ⟨rfl, sends'⟩
      · exact sends.alone q' before
      · exact (only sends').symm
  · rw [only sends'] at still
    exact absurd still moved

/-- What holds of a process stays true where it is. -/
theorem Standing.keep {proc : Proc} (standing : t.Standing q proc) (ticks : t'.ticks = t.ticks)
    (taken : ∀ r ∈ (t.clock.sys.globals.taken clockMailbox).map Delivery.result,
      r ∈ (t'.clock.sys.globals.taken clockMailbox).map Delivery.result)
    (sends : t.Sends q → proc.waitsIn (Wait.sendsTo clockMailbox) = true → t'.Sends q) : t'.Standing q proc := by
  cases proc with
  | outside | asleep => trivial
  | blocked w | woken w =>
    refine ⟨fun msg same => ?_, standing.2⟩
    obtain ⟨tick, sending⟩ := standing.1 msg same
    exact ⟨ticks ▸ tick, sends sending (by simp [same, Proc.waitsIn, Wait.sendsTo])⟩
  | unblocking k => exact fun r same => taken r (standing r same)

theorem Standing.wake {proc : Proc} (standing : t.Standing q proc) : t.Standing q proc.wake := by
  cases proc <;> exact standing

/-- What a receive on the clock mailbox hands out has been taken from it. -/
theorem Ticking.received (ticking : t.Ticking) (here : (t.clock.sys.proc p).At pt) (enters : t.Enters p pt)
    (fn : pt.fn = .recv (clockMailbox : Nat)) :
    (∀ r, (pt.exec t.clock.sys.globals p).2 = .returns r → pt = .afterUnblock (.recvTaken clockMailbox r) ∨
      r ∈ ((pt.exec t.clock.sys.globals p).1.taken clockMailbox).map Delivery.result) ∧
    ∀ pid k, (pt.exec t.clock.sys.globals p).2 = .unblocks pid k → ∃ r, k = .recvTaken clockMailbox r ∧
      r ∈ ((pt.exec t.clock.sys.globals p).1.taken clockMailbox).map Delivery.result := by
  refine (Point.exec_path ..).received fn ticking.active ticking.slotted here (ticking.lasting.2 p) ?_ ?_
  · rintro b rfl
    cases enters with
    | elsewhere away => simp [Call.fn, Fn.addresses] at away
    | waits => simp
  · rintro b rfl
    cases enters with
    | resumes found => exact found b rfl

/-- A process is only suspended in a call on the clock mailbox that is one of
`waitDevice` or of the handler. -/
theorem Ticking.suspends (ticking : t.Ticking) (here : (t.clock.sys.proc p).At pt) (enters : t.Enters p pt)
    (ends : (pt.exec t.clock.sys.globals p).2 = .blocks w) : t.Standing p (.blocked w) := by
  rcases ((Point.exec_path t.clock.sys.globals p pt).suspends ends).1 with rfl | ⟨c, rfl, waiting⟩
  · have standing := ticking.standing p
    rw [here.woken_eq] at standing
    exact standing
  · have fn := waiting.fn
    cases enters with
    | elsewhere away =>
      rw [← fn] at away
      refine ⟨?_, ?_⟩ <;> rintro _ rfl <;> simp [Wait.fn, Fn.addresses] at away
    | ticks sends =>
      refine ⟨?_, (by rintro _ rfl; cases fn)⟩
      rintro msg rfl
      obtain ⟨msg_ptr, msg_size, same, rfl⟩ := waiting
      obtain ⟨_, rfl, rfl⟩ := Call.send.inj same
      exact ⟨ticking.handlerSend_carries, sends⟩
    | waits =>
      refine ⟨(by rintro _ rfl; cases fn), ?_⟩
      rintro b rfl
      exact (Call.recv.inj waiting).2.symm

theorem Ticking.run_standing (ticking : t.Ticking) (here : (t.clock.sys.proc p).At pt) (enters : t.Enters p pt)
    (q : Pid) : (t.run p pt).Standing q ((t.run p pt).clock.sys.proc q) := by
  by_cases own : q = p
  · subst own
    have stands : t.Standing q ((t.clock.sys.run q pt).proc q) →
        (t.run q pt).Standing q ((t.run q pt).clock.sys.proc q) :=
      fun standing => standing.keep rfl (fun r => run_taken t q pt) fun sends =>
        ticking.run_sends here enters sends (.inl rfl)
    rcases Sys.run_self t.clock.sys q pt with ⟨_, _, place⟩ | ⟨w, ends, place⟩ | ⟨pid, k, ends, place⟩ | ⟨_, _, place⟩
    · exact stands (by rw [place]; trivial)
    · exact stands (by rw [place]; exact ticking.suspends here enters ends)
    · change (t.run q pt).Standing q ((t.clock.sys.run q pt).proc q)
      rw [place]
      rintro r rfl
      have fn : pt.fn = .recv (clockMailbox : Nat) := ((Point.exec_path ..).fn_unblocks ends).symm
      obtain ⟨r', same, taken⟩ := (ticking.received here enters fn).2 pid _ ends
      obtain rfl := (Cont.recvTaken.inj same).2
      change r ∈ ((t.clock.sys.run q pt).globals.taken clockMailbox).map Delivery.result
      rwa [Sys.run_globals (by simp [ends])]
    · exact stands (by rw [place]; exact ticking.standing q)
  · have before : t.Standing q ((t.clock.sys.run p pt).proc q) := by
      rcases Sys.run_other own with same | ⟨woken, _⟩
      · rw [same]
        exact ticking.standing q
      · rw [woken]
        exact (ticking.standing q).wake
    refine before.keep rfl (fun r => run_taken t p pt) fun sends still => ?_
    have waited := (waiting here enters still).resolve_right fun self => own self.1
    exact ticking.run_sends here enters sends (.inr waited) still

theorem Ticking.run_returned (ticking : t.Ticking) (here : (t.clock.sys.proc p).At pt) (enters : t.Enters p pt)
    (e : Nat × Result) (member : e ∈ (t.run p pt).clock.sys.returned (.recv (clockMailbox : Nat))) :
    e.2 ∈ ((t.run p pt).clock.sys.globals.taken clockMailbox).map Delivery.result := by
  change e ∈ (t.clock.sys.run p pt).returned (.recv (clockMailbox : Nat)) at member
  by_cases returns : ∃ r, (pt.exec t.clock.sys.globals p).2 = .returns r
  · obtain ⟨r, ends⟩ := returns
    have returned := Sys.returned_returns t.clock.sys p pt (pt.exec t.clock.sys.globals p).1 r
    rw [← ends] at returned
    unfold Sys.run at member
    rw [returned] at member
    by_cases fn : pt.fn = .recv (clockMailbox : Nat)
    · rw [fn, Function.update_self] at member
      rcases List.mem_append.mp member with old | new
      · exact run_taken t p pt (ticking.returned e old)
      · rw [List.mem_singleton] at new
        subst new
        rcases (ticking.received here enters fn).1 r ends with rfl | taken
        · have standing := ticking.standing p
          rw [here.unblocking_eq] at standing
          exact run_taken t p _ (standing r rfl)
        · change r ∈ ((t.clock.sys.run p pt).globals.taken clockMailbox).map Delivery.result
          rwa [Sys.run_globals (by simp [ends])]
    · rw [Function.update_of_ne (Ne.symm fn)] at member
      exact run_taken t p pt (ticking.returned e member)
  · have same : (t.clock.sys.run p pt).returned = t.clock.sys.returned := by
      unfold Sys.run Sys.after
      cases ends : (pt.exec t.clock.sys.globals p).2 with
      | returns r => exact absurd ⟨r, ends⟩ returns
      | blocks | unblocks | faults => cases pt <;> rfl
    rw [same] at member
    exact run_taken t p pt (ticking.returned e member)

theorem Ticking.run (ticking : t.Ticking) (here : (t.clock.sys.proc p).At pt) (enters : t.Enters p pt)
    (moves : t.clock.sys.step (pt.act p) = some (t.clock.sys.run p pt)) : (t.run p pt).Ticking := by
  have unreleased : pt ≠ .start (.release (clockMailbox : Nat)) := by
    rintro rfl
    cases enters with
    | elsewhere away => simp [Call.fn, Fn.addresses] at away
  obtain ⟨active, numSlots⟩ := (t.clock.sys.run_transfer p pt).status ticking.active unreleased
  have stored := ticking.run_stored here enters
  refine ⟨?_, active, numSlots.trans_ne ticking.slotted, ticking.counter, ticking.bound, ?_, ?_, ?_, ?_,
    ticking.run_returned here enters, ticking.run_standing here enters⟩
  · obtain ⟨n, run, early⟩ := ticking.follows
    obtain ⟨n', moved, early'⟩ := early.step moves
    refine ⟨n', run.next ?_ moved, early'⟩
    rintro q released
    cases pt with
    | start c =>
      obtain ⟨_, rfl⟩ := Act.call.inj released
      exact unreleased rfl
    | afterBlock | afterUnblock => cases released
  · change (t.clock.sys.run p pt).globals.stored clockMailbox = _
    rcases stored with ⟨same, sent⟩ | ⟨_, _, sent, grown⟩
    · rw [same, sent, ticking.stored]
    · rw [grown, sent, ticking.stored, List.map_append]
      rfl
  · rcases stored with ⟨_, sent⟩ | ⟨sends, _, sent, _⟩ <;> rw [sent]
    · exact ticking.increasing
    · refine List.pairwise_append.mpr ⟨ticking.increasing, List.pairwise_singleton _ _, fun n member n' last => ?_⟩
      rw [List.mem_singleton] at last
      subst last
      refine lt_of_le_of_ne (ticking.ticked n member).2 ?_
      rintro rfl
      exact sends.unsent member
  · intro n member
    rcases stored with ⟨_, sent⟩ | ⟨sends, _, sent, _⟩ <;> rw [sent] at member
    · exact ticking.ticked n member
    · rcases List.mem_append.mp member with old | new
      · exact ticking.ticked n old
      · rw [List.mem_singleton] at new
        subst new
        exact ⟨sends.first, le_rfl⟩
  · intro d member
    change d ∈ (t.clock.sys.run p pt).globals.taken clockMailbox at member
    rcases (t.clock.sys.run_transfer p pt).taken clockMailbox with same | ⟨_, b, _, _, at_, more⟩
    · rw [same] at member
      exact ticking.sizes d member
    · rw [more] at member
      rcases List.mem_append.mp member with old | new
      · exact ticking.sizes d old
      · rw [List.mem_singleton] at new
        subst new
        rw [ticking.takes here enters at_]

/-- On the clock mailbox there are only `waitDevice` and the handler. -/
def Dedicated (a : ClockAct) : Prop :=
  ∀ p c, a = .mailbox (.call p c) → c.fn.addresses clockMailbox = false

/-- Every tick is sent before the next one comes, none overflows, and a woken
receiver finds a tick when it runs on. -/
structure Unhurried (t : CountedClock) (a : ClockAct) : Prop where
  dedicated : Dedicated a
  settled : ∀ p, a = .interrupt p →
    ∀ q, t.clock.handling q = true → (t.clock.sys.proc q).waitsIn (fun _ => true) = false
  fits : ∀ p, a = .interrupt p → (t.ticks + 1) * 100000 < 2 ^ 31
  found : ∀ p b, a = .mailbox (.resume p) → t.clock.sys.proc p = .woken (.recvEmpty clockMailbox b) →
    (t.clock.sys.globals.mailboxSlotQueues clockMailbox).count ≠ 0

/-- A move outside the mailbox layer. -/
theorem Ticking.stays {clock : ClockSys} (ticking : t.Ticking)
    (follows : ∃ n, Transition.Run Sys.step (Sys.Unreleased clockMailbox) Sys.boot n ∧ clock.sys.Early n)
    (globals : clock.sys.globals = t.clock.sys.globals) (returned : clock.sys.returned = t.clock.sys.returned)
    (counter : clock.clockTicks = t.clock.clockTicks)
    (handling : ∀ q, t.clock.handling q = true → (clock.sys.proc q).idle = false → clock.handling q = true)
    (places : ∀ q, clock.sys.proc q = t.clock.sys.proc q ∨ (clock.sys.proc q).idle = true) :
    (t.record p clock).Ticking := by
  have sent : (t.record p clock).sent = t.sent := by
    change t.sent ++ List.replicate ((clock.sys.globals.stored clockMailbox).length - _) (t.tick p) = t.sent
    rw [globals, Nat.sub_self]
    simp
  have waited : ∀ q, (t.record p clock).SendWaits q → clock.sys.proc q = t.clock.sys.proc q := by
    intro q waits
    refine (places q).resolve_right fun idle => ?_
    exact absurd ((waitsIn_idle waits).symm.trans idle) (by decide)
  have sends : ∀ q, t.Sends q → (t.record p clock).SendWaits q →
      (t.record p clock).Sends q := by
    intro q sends waits
    refine ⟨sends.first, ?_, sends.tick, ?_, fun q' waits' => sends.alone q' ?_⟩
    · rw [sent]
      exact sends.unsent
    · exact handling q sends.handling (waitsIn_idle waits)
    · have same := waited q' waits'
      change (clock.sys.proc q').waitsIn (Wait.sendsTo clockMailbox) = true at waits'
      rwa [same] at waits'
  refine ⟨follows, globals.symm ▸ ticking.active, globals.symm ▸ ticking.slotted, counter.trans ticking.counter,
    ticking.bound, ?_, sent.symm ▸ ticking.increasing, sent.symm ▸ ticking.ticked, globals.symm ▸ ticking.sizes, ?_,
    fun q => ?_⟩
  · rw [sent, ← ticking.stored]
    exact congrArg (fun g => g.stored clockMailbox) globals
  · change ∀ e ∈ clock.sys.returned (.recv (clockMailbox : Nat)),
      e.2 ∈ (clock.sys.globals.taken clockMailbox).map Delivery.result
    rw [globals, returned]
    exact ticking.returned
  · rcases places q with same | idle
    · have standing := ticking.standing q
      rw [← same] at standing
      refine standing.keep rfl (fun r taken => ?_) (sends q)
      change r ∈ (clock.sys.globals.taken clockMailbox).map Delivery.result
      rwa [globals]
    · change (t.record p clock).Standing q (clock.sys.proc q)
      cases place : clock.sys.proc q <;> rw [place] at idle
      case outside | asleep => trivial
      case blocked | woken | unblocking => cases idle

/-- Nobody waits with a send when a tick comes. -/
theorem Ticking.nobody_waits (ticking : t.Ticking)
    (settled : ∀ q, t.clock.handling q = true → (t.clock.sys.proc q).waitsIn (fun _ => true) = false) (q : Pid) :
    ¬ t.SendWaits q := by
  intro waits
  have standing := ticking.standing q
  have fits := ticking.lasting.2 q
  have sends : t.Sends q := by
    unfold SendWaits at waits
    cases place : t.clock.sys.proc q <;> rw [place] at standing fits waits
    case blocked w | woken w =>
      cases w with
      | sendFull m msg =>
        obtain rfl : m = clockMailbox := of_decide_eq_true waits
        exact (standing.1 msg rfl).2
      | sendZero m =>
        obtain rfl : m = clockMailbox := of_decide_eq_true waits
        exact absurd ((fits rfl).2.mp rfl) ticking.slotted
      | recvZero | recvEmpty => cases waits
    case outside | asleep | unblocking => cases waits
  have quiet := settled q sends.handling
  unfold SendWaits at waits
  cases place : t.clock.sys.proc q <;> rw [place] at waits quiet <;> first | cases waits | cases quiet

theorem called {s s' : Sys} {c : Call} (moves : s.step (.call p c) = some s') :
    (s.proc p).At (.start c) ∧ s' = s.run p (.start c) := by
  simp only [Sys.step, Option.ite_none_right_eq_some, Option.some.injEq] at moves
  obtain ⟨⟨_, out⟩, rfl⟩ := moves
  refine ⟨?_, rfl⟩
  rw [out]
  exact .start

theorem waitDevice_receives {type : DeviceType} {unit : Int} {c : Call} (waits : waitDevice type unit = .inl c) :
    c = .recv (clockMailbox : Nat) ⟨true, 4⟩ := by
  unfold waitDevice at waits
  split at waits
  · exact (Sum.inl.inj waits).symm
  · split at waits <;> cases waits

/-- The clock when an interrupt has come to `p`, up to its `MboxSend`. -/
def interrupted (t : CountedClock) (p : Pid) : CountedClock :=
  { t.count (.interrupt p) with clock := { t.clock.tick with handling := Function.update t.clock.handling p true } }

theorem Ticking.interrupted (ticking : t.Ticking) (fits : (t.ticks + 1) * 100000 < 2 ^ 31)
    (settled : ∀ q, t.clock.handling q = true → (t.clock.sys.proc q).waitsIn (fun _ => true) = false) :
    (t.interrupted p).Ticking ∧ (t.interrupted p).Sends p := by
  have sys : (t.interrupted p).clock.sys = t.clock.sys := ClockSys.tick_settled settled
  have nobody := ticking.nobody_waits settled
  refine ⟨⟨sys ▸ ticking.follows, sys ▸ ticking.active, sys ▸ ticking.slotted, ?_, fits, sys ▸ ticking.stored,
    ticking.increasing, fun n member => ?_, sys ▸ ticking.sizes, sys ▸ ticking.returned, fun q => ?_⟩, ?_⟩
  · change t.clock.clockTicks + 100000 = BitVec.ofNat 32 ((t.ticks + 1) * 100000)
    rw [ticking.counter, Nat.succ_mul, BitVec.ofNat_add]
    rfl
  · obtain ⟨first, last⟩ := ticking.ticked n member
    exact ⟨first, last.trans (Nat.le_succ _)⟩
  · rw [sys]
    have standing := ticking.standing q
    have quiet := nobody q
    unfold SendWaits at quiet
    cases place : t.clock.sys.proc q <;> rw [place] at standing quiet
    case outside | asleep => trivial
    case blocked w | woken w =>
      refine ⟨?_, standing.2⟩
      rintro msg rfl
      exact absurd (by simp [Proc.waitsIn, Wait.sendsTo]) quiet
    case unblocking k =>
      intro r taken
      rw [sys]
      exact standing r taken
  · refine ⟨Nat.succ_pos _, fun member => ?_, Function.update_self .., Function.update_self .., fun q waits => ?_⟩
    · have last := (ticking.ticked _ member).2
      exact absurd last (Nat.not_succ_le_self _)
    · unfold SendWaits at waits
      rw [sys] at waits
      exact absurd waits (nobody q)

theorem Ticking.step {a : ClockAct} (ticking : t.Ticking) (unhurried : t.Unhurried a) (moves : t.step a = some t') :
    t'.Ticking := by
  obtain ⟨clock, moved, rfl⟩ := Option.map_eq_some_iff.mp moves
  have follows : ∀ {act sys}, (∀ p, act ≠ .call p (.release (clockMailbox : Nat))) →
      t.clock.sys.step act = some sys →
      ∃ n, Transition.Run Sys.step (Sys.Unreleased clockMailbox) Sys.boot n ∧ sys.Early n := by
    intro act sys unreleased moved
    obtain ⟨n, run, early⟩ := ticking.follows
    obtain ⟨n', moved', early'⟩ := early.step moved
    exact ⟨n', run.next unreleased moved', early'⟩
  cases a with
  | mailbox act =>
    obtain ⟨sys, acted, rfl⟩ := Option.map_eq_some_iff.mp moved
    have unreleased : ∀ p, act ≠ .call p (.release (clockMailbox : Nat)) := by
      rintro p rfl
      have away := unhurried.dedicated p _ rfl
      simp [Call.fn, Fn.addresses] at away
    have later := follows unreleased acted
    cases Sys.step_move acted with
    | @segment p pt may here =>
      change (t.record (pt.act p).pid _).Ticking
      rw [Point.act_pid]
      refine ticking.run here ?_ acted
      cases pt with
      | start c => exact .elsewhere (unhurried.dedicated p c rfl)
      | afterBlock w => exact .resumes fun b same => unhurried.found p b rfl (by rw [here.woken_eq, same])
      | afterUnblock k => exact .returns
    | @idle _ proc cpu was becomes =>
      refine ticking.stays later rfl rfl rfl (fun q handling busy => ?_) fun q => ?_
      · change (t.clock.handling q && !_) = true
        rw [handling, Bool.true_and, Bool.not_eq_true']
        exact busy
      by_cases own : q = act.pid
      · subst own
        exact .inr ((congrArg Proc.idle (Function.update_self ..)).trans becomes)
      · exact .inl (Function.update_of_ne own _ _)
  | waitDevice p type unit =>
    cases waits : UslossKernel.waitDevice type unit with
    | inl c =>
      obtain rfl := waitDevice_receives waits
      simp only [ClockSys.step, waits] at moved
      obtain ⟨sys, acted, rfl⟩ := Option.map_eq_some_iff.mp moved
      obtain ⟨here, rfl⟩ := called acted
      exact @Ticking.run p _ t ticking here .waits acted
    | inr status =>
      simp only [ClockSys.step, waits, Option.ite_none_right_eq_some, Option.some.injEq] at moved
      obtain ⟨⟨may, _⟩, rfl⟩ := moved
      obtain ⟨n, run, early⟩ := ticking.follows
      exact ticking.stays ⟨n, run, early.given may⟩ rfl rfl rfl (fun q handling _ => handling) fun q => .inl rfl
  | interrupt p =>
    have settled := unhurried.settled p rfl
    obtain ⟨ticking', sends⟩ := @Ticking.interrupted p t ticking (unhurried.fits p rfl) settled
    simp only [ClockSys.step, ClockSys.clock_interrupt_handler, Option.map_eq_some_iff] at moved
    obtain ⟨sys, acted, rfl⟩ := moved
    obtain ⟨here, rfl⟩ := called acted
    exact @Ticking.run p _ (t.interrupted p) ticking' here (.ticks sends) acted

theorem ticking_of_run (run : Transition.Run step Unhurried boot t) : t.Ticking := by
  refine run.invariant Ticking ?_ fun _ _ _ ticking unhurried moves => ticking.step unhurried moves
  have globals : boot.clock.sys.globals = phase2Tables.createMailbox 6 1 4 := phase2Init_eq
  have stored : boot.clock.sys.globals.stored clockMailbox = [] := by
    rw [globals]
    rfl
  have taken : boot.clock.sys.globals.taken clockMailbox = [] := by
    rw [globals]
    rfl
  refine ⟨⟨_, .refl, rfl, .inr rfl⟩, ?_, ?_, rfl, by decide, stored, .nil, by rintro n ⟨⟩, ?_, by rintro e ⟨⟩,
    fun q => trivial⟩
  · rw [globals]
    rfl
  · rw [globals]
    exact Nat.one_ne_zero
  · rw [taken]
    rintro d ⟨⟩

/-- What a receive leaves in `*status`. -/
def status (r : Result) : Int :=
  (Phase4a.intOfBytes r.buf).toInt

theorem counter_value {n : Nat} (bound : n * 100000 < 2 ^ 31) :
    (BitVec.ofNat 32 (n * 100000)).toInt = (n : Int) * 100000 := by
  have small : (BitVec.ofNat 32 (n * 100000)).toNat = n * 100000 := by
    rw [BitVec.toNat_ofNat]
    exact Nat.mod_eq_of_lt (by omega)
  rw [BitVec.toInt_eq_toNat_of_lt (by omega), small]
  push_cast
  rfl

theorem tick_value {n : Nat} (bound : n * 100000 < 2 ^ 31) :
    (Phase4a.intOfBytes (tickBytes n)).toInt = (n : Int) * 100000 := by
  have read := Phase4a.intOfBytes_intBytes (BitVec.ofNat 32 (n * 100000)) []
  rw [List.append_nil] at read
  rw [tickBytes, read, counter_value bound]

/-- What has been delivered are the ticks that were stored first. -/
theorem Ticking.delivered (ticking : t.Ticking) : ∃ k, (t.clock.sys.globals.taken clockMailbox).map Delivery.result =
    (t.sent.take k).map fun n => ⟨4, tickBytes n⟩ := by
  obtain ⟨n, run, early⟩ := ticking.follows
  have intact := Sys.mailIntact_of_run run
  have globals : n.globals = t.clock.sys.globals := by rw [early.same]
  rw [globals] at intact
  obtain ⟨delivered, pending, stored, accounts, _⟩ := intact.delivered
  have first : delivered = (t.sent.take delivered.length).map tickBytes := by
    rw [List.map_take, ← ticking.stored, stored, List.take_left]
  have sizes := ticking.sizes
  refine ⟨delivered.length, ?_⟩
  have lengths : ∀ msg ∈ delivered, msg.length = 4 := by
    intro msg member
    rw [first] at member
    obtain ⟨n, _, rfl⟩ := List.mem_map.mp member
    simp [tickBytes, intBytes]
  have results : (t.clock.sys.globals.taken clockMailbox).map Delivery.result =
      delivered.map fun msg => ⟨4, msg⟩ := by
    clear first stored
    generalize t.clock.sys.globals.taken clockMailbox = taken at accounts sizes
    induction accounts with
    | nil => rfl
    | @cons delivery msg _ _ account _ ih =>
      have size := sizes delivery (List.mem_cons_self ..)
      have length := lengths msg (List.mem_cons_self ..)
      unfold Delivery.Accounts at account
      rw [size, length, if_neg (by decide)] at account
      rw [List.map_cons, List.map_cons, account, ih (fun msg member => lengths msg (List.mem_cons_of_mem _ member))
        fun d member => sizes d (List.mem_cons_of_mem _ member)]
      rfl
  rw [results]
  nth_rewrite 1 [first]
  rw [List.map_map]
  rfl

/-- The clock values advance: each message that is sent is the number of ticks
up to its interrupt times 100000, each return of `waitDevice` has one of them
in `*status`, none is delivered twice, and they are delivered in order. -/
structure Advances (t : CountedClock) : Prop where
  counter : t.clock.clockTicks.toInt = t.ticks * 100000
  interrupts : ∀ n ∈ t.sent, 1 ≤ n ∧ n ≤ t.ticks
  sends : (t.clock.sys.globals.stored clockMailbox).map (fun msg => (Phase4a.intOfBytes msg).toInt) =
    t.sent.map fun n : Nat => (n : Int) * 100000
  delivers : (t.clock.sys.globals.taken clockMailbox).map (fun d => status d.result) <+:
    t.sent.map fun n : Nat => (n : Int) * 100000
  increasing : ((t.clock.sys.globals.taken clockMailbox).map fun d => status d.result).Pairwise (· < ·)
  returns : ∀ e ∈ t.clock.sys.returned (.recv (clockMailbox : Nat)), e.2.ret = 4 ∧
    status e.2 ∈ (t.clock.sys.globals.taken clockMailbox).map fun d => status d.result
  once : ((t.clock.sys.returned (.recv (clockMailbox : Nat))).map fun e => status e.2).Nodup

/-- No result is handed out to two receives. -/
theorem Ticking.handed_once (ticking : t.Ticking)
    (distinct : ((t.clock.sys.globals.taken clockMailbox).map Delivery.result).Nodup)
    (succeed : ∀ e ∈ t.clock.sys.returned (.recv (clockMailbox : Nat)), 0 ≤ e.2.ret) :
    ((t.clock.sys.returned (.recv (clockMailbox : Nat))).map Prod.snd).Nodup := by
  obtain ⟨n, run, early⟩ := ticking.follows
  have globals : n.globals = t.clock.sys.globals := by rw [early.same]
  have returned : n.returned = t.clock.sys.returned := by rw [early.same]
  rw [List.nodup_iff_count_le_one]
  intro r
  by_cases handed : r ∈ (t.clock.sys.returned (.recv (clockMailbox : Nat))).map Prod.snd
  · obtain ⟨e, member, rfl⟩ := List.mem_map.mp handed
    obtain ⟨m, _, balance⟩ := Sys.receipts_of_run (m := clockMailbox) (succeed e member) run
    have balance := balance.resolve_left fun zero => ticking.slotted (globals ▸ zero.2)
    have taken := List.nodup_iff_count_le_one.mp distinct e.2
    unfold Sys.handedOut timesReturned timesTaken at balance
    rw [globals, returned] at balance
    rw [List.count_eq_countP, List.countP_map] at taken ⊢
    have same : ∀ r' : Result, (r' == e.2) = decide (r' = e.2) := fun r' => beq_eq_decide r' e.2
    simp only [Function.comp_def, same] at taken ⊢
    omega
  · rw [List.count_eq_zero_of_not_mem handed]
    exact Nat.zero_le 1

/-- Where every step is unhurried the clock values advance. -/
theorem clock_values_advance (run : Transition.Run step Unhurried boot t) : t.Advances := by
  have ticking := ticking_of_run run
  have fits : ∀ n ∈ t.sent, n * 100000 < 2 ^ 31 := fun n member =>
    lt_of_le_of_lt (Nat.mul_le_mul_right _ (ticking.ticked n member).2) ticking.bound
  obtain ⟨k, delivered⟩ := ticking.delivered
  have statuses : (t.clock.sys.globals.taken clockMailbox).map (fun d => status d.result) =
      (t.sent.take k).map fun n : Nat => (n : Int) * 100000 := by
    have same := congrArg (List.map status) delivered
    rw [List.map_map, List.map_map] at same
    refine same.trans (List.map_congr_left fun n member => ?_)
    rw [Function.comp_apply, status]
    exact tick_value (fits n (List.mem_of_mem_take member))
  have increasing : ((t.sent.take k).map fun n : Nat => (n : Int) * 100000).Pairwise (· < ·) := by
    refine List.pairwise_map.mpr ((ticking.increasing.sublist (List.take_sublist k _)).imp fun {n n'} less => ?_)
    omega
  have handed : ∀ e ∈ t.clock.sys.returned (.recv (clockMailbox : Nat)),
      ∃ n ∈ t.sent, e.2 = ⟨4, tickBytes n⟩ := by
    intro e member
    have taken := ticking.returned e member
    rw [delivered] at taken
    obtain ⟨n, first, same⟩ := List.mem_map.mp taken
    exact ⟨n, List.mem_of_mem_take first, same.symm⟩
  have distinct : ((t.clock.sys.globals.taken clockMailbox).map Delivery.result).Nodup := by
    rw [← statuses, ← Function.comp_def status Delivery.result, ← List.map_map] at increasing
    exact List.Nodup.of_map status (increasing.imp fun less => less.ne)
  refine ⟨?_, ticking.ticked, ?_, ?_, ?_, fun e member => ?_, ?_⟩
  · rw [ticking.counter]
    exact counter_value ticking.bound
  · rw [ticking.stored, List.map_map]
    refine List.map_congr_left fun n member => ?_
    rw [Function.comp_apply]
    exact tick_value (fits n member)
  · rw [statuses]
    exact (List.take_prefix k _).map _
  · rw [statuses]
    exact increasing
  · obtain ⟨n, _, same⟩ := handed e member
    refine ⟨by rw [same], ?_⟩
    obtain ⟨d, taken, result⟩ := List.mem_map.mp (ticking.returned e member)
    exact List.mem_map.mpr ⟨d, taken, congrArg status result⟩
  · have results := ticking.handed_once distinct fun e member => by
      obtain ⟨n, _, same⟩ := handed e member
      rw [same]
      exact Int.natCast_nonneg 4
    rw [← Function.comp_def status Prod.snd, ← List.map_map]
    refine results.map_on fun r member r' member' same => ?_
    obtain ⟨e, inReturned, rfl⟩ := List.mem_map.mp member
    obtain ⟨e', inReturned', rfl⟩ := List.mem_map.mp member'
    obtain ⟨n, sent, tick⟩ := handed e inReturned
    obtain ⟨n', sent', tick'⟩ := handed e' inReturned'
    rw [tick, tick', status, status, tick_value (fits n sent), tick_value (fits n' sent')] at same
    rw [tick, tick', show n = n' by omega]

/-- A process waits for two ticks, which come while others run. -/
def twoTicksAwaited : List ClockAct :=
  [.waitDevice 2 .clock 0, .interrupt 1, .mailbox (.resume 2), .waitDevice 2 .clock 0, .interrupt 3,
    .mailbox (.resume 2)]

/-- A test for `Unhurried` while nobody is delayed in the handler. -/
def testUnhurried (t : CountedClock) : ClockAct → Bool
  | .interrupt _ => !decide t.clock.sys.globals.TickPending && (t.ticks + 1) * 100000 < 2 ^ 31
  | .mailbox (.resume p) => match t.clock.sys.proc p with
    | .woken _ => (t.clock.sys.globals.mailboxSlotQueues clockMailbox).count ≠ 0
    | _ => true
  | .mailbox (.call ..) => false
  | .mailbox _ | .waitDevice .. => true

theorem Unhurried.of_test {a : ClockAct} (undelayed : t.clock.Undelayed) (admitted : t.testUnhurried a = true) :
    t.Unhurried a := by
  refine ⟨?_, fun p _ => undelayed.settled, ?_, ?_⟩
  · rintro p c rfl
    cases admitted
  · rintro p rfl
    simp only [testUnhurried, Bool.and_eq_true, decide_eq_true_eq] at admitted
    exact admitted.2
  · rintro p b rfl woken
    simp only [testUnhurried, woken, decide_eq_true_eq] at admitted
    exact admitted

theorem clock_values_advance_run : ∃ t, Transition.Run step Unhurried boot t ∧
    (t.clock.sys.returned (.recv (clockMailbox : Nat))).map (fun e => status e.2) = [100000, 200000] ∧
    t.Advances := by
  obtain ⟨t, tested, told⟩ : ∃ t, Transition.Run step (fun t a => t.testUnhurried a = true) boot t ∧
      decide ((t.clock.sys.returned (.recv (clockMailbox : Nat))).map (fun e => status e.2) = [100000, 200000]) =
        true :=
    Transition.exists_run step boot twoTicksAwaited testUnhurried (fun _ _ passes => passes) _ (by decide +kernel)
  have run : Transition.Run step Unhurried boot t := by
    refine (tested.with_invariant (fun t => t.clock.Undelayed) ?_ ?_).mono fun t a both => .of_test both.1 both.2
    · rintro p ⟨⟩
    · intro t a t' undelayed passes moves
      obtain ⟨clock, moved, rfl⟩ := Option.map_eq_some_iff.mp moves
      refine undelayed.step ?_ moved
      rintro p rfl
      simp only [testUnhurried, Bool.and_eq_true, Bool.not_eq_true', decide_eq_false_iff_not] at passes
      exact passes.1
  exact ⟨t, run, of_decide_eq_true told, clock_values_advance run⟩

/-- Three ticks before anybody waits: the handlers of the second and the third
are suspended in their sends, and both send what `clockTicks` then is. -/
def threeTicksUnawaited : List ClockAct :=
  [.interrupt 1, .interrupt 1, .interrupt 2, .waitDevice 3 .clock 0, .waitDevice 4 .clock 0, .mailbox (.resume 1),
    .mailbox (.resume 4), .waitDevice 5 .clock 0, .mailbox (.resume 2), .mailbox (.resume 5)]

def testDedicated (_ : CountedClock) : ClockAct → Bool
  | .mailbox (.call ..) => false
  | _ => true

theorem tick_delivered_twice : ∃ t, Transition.Run step (fun _ a => Dedicated a) boot t ∧
    (t.clock.sys.globals.taken clockMailbox).map (fun d => status d.result) = [100000, 300000, 300000] ∧
    ¬ t.Advances := by
  obtain ⟨t, run, told⟩ : ∃ t, Transition.Run step (fun _ a => Dedicated a) boot t ∧
      decide ((t.clock.sys.globals.taken clockMailbox).map (fun d => status d.result) =
        [100000, 300000, 300000]) = true := by
    refine Transition.exists_run step boot threeTicksUnawaited testDedicated ?_ _ (by decide +kernel)
    rintro _ a passes p c rfl
    cases passes
  have told := of_decide_eq_true told
  refine ⟨t, run, told, fun advances => ?_⟩
  have increasing := advances.increasing
  rw [told] at increasing
  exact absurd increasing (by decide)

end CountedClock

end UslossKernel
