import UslossKernel.ZeroSlotLists

namespace UslossKernel

/-- One side of the rendezvous on a mailbox: where its calls wait, where they
stand after waking a partner, and which results are successes. -/
structure Side where
  waits : Wait → Bool
  matched : Cont → Bool
  fn : Fn
  done : Result → Bool

def Side.senders (m : MboxId) : Side where
  waits := Wait.sendsTo m
  matched k := k = .sendMatched m
  fn := .send (m : Nat)
  done r := r.ret = 0

def Side.receivers (m : MboxId) : Side where
  waits := Wait.receivesFrom m
  matched k := k = .recvMatched m
  fn := .recv (m : Nat)
  done r := 0 ≤ r.ret

/-- A sender blocks on a zero-slot mailbox where the pointer is `NULL`. -/
theorem Path.blocks_zeroSender {g : Globals} {p : Pid} {pt : Point} {seg : Segment} (path : Path g p pt seg)
    {m : MboxId} {w : Wait} (blocks : seg.2 = .blocks w) (kind : w.sendsTo m = true)
    (zero : (g.mailboxes m).numSlots = 0) : ∃ msg_ptr msg_size, pt = .start (.send (m : Nat) msg_ptr msg_size) ∧
      (g.mailboxes m).isActive = true ∧ g.accepts m msg_ptr msg_size = true ∧ (g.mailboxes m).consumers = none := by
  cases path <;> cases blocks
  case recvZeroBlocks | recvEmptyBlocks => cases kind
  case sendZeroBlocks n msg_ptr msg_size active accepted _ null =>
    obtain rfl : n = m := by simpa [Wait.sendsTo] using kind
    exact ⟨msg_ptr, msg_size, rfl, active, accepted, null⟩
  case sendFullBlocks n _ _ _ _ slots _ _ =>
    obtain rfl : n = m := by simpa [Wait.sendsTo] using kind
    exact (slots zero).elim
  case resumedFullBlocks n _ _ slots _ =>
    obtain rfl : n = m := by simpa [Wait.sendsTo] using kind
    exact (slots zero).elim

/-- A receiver blocks on a zero-slot mailbox where the array is empty. -/
theorem Path.blocks_zeroReceiver {g : Globals} {p : Pid} {pt : Point} {seg : Segment} (path : Path g p pt seg)
    {m : MboxId} {w : Wait} (blocks : seg.2 = .blocks w) (kind : w.receivesFrom m = true)
    (zero : (g.mailboxes m).numSlots = 0) : ∃ buffer : Buffer, pt = .start (.recv (m : Nat) buffer) ∧
      (g.mailboxes m).isActive = true ∧ 0 ≤ buffer.msg_max_size ∧ g.blockedProducers m = [] := by
  cases path <;> cases blocks
  case sendZeroBlocks | sendFullBlocks | resumedFullBlocks => cases kind
  case recvZeroBlocks n buffer active size _ none =>
    obtain rfl : n = m := by simpa [Wait.receivesFrom] using kind
    exact ⟨buffer, rfl, active, size, none⟩
  case recvEmptyBlocks n _ _ _ slots _ =>
    obtain rfl : n = m := by simpa [Wait.receivesFrom] using kind
    exact (slots zero).elim

namespace Sys

/-- How many calls of the side have returned successfully. -/
def completed (s : Sys) (side : Side) : Nat :=
  (s.returned side.fn).countP fun entry => side.done entry.2

/-- `n` calls of the side have met a partner: they have returned, or have been
woken, or are waking it. -/
def Met (s : Sys) (side : Side) (n : Nat) : Prop :=
  ∃ woken unblocking, Counts s.proc (Proc.wokenIn side.waits) woken ∧
    Counts s.proc (Proc.unblockingIn side.matched) unblocking ∧ n = s.completed side + woken + unblocking

variable {s : Sys} {p : Pid} {pt : Point} {side : Side} {n : Nat}

theorem completed_returns {g : Globals} {r : Result} : (s.after p pt (g, .returns r)).completed side =
    s.completed side + if pt.fn = side.fn ∧ side.done r = true then 1 else 0 := by
  unfold completed
  rw [returned_returns]
  by_cases own : side.fn = pt.fn
  · rw [own, Function.update_self, List.countP_append]
    cases done : side.done r <;> simp [done]
  · rw [Function.update_of_ne own]
    simp [Ne.symm own]

/-- A call that returns was counted before if it succeeds, and only then. -/
theorem Met.returns {g : Globals} {r : Result} (met : s.Met side n) (here : (s.proc p).At pt)
    (balance : (if pt.fn = side.fn ∧ side.done r = true then 1 else 0) =
      (if pt.resumesIn side.waits = true then 1 else 0) + if pt.returnsIn side.matched = true then 1 else 0) :
    (s.after p pt (g, .returns r)).Met side n := by
  obtain ⟨woken, unblocking, countedWoken, countedUnblocking, total⟩ := met
  refine ⟨_, _, woken_returns here countedWoken, unblocking_returns here countedUnblocking, ?_⟩
  rw [completed_returns, balance]
  have resumed : pt.resumesIn side.waits = true → 0 < woken := fun resumes =>
    countedWoken.pos ((here.wokenIn _).trans resumes)
  have returned : pt.returnsIn side.matched = true → 0 < unblocking := fun returns =>
    countedUnblocking.pos ((here.unblockingIn _).trans returns)
  split <;> split <;> simp_all <;> omega

theorem Met.blocks {g : Globals} {w : Wait} (met : s.Met side n) (here : (s.proc p).At pt)
    (resumes : pt.resumesIn side.waits = false) (returns : pt.returnsIn side.matched = false) :
    (s.after p pt (g, .blocks w)).Met side n := by
  obtain ⟨woken, unblocking, countedWoken, countedUnblocking, total⟩ := met
  refine ⟨_, _, woken_blocks here countedWoken, unblocking_blocks here countedUnblocking, ?_⟩
  have same : (s.after p pt (g, .blocks w)).completed side = s.completed side := by cases pt <;> rfl
  rw [same, resumes, returns, total]
  simp

theorem Met.unblocks {g : Globals} {pid : Pid} {k : Cont} (met : s.Met side n) (here : (s.proc p).At pt)
    (resumes : pt.resumesIn side.waits = false) (returns : pt.returnsIn side.matched = false) :
    (s.after p pt (g, .unblocks pid k)).Met side
      (n + (if side.matched k = true then 1 else 0) + if (s.proc pid).blockedIn side.waits = true then 1 else 0) := by
  obtain ⟨woken, unblocking, countedWoken, countedUnblocking, total⟩ := met
  refine ⟨_, _, woken_unblocks here countedWoken, unblocking_unblocks here countedUnblocking, ?_⟩
  have same : (s.after p pt (g, .unblocks pid k)).completed side = s.completed side := by cases pt <;> rfl
  rw [same, resumes, returns, total]
  simp only [Bool.false_eq_true, if_false, Nat.sub_zero]
  omega

/-- The two sides of a mailbox without slots have met equally often. -/
def Balanced (m : MboxId) (s : Sys) : Prop :=
  ((s.globals.mailboxes m).isActive = true ∧ (s.globals.mailboxes m).numSlots ≠ 0) ∨
    ∃ n, s.Met (Side.senders m) n ∧ s.Met (Side.receivers m) n

/-- The code running on from this point is in no call on `m` that has waited
for a partner or woken one. -/
def Uninvolved (m : MboxId) (pt : Point) : Prop :=
  (∀ w, pt = .afterBlock w → w.mbox ≠ m) ∧ ∀ k, pt = .afterUnblock k → k ≠ .sendMatched m ∧ k ≠ .recvMatched m

theorem Uninvolved.senders {m : MboxId} (apart : Uninvolved m pt) :
    pt.resumesIn (Side.senders m).waits = false ∧ pt.returnsIn (Side.senders m).matched = false := by
  cases pt with
  | start => exact ⟨rfl, rfl⟩
  | afterBlock w => exact ⟨by
    simpa [Point.resumesIn, Side.senders] using fun kind => apart.1 w rfl (Wait.mbox_of_sendsTo kind), rfl⟩
  | afterUnblock k => exact ⟨rfl, by simpa [Point.returnsIn, Side.senders] using (apart.2 k rfl).1⟩

theorem Uninvolved.receivers {m : MboxId} (apart : Uninvolved m pt) :
    pt.resumesIn (Side.receivers m).waits = false ∧ pt.returnsIn (Side.receivers m).matched = false := by
  cases pt with
  | start => exact ⟨rfl, rfl⟩
  | afterBlock w => exact ⟨by
    simpa [Point.resumesIn, Side.receivers] using fun kind => apart.1 w rfl (Wait.mbox_of_receivesFrom kind), rfl⟩
  | afterUnblock k => exact ⟨rfl, by simpa [Point.returnsIn, Side.receivers] using (apart.2 k rfl).2⟩

theorem Uninvolved.begins (m : MboxId) (c : Call) : Uninvolved m (.start c) :=
  ⟨by rintro _ ⟨⟩, by rintro _ ⟨⟩⟩

theorem Uninvolved.resumes {m : MboxId} {w : Wait} (away : w.mbox ≠ m) : Uninvolved m (.afterBlock w) :=
  ⟨by rintro _ ⟨⟩; exact away, by rintro _ ⟨⟩⟩

theorem Uninvolved.returns {m : MboxId} {k : Cont} (first : k ≠ .sendMatched m) (second : k ≠ .recvMatched m) :
    Uninvolved m (.afterUnblock k) :=
  ⟨by rintro _ ⟨⟩, by rintro _ ⟨⟩; exact ⟨first, second⟩⟩

theorem Uninvolved.stores {m n : MboxId} {g : Globals} {msg : Message} {k : Cont} (at_ : StorePoint g pt n msg k)
    (away : n ≠ m) : Uninvolved m pt := by
  cases at_ <;> first | exact .begins m _ | exact .resumes away

theorem Uninvolved.takes {m n : MboxId} {g g₀ : Globals} {buffer : Buffer} {k : Result → Cont}
    (at_ : TakePoint g pt g₀ n buffer k) (away : n ≠ m) : Uninvolved m pt := by
  cases at_ <;> first | exact .begins m _ | exact .resumes away

section

variable {m : MboxId} {g : Globals} (senders : s.Met (Side.senders m) n) (receivers : s.Met (Side.receivers m) n)
  (here : (s.proc p).At pt)

include senders receivers here

theorem Balanced.of_returns {r : Result} (apart : Uninvolved m pt) (sent : ¬ (pt.fn = .send (m : Nat) ∧ r.ret = 0))
    (received : ¬ (pt.fn = .recv (m : Nat) ∧ 0 ≤ r.ret)) : (s.after p pt (g, .returns r)).Balanced m := by
  refine .inr ⟨n, senders.returns here ?_, receivers.returns here ?_⟩
  · rw [apart.senders.1, apart.senders.2]
    simpa [Side.senders] using sent
  · rw [apart.receivers.1, apart.receivers.2]
    simpa [Side.receivers] using received

theorem Balanced.of_blocks {w : Wait} (apart : Uninvolved m pt) : (s.after p pt (g, .blocks w)).Balanced m :=
  .inr ⟨n, senders.blocks here apart.senders.1 apart.senders.2,
    receivers.blocks here apart.receivers.1 apart.receivers.2⟩

/-- Whoever wakes a partner meets it. -/
theorem Balanced.of_unblocks {pid : Pid} {k : Cont} (apart : Uninvolved m pt)
    (balance : ((if (Side.senders m).matched k = true then 1 else 0) +
        if (s.proc pid).blockedIn (Side.senders m).waits = true then 1 else 0) =
      ((if (Side.receivers m).matched k = true then 1 else 0) +
        if (s.proc pid).blockedIn (Side.receivers m).waits = true then 1 else 0)) :
    (s.after p pt (g, .unblocks pid k)).Balanced m := by
  have first : (s.after p pt (g, .unblocks pid k)).Met _ _ := senders.unblocks here apart.senders.1 apart.senders.2
  have second : (s.after p pt (g, .unblocks pid k)).Met _ _ :=
    receivers.unblocks here apart.receivers.1 apart.receivers.2
  rw [Nat.add_assoc] at first second
  rw [balance] at first
  exact .inr ⟨_, first, second⟩

/-- A sender that finds a receiver suspended, on `m` or on another mailbox. -/
theorem Balanced.of_sendMatched {pid : Pid} {n' : MboxId} (apart : Uninvolved m pt)
    (suspended : s.SuspendedRecv n' pid) : (s.after p pt (g, .unblocks pid (.sendMatched n'))).Balanced m := by
  have notSender := Proc.blockedIn_apart suspended fun w => Wait.sendsTo_of_receivesFrom m
  refine .of_unblocks senders receivers here apart ?_
  by_cases own : n' = m
  · subst own
    simp [Side.senders, Side.receivers, notSender, suspended]
  · have notReceiver := Proc.blockedIn_apart suspended fun w => Wait.receivesFrom_of_ne (Ne.symm own)
    simp [Side.senders, Side.receivers, notSender, notReceiver, own]

/-- A receiver that finds a sender suspended. -/
theorem Balanced.of_recvMatched {pid : Pid} {n' : MboxId} (apart : Uninvolved m pt)
    (suspended : s.SuspendedSend n' pid) : (s.after p pt (g, .unblocks pid (.recvMatched n'))).Balanced m := by
  have notReceiver := Proc.blockedIn_apart suspended fun w => Wait.receivesFrom_of_sendsTo m
  refine .of_unblocks senders receivers here apart ?_
  by_cases own : n' = m
  · subst own
    simp [Side.senders, Side.receivers, notReceiver, suspended]
  · have notSender := Proc.blockedIn_apart suspended fun w => Wait.sendsTo_of_ne (Ne.symm own)
    simp [Side.senders, Side.receivers, notSender, notReceiver, own]

/-- Whoever waits on a mailbox with slots is woken without a partner. -/
theorem Balanced.of_wakes_elsewhere {pid : Pid} {k : Cont} {n' : MboxId} (apart : Uninvolved m pt) (away : n' ≠ m)
    (suspended : s.SuspendedSend n' pid ∨ s.SuspendedRecv n' pid)
    (unmatched : k ≠ .sendMatched m ∧ k ≠ .recvMatched m) : (s.after p pt (g, .unblocks pid k)).Balanced m := by
  refine .of_unblocks senders receivers here apart ?_
  rcases suspended with sender | receiver
  · have notSender := Proc.blockedIn_apart sender fun w => Wait.sendsTo_of_ne (Ne.symm away)
    have notReceiver := Proc.blockedIn_apart sender fun w => Wait.receivesFrom_of_sendsTo m
    simp [Side.senders, Side.receivers, notSender, notReceiver, unmatched]
  · have notSender := Proc.blockedIn_apart receiver fun w => Wait.sendsTo_of_receivesFrom m
    have notReceiver := Proc.blockedIn_apart receiver fun w => Wait.receivesFrom_of_ne (Ne.symm away)
    simp [Side.senders, Side.receivers, notSender, notReceiver, unmatched]

end

/-- The numbers under which calls name two mailboxes. -/
theorem number_ne {m n : MboxId} (apart : n ≠ m) : ((n : Nat) : Int) ≠ (m : Nat) := by
  simpa [Fin.ext_iff] using apart

section

variable {m n' : MboxId} {g : Globals} {r : Result} (senders : s.Met (Side.senders m) n)
  (receivers : s.Met (Side.receivers m) n)

include senders receivers

/-- A call that was matched while it waited returns. -/
theorem Balanced.of_woken {w : Wait} (here : (s.proc p).At (.afterBlock w))
    (same : w = .sendZero n' ∨ w = .recvZero n') (done : r.ret = 0) :
    (s.after p (.afterBlock w) (g, .returns r)).Balanced m := by
  by_cases own : n' = m
  · subst own
    refine .inr ⟨n, senders.returns here ?_, receivers.returns here ?_⟩ <;> rcases same with rfl | rfl <;>
      simp [Side.senders, Side.receivers, Point.fn, Wait.fn, Point.resumesIn, Point.returnsIn, Wait.sendsTo,
        Wait.receivesFrom, done]
  · have away := number_ne own
    have elsewhere : w.mbox ≠ m := by rcases same with rfl | rfl <;> exact own
    refine .of_returns senders receivers here (.resumes elsewhere) ?_ ?_ <;>
      rcases same with rfl | rfl <;> simp [Point.fn, Wait.fn, away]

/-- A call that has woken its partner returns. -/
theorem Balanced.of_matched {k : Cont} (here : (s.proc p).At (.afterUnblock k))
    (same : k = .sendMatched n' ∨ k = .recvMatched n') (done : r.ret = 0) :
    (s.after p (.afterUnblock k) (g, .returns r)).Balanced m := by
  by_cases own : n' = m
  · subst own
    refine .inr ⟨n, senders.returns here ?_, receivers.returns here ?_⟩ <;> rcases same with rfl | rfl <;>
      simp [Side.senders, Side.receivers, Point.fn, Cont.fn, Point.resumesIn, Point.returnsIn, done]
  · have away := number_ne own
    refine .of_returns senders receivers here (.returns ?_ ?_) ?_ ?_ <;>
      rcases same with rfl | rfl <;> simp [Point.fn, Cont.fn, own, away]

end

theorem Balanced.after {m : MboxId} {seg : Segment} (balanced : s.Balanced m) (sound : s.ListsSound)
    (lasting : ∀ m, s.Lasting m) (pairs : s.PairsUp (pt.act p)) (here : (s.proc p).At pt)
    (path : Path s.globals p pt seg) (lives : ∀ f, seg.2 ≠ .faults f) : (s.after p pt seg).Balanced m := by
  have point := (pairs.unreleased m).point
  by_cases exempt : (s.globals.mailboxes m).isActive = true ∧ (s.globals.mailboxes m).numSlots ≠ 0
  · obtain ⟨still, same⟩ := (after_transfer path).status exempt.1 point
    exact .inl ⟨still, same.trans_ne exempt.2⟩
  obtain ⟨n, senders, receivers⟩ := balanced.resolve_left exempt
  have stored : ∀ {n' msg k}, StorePoint s.globals pt n' msg k → n' ≠ m := by
    rintro n' msg k at_ rfl
    exact exempt ⟨at_.active, at_.slots here ((lasting n').2 p)⟩
  have taken : ∀ {g₀ n' buffer k}, TakePoint s.globals pt g₀ n' buffer k → n' ≠ m := by
    rintro g₀ n' buffer k at_ rfl
    exact exempt ⟨at_.active, at_.slots here ((lasting n').2 p) (lasting n').1⟩
  have unreleased := no_release lasting pairs.unreleased here
  cases path with
  | refused _ negative =>
    refine .of_returns senders receivers here (.begins m _) (fun h => ?_) (fun h => ?_) <;>
      simp at h <;> omega
  | created | createFails =>
    exact .of_returns senders receivers here (.begins m _) (by simp [Point.fn, Call.fn]) (by simp [Point.fn, Call.fn])
  | sendZeroBlocks | sendFullBlocks | recvZeroBlocks | recvEmptyBlocks =>
    exact .of_blocks senders receivers here (.begins m _)
  | storeFaults | takeFaults => exact absurd rfl (lives _)
  | @sendMatches n' msg_ptr msg_size entry active accepted zero pointed =>
    have suspended := pairs.pointer n' ⟨msg_ptr, msg_size, ⟨p, rfl, here⟩, active, accepted, zero⟩ entry pointed
    exact .of_sendMatched senders receivers here (.begins m _) suspended
  | resumedFullBlocks active slots =>
    refine .of_blocks senders receivers here (.resumes fun own => ?_)
    obtain rfl := own
    exact exempt ⟨active, slots⟩
  | @stores _ n' _ _ at_ =>
    have away := number_ne (stored at_)
    exact .of_returns senders receivers here (.stores at_ (stored at_))
      (by rcases at_.fn with fn | fn <;> simp [fn, away]) (by rcases at_.fn with fn | fn <;> simp [fn])
  | @storesAndWakes _ n' _ k pid rest at_ _ _ recorded =>
    have listed := sound.consumers n' fun zero => at_.slots here ((lasting n').2 p) zero.2
    have suspended : s.SuspendedRecv n' pid := listed.suspended pid (by simp [recorded])
    refine .of_wakes_elsewhere senders receivers here (.stores at_ (stored at_)) (stored at_) (.inr suspended) ?_
    cases at_ <;> exact ⟨by simp, by simp⟩
  | @recvMatches n' _ pid rest _ _ _ recorded =>
    have suspended : s.SuspendedSend n' pid := (sound.producers n').suspended pid (by simp [recorded])
    exact .of_recvMatched senders receivers here (.begins m _) suspended
  | @resumedEmpty n' buffer active _ =>
    have away : n' ≠ m := by
      rintro rfl
      have kind := (here.wait_fits ((lasting _).2 p) rfl).2
      exact exempt ⟨active, fun zero => by cases kind.mpr zero⟩
    exact .of_returns senders receivers here (.resumes away) (by simp [Point.fn, Wait.fn]) (by simp)
  | @takeRejects _ _ n' _ _ at_ =>
    exact .of_returns senders receivers here (.takes at_ (taken at_))
      (by rcases at_.fn with fn | fn <;> simp [fn]) (by simp)
  | @takes _ _ n' _ _ at_ =>
    have away := number_ne (taken at_)
    exact .of_returns senders receivers here (.takes at_ (taken at_)) (by rcases at_.fn with fn | fn <;> simp [fn])
      (by rcases at_.fn with fn | fn <;> simp [fn, away])
  | @takesAndWakes _ _ n' _ k pid rest at_ _ _ recorded =>
    have suspended : s.SuspendedSend n' pid := (sound.producers n').suspended pid (by simp [recorded])
    refine .of_wakes_elsewhere senders receivers here (.takes at_ (taken at_)) (taken at_) (.inl suspended) ?_
    cases at_ <;> exact ⟨by simp, by simp⟩
  | @resumedInactive w inactive =>
    have away : w.mbox ≠ m := by
      intro own
      have active := (here.wait_fits ((lasting m).2 p) own).1
      rw [inactive] at active
      cases active
    exact .of_returns senders receivers here (.resumes away) (by simp) (by simp)
  | resumedZero same => exact .of_woken senders receivers here same rfl
  | sendMatchedReturns => exact .of_matched senders receivers here (.inl rfl) rfl
  | @sendStoredReturns k n' same =>
    rcases same with rfl | rfl | rfl
    · have away : n' ≠ m := by
        rintro rfl
        exact exempt (here.cont_fits ((lasting _).2 p) rfl)
      have away := number_ne away
      exact .of_returns senders receivers here (.returns (by simp) (by simp)) (by simp [Point.fn, Cont.fn, away])
        (by simp [Point.fn, Cont.fn])
    · exact .of_matched senders receivers here (.inr rfl) rfl
    · exact .of_returns senders receivers here (.returns (by simp) (by simp)) (by simp [Point.fn, Cont.fn])
        (by simp [Point.fn, Cont.fn])
  | @recvTakenReturns k n' r same =>
    rcases same with rfl | rfl
    · have away : n' ≠ m := by
        rintro rfl
        exact exempt (here.cont_fits ((lasting _).2 p) rfl)
      have away := number_ne away
      exact .of_returns senders receivers here (.returns (by simp) (by simp)) (by simp [Point.fn, Cont.fn])
        (by simp [Point.fn, Cont.fn, away])
    · exact .of_returns senders receivers here (.returns (by simp) (by simp)) (by simp [Point.fn, Cont.fn])
        (by simp [Point.fn, Cont.fn])
  | releaseWakesProducer at_ | releaseWakesConsumer at_ | releaseWakesPointer at_ | releaseReturns at_ =>
    exact (unreleased _ _ _ at_).elim

/-- No sender and receiver wait on `m` at the same time. -/
def Apart (m : MboxId) (s : Sys) : Prop :=
  (s.globals.mailboxes m).numSlots = 0 → ¬ ((∃ q, s.SuspendedSend m q) ∧ ∃ q, s.SuspendedRecv m q)

theorem Apart.after {m : MboxId} {seg : Segment} (apart : s.Apart m) (lasting : ∀ m, s.Lasting m)
    (pairs : s.PairsUp (pt.act p)) (here : (s.proc p).At pt) (path : Path s.globals p pt seg)
    (lives : ∀ f, seg.2 ≠ .faults f) : (s.after p pt seg).Apart m := by
  have used : ∀ {kind : Wait → Bool} {q}, (∀ w, kind w = true → w.mbox = m) → (s.proc q).blockedIn kind = true →
      (s.globals.mailboxes m).isActive = true := by
    intro kind q own suspended
    obtain ⟨w, atW, holds⟩ := Proc.blockedIn_iff.mp suspended
    have fits := (lasting m).2 q
    rw [atW] at fits
    have mbox := own w holds
    exact mbox ▸ (fits mbox).1
  have slots : (s.globals.mailboxes m).isActive = true →
      (seg.1.mailboxes m).numSlots = (s.globals.mailboxes m).numSlots := fun active =>
    (path.transfer.status active (pairs.unreleased m).point).2
  unfold Apart
  rw [after_globals lives]
  rintro zero ⟨⟨q, sender⟩, r, receiver⟩
  rcases blocked_after sender with before | ⟨rfl, w, blocks, kind⟩ <;>
    rcases blocked_after receiver with before' | ⟨rfl, w', blocks', kind'⟩
  · have active := used (fun _ => Wait.mbox_of_sendsTo) before
    exact apart ((slots active).symm.trans zero) ⟨⟨q, before⟩, r, before'⟩
  · rw [slots (used (fun _ => Wait.mbox_of_sendsTo) before)] at zero
    obtain ⟨buffer, rfl, active, size, none⟩ := path.blocks_zeroReceiver blocks' kind' zero
    exact pairs.array m ⟨buffer, ⟨_, rfl, here⟩, active, size, zero⟩ none q before
  · rw [slots (used (fun _ => Wait.mbox_of_receivesFrom) before')] at zero
    obtain ⟨msg_ptr, msg_size, rfl, active, accepted, null⟩ := path.blocks_zeroSender blocks kind zero
    exact pairs.null m ⟨msg_ptr, msg_size, ⟨_, rfl, here⟩, active, accepted, zero⟩ null r before'
  · rw [blocks] at blocks'
    cases blocks'
    rw [Wait.receivesFrom_of_sendsTo m kind] at kind'
    cases kind'

theorem listsSound_of_run {s : Sys} (run : Transition.Run Sys.step PairsUp boot s) : s.ListsSound := by
  refine invariant run (fun _ => lasting_all fun _ _ pairs => pairs.unreleased) ListsSound ?_ ?_ ?_ ?_
  · refine ⟨fun m => ?_, fun m _ => ?_⟩ <;> simp only [boot, phase2Init_eq] <;> exact ⟨.nil, by rintro _ ⟨⟩⟩
  · intro s p pt seg lasting sound pairs here path lives
    exact sound.after lasting pairs here path lives
  · rintro s p pt f ⟨producers, consumers⟩
    refine ⟨fun m => ?_, fun m kind => ?_⟩ <;> rw [enter_globals] at *
    · exact (producers m).congr (enter_proc ..)
    · exact (consumers m kind).congr (enter_proc ..)
  · rintro s q proc cpu ⟨producers, consumers⟩ was _
    exact ⟨fun m => (producers m).idle rfl was, fun m kind => (consumers m kind).idle rfl was⟩

theorem balanced_of_run {m : MboxId} {s : Sys} (run : Transition.Run Sys.step PairsUp boot s) : s.Balanced m := by
  have base : ∀ s, Transition.Run Sys.step PairsUp boot s → (∀ m, s.Lasting m) ∧ s.ListsSound := fun _ run =>
    ⟨lasting_all (fun _ _ pairs => pairs.unreleased) run, listsSound_of_run run⟩
  refine invariant run base (Balanced m) ?_ ?_ ?_ ?_
  · exact .inr ⟨0, ⟨0, 0, Counts.zero_iff.mpr fun _ => rfl, Counts.zero_iff.mpr fun _ => rfl, rfl⟩,
      ⟨0, 0, Counts.zero_iff.mpr fun _ => rfl, Counts.zero_iff.mpr fun _ => rfl, rfl⟩⟩
  · rintro s p pt seg ⟨lasting, sound⟩ balanced pairs here path lives
    exact balanced.after sound lasting pairs here path lives
  · intro s p pt f balanced
    cases pt <;> exact balanced
  · rintro s q proc cpu balanced was becomes
    refine balanced.imp_right ?_
    rintro ⟨n, ⟨w, u, woken, unblocking, total⟩, w', u', woken', unblocking', total'⟩
    exact ⟨n, ⟨w, u, woken_idle woken was becomes, unblocking_idle unblocking was becomes, total⟩,
      w', u', woken_idle woken' was becomes, unblocking_idle unblocking' was becomes, total'⟩

theorem apart_of_run {m : MboxId} {s : Sys} (run : Transition.Run Sys.step PairsUp boot s) : s.Apart m := by
  refine invariant run (fun _ => lasting_all fun _ _ pairs => pairs.unreleased) (Apart m) ?_ ?_ ?_ ?_
  · rintro _ ⟨⟨q, suspended⟩, _⟩
    cases suspended
  · intro s p pt seg lasting apart pairs here path lives
    exact apart.after lasting pairs here path lives
  · intro s p pt f apart
    simpa only [Apart, SuspendedSend, SuspendedRecv, enter_proc, enter_globals] using apart
  · rintro s q proc cpu apart _ becomes zero ⟨⟨r, sender⟩, r', receiver⟩
    exact apart zero ⟨⟨r, blocked_idle becomes sender⟩, r', blocked_idle becomes receiver⟩

/-- Where all sends and receives pair up, senders and receivers of a zero-slot
mailbox never both wait, and as many have succeeded on either side once nobody
is still inside the `unblockProc` of its partner. -/
theorem zeroSlot_rendezvous {m : MboxId} {s : Sys} (run : Transition.Run Sys.step PairsUp boot s)
    (settled : s.Settled)
    (zero : (s.globals.mailboxes m).numSlots = 0) :
    ¬ ((∃ q, s.SuspendedSend m q) ∧ ∃ q, s.SuspendedRecv m q) ∧
    ∃ sending receiving, Counts s.proc (Proc.unblockingIn (Side.senders m).matched) sending ∧
      Counts s.proc (Proc.unblockingIn (Side.receivers m).matched) receiving ∧
      (s.completed (Side.senders m) = s.completed (Side.receivers m) ↔ sending = receiving) := by
  refine ⟨apart_of_run run zero, ?_⟩
  obtain ⟨n, ⟨w, sending, woken, countedSending, total⟩, w', receiving, woken', countedReceiving, total'⟩ :=
    (balanced_of_run run).resolve_left fun slots => slots.2 zero
  have none := woken.unique settled.no_woken
  have none' := woken'.unique settled.no_woken
  exact ⟨sending, receiving, countedSending, countedReceiving, by omega⟩

/-- A receiver waits, a sender wakes it, and both return. -/
def oneRendezvous : List Act :=
  [.call 1 (.create 0 0 true), .call 1 (.recv 7 ⟨false, 0⟩), .call 2 (.send 7 none 0), .resume 1, .yield 1, .resume 2]

/-- A test for `PairsUp` that these actions pass. -/
def testPairsUp (s : Sys) : Act → Bool
  | .call _ (.recv ..) => oneRendezvous.all fun a => !(s.proc a.pid).blockedIn fun _ => true
  | .call _ (.send id ..) => id = 7 && (s.globals.mailboxes 7).consumers.any fun entry =>
      (s.proc (s.globals.shadowProcesses entry)).blockedIn (Wait.receivesFrom 7)
  | .call _ (.create ..) | .resume _ | .yield _ => true
  | _ => false

theorem PairsUp.of_test (s : Sys) (a : Act) (within : s.Within oneRendezvous)
    (admitted : s.testPairsUp a = true) : PairsUp s a := by
  have pointed : ∀ m, s.SendsToZeroSlot a m → m = 7 ∧ (s.globals.mailboxes m).consumers.any (fun entry =>
      (s.proc (s.globals.shadowProcesses entry)).blockedIn (Wait.receivesFrom m)) = true := by
    rintro m ⟨msg_ptr, msg_size, ⟨p, rfl, _⟩, _⟩
    simp only [testPairsUp, Point.act, Bool.and_eq_true, decide_eq_true_eq] at admitted
    obtain ⟨same, named⟩ := admitted
    obtain rfl : m = 7 := Fin.ext (by exact_mod_cast same)
    exact ⟨rfl, named⟩
  refine ⟨?_, fun m sends entry atEntry => ?_, fun m sends null => ?_, fun m receives _ q suspended => ?_⟩
  · rintro m p rfl
    cases admitted
  · obtain ⟨rfl, named⟩ := pointed m sends
    simpa [atEntry] using named
  · obtain ⟨rfl, named⟩ := pointed m sends
    simp [null] at named
  · obtain ⟨buffer, ⟨p, rfl, _⟩, _⟩ := receives
    obtain ⟨w, atW, _⟩ := Proc.blockedIn_iff.mp suspended
    exact within.not_blocked admitted q (by rw [atW]; rfl)

theorem zeroSlot_rendezvous_run : ∃ s, Transition.Run Sys.step PairsUp boot s ∧
    s.completed (Side.senders 7) = 1 ∧ s.completed (Side.receivers 7) = 1 ∧
    ¬ ((∃ q, s.SuspendedSend 7 q) ∧ ∃ q, s.SuspendedRecv 7 q) := by
  obtain ⟨s, reaches, done⟩ := exists_reaches oneRendezvous
    (fun s => s.completed (Side.senders 7) = 1 && s.completed (Side.receivers 7) = 1 &&
      (s.globals.mailboxes 7).numSlots = 0 && oneRendezvous.all fun a => !(s.proc a.pid).wokenIn fun _ => true)
    (by decide +kernel)
  have run := reaches.run testPairsUp PairsUp.of_test (by decide +kernel)
  simp only [Bool.and_eq_true, decide_eq_true_eq] at done
  obtain ⟨⟨⟨sent, received⟩, zero⟩, awake⟩ := done
  exact ⟨s, run, sent, received, (zeroSlot_rendezvous run (reaches.settled awake) zero).1⟩

/-- Two receivers wait; the second takes over the pointer, a send wakes it and
clears the pointer, and the next send blocks although the first still waits. -/
def pointerTakenOver : List Act :=
  [.call 1 (.create 0 0 true), .call 1 (.recv 7 ⟨false, 0⟩), .call 2 (.recv 7 ⟨false, 0⟩), .call 3 (.send 7 none 0),
    .resume 3, .call 3 (.send 7 none 0), .resume 2]

theorem zeroSlot_both_suspended : ∃ s, Reaches pointerTakenOver s ∧ s.Settled ∧
    (s.globals.mailboxes 7).isActive = true ∧ (s.globals.mailboxes 7).numSlots = 0 ∧
    s.SuspendedRecv 7 1 ∧ s.SuspendedSend 7 3 := by
  obtain ⟨s, reaches, stuck⟩ := exists_reaches pointerTakenOver
    (fun s => (pointerTakenOver.all fun a => !(s.proc a.pid).wokenIn fun _ => true) &&
      (s.globals.mailboxes 7).isActive && (s.globals.mailboxes 7).numSlots = 0 &&
      (s.proc 1).blockedIn (Wait.receivesFrom 7) && (s.proc 3).blockedIn (Wait.sendsTo 7)) (by decide +kernel)
  simp only [Bool.and_eq_true, decide_eq_true_eq] at stuck
  obtain ⟨⟨⟨⟨awake, active⟩, zero⟩, receiver⟩, sender⟩ := stuck
  exact ⟨s, reaches, reaches.settled awake, active, zero, receiver, sender⟩

end Sys

end UslossKernel
