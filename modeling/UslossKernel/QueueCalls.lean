import UslossKernel.Clients

namespace UslossKernel

variable {g : Globals} {p : Pid} {pt : Point} {m : MboxId} {seg : Segment} {c : Call}

/-- The message a send on `m` carries. -/
inductive Call.Carries (m : MboxId) (msg : Message) : Call → Prop
  | send {msg_ptr msg_size} : msg = bytesAt msg_ptr msg_size.toNat → Carries m msg (.send (m : Nat) msg_ptr msg_size)
  | condSend {msg_ptr msg_size} : msg = bytesAt msg_ptr msg_size.toNat →
      Carries m msg (.condSend (m : Nat) msg_ptr msg_size)

/-- The buffer a receive on `m` fills. -/
inductive Call.Fills (m : MboxId) (buffer : Buffer) : Call → Prop
  | recv : Fills m buffer (.recv (m : Nat) buffer)
  | condRecv : Fills m buffer (.condRecv (m : Nat) buffer)

/-- How a stretch of a send on a mailbox with slots can end. -/
inductive Sending (g : Globals) (m : MboxId) (c : Call) (msg : Message) (pt : Point) : Segment → Prop
  | refused {code} : pt = .start c → ¬ c.Admitted g → code < 0 → Sending g m c msg pt (returnCode g code)
  | waits {g' w} : g'.queued m = g.queued m → (g.mailboxes m).numSlots ≤ (g.mailboxSlotQueues m).count →
      Sending g m c msg pt (g', .blocks w)
  | stored {g' o} : g'.queued m = g.queued m ++ [⟨msg.length, msg⟩] →
      (g.mailboxSlotQueues m).count < (g.mailboxes m).numSlots → (∀ k, pt ≠ .afterUnblock k) →
      o = .returns ⟨0, []⟩ ∨ ((g.mailboxes m).consumers ≠ none ∧ ∃ pid k, o = .unblocks pid k) →
      Sending g m c msg pt (g', o)
  | returned {k} : pt = .afterUnblock k → Sending g m c msg pt (returnCode g 0)
  | faults {g' f} : Sending g m c msg pt (g', .faults f)

/-- How a stretch of a receive on a mailbox with slots can end. -/
inductive Taking (g : Globals) (m : MboxId) (c : Call) (buffer : Buffer) (pt : Point) : Segment → Prop
  | refused {code} : pt = .start c → ¬ c.Admitted g → code < 0 → Taking g m c buffer pt (returnCode g code)
  | waits {g' w} : pt = .start c → g'.queued m = g.queued m → g.queued m = [] → Taking g m c buffer pt (g', .blocks w)
  | missed {g'} : pt = .afterBlock (.recvEmpty m buffer) → g'.queued m = g.queued m → g.queued m = [] →
      Taking g m c buffer pt (returnCode g' (-1))
  | rejected {g' r} : g.queued m = r :: g'.queued m → buffer.msg_max_size < r.ret →
      Taking g m c buffer pt (returnCode g' (-1))
  | taken {g' r o} : g.queued m = r :: g'.queued m → r.ret ≤ buffer.msg_max_size → (∀ k, pt ≠ .afterUnblock k) →
      o = .returns r ∨ (∃ pid k, o = .unblocks pid k ∧ (k = .recvTaken m r ∨ k = .condRecvTaken m r)) →
      Taking g m c buffer pt (g', o)
  | returned {k r} : pt = .afterUnblock k → k = .recvTaken m r ∨ k = .condRecvTaken m r →
      Taking g m c buffer pt (g, .returns r)
  | faults {g' f} : Taking g m c buffer pt (g', .faults f)

theorem Call.Carries.fn {msg : Message} (carries : c.Carries m msg) :
    c.fn = .send (m : Nat) ∨ c.fn = .condSend (m : Nat) := by
  cases carries with
  | send => exact .inl rfl
  | condSend => exact .inr rfl

theorem Call.Fills.fn {buffer : Buffer} (fills : c.Fills m buffer) :
    c.fn = .recv (m : Nat) ∨ c.fn = .condRecv (m : Nat) := by
  cases fills with
  | recv => exact .inl rfl
  | condRecv => exact .inr rfl

/-- Neither end of a queue is in a release. -/
theorem ReleaseAt.not_runs {g₀ : Globals} {n : MboxId} {stage : Stage} (at_ : ReleaseAt g pt g₀ n stage)
    (runs : c.Runs pt) : c.fn = .release (n : Nat) := by
  rw [← runs.fn, at_.fn]

section

variable (path : Path g p pt seg) (sound : g.Sound) (active : (g.mailboxes m).isActive = true)
  (slotted : (g.mailboxes m).numSlots ≠ 0) {proc : Proc} (here : proc.At pt) (fits : proc.FitsAt g m)
  (runs : c.Runs pt)
include path sound active slotted here fits runs

theorem Path.sending {msg : Message} (carries : c.Carries m msg) : Sending g m c msg pt seg := by
  have on : pt.fn.addresses m = true := by
    rcases carries.fn with fn | fn <;> simp [runs.fn, fn, Fn.addresses]
  have carried : ∀ {bytes k}, StorePoint g pt m bytes k → bytes = msg ∧
      (g.mailboxSlotQueues m).count < (g.mailboxes m).numSlots ∧ ∀ k, pt ≠ .afterUnblock k := by
    intro bytes k at_
    cases at_ with
    | send _ _ _ _ room =>
      cases runs.start_eq
      cases carries with
      | send bytes => exact ⟨bytes.symm, room, by simp⟩
    | condSend _ _ _ room =>
      cases runs.start_eq
      cases carries with
      | condSend bytes => exact ⟨bytes.symm, room, by simp⟩
    | resumed _ room =>
      obtain ⟨msg_ptr, msg_size, same, bytes⟩ := runs.waits
      cases same
      cases carries with
      | send carried => exact ⟨bytes.trans carried.symm, room.resolve_right slotted, by simp⟩
  cases path with
  | refused refused negative =>
    cases runs.start_eq
    exact .refused rfl refused negative
  | storeFaults => exact .faults
  | stores at_ storable =>
    obtain rfl := at_.addressed on
    obtain ⟨rfl, room, awake⟩ := carried at_
    exact .stored (Globals.queued_storeMessage sound storable (at_.room sound storable) _) room awake (.inl rfl)
  | storesAndWakes at_ storable pointed =>
    obtain rfl := at_.addressed on
    obtain ⟨rfl, room, awake⟩ := carried at_
    exact .stored (Globals.queued_storeMessage sound storable (at_.room sound storable) _) room awake
      (.inr ⟨pointed, _, _, rfl⟩)
  | @sendFullBlocks n _ _ _ _ _ _ full =>
    obtain rfl : n = m := Fin.ext (by simpa [Point.fn, Call.fn, Fn.addresses] using on)
    exact .waits ((Globals.recordSender_sameMail g p n).queued_eq n) full
  | @resumedFullBlocks n _ _ _ full =>
    obtain rfl : n = m := Fin.ext (by simpa [Point.fn, Wait.fn, Fn.addresses] using on)
    exact .waits ((Globals.recordSender_sameMail g p n).queued_eq n) full
  | @sendMatches n _ _ _ _ _ none | @sendZeroBlocks n _ _ _ _ none =>
    obtain rfl : n = m := Fin.ext (by simpa [Point.fn, Call.fn, Fn.addresses] using on)
    exact absurd none slotted
  | @resumedInactive w inactive =>
    rw [Wait.addressed on, active] at inactive
    cases inactive
  | @resumedZero w n kind =>
    have same := Wait.addressed on
    have zero := (here.wait_fits fits same).2
    rw [same] at zero
    rcases kind with rfl | rfl <;> exact absurd (zero.mp rfl) slotted
  | @sendMatchedReturns n =>
    obtain rfl : n = m := Fin.ext (by simpa [Point.fn, Cont.fn, Fn.addresses] using on)
    exact absurd (here.cont_fits fits rfl).2 slotted
  | sendStoredReturns => exact .returned rfl
  | recvTakenReturns kind =>
    have fn := runs.fn
    rcases kind with rfl | rfl <;> rcases carries.fn with sends | sends <;> rw [sends] at fn <;> cases fn
  | created | createFails | recvMatches | recvZeroBlocks | recvEmptyBlocks =>
    cases runs.start_eq
    cases carries
  | resumedEmpty =>
    cases runs.waits
    cases carries
  | takeFaults at_ | takeRejects at_ | takes at_ | takesAndWakes at_ =>
    have fn := runs.fn
    rcases at_.fn with receives | receives <;> rcases carries.fn with sends | sends <;> rw [receives, sends] at fn <;>
      cases fn
  | releaseWakesProducer at_ | releaseWakesConsumer at_ | releaseWakesPointer at_ | releaseReturns at_ =>
    have fn := at_.not_runs runs
    rcases carries.fn with sends | sends <;> rw [sends] at fn <;> cases fn

theorem Path.taking {buffer : Buffer} (fills : c.Fills m buffer) : Taking g m c buffer pt seg := by
  have on : pt.fn.addresses m = true := by
    rcases fills.fn with fn | fn <;> simp [runs.fn, fn, Fn.addresses]
  have buffers : ∀ {g₀ b k}, TakePoint g pt g₀ m b k → b = buffer ∧ (k = .recvTaken m ∨ k = .condRecvTaken m) ∧
      ∀ k, pt ≠ .afterUnblock k := by
    intro g₀ b k at_
    cases at_ with
    | recv =>
      cases runs.start_eq
      cases fills
      exact ⟨rfl, .inl rfl, by simp⟩
    | condRecv =>
      cases runs.start_eq
      cases fills
      exact ⟨rfl, .inr rfl, by simp⟩
    | resumed =>
      cases runs.waits
      cases fills
      exact ⟨rfl, .inl rfl, by simp⟩
  have oldest : ∀ {g₀ b k} (delivery : Delivery), TakePoint g pt g₀ m b k →
      g.queued m = g.received m :: (g₀.dequeueSlot m delivery).queued m := fun delivery at_ =>
    at_.queued sound (sound.allocated m active at_.occupied.ne') delivery
  cases path with
  | refused refused negative =>
    cases runs.start_eq
    exact .refused rfl refused negative
  | takeFaults => exact .faults
  | takeRejects at_ _ small =>
    obtain rfl := at_.addressed on
    obtain ⟨rfl, _⟩ := buffers at_
    exact .rejected (oldest _ at_) small
  | takes at_ _ room =>
    obtain rfl := at_.addressed on
    obtain ⟨rfl, _, awake⟩ := buffers at_
    refine .taken ?_ room awake (.inl rfl)
    rw [Globals.queued_freeSlot]
    exact oldest _ at_
  | takesAndWakes at_ _ room =>
    obtain rfl := at_.addressed on
    obtain ⟨rfl, kind, awake⟩ := buffers at_
    refine .taken ?_ room awake (.inr ⟨_, _, rfl, ?_⟩)
    · exact (oldest _ at_).trans (congrArg _ (Globals.queued_freeSlot ..).symm)
    · rcases kind with rfl | rfl
      · exact .inl rfl
      · exact .inr rfl
  | @recvMatches n _ _ _ _ _ none | @recvZeroBlocks n _ _ _ none =>
    obtain rfl : n = m := Fin.ext (by simpa [Point.fn, Call.fn, Fn.addresses] using on)
    exact absurd none slotted
  | @recvEmptyBlocks n _ _ _ _ empty =>
    obtain rfl : n = m := Fin.ext (by simpa [Point.fn, Call.fn, Fn.addresses] using on)
    exact .waits (by rw [runs.start_eq]) ((Globals.awaitMessage_sameMail g p n).queued_eq n)
      (List.length_eq_zero_iff.mp ((Globals.queued_length sound active).trans empty))
  | @resumedEmpty n b _ empty =>
    obtain rfl : n = m := Fin.ext (by simpa [Point.fn, Wait.fn, Fn.addresses] using on)
    have same : b = buffer := by
      cases runs.waits
      cases fills
      rfl
    subst same
    exact .missed rfl ((Globals.clearConsumers_sameMail g n).queued_eq n)
      (List.length_eq_zero_iff.mp ((Globals.queued_length sound active).trans empty))
  | @resumedInactive w inactive =>
    rw [Wait.addressed on, active] at inactive
    cases inactive
  | @resumedZero w n kind =>
    have same := Wait.addressed on
    have zero := (here.wait_fits fits same).2
    rw [same] at zero
    rcases kind with rfl | rfl <;> exact absurd (zero.mp rfl) slotted
  | @recvTakenReturns k n r kind =>
    have same : n = m := by
      rcases kind with rfl | rfl <;> exact Fin.ext (by simpa [Point.fn, Cont.fn, Fn.addresses] using on)
    subst same
    exact .returned rfl kind
  | sendStoredReturns kind =>
    rcases kind with rfl | rfl | rfl
    · have fn := runs.fn
      rcases fills.fn with receives | receives <;> rw [receives] at fn <;> cases fn
    · have same : _ = m := Fin.ext (by simpa [Point.fn, Cont.fn, Fn.addresses] using on)
      subst same
      exact absurd (here.cont_fits fits rfl).2 slotted
    · have fn := runs.fn
      rcases fills.fn with receives | receives <;> rw [receives] at fn <;> cases fn
  | created | createFails | sendMatches | sendZeroBlocks | sendFullBlocks | resumedFullBlocks | sendMatchedReturns =>
    have fn := runs.fn
    rcases fills.fn with receives | receives <;> rw [receives] at fn <;> cases fn
  | storeFaults at_ | stores at_ | storesAndWakes at_ =>
    have fn := runs.fn
    rcases at_.fn with sends | sends <;> rcases fills.fn with receives | receives <;> rw [receives, sends] at fn <;>
      cases fn
  | releaseWakesProducer at_ | releaseWakesConsumer at_ | releaseWakesPointer at_ | releaseReturns at_ =>
    have fn := at_.not_runs runs
    rcases fills.fn with receives | receives <;> rw [receives] at fn <;> cases fn

end

theorem recordSender_mailboxes (g : Globals) (p : Pid) (m : MboxId) :
    (recordSender g p m).mailboxes = g.mailboxes := by
  unfold recordSender
  split <;> rfl

/-- What does not wait for a message leaves the table of a mailbox with slots
alone. -/
theorem Path.table (path : Path g p pt seg) (slotted : (g.mailboxes m).numSlots ≠ 0) {proc : Proc} (here : proc.At pt)
    (fits : proc.FitsAt g m)
    (fn : pt.fn = .send (m : Nat) ∨ pt.fn = .condSend (m : Nat) ∨ pt.fn = .condRecv (m : Nat)) :
    seg.1.mailboxes = g.mailboxes := by
  cases path with
  | refused | sendMatches | storeFaults | stores | storesAndWakes | resumedInactive | resumedZero | sendStoredReturns
  | recvTakenReturns => rfl
  | sendFullBlocks | resumedFullBlocks => exact recordSender_mailboxes ..
  | @sendZeroBlocks n _ _ _ _ zero =>
    obtain rfl : n = m := Fin.ext (by simpa [Point.fn, Call.fn] using fn)
    exact absurd zero slotted
  | @sendMatchedReturns n =>
    obtain rfl : n = m := Fin.ext (by simpa [Point.fn, Cont.fn] using fn)
    exact absurd (here.cont_fits fits rfl).2 slotted
  | takeFaults at_ | takeRejects at_ | takes at_ | takesAndWakes at_ =>
    cases at_ with
    | condRecv => rfl
    | recv | resumed => simp [Point.fn, Call.fn, Wait.fn] at fn
  | created | createFails | recvMatches | recvZeroBlocks | recvEmptyBlocks | resumedEmpty =>
    simp [Point.fn, Call.fn, Wait.fn] at fn
  | releaseWakesProducer at_ | releaseWakesConsumer at_ | releaseWakesPointer at_ | releaseReturns at_ =>
    rw [at_.fn] at fn
    simp at fn

/-- A receive changes no more of it than the pointer to a receiver. -/
theorem Path.slotSize (path : Path g p pt seg) (fn : pt.fn = .recv (m : Nat)) :
    (seg.1.mailboxes m).slotSize = (g.mailboxes m).slotSize := by
  have cleared : ∀ n, ((g.clearConsumers n).mailboxes m).slotSize = (g.mailboxes m).slotSize := by
    intro n
    rw [Globals.clearConsumers_mailboxes, Function.update_apply]
    split <;> simp_all
  have pointed : ∀ n, ((awaitMessage g p n).mailboxes m).slotSize = (g.mailboxes m).slotSize := by
    intro n
    simp only [awaitMessage, Globals.pointConsumers_mailboxes, Function.update_apply]
    split <;> simp_all
  cases path with
  | refused | recvMatches | resumedInactive | resumedZero | sendStoredReturns | recvTakenReturns => rfl
  | recvZeroBlocks | recvEmptyBlocks => exact pointed _
  | resumedEmpty | sendMatchedReturns => exact cleared _
  | takeFaults at_ | takeRejects at_ | takes at_ | takesAndWakes at_ =>
    rcases at_.tables with rfl | rfl
    · rfl
    · exact cleared _
  | created | createFails | sendMatches | sendZeroBlocks | sendFullBlocks | resumedFullBlocks =>
    simp [Point.fn, Call.fn, Wait.fn] at fn
  | storeFaults at_ | stores at_ | storesAndWakes at_ => rfl
  | releaseWakesProducer at_ | releaseWakesConsumer at_ | releaseWakesPointer at_ | releaseReturns at_ =>
    rw [at_.fn] at fn
    simp at fn

/-- Where no sender waits, none comes to wait in these calls, and a receive
wakes none. -/
theorem Path.unproduced (path : Path g p pt seg) (fn : pt.fn = .condSend (m : Nat) ∨ pt.fn = .recv (m : Nat))
    (none : g.blockedProducers m = []) :
    seg.1.blockedProducers m = [] ∧ (pt.fn = .recv (m : Nat) → ∀ pid k, seg.2 ≠ .unblocks pid k) := by
  have on : pt.fn.addresses m = true := by rcases fn with fn | fn <;> simp [fn, Fn.addresses]
  have unsent : ∀ {n msg k}, StorePoint g pt n msg k → pt.fn ≠ .recv (m : Nat) := by
    intro n msg k at_ same
    rcases at_.fn with sends | sends <;> rw [same] at sends <;> cases sends
  have waiting : ∀ {g₀ n b k}, TakePoint g pt g₀ n b k → g₀.blockedProducers m = [] := by
    intro g₀ n b k at_
    rcases at_.tables with rfl | rfl <;> exact none
  cases path with
  | refused | created | createFails | storeFaults | stores | recvZeroBlocks | recvEmptyBlocks | resumedEmpty
  | resumedInactive | resumedZero | sendMatchedReturns | sendStoredReturns | recvTakenReturns =>
    exact ⟨none, by rintro _ _ _ ⟨⟩⟩
  | storesAndWakes at_ => exact ⟨none, fun same => absurd same (unsent at_)⟩
  | takeFaults at_ | takeRejects at_ | takes at_ =>
    have still := waiting at_
    exact ⟨still, by rintro _ _ _ ⟨⟩⟩
  | takesAndWakes at_ _ _ recorded =>
    obtain rfl := at_.addressed on
    rw [none] at recorded
    cases recorded
  | @recvMatches n _ _ _ _ _ _ recorded =>
    obtain rfl : n = m := Fin.ext (by simpa [Point.fn, Call.fn, Fn.addresses] using on)
    rw [none] at recorded
    cases recorded
  | sendMatches | sendZeroBlocks | sendFullBlocks | resumedFullBlocks =>
    rcases fn with fn | fn <;> simp [Point.fn, Call.fn, Wait.fn] at fn
  | releaseWakesProducer at_ | releaseWakesConsumer at_ | releaseWakesPointer at_ | releaseReturns at_ =>
    rw [at_.fn] at fn
    simp at fn

end UslossKernel
