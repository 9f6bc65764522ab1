import UslossKernel.CallTurns

namespace UslossKernel

/-- The calls of `MboxSend` and `MboxRecv` on `m` pass their checks, there are
no conditional ones, and `m` has slots. -/
structure Plain (g : Globals) (m : MboxId) (pt : Point) : Prop where
  unreleased : pt ≠ .start (.release (m : Nat))
  admitted : ∀ c, pt = .start c → c.fn = .send (m : Nat) ∨ c.fn = .recv (m : Nat) → c.Admitted g
  unconditional : ∀ c, pt = .start c → c.fn ≠ .condSend (m : Nat) ∧ c.fn ≠ .condRecv (m : Nat)
  slots : (g.mailboxes m).isActive = true → 0 < (g.mailboxes m).numSlots

/-- What a stretch of code does about the sends on `m`. -/
inductive SendStep (g : Globals) (m : MboxId) (pt : Point) (seg : Segment) : Prop
  | stores {k} : StorePoint g pt m pt.message k → pt.queues (Wait.sendsTo m) (.send (m : Nat)) = true →
      seg.2.waitsIn (Wait.sendsTo m) = false → seg.1.stored m = g.stored m ++ [pt.message] → SendStep g m pt seg
  | waits : pt.queues (Wait.sendsTo m) (.send (m : Nat)) = true → seg.2 = .blocks (.sendFull m pt.message) →
      seg.1.stored m = g.stored m → SendStep g m pt seg
  | apart : pt.queues (Wait.sendsTo m) (.send (m : Nat)) = false → seg.2.waitsIn (Wait.sendsTo m) = false →
      seg.1.stored m = g.stored m → SendStep g m pt seg

/-- What a stretch of code does about the receives on `m`. -/
inductive RecvStep (g : Globals) (m : MboxId) (pt : Point) (seg : Segment) : Prop
  | takes {g₀ buffer} : TakePoint g pt g₀ m buffer (.recvTaken m) →
      pt.queues (Wait.receivesFrom m) (.recv (m : Nat)) = true →
      seg.1.taken m = g.taken m ++ [⟨buffer.msg_max_size, g.received m⟩] →
      (seg.2 = .returns (g.received m) ∨ ∃ pid, seg.2 = .unblocks pid (.recvTaken m (g.received m))) →
      RecvStep g m pt seg
  | waits {w} : pt.queues (Wait.receivesFrom m) (.recv (m : Nat)) = true → seg.2 = .blocks w →
      w.receivesFrom m = true → seg.1.taken m = g.taken m → RecvStep g m pt seg
  | returns {r} : pt = .afterUnblock (.recvTaken m r) → seg.2 = .returns r → seg.1.taken m = g.taken m →
      RecvStep g m pt seg
  | apart : pt.fn ≠ .recv (m : Nat) → seg.2.waitsIn (Wait.receivesFrom m) = false →
      (∀ pid k, seg.2 = .unblocks pid k → k.fn ≠ .recv (m : Nat)) → seg.1.taken m = g.taken m → RecvStep g m pt seg

theorem StorePoint.message {g : Globals} {pt : Point} {m : MboxId} {msg : Message} {k : Cont}
    (at_ : StorePoint g pt m msg k) : pt.message = msg := by
  cases at_ <;> rfl

theorem ReleaseAt.queues {g g₀ : Globals} {pt : Point} {n : MboxId} {stage : Stage}
    (at_ : ReleaseAt g pt g₀ n stage) (kind : Wait → Bool) {fn : Fn} (other : ∀ id, fn ≠ .release id) :
    pt.queues kind fn = false ∧ pt.fn ≠ fn ∧ g₀.stored = g.stored ∧ g₀.taken = g.taken := by
  rcases at_.sameMail with ⟨rfl, _, same⟩ | ⟨⟨k, releases, rfl⟩, same⟩
  · exact ⟨decide_eq_false (other _).symm, (other _).symm, same.stored, same.taken⟩
  · refine ⟨rfl, ?_, same.stored, same.taken⟩
    cases k <;> first | cases releases | exact (other _).symm

/-- A call that waits on `m` is inside `blockMe` of a mailbox with slots. -/
theorem Plain.resumes {g : Globals} {m : MboxId} {w : Wait} {proc : Proc} (plain : Plain g m (.afterBlock w))
    (here : proc.At (.afterBlock w)) (fits : proc.FitsAt g m) (mbox : w.mbox = m) :
    (g.mailboxes m).isActive = true ∧ w.zeroSlot = false := by
  obtain ⟨active, zero⟩ := here.wait_fits fits mbox
  rw [mbox] at active zero
  have slots := plain.slots active
  refine ⟨active, ?_⟩
  rw [Bool.eq_false_iff]
  intro holds
  have none := zero.mp holds
  omega

/-- A stretch that stores a message in `n` is a step of the sends on `n`. -/
theorem StorePoint.sendStep {g g' : Globals} {pt : Point} {m n : MboxId} {msg : Message} {k : Cont} {outcome : Outcome}
    (at_ : StorePoint g pt n msg k) (plain : Plain g m pt)
    (same : g'.stored = Function.update g.stored n (g.stored n ++ [msg]))
    (ends : outcome.waitsIn (Wait.sendsTo m) = false) : SendStep g m pt (g', outcome) := by
  by_cases on : n = m
  · subst on
    obtain rfl := at_.message
    have queues : pt.queues (Wait.sendsTo n) (.send (n : Nat)) = true := by
      cases at_ with
      | send => simp [Point.queues, Call.fn]
      | resumed => simp [Point.queues, Wait.sendsTo]
      | condSend => exact ((plain.unconditional _ rfl).1 rfl).elim
    exact .stores at_ queues ends (by rw [same, Function.update_self])
  · have apart : (n : Nat) ≠ m := fun same => on (Fin.ext same)
    have queues : pt.queues (Wait.sendsTo m) (.send (m : Nat)) = false := by
      cases at_ <;> simp [Point.queues, Call.fn, Wait.sendsTo, on, apart]
    exact .apart queues ends (by rw [same, Function.update_of_ne (Ne.symm on)])

theorem Path.sends {g : Globals} {p : Pid} {pt : Point} {seg : Segment} (path : Path g p pt seg)
    (lives : ∀ f, seg.2 ≠ .faults f) {m : MboxId} {proc : Proc} (here : proc.At pt) (fits : proc.FitsAt g m)
    (plain : Plain g m pt) : SendStep g m pt seg := by
  have ids : ∀ {n : MboxId}, n ≠ m → (n : Nat) ≠ m := fun apart same => apart (Fin.ext same)
  have blocked : ∀ {n msg}, pt.queues (Wait.sendsTo m) (.send (m : Nat)) = decide (n = m) → pt.message = msg →
      SendStep g m pt (recordSender g p n, .blocks (.sendFull n msg)) := by
    rintro n msg queues rfl
    have same := congrFun (Globals.recordSender_sameMail g p n).stored m
    by_cases on : n = m
    · subst on
      exact .waits (queues.trans (decide_eq_true rfl)) rfl same
    · exact .apart (queues.trans (decide_eq_false on)) (decide_eq_false on) same
  have taken : ∀ {g₀ n buffer k}, TakePoint g pt g₀ n buffer k →
      pt.queues (Wait.sendsTo m) (.send (m : Nat)) = false ∧ g₀.stored m = g.stored m := by
    intro g₀ n buffer k at_
    cases at_ <;> exact ⟨rfl, rfl⟩
  have released : ∀ {g₀ n stage}, ReleaseAt g pt g₀ n stage →
      pt.queues (Wait.sendsTo m) (.send (m : Nat)) = false ∧ g₀.stored m = g.stored m := by
    intro g₀ n stage at_
    have other : ∀ id, Fn.send (m : Nat) ≠ .release id := by simp
    obtain ⟨queues, _, same, _⟩ := at_.queues (Wait.sendsTo m) other
    exact ⟨queues, congrFun same m⟩
  cases path with
  | @refused c _ denied =>
    refine .apart ?_ rfl rfl
    by_contra queues
    exact denied (plain.admitted c rfl (.inl (by simpa [Point.queues] using queues)))
  | created | createFails => exact .apart rfl rfl rfl
  | @sendMatches n _ _ _ active _ zero | @sendZeroBlocks n _ _ active _ zero =>
    have on : n ≠ m := by
      rintro rfl
      exact (plain.slots active).ne' zero
    exact .apart (by simp [Point.queues, Call.fn, ids on]) (by simp [Outcome.waitsIn, Wait.sendsTo, on]) rfl
  | sendFullBlocks => exact blocked (by simp [Point.queues, Call.fn, Fin.ext_iff]) rfl
  | resumedFullBlocks => exact blocked rfl rfl
  | storeFaults | takeFaults => exact absurd rfl (lives _)
  | stores at_ | storesAndWakes at_ => exact at_.sendStep plain rfl rfl
  | recvMatches | recvZeroBlocks | recvEmptyBlocks | resumedEmpty => exact .apart rfl rfl rfl
  | takeRejects at_ | takes at_ | takesAndWakes at_ => exact .apart (taken at_).1 rfl (taken at_).2
  | @resumedInactive w inactive =>
    refine .apart ?_ rfl rfl
    by_contra queues
    have mbox := Wait.mbox_of_sendsTo (Bool.not_eq_false _ ▸ queues)
    obtain ⟨active, _⟩ := plain.resumes here fits mbox
    rw [mbox, active] at inactive
    cases inactive
  | @resumedZero w n same =>
    refine .apart ?_ rfl rfl
    by_contra queues
    obtain ⟨_, slots⟩ := plain.resumes here fits (Wait.mbox_of_sendsTo (Bool.not_eq_false _ ▸ queues))
    rcases same with rfl | rfl <;> cases slots
  | sendMatchedReturns | sendStoredReturns | recvTakenReturns => exact .apart rfl rfl rfl
  | releaseWakesProducer at_ | releaseWakesConsumer at_ | releaseWakesPointer at_ =>
    exact .apart (released at_).1 rfl (released at_).2
  | releaseReturns at_ => exact .apart (released at_).1 rfl (released at_).2

/-- A stretch that takes a message out of `n` is a step of the receives on `n`. -/
theorem TakePoint.recvStep {g g₀ g' : Globals} {pt : Point} {m n : MboxId} {buffer : Buffer} {k : Result → Cont}
    {outcome : Outcome} (at_ : TakePoint g pt g₀ n buffer k) (plain : Plain g m pt)
    (same : g'.taken = Function.update g₀.taken n (g₀.taken n ++ [⟨buffer.msg_max_size, g.received n⟩]))
    (ends : outcome = .returns (g.received n) ∨ ∃ pid, outcome = .unblocks pid (k (g.received n))) :
    RecvStep g m pt (g', outcome) := by
  rw [at_.sameMail.taken] at same
  by_cases on : n = m
  · subst on
    have more : g'.taken n = g.taken n ++ [⟨buffer.msg_max_size, g.received n⟩] := by rw [same, Function.update_self]
    cases at_ with
    | recv active size slots occupied =>
      exact .takes (.recv active size slots occupied) (by simp [Point.queues, Call.fn]) more ends
    | resumed active occupied =>
      exact .takes (.resumed active occupied) (by simp [Point.queues, Wait.receivesFrom]) more ends
    | condRecv => exact ((plain.unconditional _ rfl).2 rfl).elim
  · have apart : (n : Nat) ≠ m := fun same => on (Fin.ext same)
    refine .apart ?_ ?_ ?_ (by rw [same, Function.update_of_ne (Ne.symm on)])
    · cases at_ <;> simp [Point.fn, Call.fn, Wait.fn, apart]
    · rcases ends with rfl | ⟨pid, rfl⟩ <;> rfl
    · rintro pid k' rfl
      have last : k' = k (g.received n) := by simpa using ends
      cases at_ <;> simp [last, Cont.fn, apart]

/-- A stretch that stores a message is of no receive. -/
theorem StorePoint.not_receives {g : Globals} {pt : Point} {n : MboxId} {msg : Message} {k : Cont} {id : Int}
    (at_ : StorePoint g pt n msg k) : pt.fn ≠ .recv id ∧ k.fn ≠ .recv id := by
  cases at_ <;> simp [Point.fn, Call.fn, Wait.fn, Cont.fn]

theorem Path.receives {g : Globals} {p : Pid} {pt : Point} {seg : Segment} (path : Path g p pt seg)
    (lives : ∀ f, seg.2 ≠ .faults f) {m : MboxId} {proc : Proc} (here : proc.At pt) (fits : proc.FitsAt g m)
    (plain : Plain g m pt)
    (large : ∀ g₀ buffer k, TakePoint g pt g₀ m buffer k → (g.received m).ret ≤ buffer.msg_max_size)
    (found : ∀ buffer, pt = .afterBlock (.recvEmpty m buffer) → (g.mailboxSlotQueues m).count ≠ 0) :
    RecvStep g m pt seg := by
  have ids : ∀ {n : MboxId}, n ≠ m → (n : Nat) ≠ m := fun apart same => apart (Fin.ext same)
  have released : ∀ {g₀ n stage}, ReleaseAt g pt g₀ n stage →
      pt.fn ≠ .recv (m : Nat) ∧ g₀.taken m = g.taken m := by
    intro g₀ n stage at_
    have other : ∀ id, Fn.recv (m : Nat) ≠ .release id := by simp
    obtain ⟨_, fn, _, same⟩ := at_.queues (Wait.receivesFrom m) other
    exact ⟨fn, congrFun same m⟩
  have resumes : ∀ {w}, pt = .afterBlock w → w.fn = .recv (m : Nat) →
      (g.mailboxes m).isActive = true ∧ w.zeroSlot = false ∧ w.mbox = m := by
    rintro w rfl fn
    have mbox : w.mbox = m := by
      cases w <;> simp_all [Wait.fn, Wait.mbox, Fin.ext_iff]
    obtain ⟨active, slots⟩ := plain.resumes here fits mbox
    exact ⟨active, slots, mbox⟩
  cases path with
  | @refused c _ denied =>
    exact .apart (fun fn => denied (plain.admitted c rfl (.inr fn))) rfl (by simp [returnCode]) rfl
  | created | createFails => exact .apart (by simp [Point.fn, Call.fn]) rfl (by simp [returnCode]) rfl
  | sendMatches => exact .apart (by simp [Point.fn, Call.fn]) rfl (by simp [Cont.fn]) rfl
  | sendZeroBlocks => exact .apart (by simp [Point.fn, Call.fn]) rfl (by simp) rfl
  | @sendFullBlocks n =>
    exact .apart (by simp [Point.fn, Call.fn]) rfl (by simp) (congrFun (Globals.recordSender_sameMail g p n).taken m)
  | @resumedFullBlocks n =>
    exact .apart (by simp [Point.fn, Wait.fn]) rfl (by simp) (congrFun (Globals.recordSender_sameMail g p n).taken m)
  | storeFaults | takeFaults => exact absurd rfl (lives _)
  | stores at_ => exact .apart at_.not_receives.1 rfl (by simp [returnCode]) rfl
  | storesAndWakes at_ => exact .apart at_.not_receives.1 rfl (by simpa using at_.not_receives.2) rfl
  | @recvMatches n _ _ _ active _ zero | @recvZeroBlocks n _ active _ zero =>
    have on : n ≠ m := by
      rintro rfl
      exact (plain.slots active).ne' zero
    exact .apart (by simp [Point.fn, Call.fn, ids on]) (by simp [Outcome.waitsIn, Wait.receivesFrom, on])
      (by simp [Cont.fn, ids on]) rfl
  | @recvEmptyBlocks n buffer =>
    by_cases on : n = m
    · subst on
      exact .waits (by simp [Point.queues, Call.fn]) rfl (by simp [Wait.receivesFrom]) rfl
    · exact .apart (by simp [Point.fn, Call.fn, ids on]) (by simp [Outcome.waitsIn, Wait.receivesFrom, on]) (by simp)
        rfl
  | @resumedEmpty n buffer _ empty =>
    have on : n ≠ m := by
      rintro rfl
      exact found buffer rfl empty
    exact .apart (by simp [Point.fn, Wait.fn, ids on]) rfl (by simp [returnCode]) rfl
  | @takeRejects _ g₀ n buffer k at_ _ small =>
    have on : n ≠ m := by
      rintro rfl
      exact absurd (large g₀ buffer k at_) (not_le.mpr small)
    refine .apart ?_ rfl (by simp [returnCode]) ?_
    · have apart := ids on
      cases at_ <;> simp [Point.fn, Call.fn, Wait.fn, apart]
    · simp [returnCode, Function.update_of_ne (Ne.symm on), at_.sameMail.taken]
  | takes at_ => exact at_.recvStep plain rfl (.inl rfl)
  | takesAndWakes at_ => exact at_.recvStep plain rfl (.inr ⟨_, rfl⟩)
  | @resumedInactive w inactive =>
    refine .apart (fun fn => ?_) rfl (by simp [returnCode]) rfl
    obtain ⟨active, _, mbox⟩ := resumes rfl fn
    rw [mbox, active] at inactive
    cases inactive
  | @resumedZero w n same =>
    refine .apart (fun fn => ?_) rfl (by simp [returnCode]) rfl
    obtain ⟨_, slots, _⟩ := resumes rfl fn
    rcases same with rfl | rfl <;> cases slots
  | sendMatchedReturns => exact .apart (by simp [Point.fn, Cont.fn]) rfl (by simp [returnCode]) rfl
  | @sendStoredReturns k n same =>
    refine .apart (fun fn => ?_) rfl (by simp [returnCode]) rfl
    rcases same with rfl | rfl | rfl
    · cases fn
    · obtain rfl : n = m := by simpa [Point.fn, Cont.fn, Fin.ext_iff] using fn
      obtain ⟨active, zero⟩ := here.cont_fits fits rfl
      exact (plain.slots active).ne' zero
    · cases fn
  | @recvTakenReturns k n r same =>
    rcases same with rfl | rfl
    · by_cases on : n = m
      · subst on
        exact .returns rfl rfl rfl
      · exact .apart (by simp [Point.fn, Cont.fn, ids on]) rfl (by simp) rfl
    · exact .apart (by simp [Point.fn, Cont.fn]) rfl (by simp) rfl
  | releaseWakesProducer at_ | releaseWakesConsumer at_ | releaseWakesPointer at_ =>
    exact .apart (released at_).1 rfl (by simp [Cont.fn]) (released at_).2
  | releaseReturns at_ => exact .apart (released at_).1 rfl (by simp [returnCode]) (released at_).2

end UslossKernel
