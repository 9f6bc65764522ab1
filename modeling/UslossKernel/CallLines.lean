import UslossKernel.CallOrder
import UslossKernel.QueueCalls
import UslossKernel.RecordSources

namespace UslossKernel

/-- The operation whose calls wait in this role. -/
def Role.fn (m : MboxId) : Role → Fn
  | .producer => .send (m : Nat)
  | .consumer => .recv (m : Nat)

/-- How many of those who wait in this role `m` has a place or a message for. -/
def Role.offers (g : Globals) (m : MboxId) : Role → Nat
  | .producer => (g.mailboxes m).numSlots - (g.mailboxSlotQueues m).count
  | .consumer => (g.mailboxSlotQueues m).count

/-- What a stretch of code does about those who wait in this role on `m`: it
serves the process that runs it, suspends it, wakes the first on record, or
none of this. -/
inductive LineStep (ρ : Role) (m : MboxId) (g : Globals) (pt : Point) (seg : Segment) : Prop
  | serves : pt.queues (ρ.waits m) (ρ.fn m) = true → seg.2.waitsIn (ρ.waits m) = false →
      ρ.array seg.1 m = ρ.array g m → ρ.offers g m = ρ.offers seg.1 m + 1 →
      (∀ pid k, seg.2 = .unblocks pid k → k.mbox = m → pid ∈ ρ.other.array g m) → LineStep ρ m g pt seg
  | joins {w} : pt.queues (ρ.waits m) (ρ.fn m) = true → seg.2 = .blocks w → ρ.waits m w = true →
      ρ.offers g m = 0 → ρ.offers seg.1 m = 0 → LineStep ρ m g pt seg
  | wakes {pid rest k} : pt.queues (ρ.waits m) (ρ.fn m) = false → seg.2 = .unblocks pid k → k.mbox = m →
      ρ.array g m = pid :: rest → ρ.array seg.1 m = rest → ρ.offers seg.1 m = ρ.offers g m + 1 →
      LineStep ρ m g pt seg
  | apart : pt.queues (ρ.waits m) (ρ.fn m) = false → seg.2.waitsIn (ρ.waits m) = false →
      ρ.array seg.1 m = ρ.array g m → ρ.offers g m ≤ ρ.offers seg.1 m →
      (ρ.array g m ≠ [] → ρ.offers seg.1 m = ρ.offers g m) →
      (∀ pid k, seg.2 = .unblocks pid k → k.mbox = m → pid ∈ ρ.other.array g m) → LineStep ρ m g pt seg
  | inactive : (g.mailboxes m).isActive = false → pt.queues (ρ.waits m) (ρ.fn m) = false →
      seg.2.waitsIn (ρ.waits m) = false → ρ.array seg.1 m = ρ.array g m →
      (∀ pid k, seg.2 = .unblocks pid k → k.mbox ≠ m) → LineStep ρ m g pt seg

variable {g g₀ : Globals} {p : Pid} {pt : Point} {m n : MboxId} {seg : Segment} {ρ : Role}

theorem Role.waits_mbox {w : Wait} (waits : ρ.waits m w = true) : w.mbox = m := by
  cases ρ with
  | producer => exact Wait.mbox_of_sendsTo waits
  | consumer => exact Wait.mbox_of_receivesFrom waits

theorem Role.fn_of_queues (queues : pt.queues (ρ.waits m) (ρ.fn m) = true) : pt.fn = ρ.fn m := by
  cases pt with
  | start c => exact of_decide_eq_true queues
  | afterBlock w => cases ρ <;> cases w <;> simp_all [Point.queues, Role.waits, Wait.sendsTo, Wait.receivesFrom,
      Point.fn, Wait.fn, Role.fn]
  | afterUnblock => cases queues

theorem Role.addresses_fn : (ρ.fn m).addresses m = true := by
  cases ρ <;> simp [Role.fn, Fn.addresses]

/-- A stretch of code of a call that was not made with the id leaves the line alone. -/
theorem Path.lineStep_away (path : Path g p pt seg) (sound : g.Sound) (active : (g.mailboxes m).isActive = true)
    (away : pt.fn.addresses m = false) : LineStep ρ m g pt seg := by
  have same := path.sameBox sound active away
  have array : ρ.array seg.1 m = ρ.array g m := by
    cases ρ
    · exact same.producers
    · exact same.consumers
  have offers : ρ.offers seg.1 m = ρ.offers g m := by
    cases ρ <;> simp [Role.offers, same.mbox, same.ring]
  have other : ∀ fn : Fn, fn.addresses m = true → fn ≠ pt.fn := by
    rintro fn on rfl
    rw [away] at on
    cases on
  refine .apart ?_ ?_ array offers.ge (fun _ => offers) fun pid k names mbox => ?_
  · rw [Bool.eq_false_iff]
    exact fun queues => other _ Role.addresses_fn (Role.fn_of_queues queues).symm
  · by_contra waits
    obtain ⟨w, blocks, kind⟩ : ∃ w, seg.2 = .blocks w ∧ ρ.waits m w = true := by
      cases ends : seg.2 <;> simp_all [Outcome.waitsIn]
    refine other w.fn ?_ (path.fn_blocks blocks)
    have mbox := Role.waits_mbox kind
    cases w <;> simp_all [Wait.fn, Wait.mbox, Fn.addresses]
  · refine (other k.fn ?_ (path.fn_unblocks names)).elim
    cases k <;> simp_all [Cont.fn, Cont.mbox, Fn.addresses]

/-- While `m` does not exist nobody waits for it. -/
theorem Path.lineStep_inactive (path : Path g p pt seg) (lives : ∀ f, seg.2 ≠ .faults f) (sound : g.Sound)
    {proc : Proc} (here : proc.At pt) (fits : proc.FitsAt g m) (plain : Plain g m pt)
    (inactive : (g.mailboxes m).isActive = false) : LineStep ρ m g pt seg := by
  have ends := path.fits here fits sound plain.unreleased
  have dead : (g.mailboxes m).isActive ≠ true := by simp [inactive]
  have waitless : ∀ w, seg.2 = .blocks w → ρ.waits m w = false := by
    intro w blocks
    rw [blocks] at ends
    by_contra waits
    have mbox := Role.waits_mbox (by simpa using waits)
    exact dead (mbox ▸ (ends mbox).1)
  refine .inactive inactive ?_ ?_ ?_ ?_
  · rw [Bool.eq_false_iff]
    intro queues
    cases pt with
    | start c =>
      have fn : c.fn = ρ.fn m := Role.fn_of_queues queues
      have admitted := plain.admitted c rfl (by cases ρ <;> simp [fn, Role.fn])
      cases ρ <;> cases c <;> cases fn <;> obtain ⟨n, found, _⟩ := admitted
      all_goals
        obtain ⟨same, active⟩ := Globals.activeMbox_eq_some.mp found
        obtain rfl : m = n := Fin.ext (by exact_mod_cast same)
        exact dead active
    | afterBlock w =>
      have mbox : w.mbox = m := Role.waits_mbox (ρ := ρ) queues
      exact dead (mbox ▸ (here.wait_fits fits mbox).1)
    | afterUnblock => cases queues
  · cases outcome : seg.2 with
    | blocks w => exact waitless w outcome
    | returns | unblocks | faults => rfl
  · have requeue := path.requeue lives (ρ := ρ) (m := m)
    generalize ρ.array seg.1 m = waiting' at requeue
    cases requeue with
    | keeps => rfl
    | joins _ _ active | pops _ _ active => exact absurd active dead
    | empties loops =>
      cases loops with
      | begins => exact absurd rfl plain.unreleased
      | within =>
        have still := here.cont_fits fits (by cases ρ <;> rfl)
        cases ρ <;> exact still.elim
      | @follows σ =>
        have still := here.cont_fits fits (by cases σ <;> rfl)
        cases σ <;> exact still.elim
  · intro pid k names mbox
    rw [names] at ends
    exact dead (mbox ▸ (ends mbox).active)

theorem StorePoint.queues {msg : Message} {k : Cont} (at_ : StorePoint g pt m msg k) (plain : Plain g m pt) :
    pt.queues (Wait.sendsTo m) (.send (m : Nat)) = true ∧ pt.queues (Wait.receivesFrom m) (.recv (m : Nat)) = false ∧
      (g.mailboxSlotQueues m).count < (g.mailboxes m).numSlots := by
  have slots := plain.slots at_.active
  cases at_ with
  | send _ _ _ _ room => exact ⟨by simp [Point.queues, Call.fn], by simp [Point.queues, Call.fn], room⟩
  | resumed _ room =>
    exact ⟨by simp [Point.queues, Wait.sendsTo], by simp [Point.queues, Wait.receivesFrom], by omega⟩
  | condSend => exact absurd rfl (plain.unconditional _ rfl).1

theorem TakePoint.queues {buffer : Buffer} {k : Result → Cont} (at_ : TakePoint g pt g₀ m buffer k)
    (plain : Plain g m pt) : pt.queues (Wait.receivesFrom m) (.recv (m : Nat)) = true ∧
      pt.queues (Wait.sendsTo m) (.send (m : Nat)) = false ∧ 0 < (g.mailboxSlotQueues m).count := by
  have occupied := at_.occupied
  cases at_ with
  | recv => exact ⟨by simp [Point.queues, Call.fn], by simp [Point.queues, Call.fn], occupied⟩
  | resumed => exact ⟨by simp [Point.queues, Wait.receivesFrom], by simp [Point.queues, Wait.sendsTo], occupied⟩
  | condRecv => exact absurd rfl (plain.unconditional _ rfl).2

/-- A message that is stored in `m` serves a sender, and wakes the first receiver. -/
theorem StorePoint.lineStep {msg : Message} {k : Cont} {g' : Globals} {outcome : Outcome}
    (at_ : StorePoint g pt m msg k) (plain : Plain g m pt) (mailboxes : g'.mailboxes = g.mailboxes)
    (rings : g'.mailboxSlotQueues = (g.storeMessage m msg).mailboxSlotQueues)
    (producers : g'.blockedProducers = g.blockedProducers)
    (ends : g.blockedConsumers m = [] ∧ g'.blockedConsumers m = [] ∧ outcome = .returns ⟨0, []⟩ ∨
      ∃ pid rest, g.blockedConsumers m = pid :: rest ∧ g'.blockedConsumers m = rest ∧ outcome = .unblocks pid k) :
    LineStep ρ m g pt (g', outcome) := by
  obtain ⟨sends, receives, room⟩ := at_.queues plain
  have count : (g'.mailboxSlotQueues m).count = (g.mailboxSlotQueues m).count + 1 := by
    rw [rings, Globals.storeMessage_mailboxSlotQueues, Function.update_self]
    rfl
  have mbox : k.mbox = m := by cases at_ <;> rfl
  cases ρ with
  | producer =>
    refine .serves sends ?_ (congrFun producers m) ?_ fun pid k names _ => ?_
    · rcases ends with ⟨_, _, rfl⟩ | ⟨_, _, _, _, rfl⟩ <;> rfl
    · simp only [Role.offers, mailboxes, count]
      omega
    · rcases ends with ⟨_, _, rfl⟩ | ⟨_, _, recorded, _, rfl⟩ <;> cases names
      exact List.mem_of_mem_head? (by simp [Role.other, Role.array, recorded])
  | consumer =>
    rcases ends with ⟨none, still, rfl⟩ | ⟨pid, rest, recorded, left, rfl⟩
    · refine .apart receives rfl (still.trans none.symm) (by simp [Role.offers, count]) (fun some => ?_)
        (by rintro _ _ ⟨⟩)
      exact absurd none some
    · exact .wakes receives rfl mbox recorded left count

/-- A message that is taken from `m` serves a receiver, and wakes the first sender. -/
theorem TakePoint.lineStep {buffer : Buffer} {k : Result → Cont} {g' : Globals} {outcome : Outcome} {r : Result}
    (at_ : TakePoint g pt g₀ m buffer k) (plain : Plain g m pt) (sound : g.Sound)
    (numSlots : (g'.mailboxes m).numSlots = (g.mailboxes m).numSlots)
    (count : (g'.mailboxSlotQueues m).count = (g.mailboxSlotQueues m).count - 1)
    (consumers : g'.blockedConsumers = g.blockedConsumers)
    (ends : g.blockedProducers m = [] ∧ g'.blockedProducers m = [] ∧ outcome = .returns r ∨
      ∃ pid rest, g.blockedProducers m = pid :: rest ∧ g'.blockedProducers m = rest ∧ outcome = .unblocks pid (k r)) :
    LineStep ρ m g pt (g', outcome) := by
  obtain ⟨receives, sends, occupied⟩ := at_.queues plain
  have bound := sound.count_le at_.active
  have mbox : (k r).mbox = m := by cases at_ <;> rfl
  cases ρ with
  | producer =>
    rcases ends with ⟨none, still, rfl⟩ | ⟨pid, rest, recorded, left, rfl⟩
    · refine .apart sends rfl (still.trans none.symm) ?_ (fun some => ?_) (by rintro _ _ ⟨⟩)
      · simp only [Role.offers, numSlots, count]
        omega
      · exact absurd none some
    · refine .wakes sends rfl mbox recorded left ?_
      simp only [Role.offers, numSlots, count]
      omega
  | consumer =>
    refine .serves receives ?_ (congrFun consumers m) ?_ fun pid k names _ => ?_
    · rcases ends with ⟨_, _, rfl⟩ | ⟨_, _, _, _, rfl⟩ <;> rfl
    · simp only [Role.offers, count]
      omega
    · rcases ends with ⟨_, _, rfl⟩ | ⟨_, _, recorded, _, rfl⟩ <;> cases names
      exact List.mem_of_mem_head? (by simp [Role.other, Role.array, recorded])

theorem Role.offers_sameMail {g' : Globals} (same : g.SameMail g') : ρ.offers g' m = ρ.offers g m := by
  cases ρ <;> simp [Role.offers, same.rings, same.numSlots]

/-- A process is suspended in one of the roles. -/
theorem LineStep.suspends {σ : Role} {w : Wait} {g' : Globals} (queues : pt.queues (σ.waits m) (σ.fn m) = true)
    (waits : σ.waits m w = true) (same : g.SameMail g') (none : σ.offers g m = 0)
    (other : σ.other.array g' = σ.other.array g) : LineStep ρ m g pt (g', .blocks w) := by
  by_cases own : ρ = σ
  · subst own
    exact .joins queues rfl waits none ((Role.offers_sameMail same).trans none)
  · have others : ρ = σ.other := by cases ρ <;> cases σ <;> trivial
    refine .apart ?_ ?_ (by rw [others, other]) (Role.offers_sameMail same).ge (fun _ => Role.offers_sameMail same)
      (by rintro _ _ ⟨⟩)
    · rw [Bool.eq_false_iff]
      intro also
      have fn := (Role.fn_of_queues also).symm.trans (Role.fn_of_queues queues)
      cases ρ <;> cases σ <;> first | exact own rfl | cases fn
    · by_contra also
      exact own (Role.waits_unique waits (by simpa [Outcome.waitsIn] using also)).1

theorem LineStep.returns {r : Result} {k : Cont} : LineStep ρ m g (.afterUnblock k) (g, .returns r) :=
  .apart rfl rfl rfl le_rfl (fun _ => rfl) (by rintro _ _ ⟨⟩)

/-- While the calls on `m` are sends and receives that pass their checks, the
buffers are large enough, a woken receiver finds a message, and a send finds
the pointer set if a receiver is on record. -/
theorem Path.lineStep (path : Path g p pt seg) (lives : ∀ f, seg.2 ≠ .faults f) (sound : g.Sound) {proc : Proc}
    (here : proc.At pt) (fits : proc.FitsAt g m) (plain : Plain g m pt)
    (large : ∀ g₀ buffer k, TakePoint g pt g₀ m buffer k → (g.received m).ret ≤ buffer.msg_max_size)
    (found : ∀ buffer, pt = .afterBlock (.recvEmpty m buffer) → (g.mailboxSlotQueues m).count ≠ 0)
    (pointed : ∀ msg k, StorePoint g pt m msg k → g.blockedConsumers m ≠ [] → (g.mailboxes m).consumers ≠ none) :
    LineStep ρ m g pt seg := by
  cases atM : (g.mailboxes m).isActive with
  | false => exact path.lineStep_inactive lives sound here fits plain atM
  | true =>
  cases on : pt.fn.addresses m with
  | false => exact path.lineStep_away sound atM on
  | true =>
  have slots := plain.slots atM
  have unreleased : ∀ {g₀ n stage}, ¬ ReleaseAt g pt g₀ n stage := by
    intro g₀ n stage at_
    obtain rfl : n = m := Fin.ext (by simpa [at_.fn, Fn.addresses] using on)
    rcases at_.sameMail with ⟨start, _⟩ | ⟨⟨k, releases, rfl⟩, _⟩
    · exact plain.unreleased start
    · have still := Cont.Fits.not_releases (m := n) fun mbox => here.cont_fits fits mbox
      rw [releases] at still
      cases still
  have suspends : ∀ {msg}, pt.queues (Wait.sendsTo m) (.send (m : Nat)) = true →
      (g.mailboxes m).numSlots ≤ (g.mailboxSlotQueues m).count →
      LineStep ρ m g pt (recordSender g p m, .blocks (.sendFull m msg)) := by
    intro msg queues full
    obtain ⟨_, _, consumers, _⟩ := recordSender_joins g p m
    exact .suspends (σ := .producer) queues (by simp [Role.waits, Wait.sendsTo]) (Globals.recordSender_sameMail g p m)
      (Nat.sub_eq_zero_of_le full) consumers
  cases path with
  | @refused c _ denied =>
    exfalso
    obtain ⟨condSend, condRecv⟩ := plain.unconditional c rfl
    have other := plain.unreleased
    cases c with
    | create => simp [Point.fn, Call.fn, Fn.addresses] at on
    | release id => exact other (by simpa [Point.fn, Call.fn, Fn.addresses] using on)
    | send id | recv id =>
      exact denied (plain.admitted _ rfl (by simpa [Point.fn, Call.fn, Fn.addresses] using on))
    | condSend id => exact condSend (by simpa [Point.fn, Call.fn, Fn.addresses] using on)
    | condRecv id => exact condRecv (by simpa [Point.fn, Call.fn, Fn.addresses] using on)
  | created | createFails => simp [Point.fn, Call.fn, Fn.addresses] at on
  | @sendMatches n _ _ _ _ _ zero | @sendZeroBlocks n _ _ _ _ zero | @recvMatches n _ _ _ _ _ zero
  | @recvZeroBlocks n _ _ _ zero =>
    obtain rfl : n = m := Fin.ext (by simpa [Point.fn, Call.fn, Fn.addresses] using on)
    exact absurd zero slots.ne'
  | @sendFullBlocks n _ _ _ _ _ _ full =>
    obtain rfl : n = m := Fin.ext (by simpa [Point.fn, Call.fn, Fn.addresses] using on)
    exact suspends (by simp [Point.queues, Call.fn]) full
  | @resumedFullBlocks n _ _ _ full =>
    obtain rfl : n = m := Fin.ext (by simpa [Point.fn, Wait.fn, Fn.addresses] using on)
    exact suspends (by simp [Point.queues, Wait.sendsTo]) full
  | storeFaults | takeFaults => exact absurd rfl (lives _)
  | @stores _ n _ _ at_ _ unwoken =>
    obtain rfl := at_.addressed on
    have none : g.blockedConsumers n = [] := by
      rcases unwoken with null | none
      · by_contra some
        exact pointed _ _ at_ some null
      · exact none
    exact at_.lineStep plain rfl rfl rfl (.inl ⟨none, none, rfl⟩)
  | storesAndWakes at_ _ _ recorded =>
    obtain rfl := at_.addressed on
    exact at_.lineStep plain rfl rfl rfl (.inr ⟨_, _, recorded, Function.update_self .., rfl⟩)
  | @recvEmptyBlocks n buffer _ _ _ empty =>
    obtain rfl : n = m := Fin.ext (by simpa [Point.fn, Call.fn, Fn.addresses] using on)
    exact .suspends (σ := .consumer) (by simp [Point.queues, Role.fn, Call.fn])
      (by simp [Role.waits, Wait.receivesFrom]) (Globals.awaitMessage_sameMail g p n) empty rfl
  | @resumedEmpty n buffer _ empty =>
    obtain rfl : n = m := Fin.ext (by simpa [Point.fn, Wait.fn, Fn.addresses] using on)
    exact absurd empty (found buffer rfl)
  | takeRejects at_ _ small =>
    obtain rfl := at_.addressed on
    exact absurd (large _ _ _ at_) (not_le.mpr small)
  | takes at_ _ _ none =>
    obtain rfl := at_.addressed on
    rcases at_.tables with rfl | rfl <;>
      exact at_.lineStep plain sound (by simp) (by simp [SlotQueue.dequeue]) rfl (.inl ⟨none, none, rfl⟩)
  | takesAndWakes at_ _ _ recorded =>
    obtain rfl := at_.addressed on
    rcases at_.tables with rfl | rfl <;>
      exact at_.lineStep plain sound (by simp) (by simp [SlotQueue.dequeue]) rfl
        (.inr ⟨_, _, recorded, Function.update_self .., rfl⟩)
  | @resumedInactive w inactive =>
    rw [Wait.addressed on, atM] at inactive
    cases inactive
  | @resumedZero w n same =>
    obtain ⟨_, slotted⟩ := plain.resumes here fits (Wait.addressed on)
    rcases same with rfl | rfl <;> cases slotted
  | @sendMatchedReturns n =>
    obtain rfl : n = m := Fin.ext (by simpa [Point.fn, Cont.fn, Fn.addresses] using on)
    exact absurd (here.cont_fits fits rfl).2 slots.ne'
  | sendStoredReturns | recvTakenReturns => exact .returns
  | releaseWakesProducer at_ | releaseWakesConsumer at_ | releaseWakesPointer at_ | releaseReturns at_ =>
    exact (unreleased at_).elim

end UslossKernel
