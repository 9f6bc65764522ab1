import UslossKernel.Processes

namespace UslossKernel

/-- The argument checks and the immediate refusals let the call through. -/
def Call.Admitted (g : Globals) : Call → Prop
  | .create numSlots slotSize _ =>
    0 ≤ numSlots ∧ numSlots ≤ maxSlots ∧ 0 ≤ slotSize ∧ slotSize ≤ maxMessage ∧ g.firstInactive ≠ none
  | .release id => g.activeMbox id ≠ none
  | .send id msg_ptr msg_size => ∃ m, g.activeMbox id = some m ∧ g.accepts m msg_ptr msg_size = true ∧
      ((g.mailboxes m).numSlots = 0 ∨ g.freeSlotCount ≠ 0)
  | .condSend id msg_ptr msg_size => ∃ m, g.activeMbox id = some m ∧ g.accepts m msg_ptr msg_size = true ∧
      g.freeSlotCount ≠ 0 ∧ (g.mailboxSlotQueues m).count < (g.mailboxes m).numSlots
  | .recv id buffer => ∃ m, g.activeMbox id = some m ∧ 0 ≤ buffer.msg_max_size
  | .condRecv id buffer => ∃ m, g.activeMbox id = some m ∧ 0 ≤ buffer.msg_max_size ∧
      (g.mailboxSlotQueues m).count ≠ 0

/-- The code running on from this point stores `msg` in `m` at once, and goes
on at `k` if it then wakes a receiver. -/
inductive StorePoint (g : Globals) : Point → MboxId → Message → Cont → Prop
  | send {m msg_ptr msg_size} : (g.mailboxes m).isActive = true → g.accepts m msg_ptr msg_size = true →
      (g.mailboxes m).numSlots ≠ 0 → g.freeSlotCount ≠ 0 →
      (g.mailboxSlotQueues m).count < (g.mailboxes m).numSlots →
      StorePoint g (.start (.send (m : Nat) msg_ptr msg_size)) m (bytesAt msg_ptr msg_size.toNat) (.sendStored m)
  | resumed {m msg} : (g.mailboxes m).isActive = true →
      ((g.mailboxSlotQueues m).count < (g.mailboxes m).numSlots ∨ (g.mailboxes m).numSlots = 0) →
      StorePoint g (.afterBlock (.sendFull m msg)) m msg (.sendStored m)
  | condSend {m msg_ptr msg_size} : (g.mailboxes m).isActive = true → g.accepts m msg_ptr msg_size = true →
      g.freeSlotCount ≠ 0 → (g.mailboxSlotQueues m).count < (g.mailboxes m).numSlots →
      StorePoint g (.start (.condSend (m : Nat) msg_ptr msg_size)) m (bytesAt msg_ptr msg_size.toNat)
        (.condSendStored m)

/-- The code running on from this point takes the oldest message of `m` at
once, from the tables `g₀`: a resumed receiver has cleared the pointer. -/
inductive TakePoint (g : Globals) : Point → Globals → MboxId → Buffer → (Result → Cont) → Prop
  | recv {m buffer} : (g.mailboxes m).isActive = true → 0 ≤ buffer.msg_max_size → (g.mailboxes m).numSlots ≠ 0 →
      (g.mailboxSlotQueues m).count ≠ 0 →
      TakePoint g (.start (.recv (m : Nat) buffer)) g m buffer (.recvTaken m)
  | resumed {m buffer} : (g.mailboxes m).isActive = true → (g.mailboxSlotQueues m).count ≠ 0 →
      TakePoint g (.afterBlock (.recvEmpty m buffer)) (g.clearConsumers m) m buffer (.recvTaken m)
  | condRecv {m buffer} : (g.mailboxes m).isActive = true → 0 ≤ buffer.msg_max_size →
      (g.mailboxSlotQueues m).count ≠ 0 →
      TakePoint g (.start (.condRecv (m : Nat) buffer)) g m buffer (.condRecvTaken m)

/-- The parts of `MboxRelease`, each with the index its loop stands at. -/
inductive Stage
  | producers (i : Nat)
  | consumers (i : Nat)
  | pointer
  | rest

/-- The code running on from this point comes to this part of the release of
`m` with the tables `g₀`, without waking anyone on the way. -/
inductive ReleaseAt (g : Globals) : Point → Globals → MboxId → Stage → Prop
  | start {m} : (g.mailboxes m).isActive = true →
      ReleaseAt g (.start (.release (m : Nat))) (g.deactivate m) m (.producers 0)
  | nextProducer {m i} : ReleaseAt g (.afterUnblock (.releaseProducers m i)) g m (.producers i)
  | nextConsumer {m i} : ReleaseAt g (.afterUnblock (.releaseConsumers m i)) g m (.consumers i)
  | pointerWoken {m} : ReleaseAt g (.afterUnblock (.releasePointer m)) (g.clearConsumers m) m .rest
  | producersDone {pt g₀ m i} : ReleaseAt g pt g₀ m (.producers i) → (g₀.blockedProducers m).length ≤ i →
      ReleaseAt g pt (g₀.setBlockedProducers m []) m
        (if (g₀.mailboxes m).numSlots = 0 then .consumers 0 else .pointer)
  | consumersDone {pt g₀ m i} : ReleaseAt g pt g₀ m (.consumers i) → (g₀.blockedConsumers m).length ≤ i →
      ReleaseAt g pt (g₀.setBlockedConsumers m []) m .rest
  | pointerNull {pt g₀ m} : ReleaseAt g pt g₀ m .pointer → (g₀.mailboxes m).consumers = none →
      ReleaseAt g pt g₀ m .rest

theorem StorePoint.active {g : Globals} {pt : Point} {m : MboxId} {msg : Message} {k : Cont}
    (at_ : StorePoint g pt m msg k) : (g.mailboxes m).isActive = true := by
  cases at_ <;> assumption

theorem TakePoint.active {g g₀ : Globals} {pt : Point} {m : MboxId} {buffer : Buffer} {k : Result → Cont}
    (at_ : TakePoint g pt g₀ m buffer k) : (g.mailboxes m).isActive = true := by
  cases at_ <;> assumption

theorem TakePoint.occupied {g g₀ : Globals} {pt : Point} {m : MboxId} {buffer : Buffer} {k : Result → Cont}
    (at_ : TakePoint g pt g₀ m buffer k) : 0 < (g.mailboxSlotQueues m).count := by
  cases at_ <;> omega

theorem StorePoint.fn {g : Globals} {pt : Point} {m : MboxId} {msg : Message} {k : Cont}
    (at_ : StorePoint g pt m msg k) : pt.fn = .send (m : Nat) ∨ pt.fn = .condSend (m : Nat) := by
  cases at_ <;> simp [Point.fn, Call.fn, Wait.fn]

theorem TakePoint.fn {g g₀ : Globals} {pt : Point} {m : MboxId} {buffer : Buffer} {k : Result → Cont}
    (at_ : TakePoint g pt g₀ m buffer k) : pt.fn = .recv (m : Nat) ∨ pt.fn = .condRecv (m : Nat) := by
  cases at_ <;> simp [Point.fn, Call.fn, Wait.fn]

/-- The ring can be written: otherwise the store is undefined. -/
structure Storable (g : Globals) (m : MboxId) : Prop where
  free : 0 < g.freeSlotCount
  allocated : (g.mailboxSlotQueues m).queue ≠ none
  capacity : 0 < (g.mailboxSlotQueues m).capacity

/-- The slot at the head of the ring of `m`. -/
def Globals.headSlot (g : Globals) (m : MboxId) : Nat :=
  (g.mailboxSlotQueues m).ring.cells (g.mailboxSlotQueues m).head

/-- The message at the head of the ring, as the receiver gets it. -/
def Globals.received (g : Globals) (m : MboxId) : Result :=
  ⟨(g.mailSlots (g.headSlot m)).messageLength, (g.mailSlots (g.headSlot m)).contents⟩

/-- Every way a stretch of code can go: the point it starts from, what was
tested on the way, the tables it leaves and how it ends. -/
inductive Path (g : Globals) (p : Pid) : Point → Segment → Prop
  | refused {c code} : ¬ c.Admitted g → code < 0 → Path g p (.start c) (returnCode g code)
  | created {m} {numSlots slotSize : Int} : g.firstInactive = some m → 0 ≤ numSlots → numSlots ≤ maxSlots →
      Path g p (.start (.create numSlots slotSize true))
        (returnCode (g.createMailbox m numSlots.toNat slotSize.toNat) (m : Nat))
  | createFails {m} {numSlots slotSize : Int} : g.firstInactive = some m →
      Path g p (.start (.create numSlots slotSize false))
        (returnCode (g.loseMailbox m numSlots.toNat slotSize.toNat) (-1))
  | sendMatches {m msg_ptr msg_size entry} : (g.mailboxes m).isActive = true →
      g.accepts m msg_ptr msg_size = true → (g.mailboxes m).numSlots = 0 →
      (g.mailboxes m).consumers = some entry →
      Path g p (.start (.send (m : Nat) msg_ptr msg_size)) (g, .unblocks (g.shadowProcesses entry) (.sendMatched m))
  | sendZeroBlocks {m msg_ptr msg_size} : (g.mailboxes m).isActive = true →
      g.accepts m msg_ptr msg_size = true → (g.mailboxes m).numSlots = 0 → (g.mailboxes m).consumers = none →
      Path g p (.start (.send (m : Nat) msg_ptr msg_size)) (awaitReceiver g p m, .blocks (.sendZero m))
  | sendFullBlocks {m msg_ptr msg_size} : (g.mailboxes m).isActive = true →
      g.accepts m msg_ptr msg_size = true → (g.mailboxes m).numSlots ≠ 0 → g.freeSlotCount ≠ 0 →
      (g.mailboxes m).numSlots ≤ (g.mailboxSlotQueues m).count →
      Path g p (.start (.send (m : Nat) msg_ptr msg_size))
        (recordSender g p m, .blocks (.sendFull m (bytesAt msg_ptr msg_size.toNat)))
  | resumedFullBlocks {m msg} : (g.mailboxes m).isActive = true → (g.mailboxes m).numSlots ≠ 0 →
      (g.mailboxes m).numSlots ≤ (g.mailboxSlotQueues m).count →
      Path g p (.afterBlock (.sendFull m msg)) (recordSender g p m, .blocks (.sendFull m msg))
  | storeFaults {pt m msg k f} : StorePoint g pt m msg k → Path g p pt (g, .faults f)
  | stores {pt m msg k} : StorePoint g pt m msg k → Storable g m →
      ((g.mailboxes m).consumers = none ∨ g.blockedConsumers m = []) →
      Path g p pt (returnCode (g.storeMessage m msg) 0)
  | storesAndWakes {pt m msg k pid rest} : StorePoint g pt m msg k → Storable g m →
      (g.mailboxes m).consumers ≠ none → g.blockedConsumers m = pid :: rest →
      Path g p pt ((g.storeMessage m msg).setBlockedConsumers m rest, .unblocks pid k)
  | recvMatches {m buffer pid rest} : (g.mailboxes m).isActive = true → 0 ≤ buffer.msg_max_size →
      (g.mailboxes m).numSlots = 0 → g.blockedProducers m = pid :: rest →
      Path g p (.start (.recv (m : Nat) buffer)) (g.setBlockedProducers m rest, .unblocks pid (.recvMatched m))
  | recvZeroBlocks {m buffer} : (g.mailboxes m).isActive = true → 0 ≤ buffer.msg_max_size →
      (g.mailboxes m).numSlots = 0 → g.blockedProducers m = [] →
      Path g p (.start (.recv (m : Nat) buffer)) (awaitMessage g p m, .blocks (.recvZero m))
  | recvEmptyBlocks {m buffer} : (g.mailboxes m).isActive = true → 0 ≤ buffer.msg_max_size →
      (g.mailboxes m).numSlots ≠ 0 → (g.mailboxSlotQueues m).count = 0 →
      Path g p (.start (.recv (m : Nat) buffer)) (awaitMessage g p m, .blocks (.recvEmpty m buffer))
  | resumedEmpty {m buffer} : (g.mailboxes m).isActive = true → (g.mailboxSlotQueues m).count = 0 →
      Path g p (.afterBlock (.recvEmpty m buffer)) (returnCode (g.clearConsumers m) (-1))
  | takeFaults {pt g₀ m buffer k f} : TakePoint g pt g₀ m buffer k → Path g p pt (g₀, .faults f)
  | takeRejects {pt g₀ m buffer k} : TakePoint g pt g₀ m buffer k → (g.mailboxSlotQueues m).queue ≠ none →
      buffer.msg_max_size < (g.received m).ret →
      Path g p pt (returnCode (g₀.dequeueSlot m ⟨buffer.msg_max_size, -1, []⟩) (-1))
  | takes {pt g₀ m buffer k} : TakePoint g pt g₀ m buffer k → (g.mailboxSlotQueues m).queue ≠ none →
      (g.received m).ret ≤ buffer.msg_max_size → g.blockedProducers m = [] →
      Path g p pt ((g₀.dequeueSlot m ⟨buffer.msg_max_size, g.received m⟩).freeSlot (g.headSlot m),
        .returns (g.received m))
  | takesAndWakes {pt g₀ m buffer k pid rest} : TakePoint g pt g₀ m buffer k →
      (g.mailboxSlotQueues m).queue ≠ none → (g.received m).ret ≤ buffer.msg_max_size →
      g.blockedProducers m = pid :: rest →
      Path g p pt (((g₀.dequeueSlot m ⟨buffer.msg_max_size, g.received m⟩).freeSlot
        (g.headSlot m)).setBlockedProducers m rest, .unblocks pid (k (g.received m)))
  | resumedInactive {w} : (g.mailboxes w.mbox).isActive = false → Path g p (.afterBlock w) (returnCode g (-1))
  | resumedZero {w m} : w = .sendZero m ∨ w = .recvZero m → (g.mailboxes m).isActive = true →
      Path g p (.afterBlock w) (returnCode g 0)
  | sendMatchedReturns {m} : Path g p (.afterUnblock (.sendMatched m)) (returnCode (g.clearConsumers m) 0)
  | sendStoredReturns {k m} : k = .sendStored m ∨ k = .recvMatched m ∨ k = .condSendStored m →
      Path g p (.afterUnblock k) (returnCode g 0)
  | recvTakenReturns {k m r} : k = .recvTaken m r ∨ k = .condRecvTaken m r →
      Path g p (.afterUnblock k) (g, .returns r)
  | releaseWakesProducer {pt g₀ m i pid} : ReleaseAt g pt g₀ m (.producers i) →
      (g₀.blockedProducers m)[i]? = some pid → Path g p pt (g₀, .unblocks pid (.releaseProducers m (i + 1)))
  | releaseWakesConsumer {pt g₀ m i pid} : ReleaseAt g pt g₀ m (.consumers i) →
      (g₀.blockedConsumers m)[i]? = some pid → Path g p pt (g₀, .unblocks pid (.releaseConsumers m (i + 1)))
  | releaseWakesPointer {pt g₀ m entry} : ReleaseAt g pt g₀ m .pointer →
      (g₀.mailboxes m).consumers = some entry →
      Path g p pt (g₀, .unblocks (g₀.shadowProcesses entry) (.releasePointer m))
  | releaseReturns {pt g₀ m} : ReleaseAt g pt g₀ m .rest → Path g p pt (returnCode (g₀.freeQueue m) 0)

/-- Where nobody waits through the pointer, the message is stored and the call
returns. -/
theorem storeAndWake_stores {g : Globals} {m : MboxId} (storable : Storable g m)
    (alone : (g.mailboxes m).consumers = none) (msg : Message) (k : Cont) :
    storeAndWake g m msg k = returnCode (g.storeMessage m msg) 0 := by
  unfold storeAndWake
  rw [if_neg storable.free.ne', if_neg (by simpa using storable.allocated), if_neg storable.capacity.ne', if_neg ?_]
  simp [alone]

theorem storeAndWake_path {g : Globals} {p : Pid} {pt : Point} {m : MboxId} {msg : Message} {k : Cont}
    (at_ : StorePoint g pt m msg k) : Path g p pt (storeAndWake g m msg k) := by
  unfold storeAndWake
  split
  · exact .storeFaults at_
  rename_i free
  split
  · exact .storeFaults at_
  rename_i allocated
  split
  · exact .storeFaults at_
  rename_i capacity
  have storable : Storable g m :=
    ⟨Nat.pos_of_ne_zero free, by simpa using allocated, Nat.pos_of_ne_zero capacity⟩
  simp only [Globals.storeMessage_mailboxes]
  split
  · rename_i set
    have pointed : (g.mailboxes m).consumers ≠ none := Option.isSome_iff_ne_none.mp set
    unfold wakeupConsumer
    split
    · rename_i recorded
      exact .stores at_ storable (.inr recorded)
    · rename_i recorded
      exact .storesAndWakes at_ storable pointed recorded
  · rename_i null
    exact .stores at_ storable (.inl (by simpa using null))

theorem takeAndWake_path {g g₀ : Globals} {p : Pid} {pt : Point} {m : MboxId} {buffer : Buffer}
    {k : Result → Cont} (at_ : TakePoint g pt g₀ m buffer k) : Path g p pt (takeAndWake g₀ m buffer k) := by
  have rings : g₀.mailboxSlotQueues = g.mailboxSlotQueues := by cases at_ <;> rfl
  have slots : g₀.mailSlots = g.mailSlots := by cases at_ <;> rfl
  have waiting : g₀.blockedProducers = g.blockedProducers := by cases at_ <;> rfl
  unfold takeAndWake
  simp only
  split
  · exact .takeFaults at_
  rename_i cells atCells
  rw [rings] at atCells
  have allocated : (g.mailboxSlotQueues m).queue ≠ none := by simp [atCells]
  have atHead : cells (g₀.mailboxSlotQueues m).head = g.headSlot m := by
    simp [rings, Globals.headSlot, SlotQueue.ring, atCells]
  rw [atHead, slots]
  split
  · exact .takeFaults at_
  split
  · rename_i small
    exact .takeRejects at_ allocated small
  rename_i fits
  split
  · exact .takeFaults at_
  unfold wakeupProducer
  simp only [Globals.freeSlot_blockedProducers, Globals.dequeueSlot_blockedProducers, waiting]
  split
  · rename_i none
    exact .takes at_ allocated (by simpa [Globals.received] using fits) none
  · rename_i recorded
    exact .takesAndWakes at_ allocated (by simpa [Globals.received] using fits) recorded

theorem releaseConsumers_path {g g₀ : Globals} {p : Pid} {pt : Point} {m : MboxId} {i : Nat}
    (at_ : ReleaseAt g pt g₀ m (.consumers i)) : Path g p pt (releaseConsumers g₀ m i) := by
  unfold releaseConsumers
  split
  · rename_i recorded
    exact .releaseWakesConsumer at_ recorded
  · rename_i past
    exact .releaseReturns (.consumersDone at_ (List.getElem?_eq_none_iff.mp past))

theorem releaseProducers_path {g g₀ : Globals} {p : Pid} {pt : Point} {m : MboxId} {i : Nat}
    (at_ : ReleaseAt g pt g₀ m (.producers i)) : Path g p pt (releaseProducers g₀ m i) := by
  unfold releaseProducers
  split
  · rename_i recorded
    exact .releaseWakesProducer at_ recorded
  rename_i past
  have done := ReleaseAt.producersDone at_ (List.getElem?_eq_none_iff.mp past)
  unfold releaseReceivers
  simp only [Globals.setBlockedProducers_mailboxes]
  split
  · rename_i zero
    rw [if_pos zero] at done
    exact releaseConsumers_path done
  rename_i slots
  rw [if_neg slots] at done
  split
  · rename_i entry pointed
    exact .releaseWakesPointer done pointed
  · rename_i null
    exact .releaseReturns (.pointerNull done null)

theorem mboxSendLoop_path {g : Globals} {p : Pid} {pt : Point} {m : MboxId} {msg : Message}
    (active : (g.mailboxes m).isActive = true)
    (blocks : (g.mailboxes m).numSlots ≠ 0 → (g.mailboxes m).numSlots ≤ (g.mailboxSlotQueues m).count →
      Path g p pt (recordSender g p m, .blocks (.sendFull m msg)))
    (stores : (g.mailboxSlotQueues m).count < (g.mailboxes m).numSlots ∨ (g.mailboxes m).numSlots = 0 →
      StorePoint g pt m msg (.sendStored m)) : Path g p pt (mboxSendLoop g p m msg) := by
  unfold mboxSendLoop
  split
  · rename_i full
    rw [if_neg (by simp [active])]
    exact blocks (by omega) full.1
  · rename_i room
    exact storeAndWake_path (stores (by omega))

theorem mboxCreate_path (g : Globals) (p : Pid) (numSlots slotSize : Int) (malloc : Bool) :
    Path g p (.start (.create numSlots slotSize malloc)) (mboxCreate g numSlots slotSize malloc) := by
  unfold mboxCreate
  split
  · refine .refused (fun admitted => ?_) (by omega)
    obtain ⟨h₁, h₂, h₃, h₄, _⟩ := admitted
    omega
  split
  · rename_i full
    exact .refused (fun admitted => admitted.2.2.2.2 full) (by omega)
  rename_i m found
  cases malloc with
  | true => exact .created found (by omega) (by omega)
  | false => exact .createFails found

theorem mboxRelease_path (g : Globals) (p : Pid) (id : Int) :
    Path g p (.start (.release id)) (mboxRelease g id) := by
  unfold mboxRelease
  split
  · rename_i absent
    exact .refused (fun admitted => admitted absent) (by omega)
  rename_i m found
  obtain ⟨rfl, active⟩ := Globals.activeMbox_eq_some.mp found
  exact releaseProducers_path (.start active)

theorem mboxSend_path (g : Globals) (p : Pid) (id : Int) (msg_ptr : Option Message) (msg_size : Int) :
    Path g p (.start (.send id msg_ptr msg_size)) (mboxSend g p id msg_ptr msg_size) := by
  unfold mboxSend
  split
  · rename_i absent
    exact .refused (fun ⟨m, found, _⟩ => by simp [absent] at found) (by omega)
  rename_i m found
  have unique : ∀ n, g.activeMbox id = some n → n = m := fun n other => by
    simpa [found] using other.symm
  split
  · rename_i bad
    refine .refused (fun ⟨n, other, accepted, _⟩ => ?_) (by omega)
    rw [unique n other, bad] at accepted
    cases accepted
  rename_i accepted
  have accepted : g.accepts m msg_ptr msg_size = true := by simpa using accepted
  split
  · rename_i zero
    obtain ⟨rfl, active⟩ := Globals.activeMbox_eq_some.mp found
    split
    · rename_i entry pointed
      exact .sendMatches active accepted zero pointed
    · rename_i null
      exact .sendZeroBlocks active accepted zero null
  rename_i slots
  split
  · rename_i empty
    refine .refused (fun ⟨n, other, _, usable⟩ => ?_) (by omega)
    rw [unique n other] at usable
    exact usable.elim slots (fun free => free empty)
  rename_i free
  obtain ⟨rfl, active⟩ := Globals.activeMbox_eq_some.mp found
  exact mboxSendLoop_path active (fun _ full => .sendFullBlocks active accepted slots free full)
    (fun room => .send active accepted slots free (by omega))

theorem mboxRecv_path (g : Globals) (p : Pid) (id : Int) (buffer : Buffer) :
    Path g p (.start (.recv id buffer)) (mboxRecv g p id buffer) := by
  unfold mboxRecv
  split
  · rename_i absent
    exact .refused (fun ⟨m, found, _⟩ => by simp [absent] at found) (by omega)
  rename_i m found
  split
  · rename_i negative
    exact .refused (fun ⟨_, _, size⟩ => by omega) (by omega)
  rename_i size
  obtain ⟨rfl, active⟩ := Globals.activeMbox_eq_some.mp found
  split
  · rename_i zero
    split
    · rename_i none
      exact .recvZeroBlocks active (by omega) zero none
    · rename_i recorded
      exact .recvMatches active (by omega) zero recorded
  rename_i slots
  split
  · rename_i empty
    exact .recvEmptyBlocks active (by omega) slots empty
  · rename_i occupied
    exact takeAndWake_path (.recv active (by omega) slots occupied)

theorem mboxCondSend_path (g : Globals) (p : Pid) (id : Int) (msg_ptr : Option Message) (msg_size : Int) :
    Path g p (.start (.condSend id msg_ptr msg_size)) (mboxCondSend g id msg_ptr msg_size) := by
  unfold mboxCondSend
  split
  · rename_i absent
    exact .refused (fun ⟨m, found, _⟩ => by simp [absent] at found) (by omega)
  rename_i m found
  have unique : ∀ n, g.activeMbox id = some n → n = m := fun n other => by
    simpa [found] using other.symm
  split
  · rename_i bad
    refine .refused (fun ⟨n, other, accepted, _⟩ => ?_) (by omega)
    rw [unique n other, bad] at accepted
    cases accepted
  rename_i accepted
  split
  · rename_i busy
    refine .refused (fun ⟨n, other, _, free, room⟩ => ?_) (by omega)
    rw [unique n other] at room
    omega
  rename_i room
  obtain ⟨rfl, active⟩ := Globals.activeMbox_eq_some.mp found
  exact storeAndWake_path (.condSend active (by simpa using accepted) (by omega) (by omega))

theorem mboxCondRecv_path (g : Globals) (p : Pid) (id : Int) (buffer : Buffer) :
    Path g p (.start (.condRecv id buffer)) (mboxCondRecv g id buffer) := by
  unfold mboxCondRecv
  split
  · rename_i absent
    exact .refused (fun ⟨m, found, _⟩ => by simp [absent] at found) (by omega)
  rename_i m found
  have unique : ∀ n, g.activeMbox id = some n → n = m := fun n other => by
    simpa [found] using other.symm
  split
  · rename_i negative
    exact .refused (fun ⟨_, _, size, _⟩ => by omega) (by omega)
  rename_i size
  split
  · rename_i empty
    refine .refused (fun ⟨n, other, _, occupied⟩ => ?_) (by omega)
    rw [unique n other] at occupied
    exact occupied empty
  rename_i occupied
  obtain ⟨rfl, active⟩ := Globals.activeMbox_eq_some.mp found
  exact takeAndWake_path (.condRecv active (by omega) occupied)

theorem Wait.resume_path (g : Globals) (p : Pid) (w : Wait) : Path g p (.afterBlock w) (w.resume g p) := by
  cases w with
  | sendZero m | recvZero m =>
    unfold Wait.resume
    simp only
    split
    · rename_i inactive
      exact .resumedInactive inactive
    · rename_i active
      exact .resumedZero (m := m) (by simp) (by simpa using active)
  | sendFull m msg =>
    unfold Wait.resume
    simp only
    split
    · rename_i inactive
      exact .resumedInactive inactive
    rename_i active
    have active : (g.mailboxes m).isActive = true := by simpa using active
    exact mboxSendLoop_path active (fun slots full => .resumedFullBlocks active slots full)
      (fun room => .resumed active room)
  | recvEmpty m buffer =>
    unfold Wait.resume
    simp only
    split
    · rename_i inactive
      exact .resumedInactive inactive
    rename_i active
    have active : (g.mailboxes m).isActive = true := by simpa using active
    split
    · rename_i empty
      exact .resumedEmpty active empty
    · rename_i occupied
      exact takeAndWake_path (.resumed active occupied)

theorem Cont.resume_path (g : Globals) (p : Pid) (k : Cont) : Path g p (.afterUnblock k) (k.resume g) := by
  cases k with
  | sendMatched m => exact .sendMatchedReturns
  | sendStored m | recvMatched m | condSendStored m => exact .sendStoredReturns (m := m) (by simp)
  | recvTaken m r | condRecvTaken m r => exact .recvTakenReturns (m := m) (by simp)
  | releaseProducers m i => exact releaseProducers_path .nextProducer
  | releaseConsumers m i => exact releaseConsumers_path .nextConsumer
  | releasePointer m => exact .releaseReturns .pointerWoken

/-- The code takes no other ways. -/
theorem Point.exec_path (g : Globals) (p : Pid) (pt : Point) : Path g p pt (pt.exec g p) := by
  cases pt with
  | start c =>
    cases c with
    | create numSlots slotSize malloc => exact mboxCreate_path g p numSlots slotSize malloc
    | release id => exact mboxRelease_path g p id
    | send id msg_ptr msg_size => exact mboxSend_path g p id msg_ptr msg_size
    | recv id buffer => exact mboxRecv_path g p id buffer
    | condSend id msg_ptr msg_size => exact mboxCondSend_path g p id msg_ptr msg_size
    | condRecv id buffer => exact mboxCondRecv_path g p id buffer
  | afterBlock w => exact w.resume_path g p
  | afterUnblock k => exact k.resume_path g p

namespace Sys

/-- The action runs some process on from this point. -/
def RunsFrom (s : Sys) (a : Act) (pt : Point) : Prop :=
  ∃ p, a = pt.act p ∧ (s.proc p).At pt

/-- The action stores a message in `m`. -/
def StoresInto (s : Sys) (a : Act) (m : MboxId) : Prop :=
  ∃ pt msg k, s.RunsFrom a pt ∧ StorePoint s.globals pt m msg k

/-- The action takes the oldest message of `m` for the given buffer. -/
def TakesFrom (s : Sys) (a : Act) (m : MboxId) (buffer : Buffer) : Prop :=
  ∃ pt g₀ k, s.RunsFrom a pt ∧ TakePoint s.globals pt g₀ m buffer k

/-- The action runs the end of a release of `m`, from `free` on. -/
def EndsRelease (s : Sys) (a : Act) (m : MboxId) : Prop :=
  ∃ pt g₀, s.RunsFrom a pt ∧ ReleaseAt s.globals pt g₀ m .rest

theorem RunsFrom.of_call {s : Sys} {p : Pid} {c : Call} {pt : Point} (runs : s.RunsFrom (.call p c) pt) :
    pt = .start c := by
  obtain ⟨q, same, _⟩ := runs
  cases pt <;> simp_all [Point.act]

theorem RunsFrom.of_resume {s : Sys} {p : Pid} {pt : Point} (runs : s.RunsFrom (.resume p) pt) :
    (∃ w, s.proc p = .woken w ∧ pt = .afterBlock w) ∨ ∃ k, s.proc p = .unblocking k ∧ pt = .afterUnblock k := by
  obtain ⟨q, same, here⟩ := runs
  generalize at_ : s.proc q = proc at here
  cases here with
  | start => cases same
  | afterBlock => cases same; exact .inl ⟨_, at_, rfl⟩
  | afterUnblock => cases same; exact .inr ⟨_, at_, rfl⟩

theorem StoresInto.of_call {s : Sys} {p : Pid} {c : Call} {m : MboxId} (stores : s.StoresInto (.call p c) m) :
    0 < s.globals.freeSlotCount ∧ (c.fn = .send (m : Nat) ∨ c.fn = .condSend (m : Nat)) := by
  obtain ⟨pt, msg, k, here, at_⟩ := stores
  obtain rfl := here.of_call
  cases at_ with
  | send _ _ _ free => exact ⟨Nat.pos_of_ne_zero free, .inl rfl⟩
  | condSend _ _ free => exact ⟨Nat.pos_of_ne_zero free, .inr rfl⟩

theorem TakesFrom.of_call {s : Sys} {p : Pid} {c : Call} {m : MboxId} {buffer : Buffer}
    (takes : s.TakesFrom (.call p c) m buffer) : c = .recv (m : Nat) buffer ∨ c = .condRecv (m : Nat) buffer := by
  obtain ⟨pt, g₀, k, here, at_⟩ := takes
  obtain rfl := here.of_call
  cases at_ with
  | recv => exact .inl rfl
  | condRecv => exact .inr rfl

theorem EndsRelease.of_call {s : Sys} {p : Pid} {c : Call} {m : MboxId} (ends : s.EndsRelease (.call p c) m) :
    c = .release (m : Nat) := by
  obtain ⟨pt, g₀, here, at_⟩ := ends
  obtain rfl := here.of_call
  generalize atStart : Point.start c = pt at at_
  generalize atRest : Stage.rest = stage at at_
  clear atRest
  induction at_ with
  | start => cases atStart; rfl
  | nextProducer | nextConsumer | pointerWoken => cases atStart
  | producersDone _ _ ih | consumersDone _ _ ih | pointerNull _ _ ih => exact ih atStart

end Sys

end UslossKernel
