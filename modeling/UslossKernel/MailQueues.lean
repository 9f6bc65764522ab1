import UslossKernel.Messages

namespace UslossKernel

namespace Globals

/-- The messages in the ring of `m`, oldest first, as their receivers get them. -/
def queued (g : Globals) (m : MboxId) : List Result :=
  (g.mailboxSlotQueues m).window.map fun i => ⟨(g.mailSlots i).messageLength, (g.mailSlots i).contents⟩

/-- Nothing about the mailbox `m` differs. -/
structure SameBox (m : MboxId) (g g' : Globals) : Prop where
  mbox : g'.mailboxes m = g.mailboxes m
  ring : g'.mailboxSlotQueues m = g.mailboxSlotQueues m
  producers : g'.blockedProducers m = g.blockedProducers m
  consumers : g'.blockedConsumers m = g.blockedConsumers m
  queued : g'.queued m = g.queued m

variable {g g' g₁ g₂ g₃ : Globals} {m n : MboxId}

theorem SameBox.refl (m : MboxId) (g : Globals) : SameBox m g g :=
  ⟨rfl, rfl, rfl, rfl, rfl⟩

theorem SameBox.trans (first : SameBox m g₁ g₂) (second : SameBox m g₂ g₃) : SameBox m g₁ g₃ where
  mbox := second.mbox.trans first.mbox
  ring := second.ring.trans first.ring
  producers := second.producers.trans first.producers
  consumers := second.consumers.trans first.consumers
  queued := second.queued.trans first.queued

theorem queued_length (sound : g.Sound) (active : (g.mailboxes m).isActive = true) :
    (g.queued m).length = (g.mailboxSlotQueues m).count := by
  rw [queued, List.length_map, sound.window_length active]

/-- The queue is read from the ring and from the slots in it. -/
theorem queued_congr (ring : (g'.mailboxSlotQueues m).window = (g.mailboxSlotQueues m).window)
    (slots : ∀ i ∈ (g.mailboxSlotQueues m).window, (g'.mailSlots i).messageLength = (g.mailSlots i).messageLength ∧
      (g'.mailSlots i).message = (g.mailSlots i).message) : g'.queued m = g.queued m := by
  unfold queued
  rw [ring]
  refine List.map_congr_left fun i member => ?_
  obtain ⟨length, message⟩ := slots i member
  rw [MailSlot.contents, MailSlot.contents, length, message]

theorem SameMail.queued_eq (same : g.SameMail g') (m : MboxId) : g'.queued m = g.queued m :=
  queued_congr (by rw [same.rings]) fun i _ => by rw [same.slots]; exact ⟨rfl, rfl⟩

theorem stored_elsewhere (sound : g.Sound) (storable : Storable g n) (msg : Message) (i : Nat)
    (member : i ∈ (g.mailboxSlotQueues m).window) : (g.storeMessage n msg).mailSlots i = g.mailSlots i := by
  rw [storeMessage_mailSlots, Function.update_of_ne]
  rintro rfl
  exact sound.top_not_mem storable.free m member

theorem queued_storeMessage (sound : g.Sound) (storable : Storable g m)
    (room : (g.mailboxSlotQueues m).count < (g.mailboxSlotQueues m).capacity) (msg : Message) :
    (g.storeMessage m msg).queued m = g.queued m ++ [⟨msg.length, msg⟩] := by
  have window : ((g.storeMessage m msg).mailboxSlotQueues m).window =
      (g.mailboxSlotQueues m).window ++ [g.freeSlotQueue (g.freeSlotCount - 1)] := by
    rw [storeMessage_mailboxSlotQueues, Function.update_self]
    exact SlotQueue.window_enqueue (sound.rings m) storable.allocated room _
  unfold queued
  rw [window, List.map_append]
  congr 1
  · exact List.map_congr_left fun i member => by rw [stored_elsewhere sound storable msg i member]
  · obtain ⟨length, contents⟩ := MailSlot.holds_stored
      (g.mailSlots (g.freeSlotQueue (g.freeSlotCount - 1))) (m : Nat) msg
    rw [List.map_singleton, storeMessage_mailSlots, Function.update_self]
    exact congrArg (fun bytes => [Result.mk msg.length bytes]) contents

theorem storeMessage_sameBox (sound : g.Sound) (storable : Storable g n) (away : m ≠ n) (msg : Message) :
    SameBox m g (g.storeMessage n msg) where
  mbox := rfl
  ring := by simp [away]
  producers := rfl
  consumers := rfl
  queued := queued_congr (by simp [away]) fun i member => by
    rw [stored_elsewhere sound storable msg i member]
    exact ⟨rfl, rfl⟩

theorem queued_freeSlot (g : Globals) (slotIndex : Nat) (m : MboxId) :
    (g.freeSlot slotIndex).queued m = g.queued m := by
  refine queued_congr rfl fun i _ => ?_
  rw [freeSlot_mailSlots, Function.update_apply]
  split
  · rename_i here
    rw [here]
    exact ⟨rfl, rfl⟩
  · exact ⟨rfl, rfl⟩

theorem queued_dequeueSlot (sound : g.Sound) (allocated : (g.mailboxSlotQueues m).queue ≠ none)
    (occupied : 0 < (g.mailboxSlotQueues m).count) (delivery : Delivery) :
    g.queued m = g.received m :: (g.dequeueSlot m delivery).queued m := by
  have window : (g.mailboxSlotQueues m).window = g.headSlot m :: (g.mailboxSlotQueues m).dequeue.window :=
    SlotQueue.window_dequeue (sound.rings m) allocated occupied
  unfold queued
  rw [window, dequeueSlot_mailboxSlotQueues, Function.update_self]
  rfl

theorem dequeueSlot_sameBox (away : m ≠ n) (delivery : Delivery) : SameBox m g (g.dequeueSlot n delivery) where
  mbox := rfl
  ring := by simp [away]
  producers := rfl
  consumers := rfl
  queued := queued_congr (by simp [away]) fun _ _ => ⟨rfl, rfl⟩

theorem freeSlot_sameBox (slotIndex : Nat) : SameBox m g (g.freeSlot slotIndex) :=
  ⟨rfl, rfl, rfl, rfl, queued_freeSlot g slotIndex m⟩

theorem setBlockedProducers_sameBox (away : m ≠ n) (waiting : List Pid) :
    SameBox m g (g.setBlockedProducers n waiting) :=
  ⟨rfl, rfl, by simp [away], rfl, rfl⟩

theorem setBlockedConsumers_sameBox (away : m ≠ n) (waiting : List Pid) :
    SameBox m g (g.setBlockedConsumers n waiting) :=
  ⟨rfl, rfl, rfl, by simp [away], rfl⟩

theorem clearConsumers_sameBox (away : m ≠ n) : SameBox m g (g.clearConsumers n) :=
  ⟨by simp [away], rfl, rfl, rfl, rfl⟩

theorem deactivate_sameBox (away : m ≠ n) : SameBox m g (g.deactivate n) :=
  ⟨by simp [away], rfl, rfl, rfl, rfl⟩

theorem pointConsumers_sameBox (away : m ≠ n) (p : Pid) : SameBox m g (g.pointConsumers n p) :=
  ⟨by simp [away], rfl, rfl, rfl, rfl⟩

theorem pointProducers_sameBox (away : m ≠ n) (p : Pid) : SameBox m g (g.pointProducers n p) :=
  ⟨by simp [away], rfl, rfl, rfl, rfl⟩

theorem awaitMessage_sameBox (away : m ≠ n) (p : Pid) : SameBox m g (awaitMessage g p n) :=
  (setBlockedConsumers_sameBox away _).trans (pointConsumers_sameBox away p)

theorem awaitReceiver_sameBox (away : m ≠ n) (p : Pid) : SameBox m g (awaitReceiver g p n) :=
  (setBlockedProducers_sameBox away _).trans (pointProducers_sameBox away p)

theorem recordSender_sameBox (away : m ≠ n) (p : Pid) : SameBox m g (recordSender g p n) := by
  unfold recordSender
  split
  · exact .refl m g
  · exact setBlockedProducers_sameBox away _

theorem createMailbox_sameBox (away : m ≠ n) (numSlots slotSize : Nat) :
    SameBox m g (g.createMailbox n numSlots slotSize) :=
  ⟨by simp [away], by simp [away], rfl, rfl, queued_congr (by simp [away]) fun _ _ => ⟨rfl, rfl⟩⟩

theorem loseMailbox_sameBox (away : m ≠ n) (numSlots slotSize : Nat) :
    SameBox m g (g.loseMailbox n numSlots slotSize) :=
  ⟨by simp [away], by simp [away], rfl, rfl, queued_congr (by simp [away]) fun _ _ => ⟨rfl, rfl⟩⟩

theorem freeQueue_sameBox (away : m ≠ n) : SameBox m g (g.freeQueue n) :=
  ⟨rfl, by simp [away], rfl, rfl, queued_congr (by simp [away]) fun _ _ => ⟨rfl, rfl⟩⟩

end Globals

/-- The call was made with the id of `m`. -/
def Fn.addresses (m : MboxId) : Fn → Bool
  | .create => false
  | .release id | .send id | .recv id | .condSend id | .condRecv id => id = (m : Nat)

variable {g g₀ : Globals} {p : Pid} {pt : Point} {m n : MboxId} {seg : Segment}

theorem Fn.addresses_self {fn : Fn} (on : fn = .send (n : Nat) ∨ fn = .recv (n : Nat) ∨ fn = .condSend (n : Nat) ∨
    fn = .condRecv (n : Nat) ∨ fn = .release (n : Nat)) (away : fn.addresses m = false) : m ≠ n := by
  rintro rfl
  rcases on with rfl | rfl | rfl | rfl | rfl <;> simp [addresses] at away

theorem StorePoint.away {msg : Message} {k : Cont} (at_ : StorePoint g pt n msg k)
    (away : pt.fn.addresses m = false) : m ≠ n := by
  rcases at_.fn with fn | fn
  · exact Fn.addresses_self (.inl fn) away
  · exact Fn.addresses_self (.inr (.inr (.inl fn))) away

theorem Wait.addressed {w : Wait} (on : w.fn.addresses m = true) : w.mbox = m := by
  cases w <;> exact Fin.ext (by simpa [Wait.fn, Fn.addresses, Wait.mbox] using on)

theorem StorePoint.addressed {msg : Message} {k : Cont} (at_ : StorePoint g pt n msg k)
    (on : pt.fn.addresses m = true) : n = m := by
  rcases at_.fn with fn | fn <;> rw [fn] at on <;> exact Fin.ext (by simpa [Fn.addresses] using on)

theorem TakePoint.addressed {buffer : Buffer} {k : Result → Cont} (at_ : TakePoint g pt g₀ n buffer k)
    (on : pt.fn.addresses m = true) : n = m := by
  rcases at_.fn with fn | fn <;> rw [fn] at on <;> exact Fin.ext (by simpa [Fn.addresses] using on)

theorem TakePoint.tables {buffer : Buffer} {k : Result → Cont} (at_ : TakePoint g pt g₀ m buffer k) :
    g₀ = g ∨ g₀ = g.clearConsumers m := by
  cases at_ with
  | recv | condRecv => exact .inl rfl
  | resumed => exact .inr rfl

theorem TakePoint.of_recv {buffer b : Buffer} {k : Result → Cont} {id : Int} (at_ : TakePoint g pt g₀ n buffer k)
    (starts : pt = .start (.recv id b)) : buffer = b ∧ k = .recvTaken n := by
  cases at_ with
  | recv =>
    cases starts
    exact ⟨rfl, rfl⟩
  | resumed | condRecv => cases starts

/-- Taking a message removes the oldest one. -/
theorem TakePoint.queued {buffer : Buffer} {k : Result → Cont} (at_ : TakePoint g pt g₀ m buffer k) (sound : g.Sound)
    (allocated : (g.mailboxSlotQueues m).queue ≠ none) (delivery : Delivery) :
    g.queued m = g.received m :: (g₀.dequeueSlot m delivery).queued m := by
  have before := Globals.queued_dequeueSlot sound allocated at_.occupied delivery
  rw [before]
  congr 1
  exact ((at_.sameMail.dequeueSlot m delivery).queued_eq m).symm

theorem TakePoint.away {buffer : Buffer} {k : Result → Cont} (at_ : TakePoint g pt g₀ n buffer k)
    (away : pt.fn.addresses m = false) : m ≠ n := by
  rcases at_.fn with fn | fn
  · exact Fn.addresses_self (.inr (.inl fn)) away
  · exact Fn.addresses_self (.inr (.inr (.inr (.inl fn)))) away

theorem TakePoint.sameBox {buffer : Buffer} {k : Result → Cont} (at_ : TakePoint g pt g₀ n buffer k)
    (away : pt.fn.addresses m = false) : g.SameBox m g₀ := by
  have apart := at_.away away
  cases at_ with
  | recv | condRecv => exact .refl m g
  | resumed => exact Globals.clearConsumers_sameBox apart

theorem ReleaseAt.fn {stage : Stage} (at_ : ReleaseAt g pt g₀ n stage) : pt.fn = .release (n : Nat) := by
  rcases at_.sameMail with ⟨rfl, _⟩ | ⟨⟨k, releases, rfl⟩, _⟩
  · rfl
  · cases k <;> simp_all [Cont.releases, Point.fn, Cont.fn]

theorem ReleaseAt.sameBox {stage : Stage} (at_ : ReleaseAt g pt g₀ n stage) (away : m ≠ n) : g.SameBox m g₀ := by
  induction at_ with
  | start => exact Globals.deactivate_sameBox away
  | nextProducer | nextConsumer => exact .refl m g
  | pointerWoken => exact Globals.clearConsumers_sameBox away
  | producersDone _ _ ih => exact (ih away).trans (Globals.setBlockedProducers_sameBox away _)
  | consumersDone _ _ ih => exact (ih away).trans (Globals.setBlockedConsumers_sameBox away _)
  | pointerNull _ _ ih => exact ih away

/-- The frame rule of the mailboxes: a stretch of code of a call that was not
made with its id leaves an active mailbox alone. -/
theorem Path.sameBox (path : Path g p pt seg) (sound : g.Sound) (active : (g.mailboxes m).isActive = true)
    (away : pt.fn.addresses m = false) : g.SameBox m seg.1 := by
  have found_away : ∀ n, g.firstInactive = some n → m ≠ n := by
    rintro n found rfl
    exact absurd (active.symm.trans (Globals.firstInactive_spec found)) (by simp)
  cases path with
  | refused | storeFaults | sendMatches | resumedInactive | resumedZero | sendStoredReturns | recvTakenReturns =>
    exact .refl m g
  | created found => exact Globals.createMailbox_sameBox (found_away _ found) _ _
  | createFails found => exact Globals.loseMailbox_sameBox (found_away _ found) _ _
  | sendZeroBlocks => exact Globals.awaitReceiver_sameBox (Fn.addresses_self (.inl rfl) away) p
  | sendFullBlocks | resumedFullBlocks => exact Globals.recordSender_sameBox (Fn.addresses_self (.inl rfl) away) p
  | stores at_ storable => exact Globals.storeMessage_sameBox sound storable (at_.away away) _
  | storesAndWakes at_ storable =>
    exact (Globals.storeMessage_sameBox sound storable (at_.away away) _).trans
      (Globals.setBlockedConsumers_sameBox (at_.away away) _)
  | recvMatches => exact Globals.setBlockedProducers_sameBox (Fn.addresses_self (.inr (.inl rfl)) away) _
  | recvZeroBlocks | recvEmptyBlocks =>
    exact Globals.awaitMessage_sameBox (Fn.addresses_self (.inr (.inl rfl)) away) p
  | resumedEmpty => exact Globals.clearConsumers_sameBox (Fn.addresses_self (.inr (.inl rfl)) away)
  | takeFaults at_ => exact at_.sameBox away
  | takeRejects at_ => exact (at_.sameBox away).trans (Globals.dequeueSlot_sameBox (at_.away away) _)
  | takes at_ =>
    exact ((at_.sameBox away).trans (Globals.dequeueSlot_sameBox (at_.away away) _)).trans
      (Globals.freeSlot_sameBox _)
  | takesAndWakes at_ =>
    exact (((at_.sameBox away).trans (Globals.dequeueSlot_sameBox (at_.away away) _)).trans
      (Globals.freeSlot_sameBox _)).trans (Globals.setBlockedProducers_sameBox (at_.away away) _)
  | sendMatchedReturns => exact Globals.clearConsumers_sameBox (Fn.addresses_self (.inl rfl) away)
  | releaseWakesProducer at_ | releaseWakesConsumer at_ | releaseWakesPointer at_ =>
    exact at_.sameBox (Fn.addresses_self (.inr (.inr (.inr (.inr at_.fn)))) away)
  | releaseReturns at_ =>
    have apart := Fn.addresses_self (.inr (.inr (.inr (.inr at_.fn)))) away
    exact (at_.sameBox apart).trans (Globals.freeQueue_sameBox apart)

end UslossKernel
