import UslossKernel.Segments

namespace UslossKernel

/-- The two states agree on everything a message passes through. -/
structure Globals.SameMail (g g' : Globals) : Prop where
  rings : g'.mailboxSlotQueues = g.mailboxSlotQueues
  slots : g'.mailSlots = g.mailSlots
  freeQueue : g'.freeSlotQueue = g.freeSlotQueue
  freeCount : g'.freeSlotCount = g.freeSlotCount
  stored : g'.stored = g.stored
  taken : g'.taken = g.taken
  active : ∀ m, (g'.mailboxes m).isActive = (g.mailboxes m).isActive
  numSlots : ∀ m, (g'.mailboxes m).numSlots = (g.mailboxes m).numSlots

namespace Globals

theorem SameMail.refl (g : Globals) : g.SameMail g :=
  ⟨rfl, rfl, rfl, rfl, rfl, rfl, fun _ => rfl, fun _ => rfl⟩

theorem SameMail.trans {g₁ g₂ g₃ : Globals} (first : g₁.SameMail g₂) (second : g₂.SameMail g₃) :
    g₁.SameMail g₃ where
  rings := second.rings.trans first.rings
  slots := second.slots.trans first.slots
  freeQueue := second.freeQueue.trans first.freeQueue
  freeCount := second.freeCount.trans first.freeCount
  stored := second.stored.trans first.stored
  taken := second.taken.trans first.taken
  active m := (second.active m).trans (first.active m)
  numSlots m := (second.numSlots m).trans (first.numSlots m)

theorem setBlockedProducers_sameMail (g : Globals) (m : MboxId) (waiting : List Pid) :
    g.SameMail (g.setBlockedProducers m waiting) :=
  ⟨rfl, rfl, rfl, rfl, rfl, rfl, fun _ => rfl, fun _ => rfl⟩

theorem setBlockedConsumers_sameMail (g : Globals) (m : MboxId) (waiting : List Pid) :
    g.SameMail (g.setBlockedConsumers m waiting) :=
  ⟨rfl, rfl, rfl, rfl, rfl, rfl, fun _ => rfl, fun _ => rfl⟩

/-- Only the pointers of the mailbox entry change. -/
theorem sameMail_of_pointers {g g' : Globals} {m : MboxId} {mbox : Mbox}
    (mailboxes : g'.mailboxes = Function.update g.mailboxes m mbox)
    (active : mbox.isActive = (g.mailboxes m).isActive) (numSlots : mbox.numSlots = (g.mailboxes m).numSlots)
    (rings : g'.mailboxSlotQueues = g.mailboxSlotQueues) (slots : g'.mailSlots = g.mailSlots)
    (freeQueue : g'.freeSlotQueue = g.freeSlotQueue) (freeCount : g'.freeSlotCount = g.freeSlotCount)
    (stored : g'.stored = g.stored) (taken : g'.taken = g.taken) : g.SameMail g' := by
  refine ⟨rings, slots, freeQueue, freeCount, stored, taken, fun n => ?_, fun n => ?_⟩ <;>
    rw [mailboxes] <;> by_cases here : n = m
  · subst here; rw [Function.update_self, active]
  · rw [Function.update_of_ne here]
  · subst here; rw [Function.update_self, numSlots]
  · rw [Function.update_of_ne here]

theorem clearConsumers_sameMail (g : Globals) (m : MboxId) : g.SameMail (g.clearConsumers m) :=
  sameMail_of_pointers (clearConsumers_mailboxes g m) rfl rfl rfl rfl rfl rfl rfl rfl

theorem awaitMessage_sameMail (g : Globals) (p : Pid) (m : MboxId) : g.SameMail (awaitMessage g p m) :=
  sameMail_of_pointers (pointConsumers_mailboxes _ m p) rfl rfl rfl rfl rfl rfl rfl rfl

theorem awaitReceiver_sameMail (g : Globals) (p : Pid) (m : MboxId) : g.SameMail (awaitReceiver g p m) :=
  sameMail_of_pointers (pointProducers_mailboxes _ m p) rfl rfl rfl rfl rfl rfl rfl rfl

theorem recordSender_sameMail (g : Globals) (p : Pid) (m : MboxId) : g.SameMail (recordSender g p m) := by
  unfold recordSender
  split
  · exact .refl g
  · exact setBlockedProducers_sameMail ..

end Globals

/-- What a stretch of code does to the messages and the status of the mailboxes. -/
inductive Transfer (g : Globals) : Point → Globals → Prop
  | keeps {pt g'} : g.SameMail g' → Transfer g pt g'
  | creates {pt g' m} {numSlots slotSize : Nat} : g.firstInactive = some m → numSlots ≤ maxSlots →
      (g.createMailbox m numSlots slotSize).SameMail g' → Transfer g pt g'
  | createFails {pt g' m} {numSlots slotSize : Nat} : g.firstInactive = some m →
      (g.loseMailbox m numSlots slotSize).SameMail g' → Transfer g pt g'
  | stores {pt g' m msg k} : StorePoint g pt m msg k → Storable g m → (g.storeMessage m msg).SameMail g' →
      Transfer g pt g'
  | rejects {pt g₀ g' m buffer k} : TakePoint g pt g₀ m buffer k → (g.mailboxSlotQueues m).queue ≠ none →
      buffer.msg_max_size < (g.received m).ret →
      (g.dequeueSlot m ⟨buffer.msg_max_size, -1, []⟩).SameMail g' → Transfer g pt g'
  | takes {pt g₀ g' m buffer k} : TakePoint g pt g₀ m buffer k → (g.mailboxSlotQueues m).queue ≠ none →
      (g.received m).ret ≤ buffer.msg_max_size →
      ((g.dequeueSlot m ⟨buffer.msg_max_size, g.received m⟩).freeSlot (g.headSlot m)).SameMail g' →
      Transfer g pt g'
  | deactivates {g' m} : (g.mailboxes m).isActive = true → (g.deactivate m).SameMail g' →
      Transfer g (.start (.release (m : Nat))) g'
  | frees {pt g₀ g' m} : ReleaseAt g pt g₀ m .rest → (g.freeQueue m).SameMail g' → Transfer g pt g'
  | releases {g₀ g' m} : (g.mailboxes m).isActive = true → ReleaseAt g (.start (.release (m : Nat))) g₀ m .rest →
      ((g.deactivate m).freeQueue m).SameMail g' → Transfer g (.start (.release (m : Nat))) g'

/-- Up to the point a release has come to, only the status of the mailbox can
have changed, and only if the release begins here. -/
theorem ReleaseAt.sameMail {g g₀ : Globals} {pt : Point} {m : MboxId} {stage : Stage}
    (at_ : ReleaseAt g pt g₀ m stage) :
    (pt = .start (.release (m : Nat)) ∧ (g.mailboxes m).isActive = true ∧ (g.deactivate m).SameMail g₀) ∨
      ((∃ k, k.releases m = true ∧ pt = .afterUnblock k) ∧ g.SameMail g₀) := by
  induction at_ with
  | start active => exact .inl ⟨rfl, active, .refl _⟩
  | nextProducer => exact .inr ⟨⟨_, by simp [Cont.releases], rfl⟩, .refl _⟩
  | nextConsumer => exact .inr ⟨⟨_, by simp [Cont.releases], rfl⟩, .refl _⟩
  | pointerWoken => exact .inr ⟨⟨_, by simp [Cont.releases], rfl⟩, Globals.clearConsumers_sameMail ..⟩
  | producersDone _ _ ih =>
    exact ih.imp (fun ⟨h₁, h₂, same⟩ => ⟨h₁, h₂, same.trans (Globals.setBlockedProducers_sameMail ..)⟩)
      (fun ⟨h, same⟩ => ⟨h, same.trans (Globals.setBlockedProducers_sameMail ..)⟩)
  | consumersDone _ _ ih =>
    exact ih.imp (fun ⟨h₁, h₂, same⟩ => ⟨h₁, h₂, same.trans (Globals.setBlockedConsumers_sameMail ..)⟩)
      (fun ⟨h, same⟩ => ⟨h, same.trans (Globals.setBlockedConsumers_sameMail ..)⟩)
  | pointerNull _ _ ih => exact ih

/-- A release never waits. -/
theorem ReleaseAt.not_afterBlock {g g₀ : Globals} {w : Wait} {m : MboxId} {stage : Stage} :
    ¬ ReleaseAt g (.afterBlock w) g₀ m stage := by
  intro at_
  rcases at_.sameMail with ⟨start, _⟩ | ⟨⟨_, _, back⟩, _⟩
  · cases start
  · cases back

theorem TakePoint.sameMail {g g₀ : Globals} {pt : Point} {m : MboxId} {buffer : Buffer} {k : Result → Cont}
    (at_ : TakePoint g pt g₀ m buffer k) : g.SameMail g₀ := by
  cases at_ with
  | recv | condRecv => exact .refl g
  | resumed => exact Globals.clearConsumers_sameMail ..

namespace Globals

theorem SameMail.dequeueSlot {g g' : Globals} (same : g.SameMail g') (m : MboxId) (delivery : Delivery) :
    (g.dequeueSlot m delivery).SameMail (g'.dequeueSlot m delivery) where
  rings := by simp only [dequeueSlot_mailboxSlotQueues, same.rings]
  slots := same.slots
  freeQueue := same.freeQueue
  freeCount := same.freeCount
  stored := same.stored
  taken := by simp only [dequeueSlot_taken, same.taken]
  active := same.active
  numSlots := same.numSlots

theorem SameMail.freeSlot {g g' : Globals} (same : g.SameMail g') (slotIndex : Nat) :
    (g.freeSlot slotIndex).SameMail (g'.freeSlot slotIndex) where
  rings := same.rings
  slots := by simp only [freeSlot_mailSlots, same.slots]
  freeQueue := by simp only [freeSlot_freeSlotQueue, same.freeQueue, same.freeCount]
  freeCount := by simp only [freeSlot_freeSlotCount, same.freeCount]
  stored := same.stored
  taken := same.taken
  active := same.active
  numSlots := same.numSlots

theorem SameMail.freeQueue_congr {g g' : Globals} (same : g.SameMail g') (m : MboxId) :
    (g.freeQueue m).SameMail (g'.freeQueue m) where
  rings := by simp only [freeQueue_mailboxSlotQueues, same.rings]
  slots := same.slots
  freeQueue := same.freeQueue
  freeCount := same.freeCount
  stored := same.stored
  taken := same.taken
  active := same.active
  numSlots := same.numSlots

end Globals

theorem ReleaseAt.transfer {g g₀ : Globals} {pt : Point} {m : MboxId} {stage : Stage}
    (at_ : ReleaseAt g pt g₀ m stage) : Transfer g pt g₀ := by
  rcases at_.sameMail with ⟨rfl, active, same⟩ | ⟨_, same⟩
  · exact .deactivates active same
  · exact .keeps same

theorem Path.transfer {g : Globals} {p : Pid} {pt : Point} {seg : Segment} (path : Path g p pt seg) :
    Transfer g pt seg.1 := by
  cases path with
  | refused => exact .keeps (.refl g)
  | created found lower upper => exact .creates found (by omega) (.refl _)
  | createFails found => exact .createFails found (.refl _)
  | sendMatches => exact .keeps (.refl g)
  | sendZeroBlocks => exact .keeps (Globals.awaitReceiver_sameMail ..)
  | sendFullBlocks | resumedFullBlocks => exact .keeps (Globals.recordSender_sameMail ..)
  | storeFaults => exact .keeps (.refl g)
  | stores at_ storable => exact .stores at_ storable (.refl _)
  | storesAndWakes at_ storable => exact .stores at_ storable (Globals.setBlockedConsumers_sameMail ..)
  | recvMatches => exact .keeps (Globals.setBlockedProducers_sameMail ..)
  | recvZeroBlocks | recvEmptyBlocks => exact .keeps (Globals.awaitMessage_sameMail ..)
  | resumedEmpty => exact .keeps (Globals.clearConsumers_sameMail ..)
  | takeFaults at_ => exact .keeps at_.sameMail
  | takeRejects at_ allocated small => exact .rejects at_ allocated small (at_.sameMail.dequeueSlot _ _)
  | takes at_ allocated fits =>
    exact .takes at_ allocated fits ((at_.sameMail.dequeueSlot _ _).freeSlot _)
  | takesAndWakes at_ allocated fits =>
    exact .takes at_ allocated fits
      (((at_.sameMail.dequeueSlot _ _).freeSlot _).trans (Globals.setBlockedProducers_sameMail ..))
  | resumedInactive | resumedZero => exact .keeps (.refl g)
  | sendMatchedReturns => exact .keeps (Globals.clearConsumers_sameMail ..)
  | sendStoredReturns | recvTakenReturns => exact .keeps (.refl g)
  | releaseWakesProducer at_ | releaseWakesConsumer at_ | releaseWakesPointer at_ => exact at_.transfer
  | releaseReturns at_ =>
    rcases at_.sameMail with ⟨rfl, active, same⟩ | ⟨_, same⟩
    · exact .releases active at_ (same.freeQueue_congr _)
    · exact .frees at_ (same.freeQueue_congr _)

namespace Sys

/-- An undefined operation stops the system in the tables it was in. -/
theorem after_transfer {s : Sys} {p : Pid} {pt : Point} {seg : Segment} (path : Path s.globals p pt seg) :
    Transfer s.globals pt (s.after p pt seg).globals := by
  have transfer := path.transfer
  obtain ⟨g, outcome⟩ := seg
  unfold after
  cases outcome with
  | returns | blocks | unblocks => exact transfer
  | faults => exact .keeps (by rw [settle, enter_globals]; exact .refl _)

theorem step_transfer {s s' : Sys} {a : Act} (moves : s.step a = some s') :
    s'.globals = s.globals ∨ ∃ pt, s.RunsFrom a pt ∧ Transfer s.globals pt s'.globals := by
  cases step_move moves with
  | segment _ here => exact .inr ⟨_, ⟨_, rfl, here⟩, after_transfer (Point.exec_path ..)⟩
  | idle => exact .inl rfl

end Sys

end UslossKernel
