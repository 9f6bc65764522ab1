import UslossKernel.Transfers

namespace UslossKernel

/-- What a stretch of code does to the number of messages in `m`, and whom it
wakes when it changes that. -/
theorem Path.ring {g : Globals} {p : Pid} {pt : Point} {seg : Segment} (path : Path g p pt seg)
    (lives : ∀ f, seg.2 ≠ .faults f) (m : MboxId) :
    (seg.1.mailboxSlotQueues m).count = (g.mailboxSlotQueues m).count ∨
    (∃ msg k, StorePoint g pt m msg k ∧
      (seg.1.mailboxSlotQueues m).count = (g.mailboxSlotQueues m).count + 1 ∧
      (((g.mailboxes m).consumers = none ∨ g.blockedConsumers m = []) ∨
        ∃ pid rest, (g.mailboxes m).consumers ≠ none ∧ g.blockedConsumers m = pid :: rest ∧
          seg.2 = .unblocks pid k)) ∨
    (∃ g₀ buffer k, TakePoint g pt g₀ m buffer k ∧
      (seg.1.mailboxSlotQueues m).count = (g.mailboxSlotQueues m).count - 1 ∧
      (buffer.msg_max_size < (g.received m).ret ∨ g.blockedProducers m = [] ∨
        ∃ pid rest, g.blockedProducers m = pid :: rest ∧ seg.2 = .unblocks pid (k (g.received m)))) ∨
    ((seg.1.mailboxSlotQueues m).count = 0 ∧
      (g.firstInactive = some m ∨ ∃ g₀, ReleaseAt g pt g₀ m .rest)) := by
  have untouched : ∀ {g'}, g.SameMail g' → (g'.mailboxSlotQueues m).count = (g.mailboxSlotQueues m).count :=
    fun same => by rw [same.rings]
  have released : ∀ {g₀ n stage}, ReleaseAt g pt g₀ n stage → g₀.mailboxSlotQueues = g.mailboxSlotQueues := by
    intro g₀ n stage at_
    rcases at_.sameMail with ⟨_, _, same⟩ | ⟨_, same⟩
    · exact same.rings
    · exact same.rings
  cases path with
  | refused | sendMatches | resumedInactive | resumedZero | sendStoredReturns | recvTakenReturns =>
    exact .inl rfl
  | @created n _ _ found =>
    simp only [returnCode, Globals.createMailbox_mailboxSlotQueues]
    by_cases here : m = n
    · subst here
      rw [Function.update_self]
      exact .inr (.inr (.inr ⟨rfl, .inl found⟩))
    · rw [Function.update_of_ne here]
      exact .inl rfl
  | @createFails n _ _ found =>
    simp only [returnCode, Globals.loseMailbox_mailboxSlotQueues, Function.update_apply]
    split
    · rename_i here
      rw [here]
      exact .inl rfl
    · exact .inl rfl
  | sendZeroBlocks => exact .inl (untouched (Globals.awaitReceiver_sameMail ..))
  | sendFullBlocks | resumedFullBlocks => exact .inl (untouched (Globals.recordSender_sameMail ..))
  | storeFaults | takeFaults => exact absurd rfl (lives _)
  | @stores _ n msg k at_ _ unwoken =>
    simp only [returnCode, Globals.storeMessage_mailboxSlotQueues]
    by_cases here : m = n
    · subst here
      rw [Function.update_self]
      exact .inr (.inl ⟨msg, k, at_, rfl, .inl unwoken⟩)
    · rw [Function.update_of_ne here]
      exact .inl rfl
  | @storesAndWakes _ n msg k pid rest at_ _ pointed recorded =>
    simp only [Globals.setBlockedConsumers_mailboxSlotQueues, Globals.storeMessage_mailboxSlotQueues]
    by_cases here : m = n
    · subst here
      rw [Function.update_self]
      exact .inr (.inl ⟨msg, k, at_, rfl, .inr ⟨pid, rest, pointed, recorded, rfl⟩⟩)
    · rw [Function.update_of_ne here]
      exact .inl rfl
  | recvMatches => exact .inl (untouched (Globals.setBlockedProducers_sameMail ..))
  | recvZeroBlocks | recvEmptyBlocks => exact .inl (untouched (Globals.awaitMessage_sameMail ..))
  | resumedEmpty | sendMatchedReturns => exact .inl (untouched (Globals.clearConsumers_sameMail ..))
  | @takeRejects _ g₀ n buffer k at_ _ small =>
    simp only [returnCode, Globals.dequeueSlot_mailboxSlotQueues, at_.sameMail.rings]
    by_cases here : m = n
    · subst here
      rw [Function.update_self]
      exact .inr (.inr (.inl ⟨g₀, buffer, k, at_, rfl, .inl small⟩))
    · rw [Function.update_of_ne here]
      exact .inl rfl
  | @takes _ g₀ n buffer k at_ _ _ none =>
    simp only [Globals.freeSlot_mailboxSlotQueues, Globals.dequeueSlot_mailboxSlotQueues, at_.sameMail.rings]
    by_cases here : m = n
    · subst here
      rw [Function.update_self]
      exact .inr (.inr (.inl ⟨g₀, buffer, k, at_, rfl, .inr (.inl none)⟩))
    · rw [Function.update_of_ne here]
      exact .inl rfl
  | @takesAndWakes _ g₀ n buffer k pid rest at_ _ _ recorded =>
    simp only [Globals.setBlockedProducers_mailboxSlotQueues, Globals.freeSlot_mailboxSlotQueues,
      Globals.dequeueSlot_mailboxSlotQueues, at_.sameMail.rings]
    by_cases here : m = n
    · subst here
      rw [Function.update_self]
      exact .inr (.inr (.inl ⟨g₀, buffer, k, at_, rfl, .inr (.inr ⟨pid, rest, recorded, rfl⟩)⟩))
    · rw [Function.update_of_ne here]
      exact .inl rfl
  | releaseWakesProducer at_ | releaseWakesConsumer at_ | releaseWakesPointer at_ =>
    exact .inl (by rw [released at_])
  | @releaseReturns _ g₀ n at_ =>
    simp only [returnCode, Globals.freeQueue_mailboxSlotQueues, released at_]
    by_cases here : m = n
    · subst here
      rw [Function.update_self]
      exact .inr (.inr (.inr ⟨rfl, .inr ⟨_, at_⟩⟩))
    · rw [Function.update_of_ne here]
      exact .inl rfl

end UslossKernel
