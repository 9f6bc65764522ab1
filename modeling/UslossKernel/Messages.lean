import UslossKernel.Lifetime

namespace UslossKernel

/-- The receiver got the message byte for byte, or -1 because its buffer is
too small. -/
def Delivery.Accounts (delivery : Delivery) (msg : Message) : Prop :=
  delivery.result = if delivery.maxSize < msg.length then ⟨-1, []⟩ else ⟨msg.length, msg⟩

/-- The slot holds exactly this message. -/
def MailSlot.Holds (slot : MailSlot) (msg : Message) : Prop :=
  slot.messageLength = msg.length ∧ slot.contents = msg

/-- What was stored in `m` so far is what was delivered, in order, followed
by what is in its slots. -/
structure Globals.Delivered (g : Globals) (m : MboxId) (delivered pending : List Message) : Prop where
  stored : g.stored m = delivered ++ pending
  taken : List.Forall₂ Delivery.Accounts (g.taken m) delivered
  held : List.Forall₂ (fun i msg => (g.mailSlots i).Holds msg) (g.mailboxSlotQueues m).window pending

structure Globals.MailIntact (g : Globals) (m : MboxId) : Prop where
  delivered : ∃ delivered pending, g.Delivered m delivered pending
  unused : (g.mailboxes m).isActive = false → g.stored m = []

theorem MailSlot.holds_stored (slot : MailSlot) (m : Nat) (msg : Message) :
    (MailSlot.mk m msg.length true (memcpy slot.message msg)).Holds msg := by
  simp [MailSlot.Holds, MailSlot.contents, memcpy]

namespace Globals

/-- A slot that is free is in no ring. -/
theorem Sound.top_not_mem {g : Globals} (sound : g.Sound) (free : 0 < g.freeSlotCount) (m : MboxId) :
    g.freeSlotQueue (g.freeSlotCount - 1) ∉ (g.mailboxSlotQueues m).window := by
  intro member
  have top : g.freeSlotQueue (g.freeSlotCount - 1) ∈ g.freeSlots := by
    rw [freeSlots, stackList.pop _ free]
    simp
  have nodup : g.heldSlots.Nodup := Multiset.nodup_of_le sound.held_le nodup_allSlots
  have once := Multiset.nodup_iff_count_le_one.mp nodup (g.freeSlotQueue (g.freeSlotCount - 1))
  rw [heldSlots, Multiset.count_add] at once
  have inFree := Multiset.count_pos.mpr (Multiset.mem_coe.mpr top)
  have inRing : 0 < (totalHoldings fun m => ((g.mailboxSlotQueues m).window : Multiset Nat)).count
      (g.freeSlotQueue (g.freeSlotCount - 1)) := by
    rw [totalHoldings.split _ m, Multiset.count_add]
    have here := Multiset.count_pos.mpr (Multiset.mem_coe.mpr member)
    omega
  omega

theorem MailIntact.empty {g : Globals} {m : MboxId} (intact : g.MailIntact m)
    (inactive : (g.mailboxes m).isActive = false) : g.taken m = [] ∧ (g.mailboxSlotQueues m).window = [] := by
  obtain ⟨delivered, pending, stored, taken, held⟩ := intact.delivered
  have nothing := stored.symm.trans (intact.unused inactive)
  obtain ⟨rfl, rfl⟩ := List.append_eq_nil_iff.mp nothing
  exact ⟨List.forall₂_nil_right_iff.mp taken, List.forall₂_nil_right_iff.mp held⟩

/-- Nothing about `m` changes. -/
theorem MailIntact.congr {g g' : Globals} {m : MboxId} (intact : g.MailIntact m)
    (stored : g'.stored m = g.stored m) (taken : g'.taken m = g.taken m)
    (window : (g'.mailboxSlotQueues m).window = (g.mailboxSlotQueues m).window)
    (slots : ∀ i ∈ (g.mailboxSlotQueues m).window, ∀ msg, (g.mailSlots i).Holds msg → (g'.mailSlots i).Holds msg)
    (active : (g'.mailboxes m).isActive = (g.mailboxes m).isActive) : g'.MailIntact m where
  delivered := by
    obtain ⟨delivered, pending, whole, accounts, held⟩ := intact.delivered
    refine ⟨delivered, pending, stored.trans whole, taken ▸ accounts, ?_⟩
    rw [window]
    exact List.forall₂_iff_get.mpr ⟨held.length_eq, fun i low high =>
      slots _ (List.get_mem ..) _ (held.get low high)⟩
  unused inactive := stored.trans (intact.unused (active.symm.trans inactive))

theorem SameMail.mailIntact {g g' : Globals} {m : MboxId} (same : g.SameMail g') (intact : g.MailIntact m) :
    g'.MailIntact m :=
  intact.congr (by rw [same.stored]) (by rw [same.taken]) (by rw [same.rings])
    (fun _ _ _ holds => by rwa [same.slots]) (same.active m)

theorem MailIntact.store {g : Globals} {m n : MboxId} (intact : g.MailIntact m) (sound : g.Sound)
    (storable : Storable g n) (room : (g.mailboxSlotQueues n).count < (g.mailboxSlotQueues n).capacity)
    (active : (g.mailboxes n).isActive = true) (msg : Message) : (g.storeMessage n msg).MailIntact m := by
  have elsewhere : ∀ i ∈ (g.mailboxSlotQueues m).window, (g.storeMessage n msg).mailSlots i = g.mailSlots i := by
    intro i member
    rw [storeMessage_mailSlots, Function.update_of_ne]
    rintro rfl
    exact sound.top_not_mem storable.free m member
  by_cases here : m = n
  · subst here
    obtain ⟨delivered, pending, stored, taken, held⟩ := intact.delivered
    refine ⟨⟨delivered, pending ++ [msg], ?_, taken, ?_⟩, ?_⟩
    · rw [storeMessage_stored, Function.update_self, stored, List.append_assoc]
    · rw [storeMessage_mailboxSlotQueues, Function.update_self,
        SlotQueue.window_enqueue (sound.rings m) storable.allocated room]
      refine List.rel_append ?_ (.cons ?_ .nil)
      · exact List.forall₂_iff_get.mpr ⟨held.length_eq, fun i low high => by
          rw [elsewhere _ (List.get_mem ..)]
          exact held.get low high⟩
      · rw [storeMessage_mailSlots, Function.update_self]
        exact MailSlot.holds_stored ..
    · intro inactive
      exact absurd (active.symm.trans inactive) (by simp)
  · exact intact.congr (by simp [here]) rfl (by simp [here])
      (fun i member msg holds => by rwa [elsewhere i member]) rfl

/-- A message leaves the ring of `n` with an account of it. -/
theorem MailIntact.dequeue {g : Globals} {m n : MboxId} (intact : g.MailIntact m) (sound : g.Sound)
    (allocated : (g.mailboxSlotQueues n).queue ≠ none) (occupied : 0 < (g.mailboxSlotQueues n).count)
    (active : (g.mailboxes n).isActive = true) {delivery : Delivery}
    (accounts : ∀ msg, (g.mailSlots (g.headSlot n)).Holds msg → delivery.Accounts msg) :
    (g.dequeueSlot n delivery).MailIntact m := by
  by_cases here : m = n
  · subst here
    obtain ⟨delivered, pending, stored, taken, held⟩ := intact.delivered
    have window : (g.mailboxSlotQueues m).window = g.headSlot m :: (g.mailboxSlotQueues m).dequeue.window :=
      SlotQueue.window_dequeue (sound.rings m) allocated occupied
    rw [window] at held
    cases held with
    | @cons _ msg _ pending first rest =>
      refine ⟨⟨delivered ++ [msg], pending, ?_, ?_, ?_⟩, ?_⟩
      · rw [dequeueSlot_stored, stored]
        simp
      · rw [dequeueSlot_taken, Function.update_self]
        exact List.rel_append taken (.cons (accounts msg first) .nil)
      · rw [dequeueSlot_mailboxSlotQueues, Function.update_self]
        exact rest
      · intro inactive
        exact absurd (active.symm.trans inactive) (by simp)
  · exact intact.congr rfl (by simp [here]) (by simp [here]) (fun _ _ _ holds => holds) rfl

theorem MailIntact.freeSlot {g : Globals} {m : MboxId} (intact : g.MailIntact m) (slotIndex : Nat) :
    (g.freeSlot slotIndex).MailIntact m := by
  refine intact.congr rfl rfl rfl (fun i _ msg holds => ?_) rfl
  rw [freeSlot_mailSlots, Function.update_apply]
  split
  · rename_i here
    subst here
    exact holds
  · exact holds

end Globals

theorem Transfer.mailIntact {g g' : Globals} {pt : Point} {m : MboxId} (transfer : Transfer g pt g')
    (sound : g.Sound) (intact : g.MailIntact m) (unreleased : pt ≠ .start (.release (m : Nat)))
    (unfreed : ∀ g₀, ¬ ReleaseAt g pt g₀ m .rest) : g'.MailIntact m := by
  cases transfer with
  | keeps same => exact same.mailIntact intact
  | @creates _ _ n _ _ found _ same =>
    refine same.mailIntact ?_
    by_cases here : m = n
    · subst here
      obtain ⟨taken, window⟩ := intact.empty (Globals.firstInactive_spec found)
      refine ⟨⟨[], [], intact.unused (Globals.firstInactive_spec found), ?_, ?_⟩, ?_⟩
      · rw [Globals.createMailbox_taken, taken]
        exact .nil
      · rw [Globals.createMailbox_mailboxSlotQueues, Function.update_self, SlotQueue.window_of_count rfl]
        exact .nil
      · intro inactive
        simp at inactive
    · exact intact.congr rfl rfl (by simp [here]) (fun _ _ _ holds => holds) (by simp [here])
  | @createFails _ _ n _ _ found same =>
    refine same.mailIntact ?_
    by_cases here : m = n
    · subst here
      have inactive := Globals.firstInactive_spec found
      obtain ⟨taken, window⟩ := intact.empty inactive
      refine intact.congr rfl rfl ?_ (fun _ _ _ holds => holds) (by simp [inactive])
      rw [Globals.loseMailbox_mailboxSlotQueues, Function.update_self, window]
      rfl
    · exact intact.congr rfl rfl (by simp [here]) (fun _ _ _ holds => holds) (by simp [here])
  | stores at_ storable same =>
    exact same.mailIntact (intact.store sound storable (at_.room sound storable) at_.active _)
  | rejects at_ allocated small same =>
    refine same.mailIntact (intact.dequeue sound allocated at_.occupied at_.active fun msg holds => ?_)
    have length : (g.received _).ret = msg.length := congrArg Nat.cast holds.1
    rw [length] at small
    exact (if_pos small).symm
  | @takes _ _ _ n _ _ at_ allocated fits same =>
    refine same.mailIntact ((intact.dequeue sound allocated at_.occupied at_.active fun msg holds => ?_).freeSlot _)
    have length : (g.received n).ret = msg.length := congrArg Nat.cast holds.1
    rw [length] at fits
    have received : g.received n = ⟨msg.length, msg⟩ := by
      rw [Globals.received, holds.1, holds.2]
    exact received.trans (if_neg (not_lt.mpr fits)).symm
  | @deactivates _ n _ same =>
    have away : m ≠ n := fun here => unreleased (by rw [here])
    exact same.mailIntact (intact.congr rfl rfl rfl (fun _ _ _ holds => holds) (by simp [away]))
  | @frees _ _ _ n at_ same =>
    have away : m ≠ n := fun here => unfreed _ (here ▸ at_)
    exact same.mailIntact (intact.congr rfl rfl (by simp [away]) (fun _ _ _ holds => holds) rfl)
  | @releases _ _ n _ _ same =>
    have away : m ≠ n := fun here => unreleased (by rw [here])
    exact same.mailIntact
      (intact.congr rfl rfl (by simp [away]) (fun _ _ _ holds => holds) (by simp [away]))

namespace Sys

theorem mailIntact_of_run {m : MboxId} {s : Sys} (run : Transition.Run Sys.step (Unreleased m) boot s) :
    s.globals.MailIntact m := by
  refine invariant run (fun _ => lasting_of_run) (fun s => s.globals.MailIntact m) ?_ ?_ ?_ ?_
  · refine ⟨⟨[], [], ?_, ?_, ?_⟩, fun _ => ?_⟩ <;> simp only [boot]
    · rw [phase2Init_eq]; rfl
    · rw [phase2Init_eq]; exact .nil
    · rw [phase2Init_window]; exact .nil
    · rw [phase2Init_eq]; rfl
  · intro s p pt seg lasting intact unreleased here path _
    have point := unreleased.point
    exact (after_transfer path).mailIntact lasting.1 intact point fun g₀ ends =>
      (ends.away here (lasting.2 p) point rfl).elim
  · intro s p pt f intact
    rwa [enter_globals]
  · intro s q proc cpu intact _ _
    exact intact

end Sys

end UslossKernel
