import Mathlib.Data.Multiset.Range
import Mathlib.Tactic.Abel
import UslossKernel.Transfers
import UslossKernel.Library.Holdings

namespace UslossKernel

/-- The indices of `mailSlots`. -/
@[irreducible] def allSlots : Multiset Nat :=
  Multiset.range maxSlots

theorem mem_allSlots {i : Nat} : i ∈ allSlots ↔ i < maxSlots := by
  unfold allSlots
  exact Multiset.mem_range

theorem nodup_allSlots : allSlots.Nodup := by
  unfold allSlots
  exact Multiset.nodup_range _

theorem card_allSlots : allSlots.card = maxSlots := by
  unfold allSlots
  exact Multiset.card_range _

namespace Globals

/-- The free slots, bottom of the stack first. -/
def freeSlots (g : Globals) : List Nat :=
  stackList g.freeSlotQueue g.freeSlotCount

/-- Every slot index on record, on the free stack or in a ring, with its multiplicity. -/
def heldSlots (g : Globals) : Multiset Nat :=
  g.freeSlots + totalHoldings fun m => ((g.mailboxSlotQueues m).window : Multiset Nat)

/-- The bookkeeping of the slots that every run keeps: the rings work, and no
index is on record twice or out of range. -/
structure Sound (g : Globals) : Prop where
  rings : ∀ m, (g.mailboxSlotQueues m).ring.WellFormed
  capacity : ∀ m, (g.mailboxes m).isActive = true → (g.mailboxSlotQueues m).capacity = (g.mailboxes m).numSlots
  allocated : ∀ m, (g.mailboxes m).isActive = true → (g.mailboxSlotQueues m).count ≠ 0 →
    (g.mailboxSlotQueues m).queue ≠ none
  held_le : g.heldSlots ≤ allSlots

theorem SameMail.heldSlots_eq {g g' : Globals} (same : g.SameMail g') : g'.heldSlots = g.heldSlots := by
  simp only [heldSlots, freeSlots, same.rings, same.freeQueue, same.freeCount]

theorem SameMail.sound {g g' : Globals} (same : g.SameMail g') (sound : g.Sound) : g'.Sound where
  rings m := by rw [same.rings]; exact sound.rings m
  capacity m active := by
    rw [same.rings, same.numSlots]
    exact sound.capacity m ((same.active m).symm.trans active)
  allocated m active := by
    rw [same.rings]
    exact sound.allocated m ((same.active m).symm.trans active)
  held_le := by rw [same.heldSlots_eq]; exact sound.held_le

/-- Replacing one ring replaces its indices on record. -/
theorem heldSlots_ring {g g' : Globals} {m : MboxId} {sq : SlotQueue}
    (rings : g'.mailboxSlotQueues = Function.update g.mailboxSlotQueues m sq) :
    g'.heldSlots + g.freeSlots + (g.mailboxSlotQueues m).window = g.heldSlots + g'.freeSlots + sq.window := by
  have windows : (fun n => ((g'.mailboxSlotQueues n).window : Multiset Nat)) =
      Function.update (fun n => ((g.mailboxSlotQueues n).window : Multiset Nat)) m sq.window := by
    funext n
    rw [rings]
    by_cases here : n = m
    · subst here; simp only [Function.update_self]
    · simp only [Function.update_of_ne here]
  have exchange := totalHoldings.update (fun n => ((g.mailboxSlotQueues n).window : Multiset Nat)) m sq.window
  simp only [heldSlots, windows]
  calc _ = (g'.freeSlots : Multiset Nat) + g.freeSlots +
        (totalHoldings (Function.update (fun n => ((g.mailboxSlotQueues n).window : Multiset Nat)) m sq.window) +
          (g.mailboxSlotQueues m).window) := by abel
    _ = _ := by rw [exchange]; abel

theorem heldSlots_storeMessage {g : Globals} {m : MboxId} (storable : Storable g m) (sound : g.Sound)
    (room : (g.mailboxSlotQueues m).count < (g.mailboxSlotQueues m).capacity) (msg : Message) :
    (g.storeMessage m msg).heldSlots = g.heldSlots := by
  have ring := heldSlots_ring (storeMessage_mailboxSlotQueues g m msg)
  have top : g.freeSlots = (g.storeMessage m msg).freeSlots ++ [g.freeSlotQueue (g.freeSlotCount - 1)] :=
    stackList.pop _ storable.free
  have window : ((g.mailboxSlotQueues m).enqueue (g.freeSlotQueue (g.freeSlotCount - 1))).window =
      (g.mailboxSlotQueues m).window ++ [g.freeSlotQueue (g.freeSlotCount - 1)] :=
    SlotQueue.window_enqueue (sound.rings m) storable.allocated room _
  rw [window, top, ← Multiset.coe_add, ← Multiset.coe_add] at ring
  have balance : (g.storeMessage m msg).heldSlots + (((g.storeMessage m msg).freeSlots : Multiset Nat) +
        ↑[g.freeSlotQueue (g.freeSlotCount - 1)] + (g.mailboxSlotQueues m).window) =
      g.heldSlots + (((g.storeMessage m msg).freeSlots : Multiset Nat) +
        ↑[g.freeSlotQueue (g.freeSlotCount - 1)] + (g.mailboxSlotQueues m).window) := by
    calc _ = _ := by rw [← add_assoc, ring]
      _ = _ := by abel
  exact add_right_cancel balance

/-- A dequeued slot is on record nowhere until it is put on the stack. -/
theorem heldSlots_dequeueSlot {g : Globals} {m : MboxId} (sound : g.Sound)
    (allocated : (g.mailboxSlotQueues m).queue ≠ none) (occupied : 0 < (g.mailboxSlotQueues m).count)
    (delivery : Delivery) :
    g.heldSlots = g.headSlot m ::ₘ (g.dequeueSlot m delivery).heldSlots := by
  have ring := heldSlots_ring (dequeueSlot_mailboxSlotQueues g m delivery)
  have window : (g.mailboxSlotQueues m).window = g.headSlot m :: (g.mailboxSlotQueues m).dequeue.window :=
    SlotQueue.window_dequeue (sound.rings m) allocated occupied
  have sameFree : (g.dequeueSlot m delivery).freeSlots = g.freeSlots := rfl
  rw [window, sameFree, ← Multiset.cons_coe, Multiset.add_cons, ← Multiset.cons_add, ← Multiset.cons_add,
    add_assoc, add_assoc] at ring
  exact (add_right_cancel ring).symm

theorem heldSlots_freeSlot (g : Globals) (slotIndex : Nat) :
    (g.freeSlot slotIndex).heldSlots = slotIndex ::ₘ g.heldSlots := by
  have free : (g.freeSlot slotIndex).freeSlots = g.freeSlots ++ [slotIndex] := stackList.push ..
  simp only [heldSlots, free, freeSlot_mailboxSlotQueues, ← Multiset.coe_add, Multiset.coe_singleton]
  rw [add_right_comm, ← Multiset.singleton_add, add_comm]

/-- Emptying a ring drops the slots that were in it. -/
theorem heldSlots_emptied {g g' : Globals} {m : MboxId} {sq : SlotQueue}
    (rings : g'.mailboxSlotQueues = Function.update g.mailboxSlotQueues m sq) (free : g'.freeSlots = g.freeSlots)
    (empty : sq.window = []) : g.heldSlots = g'.heldSlots + (g.mailboxSlotQueues m).window := by
  have ring := heldSlots_ring rings
  rw [empty, free, Multiset.coe_nil, add_zero] at ring
  refine add_right_cancel (b := (g.freeSlots : Multiset Nat)) ?_
  rw [← ring]
  abel

/-- What has to be shown where the entry and the ring of one mailbox change. -/
theorem Sound.update_ring {g g' : Globals} {m : MboxId} {sq : SlotQueue} (sound : g.Sound)
    (rings : g'.mailboxSlotQueues = Function.update g.mailboxSlotQueues m sq)
    (others : ∀ n, n ≠ m → g'.mailboxes n = g.mailboxes n) (valid : sq.ring.WellFormed)
    (capacity : (g'.mailboxes m).isActive = true → sq.capacity = (g'.mailboxes m).numSlots)
    (allocated : (g'.mailboxes m).isActive = true → sq.count ≠ 0 → sq.queue ≠ none)
    (held : g'.heldSlots ≤ g.heldSlots) : g'.Sound where
  rings n := by
    rw [rings]
    by_cases here : n = m
    · rw [here, Function.update_self]
      exact valid
    · rw [Function.update_of_ne here]
      exact sound.rings n
  capacity n active := by
    rw [rings]
    by_cases here : n = m
    · rw [here] at active ⊢
      rw [Function.update_self]
      exact capacity active
    · rw [others n here] at active ⊢
      rw [Function.update_of_ne here]
      exact sound.capacity n active
  allocated n active := by
    rw [rings]
    by_cases here : n = m
    · rw [here] at active ⊢
      rw [Function.update_self]
      exact allocated active
    · rw [others n here] at active
      rw [Function.update_of_ne here]
      exact sound.allocated n active
  held_le := held.trans sound.held_le

theorem Sound.storeMessage {g : Globals} {m : MboxId} (sound : g.Sound) (storable : Storable g m)
    (room : (g.mailboxSlotQueues m).count < (g.mailboxSlotQueues m).capacity) (msg : Message) :
    (g.storeMessage m msg).Sound := by
  refine sound.update_ring (storeMessage_mailboxSlotQueues g m msg) (fun _ _ => rfl) ?_ (sound.capacity m) ?_ ?_
  · rw [SlotQueue.ring_enqueue storable.allocated]
    exact (sound.rings m).push room _
  · intro _ _
    simpa [SlotQueue.enqueue] using storable.allocated
  · exact (heldSlots_storeMessage storable sound room msg).le

theorem Sound.dequeueSlot {g : Globals} {m : MboxId} (sound : g.Sound)
    (allocated : (g.mailboxSlotQueues m).queue ≠ none) (occupied : 0 < (g.mailboxSlotQueues m).count)
    (delivery : Delivery) : (g.dequeueSlot m delivery).Sound := by
  refine sound.update_ring (dequeueSlot_mailboxSlotQueues g m delivery) (fun _ _ => rfl) ?_ (sound.capacity m) ?_ ?_
  · rw [SlotQueue.ring_dequeue]
    exact (sound.rings m).pop occupied
  · exact fun _ _ => allocated
  · rw [heldSlots_dequeueSlot sound allocated occupied delivery]
    exact Multiset.le_cons_self _ _

/-- Taking a message returns the slot it was in. -/
theorem heldSlots_take {g : Globals} {m : MboxId} (sound : g.Sound)
    (allocated : (g.mailboxSlotQueues m).queue ≠ none) (occupied : 0 < (g.mailboxSlotQueues m).count)
    (delivery : Delivery) :
    ((g.dequeueSlot m delivery).freeSlot (g.headSlot m)).heldSlots = g.heldSlots := by
  rw [heldSlots_freeSlot, ← heldSlots_dequeueSlot sound allocated occupied]

theorem Sound.take {g : Globals} {m : MboxId} (sound : g.Sound)
    (allocated : (g.mailboxSlotQueues m).queue ≠ none) (occupied : 0 < (g.mailboxSlotQueues m).count)
    (delivery : Delivery) :
    ((g.dequeueSlot m delivery).freeSlot (g.headSlot m)).Sound where
  rings := (sound.dequeueSlot allocated occupied delivery).rings
  capacity := (sound.dequeueSlot allocated occupied delivery).capacity
  allocated := (sound.dequeueSlot allocated occupied delivery).allocated
  held_le := by
    rw [heldSlots_take sound allocated occupied]
    exact sound.held_le

/-- A ring that is emptied, or newly allocated for the mailbox, stays well formed. -/
theorem Sound.emptied {g g' : Globals} {m : MboxId} {sq : SlotQueue} (sound : g.Sound)
    (rings : g'.mailboxSlotQueues = Function.update g.mailboxSlotQueues m sq) (free : g'.freeSlots = g.freeSlots)
    (reset : sq.head = 0 ∧ sq.tail = 0 ∧ sq.count = 0)
    (others : ∀ n, n ≠ m → g'.mailboxes n = g.mailboxes n)
    (capacity : (g'.mailboxes m).isActive = true → sq.capacity = (g'.mailboxes m).numSlots) : g'.Sound := by
  obtain ⟨head, tail, count⟩ := reset
  refine sound.update_ring rings others ?_ capacity ?_ ?_
  · rw [SlotQueue.ring, head, tail, count]
    exact .reset _ _
  · intro _ occupied
    exact (occupied count).elim
  · rw [heldSlots_emptied rings free (SlotQueue.window_of_count count)]
    exact Multiset.le_add_right _ _

theorem Sound.deactivate {g : Globals} (sound : g.Sound) (m : MboxId) : (g.deactivate m).Sound := by
  have inactive : ((g.deactivate m).mailboxes m).isActive ≠ true := by simp
  refine sound.update_ring (Function.update_eq_self m _).symm ?_ (sound.rings m) ?_ ?_ le_rfl
  · intro n away
    exact Function.update_of_ne away _ _
  · intro active
    exact (inactive active).elim
  · intro active
    exact (inactive active).elim

theorem Sound.freeQueue {g : Globals} (sound : g.Sound) (m : MboxId) : (g.freeQueue m).Sound :=
  sound.emptied (freeQueue_mailboxSlotQueues g m) rfl ⟨rfl, rfl, rfl⟩ (fun _ _ => rfl) (sound.capacity m)

theorem Sound.loseMailbox {g : Globals} (sound : g.Sound) (m : MboxId) (numSlots slotSize : Nat) :
    (g.loseMailbox m numSlots slotSize).Sound := by
  have inactive : ((g.loseMailbox m numSlots slotSize).mailboxes m).isActive ≠ true := by simp
  refine sound.update_ring (loseMailbox_mailboxSlotQueues g m numSlots slotSize) ?_ ?_ ?_ ?_ ?_
  · intro n away
    exact Function.update_of_ne away _ _
  · exact ⟨(sound.rings m).bounded, (sound.rings m).head_lt, (sound.rings m).tail_eq⟩
  · intro active
    exact (inactive active).elim
  · intro active
    exact (inactive active).elim
  · rw [heldSlots_emptied (loseMailbox_mailboxSlotQueues g m numSlots slotSize) rfl rfl]
    exact Multiset.le_add_right _ _

theorem Sound.window_length {g : Globals} (sound : g.Sound) {m : MboxId} (active : (g.mailboxes m).isActive = true) :
    (g.mailboxSlotQueues m).window.length = (g.mailboxSlotQueues m).count := by
  by_cases empty : (g.mailboxSlotQueues m).count = 0
  · rw [SlotQueue.window_of_count empty, empty, List.length_nil]
  · rw [SlotQueue.window_of_allocated (sound.allocated m active empty), RingBuffer.window_length]
    rfl

theorem Sound.count_le {g : Globals} (sound : g.Sound) {m : MboxId}
    (active : (g.mailboxes m).isActive = true) : (g.mailboxSlotQueues m).count ≤ (g.mailboxes m).numSlots := by
  rw [← sound.capacity m active]
  exact (sound.rings m).bounded

end Globals

theorem StorePoint.room {g : Globals} {pt : Point} {m : MboxId} {msg : Message} {k : Cont}
    (at_ : StorePoint g pt m msg k) (sound : g.Sound) (storable : Storable g m) :
    (g.mailboxSlotQueues m).count < (g.mailboxSlotQueues m).capacity := by
  have capacity := sound.capacity m at_.active
  have positive := storable.capacity
  cases at_ <;> omega

theorem Transfer.sound {g g' : Globals} {pt : Point} (transfer : Transfer g pt g') (sound : g.Sound) : g'.Sound := by
  cases transfer with
  | keeps same => exact same.sound sound
  | creates _ _ same =>
    refine same.sound (sound.emptied rfl rfl ⟨rfl, rfl, rfl⟩ ?_ ?_)
    · intro n away
      exact Function.update_of_ne away _ _
    · intro _
      simp
  | createFails _ same => exact same.sound (sound.loseMailbox ..)
  | stores at_ storable same => exact same.sound (sound.storeMessage storable (at_.room sound storable) _)
  | rejects at_ allocated _ same => exact same.sound (sound.dequeueSlot allocated at_.occupied _)
  | takes at_ allocated _ same => exact same.sound (sound.take allocated at_.occupied _)
  | deactivates _ same => exact same.sound (sound.deactivate _)
  | frees _ same => exact same.sound (sound.freeQueue _)
  | releases _ _ same => exact same.sound ((sound.deactivate _).freeQueue _)

/-- No stretch of code brings a slot back on record. -/
theorem Transfer.heldSlots_le {g g' : Globals} {pt : Point} (transfer : Transfer g pt g') (sound : g.Sound) :
    g'.heldSlots ≤ g.heldSlots := by
  cases transfer with
  | keeps same => exact same.heldSlots_eq.le
  | creates _ _ same =>
    rw [same.heldSlots_eq, Globals.heldSlots_emptied (Globals.createMailbox_mailboxSlotQueues g ..) rfl rfl]
    exact Multiset.le_add_right _ _
  | createFails _ same =>
    rw [same.heldSlots_eq, Globals.heldSlots_emptied (Globals.loseMailbox_mailboxSlotQueues g ..) rfl rfl]
    exact Multiset.le_add_right _ _
  | stores at_ storable same =>
    rw [same.heldSlots_eq, Globals.heldSlots_storeMessage storable sound (at_.room sound storable)]
  | rejects at_ allocated _ same =>
    rw [same.heldSlots_eq, Globals.heldSlots_dequeueSlot sound allocated at_.occupied]
    exact Multiset.le_cons_self _ _
  | takes at_ allocated _ same => rw [same.heldSlots_eq, Globals.heldSlots_take sound allocated at_.occupied]
  | deactivates _ same => exact same.heldSlots_eq.le
  | frees _ same =>
    rw [same.heldSlots_eq, Globals.heldSlots_emptied (Globals.freeQueue_mailboxSlotQueues g ..) rfl rfl]
    exact Multiset.le_add_right _ _
  | @releases _ _ m _ _ same =>
    rw [same.heldSlots_eq]
    have emptied := Globals.heldSlots_emptied (Globals.freeQueue_mailboxSlotQueues (g.deactivate m) m) rfl rfl
    exact (Multiset.le_add_right _ _).trans emptied.ge

theorem phase2Init_eq : phase2Init = phase2Tables.createMailbox 6 1 4 := by
  have found : phase2Tables.firstInactive = some 6 := by decide +kernel
  have arguments : ¬ ((1 : Int) > maxSlots ∨ (1 : Int) < 0 ∨ (4 : Int) < 0 ∨ (4 : Int) > maxMessage) := by decide
  unfold phase2Init mboxCreate
  rw [if_neg arguments, found]
  rfl

theorem phase2Init_window (m : MboxId) : (phase2Init.mailboxSlotQueues m).window = [] := by
  refine SlotQueue.window_of_count ?_
  rw [phase2Init_eq, Globals.createMailbox_mailboxSlotQueues]
  by_cases clock : m = 6
  · rw [clock, Function.update_self]
  · rw [Function.update_of_ne clock]
    rfl

theorem phase2Init_heldSlots : phase2Init.heldSlots = allSlots := by
  have free : phase2Init.freeSlots = List.range maxSlots := by
    rw [phase2Init_eq]
    exact List.map_id _
  have empty : (totalHoldings fun m => ((phase2Init.mailboxSlotQueues m).window : Multiset Nat)) = 0 :=
    totalHoldings.eq_zero fun m => by rw [phase2Init_window]; rfl
  unfold Globals.heldSlots allSlots
  rw [empty, add_zero, free]
  rfl

theorem phase2Init_sound : phase2Init.Sound where
  rings m := by
    rw [phase2Init_eq, Globals.createMailbox_mailboxSlotQueues]
    by_cases clock : m = 6
    · rw [clock, Function.update_self]
      exact .reset _ _
    · rw [Function.update_of_ne clock]
      exact .reset _ _
  capacity m _ := by
    rw [phase2Init_eq, Globals.createMailbox_mailboxSlotQueues, Globals.createMailbox_mailboxes]
    by_cases clock : m = 6
    · rw [clock, Function.update_self, Function.update_self]
    · rw [Function.update_of_ne clock, Function.update_of_ne clock]
      rfl
  allocated m _ occupied := by
    rw [phase2Init_eq, Globals.createMailbox_mailboxSlotQueues] at occupied ⊢
    by_cases clock : m = 6
    · rw [clock, Function.update_self]
      exact Option.some_ne_none _
    · rw [Function.update_of_ne clock] at occupied
      exact (occupied rfl).elim
  held_le := phase2Init_heldSlots.le

/-- The slot bookkeeping is sound in every state of every run. -/
theorem Sys.sound_of_run {guard : Sys → Act → Prop} {s : Sys} (run : Transition.Run Sys.step guard Sys.boot s) :
    s.globals.Sound := by
  refine run.invariant (fun s => s.globals.Sound) phase2Init_sound fun before _ after sound _ moves => ?_
  rcases Sys.step_transfer moves with same | ⟨_, _, transfer⟩
  · rw [same]; exact sound
  · exact transfer.sound sound

end UslossKernel
