import UslossKernel.SlotOwnership

namespace UslossKernel

namespace Globals

/-- The slot indices between `head` and `tail` of an active mailbox. -/
def liveWindow (g : Globals) (m : MboxId) : List Nat :=
  if (g.mailboxes m).isActive then (g.mailboxSlotQueues m).window else []

def liveCount (g : Globals) (m : MboxId) : Nat :=
  if (g.mailboxes m).isActive then (g.mailboxSlotQueues m).count else 0

/-- Every slot index is in exactly one place, once, and the counts add up. -/
structure Conserved (g : Globals) : Prop where
  placed : ∀ i < maxSlots,
    (g.freeSlots.count i = 1 ∧ ∀ m, i ∉ g.liveWindow m) ∨
      (i ∉ g.freeSlots ∧ ∃ m, (g.liveWindow m).count i = 1 ∧ ∀ n, n ≠ m → i ∉ g.liveWindow n)
  capacity : g.freeSlotCount + totalHoldings g.liveCount = maxSlots

/-- Nothing is lost from the record, and nothing is in an inactive ring. -/
structure Complete (g : Globals) : Prop where
  held : g.heldSlots = allSlots
  inactive : ∀ m, (g.mailboxes m).isActive = false → (g.mailboxSlotQueues m).count = 0

theorem Sound.liveWindow_length {g : Globals} (sound : g.Sound) (m : MboxId) :
    (g.liveWindow m).length = g.liveCount m := by
  unfold liveWindow liveCount
  split
  · rename_i active
    exact sound.window_length active
  · rfl

theorem Complete.liveWindow_eq {g : Globals} (complete : g.Complete) (m : MboxId) :
    g.liveWindow m = (g.mailboxSlotQueues m).window := by
  unfold liveWindow
  split
  · rfl
  · rename_i inactive
    rw [SlotQueue.window_of_count (complete.inactive m (by simpa using inactive))]

theorem heldSlots_count (g : Globals) (i : Nat) :
    g.heldSlots.count i = g.freeSlots.count i + totalHoldings fun m => (g.mailboxSlotQueues m).window.count i := by
  have windows := totalHoldings.map (Multiset.countAddMonoidHom i)
    fun m => ((g.mailboxSlotQueues m).window : Multiset Nat)
  simp only [Multiset.coe_countAddMonoidHom, Multiset.coe_count] at windows
  rw [heldSlots, Multiset.count_add, windows, Multiset.coe_count]

theorem heldSlots_card (g : Globals) :
    g.heldSlots.card = g.freeSlotCount + totalHoldings fun m => (g.mailboxSlotQueues m).window.length := by
  have windows : (totalHoldings fun m => ((g.mailboxSlotQueues m).window : Multiset Nat)).card =
      totalHoldings fun m => (g.mailboxSlotQueues m).window.length := totalHoldings.map Multiset.cardHom _
  rw [heldSlots, Multiset.card_add, windows, Multiset.coe_card, freeSlots, stackList.length]

theorem Complete.conserved {g : Globals} (complete : g.Complete) (sound : g.Sound) : g.Conserved where
  placed i below := by
    have once : g.heldSlots.count i = 1 := by
      rw [complete.held]
      exact Multiset.count_eq_one_of_mem nodup_allSlots (mem_allSlots.mpr below)
    rw [heldSlots_count] at once
    simp only [complete.liveWindow_eq]
    rcases Nat.eq_zero_or_pos (g.freeSlots.count i) with absent | present
    · rw [absent, Nat.zero_add] at once
      obtain ⟨m, single, others⟩ := totalHoldings.eq_one once
      exact .inr ⟨List.count_eq_zero.mp absent, m, single, fun n away => List.count_eq_zero.mp (others n away)⟩
    · have nowhere : totalHoldings (fun m => (g.mailboxSlotQueues m).window.count i) = 0 := by omega
      refine .inl ⟨by omega, fun m => ?_⟩
      exact List.count_eq_zero.mp (totalHoldings.eq_zero_iff.mp nowhere m)
  capacity := by
    have card := g.heldSlots_card
    rw [complete.held, card_allSlots] at card
    rw [card]
    congr 2
    funext m
    rw [← sound.liveWindow_length, complete.liveWindow_eq]

/-- Where a slot is missing from the record, the counts do not add up. -/
theorem not_conserved {g : Globals} (sound : g.Sound) (lost : g.heldSlots.card < maxSlots) : ¬ g.Conserved := by
  intro conserved
  have less : totalHoldings g.liveCount ≤ totalHoldings fun m => (g.mailboxSlotQueues m).window.length := by
    refine totalHoldings.mono fun m => ?_
    rw [← sound.liveWindow_length]
    unfold liveWindow
    split
    · exact le_rfl
    · exact Nat.zero_le _
  have card := g.heldSlots_card
  have capacity := conserved.capacity
  omega

theorem SameMail.complete {g g' : Globals} (same : g.SameMail g') (complete : g.Complete) : g'.Complete where
  held := same.heldSlots_eq.trans complete.held
  inactive m inactive := by
    rw [same.rings]
    exact complete.inactive m ((same.active m).symm.trans inactive)

end Globals

namespace Sys

/-- The action begins a release of `m`. -/
def StartsRelease (s : Sys) (a : Act) (m : MboxId) : Prop :=
  s.RunsFrom a (.start (.release (m : Nat))) ∧ (s.globals.mailboxes m).isActive = true

/-- Receives have room for the message they take, a release finds the ring
empty at both ends, and no send stores a message without a free slot. -/
structure SlotsReturned (s : Sys) (a : Act) : Prop where
  fits : ∀ m buffer, s.TakesFrom a m buffer → (s.globals.received m).ret ≤ buffer.msg_max_size
  starts : ∀ m, s.StartsRelease a m → (s.globals.mailboxSlotQueues m).count = 0
  ends : ∀ m, s.EndsRelease a m → (s.globals.mailboxSlotQueues m).count = 0
  free : ∀ m, s.StoresInto a m → 0 < s.globals.freeSlotCount

end Sys

/-- Only the mailbox `m` changes, in a way that leaves an inactive one empty. -/
theorem Globals.Complete.elsewhere {g g' : Globals} {m : MboxId} (complete : g.Complete)
    (held : g'.heldSlots = g.heldSlots) (mailboxes : ∀ n, n ≠ m → g'.mailboxes n = g.mailboxes n)
    (rings : ∀ n, n ≠ m → g'.mailboxSlotQueues n = g.mailboxSlotQueues n)
    (here : (g'.mailboxes m).isActive = false → (g'.mailboxSlotQueues m).count = 0) : g'.Complete where
  held := held.trans complete.held
  inactive n inactive := by
    by_cases same : n = m
    · subst same
      exact here inactive
    · rw [rings n same]
      exact complete.inactive n (by rwa [mailboxes n same] at inactive)

theorem Transfer.complete {s : Sys} {a : Act} {g' : Globals} {pt : Point} (transfer : Transfer s.globals pt g')
    (here : s.RunsFrom a pt) (returned : s.SlotsReturned a) (sound : s.globals.Sound)
    (complete : s.globals.Complete) : g'.Complete := by
  have emptied : ∀ {m : MboxId}, (s.globals.mailboxSlotQueues m).count = 0 →
      (s.globals.mailboxSlotQueues m).window = [] := SlotQueue.window_of_count
  cases transfer with
  | keeps same => exact same.complete complete
  | creates found _ same =>
    rename_i m numSlots slotSize _
    have empty := complete.inactive m (Globals.firstInactive_spec found)
    refine same.complete (complete.elsewhere (m := m) ?_ (fun n away => Function.update_of_ne away _ _)
      (fun n away => Function.update_of_ne away _ _) (fun inactive => ?_))
    · have drop := Globals.heldSlots_emptied
        (Globals.createMailbox_mailboxSlotQueues s.globals m numSlots slotSize) rfl rfl
      rw [drop, emptied empty, Multiset.coe_nil, add_zero]
    · simp at inactive
  | createFails found same =>
    rename_i m numSlots slotSize
    have empty := complete.inactive m (Globals.firstInactive_spec found)
    refine same.complete (complete.elsewhere (m := m) ?_ (fun n away => Function.update_of_ne away _ _)
      (fun n away => Function.update_of_ne away _ _) (fun _ => ?_))
    · have drop := Globals.heldSlots_emptied
        (Globals.loseMailbox_mailboxSlotQueues s.globals m numSlots slotSize) rfl rfl
      rw [drop, emptied empty, Multiset.coe_nil, add_zero]
    · rw [Globals.loseMailbox_mailboxSlotQueues, Function.update_self]
      exact empty
  | stores at_ storable same =>
    rename_i m msg k
    refine same.complete (complete.elsewhere (m := m)
      (Globals.heldSlots_storeMessage storable sound (at_.room sound storable) msg) (fun _ _ => rfl)
      (fun n away => Function.update_of_ne away _ _) (fun inactive => ?_))
    exact absurd (at_.active.symm.trans inactive) (by simp)
  | rejects at_ _ small _ =>
    have fits := returned.fits _ _ ⟨_, _, _, here, at_⟩
    omega
  | takes at_ allocated _ same =>
    rename_i m _ _ _
    refine same.complete (complete.elsewhere (m := m)
      (Globals.heldSlots_take sound allocated at_.occupied _) (fun _ _ => rfl)
      (fun n away => Function.update_of_ne away _ _) (fun inactive => ?_))
    exact absurd (at_.active.symm.trans inactive) (by simp)
  | deactivates active same =>
    rename_i m
    refine same.complete (complete.elsewhere (m := m) rfl (fun n away => Function.update_of_ne away _ _)
      (fun _ _ => rfl) (fun _ => returned.starts _ ⟨here, active⟩))
  | frees at_ same =>
    rename_i g₀ m
    have empty := returned.ends m ⟨_, _, here, at_⟩
    refine same.complete (complete.elsewhere (m := m) ?_ (fun _ _ => rfl)
      (fun n away => Function.update_of_ne away _ _) (fun _ => ?_))
    · have drop := Globals.heldSlots_emptied (Globals.freeQueue_mailboxSlotQueues s.globals m) rfl rfl
      rw [drop, emptied empty, Multiset.coe_nil, add_zero]
    · rw [Globals.freeQueue_mailboxSlotQueues, Function.update_self]
  | releases active at_ same =>
    rename_i g₀ m
    have empty := returned.starts m ⟨here, active⟩
    refine same.complete (complete.elsewhere (m := m) ?_ (fun n away => Function.update_of_ne away _ _)
      (fun n away => Function.update_of_ne away _ _) (fun _ => ?_))
    · have drop := Globals.heldSlots_emptied
        (Globals.freeQueue_mailboxSlotQueues (s.globals.deactivate m) m) rfl rfl
      have still : ((s.globals.deactivate m).mailboxSlotQueues m).window = [] := emptied empty
      have same : (s.globals.deactivate m).heldSlots = s.globals.heldSlots := rfl
      rw [← same, drop, still, Multiset.coe_nil, add_zero]
    · rw [Globals.freeQueue_mailboxSlotQueues, Function.update_self]

theorem phase2Init_complete : phase2Init.Complete where
  held := phase2Init_heldSlots
  inactive m _ := by
    rw [phase2Init_eq, Globals.createMailbox_mailboxSlotQueues]
    by_cases clock : m = 6
    · rw [clock, Function.update_self]
    · rw [Function.update_of_ne clock]
      rfl

/-- Along such a run no slot gets lost. -/
theorem Sys.slots_conserved {s : Sys} (run : Transition.Run Sys.step Sys.SlotsReturned Sys.boot s) :
    s.globals.Conserved := by
  have complete : s.globals.Complete := by
    refine run.invariant_above (fun _ => Sys.sound_of_run) (fun s => s.globals.Complete) phase2Init_complete ?_
    intro before a after sound complete returned moves
    rcases Sys.step_transfer moves with same | ⟨_, here, transfer⟩
    · rw [same]
      exact complete
    · exact transfer.complete here returned sound complete
  exact complete.conserved (Sys.sound_of_run run)

/-- A test for `SlotsReturned`, of actions that are calls. -/
def Sys.testSlotsReturned (s : Sys) : Act → Bool
  | .call _ (.create ..) | .call _ (.send ..) => true
  | .call _ (.recv id buffer) => (s.globals.received (Fin.ofNat maxMbox id.toNat)).ret ≤ buffer.msg_max_size
  | .call _ (.release id) => (s.globals.mailboxSlotQueues (Fin.ofNat maxMbox id.toNat)).count = 0
  | _ => false

theorem Sys.SlotsReturned.of_test {s : Sys} {a : Act} (admitted : s.testSlotsReturned a = true) :
    Sys.SlotsReturned s a := by
  have atId : ∀ m : MboxId, Fin.ofNat maxMbox (((m : Nat) : Int).toNat) = m := by
    intro m
    simp
  cases a with
  | call p c =>
    refine ⟨fun m buffer takes => ?_, fun m starts => ?_, fun m ends => ?_, fun m stores => stores.of_call.1⟩
    · rcases takes.of_call with rfl | rfl
      · simpa [testSlotsReturned, atId] using admitted
      · cases admitted
    · cases starts.1.of_call
      simpa [testSlotsReturned, atId] using admitted
    · obtain rfl := ends.of_call
      simpa [testSlotsReturned, atId] using admitted
  | resume | yield | sleep | rouse => cases admitted

/-- A run that stores a message, takes it with a buffer just large enough and
releases the empty mailbox. -/
theorem Sys.slots_conserved_run : ∃ s, Transition.Run Sys.step Sys.SlotsReturned Sys.boot s ∧
    s.returned (.release 7) = [(0, ⟨0, []⟩)] ∧ s.globals.Conserved := by
  obtain ⟨s, reaches, done⟩ := Sys.exists_reaches [.call 1 (.create 5 50 true), .call 1 (.send 7 (some [65, 66]) 2),
    .call 1 (.recv 7 ⟨true, 2⟩), .call 1 (.release 7)] (fun s => s.returned (.release 7) = [(0, ⟨0, []⟩)])
    (by decide +kernel)
  have run : Transition.Run Sys.step Sys.SlotsReturned Sys.boot s :=
    reaches.run Sys.testSlotsReturned (fun _ _ _ => .of_test) (by decide +kernel)
  exact ⟨s, run, by simpa using done, Sys.slots_conserved run⟩

/-- A receive whose buffer is too small takes the slot out of the ring and
leaves it there. -/
theorem mboxRecv_rejects {g : Globals} {p : Pid} {m : MboxId} {buffer : Buffer}
    (active : (g.mailboxes m).isActive = true) (size : 0 ≤ buffer.msg_max_size)
    (slots : (g.mailboxes m).numSlots ≠ 0) (occupied : (g.mailboxSlotQueues m).count ≠ 0)
    (allocated : (g.mailboxSlotQueues m).queue ≠ none) (capacity : (g.mailboxSlotQueues m).capacity ≠ 0)
    (small : buffer.msg_max_size < (g.received m).ret) :
    mboxRecv g p (m : Nat) buffer = returnCode (g.dequeueSlot m ⟨buffer.msg_max_size, -1, []⟩) (-1) := by
  obtain ⟨cells, atCells⟩ := Option.ne_none_iff_exists'.mp allocated
  have found : g.activeMbox (m : Nat) = some m := Globals.activeMbox_eq_some.mpr ⟨rfl, active⟩
  have head : g.headSlot m = cells (g.mailboxSlotQueues m).head := by
    simp [Globals.headSlot, SlotQueue.ring, atCells]
  unfold mboxRecv takeAndWake
  simp only [found, atCells, ← head]
  rw [if_neg (by omega), if_neg slots, if_neg occupied, if_neg capacity]
  exact if_pos small

/-- After such a receive a slot is off the record. -/
theorem Sys.run_recv_rejects {s : Sys} (p : Pid) {m : MboxId} (buffer : Buffer) (sound : s.globals.Sound)
    (active : (s.globals.mailboxes m).isActive = true) (size : 0 ≤ buffer.msg_max_size)
    (slots : (s.globals.mailboxes m).numSlots ≠ 0) (occupied : (s.globals.mailboxSlotQueues m).count ≠ 0)
    (small : buffer.msg_max_size < (s.globals.received m).ret) :
    (s.run p (.start (.recv (m : Nat) buffer))).globals.heldSlots.card < maxSlots := by
  have allocated := sound.allocated m active occupied
  have capacity : (s.globals.mailboxSlotQueues m).capacity ≠ 0 := (sound.capacity m active).trans_ne slots
  have rejected := mboxRecv_rejects (p := p) active size slots occupied allocated capacity small
  have after : (s.run p (.start (.recv (m : Nat) buffer))).globals =
      s.globals.dequeueSlot m ⟨buffer.msg_max_size, -1, []⟩ := by
    simp only [Sys.run, Sys.after, Point.exec, Call.start, rejected, returnCode, Sys.settle]
  have drop := congrArg Multiset.card
    (Globals.heldSlots_dequeueSlot sound allocated (Nat.pos_of_ne_zero occupied) ⟨buffer.msg_max_size, -1, []⟩)
  rw [Multiset.card_cons] at drop
  have bound := Multiset.card_le_card sound.held_le
  rw [card_allSlots] at bound
  rw [after]
  omega

/-- A slot that is off the record stays off it. -/
theorem Sys.lost_for_good {guard : Sys → Act → Prop} {s s' : Sys} (run : Transition.Run Sys.step guard s s')
    (sound : s.globals.Sound) (lost : s.globals.heldSlots.card < maxSlots) : ¬ s'.globals.Conserved := by
  have still : s'.globals.Sound ∧ s'.globals.heldSlots.card < maxSlots := by
    refine run.invariant (fun s => s.globals.Sound ∧ s.globals.heldSlots.card < maxSlots) ⟨sound, lost⟩ ?_
    rintro before a after ⟨sound, lost⟩ _ moves
    rcases Sys.step_transfer moves with same | ⟨_, _, transfer⟩
    · rw [same]
      exact ⟨sound, lost⟩
    · exact ⟨transfer.sound sound, (Multiset.card_le_card (transfer.heldSlots_le sound)).trans_lt lost⟩
  exact Globals.not_conserved still.1 still.2

/-- Two bytes are sent and received into a buffer of one. -/
theorem Sys.slots_not_conserved : ∃ s, Sys.Reaches [.call 1 (.create 5 50 true), .call 1 (.send 7 (some [65, 66]) 2),
    .call 1 (.recv 7 ⟨true, 1⟩)] s ∧ ¬ s.globals.Conserved := by
  obtain ⟨s, reaches, ready⟩ := Sys.exists_reaches [.call 1 (.create 5 50 true), .call 1 (.send 7 (some [65, 66]) 2)]
    (fun s => s.mayRun 1 && s.proc 1 = .outside && (s.globals.mailboxes 7).isActive &&
      (s.globals.mailboxes 7).numSlots ≠ 0 && (s.globals.mailboxSlotQueues 7).count ≠ 0 &&
      1 < (s.globals.received 7).ret) (by decide +kernel)
  simp only [Bool.and_eq_true, decide_eq_true_eq] at ready
  obtain ⟨⟨⟨⟨⟨may, out⟩, active⟩, slots⟩, occupied⟩, small⟩ := ready
  have sound := Sys.sound_of_run (Transition.Run.of_executed reaches)
  have moves : s.step (.call 1 (.recv 7 ⟨true, 1⟩)) = some (s.run 1 (.start (.recv 7 ⟨true, 1⟩))) :=
    if_pos ⟨may, out⟩
  have whole := reaches.concat moves
  have lost := Sys.run_recv_rejects 1 ⟨true, 1⟩ sound active (by decide) slots occupied small
  exact ⟨_, whole, Globals.not_conserved (Sys.sound_of_run (Transition.Run.of_executed whole)) lost⟩

end UslossKernel
