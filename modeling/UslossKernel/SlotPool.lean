import UslossKernel.SlotOwnership
import UslossKernel.Waiting

namespace UslossKernel

/-- The receive put the slot back: its buffer was large enough. -/
def Delivery.returnsSlot (delivery : Delivery) : Bool :=
  decide (0 ≤ delivery.result.ret)

namespace Globals

/-- How many messages have been stored so far, in all mailboxes. -/
def storedCount (g : Globals) : Nat :=
  totalHoldings fun m => (g.stored m).length

/-- How many of them have been received. Those that met too small a buffer,
or were in a mailbox when it was released, never count. -/
def receivedCount (g : Globals) : Nat :=
  totalHoldings fun m => (g.taken m).countP Delivery.returnsSlot

/-- Every slot is free or stands for a message stored and not received. -/
def PoolBalanced (g : Globals) : Prop :=
  g.freeSlotCount + g.storedCount = maxSlots + g.receivedCount

theorem storedCount_update {g g' : Globals} {m : MboxId} {msg : Message}
    (stored : g'.stored = Function.update g.stored m (g.stored m ++ [msg])) :
    g'.storedCount = g.storedCount + 1 := by
  have lengths : (fun n => (g'.stored n).length) =
      Function.update (fun n => (g.stored n).length) m ((g.stored m).length + 1) := by
    funext n
    rw [stored]
    by_cases here : n = m
    · subst here
      simp
    · simp only [Function.update_of_ne here]
  have exchange := totalHoldings.update (fun n => (g.stored n).length) m ((g.stored m).length + 1)
  unfold storedCount
  rw [lengths]
  omega

theorem receivedCount_update {g g' : Globals} {m : MboxId} {delivery : Delivery}
    (taken : g'.taken = Function.update g.taken m (g.taken m ++ [delivery])) :
    g'.receivedCount = g.receivedCount + if delivery.returnsSlot then 1 else 0 := by
  have counts : (fun n => (g'.taken n).countP Delivery.returnsSlot) =
      Function.update (fun n => (g.taken n).countP Delivery.returnsSlot) m
        ((g.taken m).countP Delivery.returnsSlot + if delivery.returnsSlot then 1 else 0) := by
    funext n
    rw [taken]
    by_cases here : n = m
    · subst here
      simp only [Function.update_self, List.countP_append, List.countP_singleton]
    · simp only [Function.update_of_ne here]
  have exchange := totalHoldings.update (fun n => (g.taken n).countP Delivery.returnsSlot) m
    ((g.taken m).countP Delivery.returnsSlot + if delivery.returnsSlot then 1 else 0)
  unfold receivedCount
  rw [counts]
  omega

theorem storedCount_congr {g g' : Globals} (same : g'.stored = g.stored) : g'.storedCount = g.storedCount := by
  unfold storedCount
  rw [same]

theorem receivedCount_congr {g g' : Globals} (same : g'.taken = g.taken) : g'.receivedCount = g.receivedCount := by
  unfold receivedCount
  rw [same]

theorem SameMail.poolBalanced {g g' : Globals} (same : g.SameMail g') (balanced : g.PoolBalanced) :
    g'.PoolBalanced := by
  unfold PoolBalanced at balanced ⊢
  rw [same.freeCount, storedCount_congr same.stored, receivedCount_congr same.taken]
  exact balanced

end Globals

theorem Transfer.poolBalanced {g g' : Globals} {pt : Point} (transfer : Transfer g pt g')
    (balanced : g.PoolBalanced) : g'.PoolBalanced := by
  have elsewhere : ∀ {g₁ : Globals}, g₁.freeSlotCount = g.freeSlotCount → g₁.stored = g.stored →
      g₁.taken = g.taken → g₁.PoolBalanced := by
    intro g₁ free stored taken
    unfold Globals.PoolBalanced at balanced ⊢
    rw [free, Globals.storedCount_congr stored, Globals.receivedCount_congr taken]
    exact balanced
  cases transfer with
  | keeps same => exact same.poolBalanced balanced
  | creates _ _ same | createFails _ same | deactivates _ same | frees _ same | releases _ _ same =>
    exact same.poolBalanced (elsewhere rfl rfl rfl)
  | @stores _ _ m msg _ _ storable same =>
    refine same.poolBalanced ?_
    have more := Globals.storedCount_update (Globals.storeMessage_stored g m msg)
    have received := Globals.receivedCount_congr (Globals.storeMessage_taken g m msg)
    have free := storable.free
    unfold Globals.PoolBalanced at balanced ⊢
    rw [more, received, Globals.storeMessage_freeSlotCount, ← balanced]
    generalize g.freeSlotCount = count at free ⊢
    omega
  | @rejects _ _ _ m buffer _ _ _ _ same =>
    refine same.poolBalanced ?_
    have none := Globals.receivedCount_update (Globals.dequeueSlot_taken g m ⟨buffer.msg_max_size, -1, []⟩)
    rw [if_neg (by simp [Delivery.returnsSlot])] at none
    have stored := Globals.storedCount_congr (Globals.dequeueSlot_stored g m ⟨buffer.msg_max_size, -1, []⟩)
    unfold Globals.PoolBalanced at balanced ⊢
    rw [none, stored, Globals.dequeueSlot_freeSlotCount, balanced, Nat.add_zero]
  | @takes _ _ _ m buffer _ _ _ _ same =>
    refine same.poolBalanced ?_
    have one := Globals.receivedCount_update (Globals.dequeueSlot_taken g m ⟨buffer.msg_max_size, g.received m⟩)
    have returns : Delivery.returnsSlot ⟨buffer.msg_max_size, g.received m⟩ = true := by
      simp [Delivery.returnsSlot, Globals.received]
    rw [if_pos returns] at one
    have freed := Globals.receivedCount_congr
      (Globals.freeSlot_taken (g.dequeueSlot m ⟨buffer.msg_max_size, g.received m⟩) (g.headSlot m))
    have unfreed := Globals.storedCount_congr
      (Globals.freeSlot_stored (g.dequeueSlot m ⟨buffer.msg_max_size, g.received m⟩) (g.headSlot m))
    have stored := Globals.storedCount_congr (Globals.dequeueSlot_stored g m ⟨buffer.msg_max_size, g.received m⟩)
    unfold Globals.PoolBalanced at balanced ⊢
    rw [freed, unfreed, one, stored, Globals.freeSlot_freeSlotCount, Globals.dequeueSlot_freeSlotCount,
      ← Nat.add_assoc, ← balanced]
    exact Nat.add_right_comm ..

theorem phase2Init_poolBalanced : phase2Init.PoolBalanced := by
  unfold Globals.PoolBalanced Globals.storedCount Globals.receivedCount
  rw [phase2Init_eq]
  have stored : totalHoldings (fun m => ((phase2Tables.createMailbox 6 1 4).stored m).length) = 0 :=
    totalHoldings.eq_zero fun _ => rfl
  have taken : totalHoldings (fun m => ((phase2Tables.createMailbox 6 1 4).taken m).countP Delivery.returnsSlot) = 0 :=
    totalHoldings.eq_zero fun _ => rfl
  rw [stored, taken]
  rfl

/-- The store is undefined for want of a slot only where there is none. -/
theorem storeAndWake_underflow {g : Globals} {m : MboxId} {msg : Message} {k : Cont}
    (underflow : (storeAndWake g m msg k).2 = .faults .slotUnderflow) : g.freeSlotCount = 0 := by
  unfold storeAndWake at underflow
  split at underflow
  · assumption
  split at underflow
  · cases underflow
  split at underflow
  · cases underflow
  split at underflow
  · unfold wakeupConsumer at underflow
    split at underflow <;> cases underflow
  · cases underflow

theorem takeAndWake_no_underflow {g : Globals} {m : MboxId} {buffer : Buffer} {k : Result → Cont} :
    (takeAndWake g m buffer k).2 ≠ .faults .slotUnderflow := by
  intro underflow
  unfold takeAndWake at underflow
  simp only at underflow
  split at underflow
  · cases underflow
  split at underflow
  · cases underflow
  split at underflow
  · cases underflow
  split at underflow
  · cases underflow
  unfold wakeupProducer at underflow
  split at underflow <;> cases underflow

/-- From a point that stores a message the code goes on as all stores do. -/
theorem StorePoint.exec {g : Globals} {pt : Point} {m : MboxId} {msg : Message} {k : Cont}
    (at_ : StorePoint g pt m msg k) (p : Pid) : pt.exec g p = storeAndWake g m msg k := by
  cases at_ with
  | send active accepted slots free room =>
    have found := Globals.activeMbox_eq_some.mpr ⟨rfl, active⟩
    simp only [Point.exec, Call.start, mboxSend, found, accepted, slots, free, mboxSendLoop]
    simp [Nat.not_le.mpr room]
  | resumed active room =>
    have leaves : ¬ ((g.mailboxes m).numSlots ≤ (g.mailboxSlotQueues m).count ∧ 0 < (g.mailboxes m).numSlots) := by
      omega
    simp only [Point.exec, Wait.resume, active, mboxSendLoop, if_neg leaves]
    rfl
  | condSend active accepted free room =>
    have found := Globals.activeMbox_eq_some.mpr ⟨rfl, active⟩
    simp only [Point.exec, Call.start, mboxCondSend, found, accepted]
    simp [free, Nat.not_le.mpr room]

theorem TakePoint.exec {g g₀ : Globals} {pt : Point} {m : MboxId} {buffer : Buffer} {k : Result → Cont}
    (at_ : TakePoint g pt g₀ m buffer k) (p : Pid) : pt.exec g p = takeAndWake g₀ m buffer k := by
  cases at_ with
  | recv active size slots occupied =>
    have found := Globals.activeMbox_eq_some.mpr ⟨rfl, active⟩
    simp only [Point.exec, Call.start, mboxRecv, found, slots, occupied, if_neg (Int.not_lt.mpr size), if_false]
  | resumed active occupied =>
    simp only [Point.exec, Wait.resume, active, occupied, if_false]
    rfl
  | condRecv active size occupied =>
    have found := Globals.activeMbox_eq_some.mpr ⟨rfl, active⟩
    simp only [Point.exec, Call.start, mboxCondRecv, found, occupied, if_neg (Int.not_lt.mpr size), if_false]

/-- Only a sender that was suspended can find the pool empty where it takes a
slot: the others have just tested it. -/
theorem Point.exec_underflow {g : Globals} {p : Pid} {pt : Point}
    (underflow : (pt.exec g p).2 = .faults .slotUnderflow) :
    g.freeSlotCount = 0 ∧ ∃ m msg, pt = .afterBlock (.sendFull m msg) ∧ StorePoint g pt m msg (.sendStored m) := by
  have path := pt.exec_path g p
  generalize atSeg : pt.exec g p = seg at underflow path
  obtain ⟨g', outcome⟩ := seg
  obtain rfl : outcome = _ := underflow
  cases path with
  | takeFaults at_ =>
    have faults := congrArg Prod.snd ((at_.exec p).symm.trans atSeg)
    exact (takeAndWake_no_underflow faults).elim
  | storeFaults at_ =>
    have empty := storeAndWake_underflow (congrArg Prod.snd ((at_.exec p).symm.trans atSeg))
    refine ⟨empty, ?_⟩
    cases at_ with
    | send _ _ _ free | condSend _ _ free => exact (free empty).elim
    | resumed active room => exact ⟨_, _, rfl, .resumed active room⟩

namespace Sys

/-- A sender that was suspended and finds room on resuming does so while fewer
than `MAXSLOTS` messages are stored and not received. -/
def ResumesWithSlot (s : Sys) (a : Act) : Prop :=
  ∀ p m msg, a = .resume p → s.proc p = .woken (.sendFull m msg) →
    StorePoint s.globals (.afterBlock (.sendFull m msg)) m msg (.sendStored m) →
    s.globals.storedCount < maxSlots + s.globals.receivedCount

theorem poolBalanced_of_run {guard : Sys → Act → Prop} {s : Sys} (run : Transition.Run Sys.step guard boot s) :
    s.globals.PoolBalanced := by
  refine run.invariant (fun s => s.globals.PoolBalanced) phase2Init_poolBalanced ?_
  intro before _ after balanced _ moves
  rcases step_transfer moves with same | ⟨_, _, transfer⟩
  · rw [same]
    exact balanced
  · exact transfer.poolBalanced balanced

/-- A slot is free as long as fewer than `MAXSLOTS` messages are on the way. -/
theorem free_of_outstanding {g : Globals} (balanced : g.PoolBalanced)
    (fewer : g.storedCount < maxSlots + g.receivedCount) : 1 ≤ g.freeSlotCount := by
  unfold Globals.PoolBalanced at balanced
  omega

theorem ResumesWithSlot.free {s : Sys} {a : Act} {m : MboxId} (resumes : s.ResumesWithSlot a)
    (balanced : s.globals.PoolBalanced) (stores : s.StoresInto a m) : 1 ≤ s.globals.freeSlotCount := by
  obtain ⟨pt, msg, k, ⟨p, rfl, here⟩, at_⟩ := stores
  cases at_ with
  | send _ _ _ free | condSend _ _ free => exact Nat.pos_of_ne_zero free
  | resumed active room =>
    exact free_of_outstanding balanced (resumes p m msg rfl here.woken_eq (.resumed active room))

/-- What a stretch of code leaves the system stopped by. -/
theorem after_fault (s : Sys) (p : Pid) (pt : Point) (seg : Segment) :
    (s.after p pt seg).fault = s.fault ∨ ∃ f, seg.2 = .faults f ∧ (s.after p pt seg).fault = some f := by
  have entered : (s.enter p pt).fault = s.fault := by cases pt <;> rfl
  obtain ⟨g, outcome⟩ := seg
  cases outcome with
  | returns | blocks | unblocks => exact .inl entered
  | faults f => exact .inr ⟨f, rfl, rfl⟩

/-- The stack of free slots does not underflow in any run whose resumed
senders find a slot left, and never overflows. -/
theorem free_slots_suffice {s : Sys} (run : Transition.Run Sys.step ResumesWithSlot boot s) :
    s.globals.freeSlotCount ≤ maxSlots ∧ s.fault ≠ some .slotUnderflow ∧
      ∀ a m, s.ResumesWithSlot a → s.StoresInto a m → 1 ≤ s.globals.freeSlotCount := by
  have balanced := poolBalanced_of_run run
  refine ⟨?_, ?_, fun a m resumes stores => resumes.free balanced stores⟩
  · have held := Multiset.card_le_card (sound_of_run run).held_le
    rw [card_allSlots, Globals.heldSlots, Multiset.card_add, Multiset.coe_card, Globals.freeSlots,
      stackList.length] at held
    omega
  · refine run.invariant_above (fun _ => poolBalanced_of_run) (fun s => s.fault ≠ some .slotUnderflow)
      (by simp [boot]) ?_
    intro before a after balanced sound resumes moves
    cases step_move moves with
    | @segment p pt _ here =>
      unfold Sys.run
      rcases after_fault before p pt (pt.exec before.globals p) with same | ⟨f, faults, stops⟩
      · rwa [same]
      · rw [stops]
        rintro ⟨rfl⟩
        obtain ⟨empty, m, msg, rfl, at_⟩ := Point.exec_underflow faults
        have free := resumes.free balanced ⟨_, _, _, ⟨p, rfl, here⟩, at_⟩
        omega
    | idle => exact sound

/-- A sender waits until a receiver makes room. -/
def senderResumed : List Act :=
  [.call 1 (.create 1 50 true), .call 1 (.send 7 (some [65]) 1), .call 1 (.send 7 (some [66]) 1),
    .call 2 (.recv 7 ⟨true, 50⟩), .resume 2, .yield 2]

/-- Among these actions there are resumed senders only while a slot is free. -/
def testResumesWithSlot (s : Sys) (_ : Act) : Bool :=
  0 < s.globals.freeSlotCount

theorem ResumesWithSlot.of_test {s : Sys} {a : Act} (balanced : s.globals.PoolBalanced)
    (admitted : s.testResumesWithSlot a = true) : s.ResumesWithSlot a := by
  intro p m msg _ _ _
  have free : 0 < s.globals.freeSlotCount := of_decide_eq_true admitted
  unfold Globals.PoolBalanced at balanced
  omega

theorem free_slots_suffice_run : ∃ s, Transition.Run Sys.step ResumesWithSlot boot s ∧ s.StoresInto (.resume 1) 7 ∧
    1 ≤ s.globals.freeSlotCount := by
  obtain ⟨s, reaches, done⟩ := exists_reaches senderResumed
    (fun s => s.proc 1 = .woken (.sendFull 7 [66]) && (s.globals.mailboxes 7).isActive &&
      (s.globals.mailboxSlotQueues 7).count < (s.globals.mailboxes 7).numSlots && 0 < s.globals.freeSlotCount)
    (by decide +kernel)
  simp only [Bool.and_eq_true, decide_eq_true_eq] at done
  obtain ⟨⟨⟨woken, active⟩, room⟩, free⟩ := done
  have passes : (Transition.execute Sys.step testResumesWithSlot boot senderResumed).isSome = true := by decide +kernel
  obtain ⟨finish, executed⟩ := Option.isSome_iff_exists.mp passes
  obtain rfl : finish = s := Option.some.inj ((Transition.execute_admitting executed).symm.trans reaches)
  have run : Transition.Run Sys.step ResumesWithSlot boot finish :=
    ((Transition.Run.of_executed executed).with_known fun _ => poolBalanced_of_run).mono
      fun _ _ both => .of_test both.1 both.2.1
  have here : (finish.proc 1).At (.afterBlock (.sendFull 7 [66])) := by rw [woken]; exact .afterBlock
  have stores : finish.StoresInto (.resume 1) 7 :=
    ⟨_, [66], _, ⟨1, rfl, here⟩, .resumed active (.inl room)⟩
  have resumes : finish.ResumesWithSlot (.resume 1) :=
    .of_test (poolBalanced_of_run run) (by simpa [testResumesWithSlot] using free)
  exact ⟨finish, run, stores, (free_slots_suffice run).2.2 _ _ resumes stores⟩

/-- `n` messages sent to `d` by `q`. -/
def fills (q : Pid) (d : MboxId) (n : Nat) : List Act :=
  List.replicate n (.call q (.send (d : Nat) (some [65]) 1))

/-- What it takes for `q` to send them without waiting. -/
structure Filling (q : Pid) (d : MboxId) (s : Sys) (n : Nat) : Prop where
  may : s.mayRun q = true
  out : s.proc q = .outside
  active : (s.globals.mailboxes d).isActive = true
  slotSize : 0 < (s.globals.mailboxes d).slotSize
  slots : (s.globals.mailboxes d).numSlots = maxSlots
  alone : (s.globals.mailboxes d).consumers = none
  allocated : (s.globals.mailboxSlotQueues d).queue ≠ none
  capacity : (s.globals.mailboxSlotQueues d).capacity ≠ 0
  free : n ≤ s.globals.freeSlotCount
  room : (s.globals.mailboxSlotQueues d).count + n ≤ maxSlots

variable {s : Sys} {n : Nat} {q : Pid} {d : MboxId}

theorem Filling.send (filling : s.Filling q d (n + 1)) :
    s.step (.call q (.send (d : Nat) (some [65]) 1)) = some
      (s.after q (.start (.send (d : Nat) (some [65]) 1)) (returnCode (s.globals.storeMessage d [65]) 0)) := by
  have free := filling.free
  have room := filling.room
  have slots := filling.slots
  have size := filling.slotSize
  have accepted : s.globals.accepts d (some [65]) 1 = true := by simp [Globals.accepts]; omega
  have at_ : StorePoint s.globals (.start (.send (d : Nat) (some [65]) 1)) d (bytesAt (some [65]) 1) (.sendStored d) :=
    .send filling.active accepted (by rw [slots]; decide) (by omega) (by omega)
  have storable : Storable s.globals d := ⟨by omega, filling.allocated, Nat.pos_of_ne_zero filling.capacity⟩
  have exec := (at_.exec q).trans (storeAndWake_stores storable filling.alone [65] _)
  simp only [step, filling.may, filling.out, and_self, if_true, run, exec]

theorem Filling.filled (filling : s.Filling q d n) : ∃ s',
    Transition.execute Sys.step (fun _ _ => true) s (fills q d n) = some s' ∧ s'.mayRun q = true ∧
    s'.proc = s.proc ∧ s'.globals.mailboxes = s.globals.mailboxes ∧
    (∀ m, m ≠ d → s'.globals.mailboxSlotQueues m = s.globals.mailboxSlotQueues m) ∧
    s'.globals.freeSlotCount = s.globals.freeSlotCount - n := by
  induction n generalizing s with
  | zero => exact ⟨s, rfl, filling.may, rfl, rfl, fun _ _ => rfl, rfl⟩
  | succ n ih =>
    have free := filling.free
    have room := filling.room
    have may := filling.may
    have moves := filling.send
    have outside : (s.after q (.start (.send (d : Nat) (some [65]) 1))
        (returnCode (s.globals.storeMessage d [65]) 0)).proc = s.proc := by
      simp only [after, settle, returnCode, enter_proc, ← filling.out, Function.update_eq_self]
    have stays : (s.after q (.start (.send (d : Nat) (some [65]) 1))
        (returnCode (s.globals.storeMessage d [65]) 0)).mayRun q = true := by
      simp only [mayRun, Bool.and_eq_true] at may ⊢
      exact ⟨may.1, by simp [after, settle, returnCode]⟩
    generalize atNext : s.after q (.start (.send (d : Nat) (some [65]) 1))
      (returnCode (s.globals.storeMessage d [65]) 0) = next at moves outside stays
    have globals : next.globals = s.globals.storeMessage d [65] := by
      rw [← atNext]
      rfl
    have filling' : next.Filling q d n := by
      refine ⟨stays, by rw [outside, filling.out], ?_, ?_, ?_, ?_, ?_, ?_, ?_, ?_⟩ <;> rw [globals]
      · exact filling.active
      · exact filling.slotSize
      · exact filling.slots
      · exact filling.alone
      · simpa [SlotQueue.enqueue] using filling.allocated
      · simpa [SlotQueue.enqueue] using filling.capacity
      · rw [Globals.storeMessage_freeSlotCount]
        omega
      · rw [Globals.storeMessage_mailboxSlotQueues, Function.update_self]
        simp only [SlotQueue.enqueue]
        omega
    obtain ⟨s', executed, may', proc, mailboxes, rings, count⟩ := ih filling'
    refine ⟨s', ?_, may', proc.trans outside, by rw [mailboxes, globals]; rfl, fun m other => ?_, ?_⟩
    · simp only [fills, List.replicate_succ, Transition.execute, if_true, moves, Option.bind_some]
      exact executed
    · rw [rings m other, globals, Globals.storeMessage_mailboxSlotQueues]
      exact Function.update_of_ne other _ _
    · rw [count, globals, Globals.storeMessage_freeSlotCount]
      omega

/-- A sender is woken, and before it resumes the pool is used up by messages to
another mailbox. -/
def poolDrained : List Act :=
  senderResumed ++ [.call 2 (.create 2500 50 true)] ++ fills 2 8 2500 ++ [.yield 2]

theorem free_slots_underflow : ∃ s s', Reaches poolDrained s ∧ s.proc 1 = .woken (.sendFull 7 [66]) ∧
    s.StoresInto (.resume 1) 7 ∧ s.globals.freeSlotCount = 0 ∧ s.step (.resume 1) = some s' ∧
    s'.fault = some .slotUnderflow := by
  obtain ⟨s₁, reaches, ready⟩ := exists_reaches (senderResumed ++ [.call 2 (.create 2500 50 true)])
    (fun s => s.mayRun 2 && s.proc 2 = .outside && s.proc 1 = .woken (.sendFull 7 [66]) &&
      (s.globals.mailboxes 7).isActive && (s.globals.mailboxes 7).numSlots = 1 &&
      (s.globals.mailboxSlotQueues 7).count = 0 && (s.globals.mailboxes 8).isActive &&
      (s.globals.mailboxes 8).slotSize = 50 && (s.globals.mailboxes 8).numSlots = maxSlots &&
      (s.globals.mailboxes 8).consumers = none && (s.globals.mailboxSlotQueues 8).queue.isSome &&
      (s.globals.mailboxSlotQueues 8).capacity ≠ 0 && s.globals.freeSlotCount = maxSlots &&
      (s.globals.mailboxSlotQueues 8).count = 0) (by decide +kernel)
  simp only [Bool.and_eq_true, decide_eq_true_eq] at ready
  obtain ⟨⟨⟨⟨⟨⟨⟨⟨⟨⟨⟨⟨⟨may, out⟩, woken⟩, active⟩, one⟩, empty⟩, active₈⟩, size⟩, slots⟩, alone⟩, allocated⟩, capacity⟩,
    free⟩, room⟩ := ready
  have filling : s₁.Filling 2 8 2500 :=
    ⟨may, out, active₈, by rw [size]; decide, slots, alone, Option.isSome_iff_ne_none.mp allocated, capacity, free.ge,
      by rw [room]; decide⟩
  obtain ⟨s₂, sent, may₂, proc, mailboxes, rings, count⟩ := filling.filled
  have ring := rings 7 (by decide)
  have lives : s₂.fault.isNone = true := by
    simp only [mayRun, Bool.and_eq_true] at may₂
    exact may₂.1
  have yields : s₂.step (.yield 2) = some { s₂ with cpu := none } :=
    if_pos ⟨may₂, by rw [proc, out]⟩
  have drained : s₂.globals.freeSlotCount = 0 := by
    rw [count, free]
    rfl
  have filled : Transition.execute Sys.step (fun _ _ => true) boot
      (senderResumed ++ [.call 2 (.create 2500 50 true)] ++ fills 2 8 2500) = some s₂ :=
    Transition.execute_append.mpr ⟨s₁, reaches, sent⟩
  have at_ : StorePoint s₂.globals (.afterBlock (.sendFull 7 [66])) 7 [66] (.sendStored 7) :=
    .resumed (by rw [mailboxes, active]) (.inl (by rw [mailboxes, ring, one, empty]; exact Nat.one_pos))
  have woken₂ : s₂.proc 1 = .woken (.sendFull 7 [66]) := by rw [proc, woken]
  have here : (s₂.proc 1).At (.afterBlock (.sendFull 7 [66])) := by rw [woken₂]; exact .afterBlock
  have faults : storeAndWake s₂.globals 7 [66] (.sendStored 7) = (s₂.globals, .faults .slotUnderflow) := if_pos drained
  refine ⟨{ s₂ with cpu := none }, { s₂ with cpu := none, fault := some .slotUnderflow },
    Transition.execute_concat.mpr ⟨s₂, filled, yields⟩, woken₂, ⟨_, _, _, ⟨1, rfl, here⟩, at_⟩, drained, ?_, rfl⟩
  have may₁ : ({ s₂ with cpu := none } : Sys).mayRun 1 = true := by simpa [mayRun] using lives
  simp only [step, may₁, if_true, woken₂, run, at_.exec, faults]
  rfl

end Sys

end UslossKernel
