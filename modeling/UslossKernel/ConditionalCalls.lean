import UslossKernel.SlotOwnership

namespace UslossKernel

/-- Two ends of a stretch of code that do the same: they return the same code,
or wake the same process and go on alike whatever the tables are by then. -/
inductive Outcome.Alike : Outcome → Outcome → Prop
  | returns {r} : Alike (.returns r) (.returns r)
  | unblocks {pid k k'} : (∀ g : Globals, k.resume g = k'.resume g) → Alike (.unblocks pid k) (.unblocks pid k')
  | faults {f} : Alike (.faults f) (.faults f)

/-- What is asked of a conditional call next to the blocking one: it returns
-2 and changes nothing where that one comes to `blockMe`, and does the same
everywhere else. -/
def Globals.Agree (g : Globals) (blocking conditional : Segment) : Prop :=
  match blocking.2 with
  | .blocks _ => conditional = returnCode g (-2)
  | _ => conditional.1 = blocking.1 ∧ blocking.2.Alike conditional.2

/-- A send that passes its checks and meets a receiver on a zero-slot mailbox. -/
def Globals.MeetsReceiver (g : Globals) (mbox_id : Int) (msg_ptr : Option Message) (msg_size : Int) : Prop :=
  ∃ m, g.activeMbox mbox_id = some m ∧ g.accepts m msg_ptr msg_size = true ∧ (g.mailboxes m).numSlots = 0 ∧
    (g.mailboxes m).consumers ≠ none

/-- A receive that passes its checks and meets a sender on a zero-slot mailbox. -/
def Globals.MeetsSender (g : Globals) (mbox_id : Int) (buffer : Buffer) : Prop :=
  ∃ m, g.activeMbox mbox_id = some m ∧ 0 ≤ buffer.msg_max_size ∧ (g.mailboxes m).numSlots = 0 ∧
    g.blockedProducers m ≠ []

variable {g : Globals} {p : Pid} {mbox_id : Int} {m : MboxId} {msg_ptr : Option Message} {msg_size : Int}
  {buffer : Buffer}

theorem Outcome.Alike.refl (outcome : Outcome) (awake : ∀ w, outcome ≠ .blocks w) : outcome.Alike outcome := by
  cases outcome with
  | returns => exact .returns
  | blocks w => exact (awake w rfl).elim
  | unblocks => exact .unblocks fun _ => rfl
  | faults => exact .faults

theorem Globals.Agree.refl (seg : Segment) (awake : ∀ w, seg.2 ≠ .blocks w) : g.Agree seg seg := by
  have alike := Outcome.Alike.refl seg.2 awake
  unfold Agree
  split
  · rename_i w blocks
    exact (awake w blocks).elim
  · exact ⟨rfl, alike⟩

/-- Both sends store a message in the same way. -/
theorem storeAndWake_agree (g : Globals) (m : MboxId) (msg : Message) :
    g.Agree (storeAndWake g m msg (.sendStored m)) (storeAndWake g m msg (.condSendStored m)) := by
  unfold storeAndWake
  split
  · exact .refl _ (by simp)
  split
  · exact .refl _ (by simp)
  split
  · exact .refl _ (by simp)
  split
  · unfold wakeupConsumer
    split
    · exact .refl _ (by simp)
    · exact ⟨rfl, .unblocks fun _ => rfl⟩
  · exact .refl _ (by simp [returnCode])

/-- Both receives take a message in the same way. -/
theorem takeAndWake_agree (g : Globals) (m : MboxId) (buffer : Buffer) :
    g.Agree (takeAndWake g m buffer (.recvTaken m)) (takeAndWake g m buffer (.condRecvTaken m)) := by
  unfold takeAndWake
  simp only
  split
  · exact .refl _ (by simp)
  split
  · exact .refl _ (by simp)
  split
  · exact .refl _ (by simp [returnCode])
  split
  · exact .refl _ (by simp)
  unfold wakeupProducer
  split
  · exact .refl _ (by simp)
  · exact ⟨rfl, .unblocks fun _ => rfl⟩

theorem mboxSend_agree_slots (slots : (g.mailboxes m).numSlots ≠ 0) (found : g.activeMbox mbox_id = some m) :
    g.Agree (mboxSend g p mbox_id msg_ptr msg_size) (mboxCondSend g mbox_id msg_ptr msg_size) := by
  have active := (Globals.activeMbox_eq_some.mp found).2
  unfold mboxSend mboxCondSend
  rw [found]
  simp only [if_neg slots]
  split
  · exact .refl _ (by simp [returnCode])
  by_cases empty : g.freeSlotCount = 0
  · rw [if_pos empty, if_pos (.inl empty)]
    exact .refl _ (by simp [returnCode])
  rw [if_neg empty]
  unfold mboxSendLoop
  by_cases full : (g.mailboxes m).numSlots ≤ (g.mailboxSlotQueues m).count
  · rw [if_pos ⟨full, Nat.pos_of_ne_zero slots⟩, if_neg (by simp [active]), if_pos (.inr full)]
    exact rfl
  · rw [if_neg fun both => full both.1, if_neg (not_or.mpr ⟨empty, full⟩)]
    exact storeAndWake_agree ..

/-- On a mailbox without slots the conditional send never does anything. -/
theorem mboxSend_agree_zero (zero : (g.mailboxes m).numSlots = 0) (found : g.activeMbox mbox_id = some m) :
    g.Agree (mboxSend g p mbox_id msg_ptr msg_size) (mboxCondSend g mbox_id msg_ptr msg_size) ↔
      ¬ (g.accepts m msg_ptr msg_size = true ∧ (g.mailboxes m).consumers ≠ none) := by
  unfold mboxSend mboxCondSend
  rw [found]
  simp only [if_pos zero]
  split
  · rename_i refused
    exact iff_of_true (.refl _ (by simp [returnCode])) (by simp [refused])
  rename_i accepted
  rw [if_pos (.inr (zero ▸ Nat.zero_le _))]
  split
  · rename_i entry pointed
    refine iff_of_false ?_ (by simpa [pointed] using accepted)
    rintro ⟨_, alike⟩
    cases alike
  · rename_i null
    exact iff_of_true rfl (by simp [null])

theorem mboxRecv_agree_slots (slots : (g.mailboxes m).numSlots ≠ 0) (found : g.activeMbox mbox_id = some m) :
    g.Agree (mboxRecv g p mbox_id buffer) (mboxCondRecv g mbox_id buffer) := by
  unfold mboxRecv mboxCondRecv
  rw [found]
  simp only [if_neg slots]
  split
  · exact .refl _ (by simp [returnCode])
  split
  · exact rfl
  · exact takeAndWake_agree ..

/-- On a mailbox without slots the conditional receive finds no message. -/
theorem mboxRecv_agree_zero (sound : g.Sound) (zero : (g.mailboxes m).numSlots = 0)
    (found : g.activeMbox mbox_id = some m) : g.Agree (mboxRecv g p mbox_id buffer) (mboxCondRecv g mbox_id buffer) ↔
      ¬ (0 ≤ buffer.msg_max_size ∧ g.blockedProducers m ≠ []) := by
  have empty : (g.mailboxSlotQueues m).count = 0 := by
    have bounded := sound.count_le (Globals.activeMbox_eq_some.mp found).2
    omega
  unfold mboxRecv mboxCondRecv
  rw [found]
  simp only [if_pos zero, if_pos empty]
  split
  · rename_i negative
    exact iff_of_true (.refl _ (by simp [returnCode])) fun both => absurd both.1 (not_le.mpr negative)
  rename_i size
  split
  · rename_i none
    exact iff_of_true rfl (by simp [none])
  · rename_i recorded
    refine iff_of_false ?_ (not_not.mpr ⟨not_lt.mp size, by simp [recorded]⟩)
    rintro ⟨_, alike⟩
    cases alike

theorem mboxSend_agree_iff :
    g.Agree (mboxSend g p mbox_id msg_ptr msg_size) (mboxCondSend g mbox_id msg_ptr msg_size) ↔
      ¬ g.MeetsReceiver mbox_id msg_ptr msg_size := by
  unfold Globals.MeetsReceiver
  cases found : g.activeMbox mbox_id with
  | none =>
    unfold mboxSend mboxCondSend
    rw [found]
    exact iff_of_true (.refl _ (by simp [returnCode])) (by simp)
  | some m =>
    by_cases zero : (g.mailboxes m).numSlots = 0
    · rw [mboxSend_agree_zero zero found]
      simp [zero]
    · exact iff_of_true (mboxSend_agree_slots zero found) (by simp [zero])

theorem mboxRecv_agree_iff (sound : g.Sound) :
    g.Agree (mboxRecv g p mbox_id buffer) (mboxCondRecv g mbox_id buffer) ↔ ¬ g.MeetsSender mbox_id buffer := by
  unfold Globals.MeetsSender
  cases found : g.activeMbox mbox_id with
  | none =>
    unfold mboxRecv mboxCondRecv
    rw [found]
    exact iff_of_true (.refl _ (by simp [returnCode])) (by simp)
  | some m =>
    by_cases zero : (g.mailboxes m).numSlots = 0
    · rw [mboxRecv_agree_zero sound zero found]
      simp [zero]
    · exact iff_of_true (mboxRecv_agree_slots zero found) (by simp [zero])

namespace Sys

/-- In every reachable state and for all arguments, a conditional call agrees
with the blocking one unless that meets its partner on a zero-slot mailbox. -/
theorem conditional_agrees_iff {s : Sys} (run : Transition.Run Sys.step (fun _ _ => True) boot s) (p : Pid)
    (mbox_id : Int) (msg_ptr : Option Message) (msg_size : Int) (buffer : Buffer) :
    (s.globals.Agree (mboxSend s.globals p mbox_id msg_ptr msg_size)
        (mboxCondSend s.globals mbox_id msg_ptr msg_size) ↔ ¬ s.globals.MeetsReceiver mbox_id msg_ptr msg_size) ∧
      (s.globals.Agree (mboxRecv s.globals p mbox_id buffer) (mboxCondRecv s.globals mbox_id buffer) ↔
        ¬ s.globals.MeetsSender mbox_id buffer) :=
  ⟨mboxSend_agree_iff, mboxRecv_agree_iff (sound_of_run run)⟩

/-- A receiver waits on a mailbox without slots. -/
def zeroReceiverWaits : List Act :=
  [.call 1 (.create 0 0 true), .call 1 (.recv 7 ⟨false, 0⟩)]

theorem exists_zeroReceiverWaits : ∃ s, Transition.Run Sys.step (fun _ _ => True) boot s ∧
    (s.globals.mailboxes 7).isActive = true ∧ (s.globals.mailboxes 7).numSlots = 0 ∧
    (s.globals.mailboxes 7).slotSize = 0 ∧ (s.globals.mailboxes 7).consumers = some 1 := by
  obtain ⟨s, reaches, done⟩ := exists_reaches zeroReceiverWaits
    (fun s => (s.globals.mailboxes 7).isActive && (s.globals.mailboxes 7).numSlots = 0 &&
      (s.globals.mailboxes 7).slotSize = 0 && (s.globals.mailboxes 7).consumers = some 1) (by decide +kernel)
  simp only [Bool.and_eq_true, decide_eq_true_eq] at done
  obtain ⟨⟨⟨active, zero⟩, size⟩, pointed⟩ := done
  exact ⟨s, (Transition.Run.of_executed reaches).mono fun _ _ _ => trivial, active, zero, size, pointed⟩

/-- The conditional send disagrees there; a message the mailbox does not
accept both sends refuse. -/
theorem conditional_agrees_run : ∃ s, Transition.Run Sys.step (fun _ _ => True) boot s ∧
    (s.globals.mailboxes 7).consumers = some 1 ∧
    s.globals.Agree (mboxSend s.globals 2 7 none 1) (mboxCondSend s.globals 7 none 1) ∧
    ¬ s.globals.Agree (mboxSend s.globals 2 7 none 0) (mboxCondSend s.globals 7 none 0) := by
  obtain ⟨s, run, active, zero, size, pointed⟩ := exists_zeroReceiverWaits
  have found : s.globals.activeMbox 7 = some 7 := Globals.activeMbox_eq_some.mpr ⟨rfl, active⟩
  refine ⟨s, run, pointed, (conditional_agrees_iff run 2 7 none 1 ⟨false, 0⟩).1.mpr ?_, fun agree => ?_⟩
  · rintro ⟨m, found', accepted, _⟩
    obtain rfl := Option.some.inj (found.symm.trans found')
    simp [Globals.accepts, size] at accepted
  · exact (conditional_agrees_iff run 2 7 none 0 ⟨false, 0⟩).1.mp agree
      ⟨7, found, by simp [Globals.accepts, size], zero, by simp [pointed]⟩

/-- A conditional send returns -2 beside a waiting receiver that `MboxSend`
would wake. -/
theorem condSend_misses_receiver : ¬ ∀ s, Transition.Run Sys.step (fun _ _ => True) boot s →
    ∀ p mbox_id msg_ptr msg_size buffer,
      s.globals.Agree (mboxSend s.globals p mbox_id msg_ptr msg_size)
          (mboxCondSend s.globals mbox_id msg_ptr msg_size) ∧
        s.globals.Agree (mboxRecv s.globals p mbox_id buffer) (mboxCondRecv s.globals mbox_id buffer) := by
  intro agree
  obtain ⟨s, run, active, zero, size, pointed⟩ := exists_zeroReceiverWaits
  have found : s.globals.activeMbox 7 = some 7 := Globals.activeMbox_eq_some.mpr ⟨rfl, active⟩
  have both := (mboxSend_agree_zero zero found).mp (agree s run 2 7 none 0 ⟨false, 0⟩).1
  exact both ⟨by simp [Globals.accepts, size], by simp [pointed]⟩

end Sys

end UslossKernel
