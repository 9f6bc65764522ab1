import UslossKernel.WaitingLists

namespace UslossKernel

theorem Wait.sendsTo_of_receivesFrom {w : Wait} {m : MboxId} (n : MboxId) (kind : w.receivesFrom m = true) :
    w.sendsTo n = false := by
  cases w <;> first | rfl | cases kind

theorem Wait.receivesFrom_of_sendsTo {w : Wait} {m : MboxId} (n : MboxId) (kind : w.sendsTo m = true) :
    w.receivesFrom n = false := by
  cases w <;> first | rfl | cases kind

theorem Wait.sendsTo_of_ne {w : Wait} {m n : MboxId} (away : n ≠ m) (kind : w.sendsTo m = true) :
    w.sendsTo n = false := by
  cases w <;> simp_all [Wait.sendsTo, Ne.symm away]

theorem Wait.receivesFrom_of_ne {w : Wait} {m n : MboxId} (away : n ≠ m) (kind : w.receivesFrom m = true) :
    w.receivesFrom n = false := by
  cases w <;> simp_all [Wait.receivesFrom, Ne.symm away]

namespace Sys

/-- The action begins a send on the zero-slot mailbox `m` that passes the checks. -/
def SendsToZeroSlot (s : Sys) (a : Act) (m : MboxId) : Prop :=
  ∃ msg_ptr msg_size, s.RunsFrom a (.start (.send (m : Nat) msg_ptr msg_size)) ∧
    (s.globals.mailboxes m).isActive = true ∧ s.globals.accepts m msg_ptr msg_size = true ∧
    (s.globals.mailboxes m).numSlots = 0

/-- The action begins a receive on the zero-slot mailbox `m` that passes the checks. -/
def ReceivesFromZeroSlot (s : Sys) (a : Act) (m : MboxId) : Prop :=
  ∃ buffer : Buffer, s.RunsFrom a (.start (.recv (m : Nat) buffer)) ∧
    (s.globals.mailboxes m).isActive = true ∧ 0 ≤ buffer.msg_max_size ∧ (s.globals.mailboxes m).numSlots = 0

/-- Nothing is released. A send on a zero-slot mailbox finds the pointer
naming a suspended receiver, or `NULL` while there is none, and a receive finds
the array empty only while no sender is suspended. -/
structure PairsUp (s : Sys) (a : Act) : Prop where
  unreleased : ∀ m, Unreleased m s a
  pointer : ∀ m, s.SendsToZeroSlot a m → ∀ entry, (s.globals.mailboxes m).consumers = some entry →
    s.SuspendedRecv m (s.globals.shadowProcesses entry)
  null : ∀ m, s.SendsToZeroSlot a m → (s.globals.mailboxes m).consumers = none → ∀ q, ¬ s.SuspendedRecv m q
  array : ∀ m, s.ReceivesFromZeroSlot a m → s.globals.blockedProducers m = [] → ∀ q, ¬ s.SuspendedSend m q

/-- All recorded pids are those of suspended processes; the receivers of a
zero-slot mailbox are recorded but never removed. -/
structure ListsSound (s : Sys) : Prop where
  producers : ∀ m, s.Recorded (Wait.sendsTo m) (s.globals.blockedProducers m)
  consumers : ∀ m, ¬ ((s.globals.mailboxes m).isActive = true ∧ (s.globals.mailboxes m).numSlots = 0) →
    s.Recorded (Wait.receivesFrom m) (s.globals.blockedConsumers m)

theorem lasting_all {guard : Sys → Act → Prop} (unreleased : ∀ s a, guard s a → ∀ m, Unreleased m s a) {s : Sys}
    (run : Transition.Run Sys.step guard boot s) (m : MboxId) : s.Lasting m :=
  lasting_of_run (run.mono fun s a admitted => unreleased s a admitted m)

variable {s : Sys} {p : Pid} {pt : Point} {seg : Segment}

theorem no_release (lasting : ∀ m, s.Lasting m) (unreleased : ∀ m, Unreleased m s (pt.act p))
    (here : (s.proc p).At pt) (g₀ : Globals) (m : MboxId) (stage : Stage) : ¬ ReleaseAt s.globals pt g₀ m stage :=
  fun at_ => at_.away here ((lasting m).2 p) (unreleased m).point rfl

theorem ListsSound.after (sound : s.ListsSound) (lasting : ∀ m, s.Lasting m) (pairs : s.PairsUp (pt.act p))
    (here : (s.proc p).At pt) (path : Path s.globals p pt seg) (lives : ∀ f, seg.2 ≠ .faults f) :
    (s.after p pt seg).ListsSound := by
  have before : ∀ m, ¬ ((seg.1.mailboxes m).isActive = true ∧ (seg.1.mailboxes m).numSlots = 0) →
      s.Recorded (Wait.receivesFrom m) (s.globals.blockedConsumers m) := by
    refine fun m kind => sound.consumers m fun ⟨active, zero⟩ => kind ?_
    obtain ⟨still, same⟩ := path.transfer.status active (pairs.unreleased m).point
    exact ⟨still, same.trans zero⟩
  have slots : ∀ pid k, seg.2 = .unblocks pid k → k = .sendStored k.mbox ∨ k = .condSendStored k.mbox →
      ¬ ((s.globals.mailboxes k.mbox).isActive = true ∧ (s.globals.mailboxes k.mbox).numSlots = 0) := by
    intro pid k names stored zero
    have fits := path.fits here ((lasting k.mbox).2 p) (lasting k.mbox).1 (pairs.unreleased k.mbox).point
    rw [names] at fits
    have fits := fits rfl
    rcases stored with stored | stored <;> rw [stored] at fits <;> exact fits.2 zero.2
  have queueing := path.queueing lives (no_release lasting pairs.unreleased here)
  have globals : (s.after p pt seg).globals = seg.1 := after_globals lives
  cases queueing with
  | returns producers consumers =>
    refine ⟨fun n => ?_, fun n kind => ?_⟩ <;> rw [globals] at *
    · rw [producers]
      exact (sound.producers n).after here (by rintro _ _ ⟨⟩)
    · rw [consumers]
      exact (before n kind).after here (by rintro _ _ ⟨⟩)
  | @blocksSender _ w _ kind producers consumers pushed =>
    refine ⟨fun n => ?_, fun n mbox => ?_⟩ <;> rw [globals] at *
    · rw [producers]
      by_cases own : n = w.mbox
      · subst own
        rw [Function.update_self]
        exact (sound.producers _).push here kind pushed
      · rw [Function.update_of_ne own]
        exact (sound.producers n).after here (by rintro _ _ ⟨⟩)
    · rw [consumers]
      exact (before n mbox).after here (by rintro _ _ ⟨⟩)
  | @blocksReceiver _ w _ kind producers consumers pushed =>
    refine ⟨fun n => ?_, fun n mbox => ?_⟩ <;> rw [globals] at *
    · rw [producers]
      exact (sound.producers n).after here (by rintro _ _ ⟨⟩)
    · rw [consumers]
      have recorded := before n mbox
      by_cases own : n = w.mbox
      · subst own
        rw [Function.update_self]
        exact recorded.push here kind pushed
      · rw [Function.update_of_ne own]
        exact recorded.after here (by rintro _ _ ⟨⟩)
  | @followsPointer m msg_ptr msg_size entry atStart active accepted zero pointed =>
    subst atStart
    have suspended := pairs.pointer m ⟨msg_ptr, msg_size, ⟨p, rfl, here⟩, active, accepted, zero⟩ entry pointed
    refine ⟨fun n => ?_, fun n mbox => ?_⟩ <;> rw [globals] at *
    · refine (sound.producers n).after here ?_
      rintro _ _ ⟨⟩
      exact (sound.producers n).disjoint suspended fun w => Wait.sendsTo_of_receivesFrom n
    · have away : n ≠ m := by
        rintro rfl
        exact mbox ⟨active, zero⟩
      refine (before n mbox).after here ?_
      rintro _ _ ⟨⟩
      exact (before n mbox).disjoint suspended fun w => Wait.receivesFrom_of_ne away
  | @popsProducer _ m pid rest k recorded producers consumers _ =>
    have suspended : s.SuspendedSend m pid := (sound.producers m).suspended pid (by simp [recorded])
    refine ⟨fun n => ?_, fun n mbox => ?_⟩ <;> rw [globals] at *
    · rw [producers]
      by_cases own : n = m
      · subst own
        rw [Function.update_self]
        exact Recorded.pop (recorded ▸ sound.producers n) here
      · rw [Function.update_of_ne own]
        refine (sound.producers n).after here ?_
        rintro _ _ ⟨⟩
        exact (sound.producers n).disjoint suspended fun w => Wait.sendsTo_of_ne own
    · rw [consumers]
      refine (before n mbox).after here ?_
      rintro _ _ ⟨⟩
      exact (before n mbox).disjoint suspended fun w => Wait.receivesFrom_of_sendsTo n
  | @popsConsumer _ m pid rest k recorded producers consumers mbox stored =>
    subst mbox
    have receivers := sound.consumers _ (slots pid k rfl stored)
    rw [recorded] at receivers
    have suspended : s.SuspendedRecv k.mbox pid := receivers.suspended pid (by simp)
    refine ⟨fun n => ?_, fun n mbox => ?_⟩ <;> rw [globals] at *
    · rw [producers]
      refine (sound.producers n).after here ?_
      rintro _ _ ⟨⟩
      exact (sound.producers n).disjoint suspended fun w => Wait.sendsTo_of_receivesFrom n
    · rw [consumers]
      by_cases own : n = k.mbox
      · subst own
        rw [Function.update_self]
        exact receivers.pop here
      · rw [Function.update_of_ne own]
        refine (before n mbox).after here ?_
        rintro _ _ ⟨⟩
        exact (before n mbox).disjoint suspended fun w => Wait.receivesFrom_of_ne own

end Sys

end UslossKernel
