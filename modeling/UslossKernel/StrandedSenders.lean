import UslossKernel.Lifetime
import UslossKernel.RingSteps

namespace UslossKernel

/-- A sender only blocks on a full mailbox. -/
theorem Path.blocks_sender {g : Globals} {p : Pid} {pt : Point} {seg : Segment} (path : Path g p pt seg)
    {m : MboxId} {w : Wait} (blocks : seg.2 = .blocks w) (kind : w.sendsTo m = true) :
    (seg.1.mailboxes m).numSlots ≤ (seg.1.mailboxSlotQueues m).count := by
  cases path <;> cases blocks
  case recvZeroBlocks | recvEmptyBlocks => cases kind
  case sendZeroBlocks n _ _ active _ zero _ =>
    obtain rfl : n = m := by simpa [Wait.sendsTo] using kind
    have same := Globals.awaitReceiver_sameMail g p n
    rw [same.numSlots, zero]
    exact Nat.zero_le _
  case sendFullBlocks n _ _ _ _ _ _ full =>
    obtain rfl : n = m := by simpa [Wait.sendsTo] using kind
    have same := Globals.recordSender_sameMail g p n
    rwa [same.numSlots, same.rings]
  case resumedFullBlocks n _ _ _ full =>
    obtain rfl : n = m := by simpa [Wait.sendsTo] using kind
    have same := Globals.recordSender_sameMail g p n
    rwa [same.numSlots, same.rings]

/-- A resumed sender stores its message unless it blocks again. -/
theorem Path.resumed_sender {g : Globals} {p : Pid} {pt : Point} {seg : Segment} (path : Path g p pt seg)
    (lives : ∀ f, seg.2 ≠ .faults f) {m : MboxId} {proc : Proc} (here : proc.At pt) (fits : proc.FitsAt g m)
    (resumes : pt.resumesIn (Wait.sendsTo m) = true) (unblocked : ¬ ∃ w, seg.2 = .blocks w ∧ w.sendsTo m = true) :
    (g.mailboxes m).numSlots = 0 ∨ (seg.1.mailboxSlotQueues m).count = (g.mailboxSlotQueues m).count + 1 := by
  obtain ⟨w, rfl, kind⟩ : ∃ w, pt = .afterBlock w ∧ w.sendsTo m = true := by
    cases pt <;> simp_all [Point.resumesIn]
  cases here
  have mbox := Wait.mbox_of_sendsTo kind
  obtain ⟨active, zero⟩ := fits mbox
  rw [mbox] at active zero
  cases path with
  | resumedFullBlocks => exact (unblocked ⟨_, rfl, kind⟩).elim
  | storeFaults | takeFaults => exact absurd rfl (lives _)
  | stores at_ | storesAndWakes at_ =>
    cases at_
    obtain rfl := mbox
    simp [Wait.mbox, returnCode, SlotQueue.enqueue]
  | resumedEmpty => cases kind
  | takeRejects at_ | takes at_ | takesAndWakes at_ => cases at_; cases kind
  | resumedInactive inactive =>
    rw [mbox, active] at inactive
    cases inactive
  | resumedZero same =>
    rcases same with rfl | rfl <;> exact .inl (zero.mp rfl)
  | releaseWakesProducer at_ | releaseWakesConsumer at_ | releaseWakesPointer at_ | releaseReturns at_ =>
    exact (ReleaseAt.not_afterBlock at_).elim

namespace Sys

/-- A receive that takes a message from `m` while a sender is suspended on it
has room for the message, and the first recorded pid is that of such a sender. -/
def WakesSender (m : MboxId) (s : Sys) (a : Act) : Prop :=
  Unreleased m s a ∧ ∀ buffer, s.TakesFrom a m buffer → (∃ q, s.SuspendedSend m q) →
    (s.globals.received m).ret ≤ buffer.msg_max_size ∧
      ∃ q, (s.globals.blockedProducers m).head? = some q ∧ s.SuspendedSend m q

/-- As long as senders are suspended, every free place in `m` has a sender on
the way that has been woken. -/
def SendersCovered (m : MboxId) : Sys → Prop :=
  Covered (Wait.sendsTo m) fun g n => (g.mailboxes m).numSlots ≤ (g.mailboxSlotQueues m).count + n

theorem SendersCovered.after {m : MboxId} {s : Sys} {p : Pid} {pt : Point} {seg : Segment}
    (covered : s.SendersCovered m) (lasting : s.Lasting m) (wakes : s.WakesSender m (pt.act p))
    (here : (s.proc p).At pt) (path : Path s.globals p pt seg) (lives : ∀ f, seg.2 ≠ .faults f) :
    (s.after p pt seg).SendersCovered m := by
  obtain ⟨n, counted, bound⟩ := covered
  obtain ⟨n', counted', left⟩ := woken_after seg here counted
  have point := wakes.1.point
  simp only [SendersCovered, Covered, after_globals lives] at bound ⊢
  by_cases blocks : ∃ w, seg.2 = .blocks w ∧ w.sendsTo m = true
  · obtain ⟨w, blocks, kind⟩ := blocks
    have full := path.blocks_sender blocks kind
    exact ⟨n', counted', fun _ => by omega⟩
  by_cases waiting : ∃ q, s.SuspendedSend m q
  swap
  · refine ⟨n', counted', ?_⟩
    rintro ⟨q, suspended⟩
    rcases blocked_after suspended with earlier | ⟨_, blocked⟩
    · exact (waiting ⟨q, earlier⟩).elim
    · exact (blocks blocked).elim
  have bound := bound waiting
  have active : (s.globals.mailboxes m).isActive = true := by
    obtain ⟨q, suspended⟩ := waiting
    obtain ⟨w, atW, kind⟩ := Proc.blockedIn_iff.mp suspended
    have fits := lasting.2 q
    rw [atW] at fits
    have mbox := Wait.mbox_of_sendsTo kind
    rw [← mbox]
    exact (fits mbox).1
  have slots := (path.transfer.status active point).2
  rw [slots]
  by_cases resumes : pt.resumesIn (Wait.sendsTo m) = true
  · rw [if_pos resumes] at left
    rcases path.resumed_sender lives here (lasting.2 p) resumes blocks with zero | more
    · exact ⟨n', counted', fun _ => by omega⟩
    · exact ⟨n', counted', fun _ => by omega⟩
  rw [if_neg resumes] at left
  rcases path.ring lives m with same | ⟨_, _, _, more, _⟩ | ⟨g₀, buffer, k, at_, less, woken⟩ | ⟨_, emptied⟩
  · exact ⟨n', counted', fun _ => by omega⟩
  · exact ⟨n', counted', fun _ => by omega⟩
  · obtain ⟨fits, q, first, suspended⟩ := wakes.2 buffer ⟨pt, g₀, k, ⟨p, rfl, here⟩, at_⟩ waiting
    rcases woken with small | none | ⟨pid, rest, recorded, wakes⟩
    · omega
    · simp [none] at first
    obtain rfl : pid = q := by simpa [recorded] using first
    obtain ⟨g, outcome⟩ := seg
    obtain rfl : outcome = .unblocks pid _ := wakes
    have exact' : Counts (s.after p pt (g, .unblocks pid (k (s.globals.received m)))).proc _ _ :=
      woken_unblocks here counted
    rw [if_neg resumes, if_pos suspended] at exact'
    refine ⟨_, exact', fun _ => ?_⟩
    have occupied := at_.occupied
    simp only at less ⊢
    omega
  · rcases emptied with created | ⟨g₀, ends⟩
    · exact absurd (active.symm.trans (Globals.firstInactive_spec created)) (by simp)
    · exact (ends.away here (lasting.2 p) point rfl).elim

/-- No sender is stranded in any run whose receives wake a suspended sender. -/
theorem no_stranded_sender {m : MboxId} {s : Sys} (run : Transition.Run Sys.step (WakesSender m) boot s)
    (settled : s.Settled) (room : (s.globals.mailboxSlotQueues m).count < (s.globals.mailboxes m).numSlots)
    (p : Pid) : ¬ s.SuspendedSend m p := by
  have lasting : ∀ s, Transition.Run Sys.step (WakesSender m) boot s → s.Lasting m :=
    fun _ run => lasting_of_run (run.mono fun _ _ wakes => wakes.1)
  have covered : s.SendersCovered m := by
    refine Covered.of_run run lasting ?_
    intro s p pt seg lasting covered wakes here path lives
    exact SendersCovered.after covered lasting wakes here path lives
  intro suspended
  have none := Covered.enough covered settled suspended
  omega

/-- A sender waits for room, is woken by a receive and stores its message,
which is received while nobody waits. -/
def senderServed : List Act :=
  [.call 1 (.create 1 50 true), .call 1 (.send 7 (some [65]) 1), .call 1 (.send 7 (some [66]) 1),
    .call 2 (.recv 7 ⟨true, 50⟩), .resume 1, .call 1 (.recv 7 ⟨true, 50⟩)]

/-- A test for `WakesSender` that these actions pass. -/
def testWakesSender (s : Sys) : Act → Bool
  | .call _ (.create ..) | .call _ (.send ..) => true
  | .call _ (.recv _ buffer) => (senderServed.all fun a => !(s.proc a.pid).blockedIn (Wait.sendsTo 7)) ||
      (s.globals.received 7).ret ≤ buffer.msg_max_size &&
        (s.globals.blockedProducers 7).head?.any fun q => (s.proc q).blockedIn (Wait.sendsTo 7)
  | .resume p => s.proc p = .woken (.sendFull 7 [66])
  | _ => false

theorem WakesSender.of_test (s : Sys) (a : Act) (within : s.Within senderServed)
    (admitted : s.testWakesSender a = true) : WakesSender 7 s a := by
  constructor
  · rintro p rfl
    cases admitted
  intro buffer takes waiting
  obtain ⟨r, waiting⟩ := waiting
  cases a with
  | call p c =>
    rcases takes.of_call with rfl | rfl
    · rcases Bool.or_eq_true_iff.mp admitted with nobody | somebody
      · exact (within.not_blocked nobody r waiting).elim
      simp only [Bool.and_eq_true, decide_eq_true_eq, Option.any_eq_true] at somebody
      obtain ⟨fits, q, first, suspended⟩ := somebody
      exact ⟨fits, q, first, suspended⟩
    · cases admitted
  | resume p =>
    obtain ⟨pt, g₀, k, here, at_⟩ := takes
    rcases here.of_resume with ⟨w, atW, rfl⟩ | ⟨k, atK, rfl⟩
    · simp only [testWakesSender, atW, decide_eq_true_eq, Proc.woken.injEq] at admitted
      cases admitted
      cases at_
    · cases at_
  | yield | sleep | rouse => cases admitted

theorem no_stranded_sender_run : ∃ s, Transition.Run Sys.step (WakesSender 7) boot s ∧
    (s.globals.mailboxSlotQueues 7).count = 0 ∧ s.returned (.recv 7) = [(1, ⟨1, [66]⟩)] ∧
    ¬ s.SuspendedSend 7 1 := by
  obtain ⟨s, reaches, done⟩ := exists_reaches senderServed
    (fun s => (s.globals.mailboxSlotQueues 7).count < (s.globals.mailboxes 7).numSlots &&
      (s.globals.mailboxSlotQueues 7).count = 0 && s.returned (.recv 7) = [(1, ⟨1, [66]⟩)] &&
      senderServed.all fun a => !(s.proc a.pid).wokenIn fun _ => true) (by decide +kernel)
  have run := reaches.run testWakesSender WakesSender.of_test (by decide +kernel)
  simp only [Bool.and_eq_true, decide_eq_true_eq] at done
  obtain ⟨⟨⟨room, empty⟩, got⟩, awake⟩ := done
  exact ⟨s, run, empty, got, no_stranded_sender run (reaches.settled awake) room 1⟩

/-- A message of two bytes and a sender waiting behind it; a receive into one
byte makes room and wakes nobody. -/
def rejectedWhileWaiting : List Act :=
  [.call 1 (.create 1 50 true), .call 1 (.send 7 (some [65, 66]) 2), .call 1 (.send 7 (some [67]) 1),
    .call 2 (.recv 7 ⟨true, 1⟩)]

theorem stranded_sender : ∃ s, Reaches rejectedWhileWaiting s ∧ s.Settled ∧
    (s.globals.mailboxes 7).isActive = true ∧ (s.globals.mailboxes 7).numSlots = 1 ∧
    (s.globals.mailboxSlotQueues 7).count = 0 ∧ s.SuspendedSend 7 1 := by
  obtain ⟨s, reaches, stuck⟩ := exists_reaches rejectedWhileWaiting
    (fun s => (rejectedWhileWaiting.all fun a => !(s.proc a.pid).wokenIn fun _ => true) &&
      (s.globals.mailboxes 7).isActive && (s.globals.mailboxes 7).numSlots = 1 &&
      (s.globals.mailboxSlotQueues 7).count = 0 && (s.proc 1).blockedIn (Wait.sendsTo 7)) (by decide +kernel)
  simp only [Bool.and_eq_true, decide_eq_true_eq] at stuck
  obtain ⟨⟨⟨⟨awake, active⟩, slots⟩, empty⟩, suspended⟩ := stuck
  exact ⟨s, reaches, reaches.settled awake, active, slots, empty, suspended⟩

end Sys

end UslossKernel
