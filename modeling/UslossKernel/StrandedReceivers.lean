import UslossKernel.Lifetime
import UslossKernel.RingSteps

namespace UslossKernel

theorem Path.blocks_receiver {g : Globals} {p : Pid} {pt : Point} {seg : Segment} (path : Path g p pt seg)
    {m : MboxId} {w : Wait} (blocks : seg.2 = .blocks w) (kind : w.receivesFrom m = true) (sound : g.Sound) :
    (seg.1.mailboxSlotQueues m).count = 0 := by
  cases path <;> cases blocks
  case sendZeroBlocks | sendFullBlocks | resumedFullBlocks => cases kind
  case recvZeroBlocks n _ active _ zero _ =>
    obtain rfl : n = m := by simpa [Wait.receivesFrom] using kind
    have bound := sound.count_le active
    simp only [(Globals.awaitMessage_sameMail ..).rings]
    omega
  case recvEmptyBlocks n _ active _ _ empty =>
    obtain rfl : n = m := by simpa [Wait.receivesFrom] using kind
    simpa only [(Globals.awaitMessage_sameMail ..).rings] using empty

/-- A resumed receiver takes a message unless there is none. -/
theorem Path.resumed_receiver {g : Globals} {p : Pid} {pt : Point} {seg : Segment} (path : Path g p pt seg)
    (lives : ∀ f, seg.2 ≠ .faults f) {m : MboxId} {proc : Proc} (here : proc.At pt) (fits : proc.FitsAt g m)
    (sound : g.Sound) (resumes : pt.resumesIn (Wait.receivesFrom m) = true) :
    (seg.1.mailboxSlotQueues m).count = (g.mailboxSlotQueues m).count - 1 := by
  obtain ⟨w, rfl, kind⟩ : ∃ w, pt = .afterBlock w ∧ w.receivesFrom m = true := by
    cases pt <;> simp_all [Point.resumesIn]
  cases here
  have mbox := Wait.mbox_of_receivesFrom kind
  obtain ⟨active, zero⟩ := fits mbox
  rw [mbox] at active zero
  have bound := sound.count_le active
  have taken : ∀ {g₀ n buffer k}, TakePoint g (.afterBlock w) g₀ n buffer k →
      (Function.update g₀.mailboxSlotQueues n (g₀.mailboxSlotQueues n).dequeue m).count =
        (g.mailboxSlotQueues m).count - 1 := by
    intro g₀ n buffer k at_
    cases at_
    obtain rfl : n = m := mbox
    simp [SlotQueue.dequeue]
  cases path with
  | resumedFullBlocks => cases kind
  | stores at_ | storesAndWakes at_ => cases at_; cases kind
  | storeFaults | takeFaults => exact absurd rfl (lives _)
  | resumedEmpty _ empty =>
    obtain rfl := mbox
    simp only [Wait.mbox] at empty ⊢
    simp [returnCode, empty]
  | takeRejects at_ | takes at_ | takesAndWakes at_ => exact taken at_
  | resumedInactive inactive =>
    rw [mbox, active] at inactive
    cases inactive
  | resumedZero same =>
    have empty : (g.mailboxes m).numSlots = 0 := by
      rcases same with rfl | rfl <;> exact zero.mp rfl
    simp only [returnCode]
    omega
  | releaseWakesProducer at_ | releaseWakesConsumer at_ | releaseWakesPointer at_ | releaseReturns at_ =>
    exact (ReleaseAt.not_afterBlock at_).elim

namespace Sys

/-- When a message is stored in `m` while a receiver is suspended on it, the
pointer is set and the first recorded pid is that of such a receiver. -/
def WakesReceiver (m : MboxId) (s : Sys) (a : Act) : Prop :=
  Unreleased m s a ∧ (s.StoresInto a m → (∃ q, s.SuspendedRecv m q) →
    (s.globals.mailboxes m).consumers ≠ none ∧
      ∃ q, (s.globals.blockedConsumers m).head? = some q ∧ s.SuspendedRecv m q)

/-- As long as receivers are suspended, every message in `m` has a receiver
on the way that has been woken. -/
def ReceiversCovered (m : MboxId) : Sys → Prop :=
  Covered (Wait.receivesFrom m) fun g n => (g.mailboxSlotQueues m).count ≤ n

theorem ReceiversCovered.after {m : MboxId} {s : Sys} {p : Pid} {pt : Point} {seg : Segment}
    (covered : s.ReceiversCovered m) (lasting : s.Lasting m) (wakes : s.WakesReceiver m (pt.act p))
    (here : (s.proc p).At pt) (path : Path s.globals p pt seg) (lives : ∀ f, seg.2 ≠ .faults f) :
    (s.after p pt seg).ReceiversCovered m := by
  obtain ⟨n, counted, bound⟩ := covered
  obtain ⟨n', counted', left⟩ := woken_after seg here counted
  simp only [ReceiversCovered, Covered, after_globals lives] at bound ⊢
  by_cases blocks : ∃ w, seg.2 = .blocks w ∧ w.receivesFrom m = true
  · obtain ⟨w, blocks, kind⟩ := blocks
    exact ⟨n', counted', fun _ => by rw [path.blocks_receiver blocks kind lasting.1]; exact Nat.zero_le _⟩
  have before : (∃ q, (s.after p pt seg).SuspendedRecv m q) → ∃ q, s.SuspendedRecv m q := by
    rintro ⟨q, suspended⟩
    rcases blocked_after suspended with earlier | ⟨_, blocked⟩
    · exact ⟨q, earlier⟩
    · exact (blocks blocked).elim
  by_cases resumes : pt.resumesIn (Wait.receivesFrom m) = true
  · refine ⟨n', counted', fun suspended => ?_⟩
    rw [path.resumed_receiver lives here (lasting.2 p) lasting.1 resumes]
    have enough := bound (before suspended)
    rw [if_pos resumes] at left
    omega
  rw [if_neg resumes] at left
  rcases path.ring lives m with same | ⟨msg, k, at_, more, woken⟩ | ⟨_, _, _, _, less, _⟩ | ⟨empty, _⟩
  · exact ⟨n', counted', fun suspended => by have enough := bound (before suspended); omega⟩
  · by_cases waiting : ∃ q, s.SuspendedRecv m q
    · obtain ⟨pointed, q, first, suspended⟩ := wakes.2 ⟨pt, msg, k, ⟨p, rfl, here⟩, at_⟩ waiting
      rcases woken with unwoken | ⟨pid, rest, _, recorded, wakes⟩
      · rcases unwoken with null | none
        · exact (pointed null).elim
        · simp [none] at first
      obtain rfl : pid = q := by simpa [recorded] using first
      obtain ⟨g, outcome⟩ := seg
      obtain rfl : outcome = .unblocks pid k := wakes
      have exact' : Counts (s.after p pt (g, .unblocks pid k)).proc _ _ := woken_unblocks here counted
      rw [if_neg resumes, if_pos suspended] at exact'
      refine ⟨_, exact', fun _ => ?_⟩
      have enough := bound waiting
      simp only at more ⊢
      omega
    · exact ⟨n', counted', fun suspended => (waiting (before suspended)).elim⟩
  · exact ⟨n', counted', fun suspended => by have enough := bound (before suspended); omega⟩
  · exact ⟨n', counted', fun _ => by omega⟩

/-- No receiver is stranded in any run whose stores wake a suspended receiver. -/
theorem no_stranded_receiver {m : MboxId} {s : Sys} (run : Transition.Run Sys.step (WakesReceiver m) boot s)
    (settled : s.Settled) (occupied : 0 < (s.globals.mailboxSlotQueues m).count) (p : Pid) :
    ¬ s.SuspendedRecv m p := by
  have lasting : ∀ s, Transition.Run Sys.step (WakesReceiver m) boot s → s.Lasting m :=
    fun _ run => lasting_of_run (run.mono fun _ _ wakes => wakes.1)
  have covered : s.ReceiversCovered m := by
    refine Covered.of_run run lasting ?_
    intro s p pt seg lasting covered wakes here path lives
    exact ReceiversCovered.after covered lasting wakes here path lives
  intro suspended
  have none := Covered.enough covered settled suspended
  omega

/-- A receiver waits and is sent a message; one more is sent while nobody waits. -/
def receiverServed : List Act :=
  [.call 1 (.create 5 50 true), .call 1 (.recv 7 ⟨true, 50⟩), .call 3 (.send 7 (some [65]) 1), .resume 1,
    .call 1 (.send 7 (some [66]) 1)]

/-- A test for `WakesReceiver` that these actions pass. -/
def testWakesReceiver (s : Sys) : Act → Bool
  | .call _ (.create ..) | .call _ (.recv ..) => true
  | .call _ (.send ..) => (receiverServed.all fun a => !(s.proc a.pid).blockedIn (Wait.receivesFrom 7)) ||
      (s.globals.mailboxes 7).consumers.isSome &&
        (s.globals.blockedConsumers 7).head?.any fun q => (s.proc q).blockedIn (Wait.receivesFrom 7)
  | .resume p => s.proc p = .woken (.recvEmpty 7 ⟨true, 50⟩)
  | _ => false

theorem WakesReceiver.of_test (s : Sys) (a : Act) (within : s.Within receiverServed)
    (admitted : s.testWakesReceiver a = true) : WakesReceiver 7 s a := by
  constructor
  · rintro p rfl
    cases admitted
  intro stores waiting
  obtain ⟨r, waiting⟩ := waiting
  cases a with
  | call p c =>
    rcases stores.of_call.2 with send | send <;> cases c <;> cases send
    · rcases Bool.or_eq_true_iff.mp admitted with nobody | somebody
      · exact (within.not_blocked nobody r waiting).elim
      simp only [Bool.and_eq_true, Option.any_eq_true] at somebody
      obtain ⟨pointed, q, first, suspended⟩ := somebody
      exact ⟨Option.isSome_iff_ne_none.mp pointed, q, first, suspended⟩
    · cases admitted
  | resume p =>
    obtain ⟨pt, msg, k, here, at_⟩ := stores
    rcases here.of_resume with ⟨w, atW, rfl⟩ | ⟨k, atK, rfl⟩
    · simp only [testWakesReceiver, atW, decide_eq_true_eq, Proc.woken.injEq] at admitted
      cases admitted
      cases at_
    · cases at_
  | yield | sleep | rouse => cases admitted

theorem no_stranded_receiver_run : ∃ s, Transition.Run Sys.step (WakesReceiver 7) boot s ∧
    (s.globals.mailboxSlotQueues 7).count = 1 ∧ s.returned (.recv 7) = [(0, ⟨1, [65]⟩)] ∧
    ¬ s.SuspendedRecv 7 1 := by
  obtain ⟨s, reaches, done⟩ := exists_reaches receiverServed
    (fun s => (s.globals.mailboxSlotQueues 7).count = 1 && s.returned (.recv 7) = [(0, ⟨1, [65]⟩)] &&
      receiverServed.all fun a => !(s.proc a.pid).wokenIn fun _ => true) (by decide +kernel)
  have run := reaches.run testWakesReceiver WakesReceiver.of_test (by decide +kernel)
  simp only [Bool.and_eq_true, decide_eq_true_eq] at done
  obtain ⟨⟨one, got⟩, awake⟩ := done
  exact ⟨s, run, one, got, no_stranded_receiver run (reaches.settled awake) (by omega) 1⟩

/-- Two receivers wait; the first one, resumed, clears the pointer, and the
next message wakes nobody. -/
def pointerCleared : List Act :=
  [.call 1 (.create 5 50 true), .call 1 (.recv 7 ⟨true, 50⟩), .call 2 (.recv 7 ⟨true, 50⟩),
    .call 3 (.send 7 (some [65]) 1), .resume 1, .call 1 (.send 7 (some [66]) 1)]

theorem stranded_receiver : ∃ s, Reaches pointerCleared s ∧ s.Settled ∧ (s.globals.mailboxes 7).isActive = true ∧
    (s.globals.mailboxes 7).numSlots = 5 ∧ (s.globals.mailboxSlotQueues 7).count = 1 ∧ s.SuspendedRecv 7 2 := by
  obtain ⟨s, reaches, stuck⟩ := exists_reaches pointerCleared
    (fun s => (pointerCleared.all fun a => !(s.proc a.pid).wokenIn fun _ => true) &&
      (s.globals.mailboxes 7).isActive && (s.globals.mailboxes 7).numSlots = 5 &&
      (s.globals.mailboxSlotQueues 7).count = 1 && (s.proc 2).blockedIn (Wait.receivesFrom 7)) (by decide +kernel)
  simp only [Bool.and_eq_true, decide_eq_true_eq] at stuck
  obtain ⟨⟨⟨⟨awake, active⟩, slots⟩, one⟩, suspended⟩ := stuck
  exact ⟨s, reaches, reaches.settled awake, active, slots, one, suspended⟩

end Sys

end UslossKernel
