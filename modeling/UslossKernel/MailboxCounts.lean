import Mathlib.Algebra.BigOperators.Fin
import UslossKernel.Receipts
import UslossKernel.ReleaseSteps

namespace UslossKernel

/-- The call gives out `m`. -/
def Outcome.creates (m : MboxId) (fn : Fn) : Outcome → Bool
  | .returns r => fn = .create ∧ r.ret = (m : Nat)
  | _ => false

/-- The call has released `m`. -/
def Outcome.released (m : MboxId) (fn : Fn) : Outcome → Bool
  | .returns r => fn = .release (m : Nat) ∧ r.ret = 0
  | _ => false

/-- The call is releasing `m` and has more processes to wake. -/
def Outcome.releasing (m : MboxId) : Outcome → Bool
  | .unblocks _ k => k.releases m
  | _ => false

/-- An id that becomes active is given out, one that becomes inactive is being
released, and a release that runs on returns or wakes the next process. -/
def Tallies (g : Globals) (m : MboxId) (pt : Point) (seg : Segment) : Prop :=
  (seg.1.mailboxes m).isActive.toNat + (seg.2.released m pt.fn).toNat + (seg.2.releasing m).toNat =
    (g.mailboxes m).isActive.toNat + (seg.2.creates m pt.fn).toNat + (pt.returnsIn (Cont.releases m)).toNat

variable {g g₀ : Globals} {m n : MboxId} {p : Pid} {pt : Point} {seg : Segment}

/-- Code that neither creates a mailbox nor releases `m`. -/
theorem Tallies.quiet (same : (seg.1.mailboxes m).isActive = (g.mailboxes m).isActive) (creates : pt.fn ≠ .create)
    (releases : pt.fn ≠ .release (m : Nat)) (goesOn : seg.2.releasing m = false) : Tallies g m pt seg := by
  have outside : pt.returnsIn (Cont.releases m) = false := by
    by_contra inside
    cases pt with
    | afterUnblock k =>
      have begins : Point.Releases m (.afterUnblock k) := .inr ⟨k, by simpa [Point.returnsIn] using inside, rfl⟩
      exact releases begins.fn
    | start | afterBlock => exact inside rfl
  have noCreation : seg.2.creates m pt.fn = false := by
    cases seg.2 <;> simp [Outcome.creates, creates]
  have noRelease : seg.2.released m pt.fn = false := by
    cases seg.2 <;> simp [Outcome.released, releases]
  rw [Tallies, same, outside, noCreation, noRelease, goesOn]

theorem StorePoint.tallies {msg : Message} {k : Cont} (at_ : StorePoint g pt n msg k)
    (same : (seg.1.mailboxes m).isActive = (g.mailboxes m).isActive) (goesOn : seg.2.releasing m = false) :
    Tallies g m pt seg := by
  refine .quiet same ?_ ?_ goesOn <;> rcases at_.fn with fn | fn <;> simp [fn]

theorem TakePoint.tallies {buffer : Buffer} {k : Result → Cont} (at_ : TakePoint g pt g₀ n buffer k)
    (same : (seg.1.mailboxes m).isActive = (g₀.mailboxes m).isActive) (goesOn : seg.2.releasing m = false) :
    Tallies g m pt seg := by
  refine .quiet (same.trans (at_.sameMail.active m)) ?_ ?_ goesOn <;> rcases at_.fn with fn | fn <;> simp [fn]

/-- A release that comes to `g₀` wakes a process or returns. -/
theorem ReleaseAt.tallies {stage : Stage} (at_ : ReleaseAt g pt g₀ n stage)
    (same : (seg.1.mailboxes m).isActive = (g₀.mailboxes m).isActive)
    (ends : (seg.2.released m pt.fn).toNat + (seg.2.releasing m).toNat = (decide (n = m)).toNat)
    (quiet : seg.2.creates m pt.fn = false) : Tallies g m pt seg := by
  rw [Tallies, same, quiet, Nat.add_assoc, ends]
  rcases at_.sameMail with ⟨rfl, active, same⟩ | ⟨⟨k, releases, rfl⟩, same⟩
  · rw [same.active]
    by_cases here : n = m
    · subst here
      simp [active, Point.returnsIn]
    · simp [here, Ne.symm here, Point.returnsIn]
  · have only : k.releases m = decide (n = m) := by
      cases k <;> simp_all [Cont.releases]
    rw [same.active, Point.returnsIn, only]
    rfl

theorem Path.tallies (path : Path g p pt seg) (lives : ∀ f, seg.2 ≠ .faults f) (m : MboxId) : Tallies g m pt seg := by
  cases path with
  | @refused c code _ negative =>
    have noCreation : (returnCode g code).2.creates m (Point.start c).fn = false := by
      have other : code ≠ (m : Nat) := by omega
      simp [Outcome.creates, returnCode, other]
    have noRelease : (returnCode g code).2.released m (Point.start c).fn = false := by
      simp [Outcome.released, returnCode, negative.ne]
    rw [Tallies, noCreation, noRelease]
    rfl
  | @created n numSlots slotSize found =>
    have inactive := Globals.firstInactive_spec found
    have noRelease : (returnCode (g.createMailbox n numSlots.toNat slotSize.toNat) (n : Nat)).2.released m
        (Point.start (.create numSlots slotSize true)).fn = false := rfl
    have gives : (returnCode (g.createMailbox n numSlots.toNat slotSize.toNat) (n : Nat)).2.creates m
        (Point.start (.create numSlots slotSize true)).fn = decide (n = m) := by
      simp [Outcome.creates, returnCode, Point.fn, Call.fn, Fin.ext_iff]
    rw [Tallies, noRelease, gives]
    by_cases here : n = m
    · subst here
      simp [returnCode, Outcome.releasing, Point.returnsIn, inactive]
    · simp [returnCode, Outcome.releasing, Point.returnsIn, here, Function.update_of_ne (Ne.symm here)]
  | @createFails n numSlots slotSize found =>
    have inactive := Globals.firstInactive_spec found
    have still : ((g.loseMailbox n numSlots.toNat slotSize.toNat).mailboxes m).isActive =
        (g.mailboxes m).isActive := by
      by_cases here : n = m
      · subst here
        simp [inactive]
      · simp [Function.update_of_ne (Ne.symm here)]
    have noCreation : (returnCode (g.loseMailbox n numSlots.toNat slotSize.toNat) (-1)).2.creates m
        (Point.start (.create numSlots slotSize false)).fn = false := by
      have other : (-1 : Int) ≠ (m : Nat) := by omega
      simp [Outcome.creates, returnCode, other]
    rw [Tallies, noCreation]
    exact congrArg (fun b : Bool => b.toNat + 0 + 0) still
  | sendMatches | recvMatches => refine .quiet rfl ?_ ?_ rfl <;> simp [Point.fn, Call.fn]
  | sendZeroBlocks =>
    refine .quiet ((Globals.awaitReceiver_sameMail ..).active m) ?_ ?_ rfl <;> simp [Point.fn, Call.fn]
  | sendFullBlocks | resumedFullBlocks =>
    refine .quiet ((Globals.recordSender_sameMail ..).active m) ?_ ?_ rfl <;> simp [Point.fn, Call.fn, Wait.fn]
  | recvZeroBlocks | recvEmptyBlocks =>
    refine .quiet ((Globals.awaitMessage_sameMail ..).active m) ?_ ?_ rfl <;> simp [Point.fn, Call.fn]
  | storeFaults | takeFaults => exact absurd rfl (lives _)
  | stores at_ => exact at_.tallies rfl rfl
  | storesAndWakes at_ => exact at_.tallies rfl (by cases at_ <;> rfl)
  | resumedEmpty | sendMatchedReturns =>
    refine .quiet ((Globals.clearConsumers_sameMail ..).active m) ?_ ?_ rfl <;> simp [Point.fn, Wait.fn, Cont.fn]
  | takeRejects at_ | takes at_ => exact at_.tallies rfl rfl
  | takesAndWakes at_ => exact at_.tallies rfl (by cases at_ <;> rfl)
  | @resumedInactive w => refine .quiet rfl ?_ ?_ rfl <;> cases w <;> simp [Point.fn, Wait.fn]
  | resumedZero kind => rcases kind with rfl | rfl <;> refine .quiet rfl ?_ ?_ rfl <;> simp [Point.fn, Wait.fn]
  | sendStoredReturns kind =>
    rcases kind with rfl | rfl | rfl <;> refine .quiet rfl ?_ ?_ rfl <;> simp [Point.fn, Cont.fn]
  | recvTakenReturns kind =>
    rcases kind with rfl | rfl <;> refine .quiet rfl ?_ ?_ rfl <;> simp [Point.fn, Cont.fn]
  | releaseWakesProducer at_ | releaseWakesConsumer at_ | releaseWakesPointer at_ =>
    exact at_.tallies rfl (by simp [Outcome.released, Outcome.releasing, Cont.releases]) rfl
  | releaseReturns at_ =>
    have fn := (at_.releases m ⟨0, []⟩).2
    refine at_.tallies rfl ?_ (by simp [Outcome.creates, returnCode, fn])
    simp [Outcome.released, Outcome.releasing, returnCode, fn, Fin.ext_iff]

namespace Sys

variable {s : Sys} {guard : Sys → Act → Prop}

/-- How often `MboxCreate` has given out `m`. -/
def timesCreated (s : Sys) (m : MboxId) : Nat :=
  (s.returned .create).countP fun entry => entry.2.ret = ((m : Nat) : Int)

/-- How often `MboxRelease` of `m` has returned 0. -/
def timesReleased (s : Sys) (m : MboxId) : Nat :=
  (s.returned (.release (m : Nat))).countP fun entry => entry.2.ret = 0

/-- The mailboxes that are active after `phase2_init`: six that it marks and
the one that it creates. -/
def initially (m : MboxId) : Bool :=
  m.val < 7

/-- Every mailbox `m` there has been is active, has been released or is being
released, by one of `releasing` processes. -/
structure Housed (m : MboxId) (s : Sys) (releasing : Nat) : Prop where
  inside : Counts s.proc (Proc.unblockingIn (Cont.releases m)) releasing
  balance : (s.globals.mailboxes m).isActive.toNat + s.timesReleased m + releasing =
    (initially m).toNat + s.timesCreated m

theorem timesCreated_after :
    (s.after p pt seg).timesCreated m = s.timesCreated m + (seg.2.creates m pt.fn).toNat := by
  obtain ⟨g, outcome⟩ := seg
  cases outcome with
  | returns r =>
    rw [timesCreated, returned_returns]
    by_cases fn : pt.fn = .create
    · by_cases gives : r.ret = (m : Nat) <;> simp [timesCreated, Outcome.creates, fn, gives]
    · simp [timesCreated, Outcome.creates, fn, Function.update_of_ne (Ne.symm fn)]
  | blocks | unblocks | faults => cases pt <;> rfl

theorem timesReleased_after :
    (s.after p pt seg).timesReleased m = s.timesReleased m + (seg.2.released m pt.fn).toNat := by
  obtain ⟨g, outcome⟩ := seg
  cases outcome with
  | returns r =>
    rw [timesReleased, returned_returns]
    by_cases fn : pt.fn = .release (m : Nat)
    · by_cases done : r.ret = 0 <;> simp [timesReleased, Outcome.released, fn, done]
    · simp [timesReleased, Outcome.released, fn, Function.update_of_ne (Ne.symm fn)]
  | blocks | unblocks | faults => cases pt <;> rfl

theorem Housed.after {releasing : Nat} (housed : Housed m s releasing) (here : (s.proc p).At pt)
    (tallies : Tallies s.globals m pt seg) (lives : ∀ f, seg.2 ≠ .faults f) :
    ∃ releasing, Housed m (s.after p pt seg) releasing := by
  obtain ⟨inside, balance⟩ := housed
  have known : (pt.returnsIn (Cont.releases m)).toNat ≤ releasing := by
    cases returns : pt.returnsIn (Cont.releases m) with
    | false => exact Nat.zero_le _
    | true => exact inside.pos ((here.unblockingIn _).trans returns)
  have inside' : Counts (s.after p pt seg).proc (Proc.unblockingIn (Cont.releases m))
      (releasing + (seg.2.releasing m).toNat - (pt.returnsIn (Cont.releases m)).toNat) := by
    have toNat : ∀ b : Bool, b.toNat = if b then 1 else 0 := by decide
    rw [toNat, toNat]
    obtain ⟨g, outcome⟩ := seg
    cases outcome with
    | returns => exact unblocking_returns here inside
    | blocks => exact unblocking_blocks here inside
    | unblocks => exact unblocking_unblocks here inside
    | faults f => exact absurd rfl (lives f)
  refine ⟨_, inside', ?_⟩
  rw [after_globals lives, timesCreated_after, timesReleased_after]
  unfold Tallies at tallies
  omega

theorem boot_housed (m : MboxId) : Housed m boot 0 := by
  refine ⟨Counts.zero_iff.mpr fun _ => rfl, ?_⟩
  have active : (boot.globals.mailboxes m).isActive = initially m := by
    rw [boot, phase2Init_eq, Globals.createMailbox_mailboxes]
    by_cases clock : m = 6
    · rw [clock]
      rfl
    · have other : m.val ≠ 6 := fun same => clock (Fin.ext same)
      rw [Function.update_of_ne clock]
      refine decide_eq_decide.mpr ?_
      omega
  rw [active]
  rfl

theorem housed_of_run (run : Transition.Run Sys.step guard boot s) (m : MboxId) :
    ∃ releasing, Housed m s releasing := by
  refine invariant run (fun _ _ => trivial) (fun s => ∃ releasing, Housed m s releasing) ⟨0, boot_housed m⟩ ?_ ?_ ?_
  · rintro s p pt seg _ ⟨_, housed⟩ _ here path lives
    exact housed.after here (path.tallies lives m) lives
  · rintro s p pt f ⟨releasing, housed⟩
    cases pt <;> exact ⟨releasing, housed.inside, housed.balance⟩
  · rintro s q proc cpu ⟨releasing, inside, balance⟩ was becomes
    exact ⟨releasing, unblocking_idle inside was becomes, balance⟩

/-- The table is full when all mailboxes are active. -/
theorem firstInactive_eq_none_iff {g : Globals} :
    g.firstInactive = none ↔ ∑ m, (g.mailboxes m).isActive.toNat = 2000 := by
  have most : ∀ m ∈ Finset.univ, (g.mailboxes m).isActive.toNat ≤ 1 := fun m _ => Bool.toNat_le _
  have all : ∑ _m : MboxId, 1 = 2000 := by simp [maxMbox]
  rw [← all, Finset.sum_eq_sum_iff_of_le most]
  simp [Globals.firstInactive]

theorem mboxCreate_fails_iff {g : Globals} {numSlots slotSize : Int} (slots : 0 ≤ numSlots ∧ numSlots ≤ maxSlots)
    (size : 0 ≤ slotSize ∧ slotSize ≤ maxMessage) :
    (mboxCreate g numSlots slotSize true).2 = .returns ⟨-1, []⟩ ↔ g.firstInactive = none := by
  unfold mboxCreate
  rw [if_neg (by omega)]
  cases g.firstInactive with
  | none => simp [returnCode]
  | some m =>
    have other : ((m : Nat) : Int) ≠ -1 := by omega
    simp [returnCode, other]

/-- No id is lost or given out twice: every mailbox that has been created under
an id has been released, is being released or is the one that is there; and
`MboxCreate` finds no id only when 1993 more have been created than released. -/
theorem mailboxes_conserved (run : Transition.Run Sys.step guard boot s) : ∃ releasing : MboxId → Nat,
    (∀ m, Counts s.proc (Proc.unblockingIn (Cont.releases m)) (releasing m) ∧
      (s.globals.mailboxes m).isActive.toNat + s.timesReleased m + releasing m =
        (initially m).toNat + s.timesCreated m) ∧
    ∀ numSlots slotSize : Int, 0 ≤ numSlots ∧ numSlots ≤ maxSlots → 0 ≤ slotSize ∧ slotSize ≤ maxMessage →
      ((mboxCreate s.globals numSlots slotSize true).2 = .returns ⟨-1, []⟩ ↔
        ∑ m, s.timesCreated m = 1993 + ∑ m, (s.timesReleased m + releasing m)) := by
  choose releasing housed using housed_of_run run
  refine ⟨releasing, fun m => ⟨(housed m).inside, (housed m).balance⟩, fun numSlots slotSize slots size => ?_⟩
  have total : ∑ m, ((s.globals.mailboxes m).isActive.toNat + (s.timesReleased m + releasing m)) =
      ∑ m, ((initially m).toNat + s.timesCreated m) := by
    refine Finset.sum_congr rfl fun m _ => ?_
    rw [← Nat.add_assoc, (housed m).balance]
  have seven : ∑ m, (initially m).toNat = 7 := by decide +kernel
  simp only [Finset.sum_add_distrib, seven] at total ⊢
  rw [mboxCreate_fails_iff slots size, firstInactive_eq_none_iff]
  omega

/-- While a release of a mailbox wakes its receiver, the id is given out again. -/
def reusedWhileReleased : List Act :=
  [.call 1 (.create 1 50 true), .call 1 (.release 7), .call 1 (.create 1 50 true), .yield 1,
    .call 2 (.recv 7 ⟨true, 50⟩), .call 1 (.release 7), .call 3 (.create 1 50 true)]

theorem mailboxes_conserved_run : ∃ s, Transition.Run Sys.step (fun _ _ => True) boot s ∧
    s.timesCreated 7 = 3 ∧ s.timesReleased 7 = 1 ∧
    ∃ releasing : MboxId → Nat, releasing 7 = 1 ∧
      ∀ m, Counts s.proc (Proc.unblockingIn (Cont.releases m)) (releasing m) ∧
        (s.globals.mailboxes m).isActive.toNat + s.timesReleased m + releasing m =
          (initially m).toNat + s.timesCreated m := by
  obtain ⟨s, run, done⟩ := Transition.exists_run Sys.step boot reusedWhileReleased (fun _ _ => true)
    (fun _ _ _ => trivial)
    (fun s => s.timesCreated 7 = 3 && s.timesReleased 7 = 1 && (s.globals.mailboxes 7).isActive) (by decide +kernel)
  simp only [Bool.and_eq_true, decide_eq_true_eq] at done
  obtain ⟨⟨created, released⟩, active⟩ := done
  obtain ⟨releasing, balanced, _⟩ := mailboxes_conserved run
  refine ⟨s, run, created, released, releasing, ?_, balanced⟩
  have balance := (balanced 7).2
  rw [created, released, active] at balance
  have initial : (initially 7).toNat = 0 := rfl
  simp only [initial, Bool.toNat_true] at balance
  omega

end Sys

end UslossKernel
