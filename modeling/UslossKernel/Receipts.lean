import UslossKernel.Messages

namespace UslossKernel

/-- On the way to return the result `r` of a message taken from `m`. -/
def Cont.delivers (m : MboxId) (r : Result) : Cont → Bool
  | .recvTaken n r' | .condRecvTaken n r' => n = m ∧ r' = r
  | _ => false

/-- How often a list of returned results has the result `r`. -/
def timesReturned (r : Result) (returned : List (Nat × Result)) : Nat :=
  returned.countP fun entry => entry.2 = r

/-- How often a list of deliveries has the result `r`. -/
def timesTaken (r : Result) (taken : List Delivery) : Nat :=
  taken.countP fun delivery => delivery.result = r

theorem StorePoint.sends {g : Globals} {pt : Point} {n : MboxId} {msg : Message} {k : Cont}
    (at_ : StorePoint g pt n msg k) (m : MboxId) (r : Result) :
    pt.returnsIn (Cont.delivers m r) = false ∧ k.delivers m r = false := by
  cases at_ <;> exact ⟨rfl, rfl⟩

theorem TakePoint.receives {g g₀ : Globals} {pt : Point} {n : MboxId} {buffer : Buffer} {k : Result → Cont}
    (at_ : TakePoint g pt g₀ n buffer k) (m : MboxId) (r : Result) :
    pt.returnsIn (Cont.delivers m r) = false ∧ ∀ r', (k r').delivers m r = decide (n = m ∧ r' = r) := by
  cases at_ <;> exact ⟨rfl, fun _ => rfl⟩

theorem ReleaseAt.releases {g g₀ : Globals} {pt : Point} {n : MboxId} {stage : Stage}
    (at_ : ReleaseAt g pt g₀ n stage) (m : MboxId) (r : Result) :
    pt.returnsIn (Cont.delivers m r) = false ∧ pt.fn = .release (n : Nat) := by
  rcases at_.sameMail with ⟨rfl, _⟩ | ⟨⟨k, releases, rfl⟩, _⟩
  · exact ⟨rfl, rfl⟩
  · cases k <;> simp_all [Cont.releases, Point.returnsIn, Point.fn, Cont.fn, Cont.delivers]

theorem TakePoint.taken {g g₀ : Globals} {pt : Point} {n : MboxId} {buffer : Buffer} {k : Result → Cont}
    (at_ : TakePoint g pt g₀ n buffer k) (m : MboxId) (r : Result) (delivery : Delivery) :
    timesTaken r ((g₀.dequeueSlot n delivery).taken m) =
      timesTaken r (g.taken m) + if n = m ∧ delivery.result = r then 1 else 0 := by
  rw [Globals.dequeueSlot_taken, at_.sameMail.taken]
  by_cases here : n = m
  · subst here
    simp [timesTaken]
  · rw [Function.update_of_ne (Ne.symm here), if_neg fun both => here both.1, Nat.add_zero]

namespace Sys

/-- How many receives on `m` have returned `r`. -/
def handedOut (s : Sys) (m : MboxId) (r : Result) : Nat :=
  timesReturned r (s.returned (.recv (m : Nat))) + timesReturned r (s.returned (.condRecv (m : Nat)))

/-- Each message taken from `m` with the result `r` is the result of one
receive, which has returned it or is about to. -/
def Receipts (m : MboxId) (r : Result) (s : Sys) : Prop :=
  ∃ n, Counts s.proc (Proc.unblockingIn (Cont.delivers m r)) n ∧
    (((s.globals.mailboxes m).isActive = true ∧ (s.globals.mailboxes m).numSlots = 0) ∨
      s.handedOut m r + n = timesTaken r (s.globals.taken m))

theorem handedOut_returns {s : Sys} {p : Pid} {pt : Point} {g : Globals} {m : MboxId} {r r' : Result} :
    (s.after p pt (g, .returns r')).handedOut m r = s.handedOut m r +
      if (pt.fn = .recv (m : Nat) ∨ pt.fn = .condRecv (m : Nat)) ∧ r' = r then 1 else 0 := by
  unfold handedOut
  rw [returned_returns]
  generalize pt.fn = fn
  by_cases recv : fn = .recv (m : Nat)
  · subst recv
    by_cases same : r' = r <;> simp [timesReturned, same]
    omega
  by_cases condRecv : fn = .condRecv (m : Nat)
  · subst condRecv
    by_cases same : r' = r <;> simp [timesReturned, same]
    omega
  rw [Function.update_of_ne (Ne.symm recv), Function.update_of_ne (Ne.symm condRecv)]
  simp [recv, condRecv]

section

variable {m : MboxId} {r : Result} {s : Sys} {p : Pid} {pt : Point} {g : Globals} {n : Nat} (here : (s.proc p).At pt)
  (counted : Counts s.proc (Proc.unblockingIn (Cont.delivers m r)) n)
  (balance : s.handedOut m r + n = timesTaken r (s.globals.taken m))
  (taken : timesTaken r (g.taken m) = timesTaken r (s.globals.taken m))
  (stays : pt.returnsIn (Cont.delivers m r) = false)

include here counted balance taken stays

/-- Code that neither takes `r` out of `m` nor hands it out. -/
theorem Receipts.of_returns {r' : Result}
    (other : ¬ ((pt.fn = .recv (m : Nat) ∨ pt.fn = .condRecv (m : Nat)) ∧ r' = r)) :
    (s.after p pt (g, .returns r')).Receipts m r := by
  refine ⟨_, unblocking_returns here counted, .inr ?_⟩
  rw [handedOut_returns, if_neg other, stays]
  simpa [Sys.after, settle, taken] using balance

theorem Receipts.of_blocks {w : Wait} : (s.after p pt (g, .blocks w)).Receipts m r := by
  refine ⟨_, unblocking_blocks here counted, .inr ?_⟩
  have same : (s.after p pt (g, .blocks w)).handedOut m r = s.handedOut m r := by cases pt <;> rfl
  rw [same, stays]
  simpa [Sys.after, settle, taken] using balance

theorem Receipts.of_unblocks {pid : Pid} {k : Cont} (other : k.delivers m r = false) :
    (s.after p pt (g, .unblocks pid k)).Receipts m r := by
  refine ⟨_, unblocking_unblocks here counted, .inr ?_⟩
  have same : (s.after p pt (g, .unblocks pid k)).handedOut m r = s.handedOut m r := by cases pt <;> rfl
  rw [same, stays, other]
  simpa [Sys.after, settle, taken] using balance

end

theorem Receipts.after {m : MboxId} {r : Result} {s : Sys} {p : Pid} {pt : Point} {seg : Segment}
    (success : 0 ≤ r.ret) (receipts : s.Receipts m r) (lasting : s.Lasting m)
    (unreleased : Unreleased m s (pt.act p)) (here : (s.proc p).At pt) (path : Path s.globals p pt seg)
    (lives : ∀ f, seg.2 ≠ .faults f) : (s.after p pt seg).Receipts m r := by
  have point := unreleased.point
  obtain ⟨n, counted, balance⟩ := receipts
  by_cases exempt : (s.globals.mailboxes m).isActive = true ∧ (s.globals.mailboxes m).numSlots = 0
  · obtain ⟨n', counted'⟩ := unblocking_after seg here counted
    obtain ⟨still, same⟩ := (after_transfer path).status exempt.1 point
    exact ⟨n', counted', .inl ⟨still, same.trans exempt.2⟩⟩
  have balance := balance.resolve_left exempt
  have failed : ∀ {code : Int}, code < 0 → (⟨code, []⟩ : Result) ≠ r := by
    rintro code negative rfl
    exact absurd success (not_le.mpr negative)
  have untouched : ∀ {g : Globals}, s.globals.SameMail g →
      timesTaken r (g.taken m) = timesTaken r (s.globals.taken m) := fun same => by rw [same.taken]
  cases path with
  | refused _ negative => exact .of_returns here counted balance (by rfl) rfl fun both => failed negative both.2
  | created => exact .of_returns here counted balance (by rfl) rfl (by simp [Point.fn, Call.fn])
  | createFails => exact .of_returns here counted balance (by rfl) rfl (by simp [Point.fn, Call.fn])
  | sendMatches => exact .of_unblocks here counted balance (by rfl) rfl rfl
  | sendZeroBlocks => exact .of_blocks here counted balance (by rfl) rfl
  | sendFullBlocks | resumedFullBlocks =>
    exact .of_blocks here counted balance (untouched (Globals.recordSender_sameMail ..)) rfl
  | storeFaults | takeFaults => exact absurd rfl (lives _)
  | @stores _ n _ _ at_ =>
    exact .of_returns here counted balance rfl (at_.sends m r).1 (by rcases at_.fn with fn | fn <;> simp [fn])
  | @storesAndWakes _ n _ _ _ _ at_ =>
    obtain ⟨stays, other⟩ := at_.sends m r
    exact .of_unblocks here counted balance rfl stays other
  | recvMatches => exact .of_unblocks here counted balance (by rfl) rfl rfl
  | recvZeroBlocks | recvEmptyBlocks => exact .of_blocks here counted balance (by rfl) rfl
  | resumedEmpty => exact .of_returns here counted balance (by rfl) rfl fun both => failed (by decide) both.2
  | @takeRejects _ g₀ n buffer _ at_ =>
    refine .of_returns here counted balance ?_ (at_.receives m r).1 fun both => failed (by decide) both.2
    rw [at_.taken, if_neg fun both => failed (by decide) both.2, Nat.add_zero]
  | @takes _ g₀ n buffer _ at_ =>
    have stays := (at_.receives m r).1
    refine ⟨_, unblocking_returns here counted, .inr ?_⟩
    have same : ((pt.fn = .recv (m : Nat) ∨ pt.fn = .condRecv (m : Nat)) ∧ s.globals.received n = r) ↔
        (n = m ∧ s.globals.received n = r) := by
      rcases at_.fn with fn | fn <;> simp [fn, Fin.ext_iff]
    have more := at_.taken m r ⟨buffer.msg_max_size, s.globals.received n⟩
    simp only [handedOut_returns, same, stays, after_globals lives, Globals.freeSlot_taken, more]
    simp only [Bool.false_eq_true, if_false, Nat.sub_zero]
    omega
  | @takesAndWakes _ g₀ n buffer k pid rest at_ =>
    obtain ⟨stays, delivers⟩ := at_.receives m r
    refine ⟨_, unblocking_unblocks here counted, .inr ?_⟩
    have more := at_.taken m r ⟨buffer.msg_max_size, s.globals.received n⟩
    have same : ∀ {g : Globals}, (s.after p pt (g, .unblocks pid (k (s.globals.received n)))).handedOut m r =
        s.handedOut m r := by intro g; cases pt <;> rfl
    simp only [same, delivers, decide_eq_true_eq, stays, after_globals lives, Globals.setBlockedProducers_taken,
      Globals.freeSlot_taken, more]
    simp only [Bool.false_eq_true, if_false, Nat.sub_zero]
    omega
  | resumedInactive => exact .of_returns here counted balance (by rfl) rfl fun both => failed (by decide) both.2
  | @resumedZero w n same =>
    refine .of_returns here counted balance (by rfl) rfl fun both => ?_
    have fn := both.1
    rcases same with rfl | rfl
    · simp [Point.fn, Wait.fn] at fn
    · obtain rfl : n = m := by simpa [Point.fn, Wait.fn, Fin.ext_iff] using fn
      obtain ⟨active, zero⟩ := here.wait_fits (lasting.2 p) rfl
      exact exempt ⟨active, zero.mp rfl⟩
  | sendMatchedReturns => exact .of_returns here counted balance (by rfl) rfl (by simp [Point.fn, Cont.fn])
  | @sendStoredReturns k n same =>
    have other : k.delivers m r = false := by rcases same with rfl | rfl | rfl <;> rfl
    refine .of_returns here counted balance rfl other fun both => ?_
    have fn := both.1
    rcases same with rfl | rfl | rfl
    · simp [Point.fn, Cont.fn] at fn
    · obtain rfl : n = m := by simpa [Point.fn, Cont.fn, Fin.ext_iff] using fn
      exact exempt (here.cont_fits (lasting.2 p) rfl)
    · simp [Point.fn, Cont.fn] at fn
  | @recvTakenReturns k n r' same =>
    have fn : (((Point.afterUnblock k).fn = .recv (m : Nat) ∨ (Point.afterUnblock k).fn = .condRecv (m : Nat)) ∧
        r' = r) ↔ k.delivers m r = true := by
      rcases same with rfl | rfl <;> simp [Point.fn, Cont.fn, Cont.delivers, Fin.ext_iff]
    refine ⟨_, unblocking_returns here counted, .inr ?_⟩
    simp only [handedOut_returns, fn, after_globals lives, Point.returnsIn]
    by_cases delivers : k.delivers m r = true
    · have pending := counted.pos ((here.unblockingIn _).trans delivers)
      simp only [delivers, if_true]
      omega
    · simp only [delivers, Bool.false_eq_true, if_false]
      omega
  | releaseWakesProducer at_ | releaseWakesConsumer at_ | releaseWakesPointer at_ =>
    refine .of_unblocks here counted balance ?_ (at_.releases m r).1 rfl
    rcases at_.sameMail with ⟨_, _, same⟩ | ⟨_, same⟩ <;> rw [same.taken]
    rfl
  | releaseReturns at_ =>
    refine .of_returns here counted balance ?_ (at_.releases m r).1 (by simp [(at_.releases m r).2])
    rcases at_.sameMail with ⟨_, _, same⟩ | ⟨_, same⟩ <;> rw [Globals.freeQueue_taken, same.taken]
    rfl

theorem receipts_of_run {m : MboxId} {r : Result} {s : Sys} (success : 0 ≤ r.ret)
    (run : Transition.Run Sys.step (Unreleased m) boot s) : s.Receipts m r := by
  refine invariant run (fun _ => lasting_of_run) (Receipts m r) ?_ ?_ ?_ ?_
  · refine ⟨0, Counts.zero_iff.mpr fun _ => rfl, .inr ?_⟩
    have taken : phase2Init.taken m = [] := by rw [phase2Init_eq]; rfl
    rw [boot, taken]
    rfl
  · intro s p pt seg lasting receipts unreleased here path lives
    exact receipts.after success lasting unreleased here path lives
  · intro s p pt f receipts
    cases pt <;> exact receipts
  · rintro s q proc cpu ⟨n, counted, balance⟩ was becomes
    exact ⟨n, unblocking_idle counted was becomes, balance⟩

/-- The action releases nothing, and a store finds a free slot. -/
def Stocked (s : Sys) (a : Act) : Prop :=
  (∀ m, Unreleased m s a) ∧ ∀ m, s.StoresInto a m → 0 < s.globals.freeSlotCount

/-- Messages leave a mailbox in the order they were stored, unaltered, each
for one receive; the others are what it holds, and it never holds too many. -/
theorem messages_delivered {m : MboxId} {s : Sys} (run : Transition.Run Sys.step Stocked boot s)
    (active : (s.globals.mailboxes m).isActive = true) (slots : 0 < (s.globals.mailboxes m).numSlots) :
    (∃ delivered pending, s.globals.Delivered m delivered pending) ∧
    (s.globals.mailboxSlotQueues m).count ≤ (s.globals.mailboxes m).numSlots ∧
    (s.globals.mailboxSlotQueues m).window.length = (s.globals.mailboxSlotQueues m).count ∧
    ∀ r : Result, 0 ≤ r.ret → ∃ n, Counts s.proc (Proc.unblockingIn (Cont.delivers m r)) n ∧
      s.handedOut m r + n = timesTaken r (s.globals.taken m) := by
  have kept : Transition.Run Sys.step (Unreleased m) boot s := run.mono fun _ _ stocked => stocked.1 m
  have sound := sound_of_run run
  refine ⟨(mailIntact_of_run kept).delivered, sound.count_le active, sound.window_length active, fun r success => ?_⟩
  obtain ⟨n, counted, balance⟩ := receipts_of_run success kept
  exact ⟨n, counted, balance.resolve_left fun zero => slots.ne' zero.2⟩

/-- Three messages: the first is rejected, the second received, the third kept. -/
def oneRejectedOneReceived : List Act :=
  [.call 1 (.create 3 50 true), .call 1 (.send 7 (some [65, 66]) 2), .call 1 (.condSend 7 (some [67]) 1),
    .call 1 (.send 7 (some [68, 69]) 2), .call 1 (.recv 7 ⟨true, 1⟩), .call 1 (.condRecv 7 ⟨true, 1⟩)]

/-- A test for `Stocked`, of actions that are calls. -/
def testStocked (_ : Sys) : Act → Bool
  | .call _ (.release _) => false
  | .call .. => true
  | _ => false

theorem Stocked.of_test {s : Sys} {a : Act} (admitted : s.testStocked a = true) : Stocked s a := by
  cases a with
  | call p c =>
    refine ⟨fun m q same => ?_, fun m stores => stores.of_call.1⟩
    cases same
    cases admitted
  | resume | yield | sleep | rouse => cases admitted

theorem messages_delivered_run : ∃ s, Transition.Run Sys.step Stocked boot s ∧
    s.globals.stored 7 = [[65, 66], [67], [68, 69]] ∧
    (s.globals.taken 7).map Delivery.result = [⟨-1, []⟩, ⟨1, [67]⟩] ∧
    ∃ delivered pending, s.globals.Delivered 7 delivered pending := by
  obtain ⟨s, reaches, done⟩ := exists_reaches oneRejectedOneReceived
    (fun s => (s.globals.mailboxes 7).isActive && 0 < (s.globals.mailboxes 7).numSlots &&
      s.globals.stored 7 = [[65, 66], [67], [68, 69]] &&
      (s.globals.taken 7).map Delivery.result = [⟨-1, []⟩, ⟨1, [67]⟩]) (by decide +kernel)
  have run : Transition.Run Sys.step Stocked boot s :=
    reaches.run testStocked (fun _ _ _ => .of_test) (by decide +kernel)
  simp only [Bool.and_eq_true, decide_eq_true_eq] at done
  obtain ⟨⟨⟨active, slots⟩, stored⟩, taken⟩ := done
  exact ⟨s, run, stored, taken, (messages_delivered run active slots).1⟩

end Sys

end UslossKernel
