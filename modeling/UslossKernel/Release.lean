import UslossKernel.ReleaseSteps

namespace UslossKernel

namespace Sys

/-- The records that a release of `m` goes by have all that are suspended on
`m`, and nothing is under way that will change them. -/
structure WaitersKnown (m : MboxId) (s : Sys) : Prop where
  senders : ∀ q, s.SuspendedSend m q → q ∈ s.globals.blockedProducers m
  receivers : ∀ q, s.SuspendedRecv m q → s.globals.Lists m q
  alone : ∀ q, (s.proc q).unblockingIn (Cont.releases m) = false
  unmatched : (s.globals.mailboxes m).numSlots ≠ 0 →
    ∀ q, (s.proc q).unblockingIn (fun k => decide (k = .sendMatched m)) = false

/-- `MboxCreate` does not hand out `m`, and no process begins to wait that
takes over the shadow entry that the pointer of `m` leads to. -/
structure Undisturbed (m : MboxId) (s : Sys) (a : Act) : Prop where
  fresh : ∀ p numSlots slotSize malloc, a = .call p (.create numSlots slotSize malloc) →
    s.globals.firstInactive ≠ some m
  shadow : (s.globals.mailboxes m).numSlots ≠ 0 → ∀ pt g w entry, s.RunsFrom a pt →
    Path s.globals a.pid pt (g, .blocks w) → w.setsPointer = true →
    (s.globals.mailboxes m).consumers = some entry → Globals.shadowIndex a.pid = entry →
    s.globals.shadowProcesses entry = a.pid

/-- While `r` releases `m`, it has covered all that are still suspended on it,
and once it has returned nobody is. -/
structure Releasing (m : MboxId) (r : Pid) (s : Sys) : Prop where
  inactive : (s.globals.mailboxes m).isActive = false
  alone : ∀ q, q ≠ r → (s.proc q).unblockingIn (Cont.releases m) = false
  unmatched : (s.globals.mailboxes m).numSlots ≠ 0 →
    ∀ q, (s.proc q).unblockingIn (fun k => decide (k = .sendMatched m)) = false
  covered : (∃ k, s.proc r = .unblocking k ∧ k.releases m = true ∧ k.stage.Covers m s.globals s.proc) ∨
    (s.proc r).unblockingIn (Cont.releases m) = false ∧ Stage.rest.Covers m s.globals s.proc

variable {m : MboxId} {r p : Pid} {s : Sys} {pt : Point} {seg : Segment}

/-- The stretch of code belongs to the release. -/
theorem Releasing.releases (alone : ∀ q, q ≠ p → (s.proc q).unblockingIn (Cont.releases m) = false)
    (unmatched : (s.globals.mailboxes m).numSlots ≠ 0 →
      ∀ q, (s.proc q).unblockingIn (fun k => decide (k = .sendMatched m)) = false)
    (ends : ReleaseEnds s.globals pt m seg)
    (inactive : (∃ k, pt = .afterUnblock k) → (s.globals.mailboxes m).isActive = false)
    (covers : pt.stage.Covers m s.globals s.proc) : (s.after p pt seg).Releasing m p := by
  have lives : ∀ f, seg.2 ≠ .faults f := by
    cases ends <;> rintro _ ⟨⟩
  have globals : (s.after p pt seg).globals = seg.1 := after_globals lives
  obtain ⟨still, numSlots⟩ := ends.status inactive
  have wakes : ∀ pid k, seg.2 = .unblocks pid k → k.releases m = true ∧ k ≠ .sendMatched m := by
    cases ends <;> rintro _ _ ⟨⟩ <;> simp [Cont.releases]
  refine ⟨by rw [globals, still], fun q other => ?_, fun slots q => ?_, ?_⟩
  · by_contra inside
    rcases unblockingIn_after (by simpa using inside) with before | ⟨self, _⟩
    · rw [alone q other] at before
      cases before
    · exact other self
  · rw [globals, numSlots] at slots
    by_contra inside
    rcases unblockingIn_after (by simpa using inside) with before | ⟨_, pid, k, names, same⟩
    · rw [unmatched slots q] at before
      cases before
    · exact (wakes pid k names).2 (by simpa using same)
  · rcases covers_after (p := p) ends covers with unblocking | ⟨out, covers⟩
    · exact .inl unblocking
    · exact .inr ⟨by rw [out]; rfl, covers⟩

/-- Any other stretch of code leaves what the release goes by, and adds nobody. -/
theorem Releasing.others (releasing : s.Releasing m r) (calm : s.Undisturbed m (pt.act p)) (here : (s.proc p).At pt)
    (path : Path s.globals p pt seg) (lives : ∀ f, seg.2 ≠ .faults f)
    (apart : ∀ k, pt = .afterUnblock k → k.releases m = false) : (s.after p pt seg).Releasing m r := by
  obtain ⟨inactive, alone, unmatched, covered⟩ := releasing
  have globals : (s.after p pt seg).globals = seg.1 := after_globals lives
  have fresh : pt.fn = .create → s.globals.firstInactive ≠ some m := by
    intro fn
    cases pt with
    | start c =>
      cases c with
      | create => exact calm.fresh _ _ _ _ rfl
      | _ => cases fn
    | afterBlock w => cases w <;> cases fn
    | afterUnblock k => cases k <;> cases fn
  have leaves := path.leaves inactive fresh apart
  have status : (seg.1.mailboxes m).isActive = false ∧
      (seg.1.mailboxes m).numSlots = (s.globals.mailboxes m).numSlots := by
    rcases leaves.mailbox with same | ⟨_, same⟩ <;> rw [same]
    · exact ⟨inactive, rfl⟩
    · simpa using inactive
  have blocked : ∀ {kind : Wait → Bool}, (∀ w, w.mbox ≠ m → kind w = false) →
      ∀ q, ((s.after p pt seg).proc q).blockedIn kind = true → (s.proc q).blockedIn kind = true := by
    intro kind off q after
    rcases blocked_after after with before | ⟨_, w, waits, holds⟩
    · exact before
    · rw [off w (leaves.waits w waits)] at holds
      cases holds
  have inside : ∀ {kind : Cont → Bool}, (∀ pid k, seg.2 = .unblocks pid k → kind k = false) →
      ∀ q, (s.proc q).unblockingIn kind = false → ((s.after p pt seg).proc q).unblockingIn kind = false := by
    intro kind off q before
    by_contra after
    rcases unblockingIn_after (by simpa using after) with same | ⟨_, pid, k, names, holds⟩
    · rw [before] at same
      cases same
    · rw [off pid k names] at holds
      cases holds
  have covers : ∀ stage : Stage, stage.Covers m s.globals s.proc →
      stage.Covers m (s.after p pt seg).globals (s.after p pt seg).proc := by
    intro stage covers
    rw [globals]
    refine covers.mono (blocked fun w off => ?_) (blocked fun w off => ?_) leaves.producers leaves.consumers
      status.2 ?_
    · cases w <;> simp_all [Wait.sendsTo, Wait.mbox]
    · cases w <;> simp_all [Wait.receivesFrom, Wait.mbox]
    · intro slots entry pointed
      refine ⟨?_, ?_⟩
      · rcases leaves.mailbox with same | ⟨rfl, _⟩
        · rw [same, pointed]
        · have none := unmatched slots p
          rw [here.unblockingIn] at none
          simp [Point.returnsIn] at none
      · rcases leaves.shadow entry with same | ⟨index, named, w, waits, sets⟩
        · exact same
        · obtain ⟨g, outcome⟩ := seg
          obtain rfl : outcome = .blocks w := waits
          have own := calm.shadow slots pt g w entry ⟨p, rfl, here⟩ (by rwa [Point.act_pid]) sets pointed
            (by rwa [Point.act_pid])
          rw [Point.act_pid] at own
          rw [named, own]
  refine ⟨by rw [globals, status.1], fun q other => ?_, fun slots q => ?_, ?_⟩
  · exact inside (fun pid k names => (leaves.wakes pid k names).1) q (alone q other)
  · rw [globals, status.2] at slots
    exact inside (fun pid k names => by simpa using (leaves.wakes pid k names).2) q (unmatched slots q)
  · rcases covered with ⟨k, atR, releases, holds⟩ | ⟨done, holds⟩
    · refine .inl ⟨k, ?_, releases, covers _ holds⟩
      have other : r ≠ p := by
        rintro rfl
        rw [atR] at here
        cases here
        rw [apart k rfl] at releases
        cases releases
      rw [after_other other (by rw [atR]; rfl), atR]
    · exact .inr ⟨inside (fun pid k names => (leaves.wakes pid k names).1) r done, covers _ holds⟩

theorem releasing_of_run {s₁ s₂ : Sys} (releasing : s₁.Releasing m r)
    (run : Transition.Run Sys.step (Undisturbed m) s₁ s₂) : s₂.Releasing m r := by
  have base : ∀ s, Transition.Run Sys.step (Undisturbed m) s₁ s → True := fun _ _ => trivial
  refine invariant run base (Releasing m r) releasing ?_ ?_ ?_
  · intro s p pt seg _ releasing calm here path lives
    by_cases begins : ∃ k, pt = .afterUnblock k ∧ k.releases m = true
    · obtain ⟨k, rfl, releases⟩ := begins
      have inside : (s.proc p).unblockingIn (Cont.releases m) = true := by
        rw [here.unblockingIn]
        exact releases
      have own : p = r := by
        by_contra other
        rw [releasing.alone p other] at inside
        cases inside
      subst own
      have covers : k.stage.Covers m s.globals s.proc := by
        rcases releasing.covered with ⟨k', atR, _, covers⟩ | ⟨done, _⟩
        · rw [atR] at here
          cases here
          exact covers
        · rw [done] at inside
          cases inside
      have ends := path.release_ends (.inr ⟨k, releases, rfl⟩) (by rintro ⟨⟩)
      exact .releases releasing.alone releasing.unmatched ends (fun _ => releasing.inactive) covers
    · push Not at begins
      exact releasing.others calm here path lives fun k back => by simpa using begins k back
  · rintro s p pt f ⟨inactive, alone, unmatched, covered⟩
    rw [← enter_globals s p pt] at inactive unmatched covered
    rw [← enter_proc s p pt] at alone unmatched covered
    exact ⟨inactive, alone, unmatched, covered⟩
  · rintro s q proc cpu ⟨inactive, alone, unmatched, covered⟩ was becomes
    have inside : ∀ {kind : Cont → Bool} p, (s.proc p).unblockingIn kind = false →
        (Function.update s.proc q proc p).unblockingIn kind = false := by
      intro kind p before
      by_cases self : p = q
      · subst self
        rw [Function.update_self]
        cases proc <;> first | rfl | cases becomes
      · rwa [Function.update_of_ne self]
    have covers : ∀ stage : Stage, stage.Covers m s.globals s.proc →
        stage.Covers m s.globals (Function.update s.proc q proc) := by
      intro stage covers
      refine covers.mono (fun p => blocked_idle becomes) (fun p => blocked_idle becomes) rfl rfl rfl ?_
      exact fun _ _ same => ⟨same, rfl⟩
    refine ⟨inactive, fun p other => inside p (alone p other), fun slots p => inside p (unmatched slots p), ?_⟩
    rcases covered with ⟨k, atR, releases, holds⟩ | ⟨done, holds⟩
    · have other : r ≠ q := by
        rintro rfl
        rw [atR] at was
        cases was
      exact .inl ⟨k, (Function.update_of_ne other _ _).trans atR, releases, covers _ holds⟩
    · exact .inr ⟨inside r done, covers _ holds⟩

/-- Where the records have all that wait and nothing changes them, nobody is
left suspended on a mailbox when its release returns. -/
theorem release_leaves_nobody {s₀ s₁ s₂ : Sys} (active : (s₀.globals.mailboxes m).isActive = true)
    (known : s₀.WaitersKnown m) (calls : s₀.step (.call r (.release (m : Nat))) = some s₁)
    (run : Transition.Run Sys.step (Undisturbed m) s₁ s₂)
    (returned : (s₂.proc r).unblockingIn (Cont.releases m) = false) :
    ∀ q, ¬ s₂.SuspendedSend m q ∧ ¬ s₂.SuspendedRecv m q := by
  simp only [step, Option.ite_none_right_eq_some, Option.some.injEq] at calls
  obtain ⟨_, rfl⟩ := calls
  have begins : Point.Releases m (.start (.release (m : Nat))) := .inl rfl
  have ends := (Point.exec_path s₀.globals r _).release_ends begins fun _ => active
  have covers : (Stage.producers 0).Covers m s₀.globals s₀.proc := ⟨known.senders, known.receivers⟩
  have releasing :=
    Releasing.releases (p := r) (fun q _ => known.alone q) known.unmatched ends (by rintro ⟨_, ⟨⟩⟩) covers
  rcases (releasing_of_run releasing run).covered with ⟨k, atR, releases, _⟩ | ⟨_, senders, receivers⟩
  · rw [atR] at returned
    simp [releases] at returned
  · exact fun q => ⟨by rw [SuspendedSend, senders q]; simp, by rw [SuspendedRecv, receivers q]; simp⟩

/-- One receiver waits. -/
def oneReceiver : List Act :=
  [.call 1 (.create 5 50 true), .call 1 (.recv 7 ⟨true, 50⟩)]

theorem release_leaves_nobody_run : ∃ s₀ s₂ : Sys, s₀.SuspendedRecv 7 1 ∧ s₂.proc 2 = .outside ∧
    ∀ q, ¬ s₂.SuspendedSend 7 q ∧ ¬ s₂.SuspendedRecv 7 q := by
  obtain ⟨s₀, reaches, done⟩ := exists_reaches oneReceiver
    (fun s => s.proc 1 = .blocked (.recvEmpty 7 ⟨true, 50⟩) && (s.globals.mailboxes 7).isActive &&
      (s.globals.mailboxes 7).numSlots = 5 && (s.globals.mailboxes 7).consumers = some 1 &&
      s.globals.shadowProcesses 1 = 1 &&
      (s.step (.call 2 (.release 7))).any fun s₁ => s₁.proc 2 = .unblocking (.releasePointer 7) &&
        (s₁.step (.resume 2)).any fun s₂ => s₂.proc 2 = .outside) (by decide +kernel)
  simp only [Bool.and_eq_true, decide_eq_true_eq, Option.any_eq_true] at done
  obtain ⟨⟨⟨⟨⟨waits, active⟩, slots⟩, pointed⟩, named⟩, s₁, calls, inside, s₂, resumes, out⟩ := done
  have absent : ∀ q, q ≠ 1 → s₀.proc q = .outside := by
    intro q other
    exact reaches.within q (by simp [oneReceiver, Act.pid, other.symm])
  have known : s₀.WaitersKnown 7 := by
    refine ⟨fun q sender => ?_, fun q receiver => ?_, fun q => ?_, fun _ q => ?_⟩ <;> by_cases same : q = 1
    · rw [SuspendedSend, same, waits] at sender
      cases sender
    · rw [SuspendedSend, absent q same] at sender
      cases sender
    · rw [Globals.Lists, slots, same]
      exact ⟨1, pointed, named⟩
    · rw [SuspendedRecv, absent q same] at receiver
      cases receiver
    · rw [same, waits]
      rfl
    · rw [absent q same]
      rfl
    · rw [same, waits]
      rfl
    · rw [absent q same]
      rfl
  have calm : s₁.Undisturbed 7 (.resume 2) := by
    refine ⟨?_, fun _ pt g w entry runs path => ?_⟩
    · rintro _ _ _ _ ⟨⟩
    · rcases runs.of_resume with ⟨w', atW, _⟩ | ⟨k, atK, rfl⟩
      · rw [inside] at atW
        cases atW
      · rw [inside] at atK
        cases atK
        cases path.release_ends (m := 7) (.inr ⟨_, rfl, rfl⟩) (by rintro ⟨⟩)
  have run : Transition.Run Sys.step (Undisturbed 7) s₁ s₂ := .next .refl calm resumes
  exact ⟨s₀, s₂, by rw [SuspendedRecv, waits]; rfl, out,
    release_leaves_nobody active known calls run (by rw [out]; rfl)⟩

/-- Two receivers wait and the mailbox is released. -/
def twoReceivers : List Act :=
  [.call 1 (.create 5 50 true), .call 1 (.recv 7 ⟨true, 50⟩), .call 2 (.recv 7 ⟨true, 50⟩), .call 3 (.release 7),
    .resume 3]

theorem release_leaves_receiver : ∃ s, Reaches twoReceivers s ∧ s.returned (.release 7) = [(0, ⟨0, []⟩)] ∧
    (s.globals.mailboxes 7).isActive = false ∧ s.SuspendedRecv 7 1 := by
  obtain ⟨s, reaches, stuck⟩ := exists_reaches twoReceivers
    (fun s => s.returned (.release 7) = [(0, ⟨0, []⟩)] && !(s.globals.mailboxes 7).isActive &&
      (s.proc 1).blockedIn (Wait.receivesFrom 7)) (by decide +kernel)
  simp only [Bool.and_eq_true, Bool.not_eq_true', decide_eq_true_eq] at stuck
  obtain ⟨⟨returned, inactive⟩, receiver⟩ := stuck
  exact ⟨s, reaches, returned, inactive, receiver⟩

end Sys

end UslossKernel
