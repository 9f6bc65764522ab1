import UslossKernel.ReleaseSteps

namespace UslossKernel

/-- The messages in the ring of `m`, oldest first. -/
def Globals.pending (g : Globals) (m : MboxId) : List Message :=
  (g.mailboxSlotQueues m).window.map fun i => (g.mailSlots i).contents

namespace Sys

/-- The release of `m` goes from `s` to `s'` and leaves the mailbox that has
the id now as the operations on that have left it. -/
structure LeavesNext (m : MboxId) (s s' : Sys) : Prop where
  active : (s'.globals.mailboxes m).isActive = true
  allocated : (s'.globals.mailboxSlotQueues m).queue ≠ none
  head : (s'.globals.mailboxSlotQueues m).head = (s.globals.mailboxSlotQueues m).head
  tail : (s'.globals.mailboxSlotQueues m).tail = (s.globals.mailboxSlotQueues m).tail
  count : (s'.globals.mailboxSlotQueues m).count = (s.globals.mailboxSlotQueues m).count
  messages : s'.globals.pending m = s.globals.pending m
  producers : s'.globals.blockedProducers m = s.globals.blockedProducers m
  consumers : s'.globals.blockedConsumers m = s.globals.blockedConsumers m

/-- The action is a call of `MboxCreate` that is given `m`. -/
def Creates (m : MboxId) (s : Sys) (a : Act) : Prop :=
  s.globals.firstInactive = some m ∧ ∃ q numSlots slotSize malloc, a = .call q (.create numSlots slotSize malloc)

variable {m : MboxId} {r : Pid}

/-- An inactive mailbox becomes active in no other way. -/
theorem creates_of_activates {s s' : Sys} {a : Act} (inactive : (s.globals.mailboxes m).isActive = false)
    (active : (s'.globals.mailboxes m).isActive = true) (moves : s.step a = some s') : Creates m s a := by
  cases step_move moves with
  | idle => rw [inactive] at active; cases active
  | @segment p pt _ here =>
    have path := Point.exec_path s.globals p pt
    unfold run at active
    generalize pt.exec s.globals p = seg at path active
    by_cases lives : ∀ f, seg.2 ≠ .faults f
    · rw [after_globals lives] at active
      by_cases begins : ∃ k, pt = .afterUnblock k ∧ k.releases m = true
      · obtain ⟨k, back, releases⟩ := begins
        have ends := path.release_ends (.inr ⟨k, releases, back⟩) (by rw [back]; rintro ⟨⟩)
        rw [(ends.status fun _ => inactive).1] at active
        cases active
      by_contra other
      have apart : ∀ k, pt = .afterUnblock k → k.releases m = false := by simpa using begins
      have fresh : pt.fn = .create → s.globals.firstInactive ≠ some m := by
        intro creates found
        cases pt with
        | start c =>
          cases c with
          | create numSlots slotSize malloc => exact other ⟨found, p, numSlots, slotSize, malloc, rfl⟩
          | _ => cases creates
        | afterBlock w => cases w <;> cases creates
        | afterUnblock k => cases k <;> cases creates
      rcases (path.leaves inactive fresh apart).mailbox with same | ⟨_, same⟩ <;> rw [same] at active
      · rw [inactive] at active
        cases active
      · simp [inactive] at active
    · push Not at lives
      obtain ⟨f, faults⟩ := lives
      rw [after, faults, settle, enter_globals, inactive] at active
      cases active

/-- Where a mailbox has become active on the way, it was created on the way. -/
theorem created_between {s₁ s₂ : Sys} (inactive : (s₁.globals.mailboxes m).isActive = false)
    (run : Transition.Run Sys.step (fun _ _ => True) s₁ s₂) (active : (s₂.globals.mailboxes m).isActive = true) :
    ∃ s s' a, Transition.Run Sys.step (fun _ _ => True) s₁ s ∧ Creates m s a ∧ s.step a = some s' ∧
      Transition.Run Sys.step (fun _ _ => True) s' s₂ := by
  induction run with
  | refl => rw [inactive] at active; cases active
  | @tail before after earlier last ih =>
    cases status : (before.globals.mailboxes m).isActive with
    | true =>
      obtain ⟨s, s', a, first, creates, moves, rest⟩ := ih status
      exact ⟨s, s', a, first, creates, moves, rest.tail last⟩
    | false =>
      obtain ⟨a, _, moves⟩ := last
      exact ⟨before, after, a, earlier, creates_of_activates status active moves, moves, .refl⟩

/-- A release that returns frees the ring, whoever has it now. -/
theorem returned_release_frees {s s' : Sys} (inside : (s.proc r).unblockingIn (Cont.releases m) = true)
    (resumes : s.step (.resume r) = some s') (returned : (s'.proc r).unblockingIn (Cont.releases m) = false) :
    (s'.globals.mailboxSlotQueues m).queue = none := by
  obtain ⟨k, atK, releases⟩ : ∃ k, s.proc r = .unblocking k ∧ k.releases m = true := by
    cases atR : s.proc r <;> simp_all
  simp only [step, atK, Option.ite_none_right_eq_some, Option.some.injEq] at resumes
  obtain ⟨_, rfl⟩ := resumes
  have ends := (Point.exec_path s.globals r (.afterUnblock k)).release_ends (.inr ⟨k, releases, rfl⟩) (by rintro ⟨⟩)
  unfold run at returned ⊢
  generalize (Point.afterUnblock k).exec s.globals r = seg at ends returned ⊢
  cases ends with
  | wakesProducer | wakesConsumer | wakesPointer =>
    rw [unblocks_self] at returned
    simp [Cont.releases] at returned
  | returns => simp [after, settle, returnCode]

/-- A release that is still under way when the id has been handed out again
does not leave the new mailbox alone, whatever happens in between. -/
theorem release_damages_next {s₀ s₁ s₂ s₃ : Sys} (released : (s₀.globals.mailboxes m).isActive = true)
    (calls : s₀.step (.call r (.release (m : Nat))) = some s₁)
    (run : Transition.Run Sys.step (fun _ _ => True) s₁ s₂)
    (inside : (s₂.proc r).unblockingIn (Cont.releases m) = true) (next : (s₂.globals.mailboxes m).isActive = true)
    (resumes : s₂.step (.resume r) = some s₃) (returned : (s₃.proc r).unblockingIn (Cont.releases m) = false) :
    (∃ s s' a, Transition.Run Sys.step (fun _ _ => True) s₁ s ∧ Creates m s a ∧ s.step a = some s' ∧
      Transition.Run Sys.step (fun _ _ => True) s' s₂) ∧ ¬ LeavesNext m s₂ s₃ := by
  simp only [step, Option.ite_none_right_eq_some, Option.some.injEq] at calls
  obtain ⟨_, rfl⟩ := calls
  have ends := (Point.exec_path s₀.globals r _).release_ends (.inl rfl) fun _ => released
  have inactive : ((s₀.run r (.start (.release (m : Nat)))).globals.mailboxes m).isActive = false := by
    unfold Sys.run
    generalize Point.exec s₀.globals r (.start (.release (m : Nat))) = seg at ends
    have lives : ∀ f, seg.2 ≠ .faults f := by
      cases ends <;> rintro _ ⟨⟩
    rw [after_globals lives]
    exact (ends.status (by rintro ⟨_, ⟨⟩⟩)).1
  refine ⟨created_between inactive run next, fun leaves => ?_⟩
  exact leaves.allocated (returned_release_frees inside resumes returned)

/-- A receiver waits on the mailbox 7. -/
def waitsOnSeven : List Act :=
  [.call 1 (.create 5 50 true), .call 1 (.recv 7 ⟨true, 50⟩)]

/-- While the release of the mailbox wakes the receiver, the id is handed out
again and a message is sent. -/
def nextUsed : List Act :=
  [.call 3 (.create 5 50 true), .call 3 (.send 7 (some [65]) 1), .yield 3]

/-- The mailbox is released, `nextUsed` happens, and the release returns. -/
def overlapped (test : Sys → Sys → Bool) (s₀ : Sys) : Bool :=
  (s₀.step (.call 2 (.release 7))).any fun s₁ =>
    (Transition.execute Sys.step (fun _ _ => true) s₁ nextUsed).any fun s₂ =>
      (s₂.proc 2).unblockingIn (Cont.releases 7) && (s₂.globals.mailboxes 7).isActive &&
        (s₂.step (.resume 2)).any fun s₃ => s₃.proc 2 = .outside && test s₂ s₃

theorem exists_overlapped {test : Sys → Sys → Bool} {s₀ : Sys} (passes : s₀.overlapped test = true) :
    ∃ s₁ s₂ s₃, s₀.step (.call 2 (.release 7)) = some s₁ ∧
      Transition.Run Sys.step (fun _ _ => True) s₁ s₂ ∧ (s₂.proc 2).unblockingIn (Cont.releases 7) = true ∧
      (s₂.globals.mailboxes 7).isActive = true ∧ s₂.step (.resume 2) = some s₃ ∧ s₃.proc 2 = .outside ∧
      test s₂ s₃ = true := by
  simp only [overlapped, Option.any_eq_true, Bool.and_eq_true, decide_eq_true_eq] at passes
  obtain ⟨s₁, calls, s₂, executed, ⟨inside, next⟩, s₃, resumes, out, holds⟩ := passes
  have run := (Transition.Run.of_executed executed).mono fun _ _ _ => trivial
  exact ⟨s₁, s₂, s₃, calls, run, inside, next, resumes, out, holds⟩

theorem release_damages_next_run :
    ∃ s₂ s₃ : Sys, (s₂.globals.mailboxSlotQueues 7).count = 1 ∧ ¬ LeavesNext 7 s₂ s₃ := by
  obtain ⟨s₀, _, ready⟩ := exists_reaches waitsOnSeven
    (fun s => (s.globals.mailboxes 7).isActive && s.overlapped fun s₂ _ => (s₂.globals.mailboxSlotQueues 7).count = 1)
    (by decide +kernel)
  simp only [Bool.and_eq_true] at ready
  obtain ⟨s₁, s₂, s₃, calls, run, inside, next, resumes, out, one⟩ := exists_overlapped ready.2
  have damages := release_damages_next ready.1 calls run inside next resumes (by rw [out]; rfl)
  exact ⟨s₂, s₃, of_decide_eq_true one, damages.2⟩

/-- The new mailbox is left active without a ring, and its message is lost. -/
theorem next_mailbox_damaged : ∃ s₀ s₁ s₂ s₃, Reaches waitsOnSeven s₀ ∧ s₀.step (.call 2 (.release 7)) = some s₁ ∧
    (s₁.globals.mailboxes 7).isActive = false ∧ Transition.Run Sys.step (fun _ _ => True) s₁ s₂ ∧
    s₂.returned .create = [(0, ⟨7, []⟩), (1, ⟨7, []⟩)] ∧ (s₂.globals.mailboxSlotQueues 7).count = 1 ∧
    s₂.step (.resume 2) = some s₃ ∧ s₃.returned (.release 7) = [(0, ⟨0, []⟩)] ∧
    (s₃.globals.mailboxes 7).isActive = true ∧ (s₃.globals.mailboxSlotQueues 7).queue = none ∧
    (s₃.globals.mailboxSlotQueues 7).count = 0 ∧ ¬ LeavesNext 7 s₂ s₃ := by
  obtain ⟨s₀, reaches, ready⟩ := exists_reaches waitsOnSeven
    (fun s => ((s.step (.call 2 (.release 7))).any fun s₁ => !(s₁.globals.mailboxes 7).isActive) &&
      s.overlapped fun s₂ s₃ => s₂.returned .create = [(0, ⟨7, []⟩), (1, ⟨7, []⟩)] &&
        (s₂.globals.mailboxSlotQueues 7).count = 1 && s₃.returned (.release 7) = [(0, ⟨0, []⟩)] &&
        (s₃.globals.mailboxes 7).isActive && (s₃.globals.mailboxSlotQueues 7).queue.isNone &&
        (s₃.globals.mailboxSlotQueues 7).count = 0) (by decide +kernel)
  simp only [Bool.and_eq_true, Option.any_eq_true, Bool.not_eq_true'] at ready
  obtain ⟨⟨s₁', calls', inactive⟩, overlaps⟩ := ready
  obtain ⟨s₁, s₂, s₃, calls, run, _, _, resumes, _, holds⟩ := exists_overlapped overlaps
  obtain rfl : s₁' = s₁ := Option.some.inj (calls'.symm.trans calls)
  simp only [Bool.and_eq_true, decide_eq_true_eq, Option.isNone_iff_eq_none] at holds
  obtain ⟨⟨⟨⟨⟨created, one⟩, returned⟩, active⟩, freed⟩, empty⟩ := holds
  exact ⟨s₀, s₁', s₂, s₃, reaches, calls, inactive, run, created, one, resumes, returned, active, freed, empty,
    fun leaves => leaves.allocated freed⟩

end Sys

end UslossKernel
