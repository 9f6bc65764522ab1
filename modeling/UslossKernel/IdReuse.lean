import UslossKernel.Transfers
import UslossKernel.Waiting

namespace UslossKernel

namespace Sys

/-- Between the two states the call of `p` in `w` has returned -1, and no
message has been stored or removed anywhere. -/
def FailsCleanly (p : Pid) (w : Wait) (s s' : Sys) : Prop :=
  s'.returned = Function.update s.returned w.fn (s.returned w.fn ++ [(s.ordinal p, ⟨-1, []⟩)]) ∧
    s.globals.SameMail s'.globals

/-- What the resumed call finds in the mailbox its id now stands for: nothing
active, or, for a receiver, nothing to take. -/
def FindsNothing (w : Wait) (s : Sys) : Prop :=
  (s.globals.mailboxes w.mbox).isActive = false ∨
    (∃ m buffer, w = .recvEmpty m buffer) ∧ (s.globals.mailboxSlotQueues w.mbox).count = 0

variable {s : Sys} {p : Pid} {w : Wait} {g : Globals}

theorem not_failsCleanly_of_returned {outcome : Outcome} (silent : ∀ r, outcome ≠ .returns r) :
    ¬ FailsCleanly p w s (s.after p (.afterBlock w) (g, outcome)) := by
  rintro ⟨returned, _⟩
  have same : (s.after p (.afterBlock w) (g, outcome)).returned = s.returned := by
    cases outcome with
    | returns r => exact absurd rfl (silent r)
    | blocks | unblocks | faults => rfl
  have longer := congrArg List.length (congrFun (same.symm.trans returned) w.fn)
  simp at longer

theorem not_failsCleanly_of_mail {r : Result} (changed : ¬ s.globals.SameMail g) :
    ¬ FailsCleanly p w s (s.after p (.afterBlock w) (g, .returns r)) :=
  fun fails => changed fails.2

theorem not_sameMail_of_store {g g' : Globals} {m : MboxId} {msg : Message}
    (stored : g'.stored = Function.update g.stored m (g.stored m ++ [msg])) : ¬ g.SameMail g' := by
  intro same
  have longer := congrArg List.length (congrFun (same.stored.symm.trans stored) m)
  simp at longer

theorem not_sameMail_of_take {g g' : Globals} {m : MboxId} {delivery : Delivery}
    (taken : g'.taken = Function.update g.taken m (g.taken m ++ [delivery])) : ¬ g.SameMail g' := by
  intro same
  have longer := congrArg List.length (congrFun (same.taken.symm.trans taken) m)
  simp at longer

/-- A resumed call fails cleanly exactly where it finds nothing. -/
theorem resumed_failsCleanly_iff {seg : Segment} (path : Path s.globals p (.afterBlock w) seg) :
    FailsCleanly p w s (s.after p (.afterBlock w) seg) ↔ FindsNothing w s := by
  have stored : ∀ {n msg k}, StorePoint s.globals (.afterBlock w) n msg k → ¬ FindsNothing w s := by
    rintro n msg k at_ (inactive | ⟨⟨m, buffer, receiver⟩, _⟩)
    · have active := at_.active
      cases at_
      exact absurd (active.symm.trans inactive) (by simp)
    · cases at_
      cases receiver
  have taken : ∀ {g₀ n buffer k}, TakePoint s.globals (.afterBlock w) g₀ n buffer k →
      (∀ delivery, (g₀.dequeueSlot n delivery).taken =
        Function.update s.globals.taken n (s.globals.taken n ++ [delivery])) ∧ ¬ FindsNothing w s := by
    intro g₀ n buffer k at_
    refine ⟨fun delivery => by rw [Globals.dequeueSlot_taken, at_.sameMail.taken], ?_⟩
    have active := at_.active
    have occupied := at_.occupied
    rintro (inactive | ⟨_, empty⟩) <;> cases at_
    · exact absurd (active.symm.trans inactive) (by simp)
    · exact occupied.ne' empty
  cases path with
  | resumedFullBlocks active =>
    refine iff_of_false (not_failsCleanly_of_returned (by simp)) ?_
    rintro (inactive | ⟨⟨_, _, receiver⟩, _⟩)
    · exact absurd (active.symm.trans inactive) (by simp)
    · cases receiver
  | storeFaults at_ => exact iff_of_false (not_failsCleanly_of_returned (by simp)) (stored at_)
  | takeFaults at_ => exact iff_of_false (not_failsCleanly_of_returned (by simp)) (taken at_).2
  | stores at_ => exact iff_of_false (not_failsCleanly_of_mail (not_sameMail_of_store rfl)) (stored at_)
  | storesAndWakes at_ => exact iff_of_false (not_failsCleanly_of_returned (by simp)) (stored at_)
  | takeRejects at_ | takes at_ =>
    obtain ⟨changed, something⟩ := taken at_
    exact iff_of_false (not_failsCleanly_of_mail (not_sameMail_of_take (changed _))) something
  | takesAndWakes at_ => exact iff_of_false (not_failsCleanly_of_returned (by simp)) (taken at_).2
  | resumedEmpty _ empty =>
    exact iff_of_true ⟨rfl, Globals.clearConsumers_sameMail ..⟩ (.inr ⟨⟨_, _, rfl⟩, empty⟩)
  | resumedInactive inactive => exact iff_of_true ⟨rfl, .refl _⟩ (.inl inactive)
  | resumedZero same active =>
    refine iff_of_false ?_ ?_
    · rintro ⟨returned, _⟩
      rw [returnCode, returned_returns] at returned
      have last := congrFun returned w.fn
      simp [Point.fn] at last
    · rintro (inactive | ⟨⟨_, _, receiver⟩, _⟩) <;> rcases same with rfl | rfl
      · exact absurd (active.symm.trans inactive) (by simp)
      · exact absurd (active.symm.trans inactive) (by simp)
      · cases receiver
      · cases receiver
  | releaseWakesProducer at_ | releaseWakesConsumer at_ | releaseWakesPointer at_ | releaseReturns at_ =>
    exact (ReleaseAt.not_afterBlock at_).elim

/-- A call that waits does so until its process acts. -/
theorem waits_after {s s' : Sys} {a : Act} (other : a.pid ≠ p) (moves : s.step a = some s')
    (waits : s.proc p = .blocked w ∨ s.proc p = .woken w) : s'.proc p = .blocked w ∨ s'.proc p = .woken w := by
  cases step_move moves with
  | @segment q pt _ here =>
    rw [Point.act_pid] at other
    unfold run after
    generalize pt.exec s.globals q = seg
    obtain ⟨g, outcome⟩ := seg
    cases outcome with
    | returns | blocks => simpa only [settle, enter_proc, Function.update_of_ne other.symm] using waits
    | unblocks pid k =>
      simp only [settle, enter_proc]
      by_cases named : p = pid
      · subst named
        rw [Function.update_self, Function.update_of_ne other.symm]
        rcases waits with atW | atW <;> rw [atW] <;> exact .inr rfl
      · rwa [Function.update_of_ne named, Function.update_of_ne other.symm]
    | faults => simpa only [settle, enter_proc] using waits
  | idle => simpa only [Function.update_of_ne other.symm] using waits

/-- A call suspended on a mailbox when that is released fails cleanly, whatever
happens before it resumes, exactly where it finds nothing under its id then. -/
theorem released_call_fails_iff {s₀ s₁ s₂ s₃ : Sys} {r : Pid} (suspended : s₀.proc p = .blocked w)
    (released : s₀.step (.call r (.release (w.mbox : Nat))) = some s₁)
    (others : Transition.Run Sys.step (fun _ a => a.pid ≠ p) s₁ s₂) (resumes : s₂.step (.resume p) = some s₃) :
    FailsCleanly p w s₂ s₃ ↔ FindsNothing w s₂ := by
  have caller : r ≠ p := by
    rintro rfl
    simp [step, suspended] at released
  have first := waits_after (a := .call r (.release (w.mbox : Nat))) caller released (.inl suspended)
  have waits : s₂.proc p = .blocked w ∨ s₂.proc p = .woken w :=
    others.invariant (fun s => s.proc p = .blocked w ∨ s.proc p = .woken w) first
      fun _ _ _ waits other moves => waits_after other moves waits
  simp only [step, Option.ite_none_right_eq_some] at resumes
  obtain ⟨_, resumes⟩ := resumes
  rcases waits with atW | atW <;> rw [atW] at resumes
  · cases resumes
  · obtain rfl := Option.some.inj resumes
    exact resumed_failsCleanly_iff (Point.exec_path ..)

/-- A receiver waits on the mailbox 7. -/
def receiverWaits : List Act :=
  [.call 1 (.create 5 50 true), .call 1 (.recv 7 ⟨true, 50⟩)]

/-- The mailbox is released, `between` happens, and the receiver resumes. -/
def releasedThen (between : List Act) (test : Sys → Sys → Bool) (s : Sys) : Bool :=
  (s.step (.call 2 (.release 7))).any fun s₁ => !(s₁.globals.mailboxes 7).isActive &&
    (Transition.execute Sys.step (fun _ a => a.pid ≠ 1) s₁ between).any fun s₂ => (s₂.step (.resume 1)).any (test s₂)

theorem exists_releasedThen {between : List Act} {test : Sys → Sys → Bool} {s : Sys}
    (passes : s.releasedThen between test = true) : ∃ s₁ s₂ s₃, s.step (.call 2 (.release 7)) = some s₁ ∧
      (s₁.globals.mailboxes 7).isActive = false ∧ Transition.Run Sys.step (fun _ a => a.pid ≠ 1) s₁ s₂ ∧
      s₂.step (.resume 1) = some s₃ ∧ test s₂ s₃ = true := by
  simp only [releasedThen, Option.any_eq_true, Bool.and_eq_true, Bool.not_eq_true'] at passes
  obtain ⟨s₁, released, inactive, s₂, executed, s₃, resumes, holds⟩ := passes
  have others : Transition.Run Sys.step (fun _ a => a.pid ≠ 1) s₁ s₂ :=
    (Transition.Run.of_executed executed).mono fun _ _ both => of_decide_eq_true both.1
  exact ⟨s₁, s₂, s₃, released, inactive, others, resumes, holds⟩

theorem released_call_fails_run : ∃ s₂ s₃, s₃.returned (.recv 7) = [(0, ⟨-1, []⟩)] ∧
    FailsCleanly 1 (.recvEmpty 7 ⟨true, 50⟩) s₂ s₃ := by
  obtain ⟨s, _, done⟩ := exists_reaches receiverWaits
    (fun s => s.proc 1 = .blocked (.recvEmpty 7 ⟨true, 50⟩) && s.releasedThen [.resume 2, .yield 2] fun s₂ s₃ =>
      (s₂.globals.mailboxes 7).isActive = false && s₃.returned (.recv 7) = [(0, ⟨-1, []⟩)]) (by decide +kernel)
  simp only [Bool.and_eq_true, decide_eq_true_eq] at done
  obtain ⟨suspended, later⟩ := done
  obtain ⟨s₁, s₂, s₃, released, _, others, resumes, holds⟩ := exists_releasedThen later
  simp only [Bool.and_eq_true, decide_eq_true_eq] at holds
  exact ⟨s₂, s₃, holds.2, (released_call_fails_iff suspended released others resumes).mpr (.inl holds.1)⟩

/-- Meanwhile the id is handed out again, a message is sent to the new mailbox
and a second sender finds that full. -/
def reused : List Act :=
  [.resume 2, .call 2 (.create 1 50 true), .call 2 (.send 7 (some [65]) 1), .call 2 (.send 7 (some [66]) 1)]

/-- The receiver that waited on the old mailbox takes the message of the new one. -/
theorem released_call_takes_message : ∃ s₀ s₁ s₂ s₃, Reaches receiverWaits s₀ ∧
    s₀.proc 1 = .blocked (.recvEmpty 7 ⟨true, 50⟩) ∧ (s₀.globals.mailboxes 7).isActive = true ∧
    s₀.step (.call 2 (.release 7)) = some s₁ ∧ (s₁.globals.mailboxes 7).isActive = false ∧
    Transition.Run Sys.step (fun _ a => a.pid ≠ 1) s₁ s₂ ∧ s₂.step (.resume 1) = some s₃ ∧
    s₃.globals.taken 7 = [⟨50, ⟨1, [65]⟩⟩] ∧ ¬ FailsCleanly 1 (.recvEmpty 7 ⟨true, 50⟩) s₂ s₃ := by
  obtain ⟨s₀, reaches, done⟩ := exists_reaches receiverWaits
    (fun s => (s.proc 1 = .blocked (.recvEmpty 7 ⟨true, 50⟩) && (s.globals.mailboxes 7).isActive) &&
      s.releasedThen reused fun s₂ s₃ => s₂.globals.taken 7 = [] && s₃.globals.taken 7 = [⟨50, ⟨1, [65]⟩⟩])
    (by decide +kernel)
  simp only [Bool.and_eq_true, decide_eq_true_eq] at done
  obtain ⟨⟨suspended, active⟩, later⟩ := done
  obtain ⟨s₁, s₂, s₃, released, inactive, others, resumes, holds⟩ := exists_releasedThen later
  simp only [Bool.and_eq_true, decide_eq_true_eq] at holds
  obtain ⟨before, after⟩ := holds
  refine ⟨s₀, s₁, s₂, s₃, reaches, suspended, active, released, inactive, others, resumes, after, fun fails => ?_⟩
  have same := congrFun fails.2.taken 7
  rw [before, after] at same
  cases same

end Sys

end UslossKernel
