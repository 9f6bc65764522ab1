import UslossKernel.Clients
import UslossKernel.SemaphoreBoxes

namespace UslossKernel

namespace SemBoxes

/-- The mailbox of a semaphore. -/
def OwnsMailbox (s : SemBoxes) (i : SemId) (m : MboxId) : Prop :=
  (s.sems i).mboxID = (m : Nat) ∧ (s.sys.globals.mailboxes m).isActive = true ∧
    (s.sys.globals.mailboxes m).numSlots = 0

/-- Every semaphore in use has an active zero-slot mailbox that no other has. -/
def Owned (s : SemBoxes) : Prop :=
  ∀ i, (s.sems i).in_use = true → (∃ m, s.OwnsMailbox i m) ∧
    ∀ j, (s.sems j).in_use = true → (s.sems j).mboxID = (s.sems i).mboxID → j = i

/-- If `MboxCreate` returns -1 the creation reports failure and leaves the
semaphores as they are. -/
def HandlesFailure (s : SemBoxes) (creation : SemCreation) (malloc : Bool) : Prop :=
  s.newMbox malloc = -1 → creation.finish s.sems (s.newMbox malloc) = (s.sems, ⟨-1, none⟩)

/-- A creation that finds an entry gets a mailbox for it. -/
def Gets (s : SemBoxes) (creation : SemCreation) (malloc : Bool) : Prop :=
  creation.entry s.sems = none ∨ malloc = true ∧ s.sys.globals.firstInactive ≠ none

/-- Creations get their mailboxes, and nobody releases the mailbox of a semaphore. -/
structure Supplied (s : SemBoxes) (a : SemBoxAct) : Prop where
  gets : ∀ p creation malloc, a = .create p creation malloc → s.Gets creation malloc
  kept : ∀ p id i, a = .mailbox (.call p (.release id)) → (s.sems i).in_use = true → (s.sems i).mboxID ≠ id

end SemBoxes

theorem mboxCreate_ret (g : Globals) (malloc : Bool) : (mboxCreate g 0 0 malloc).2.ret =
    match g.firstInactive with
    | none => -1
    | some m => if malloc then ((m : Nat) : Int) else -1 := by
  unfold mboxCreate
  rw [if_neg (by decide)]
  cases g.firstInactive with
  | none => rfl
  | some m => cases malloc <;> rfl

/-- A mailbox keeps its status unless its release begins. -/
theorem Sys.step_status {s s' : Sys} {a : Act} {m : MboxId} (unreleased : Sys.Unreleased m s a)
    (moves : s.step a = some s') (active : (s.globals.mailboxes m).isActive = true) :
    (s'.globals.mailboxes m).isActive = true ∧
      (s'.globals.mailboxes m).numSlots = (s.globals.mailboxes m).numSlots := by
  cases step_move moves with
  | @segment p pt => exact (s.run_transfer p pt).status active unreleased.point
  | idle => exact ⟨active, rfl⟩

namespace SemBoxes

variable {s s' : SemBoxes} {a : SemBoxAct} {i : SemId} {m : MboxId} {creation : SemCreation} {malloc : Bool} {p : Pid}

theorem OwnsMailbox.step {sys : Sys} {b : Act} (owns : s.OwnsMailbox i m) (unreleased : Sys.Unreleased m s.sys b)
    (moves : s.sys.step b = some sys) {sems : Sems} (same : (sems i).mboxID = (s.sems i).mboxID) :
    OwnsMailbox ⟨sys, sems⟩ i m := by
  obtain ⟨mboxID, active, zero⟩ := owns
  obtain ⟨still, slots⟩ := Sys.step_status unreleased moves active
  exact ⟨same.trans mboxID, still, slots.trans zero⟩

/-- A step of the mailbox layer that leaves the mailboxes of the semaphores. -/
theorem Owned.congr {sys : Sys} {b : Act} {sems : Sems} (owned : s.Owned) (moves : s.sys.step b = some sys)
    (unreleased : ∀ i m, (s.sems i).in_use = true → s.OwnsMailbox i m → Sys.Unreleased m s.sys b)
    (same : ∀ j, (sems j).in_use = (s.sems j).in_use ∧ (sems j).mboxID = (s.sems j).mboxID) :
    Owned ⟨sys, sems⟩ := by
  intro i used
  have before : (s.sems i).in_use = true := (same i).1.symm.trans used
  obtain ⟨⟨m, owns⟩, alone⟩ := owned i before
  refine ⟨⟨m, owns.step (unreleased i m before owns) moves (same i).2⟩, fun j usedJ named => ?_⟩
  exact alone j ((same j).1.symm.trans usedJ) (by rw [← (same j).2, ← (same i).2]; exact named)

theorem Gets.newMbox (gets : s.Gets creation malloc) (found : creation.entry s.sems = some i) :
    ∃ m, malloc = true ∧ s.sys.globals.firstInactive = some m ∧ s.newMbox malloc = (m : Nat) := by
  rcases gets with none | ⟨rfl, available⟩
  · rw [none] at found
    cases found
  · obtain ⟨m, atM⟩ := Option.ne_none_iff_exists'.mp available
    exact ⟨m, rfl, atM, by rw [SemBoxes.newMbox, mboxCreate_ret, atM]; rfl⟩

/-- A new semaphore gets a mailbox that was not in use. -/
theorem Owned.create (owned : s.Owned) (found : creation.entry s.sems = some i) (gets : s.Gets creation malloc)
    {sys : Sys} (moves : s.sys.step (.call p (.create 0 0 malloc)) = some sys) :
    Owned ⟨sys, s.sems.sysSemcreate i creation.value (s.newMbox malloc)⟩ := by
  obtain ⟨m, rfl, available, named⟩ := gets.newMbox found
  have inactive := Globals.firstInactive_spec available
  have others : ∀ j, j ≠ i → s.sems.sysSemcreate i creation.value (m : Nat) j = s.sems j := fun j different =>
    Sems.sysSemcreate_of_ne different ..
  have here : (s.sems.sysSemcreate i creation.value (m : Nat) i).mboxID = (m : Nat) := by
    rw [Sems.sysSemcreate, Function.update_self]
  have created : (sys.globals.mailboxes m).isActive = true ∧ (sys.globals.mailboxes m).numSlots = 0 := by
    simp only [Sys.step, Option.ite_none_right_eq_some, Option.some.injEq] at moves
    obtain ⟨_, rfl⟩ := moves
    have exec : Point.exec s.sys.globals p (.start (.create 0 0 true)) =
        returnCode (s.sys.globals.createMailbox m 0 0) (m : Nat) := by
      simp only [Point.exec, Call.start, mboxCreate, available]
      rw [if_neg (by decide)]
      rfl
    rw [Sys.run, exec, Sys.after_globals (by simp [returnCode])]
    simp [returnCode]
  have unreleased : ∀ n, Sys.Unreleased n s.sys (.call p (.create 0 0 true)) := fun n q released => by cases released
  have apart : ∀ j, (s.sems j).in_use = true → (s.sems j).mboxID ≠ (m : Nat) := by
    intro j used same
    obtain ⟨⟨n, sameN, active, _⟩, _⟩ := owned j used
    obtain rfl : n = m := Fin.ext (by exact_mod_cast sameN.symm.trans same)
    rw [inactive] at active
    cases active
  have usedBefore : ∀ j, j ≠ i → (s.sems.sysSemcreate i creation.value (m : Nat) j).in_use = true →
      (s.sems j).in_use = true := fun j different used => by rwa [others j different] at used
  rw [named]
  intro j used
  by_cases new : j = i
  · subst new
    refine ⟨⟨m, here, created⟩, fun k usedK same => ?_⟩
    by_contra different
    have usedK := usedBefore k different usedK
    simp only [here, others k different] at same
    exact apart k usedK same
  · have usedJ := usedBefore j new used
    obtain ⟨⟨n, owns⟩, alone⟩ := owned j usedJ
    refine ⟨⟨n, owns.step (unreleased n) moves (by rw [others j new])⟩, fun k usedK same => ?_⟩
    by_cases newK : k = i
    · subst newK
      simp only [here, others j new] at same
      exact (apart j usedJ same.symm).elim
    · simp only [others j new, others k newK] at same
      exact alone k (usedBefore k newK usedK) same

theorem mailboxCall_ne_release (call : SemCall) (mboxID id : Int) : call.mailboxCall mboxID ≠ .release id := by
  unfold SemCall.mailboxCall
  split <;> simp

theorem Owned.step (owned : s.Owned) (supplied : s.Supplied a) (moves : s.step a = some s') : s'.Owned := by
  cases a with
  | create p creation malloc =>
    obtain ⟨_, rfl | ⟨i, sys, found, ran, rfl⟩⟩ := create_cases moves
    · exact owned
    · exact owned.create found (supplied.gets p creation malloc rfl) ran
  | call p call index =>
    obtain ⟨_, ⟨_, rfl⟩ | ⟨sems, i, sys, starts, ran, rfl⟩⟩ := call_cases moves
    · have same := (SemCall.start_keeps (Prod.mk.eta (p := call.start s.sems index)).symm).1
      intro i used
      obtain ⟨⟨m, owns⟩, alone⟩ := owned i ((same i).1.symm.trans used)
      refine ⟨⟨m, (same i).2.trans owns.1, owns.2⟩, fun j usedJ named => ?_⟩
      exact alone j ((same j).1.symm.trans usedJ) (by rw [← (same j).2, ← (same i).2]; exact named)
    · refine owned.congr ran (fun i m _ _ q released => ?_) (SemCall.start_keeps starts).1
      simp only [Act.call.injEq] at released
      exact mailboxCall_ne_release _ _ _ released.2
  | mailbox b =>
    obtain ⟨sys, moved, rfl⟩ := Option.map_eq_some_iff.mp moves
    refine owned.congr moved (fun i m used owns q released => ?_) fun _ => ⟨rfl, rfl⟩
    subst released
    exact supplied.kept q (m : Nat) i rfl used owns.1

/-- A creation handles the failure of `MboxCreate` only where there is none to
handle, or where it has given up before. -/
theorem handlesFailure_iff : s.HandlesFailure creation malloc ↔ s.Gets creation malloc := by
  unfold HandlesFailure Gets SemCreation.finish
  cases found : creation.entry s.sems with
  | none => exact iff_of_true (fun _ => rfl) (.inl rfl)
  | some i =>
    rw [newMbox, mboxCreate_ret]
    cases s.sys.globals.firstInactive with
    | none => simp
    | some m =>
      cases malloc with
      | false => simp
      | true => exact iff_of_true (fun failed => by simp at failed) (.inr ⟨rfl, by simp⟩)

/-- The mailbox call of a semaphore call passes its checks. -/
theorem Owned.admitted (owned : s.Owned) {call : SemCall} {index : Int} {sems : Sems}
    (starts : call.start s.sems index = (sems, .calls i)) :
    (call.mailboxCall (sems i).mboxID).Admitted s.sys.globals := by
  obtain ⟨same, used⟩ := SemCall.start_keeps starts
  obtain ⟨⟨m, mboxID, active, zero⟩, _⟩ := owned i (Sems.inUse_spec (used i rfl)).2
  have found : s.sys.globals.activeMbox (sems i).mboxID = some m :=
    Globals.activeMbox_eq_some.mpr ⟨(same i).2.trans mboxID, active⟩
  unfold SemCall.mailboxCall
  split
  · exact ⟨m, found, by simp [Globals.accepts], .inl zero⟩
  · exact ⟨m, found, le_rfl⟩

/-- While every creation gets its mailbox and nobody else releases it, each
semaphore has an active zero-slot mailbox of its own, and the mailbox calls of
`P` and `V` find it. A failing `MboxCreate` is handled nowhere. -/
theorem semaphores_own_mailboxes (run : Transition.Run SemBoxes.step Supplied boot s) :
    s.Owned ∧
      (∀ call index sems i, SemCall.start s.sems index call = (sems, .calls i) →
        (call.mailboxCall (sems i).mboxID).Admitted s.sys.globals) ∧
      ∀ creation malloc, s.HandlesFailure creation malloc ↔ s.Gets creation malloc := by
  have owned : s.Owned := run.invariant Owned (fun i used => by cases used) fun _ _ _ owned supplied moves =>
    owned.step supplied moves
  exact ⟨owned, fun call index sems i starts => owned.admitted starts, fun _ _ => handlesFailure_iff⟩

/-- Two semaphores, one by each function, and a `P` that waits. -/
def twoSemaphores : List SemBoxAct :=
  [.create 1 (.sys_semcreate 0) true, .create 1 (.kernSemCreate 3) true, .call 1 (.sys .semp) 0]

/-- A test for `Supplied` that these actions pass. -/
def testSupplied (s : SemBoxes) : SemBoxAct → Bool
  | .create _ _ malloc => malloc && s.sys.globals.firstInactive.isSome
  | .call .. => true
  | .mailbox _ => false

theorem Supplied.of_test (s : SemBoxes) (a : SemBoxAct) (admitted : s.testSupplied a = true) : s.Supplied a := by
  cases a with
  | create p creation malloc =>
    simp only [testSupplied, Bool.and_eq_true] at admitted
    refine ⟨?_, nofun⟩
    rintro _ _ _ ⟨⟩
    exact .inr ⟨admitted.1, Option.isSome_iff_ne_none.mp admitted.2⟩
  | call p call index =>
    exact ⟨nofun, nofun⟩
  | mailbox => cases admitted

theorem semaphores_own_mailboxes_run : ∃ s, Transition.Run SemBoxes.step Supplied boot s ∧ s.Owned ∧
    (s.sems 0).in_use = true ∧ (s.sems 0).mboxID = 8 ∧ (s.sems 1).in_use = true ∧ (s.sems 1).mboxID = 9 := by
  obtain ⟨s, run, done⟩ := Transition.exists_run step boot twoSemaphores testSupplied Supplied.of_test
    (fun s => (s.sems 0).in_use && (s.sems 0).mboxID = 8 && (s.sems 1).in_use && (s.sems 1).mboxID = 9)
    (by decide +kernel)
  simp only [Bool.and_eq_true, decide_eq_true_eq] at done
  obtain ⟨⟨⟨used, first⟩, used'⟩, second⟩ := done
  exact ⟨s, run, (semaphores_own_mailboxes run).1, used, first, used', second⟩

/-- Only `MboxCreate` is called, and `malloc` succeeds. -/
def CreatesMailboxes (_ : SemBoxes) (a : SemBoxAct) : Prop :=
  ∃ p, a = .mailbox (.call p (.create 0 0 true))

/-- `MboxCreate` can be called until no mailbox is left. -/
theorem exists_exhausted (may : s.sys.mayRun 1 = true) (out : s.sys.proc 1 = .outside) :
    ∃ s', Transition.Run SemBoxes.step CreatesMailboxes s s' ∧ s'.sys.globals.firstInactive = none ∧
      s'.sys.mayRun 1 = true ∧ s'.sys.proc 1 = .outside ∧ s'.sems = s.sems := by
  -- by the number of mailboxes that are left
  generalize count : (Finset.univ.filter fun m => (s.sys.globals.mailboxes m).isActive = false).card = left
  induction left generalizing s with
  | zero =>
    refine ⟨s, .refl, ?_, may, out, rfl⟩
    cases found : s.sys.globals.firstInactive with
    | none => rfl
    | some m =>
      have member : m ∈ Finset.univ.filter fun m => (s.sys.globals.mailboxes m).isActive = false := by
        simpa using Globals.firstInactive_spec found
      rw [Finset.card_eq_zero.mp count] at member
      cases member
  | succ left ih =>
    cases found : s.sys.globals.firstInactive with
    | none => exact ⟨s, .refl, found, may, out, rfl⟩
    | some m =>
      have inactive := Globals.firstInactive_spec found
      have exec : Point.exec s.sys.globals 1 (.start (.create 0 0 true)) =
          returnCode (s.sys.globals.createMailbox m 0 0) (m : Nat) := by
        simp only [Point.exec, Call.start, mboxCreate, found]
        rw [if_neg (by decide)]
        rfl
      have moves : s.step (.mailbox (.call 1 (.create 0 0 true))) = some
          ⟨s.sys.after 1 (.start (.create 0 0 true)) (returnCode (s.sys.globals.createMailbox m 0 0) (m : Nat)),
            s.sems⟩ := by
        simp only [step, Sys.step, may, out, and_self, if_true, Option.map_some, Sys.run, exec]
      have fewer : (Finset.univ.filter fun n =>
          ((s.sys.globals.createMailbox m 0 0).mailboxes n).isActive = false).card = left := by
        have erased : (Finset.univ.filter fun n =>
            ((s.sys.globals.createMailbox m 0 0).mailboxes n).isActive = false) =
            (Finset.univ.filter fun n => (s.sys.globals.mailboxes n).isActive = false).erase m := by
          ext n
          by_cases same : n = m
          · simp [same]
          · simp [same]
        rw [erased, Finset.card_erase_of_mem (by simpa using inactive), count]
        rfl
      have may' := may
      simp only [Sys.mayRun, Bool.and_eq_true] at may'
      obtain ⟨s', run, full, mayAfter, outAfter, same⟩ := @ih
        ⟨s.sys.after 1 (.start (.create 0 0 true)) (returnCode (s.sys.globals.createMailbox m 0 0) (m : Nat)), s.sems⟩
        (by simp [Sys.mayRun, Sys.after, Sys.settle, returnCode, Sys.enter, may'.1])
        (by simp [Sys.after, Sys.settle, returnCode]) fewer
      exact ⟨s', .head ⟨_, ⟨1, rfl⟩, moves⟩ run, full, mayAfter, outAfter, same⟩

/-- Once all mailboxes are in use `sys_semcreate` still reports success. The new
semaphore has the mailbox -1, and its first `P` returns at once. -/
theorem semaphore_without_mailbox : ∃ s s', Transition.Run SemBoxes.step CreatesMailboxes boot s ∧
    s.newMbox true = -1 ∧ s.step (.create 1 (.sys_semcreate 0) true) = some s' ∧
    (SemCreation.finish s.sems (s.newMbox true) (.sys_semcreate 0)).2 = ⟨0, some 0⟩ ∧ ¬ s'.Owned ∧
    (SemCall.start s'.sems 0 (.sys .semp)).2 = .calls 0 ∧
    ((SemCall.sys .semp).mailboxCall (s'.sems 0).mboxID).start s'.sys.globals 1 = returnCode s'.sys.globals (-1) := by
  obtain ⟨s, run, full, may, out, same⟩ := @exists_exhausted boot rfl rfl
  have new : s.newMbox true = -1 := by rw [newMbox, mboxCreate_ret, full]
  have entry : SemCreation.entry s.sems (.sys_semcreate 0) = some 0 := by
    rw [same]
    decide
  have exec : Point.exec s.sys.globals 1 (.start (.create 0 0 true)) = returnCode s.sys.globals (-1) := by
    simp only [Point.exec, Call.start, mboxCreate, full]
    rw [if_neg (by decide)]
  have table : (SemCreation.finish s.sems (s.newMbox true) (.sys_semcreate 0)).1 =
      s.sems.sysSemcreate 0 0 (-1) := by rw [SemCreation.finish, entry, new]; rfl
  obtain ⟨s', moves, sems⟩ : ∃ s', s.step (.create 1 (.sys_semcreate 0) true) = some s' ∧
      s'.sems = s.sems.sysSemcreate 0 0 (-1) := by
    simp only [step, may, out, and_self, if_true, entry, Sys.step, Sys.run, exec, Option.map_some, table]
    exact ⟨_, rfl, rfl⟩
  have here : s'.sems 0 = { value := 0, mboxID := -1, in_use := true, blocked := 0 } := by
    rw [sems, same]
    rfl
  have found : Sems.inUse s'.sems 0 = some 0 := by
    rw [sems, same]
    decide
  refine ⟨s, s', run, new, moves, by rw [SemCreation.finish, entry], fun owned => ?_, ?_, ?_⟩
  · obtain ⟨⟨m, mboxID, _⟩, _⟩ := owned 0 (by rw [here])
    rw [here] at mboxID
    simp at mboxID
  · rw [SemCall.start_eq _ found, here]
    rfl
  · rw [here]
    rfl

end SemBoxes

end UslossKernel
