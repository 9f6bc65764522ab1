import UslossKernel.SemaphoreKernel

namespace UslossKernel

namespace SemKernel

/-- The semaphores over ideal mailboxes that a state is one of. -/
structure Refines (k : SemKernel) (s : SemSys) : Prop where
  sems : s.sems = k.sems
  place : s.place = k.place
  backed : k.Backed

/-- The semaphores over ideal mailboxes can follow to this state. -/
def Followed (s : SemSys) (k : SemKernel) : Prop :=
  ∃ s', Transition.Run SemSys.step SemMachine.IdealMailbox s s' ∧ k.Refines s'

variable {k : SemKernel} {s : SemSys} {p : Pid} {i : SemId} {m : MboxId}

theorem Refines.outside (refines : k.Refines s) (out : k.sys.proc p = .outside) : s.place p = .outside := by
  rw [refines.place, SemKernel.place, refines.backed.inside_of_outside out]

theorem Refines.keepsCpu (refines : k.Refines s) (p : Pid) : Refines { k with toSemBoxes := k.keepsCpu p } s :=
  ⟨refines.sems, refines.place,
    refines.backed.congr (fun _ => ⟨rfl, rfl⟩) (fun _ => ⟨rfl, rfl⟩) rfl refines.backed.located⟩

/-- A process that may run on inside a system call comes back from it. -/
theorem Refines.resumes {op : SemOp} {sys : Sys} (refines : k.Refines s)
    (inside : k.inside p = some (op, i)) (awake : (k.sys.proc p).suspended = false)
    (proc : sys.proc = Function.update k.sys.proc p .outside) (same : k.sys.globals.SameMail sys.globals)
    (producers : sys.globals.blockedProducers = k.sys.globals.blockedProducers) :
    Followed s (k.ran p (k.inside p) ⟨sys, k.sems⟩) := by
  obtain ⟨sems, place, backed⟩ := refines
  have matched : s.step (.resume p) = some { s with
      place := Function.update s.place p .outside, returned := countCall s.returned op i } := by
    have here : s.place p = .runnable op i := by simp [place, SemKernel.place, inside, awake]
    rw [SemSys.step, SemMachine.step, here]
  refine ⟨_, .next .refl (.of_resume s p) matched, sems, ?_, backed.congr (fun _ => ⟨rfl, rfl⟩)
    (fun n => ⟨same.active n, same.numSlots n⟩) producers fun q => ?_⟩
  · rw [place]
    refine (place_update (fun q other => ?_) (fun q other => ?_) ?_).symm
    · exact Function.update_of_ne other _ _
    · simp only [ran, proc, Function.update_of_ne other]
    · simp [SemKernel.place, ran, proc]
  · simp only [ran, proc, Function.update_self, if_true]
    by_cases self : q = p
    · subst self
      simpa using Located.outside
    · simpa only [Function.update_of_ne self] using backed.located q

/-- What happens outside both layers changes no place. -/
theorem Refines.idle {proc : Proc} {cpu : Option Pid} (refines : k.Refines s) (was : (k.sys.proc p).idle = true)
    (becomes : proc.idle = true) :
    Refines { k with sys := { k.sys with proc := Function.update k.sys.proc p proc, cpu } } s := by
  obtain ⟨sems, place, backed⟩ := refines
  have inside : k.inside p = none := by
    have located := backed.located p
    generalize k.inside p = call at located
    generalize k.sys.proc p = proc at located was
    cases located with
    | outside | asleep => rfl
    | waits | woken | signals => cases was
  refine ⟨sems, ?_, backed.congr (fun _ => ⟨rfl, rfl⟩) (fun _ => ⟨rfl, rfl⟩) rfl fun q => ?_⟩
  · rw [place]
    funext q
    by_cases self : q = p
    · subst self
      simp [SemKernel.place, inside]
    · simp [SemKernel.place, self]
  · by_cases self : q = p
    · subst self
      simp only [Function.update_self, inside]
      cases proc with
      | outside => exact .outside
      | asleep => exact .asleep
      | blocked | woken | unblocking => cases becomes
    · simpa only [Function.update_of_ne self] using backed.located q

theorem Refines.create {initial_value : Int} (refines : k.Refines s) (out : k.sys.proc p = .outside)
    (found : k.sems.firstUnused initial_value = some i) (available : k.sys.globals.firstInactive = some m) :
    Followed s { k with
      sys := k.sys.after p (.start (.create 0 0 true)) (returnCode (k.sys.globals.createMailbox m 0 0) (m : Nat))
      sems := k.sems.sysSemcreate i initial_value (m : Nat) } := by
  have inactive := Globals.firstInactive_spec available
  have free := (Sems.firstUnused_spec found).2
  have others : ∀ j, (k.sems j).in_use = true → k.sems.sysSemcreate i initial_value (m : Nat) j = k.sems j := by
    rintro j used
    refine Function.update_of_ne ?_ _ _
    rintro rfl
    rw [free] at used
    cases used
  have apart : ∀ j, (k.sems j).in_use = true → ∃ n : MboxId, n ≠ m ∧ (k.sems j).mboxID = (n : Nat) ∧
      (k.sys.globals.mailboxes n).isActive = true ∧ (k.sys.globals.mailboxes n).numSlots = 0 := by
    intro j used
    obtain ⟨n, mboxID, active, zero⟩ := refines.backed.mailbox j used
    refine ⟨n, ?_, mboxID, active, zero⟩
    rintro rfl
    rw [inactive] at active
    cases active
  have matched : SemSys.step s (.create p initial_value (m : Nat)) = some (s.create i initial_value (m : Nat)) := by
    rw [SemSys.step, SemMachine.step, if_pos (refines.outside out), refines.sems]
    simp only [SemInterface.creation, SemCreation.entry, found, SemCreation.value]
  have procs : (k.sys.after p (.start (.create 0 0 true))
      (returnCode (k.sys.globals.createMailbox m 0 0) (m : Nat))).proc = k.sys.proc := by
    show Function.update k.sys.proc p .outside = k.sys.proc
    rw [← out, Function.update_eq_self]
  refine ⟨_, .next .refl (.of_create fun j used same => ?_) matched, ?_, ?_, ?_, refines.backed.producers, fun q => ?_⟩
  · rw [refines.sems] at used same
    obtain ⟨n, different, mboxID, _⟩ := apart j used
    exact different (Fin.ext (by exact_mod_cast mboxID.symm.trans same))
  · simp only [SemMachine.create, refines.sems]
  · rw [SemMachine.create, refines.place]
    funext q
    simp only [SemKernel.place, procs]
  · intro j used
    by_cases made : j = i
    · subst made
      refine ⟨m, by simp [Sems.sysSemcreate], ?_, ?_⟩ <;> simp [Sys.after, Sys.settle, returnCode]
    · have old : k.sems.sysSemcreate i initial_value (m : Nat) j = k.sems j := Function.update_of_ne made _ _
      dsimp only at used ⊢
      rw [old] at used ⊢
      obtain ⟨n, different, mboxID, active, zero⟩ := apart j used
      refine ⟨n, mboxID, ?_, ?_⟩ <;>
        simp [Sys.after, Sys.settle, returnCode, Function.update_of_ne different, active, zero]
  · simp only [procs]
    exact (refines.backed.located q).mono fun j used => by rw [others j used]; exact ⟨used, rfl⟩

variable {sems : Sems} {index : Int}

/-- A call that needs no mailbox. -/
theorem Refines.returns {op : SemOp} (refines : k.Refines s) (out : k.sys.proc p = .outside)
    (stays : ∀ i, ((SemCall.sys op).start k.sems index).2 ≠ .calls i) : Followed s { k with
      toSemBoxes := { k.keepsCpu p with sems := ((SemCall.sys op).start k.sems index).1 } } := by
  generalize starts : (SemCall.sys op).start k.sems index = start at stays ⊢
  obtain ⟨sems, outcome⟩ := start
  have keeps := (SemCall.start_keeps starts).1
  have backed : Backed { k with toSemBoxes := { k.keepsCpu p with sems } } :=
    refines.backed.congr keeps (fun _ => ⟨rfl, rfl⟩) rfl refines.backed.located
  rw [← refines.sems] at starts
  have ideal : s.IdealMailbox (.call p op index .suspends) := by
    refine ⟨by rintro _ _ _ ⟨⟩, ?_⟩
    rintro _ _ _ j ⟨⟩ calls
    exact (stays j ((congrArg Prod.snd starts).symm.trans calls)).elim
  cases outcome with
  | refused =>
    cases found : s.sems.inUse index with
    | none =>
      rw [SemCall.start_refused _ found] at starts
      cases starts
      exact ⟨s, .refl, rfl, refines.place, backed⟩
    | some i =>
      rw [SemCall.start_eq _ found, Prod.mk.injEq] at starts
      obtain ⟨_, starts⟩ := starts
      split at starts <;> cases starts
  | returns i =>
    have matched : SemSys.step s (.call p op index .suspends) = some { s with
        sems, started := countCall s.started op i, returned := countCall s.returned op i } := by
      rw [SemSys.step, SemMachine.step, if_pos (refines.outside out)]
      simp only [SemInterface.call, starts]
    exact ⟨_, .next .refl ideal matched, rfl, refines.place, backed⟩
  | calls i => exact (stays i rfl).elim

theorem Refines.waits (refines : k.Refines s) (out : k.sys.proc p = .outside)
    (starts : (SemCall.sys .semp).start k.sems index = (sems, .calls i)) (used : (k.sems i).in_use = true)
    (mboxID : (k.sems i).mboxID = (m : Nat)) :
    Followed s (k.ran p (some (.semp, i)) ⟨k.sys.after p (.start (.recv (m : Nat) ⟨false, 0⟩))
      (awaitMessage k.sys.globals p m, .blocks (.recvZero m)), sems⟩) := by
  have keeps := (SemCall.start_keeps starts).1
  rw [← refines.sems] at starts
  have blocked : (k.sys.after p (.start (.recv (m : Nat) ⟨false, 0⟩))
      (awaitMessage k.sys.globals p m, .blocks (.recvZero m))).proc =
      Function.update k.sys.proc p (.blocked (.recvZero m)) := rfl
  have matched : s.step (.call p .semp index .suspends) = some { s with
      sems
      started := countCall s.started .semp i
      place := Function.update s.place p (.suspended .semp i) } := by
    rw [SemSys.step, SemMachine.step, if_pos (refines.outside out)]
    simp only [SemInterface.call, starts]
  refine ⟨_, .next .refl ⟨?_, ?_⟩ matched, rfl, ?_, refines.backed.congr keeps (fun n => ?_) rfl fun q => ?_⟩
  · rintro _ _ _ ⟨⟩
  · rintro _ _ _ j ⟨⟩ _ q other j' here opposite
    rw [refines.place] at here
    cases other with
    | semp => exact (opposite rfl).elim
    | semv => exact (refines.backed.place_ne_semv q j' here).elim
  · rw [refines.place]
    refine (place_update (fun q other => ?_) (fun q other => ?_) ?_).symm
    · exact Function.update_of_ne other _ _
    · exact Function.update_of_ne other _ _
    · simp [SemKernel.place, ran, blocked, Proc.suspended]
  · have same := Globals.awaitMessage_sameMail k.sys.globals p m
    exact ⟨same.active n, same.numSlots n⟩
  · simp only [ran, blocked, Function.update_self]
    by_cases self : q = p
    · subst self
      simpa using Located.waits used mboxID
    · simpa only [Function.update_of_ne self] using refines.backed.located q

theorem Refines.signals {q : Pid} (refines : k.Refines s) (out : k.sys.proc p = .outside)
    (starts : (SemCall.sys .semv).start k.sems index = (sems, .calls i)) (used : (k.sems i).in_use = true)
    (mboxID : (k.sems i).mboxID = (m : Nat)) (named : k.place q = .suspended .semp i) :
    Followed s (k.ran p (some (.semv, i)) ⟨k.sys.after p (.start (.send (m : Nat) none 0))
      (k.sys.globals, .unblocks q (.sendMatched m)), sems⟩) := by
  have keeps := (SemCall.start_keeps starts).1
  rw [← refines.sems] at starts
  obtain ⟨inside, waits⟩ := refines.backed.of_suspended mboxID named
  have different : q ≠ p := by
    rintro rfl
    rw [out] at waits
    cases waits
  have woken : (k.sys.after p (.start (.send (m : Nat) none 0)) (k.sys.globals, .unblocks q (.sendMatched m))).proc =
      Function.update (Function.update k.sys.proc p (.unblocking (.sendMatched m))) q (.woken (.recvZero m)) := by
    simp [Sys.after, Sys.settle, Function.update_of_ne different, waits, Proc.wake]
  have matched : s.step (.call p .semv index (.wakes q)) = some { s with
      sems
      started := countCall s.started .semv i
      place := Function.update (Function.update s.place p (.runnable .semv i)) q (.runnable .semp i) } := by
    have here : s.place q = .suspended .semp i := by rw [refines.place, named]
    rw [SemSys.step, SemMachine.step, if_pos (refines.outside out)]
    simp [SemInterface.call, starts, here, SemMachine.sends, SemCall.sends]
  refine ⟨_, .next .refl (.of_wakes s p .semv index q) matched, rfl, ?_,
    refines.backed.congr keeps (fun n => ⟨rfl, rfl⟩) rfl fun r => ?_⟩
  · rw [refines.place]
    funext r
    by_cases partner : r = q
    · subst partner
      simp [SemKernel.place, ran, woken, Function.update_of_ne different, inside, Proc.suspended]
    · by_cases self : r = p
      · subst self
        simp [SemKernel.place, ran, woken, partner, Proc.suspended]
      · simp [SemKernel.place, ran, woken, partner, self]
  · simp only [ran, woken, Function.update_of_ne different.symm, Function.update_self]
    by_cases partner : r = q
    · subst partner
      simpa [Function.update_of_ne different, inside] using Located.woken used mboxID
    · by_cases self : r = p
      · subst self
        simpa [partner] using Located.signals used mboxID
      · simpa [partner, self] using refines.backed.located r

theorem Refines.step {a : SemKernelAct} {k' : SemKernel} (refines : k.Refines s) (signals : k.Signals a)
    (moves : k.step a = some k') : Followed s k' := by
  cases a with
  | create p initial_value malloc =>
    obtain ⟨⟨may, out⟩, rfl | ⟨i, sys, found, ran, rfl⟩⟩ := step_create moves
    · exact ⟨s, .refl, refines.keepsCpu p⟩
    obtain ⟨rfl, available⟩ := signals.created p initial_value malloc rfl
    obtain ⟨m, atM⟩ := Option.ne_none_iff_exists'.mp available
    have creates : mboxCreate k.sys.globals 0 0 true = returnCode (k.sys.globals.createMailbox m 0 0) (m : Nat) := by
      simp [mboxCreate, atM, maxSlots, maxMessage]
    rw [Sys.step, if_pos ⟨may, out⟩, Sys.run, Point.exec, Call.start, creates] at ran
    cases ran
    rw [SemBoxes.newMbox, creates, returnCode_ret]
    exact refines.create out found atM
  | call p op index =>
    obtain ⟨⟨may, out⟩, ⟨stays, rfl⟩ | ⟨sems, i, sys, starts, ran, rfl⟩⟩ := step_call moves
    · exact refines.returns out stays
    obtain ⟨keeps, founds⟩ := SemCall.start_keeps starts
    have used := (Sems.inUse_spec (founds i rfl)).2
    obtain ⟨m, mboxID, active, zero⟩ := refines.backed.mailbox i used
    rw [(keeps i).2, mboxID] at ran
    cases op with
    | semp =>
      have waits := Sys.step_recvZero may out active zero (refines.backed.producers m) ⟨false, 0⟩ le_rfl
      cases waits.symm.trans ran
      exact refines.waits out starts used mboxID
    | semv =>
      obtain ⟨entry, pointed, named⟩ := signals.pointed p index i rfl (congrArg Prod.snd starts) m mboxID
      have sends := Sys.step_sendZero may out active zero pointed
      cases sends.symm.trans ran
      exact refines.signals out starts used mboxID named
  | resume p =>
    obtain ⟨sys, ran, rfl⟩ := step_resume moves
    have located := refines.backed.located p
    generalize inside : k.inside p = call at located
    generalize here : k.sys.proc p = proc at located
    simp only [Sys.step, here, Option.ite_none_right_eq_some] at ran
    obtain ⟨may, ran⟩ := ran
    rw [← inside]
    cases located with
    | outside | asleep | waits => cases ran
    | @woken i m used mboxID =>
      obtain ⟨n, other, active, _⟩ := refines.backed.mailbox i used
      obtain rfl : n = m := Fin.ext (by exact_mod_cast other.symm.trans mboxID)
      have resumes : Wait.resume k.sys.globals p (.recvZero n) = returnCode k.sys.globals 0 := by
        simp [Wait.resume, active]
      simp only [Sys.run, Point.exec, resumes] at ran
      cases ran
      exact refines.resumes inside (by rw [here]; rfl) rfl (.refl _) rfl
    | signals =>
      cases ran
      exact refines.resumes inside (by rw [here]; rfl) rfl (Globals.clearConsumers_sameMail ..) rfl
  | other a =>
    obtain ⟨call, resume, sys, ran, rfl⟩ := step_other moves
    obtain ⟨proc, cpu, was, becomes, rfl⟩ := Sys.step_idle (call _) (resume _) ran
    exact ⟨s, .refl, refines.idle was becomes⟩

theorem Refines.boot : boot.Refines .boot := by
  refine ⟨rfl, rfl, fun i used => ?_, fun m => ?_, fun p => .outside⟩
  · cases used
  · have clock : phase2Init.blockedProducers = phase2Tables.blockedProducers := by
      unfold phase2Init
      exact mboxCreate_blockedProducers ..
    have lock : phase3Init.blockedProducers = phase2Init.blockedProducers := by
      unfold phase3Init
      exact mboxCreate_blockedProducers ..
    show phase3Init.blockedProducers m = []
    rw [lock, clock]
    rfl

end SemKernel

end UslossKernel
