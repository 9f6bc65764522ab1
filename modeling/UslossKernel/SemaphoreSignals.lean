import UslossKernel.SemaphoreRefinement

namespace UslossKernel

namespace SemKernel

variable {k : SemKernel}

/-- A process that does nothing is in no call. -/
theorem step_outside {k k' : SemKernel} {a : SemKernelAct} {q : Pid} (other : q ≠ a.pid)
    (out : k.sys.proc q = .outside) (moves : k.step a = some k') : k'.sys.proc q = .outside := by
  cases a with
  | create p initial_value malloc =>
    obtain ⟨_, rfl | ⟨i, sys, _, ran, rfl⟩⟩ := step_create moves
    · exact out
    · exact Sys.step_outside (by exact other) out ran
  | call p op index =>
    obtain ⟨_, ⟨_, rfl⟩ | ⟨sems, i, sys, _, ran, rfl⟩⟩ := step_call moves
    · exact out
    · exact Sys.step_outside (by exact other) out ran
  | resume p =>
    obtain ⟨sys, ran, rfl⟩ := step_resume moves
    exact Sys.step_outside (by exact other) out ran
  | other a =>
    obtain ⟨_, _, sys, ran, rfl⟩ := step_other moves
    exact Sys.step_outside (by exact other) out ran

/-- The processes that act, each with one action. -/
def acting (actions : List SemKernelAct) : List Act :=
  actions.map fun a => .resume a.pid

/-- A test for `Signals` that these actions pass. -/
def testSignals (k : SemKernel) : SemKernelAct → Bool
  | .create _ _ malloc => malloc && k.sys.globals.firstInactive.isSome
  | .call _ .semv index => index = 0 && (k.sems 0).mboxID = 8 &&
      (k.sys.globals.mailboxes 8).consumers.any fun entry =>
        k.place (k.sys.globals.shadowProcesses entry) = .suspended .semp 0
  | _ => true

theorem Signals.of_test {k : SemKernel} {a : SemKernelAct} (admitted : k.testSignals a = true) : Signals k a := by
  constructor
  · rintro p initial_value malloc rfl
    simp only [testSignals, Bool.and_eq_true] at admitted
    exact ⟨admitted.1, Option.isSome_iff_ne_none.mp admitted.2⟩
  · rintro p index i rfl calls m mboxID
    simp only [testSignals, Bool.and_eq_true, decide_eq_true_eq] at admitted
    obtain ⟨⟨rfl, here⟩, pointed⟩ := admitted
    have starts : (SemCall.sys .semv).start k.sems 0 = ((k.sems.sysSemv 0).1, .calls i) := Prod.ext rfl calls
    have index := (Sems.inUse_spec ((SemCall.start_keeps starts).2 i rfl)).1
    obtain rfl : i = 0 := by exact_mod_cast index.symm
    obtain rfl : m = 8 := Fin.ext (by exact_mod_cast mboxID.symm.trans here)
    obtain ⟨entry, atEntry, named⟩ := Option.any_eq_true _ _ |>.mp pointed
    exact ⟨entry, atEntry, by simpa using named⟩

end SemKernel

end UslossKernel
