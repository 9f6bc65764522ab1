import UslossKernel.SemaphoreCounts

namespace UslossKernel

def SemAct.pid {Op Creation : Type} : SemAct Op Creation → Pid
  | .create p .. | .call p .. | .resume p => p

theorem countCall_cases {Op : Type} [DecidableEq Op] (counts : Op → SemId → Nat) (op other : Op) (i j : SemId) :
    countCall counts op i other j = counts other j ∨
      countCall counts op i other j = counts other j + 1 ∧ other = op ∧ j = i := by
  rw [countCall_apply]
  by_cases same : other = op ∧ j = i
  · exact .inr ⟨by rw [if_pos same], same⟩
  · exact .inl (by rw [if_neg same, Nat.add_zero])

namespace SemSys

variable {s s' : SemSys} {a : SemAct SemOp Int}

/-- Of the calls, only one of `sys_semv` counts as such, and at most one of `sys_semp` returns in a step. -/
theorem step_counts (stepped : s.Stepped a s') (i : SemId) :
    (s'.started .semv i = s.started .semv i ∨ s'.started .semv i = s.started .semv i + 1 ∧
      ∃ index meeting, a = .call a.pid .semv index meeting ∧ s.sems.inUse index = some i) ∧
    (s'.returned .semp i = s.returned .semp i ∨ s'.returned .semp i = s.returned .semp i + 1) := by
  have returns : ∀ (op : SemOp) j, countCall s.returned op j .semp i = s.returned .semp i ∨
      countCall s.returned op j .semp i = s.returned .semp i + 1 :=
    fun op j => (countCall_cases s.returned op .semp j i).imp_right And.left
  cases stepped with
  | idle | creates => exact ⟨.inl rfl, .inl rfl⟩
  | @calls p op index meeting j _ found _ called =>
    refine ⟨?_, ?_⟩
    · rw [called.started]
      refine (countCall_cases s.started op .semv j i).imp_right ?_
      rintro ⟨more, rfl, rfl⟩
      exact ⟨more, index, meeting, rfl, found⟩
    · cases called with
      | passes => exact returns op j
      | waits | wakes => exact .inl rfl
  | resumes => exact ⟨.inl rfl, returns _ _⟩

end SemSys

/-- The semaphores with those that hold a permit of each: whoever has returned
from `sys_semp` and has not come to `sys_semv` since, as often as that. -/
structure Permits where
  sys : SemSys
  holders : SemId → List Pid

namespace Permits

def boot : Permits where
  sys := .boot
  holders _ := []

/-- The holders of one semaphore after a step of `p`. -/
def pass (s s' : SemSys) (p : Pid) (i : SemId) (holders : List Pid) : List Pid :=
  let kept := if s.started .semv i < s'.started .semv i then holders.erase p else holders
  if s.returned .semp i < s'.returned .semp i then p :: kept else kept

def step (l : Permits) (a : SemAct SemOp Int) : Option Permits :=
  (SemSys.step l.sys a).map fun s' => { sys := s', holders := fun i => pass l.sys s' a.pid i (l.holders i) }

/-- The mailboxes match partners, and whoever calls `sys_semv` holds a permit. -/
structure Disciplined (l : Permits) (a : SemAct SemOp Int) : Prop where
  ideal : l.sys.IdealMailbox a
  holds : ∀ p index meeting i, a = .call p .semv index meeting → l.sys.sems.inUse index = some i → p ∈ l.holders i

/-- As many hold a permit as have returned from `sys_semp` and not given theirs back. -/
def Held (l : Permits) : Prop :=
  ∀ i, (l.holders i).length + l.sys.started .semv i = l.sys.returned .semp i

variable {l l' : Permits} {a : SemAct SemOp Int}

theorem Held.step (held : l.Held) (tidy : l.sys.Tidy) (disciplined : l.Disciplined a) (moves : l.step a = some l') :
    l'.Held := by
  obtain ⟨s', moved, rfl⟩ := Option.map_eq_some_iff.mp moves
  intro i
  obtain ⟨starts, returns⟩ := SemSys.step_counts (tidy.stepped disciplined.ideal moved) i
  have before := held i
  have kept : (if l.sys.started .semv i < s'.started .semv i then (l.holders i).erase a.pid
      else l.holders i).length + s'.started .semv i = (l.holders i).length + l.sys.started .semv i := by
    rcases starts with same | ⟨more, index, meeting, calls, found⟩
    · rw [same, if_neg (Nat.lt_irrefl _)]
    · have holds := disciplined.holds _ _ _ _ calls found
      have positive := List.length_pos_of_mem holds
      rw [more, if_pos (Nat.lt_succ_self _), List.length_erase_of_mem holds]
      omega
  simp only [pass]
  rcases returns with same | more
  · rw [same, if_neg (Nat.lt_irrefl _), kept, before]
  · rw [more, if_pos (Nat.lt_succ_self _), List.length_cons]
    omega

theorem sys_of_run (run : Transition.Run step Disciplined boot l) :
    Transition.Run SemSys.step SemMachine.IdealMailbox .boot l.sys := by
  refine run.invariant (fun l => Transition.Run SemSys.step SemMachine.IdealMailbox .boot l.sys) .refl ?_
  intro before a after earlier disciplined moves
  obtain ⟨s', moved, rfl⟩ := Option.map_eq_some_iff.mp moves
  exact earlier.next disciplined.ideal moved

theorem held_of_run (run : Transition.Run step Disciplined boot l) : l.Held := by
  induction run with
  | refl => exact fun _ => rfl
  | tail earlier last held =>
    obtain ⟨_, disciplined, moves⟩ := last
    exact held.step (SemMachine.tidy_of_run (sys_of_run earlier)) disciplined moves

/-- Where whoever calls `sys_semv` has returned from `sys_semp`, no permit is
lost and none is made: those that are held, that woken processes are about to
get and that are left in `value` are as many as the semaphore was made with. So
a semaphore made with 1 is held by one process at a time, and nobody waits for
a semaphore that is not held. -/
theorem permits_conserved (run : Transition.Run step Disciplined boot l) {i : SemId}
    (used : (l.sys.sems i).in_use = true) : ∃ woken : Nat, SemSys.Counted l.sys (.runnable .semp i) woken ∧
      (l.holders i).length + woken + max 0 (l.sys.sems i).value = l.sys.initial i ∧
      ((l.holders i).length + woken < l.sys.initial i → ∀ q, l.sys.place q ≠ .suspended .semp i) := by
  obtain ⟨c, woken, tracks⟩ := (SemSys.sound_of_run (sys_of_run run)).tracks i
  have held := held_of_run run i
  have value := tracks.value used
  have nonneg := tracks.nonneg
  have count := tracks.after.value
  have waiting := tracks.after.waiting
  have passed := tracks.passed.trans tracks.after.passed
  refine ⟨woken, tracks.runnable, by omega, fun left q => ?_⟩
  have nobody : c.waiting = 0 := by omega
  have counted := tracks.suspended
  rw [nobody] at counted
  simpa using Counts.zero_iff.mp counted q

/-- One holds the semaphore and another waits, which gets it. -/
theorem permits_conserved_run : ∃ l, Transition.Run step Disciplined boot l ∧ l.holders 0 = [2] ∧
    l.sys.initial 0 = 1 ∧ ∃ woken : Nat, (l.holders 0).length + woken + max 0 (l.sys.sems 0).value = 1 ∧
      ((l.holders 0).length + woken < 1 → ∀ q, l.sys.place q ≠ .suspended .semp 0) := by
  obtain ⟨l₁, made, empty⟩ : ∃ l₁, boot.step (.create 1 1 7) = some l₁ ∧ l₁.sys.place = fun _ => .outside :=
    ⟨_, rfl, rfl⟩
  obtain ⟨l₂, holds, outside, held⟩ : ∃ l₂, l₁.step (.call 1 .semp 0 .suspends) = some l₂ ∧
      l₂.sys.place = (fun _ => .outside) ∧ l₂.holders 0 = [1] := by
    cases made
    exact ⟨_, rfl, rfl, rfl⟩
  obtain ⟨l₃, waits, still⟩ : ∃ l₃, l₂.step (.call 2 .semp 0 .suspends) = some l₃ ∧ l₃.holders 0 = [1] := by
    cases made
    cases holds
    exact ⟨_, rfl, rfl⟩
  obtain ⟨l₄, wakes⟩ : ∃ l₄, l₃.step (.call 1 .semv 0 (.wakes 2)) = some l₄ := by
    cases made
    cases holds
    cases waits
    exact ⟨_, rfl⟩
  obtain ⟨l₅, resumes, holder, used, initial⟩ : ∃ l₅, l₄.step (.resume 2) = some l₅ ∧ l₅.holders 0 = [2] ∧
      (l₅.sys.sems 0).in_use = true ∧ l₅.sys.initial 0 = 1 := by
    cases made
    cases holds
    cases waits
    cases wakes
    exact ⟨_, rfl, rfl, rfl, rfl⟩
  have run₁ : Transition.Run step Disciplined boot l₁ := by
    refine Transition.Run.next .refl ⟨.of_create (SemMachine.fresh_boot 7), ?_⟩ made
    rintro _ _ _ _ ⟨⟩
  have alone : ∀ {l : Permits} {p index}, l.sys.place = (fun _ => .outside) →
      l.Disciplined (.call p .semp index .suspends) := by
    intro l p index nobody
    refine ⟨.of_nobody (congrFun nobody) .., ?_⟩
    rintro _ _ _ _ ⟨⟩
  have run₃ : Transition.Run step Disciplined boot l₃ := (run₁.next (alone empty) holds).next (alone outside) waits
  have run₄ : Transition.Run step Disciplined boot l₄ := by
    refine run₃.next ⟨.of_wakes .., ?_⟩ wakes
    rintro p index meeting i ⟨⟩ found
    obtain rfl : i = 0 := by exact_mod_cast (Sems.inUse_spec found).1.symm
    rw [still]
    exact List.mem_singleton_self 1
  have run₅ : Transition.Run step Disciplined boot l₅ := by
    refine run₄.next ⟨.of_resume .., ?_⟩ resumes
    rintro _ _ _ _ ⟨⟩
  obtain ⟨woken, _, conserved, free⟩ := permits_conserved run₅ used
  rw [initial] at conserved free
  exact ⟨l₅, run₅, holder, initial, woken, conserved, fun left => free (by omega)⟩

end Permits

end UslossKernel
