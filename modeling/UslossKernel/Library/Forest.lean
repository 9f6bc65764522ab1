import Mathlib.Logic.Function.Basic
import Mathlib.Logic.Relation

universe u v

/-- A member: who has spawned it, and what it has left with. -/
structure ForestNode (ι : Type u) (ε : Type v) where
  parent : Option ι
  left : Option ε

/-- The members by their names. -/
abbrev Forest (ι : Type u) (ε : Type v) :=
  ι → Option (ForestNode ι ε)

namespace Forest

variable {ι : Type u} {ε : Type v}

/-- What can be done: a member that has left stays until its parent has reaped it. -/
inductive Act (ι : Type u) (ε : Type v)
  | spawn (parent child : ι)
  | leave (who : ι) (value : ε)
  | reap (parent child : ι) (value : ε)

def Act.spawns : Act ι ε → Bool
  | .spawn _ _ => true
  | _ => false

/-- It is there and has not left. -/
def Runs (f : Forest ι ε) (i : ι) : Prop :=
  ∃ parent, f i = some ⟨parent, none⟩

def Child (f : Forest ι ε) (p i : ι) : Prop :=
  ∃ left, f i = some ⟨some p, left⟩

/-- In the beginning everybody runs and nobody has a parent. -/
def Roots (f : Forest ι ε) : Prop :=
  ∀ i node, f i = some node → node = ⟨none, none⟩

theorem Roots.childless {f : Forest ι ε} {p i : ι} (roots : Roots f) : ¬ Child f p i := by
  rintro ⟨left, there⟩
  cases roots i _ there

variable [DecidableEq ι]

/-- The runs, with the last act first: a name is used once, and nobody leaves
children behind. -/
inductive Run (start : Forest ι ε) : List (Act ι ε) → Forest ι ε → Prop
  | start : Run start [] start
  | spawn {acts f p c} : Run start acts f → Runs f p → start c = none → (∀ q, .spawn q c ∉ acts) →
      Run start (.spawn p c :: acts) (Function.update f c (some ⟨some p, none⟩))
  | leave {acts f p parent v} : Run start acts f → f p = some ⟨parent, none⟩ → (∀ i, ¬ Child f p i) →
      Run start (.leave p v :: acts) (Function.update f p (some ⟨parent, some v⟩))
  | reap {acts f p c v} : Run start acts f → Runs f p → f c = some ⟨some p, some v⟩ →
      Run start (.reap p c v :: acts) (Function.update f c none)

variable {start f : Forest ι ε} {acts : List (Act ι ε)} {p q c i : ι} {parent : Option ι} {v w : ε}

section update

theorem child_spawn : Child (Function.update f c (some ⟨some p, none⟩)) q i ↔
    i = c ∧ q = p ∨ i ≠ c ∧ Child f q i := by
  by_cases here : i = c
  · subst here
    simp [Child, eq_comm]
  · simp [Child, here]

theorem child_leave (before : f p = some ⟨parent, none⟩) :
    Child (Function.update f p (some ⟨parent, some v⟩)) q i ↔ Child f q i := by
  by_cases here : i = p
  · subst here
    simp [Child, before]
  · simp [Child, here]

theorem child_reap : Child (Function.update f c none) q i ↔ i ≠ c ∧ Child f q i := by
  by_cases here : i = c
  · subst here
    simp [Child]
  · simp [Child, here]

theorem runs_spawn : Runs (Function.update f c (some ⟨some p, none⟩)) i ↔ i = c ∨ i ≠ c ∧ Runs f i := by
  by_cases here : i = c
  · subst here
    simp [Runs]
  · simp [Runs, here]

theorem runs_leave : Runs (Function.update f p (some ⟨parent, some v⟩)) i ↔ i ≠ p ∧ Runs f i := by
  by_cases here : i = p
  · subst here
    simp [Runs]
  · simp [Runs, here]

theorem runs_reap : Runs (Function.update f c none) i ↔ i ≠ c ∧ Runs f i := by
  by_cases here : i = c
  · subst here
    simp [Runs]
  · simp [Runs, here]

end update

namespace Run

/-- Whoever is there was there from the start or has been spawned. -/
theorem known (run : Run start acts f) (there : f i ≠ none) : start i ≠ none ∨ ∃ p, .spawn p i ∈ acts := by
  have earlier : ∀ {a : Act ι ε} {acts}, (start i ≠ none ∨ ∃ p, .spawn p i ∈ acts) →
      start i ≠ none ∨ ∃ p, .spawn p i ∈ a :: acts :=
    fun known => known.imp_right fun ⟨p, spawned⟩ => ⟨p, List.mem_cons_of_mem _ spawned⟩
  induction run with
  | start => exact .inl there
  | @spawn acts f p c _ _ _ _ ih =>
    by_cases here : i = c
    · exact .inr ⟨p, by rw [here]; exact List.mem_cons_self ..⟩
    · exact earlier (ih (by rwa [Function.update_of_ne here] at there))
  | @leave acts f p parent v _ before _ ih =>
    by_cases here : i = p
    · exact earlier (ih (by simp [here, before]))
    · exact earlier (ih (by rwa [Function.update_of_ne here] at there))
  | @reap acts f p c v _ _ _ ih =>
    have here : i ≠ c := by
      rintro rfl
      simp at there
    exact earlier (ih (by rwa [Function.update_of_ne here] at there))

/-- A new name is nobody's. -/
theorem unknown (run : Run start acts f) (new : start c = none) (fresh : ∀ q, .spawn q c ∉ acts) : f c = none := by
  by_contra there
  rcases run.known there with old | ⟨q, spawned⟩
  · exact old new
  · exact fresh q spawned

/-- A child has been spawned by its parent. -/
theorem child_spawned (run : Run start acts f) (roots : Roots start) (child : Child f p c) : .spawn p c ∈ acts := by
  induction run with
  | start => exact absurd child roots.childless
  | spawn _ _ _ _ ih =>
    rcases child_spawn.mp child with ⟨rfl, rfl⟩ | ⟨_, before⟩
    · exact List.mem_cons_self ..
    · exact List.mem_cons_of_mem _ (ih before)
  | leave _ before _ ih => exact List.mem_cons_of_mem _ (ih ((child_leave before).mp child))
  | reap _ _ _ ih => exact List.mem_cons_of_mem _ (ih (child_reap.mp child).2)

/-- Whoever has children runs. -/
theorem parent_runs (run : Run start acts f) (roots : Roots start) (child : Child f p c) : Runs f p := by
  induction run with
  | start => exact absurd child roots.childless
  | @spawn _ f q new run running unused fresh ih =>
    have before : Runs f p := by
      rcases child_spawn.mp child with ⟨_, rfl⟩ | ⟨_, before⟩
      · exact running
      · exact ih before
    refine runs_spawn.mpr (.inr ⟨?_, before⟩)
    rintro rfl
    obtain ⟨_, there⟩ := before
    exact absurd (there.symm.trans (run.unknown unused fresh)) (by simp)
  | @leave _ f who _ _ run before childless ih =>
    have earlier := (child_leave before).mp child
    refine runs_leave.mpr ⟨?_, ih earlier⟩
    rintro rfl
    exact childless c earlier
  | @reap _ f _ gone _ run _ ended ih =>
    have running := ih (child_reap.mp child).2
    refine runs_reap.mpr ⟨?_, running⟩
    rintro rfl
    obtain ⟨_, there⟩ := running
    cases there.symm.trans ended

/-- Whoever has been spawned is a child of the same parent still, or has been reaped by it. -/
theorem spawned (run : Run start acts f) (spawned : .spawn p c ∈ acts) : Child f p c ∨ ∃ v, .reap p c v ∈ acts := by
  have earlier : ∀ {a : Act ι ε} {acts}, (∃ v, .reap p c v ∈ acts) → ∃ v, .reap p c v ∈ a :: acts :=
    fun ⟨v, reaped⟩ => ⟨v, List.mem_cons_of_mem _ reaped⟩
  induction run with
  | start => cases spawned
  | @spawn acts f q new run running unused fresh ih =>
    rcases List.mem_cons.mp spawned with same | before
    · cases same
      exact .inl (child_spawn.mpr (.inl ⟨rfl, rfl⟩))
    · refine (ih before).imp (fun child => child_spawn.mpr (.inr ⟨?_, child⟩)) earlier
      rintro rfl
      exact fresh p before
  | leave run before childless ih =>
    exact (ih (by simpa using spawned)).imp (child_leave before).mpr earlier
  | @reap acts f q gone w run running ended ih =>
    rcases ih (by simpa using spawned) with child | reaped
    · by_cases here : c = gone
      · subst here
        obtain ⟨_, there⟩ := child
        cases ended.symm.trans there
        exact .inr ⟨w, List.mem_cons_self ..⟩
      · exact .inl (child_reap.mpr ⟨here, child⟩)
    · exact .inr (earlier reaped)

/-- Whoever has left was there. -/
theorem left_known (run : Run start acts f) (left : .leave p v ∈ acts) : start p ≠ none ∨ ∃ q, .spawn q p ∈ acts := by
  have earlier : ∀ {a : Act ι ε} {acts}, (start p ≠ none ∨ ∃ q, .spawn q p ∈ acts) →
      start p ≠ none ∨ ∃ q, .spawn q p ∈ a :: acts :=
    fun known => known.imp_right fun ⟨q, spawned⟩ => ⟨q, List.mem_cons_of_mem _ spawned⟩
  induction run with
  | start => cases left
  | spawn _ _ _ _ ih => exact earlier (ih (by simpa using left))
  | @leave acts f who parent w run before _ ih =>
    rcases List.mem_cons.mp left with same | before'
    · cases same
      exact earlier (run.known (by simp [before]))
    · exact earlier (ih before')
  | reap _ _ _ ih => exact earlier (ih (by simpa using left))

/-- Whoever has left does not run any more. -/
theorem left_stopped (run : Run start acts f) (left : .leave p v ∈ acts) : ¬ Runs f p := by
  induction run with
  | start => cases left
  | @spawn acts f q new run _ unused fresh ih =>
    have before : .leave p v ∈ acts := by simpa using left
    intro running
    rcases runs_spawn.mp running with rfl | ⟨_, running⟩
    · exact (run.left_known before).elim (fun old => old unused) fun ⟨q, spawned⟩ => fresh q spawned
    · exact ih before running
  | leave run before _ ih =>
    intro running
    obtain ⟨other, running⟩ := runs_leave.mp running
    rcases List.mem_cons.mp left with same | left
    · cases same
      exact other rfl
    · exact ih left running
  | reap _ _ _ ih => exact fun running => ih (by simpa using left) (runs_reap.mp running).2

/-- Whoever is there and does not run has left. -/
theorem ended_left (run : Run start acts f) (roots : Roots start) (ended : f i = some ⟨parent, some v⟩) :
    .leave i v ∈ acts := by
  induction run generalizing parent with
  | start => cases roots i _ ended
  | @spawn _ f p c _ _ _ _ ih =>
    by_cases here : i = c
    · subst here
      simp at ended
    · exact List.mem_cons_of_mem _ (ih ((Function.update_of_ne here ..).symm.trans ended))
  | @leave _ f who _ w _ _ _ ih =>
    by_cases here : i = who
    · subst here
      obtain ⟨rfl, rfl⟩ : _ = parent ∧ w = v := by simpa using ended
      exact List.mem_cons_self ..
    · exact List.mem_cons_of_mem _ (ih ((Function.update_of_ne here ..).symm.trans ended))
  | @reap _ f _ c _ _ _ _ ih =>
    by_cases here : i = c
    · subst here
      simp at ended
    · exact List.mem_cons_of_mem _ (ih ((Function.update_of_ne here ..).symm.trans ended))

/-- Whoever has been reaped has left before. -/
theorem reaped_left (run : Run start acts f) (roots : Roots start) (reaped : .reap p c v ∈ acts) :
    .leave c v ∈ acts := by
  induction run with
  | start => cases reaped
  | spawn _ _ _ _ ih => exact List.mem_cons_of_mem _ (ih (by simpa using reaped))
  | leave _ _ _ ih => exact List.mem_cons_of_mem _ (ih (by simpa using reaped))
  | reap run _ ended ih =>
    rcases List.mem_cons.mp reaped with same | before
    · cases same
      exact List.mem_cons_of_mem _ (run.ended_left roots ended)
    · exact List.mem_cons_of_mem _ (ih before)

/-- Whoever has left leaves no descendant behind. -/
theorem descendants_reaped (run : Run start acts f) (roots : Roots start) (left : .leave p v ∈ acts)
    (descends : Relation.TransGen (fun p c => .spawn p c ∈ acts) p c) : ∃ q v, .reap q c v ∈ acts := by
  -- a child that is still there has a parent that runs
  have child : ∀ {p c v}, .leave p v ∈ acts → .spawn p c ∈ acts → ∃ q v, .reap q c v ∈ acts := by
    intro p c v left spawned
    rcases run.spawned spawned with there | ⟨v, reaped⟩
    · exact absurd (run.parent_runs roots there) (run.left_stopped left)
    · exact ⟨p, v, reaped⟩
  induction descends with
  | single spawned => exact child left spawned
  | tail _ spawned ih =>
    obtain ⟨q, w, reaped⟩ := ih
    exact child (run.reaped_left roots reaped) spawned

end Run

end Forest
