import Mathlib.Data.List.Count
import Mathlib.Logic.Relation

namespace ScannedQueue

universe u

/-- A queue that a server scans at every tick: it takes out the oldest request,
passes on those that are due, and stops at the first that is not. `sent` and
`passed` are history. -/
structure State (α : Type u) where
  requests : List α
  held : Option α
  scanning : Bool
  due : α → Bool
  sent : List α
  passed : List α

inductive Label (α : Type u)
  | quiet
  | sends (r : α)
  | ticks
  | takes
  | ends
  | passes (r : α)
  | putsBack
  | loses

variable {α : Type u}

inductive Step (v : State α) : Label α → State α → Prop
  | quiet : Step v .quiet v
  | sends (r) : Step v (.sends r) { v with requests := v.requests ++ [r], sent := v.sent ++ [r] }
  | ticks (due) : v.scanning = false → v.held = none → Step v .ticks { v with scanning := true, due := due }
  | takes {r rest} : v.scanning = true → v.held = none → v.requests = r :: rest →
      Step v .takes { v with held := some r, requests := rest }
  | ends : v.scanning = true → v.held = none → v.requests = [] → Step v .ends { v with scanning := false }
  | passes {r} : v.scanning = true → v.held = some r → v.due r = true →
      Step v (.passes r) { v with held := none, passed := v.passed ++ [r] }
  | putsBack {r} : v.scanning = true → v.held = some r → v.due r = false →
      Step v .putsBack { v with held := none, scanning := false, requests := v.requests ++ [r] }
  | loses {r} : v.scanning = true → v.held = some r → v.due r = false →
      Step v .loses { v with held := none, scanning := false }

/-- What is not yet passed on. -/
def State.outstanding (v : State α) : List α :=
  v.held.toList ++ v.requests

/-- The steps of one scan. -/
abbrev Scan : State α → State α → Prop :=
  Relation.ReflTransGen fun v v' => v.scanning = true ∧ ∃ label, Step v label v'

/-- A scan that has passed on `outgoing` while `incoming` came in. -/
structure Scanned (start v : State α) (incoming outgoing : List α) : Prop where
  due : v.due = start.due
  sent : v.sent = start.sent ++ incoming
  passed : v.passed = start.passed ++ outgoing
  allDue : ∀ r ∈ outgoing, start.due r = true
  order : v.scanning = true → start.requests ++ incoming = outgoing ++ v.outstanding
  ended : v.scanning = false → (start.requests ++ incoming = outgoing ∧ v.requests = []) ∨
    ∃ r rest, start.due r = false ∧ start.requests ++ incoming = outgoing ++ r :: rest ∧
      (v.requests = rest ∨ v.requests = rest ++ [r])

theorem Scanned.step {start v v' : State α} {label : Label α} {incoming outgoing : List α}
    (scanned : Scanned start v incoming outgoing) (scanning : v.scanning = true) (step : Step v label v') :
    ∃ incoming' outgoing', Scanned start v' incoming' outgoing' := by
  have order := scanned.order scanning
  cases step with
  | quiet => exact ⟨incoming, outgoing, scanned⟩
  | sends r =>
    refine ⟨incoming ++ [r], outgoing, scanned.due, ?_, scanned.passed, scanned.allDue, fun _ => ?_, fun ended => ?_⟩
    · simp [scanned.sent]
    · simp only [State.outstanding] at order ⊢
      rw [← List.append_assoc, order, List.append_assoc, List.append_assoc]
    · exact absurd (scanning.symm.trans ended) (by simp)
  | ticks _ idle => exact absurd (scanning.symm.trans idle) (by simp)
  | takes _ none first =>
    refine ⟨incoming, outgoing, scanned.due, scanned.sent, scanned.passed, scanned.allDue, fun _ => ?_,
      fun ended => ?_⟩
    · rw [order]
      simp [State.outstanding, none, first]
    · exact absurd (scanning.symm.trans ended) (by simp)
  | ends _ none empty =>
    refine ⟨incoming, outgoing, scanned.due, scanned.sent, scanned.passed, scanned.allDue, nofun,
      fun _ => .inl ⟨?_, empty⟩⟩
    rw [order]
    simp [State.outstanding, none, empty]
  | @passes r _ held due =>
    refine ⟨incoming, outgoing ++ [r], scanned.due, scanned.sent, ?_, fun r' member => ?_, fun _ => ?_,
      fun ended => ?_⟩
    · simp [scanned.passed]
    · rcases List.mem_append.mp member with old | new
      · exact scanned.allDue r' old
      · rw [List.mem_singleton.mp new, ← scanned.due]
        exact due
    · rw [order]
      simp [State.outstanding, held]
    · exact absurd (scanning.symm.trans ended) (by simp)
  | @putsBack r _ held late =>
    refine ⟨incoming, outgoing, scanned.due, scanned.sent, scanned.passed, scanned.allDue, nofun,
      fun _ => .inr ⟨r, v.requests, ?_, ?_, .inr rfl⟩⟩
    · rw [← scanned.due]
      exact late
    · rw [order]
      simp [State.outstanding, held]
  | @loses r _ held late =>
    refine ⟨incoming, outgoing, scanned.due, scanned.sent, scanned.passed, scanned.allDue, nofun,
      fun _ => .inr ⟨r, v.requests, ?_, ?_, .inl rfl⟩⟩
    · rw [← scanned.due]
      exact late
    · rw [order]
      simp [State.outstanding, held]

theorem Scanned.of_scan {start v : State α} (scanning : start.scanning = true) (none : start.held = none)
    (scan : Scan start v) : ∃ incoming outgoing, Scanned start v incoming outgoing := by
  induction scan with
  | refl =>
    refine ⟨[], [], rfl, by simp, by simp, by simp, fun _ => ?_, fun ended => ?_⟩
    · simp [State.outstanding, none]
    · exact absurd (scanning.symm.trans ended) (by simp)
  | tail _ last ih =>
    obtain ⟨incoming, outgoing, scanned⟩ := ih
    obtain ⟨goesOn, label, step⟩ := last
    exact scanned.step goesOn step

/-- A scan that is over has passed on everything that was due, once, if and
only if nothing due stood behind something that was not. -/
theorem Scanned.complete_iff [DecidableEq α] {start v : State α} {incoming outgoing : List α}
    (scanned : Scanned start v incoming outgoing) (ended : v.scanning = false) :
    ((∀ r ∈ v.requests, start.due r = false) ∧
      ∀ r, start.due r = true → outgoing.count r = (start.requests ++ incoming).count r) ↔
    (start.requests ++ incoming).Pairwise fun earlier later => start.due later = true → start.due earlier = true := by
  rcases scanned.ended ended with ⟨whole, empty⟩ | ⟨r, rest, late, whole, left⟩
  · rw [whole, empty]
    refine ⟨fun _ => ?_, fun _ => ⟨by simp, fun _ _ => rfl⟩⟩
    exact List.pairwise_of_forall_mem_list fun a member _ _ _ => scanned.allDue a member
  · rw [whole]
    constructor
    · rintro ⟨_, counts⟩
      -- what is due behind `r` would have been passed on once more
      have behind : ∀ x ∈ r :: rest, start.due x = false := by
        intro x member
        by_contra due
        have same := counts x (by simpa using due)
        rw [List.count_append] at same
        have positive := List.count_pos_iff.mpr member
        omega
      rw [List.pairwise_append]
      refine ⟨?_, ?_, fun a member _ _ _ => scanned.allDue a member⟩
      · exact List.pairwise_of_forall_mem_list fun a member _ _ _ => scanned.allDue a member
      · refine List.pairwise_of_forall_mem_list fun _ _ b member due => ?_
        rw [behind b member] at due
        cases due
    · intro ordered
      have behind : ∀ x ∈ rest, start.due x = false := by
        intro x member
        rw [List.pairwise_append, List.pairwise_cons] at ordered
        have early := ordered.2.1.1 x member
        by_contra due
        rw [late] at early
        exact absurd (early (by simpa using due)) (by simp)
      refine ⟨fun x member => ?_, fun x due => ?_⟩
      · rcases left with same | same <;> rw [same] at member
        · exact behind x member
        · rcases List.mem_append.mp member with old | new
          · exact behind x old
          · rw [List.mem_singleton.mp new]
            exact late
      · have absent : x ∉ r :: rest := by
          intro member
          rcases List.mem_cons.mp member with rfl | later
          · rw [late] at due
            cases due
          · rw [behind x later] at due
            cases due
        rw [List.count_append, List.count_eq_zero.mpr absent, Nat.add_zero]

/-- A scan is under way. -/
def State.busy (v : State α) : Nat := if v.scanning then 1 else 0

def Label.began : Label α → Nat
  | .ticks => 1
  | _ => 0

/-- Every scan that is over brings a due request nearer to its turn: it is
passed on in the end, or one less stands before it. -/
theorem Step.nearer {v v' : State α} {label : Label α} {r : α} {k : Nat} (step : Step v label v')
    (waits : v.outstanding[k]? = some r) (due : v.due r = true) :
    label = .passes r ∨
      ∃ k', v'.outstanding[k']? = some r ∧ k' + v.busy + label.began ≤ k + v'.busy := by
  -- whoever leaves the front of the queue makes room, or was `r`
  have front : ∀ {h : α}, v.held = some h → h = r ∧ k = 0 ∨ 0 < k ∧ v.requests[k - 1]? = some r := by
    intro h held
    rw [State.outstanding, held] at waits
    cases k with
    | zero => exact .inl ⟨Option.some.inj waits, rfl⟩
    | succ k => exact .inr ⟨k.succ_pos, waits⟩
  cases step with
  | quiet => exact .inr ⟨k, waits, Nat.le_refl _⟩
  | sends r' =>
    refine .inr ⟨k, ?_, Nat.le_refl _⟩
    have longer : (v.outstanding ++ [r'])[k]? = some r := List.getElem?_append_left
      (List.getElem?_eq_some_iff.mp waits).1 ▸ waits
    simpa [State.outstanding] using longer
  | ticks due' idle none =>
    refine .inr ⟨k, waits, ?_⟩
    simp [State.busy, Label.began, idle]
  | takes scanning none first =>
    refine .inr ⟨k, ?_, ?_⟩
    · rw [State.outstanding, none, first] at waits
      exact waits
    · simp [State.busy, Label.began]
  | ends scanning none empty =>
    rw [State.outstanding, none, empty] at waits
    cases waits
  | passes scanning held due' =>
    rcases front held with ⟨rfl, _⟩ | ⟨later, place⟩
    · exact .inl rfl
    · refine .inr ⟨k - 1, place, ?_⟩
      simp only [State.busy, Label.began, scanning]
      omega
  | putsBack scanning held undue =>
    rcases front held with ⟨rfl, _⟩ | ⟨later, place⟩
    · rw [due] at undue
      cases undue
    · refine .inr ⟨k - 1, ?_, ?_⟩
      · show (v.requests ++ _)[k - 1]? = some r
        rw [List.getElem?_append_left (List.getElem?_eq_some_iff.mp place).1]
        exact place
      · simp [State.busy, Label.began, scanning]
        omega
  | loses scanning held undue =>
    rcases front held with ⟨rfl, _⟩ | ⟨later, place⟩
    · rw [due] at undue
      cases undue
    · refine .inr ⟨k - 1, place, ?_⟩
      simp [State.busy, Label.began, scanning]
      omega

/-- Only at a tick what is due changes. -/
theorem Step.due_eq {v v' : State α} {label : Label α} (step : Step v label v') (quiet : label.began = 0) :
    v'.due = v.due := by
  cases step with
  | ticks => cases quiet
  | quiet | sends | takes | ends | passes | putsBack | loses => rfl

/-- The history of what has been passed on grows. -/
theorem Step.passed_eq {v v' : State α} {label : Label α} (step : Step v label v') :
    ∃ more, v'.passed = v.passed ++ more ∧ ∀ r, label = .passes r → r ∈ more := by
  cases step with
  | @passes r => exact ⟨[r], rfl, by rintro _ ⟨⟩; exact List.mem_singleton_self _⟩
  | quiet | sends | ticks | takes | ends | putsBack | loses =>
    exact ⟨[], (List.append_nil _).symm, by rintro r ⟨⟩⟩

end ScannedQueue
