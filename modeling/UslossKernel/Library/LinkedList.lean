import Mathlib.Data.Fintype.Card
import Mathlib.Data.List.Nodup
import Mathlib.Logic.Function.Basic

namespace LinkedList

universe u
variable {ι : Type u}

/-- Following the links from `start` visits these nodes, in this order, and
then stands at `stop`. -/
def Leads (next : ι → Option ι) : Option ι → List ι → Option ι → Prop
  | start, [], stop => start = stop
  | start, i :: rest, stop => start = some i ∧ Leads next (next i) rest stop

variable {next next' : ι → Option ι} {start stop : Option ι} {l first second : List ι} {i : ι}

theorem Leads.append :
    Leads next start (first ++ second) stop ↔
      ∃ middle, Leads next start first middle ∧ Leads next middle second stop := by
  induction first generalizing start with
  | nil => simp [Leads]
  | cons i rest ih =>
    simp only [List.cons_append, Leads, ih]
    constructor
    · rintro ⟨atI, middle, before, after⟩
      exact ⟨middle, ⟨atI, before⟩, after⟩
    · rintro ⟨middle, ⟨atI, before⟩, after⟩
      exact ⟨atI, middle, before, after⟩

theorem Leads.congr (leads : Leads next start l stop) (same : ∀ i ∈ l, next' i = next i) :
    Leads next' start l stop := by
  induction l generalizing start with
  | nil => exact leads
  | cons i rest ih =>
    refine ⟨leads.1, ?_⟩
    rw [same i (List.mem_cons_self ..)]
    exact ih leads.2 fun j member => same j (List.mem_cons_of_mem i member)

theorem Leads.update [DecidableEq ι] {value : Option ι} (leads : Leads next start l stop) (outside : i ∉ l) :
    Leads (Function.update next i value) start l stop := by
  refine leads.congr fun j member => Function.update_of_ne ?_ ..
  rintro rfl
  exact outside member

/-- The list that a node is in from there on. -/
theorem Leads.split (leads : Leads next start (first ++ i :: second) stop) :
    Leads next start first (some i) ∧ Leads next (next i) second stop := by
  obtain ⟨middle, before, after⟩ := Leads.append.mp leads
  exact ⟨after.1 ▸ before, after.2⟩

/-- A list that ends is determined by where it starts. -/
theorem Leads.unique (leads : Leads next start first none) (leads' : Leads next start second none) :
    first = second := by
  induction first generalizing start second with
  | nil =>
    cases second with
    | nil => rfl
    | cons i rest => cases leads.symm.trans leads'.1
  | cons i rest ih =>
    cases second with
    | nil => cases leads.1.symm.trans leads'
    | cons j rest' =>
      cases leads.1.symm.trans leads'.1
      rw [ih leads.2 leads'.2]

theorem Leads.nodup (leads : Leads next start l none) : l.Nodup := by
  induction l generalizing start with
  | nil => exact List.nodup_nil
  | cons i rest ih =>
    refine List.nodup_cons.mpr ⟨fun member => ?_, ih leads.2⟩
    -- the list after the second visit would be that after the first
    obtain ⟨before, after, rfl⟩ := List.append_of_mem member
    have again := leads.2.split.2
    have same := congrArg List.length (leads.2.unique again)
    simp only [List.length_append, List.length_cons] at same
    omega

theorem Leads.head_mem (leads : Leads next (some i) l none) : i ∈ l := by
  cases l with
  | nil => cases leads
  | cons j rest =>
    cases leads.1
    exact List.mem_cons_self ..

/-- In a list that ends, a link leads to another of its nodes. -/
theorem Leads.next_mem {j : ι} (leads : Leads next start l none) (member : i ∈ l)
    (link : next i = some j) : j ∈ l := by
  obtain ⟨before, after, rfl⟩ := List.append_of_mem member
  have behind := leads.split.2
  rw [link] at behind
  exact List.mem_append_right _ (List.mem_cons_of_mem i behind.head_mem)

/-- No node of a list that ends leads back to where it starts. -/
theorem Leads.no_loop {j : ι} (leads : Leads next (some i) l none) (member : j ∈ l) : next j ≠ some i := by
  intro loop
  obtain ⟨before, after, rfl⟩ := List.append_of_mem member
  -- the list behind that node would be the whole one again
  have again := leads.split.2
  rw [loop] at again
  have same := congrArg List.length (leads.unique again)
  simp only [List.length_append, List.length_cons] at same
  omega

/-- A node that the last one is made to lead to. -/
theorem Leads.snoc {last : ι} (leads : Leads next start (first ++ [last]) none)
    (same : ∀ j ∈ first, next' j = next j) (links : next' last = some i) (ends : next' i = none) :
    Leads next' start (first ++ [last, i]) none :=
  Leads.append.mpr ⟨some last, leads.split.1.congr same, rfl, links, ends⟩

/-- The first node is taken out by letting the list start behind it. -/
theorem Leads.unlink_head (leads : Leads next start (i :: second) none) (same : ∀ j ∈ second, next' j = next j) :
    Leads next' (next i) second none :=
  leads.2.congr same

/-- Any other node is taken out by letting the one before it lead past it. -/
theorem Leads.unlink {before : ι} (leads : Leads next start (first ++ before :: i :: second) none)
    (same : ∀ j, j ≠ before → j ≠ i → next' j = next j) (links : next' before = next i) :
    Leads next' start (first ++ before :: second) none := by
  have distinct := leads.nodup
  obtain ⟨toBefore, atI, after⟩ := leads.split
  simp only [List.nodup_append, List.nodup_cons, List.mem_cons, not_or] at distinct
  obtain ⟨_, ⟨⟨notI, notBefore⟩, notSecond, _⟩, apart⟩ := distinct
  refine Leads.append.mpr ⟨some before, toBefore.congr fun j member => ?_, rfl, ?_⟩
  · exact same j (apart j member before (.inl rfl)) (apart j member i (.inr (.inl rfl)))
  · rw [links]
    refine after.congr fun j member => same j ?_ ?_
    · rintro rfl
      exact notBefore member
    · rintro rfl
      exact notSecond member

/-- How a search along the links ends. -/
inductive Found (ι : Type u)
  | endless
  | absent
  | at (before : Option ι) (i : ι)
deriving DecidableEq

/-- The first node that passes the test, with the one whose link leads to it. -/
def seek (next : ι → Option ι) (test : ι → Bool) : Nat → Option ι → Option ι → Found ι
  | _, _, none => .absent
  | 0, _, some _ => .endless
  | fuel + 1, before, some i => if test i then .at before i else seek next test fuel (some i) (next i)

variable {test : ι → Bool} {fuel : Nat} {before b : Option ι}

theorem seek_found (found : seek next test fuel before start = .at b i) :
    test i = true ∧ (b = before ∧ start = some i ∨ ∃ j, b = some j ∧ next j = some i) := by
  induction fuel generalizing before start with
  | zero => cases start <;> cases found
  | succ fuel ih =>
    cases start with
    | none => cases found
    | some j =>
      simp only [seek] at found
      split at found
      · rename_i passes
        cases found
        exact ⟨passes, .inl ⟨rfl, rfl⟩⟩
      · obtain ⟨passes, ⟨rfl, link⟩ | linked⟩ := ih found
        · exact ⟨passes, .inr ⟨j, rfl, link⟩⟩
        · exact ⟨passes, .inr linked⟩

/-- What holds of the first node and is passed on along the links holds of all that is found. -/
theorem seek_closed {P : ι → Prop} (first : ∀ j, start = some j → P j) (link : ∀ j k, P j → next j = some k → P k)
    (found : seek next test fuel before start = .at b i) : P i ∧ (b = before ∨ ∃ j, b = some j ∧ P j) := by
  induction fuel generalizing before start with
  | zero => cases start <;> cases found
  | succ fuel ih =>
    cases start with
    | none => cases found
    | some j =>
      simp only [seek] at found
      split at found
      · cases found
        exact ⟨first _ rfl, .inl rfl⟩
      · obtain ⟨holds, same | other⟩ := ih (fun k link' => link j k (first j rfl) link') found
        · exact ⟨holds, .inr ⟨j, same, first j rfl⟩⟩
        · exact ⟨holds, .inr other⟩

/-- On a list that ends, enough fuel finds the first node that passes or that there is none. -/
theorem seek_leads (test : ι → Bool) (before : Option ι) (leads : Leads next start l none) (enough : l.length ≤ fuel) :
    (seek next test fuel before start = .absent ∧ ∀ j ∈ l, test j = false) ∨
      ∃ first i second, l = first ++ i :: second ∧ test i = true ∧ (∀ j ∈ first, test j = false) ∧
        seek next test fuel before start = .at (first.getLast?.or before) i := by
  induction l generalizing fuel before start with
  | nil =>
    obtain rfl : start = none := leads
    exact .inl ⟨by cases fuel <;> rfl, by simp⟩
  | cons j rest ih =>
    obtain ⟨rfl, leads⟩ := leads
    cases fuel with
    | zero => simp at enough
    | succ fuel =>
      cases passes : test j with
      | true => exact .inr ⟨[], j, rest, rfl, passes, by simp, by simp [seek, passes]⟩
      | false =>
        simp only [seek, passes, Bool.false_eq_true, if_false]
        rcases ih (some j) leads (by simpa using enough) with
          ⟨absent, none⟩ | ⟨first, i, second, rfl, here, none, found⟩
        · exact .inl ⟨absent, by simpa [passes] using none⟩
        · refine .inr ⟨j :: first, i, second, rfl, here, by simpa [passes] using none, ?_⟩
          rw [found]
          cases first with
          | nil => rfl
          | cons k rest => simp [List.getLast?_cons]

/-- Where the links lead to a node that passes, before any other does, the
search finds that node or runs out of fuel. -/
theorem seek_toward (leads : Leads next start l (some i)) (passes : test i = true) (none : ∀ j ∈ l, test j = false) :
    seek next test fuel before start = .endless ∨ seek next test fuel before start = .at (l.getLast?.or before) i := by
  induction l generalizing fuel before start with
  | nil =>
    obtain rfl : start = some i := leads
    cases fuel with
    | zero => exact .inl rfl
    | succ fuel => exact .inr (by simp [seek, passes])
  | cons j rest ih =>
    obtain ⟨rfl, leads⟩ := leads
    cases fuel with
    | zero => exact .inl rfl
    | succ fuel =>
      have step : seek next test (fuel + 1) before (some j) = seek next test fuel (some j) (next j) := by
        simp [seek, none j (List.mem_cons_self ..)]
      rw [step]
      have behind : seek next test fuel (some j) (next j) = .endless ∨
          seek next test fuel (some j) (next j) = .at (rest.getLast?.or (some j)) i :=
        ih leads fun k member => none k (List.mem_cons_of_mem j member)
      rcases behind with endless | found
      · exact .inl endless
      · refine .inr (found.trans ?_)
        cases rest with
        | nil => rfl
        | cons k rest => simp [List.getLast?_cons]

theorem Leads.length_le [Fintype ι] (leads : Leads next start l none) : l.length ≤ Fintype.card ι :=
  leads.nodup.length_le_card

theorem Leads.length_le_fin {n : Nat} {next : Fin n → Option (Fin n)} {start : Option (Fin n)} {l : List (Fin n)}
    (leads : Leads next start l none) : l.length ≤ n :=
  leads.length_le.trans (Fintype.card_fin n).le

/-- The last node. -/
theorem seek_last {last : ι} (before : Option ι) (leads : Leads next start (first ++ [last]) none)
    (enough : (first ++ [last]).length ≤ fuel) :
    seek next (fun i => (next i).isNone) fuel before start = .at (first.getLast?.or before) last := by
  rcases seek_leads (fun i => (next i).isNone) before leads enough with
    ⟨_, none⟩ | ⟨first', i, second, same, ends, _, found⟩
  · have atLast : next last = Option.none := leads.split.2
    simpa [atLast] using none last (by simp)
  · rw [same] at leads
    obtain ⟨_, after⟩ := leads.split
    rw [Option.isNone_iff_eq_none.mp ends] at after
    obtain rfl : second = [] := by
      cases second with
      | nil => rfl
      | cons => cases after.1
    obtain ⟨rfl, rfl⟩ := List.append_singleton_inj.mp same
    exact found

/-- A search for the last node finds none only in the empty list. -/
theorem seek_last_absent (absent : seek next (fun i => (next i).isNone) fuel before start = .absent) :
    start = none := by
  induction fuel generalizing before start with
  | zero =>
    cases start with
    | none => rfl
    | some => cases absent
  | succ fuel ih =>
    cases start with
    | none => rfl
    | some i =>
      simp only [seek] at absent
      split at absent
      · cases absent
      · rename_i link
        simp [ih absent] at link

end LinkedList
