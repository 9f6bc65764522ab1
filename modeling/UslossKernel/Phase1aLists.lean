import UslossKernel.Phase1aKernel

namespace UslossKernel.Phase1a

open LinkedList

/-- The entry without the links of the lists it is in. -/
def Process.unlinked (e : Process) : Process :=
  { e with children := none, next := none }

namespace Kernel

variable {k k' : Kernel} {i j p child : Slot} {f : Process → Process} {l first second : List Slot}
  {value : Option Slot}

@[simp] theorem modify_self : (k.modify i f).process_table i = f (k.process_table i) := EntryTable.modify_self

@[simp] theorem modify_of_ne (other : j ≠ i) : (k.modify i f).process_table j = k.process_table j :=
  EntryTable.modify_of_ne other

@[simp] theorem next_modify_next : (k.modify i fun e => { e with next := value }).next =
    Function.update k.next i value := EntryTable.fields_modify Process.next

@[simp] theorem children_modify_next : (k.modify i fun e => { e with next := value }).children = k.children :=
  EntryTable.fields_modify_of_blind Process.children fun _ => rfl

@[simp] theorem next_modify_children : (k.modify i fun e => { e with children := value }).next = k.next :=
  EntryTable.fields_modify_of_blind Process.next fun _ => rfl

@[simp] theorem children_modify_children : (k.modify i fun e => { e with children := value }).children =
    Function.update k.children i value := EntryTable.fields_modify Process.children

/-- The table is as it was, the links of the lists apart. -/
structure Relinked (k k' : Kernel) : Prop where
  entries : ∀ j, (k'.process_table j).unlinked = (k.process_table j).unlinked
  running : k'.running_process = k.running_process
  next_pid : k'.next_pid = k.next_pid
  counter : k'.terminationCounter = k.terminationCounter

theorem relinked_modify (blind : ∀ e, (f e).unlinked = e.unlinked) : Relinked k (k.modify i f) :=
  ⟨congrFun (EntryTable.fields_modify_of_blind Process.unlinked blind), rfl, rfl, rfl⟩

namespace Relinked

variable (relinked : Relinked k k')
include relinked

theorem pid (j : Slot) : (k'.process_table j).pid = (k.process_table j).pid :=
  EntryTable.field_of_rest Process.unlinked Process.pid (fun _ => rfl) (relinked.entries j)

theorem parent (j : Slot) : k'.parent j = k.parent j :=
  EntryTable.field_of_rest Process.unlinked Process.parent (fun _ => rfl) (relinked.entries j)

theorem occupied (j : Slot) : k'.occupied j = k.occupied j := by
  unfold Kernel.occupied
  rw [relinked.pid]

end Relinked

/-- The lists other than that of `p` stay what they are. -/
def OthersStay (k k' : Kernel) (p : Slot) (l : List Slot) : Prop :=
  ∀ q l', q ≠ p → Leads k.next (k.children q) l' none → (∀ i ∈ l, i ∉ l') → Leads k'.next (k'.children q) l' none

/-- The new process comes to the end of the list of its parent. -/
theorem linkChild_lists (leads : Leads k.next (k.children p) l none) (unlisted : child ∉ l)
    (ends : k.next child = none) : ∃ k', k.linkChild p child = some k' ∧ Relinked k k' ∧
      Leads k'.next (k'.children p) (l ++ [child]) none ∧ OthersStay k k' p l := by
  rcases List.eq_nil_or_concat l with rfl | ⟨front, last, rfl⟩
  · have noChild : k.children p = none := leads
    refine ⟨k.modify p fun e => { e with children := some child }, ?_, relinked_modify fun _ => rfl, ?_, ?_⟩
    · unfold linkChild
      rw [noChild]
      rfl
    · rw [next_modify_children, children_modify_children]
      exact ⟨Function.update_self .., ends⟩
    · intro q l' other leads' _
      rw [next_modify_children, children_modify_children, Function.update_of_ne other]
      exact leads'
  · rw [List.concat_eq_append] at *
    have found := seek_last none leads leads.length_le_fin
    refine ⟨k.modify last fun e => { e with next := some child }, ?_, relinked_modify fun _ => rfl, ?_, ?_⟩
    · unfold linkChild
      rw [found]
    · rw [next_modify_next, children_modify_next, List.append_assoc, List.singleton_append]
      have distinct := leads.nodup
      simp only [List.nodup_append, List.mem_singleton] at distinct
      refine leads.snoc (fun j member => Function.update_of_ne (distinct.2.2 j member last rfl) ..)
        (Function.update_self ..) ?_
      rw [Function.update_of_ne]
      · exact ends
      · rintro rfl
        exact unlisted (by simp)
    · intro q l' _ leads' apart
      rw [next_modify_next, children_modify_next]
      exact leads'.update (apart last (by simp))

/-- Only the node before it leads to a node of the list. -/
theorem not_before {start : Option Slot} {prev : Slot}
    (leads : Leads k.next start (first ++ prev :: child :: second) none) :
    start ≠ some child ∧ ∀ j ∈ first, k.next j ≠ some child := by
  have distinct := leads.nodup
  have apart : ∀ i ∈ first ++ [prev], i ≠ child := by
    rintro i member rfl
    simp only [List.nodup_append, List.nodup_cons, List.mem_cons, not_or] at distinct
    rcases List.mem_append.mp member with inFirst | last
    · exact distinct.2.2 i inFirst i (.inr (.inl rfl)) rfl
    · exact distinct.2.1.1.1 (List.mem_singleton.mp last).symm
  -- the list from a link on starts with a node before the child
  have ahead : ∀ {start rest}, Leads k.next start (rest ++ prev :: child :: second) none → (∀ i ∈ rest, i ∈ first) →
      start ≠ some child := by
    intro start rest leads inFirst same
    cases rest with
    | nil =>
      have head : prev = child := Option.some.inj (leads.1.symm.trans same)
      exact apart prev (by simp) head
    | cons i rest =>
      have head : i = child := Option.some.inj (leads.1.symm.trans same)
      exact apart i (List.mem_append_left _ (inFirst i (List.mem_cons_self ..))) head
  refine ⟨ahead leads fun _ => id, fun j member => ?_⟩
  obtain ⟨before, after, rfl⟩ := List.append_of_mem member
  rw [List.append_assoc, List.cons_append] at leads
  exact ahead leads.split.2 fun i later => by simp [later]

/-- A child that is taken out leaves the others in their order. -/
theorem unlink_lists (leads : Leads k.next (k.children p) (first ++ child :: second) none) :
    ∃ k', k.unlink p child = some k' ∧ Relinked k k' ∧ Leads k'.next (k'.children p) (first ++ second) none ∧
      OthersStay k k' p (first ++ child :: second) := by
  rcases List.eq_nil_or_concat first with rfl | ⟨front, prev, rfl⟩
  · refine ⟨k.modify p fun e => { e with children := k.next child }, ?_, relinked_modify fun _ => rfl, ?_, ?_⟩
    · unfold unlink
      rw [if_pos leads.1]
    · rw [next_modify_children, children_modify_children, Function.update_self]
      exact leads.2
    · intro q l' other leads' _
      rw [next_modify_children, children_modify_children, Function.update_of_ne other]
      exact leads'
  · rw [List.concat_eq_append, List.append_assoc, List.singleton_append] at *
    obtain ⟨toPrev, link, _⟩ := leads.split
    obtain ⟨notHead, notBefore⟩ := not_before leads
    have found : seek k.next (fun i => k.next i = some child) maxProc none (k.children p) =
        .at (front.getLast?.or none) prev := by
      rcases @seek_toward _ k.next _ _ _ (fun i => k.next i = some child) maxProc none toPrev
        (decide_eq_true link) fun j member => decide_eq_false (notBefore j member) with endless | found
      · rcases seek_leads (fun i => decide (k.next i = some child)) none leads leads.length_le_fin with
          ⟨absent, _⟩ | ⟨_, _, _, _, _, _, at_⟩
        · cases endless.symm.trans absent
        · cases endless.symm.trans at_
      · exact found
    refine ⟨k.modify prev fun e => { e with next := k.next child }, ?_, relinked_modify fun _ => rfl, ?_, ?_⟩
    · unfold unlink
      rw [if_neg notHead, found]
    · rw [next_modify_next, children_modify_next]
      exact leads.unlink (fun j other _ => Function.update_of_ne other ..) (Function.update_self ..)
    · intro q l' _ leads' apart
      rw [next_modify_next, children_modify_next]
      exact leads'.update (apart prev (by simp))

/-- The walk of `join` finds the terminated child with the greatest `termOrder`
above the bound, or there is none. -/
theorem target_leads {fuel : Nat} {start found : Option Slot} (highest : Int) (leads : Leads k.next start l none)
    (enough : l.length ≤ fuel) :
    (k.target fuel highest found start = some found ∧
      ∀ i ∈ l, k.status i = .terminated → ((k.process_table i).termOrder : Int) ≤ highest) ∨
    ∃ child ∈ l, k.target fuel highest found start = some (some child) ∧ k.status child = .terminated ∧
      highest < (k.process_table child).termOrder ∧
      ∀ i ∈ l, k.status i = .terminated → (k.process_table i).termOrder ≤ (k.process_table child).termOrder := by
  induction l generalizing fuel highest start found with
  | nil =>
    obtain rfl : start = none := leads
    exact .inl ⟨by cases fuel <;> rfl, by simp⟩
  | cons i rest ih =>
    obtain ⟨rfl, leads⟩ := leads
    cases fuel with
    | zero => simp at enough
    | succ fuel =>
      have shorter : rest.length ≤ fuel := by simpa using enough
      by_cases better : k.status i = .terminated ∧ highest < (k.process_table i).termOrder
      · simp only [target, if_pos better]
        right
        rcases @ih _ _ (some i) (k.process_table i).termOrder leads shorter with
          ⟨same, others⟩ | ⟨child, member, same, dead, above, others⟩
        · refine ⟨i, List.mem_cons_self .., same, better.1, better.2, fun j inList gone => ?_⟩
          rcases List.mem_cons.mp inList with rfl | later
          · exact le_rfl
          · exact_mod_cast others j later gone
        · refine ⟨child, List.mem_cons_of_mem i member, same, dead, by omega, fun j inList gone => ?_⟩
          rcases List.mem_cons.mp inList with rfl | later
          · omega
          · exact others j later gone
      · simp only [target, if_neg better]
        rcases @ih _ _ found highest leads shorter with
          ⟨same, others⟩ | ⟨child, member, same, dead, above, others⟩
        · refine .inl ⟨same, fun j inList gone => ?_⟩
          rcases List.mem_cons.mp inList with rfl | later
          · exact not_lt.mp fun above => better ⟨gone, above⟩
          · exact others j later gone
        · refine .inr ⟨child, List.mem_cons_of_mem i member, same, dead, above, fun j inList gone => ?_⟩
          rcases List.mem_cons.mp inList with rfl | later
          · have bound := not_lt.mp fun more => better ⟨gone, more⟩
            omega
          · exact others j later gone

/-- The children of a process are in a list, whose entries are taken and name
it as their parent, and pids are drawn in order. -/
structure Sound (k : Kernel) : Prop where
  below : ∀ i, (k.process_table i).pid < k.next_pid
  lists : ∀ p, k.occupied p = true →
    ∃ l, Leads k.next (k.children p) l none ∧ ∀ i ∈ l, k.occupied i = true ∧ k.parent i = some p
  apart : ∀ i, k.parent i ≠ some i
  running : ∀ p, k.running_process = some p → k.occupied p = true

theorem newProcess_of_ne {slot : Slot} {startFunc : Bool} {pid : Int} (other : j ≠ slot) :
    (k.newProcess slot p startFunc pid).process_table j = k.process_table j :=
  modify_of_ne other

theorem newProcess_self {slot : Slot} {startFunc : Bool} {pid : Int} :
    (k.newProcess slot p startFunc pid).process_table slot = { k.process_table slot with
      pid, status := .runnable, children := none, next := none, parent := some p, startFunc } :=
  modify_self

/-- The new entry is nobody's child yet. -/
theorem Sound.newProcess_lists (sound : k.Sound) {slot q : Slot} {startFunc : Bool} {pid : Int}
    (free : k.occupied slot = false) (taken : k.occupied q = true) :
    ∃ l, Leads (k.newProcess slot p startFunc pid).next ((k.newProcess slot p startFunc pid).children q) l none ∧
      slot ∉ l ∧ ∀ i ∈ l, k.occupied i = true ∧ k.parent i = some q := by
  obtain ⟨l, leads, members⟩ := sound.lists q taken
  have unlisted : slot ∉ l := fun member => absurd ((members slot member).1.symm.trans free) (by decide)
  have next : (k.newProcess slot p startFunc pid).next = Function.update k.next slot none :=
    EntryTable.fields_modify Process.next
  have children : (k.newProcess slot p startFunc pid).children = Function.update k.children slot none :=
    EntryTable.fields_modify Process.children
  have other : q ≠ slot := by
    rintro rfl
    exact absurd (taken.symm.trans free) (by decide)
  refine ⟨l, ?_, unlisted, members⟩
  rw [next, children, Function.update_of_ne other]
  exact leads.update unlisted

/-- `spork` finds the end of the list of its caller. -/
theorem Sound.sporks (sound : k.Sound) (runs : k.running_process = some p) {slot : Slot}
    (free : k.occupied slot = false) (startFunc : Bool) :
    ∃ k', ({ k with next_pid := k.next_pid + 1 }.newProcess slot p startFunc k.next_pid).linkChild p slot = some k' ∧
      k'.Sound := by
  have taken := sound.running p runs
  have apart : ∀ q, k.occupied q = true → q ≠ slot := by
    rintro q occupied rfl
    exact absurd (occupied.symm.trans free) (by decide)
  have sound' : ({ k with next_pid := k.next_pid + 1 } : Kernel).Sound :=
    ⟨fun i => (sound.below i).trans (by simp), sound.lists, sound.apart, sound.running⟩
  have self := @newProcess_self { k with next_pid := k.next_pid + 1 } p slot startFunc k.next_pid
  have others : ∀ j, j ≠ slot → ({ k with next_pid := k.next_pid + 1 }.newProcess slot p startFunc
      k.next_pid).process_table j = k.process_table j := fun j other => newProcess_of_ne other
  have lists := fun q (occupied : k.occupied q = true) =>
    @Sound.newProcess_lists _ p sound' slot q startFunc k.next_pid free occupied
  have next_pid : ({ k with next_pid := k.next_pid + 1 }.newProcess slot p startFunc k.next_pid).next_pid =
    k.next_pid + 1 := rfl
  have running : ({ k with next_pid := k.next_pid + 1 }.newProcess slot p startFunc k.next_pid).running_process =
    k.running_process := rfl
  generalize ({ k with next_pid := k.next_pid + 1 }.newProcess slot p startFunc k.next_pid) = created at *
  have slotFields : (created.process_table slot).pid = k.next_pid ∧ created.children slot = none ∧
      created.next slot = none ∧ created.parent slot = some p := by
    unfold Kernel.children Kernel.next Kernel.parent
    rw [self]
    exact ⟨rfl, rfl, rfl, rfl⟩
  obtain ⟨pid, noChild, ends, parent⟩ := slotFields
  have occupied : ∀ j, created.occupied j = true ↔ j = slot ∨ k.occupied j = true := by
    intro j
    unfold Kernel.occupied
    by_cases here : j = slot
    · rw [here, pid]
      simp
    · rw [others j here]
      simp [here]
  have parents : ∀ j, j ≠ slot → created.parent j = k.parent j :=
    fun j other => congrArg Process.parent (others j other)
  obtain ⟨l, leads, unlisted, members⟩ := lists p taken
  obtain ⟨k', linked, relinked, list, stay⟩ := linkChild_lists leads unlisted ends
  refine ⟨k', linked, fun i => ?_, fun q takenQ => ?_, fun i => ?_, fun q runsQ => ?_⟩
  · rw [relinked.pid, relinked.next_pid, next_pid]
    by_cases here : i = slot
    · rw [here, pid]
      simp
    · rw [others i here]
      exact (sound.below i).trans (by simp)
  · have kept : ∀ {i r}, k.occupied i = true ∧ k.parent i = some r → k'.occupied i = true ∧ k'.parent i = some r := by
      rintro i r ⟨occupiedI, parentI⟩
      rw [relinked.occupied, relinked.parent, parents i (apart i occupiedI)]
      exact ⟨(occupied i).mpr (.inr occupiedI), parentI⟩
    rw [relinked.occupied, occupied] at takenQ
    by_cases own : q = p
    · subst own
      refine ⟨l ++ [slot], list, fun i member => ?_⟩
      rcases List.mem_append.mp member with old | new
      · exact kept (members i old)
      · rw [List.mem_singleton.mp new, relinked.occupied, relinked.parent]
        exact ⟨(occupied slot).mpr (.inl rfl), parent⟩
    · rcases takenQ with rfl | takenQ
      · exact ⟨[], stay q [] own noChild (by simp), by simp⟩
      · obtain ⟨l', leads', _, members'⟩ := lists q takenQ
        refine ⟨l', stay q l' own leads' fun i inP inQ => ?_, fun i member => kept (members' i member)⟩
        exact own (Option.some.inj ((members' i inQ).2.symm.trans (members i inP).2))
  · rw [relinked.parent]
    by_cases here : i = slot
    · rw [here, parent]
      exact fun same => apart p taken (Option.some.inj same)
    · rw [parents i here]
      exact sound.apart i
  · rw [relinked.running, running] at runsQ
    rw [relinked.occupied]
    exact (occupied q).mpr (.inr (sound.running q runsQ))

/-- A `join` that returns the child: it is the terminated one in the list with
the greatest `termOrder`, the others stay in their order, and its entry is free. -/
structure Collects (k : Kernel) (p child : Slot) (k' : Kernel) : Prop where
  occupied : k.occupied child = true
  parent : k.parent child = some p
  dead : k.status child = .terminated
  list : ∃ first second, Leads k.next (k.children p) (first ++ child :: second) none ∧
    Leads k'.next (k'.children p) (first ++ second) none ∧
    ∀ i ∈ first ++ child :: second, k.status i = .terminated →
      (k.process_table i).termOrder ≤ (k.process_table child).termOrder
  freed : (k'.process_table child).unlinked =
    Process.unlinked { k.process_table child with pid := -1, status := .runnable }
  others : ∀ i, i ≠ child → (k'.process_table i).unlinked = (k.process_table i).unlinked
  running : k'.running_process = k.running_process
  next_pid : k'.next_pid = k.next_pid
  counter : k'.terminationCounter = k.terminationCounter

theorem Collects.pid_of_ne (collects : Collects k p child k') (other : i ≠ child) :
    (k'.process_table i).pid = (k.process_table i).pid :=
  EntryTable.field_of_rest Process.unlinked Process.pid (fun _ => rfl) (collects.others i other)

theorem Collects.pid_self (collects : Collects k p child k') : (k'.process_table child).pid = -1 :=
  EntryTable.field_of_rest Process.unlinked Process.pid (fun _ => rfl) collects.freed

theorem Collects.parent_eq (collects : Collects k p child k') (i : Slot) : k'.parent i = k.parent i := by
  by_cases here : i = child
  · rw [here]
    have same := EntryTable.field_of_rest Process.unlinked Process.parent (fun _ => rfl) collects.freed
    exact same
  · exact EntryTable.field_of_rest Process.unlinked Process.parent (fun _ => rfl) (collects.others i here)

theorem Collects.occupied_iff (collects : Collects k p child k') (i : Slot) :
    k'.occupied i = true ↔ i ≠ child ∧ k.occupied i = true := by
  unfold Kernel.occupied
  by_cases here : i = child
  · rw [here, collects.pid_self]
    simp
  · rw [collects.pid_of_ne here]
    simp [here]

/-- `join` finds the list of its caller to have an end. -/
theorem Sound.joins (sound : k.Sound) (runs : k.running_process = some p) :
    (k.join true = (k, .returns (-2) none) ∧
      ∀ l, Leads k.next (k.children p) l none → ∀ i ∈ l, k.status i ≠ .terminated) ∨
    ∃ child k', k.join true = (k', .returns (k.process_table child).pid
      (some (k.process_table child).exit_status)) ∧ Collects k p child k' ∧
      ∃ l, Leads k.next (k.children p) l none ∧ OthersStay k k' p l := by
  obtain ⟨l, leads, members⟩ := sound.lists p (sound.running p runs)
  unfold join
  rw [if_neg (by decide), runs]
  rcases @target_leads _ _ _ _ none (-1) leads leads.length_le_fin with
    ⟨walk, none⟩ | ⟨child, member, walk, dead, _, greatest⟩
  · refine .inl ⟨by simp only [walk], fun l' leads' i inList gone => ?_⟩
    rw [leads'.unique leads] at inList
    have bound := none i inList gone
    omega
  · obtain ⟨first, second, rfl⟩ := List.append_of_mem member
    obtain ⟨k', unlinked, relinked, list, stay⟩ := unlink_lists leads
    have next : (k'.modify child fun p => { p with pid := -1, status := .runnable }).next = k'.next :=
      EntryTable.fields_modify_of_blind Process.next fun _ => rfl
    have children : (k'.modify child fun p => { p with pid := -1, status := .runnable }).children = k'.children :=
      EntryTable.fields_modify_of_blind Process.children fun _ => rfl
    refine .inr ⟨child, k'.modify child fun p => { p with pid := -1, status := .runnable },
      by simp only [walk, unlinked], ?_, first ++ child :: second, leads, fun q l' other leads' apart => ?_⟩
    · obtain ⟨occupied, parent⟩ := members child member
      refine ⟨occupied, parent, dead, ⟨first, second, leads, ?_, greatest⟩, ?_, fun i other => ?_, relinked.running,
        relinked.next_pid, relinked.counter⟩
      · rw [next, children]
        exact list
      · rw [modify_self]
        exact congrArg (fun e : Process => { e with pid := -1, status := .runnable }) (relinked.entries child)
      · rw [modify_of_ne other]
        exact relinked.entries i
    · rw [next, children]
      exact stay q l' other leads' apart

/-- Without the child the lists are sound. -/
theorem Sound.collects (sound : k.Sound) (runs : k.running_process = some p) (collects : Collects k p child k')
    (stay : ∃ l, Leads k.next (k.children p) l none ∧ OthersStay k k' p l) : k'.Sound := by
  have taken := sound.running p runs
  refine ⟨fun i => ?_, fun q takenQ => ?_, fun i => ?_, fun q runsQ => ?_⟩
  · rw [collects.next_pid]
    by_cases here : i = child
    · rw [here, collects.pid_self]
      omega
    · rw [collects.pid_of_ne here]
      exact sound.below i
  · obtain ⟨otherQ, takenQ⟩ := (collects.occupied_iff q).mp takenQ
    obtain ⟨l, leads, members⟩ := sound.lists q takenQ
    have kept : ∀ {i}, i ≠ child → i ∈ l → k'.occupied i = true ∧ k'.parent i = some q := by
      intro i other member
      rw [collects.occupied_iff, collects.parent_eq]
      exact ⟨⟨other, (members i member).1⟩, (members i member).2⟩
    by_cases own : q = p
    · subst own
      obtain ⟨first, second, leads', list, _⟩ := collects.list
      rw [leads.unique leads'] at kept
      have distinct := leads'.nodup
      refine ⟨first ++ second, list, fun i member => kept ?_ ?_⟩
      · rintro rfl
        simp only [List.nodup_append, List.nodup_cons, List.mem_cons] at distinct
        rcases List.mem_append.mp member with inFirst | inSecond
        · exact distinct.2.2 i inFirst i (.inl rfl) rfl
        · exact distinct.2.1.1 inSecond
      · rcases List.mem_append.mp member with inFirst | inSecond
        · exact List.mem_append_left _ inFirst
        · exact List.mem_append_right _ (List.mem_cons_of_mem child inSecond)
    · obtain ⟨lp, leadsP, stay⟩ := stay
      obtain ⟨lp', leadsP', membersP⟩ := sound.lists p taken
      obtain rfl := leadsP.unique leadsP'
      refine ⟨l, stay q l own leads fun i inP inQ => ?_, fun i member => kept ?_ member⟩
      · exact own (Option.some.inj ((members i inQ).2.symm.trans (membersP i inP).2))
      · rintro rfl
        exact own (Option.some.inj ((members i member).2.symm.trans collects.parent))
  · rw [collects.parent_eq]
    exact sound.apart i
  · rw [collects.running] at runsQ
    obtain rfl := Option.some.inj (runs.symm.trans runsQ)
    rw [collects.occupied_iff]
    refine ⟨?_, taken⟩
    rintro rfl
    exact sound.apart p collects.parent

/-- A change of anything but the links and the pids. -/
theorem Sound.congr (sound : k.Sound) (next : k'.next = k.next) (children : k'.children = k.children)
    (parent : k'.parent = k.parent) (pids : ∀ i, (k'.process_table i).pid = (k.process_table i).pid)
    (more : k.next_pid ≤ k'.next_pid) (running : ∀ p, k'.running_process = some p → k.occupied p = true) :
    k'.Sound := by
  have occupied : k'.occupied = k.occupied := by
    funext i
    unfold Kernel.occupied
    rw [pids]
  refine ⟨fun i => ?_, ?_, ?_, ?_⟩
  · have bound := sound.below i
    rw [pids]
    omega
  · rw [next, children, parent, occupied]
    exact sound.lists
  · rw [parent]
    exact sound.apart
  · rw [occupied]
    exact running

theorem switchTo_eq_some {pid : Int} (switched : k.switchTo pid = some k') :
    ∃ i, k.occupied i = true ∧ k' = { k with running_process := some i } := by
  obtain ⟨i, found, rfl⟩ := Option.map_eq_some_iff.mp switched
  exact ⟨i, (Option.filter_eq_some_iff.mp found).2, rfl⟩

theorem Sound.switches {pid : Int} (sound : k.Sound) (switched : k.switchTo pid = some k') : k'.Sound := by
  obtain ⟨i, occupied, rfl⟩ := switchTo_eq_some switched
  refine sound.congr rfl rfl rfl (fun _ => rfl) le_rfl fun p runs => ?_
  obtain rfl := Option.some.inj runs
  exact occupied

/-- The table after `quit_phase_1a`. -/
def quitted (k : Kernel) (p : Slot) (status : Int) : Kernel :=
  { k.modify p fun e =>
      { e with status := .terminated, exit_status := status, termOrder := k.terminationCounter } with
    terminationCounter := k.terminationCounter + 1 }

variable {status : Int}

theorem quitted_self : (k.quitted p status).process_table p = { k.process_table p with
    status := .terminated, exit_status := status, termOrder := k.terminationCounter } :=
  Function.update_self ..

theorem quitted_of_ne (other : i ≠ p) : (k.quitted p status).process_table i = k.process_table i :=
  Function.update_of_ne other ..

theorem quitted_pid (i : Slot) : ((k.quitted p status).process_table i).pid = (k.process_table i).pid := by
  by_cases here : i = p
  · rw [here, quitted_self]
  · rw [quitted_of_ne here]

theorem Sound.quitted (sound : k.Sound) : (k.quitted p status).Sound := by
  have blind : ∀ {α : Type} (field : Process → α), (∀ e : Process, field { e with
      status := .terminated, exit_status := status, termOrder := k.terminationCounter } = field e) →
      (fun i => field ((k.quitted p status).process_table i)) = fun i => field (k.process_table i) :=
    fun field same => EntryTable.fields_modify_of_blind field same
  exact sound.congr (blind Process.next fun _ => rfl) (blind Process.children fun _ => rfl)
    (blind Process.parent fun _ => rfl) quitted_pid le_rfl sound.running

theorem Sound.quits (sound : k.Sound) (status switchToPid : Int) : (k.quit_phase_1a status switchToPid).1.Sound := by
  unfold quit_phase_1a
  split
  · exact sound
  split
  · exact sound
  simp only
  split
  · exact sound.quitted
  · rename_i switched
    exact sound.quitted.switches switched

end Kernel

theorem Call.exec_sound {k : Kernel} {c : Call} (sound : k.Sound) : (c.exec k).1.Sound := by
  have more : ({ k with next_pid := k.next_pid + 1 } : Kernel).Sound :=
    sound.congr rfl rfl rfl (fun _ => rfl) (Nat.le_succ _) sound.running
  cases c with
  | spork startFunc malloc =>
    simp only [Call.exec]
    unfold Kernel.spork
    split
    · exact sound
    simp only
    split
    · exact more
    rename_i free
    split
    · exact more
    split
    · exact more
    rename_i p runs
    obtain ⟨k', linked, sound'⟩ := sound.sporks runs (by simpa using free) startFunc
    rw [linked]
    exact sound'
  | join status =>
    cases status with
    | false => exact sound
    | true =>
      cases runs : k.running_process with
      | none => simpa [Call.exec, Kernel.join, runs] using sound
      | some p =>
        simp only [Call.exec]
        rcases sound.joins runs with ⟨empty, _⟩ | ⟨child, k', joined, collects, stay⟩
        · rw [empty]
          exact sound
        · rw [joined]
          exact sound.collects runs collects stay
  | quit_phase_1a status switchToPid => exact sound.quits status switchToPid
  | finish rc =>
    simp only [Call.exec]
    unfold Kernel.finish
    split
    · exact sound
    · exact sound.quits rc _
  | TEMP_switchTo newpid =>
    simp only [Call.exec]
    unfold Kernel.TEMP_switchTo
    split
    · exact sound
    · rename_i switched
      exact sound.switches switched

namespace Machine

variable {m m' : Machine} {p : Slot} {a : Act} {c : Call}

theorem run_sound (sound : m.kernel.Sound) : (m.run p c).kernel.Sound := by
  have after := Call.exec_sound (c := c) sound
  unfold run settle
  cases (c.exec m.kernel).2 with
  | returns | switches => exact after
  | halts | hangs | crashes => exact sound

theorem step_sound (sound : m.kernel.Sound) (moves : m.step a = some m') : m'.kernel.Sound := by
  cases (step_move moves).2 with
  | starts switched => exact sound.switches switched
  | begins | returns | stops => exact sound
  | calls => exact run_sound sound

theorem boot_children : ∀ p, boot.kernel.children p = none := by decide

theorem boot_sound : boot.kernel.Sound where
  below := by decide
  lists p _ := ⟨[], boot_children p, by simp⟩
  apart := by decide
  running _ := by rintro ⟨⟩

theorem sound_of_run {guard : Machine → Act → Prop} (run : Transition.Run step guard boot m) : m.kernel.Sound :=
  run.invariant (fun m => m.kernel.Sound) boot_sound fun _ _ _ sound _ moves => step_sound sound moves

end Machine

end UslossKernel.Phase1a
