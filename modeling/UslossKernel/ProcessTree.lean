import UslossKernel.AnyOrder

namespace UslossKernel.Phase1b

open LinkedList

namespace Kernel

/-- `i` is a child of `p` that has not been joined. -/
def childOf (k : Kernel) (i p : Slot) : Prop :=
  k.occupied i = true ∧ (k.process_table i).parent = some p

def parent (k : Kernel) (i : Slot) : Option Slot := (k.process_table i).parent

def children (k : Kernel) (i : Slot) : Option Slot := (k.process_table i).children

variable {k k' : Kernel} {i j p child : Slot} {f : Process → Process} {l : List Slot} {value : Option Slot}

@[simp] theorem sibling_modify_sibling : (k.modify i fun e => { e with sibling := value }).sibling =
    Function.update k.sibling i value := EntryTable.fields_modify Process.sibling

@[simp] theorem children_modify_sibling : (k.modify i fun e => { e with sibling := value }).children = k.children :=
  EntryTable.fields_modify_of_blind Process.children fun _ => rfl

@[simp] theorem parent_modify_sibling : (k.modify i fun e => { e with sibling := value }).parent = k.parent :=
  EntryTable.fields_modify_of_blind Process.parent fun _ => rfl

@[simp] theorem sibling_modify_children : (k.modify i fun e => { e with children := value }).sibling = k.sibling :=
  EntryTable.fields_modify_of_blind Process.sibling fun _ => rfl

@[simp] theorem children_modify_children : (k.modify i fun e => { e with children := value }).children =
    Function.update k.children i value := EntryTable.fields_modify Process.children

@[simp] theorem parent_modify_children : (k.modify i fun e => { e with children := value }).parent = k.parent :=
  EntryTable.fields_modify_of_blind Process.parent fun _ => rfl

@[simp] theorem sibling_modify_parent : (k.modify i fun e => { e with parent := value }).sibling = k.sibling :=
  EntryTable.fields_modify_of_blind Process.sibling fun _ => rfl

@[simp] theorem children_modify_parent : (k.modify i fun e => { e with parent := value }).children = k.children :=
  EntryTable.fields_modify_of_blind Process.children fun _ => rfl

@[simp] theorem parent_modify_parent : (k.modify i fun e => { e with parent := value }).parent =
    Function.update k.parent i value := EntryTable.fields_modify Process.parent

/-- The new child is the first, the only or the last one. -/
theorem linkChild_eq_some (running : k.running_process = some p) (linked : k.linkChild child = some k') :
    k'.parent = Function.update k.parent child (some p) ∧ (
      k'.sibling = Function.update k.sibling child (k.children p) ∧
          k'.children = Function.update k.children p (some child) ∨
        k.children p = none ∧ k'.sibling = Function.update k.sibling child none ∧
          k'.children = Function.update k.children p (some child) ∨
        ∃ before last, seek (Function.update k.sibling child none)
            (fun i => (Function.update k.sibling child none i).isNone) maxProc none (k.children p) = .at before last ∧
          k'.sibling = Function.update (Function.update k.sibling child none) last (some child) ∧
          k'.children = k.children) := by
  unfold linkChild at linked
  rw [running] at linked
  simp only at linked
  have first : ∀ (k₁ : Kernel), k₁.children = k.children → (k₁.process_table p).children = k.children p := by
    intro k₁ same
    exact congrFun same p
  split at linked
  · split at linked
    · cases linked
    · rename_i absent
      cases linked
      have noChild := seek_last_absent absent
      rw [first _ (by simp)] at noChild
      exact ⟨by simp, .inr (.inl ⟨noChild, by simp, by simp⟩)⟩
    · rename_i before last found
      cases linked
      rw [first _ (by simp)] at found
      simp only [sibling_modify_sibling, sibling_modify_parent] at found
      exact ⟨by simp, .inr (.inr ⟨before, last, found, by simp, by simp⟩)⟩
  · cases linked
    rw [first _ (by simp)]
    exact ⟨by simp, .inl ⟨by simp, by simp⟩⟩

/-- The child joins the list of its parent, and the other lists stay. -/
theorem linkChild_lists (running : k.running_process = some p)
    (leads : Leads k.sibling (k.children p) l none) (unlisted : child ∉ l)
    (linked : k.linkChild child = some k') :
    (∃ l', Leads k'.sibling (k'.children p) l' none ∧ ∀ i, i ∈ l' ↔ i ∈ l ∨ i = child) ∧
      ∀ q l', q ≠ p → Leads k.sibling (k.children q) l' none → child ∉ l' → (∀ i ∈ l, i ∉ l') →
        Leads k'.sibling (k'.children q) l' none := by
  obtain ⟨_, ⟨sibling, children⟩ | ⟨noChild, sibling, children⟩ | ⟨before, last, found, sibling, children⟩⟩ :=
    linkChild_eq_some running linked
  · rw [sibling, children]
    refine ⟨⟨child :: l, ⟨Function.update_self .., ?_⟩, by simp [or_comm]⟩, ?_⟩
    · rw [Function.update_self]
      exact leads.update unlisted
    · intro q l' other leads' unlisted' _
      rw [Function.update_of_ne other]
      exact leads'.update unlisted'
  · rw [sibling, children]
    rw [noChild] at leads
    obtain rfl := (show Leads k.sibling none [] none from rfl).unique leads
    refine ⟨⟨[child], ⟨Function.update_self .., Function.update_self ..⟩, by simp⟩, ?_⟩
    intro q l' other leads' unlisted' _
    rw [Function.update_of_ne other]
    exact leads'.update unlisted'
  · rw [sibling, children]
    have leads₁ : Leads (Function.update k.sibling child none) (k.children p) l none := leads.update unlisted
    rcases List.eq_nil_or_concat l with rfl | ⟨first, end_, rfl⟩
    · have noChild : k.children p = none := leads
      rw [noChild] at found
      cases found
    rw [List.concat_eq_append] at *
    have short : (first ++ [end_]).length ≤ maxProc := leads.length_le_fin
    rw [seek_last none leads₁ short] at found
    cases found
    have notFirst : ∀ j ∈ first, j ≠ last := by
      have distinct := leads.nodup
      rw [List.nodup_append] at distinct
      exact fun j member => distinct.2.2 j member last (List.mem_singleton_self last)
    have notChild : child ≠ last := by
      rintro rfl
      exact unlisted (by simp)
    refine ⟨⟨first ++ [last, child], leads₁.snoc ?_ ?_ ?_, by simp [or_assoc]⟩, ?_⟩
    · intro j member
      exact Function.update_of_ne (notFirst j member) ..
    · exact Function.update_self ..
    · rw [Function.update_of_ne notChild, Function.update_self]
    · intro q l' other leads' unlisted' apart
      exact (leads'.update unlisted').update (apart last (by simp))

/-- The walk to the end of the list of children comes to an end. -/
theorem linkChild_ends (running : k.running_process = some p) (leads : Leads k.sibling (k.children p) l none)
    (unlisted : child ∉ l) : k.linkChild child ≠ none := by
  intro endless
  unfold linkChild at endless
  rw [running] at endless
  simp only at endless
  split at endless
  · split at endless
    · rename_i found
      have start : ∀ k₁ : Kernel, k₁.children = k.children → (k₁.process_table p).children = k.children p :=
        fun k₁ same => congrFun same p
      rw [start _ (by simp)] at found
      simp only [sibling_modify_sibling, sibling_modify_parent] at found
      have leads₁ : Leads (Function.update k.sibling child none) (k.children p) l none := leads.update unlisted
      rcases seek_leads (fun i => (Function.update k.sibling child none i).isNone) none leads₁
        leads.length_le_fin with ⟨absent, _⟩ | ⟨_, _, _, _, _, _, atLast⟩
      · cases found.symm.trans absent
      · cases found.symm.trans atLast
    · cases endless
    · cases endless
  · cases endless

@[simp] theorem freed_sibling : (k.modify i fun e => { e with stack := false, pid := -1, sibling := none }).sibling =
    Function.update k.sibling i none := EntryTable.fields_modify Process.sibling

@[simp] theorem freed_children :
    (k.modify i fun e => { e with stack := false, pid := -1, sibling := none }).children = k.children :=
  EntryTable.fields_modify_of_blind Process.children fun _ => rfl

@[simp] theorem freed_parent :
    (k.modify i fun e => { e with stack := false, pid := -1, sibling := none }).parent = k.parent :=
  EntryTable.fields_modify_of_blind Process.parent fun _ => rfl

theorem collect_parent {before : Option Slot} : (k.collect p before child).parent = k.parent := by
  unfold collect
  cases before <;> simp

theorem collect_first_sibling : (k.collect p none child).sibling = Function.update k.sibling child none := by
  simp [collect]

theorem collect_first_children :
    (k.collect p none child).children = Function.update k.children p (k.sibling child) := by
  simp [collect]

theorem collect_behind_sibling {b : Slot} : (k.collect p (some b) child).sibling =
    Function.update (Function.update k.sibling b (k.sibling child)) child none := by
  simp [collect]

theorem collect_behind_children {b : Slot} : (k.collect p (some b) child).children = k.children := by
  simp [collect]

/-- The child that has been found leaves the list, and the other lists stay. -/
theorem collect_lists {test : Slot → Bool} {before : Option Slot}
    (leads : Leads k.sibling (k.children p) l none)
    (found : seek k.sibling test maxProc none (k.children p) = .at before child) :
    child ∈ l ∧
    (∃ l', Leads (k.collect p before child).sibling ((k.collect p before child).children p) l' none ∧
      ∀ i, i ∈ l' ↔ i ∈ l ∧ i ≠ child) ∧
      ∀ q l', q ≠ p → Leads k.sibling (k.children q) l' none → (∀ i ∈ l, i ∉ l') →
        Leads (k.collect p before child).sibling ((k.collect p before child).children q) l' none := by
  have distinct := leads.nodup
  rcases seek_leads test none leads leads.length_le_fin with
    ⟨absent, _⟩ | ⟨first, i, second, rfl, _, _, found'⟩
  · rw [absent] at found
    cases found
  rw [found'] at found
  obtain ⟨atBefore, rfl⟩ := Found.at.inj found
  have member : i ∈ first ++ i :: second := by simp
  refine ⟨member, ?_⟩
  rcases List.eq_nil_or_concat first with rfl | ⟨front, b, rfl⟩
  · obtain rfl : before = none := atBefore.symm
    rw [collect_first_sibling, collect_first_children]
    have notSecond : i ∉ second := (List.nodup_cons.mp distinct).1
    refine ⟨⟨second, ?_, fun j => ?_⟩, fun q l' other leads' apart => ?_⟩
    · rw [Function.update_self]
      exact leads.2.update notSecond
    · constructor
      · intro inSecond
        exact ⟨List.mem_cons_of_mem i inSecond, fun same => notSecond (same ▸ inSecond)⟩
      · rintro ⟨inList, notI⟩
        exact (List.mem_cons.mp inList).resolve_left notI
    · rw [Function.update_of_ne other]
      exact leads'.update (apart i member)
  · obtain rfl : before = some b := by simpa using atBefore.symm
    rw [collect_behind_sibling, collect_behind_children]
    rw [List.concat_eq_append, List.append_assoc, List.singleton_append] at *
    have apartB : b ≠ i := by
      rintro rfl
      simp [List.nodup_append] at distinct
    refine ⟨⟨front ++ b :: second, leads.unlink ?_ ?_, fun j => ?_⟩, fun q l' other leads' apart => ?_⟩
    · intro j notB notI
      rw [Function.update_of_ne notI, Function.update_of_ne notB]
    · rw [Function.update_of_ne apartB, Function.update_self]
    · simp only [List.nodup_append, List.nodup_cons, List.mem_cons, not_or] at distinct
      obtain ⟨_, ⟨_, notSecond, _⟩, apart⟩ := distinct
      simp only [List.mem_append, List.mem_cons]
      constructor
      · intro inList
        refine ⟨by tauto, ?_⟩
        rintro rfl
        rcases inList with inFront | same | inSecond
        · exact apart j inFront j (.inr (.inl rfl)) rfl
        · exact apartB same.symm
        · exact notSecond inSecond
      · tauto
    · exact (leads'.update (apart b (by simp))).update (apart i member)

end Kernel

/-- What the family of a process is made of. -/
def Process.kin (e : Process) : Int × Option Slot × Option Slot × Option Slot :=
  (e.pid, e.parent, e.children, e.sibling)

namespace Kernel

variable {k k' : Kernel} {i p : Slot}

theorem status_of_unlinked {e : Process} {j : Slot} (atJ : k.unlinked j = e) : k.status j = e.status := by
  subst atJ
  rfl

theorem newProcess_field {α : Type} {slot : Slot} {startFunc : Bool} {priority : Nat} (field : Process → α)
    (blind : field { k.process_table slot with
      pid := drawPid k.next_pid, priority, status := .runnable, stack := true, startFunc } =
        field (k.process_table slot)) (j : Slot) :
    field ((k.newProcess slot startFunc priority).process_table j) = field (k.process_table j) := by
  by_cases here : j = slot
  · subst here
    rw [newProcess_self, blind]
  · rw [newProcess_of_ne here]

theorem appendToQueue_kin (appended : k.appendToQueue i = some k') (j : Slot) :
    (k'.process_table j).kin = (k.process_table j).kin := by
  rcases appendToQueue_eq_some appended with ⟨_, rfl⟩ | ⟨_, _, _, rfl⟩
  · rfl
  · exact modify_field Process.kin (fun _ => by rfl) j

theorem remove_kin (removed : k.remove_from_ready_queue p = some k') (j : Slot) :
    (k'.process_table j).kin = (k.process_table j).kin := by
  rcases remove_eq_some removed with ⟨_, rfl⟩ | ⟨_, rfl⟩ | ⟨_, _, _, rfl⟩
  · rfl
  · exact modify_field Process.kin (fun _ => by rfl) j
  · exact (modify_field Process.kin (fun _ => by rfl) j).trans (modify_field Process.kin (fun _ => by rfl) j)

theorem terminate_kin (exit : Int) (j : Slot) :
    ((k.terminate p exit).process_table j).kin = (k.process_table j).kin := by
  unfold terminate
  refine wakeZappers_keeps (P := fun k' => (k'.process_table j).kin = (k.process_table j).kin) ?_ ?_
  · exact (wakeParent_field Process.kin (fun _ _ => rfl) j).trans (modify_field Process.kin (fun _ => by rfl) j)
  · intro k' i same
    rw [← same]
    unfold wakeZapper
    split
    · rw [setHead_process_table]
      exact modify_field Process.kin (fun _ => by rfl) j
    · rfl

theorem appendToQueue_next_pid (appended : k.appendToQueue i = some k') : k'.next_pid = k.next_pid := by
  rcases appendToQueue_eq_some appended with ⟨_, rfl⟩ | ⟨_, _, _, rfl⟩ <;> rfl

theorem remove_next_pid (removed : k.remove_from_ready_queue p = some k') : k'.next_pid = k.next_pid := by
  rcases remove_eq_some removed with ⟨_, rfl⟩ | ⟨_, rfl⟩ | ⟨_, _, _, rfl⟩ <;> rfl

theorem terminate_next_pid (exit : Int) : (k.terminate p exit).next_pid = k.next_pid := by
  unfold terminate
  refine wakeZappers_keeps (P := fun k' => k'.next_pid = k.next_pid) ?_ fun k' i same => ?_
  · unfold wakeParent
    split
    · rfl
    · split <;> rfl
  · rw [← same]
    unfold wakeZapper
    split <;> rfl

end Kernel

open Kernel

variable {k k' : Kernel} {p : Slot} {pt : Point} {seg : Segment}

section kin
variable (kin : ∀ j, (k'.process_table j).kin = (k.process_table j).kin)
include kin

theorem kin_pid (j : Slot) : (k'.process_table j).pid = (k.process_table j).pid := congrArg Prod.fst (kin j)

theorem kin_parent : k'.parent = k.parent := funext fun j => congrArg (fun e => e.2.1) (kin j)

theorem kin_children : k'.children = k.children := funext fun j => congrArg (fun e => e.2.2.1) (kin j)

theorem kin_sibling : k'.sibling = k.sibling := funext fun j => congrArg (fun e => e.2.2.2) (kin j)

theorem kin_occupied : k'.occupied = k.occupied := by
  funext j
  unfold occupied
  rw [kin_pid kin]

theorem kin_childOf : k'.childOf = k.childOf := by
  funext i q
  have parent : (k'.process_table i).parent = (k.process_table i).parent := congrFun (kin_parent kin) i
  unfold childOf
  rw [kin_occupied kin, parent]

end kin

/-- The children of a process are in its list, pids are not used twice, and
neither a free entry nor a terminated process has children. -/
structure Family (k : Kernel) : Prop where
  children : ∀ p, ∃ l, Leads k.sibling (k.children p) l none ∧ ∀ i, i ∈ l ↔ k.childOf i p
  childless : ∀ p, k.status p = .terminated → k.children p = none
  free : ∀ p, k.occupied p = false → k.status p = .terminated
  below : ∀ p, (k.process_table p).pid < k.next_pid
  distinct : ∀ i j, k.occupied i = true → (k.process_table i).pid = (k.process_table j).pid → i = j

namespace Family

theorem childless_iff (family : Family k) : k.children p = none ↔ ∀ i, ¬ k.childOf i p := by
  obtain ⟨l, leads, members⟩ := family.children p
  constructor
  · intro noChild i child
    rw [noChild] at leads
    obtain rfl := (show Leads k.sibling none [] none from rfl).unique leads
    simpa using (members i).mpr child
  · intro noChild
    obtain rfl : l = [] := List.eq_nil_iff_forall_not_mem.mpr fun i member => noChild i ((members i).mp member)
    exact leads

/-- The parent of an unjoined child is still there. -/
theorem parent_alive (family : Family k) {i : Slot} (child : k.childOf i p) :
    k.occupied p = true ∧ k.status p ≠ .terminated := by
  have alive : k.status p ≠ .terminated := fun dead => family.childless_iff.mp (family.childless p dead) i child
  refine ⟨?_, alive⟩
  by_contra isFree
  exact alive (family.free p (by simpa using isFree))

/-- A change of states only, in which nobody with a child terminates. -/
theorem restatus (family : Family k) (kin : ∀ j, (k'.process_table j).kin = (k.process_table j).kin)
    (next_pid : k'.next_pid = k.next_pid)
    (ended : ∀ j, k'.status j = .terminated → k.status j = .terminated ∨ k.children j = none)
    (kept : ∀ j, k.status j = .terminated → k'.status j = .terminated) : Family k' := by
  have occupied := kin_occupied kin
  have children := kin_children kin
  refine ⟨?_, ?_, ?_, ?_, ?_⟩
  · rw [kin_childOf kin, children, kin_sibling kin]
    exact family.children
  · intro q dead
    rw [children]
    exact (ended q dead).elim (family.childless q) id
  · intro q isFree
    rw [occupied] at isFree
    exact kept q (family.free q isFree)
  · intro q
    rw [kin_pid kin, next_pid]
    exact family.below q
  · intro i j taken same
    rw [kin_pid kin, kin_pid kin] at same
    rw [occupied] at taken
    exact family.distinct i j taken same

end Family

namespace Sporked

variable {slot : Slot}

theorem next_pid_eq (sporked : Sporked k slot k') : k'.next_pid = drawPid k.next_pid + 1 := by
  obtain ⟨_, _, _, linked, queued⟩ := sporked
  obtain ⟨_, rfl⟩ := linkChild_table linked
  exact appendToQueue_next_pid queued

/-- Linking the new process is all that `spork` does to the family. -/
theorem links (sporked : Sporked k slot k') (running : k.running_process = some p) :
    ∃ created linked : Kernel, created.running_process = some p ∧ created.parent = k.parent ∧
      created.children = k.children ∧ created.sibling = k.sibling ∧ created.linkChild slot = some linked ∧
      k'.parent = linked.parent ∧ k'.children = linked.children ∧ k'.sibling = linked.sibling := by
  obtain @⟨startFunc, priority, linked, queued, _, _, _, atLinked, atQueued⟩ := sporked
  have kin : ∀ j, ((queued.modify slot fun e => { e with next := none }).process_table j).kin =
      (linked.process_table j).kin := by
    intro j
    exact (modify_field Process.kin (fun _ => by rfl) j).trans (appendToQueue_kin atQueued j)
  refine ⟨k.newProcess slot startFunc priority, linked, running, ?_, ?_, ?_, atLinked, ?_, ?_, ?_⟩
  · exact funext fun j => newProcess_field Process.parent rfl j
  · exact funext fun j => newProcess_field Process.children rfl j
  · exact funext fun j => newProcess_field Process.sibling rfl j
  · exact kin_parent kin
  · exact kin_children kin
  · exact kin_sibling kin

theorem parent_eq (sporked : Sporked k slot k') (running : k.running_process = some p) :
    k'.parent = Function.update k.parent slot (some p) := by
  obtain ⟨created, linked, running', parent, _, _, links, parent', _⟩ := sporked.links running
  rw [parent', (linkChild_eq_some running' links).1, parent]

theorem pid_of_ne (sporked : Sporked k slot k') {j : Slot} (other : j ≠ slot) :
    (k'.process_table j).pid = (k.process_table j).pid :=
  pid_congr (sporked.other other)

theorem status_of_ne (sporked : Sporked k slot k') {j : Slot} (other : j ≠ slot) : k'.status j = k.status j :=
  status_congr (sporked.other other)

theorem occupied_self (sporked : Sporked k slot k') : k'.occupied slot = true := by
  unfold occupied
  rw [sporked.created.1]
  simp only [ne_eq, decide_eq_true_eq]
  omega

theorem occupied_of_ne (sporked : Sporked k slot k') {j : Slot} (other : j ≠ slot) :
    k'.occupied j = k.occupied j :=
  occupied_congr (sporked.other other)

/-- The children are those that there were and the new one. -/
theorem childOf_iff (sporked : Sporked k slot k') (running : k.running_process = some p) (i q : Slot) :
    k'.childOf i q ↔ i = slot ∧ q = p ∨ k.childOf i q := by
  have parent := congrFun (sporked.parent_eq running) i
  have free := sporked.free
  unfold childOf
  by_cases here : i = slot
  · subst here
    rw [Function.update_self] at parent
    have atSlot : (k'.process_table i).parent = some p := parent
    rw [sporked.occupied_self, atSlot, free]
    simp [eq_comm]
  · rw [Function.update_of_ne here] at parent
    have same : (k'.process_table i).parent = (k.process_table i).parent := parent
    rw [sporked.occupied_of_ne here, same]
    simp [here]

theorem family (sporked : Sporked k slot k') (family : Family k) (running : k.running_process = some p)
    (occupied : k.occupied p = true) (runnable : k.status p ≠ .terminated) : Family k' := by
  have fresh := Kernel.drawPid_first k.next_pid
  have apart := sporked.apart occupied
  have unlisted : ∀ {q : Slot} {l : List Slot}, (∀ i, i ∈ l ↔ k.childOf i q) → slot ∉ l := by
    intro q l members member
    exact sporked.apart ((members slot).mp member).1 rfl
  obtain ⟨created, linked, running', _, children, sibling, links, _, children', sibling'⟩ := sporked.links running
  obtain ⟨l, leads, members⟩ := family.children p
  rw [← children, ← sibling] at leads
  obtain ⟨⟨l', leads', members'⟩, others⟩ := linkChild_lists running' leads (unlisted members) links
  refine ⟨fun q => ?_, fun q dead => ?_, fun q isFree => ?_, fun q => ?_, fun i j taken same => ?_⟩
  · rw [children', sibling']
    by_cases own : q = p
    · subst own
      refine ⟨l', leads', fun i => ?_⟩
      rw [members', sporked.childOf_iff running, members]
      tauto
    · obtain ⟨lq, leadsQ, membersQ⟩ := family.children q
      have disjoint : ∀ i ∈ l, i ∉ lq := by
        intro i inP inQ
        have atP := ((members i).mp inP).2
        have atQ := ((membersQ i).mp inQ).2
        exact own (Option.some.inj (atQ.symm.trans atP))
      refine ⟨lq, others q lq own (by rwa [children, sibling]) (unlisted membersQ) disjoint, fun i => ?_⟩
      rw [sporked.childOf_iff running, membersQ]
      tauto
  · have alive : q ≠ slot := by
      rintro rfl
      exact absurd (dead.symm.trans sporked.created.2.1) (by decide)
    rw [sporked.status_of_ne alive] at dead
    have noChild : k.children q = none := family.childless q dead
    have own : q ≠ p := by
      rintro rfl
      exact runnable dead
    rw [children']
    exact others q [] own (children ▸ noChild) List.not_mem_nil fun i _ => List.not_mem_nil
  · by_cases here : q = slot
    · subst here
      rw [sporked.occupied_self] at isFree
      cases isFree
    · rw [sporked.occupied_of_ne here] at isFree
      rw [sporked.status_of_ne here]
      exact family.free q isFree
  · rw [sporked.next_pid_eq]
    by_cases here : q = slot
    · subst here
      rw [sporked.created.1]
      omega
    · rw [sporked.pid_of_ne here]
      have bound := family.below q
      omega
  · by_cases atI : i = slot
    · by_cases atJ : j = slot
      · rw [atI, atJ]
      · rw [atI, sporked.created.1, sporked.pid_of_ne atJ] at same
        have bound := family.below j
        omega
    · by_cases atJ : j = slot
      · rw [atJ, sporked.created.1, sporked.pid_of_ne atI] at same
        have bound := family.below i
        omega
      · rw [sporked.occupied_of_ne atI] at taken
        rw [sporked.pid_of_ne atI, sporked.pid_of_ne atJ] at same
        exact family.distinct i j taken same

end Sporked

section collect
variable {child : Slot} {before : Option Slot}

theorem collect_pid_of_ne {j : Slot} (other : j ≠ child) :
    ((k.collect p before child).process_table j).pid = (k.process_table j).pid := by
  refine pid_congr ?_
  rw [collect_unlinked, if_neg other]

theorem collect_pid_self : ((k.collect p before child).process_table child).pid = -1 := by
  have freed : (k.collect p before child).unlinked child = { k.unlinked child with stack := false, pid := -1 } := by
    rw [collect_unlinked, if_pos rfl]
  exact congrArg Process.pid freed

theorem collect_vacates : (k.collect p before child).occupied child = false :=
  decide_eq_false fun other => other collect_pid_self

/-- The entries that are still taken. -/
theorem collect_taken {j : Slot} (taken : (k.collect p before child).occupied j = true) :
    j ≠ child ∧ k.occupied j = true := by
  have other : j ≠ child := by
    rintro rfl
    exact absurd (taken.symm.trans collect_vacates) (by decide)
  exact ⟨other, by rwa [collect_occupied_of_ne other] at taken⟩

theorem collect_next_pid : (k.collect p before child).next_pid = k.next_pid := by
  unfold collect
  cases before <;> rfl

/-- The children are those that there were without the one that has been collected. -/
theorem collect_childOf (i q : Slot) : (k.collect p before child).childOf i q ↔ i ≠ child ∧ k.childOf i q := by
  have parent : ((k.collect p before child).process_table i).parent = (k.process_table i).parent :=
    congrFun collect_parent i
  unfold childOf
  rw [parent]
  by_cases here : i = child
  · subst here
    rw [collect_vacates]
    simp
  · rw [collect_occupied_of_ne here]
    simp [here]

/-- What `join` finds is a terminated child of the process that joins. -/
theorem Family.found (family : Family k)
    (found : seek k.sibling (fun i => k.status i = .terminated) maxProc none (k.children p) = .at before child) :
    k.childOf child p ∧ k.status child = .terminated := by
  obtain ⟨l, leads, members⟩ := family.children p
  exact ⟨(members child).mp (collect_lists leads found).1, of_decide_eq_true (seek_found found).1⟩

/-- When it finds none, no child has terminated. -/
theorem Family.absent (family : Family k)
    (absent : seek k.sibling (fun i => k.status i = .terminated) maxProc none (k.children p) = .absent) :
    ∀ i, k.childOf i p → k.status i ≠ .terminated := by
  obtain ⟨l, leads, members⟩ := family.children p
  rcases seek_leads (fun i => k.status i = .terminated) none leads leads.length_le_fin with
    ⟨_, alive⟩ | ⟨_, _, _, _, _, _, found⟩
  · intro i child
    exact of_decide_eq_false (alive i ((members i).mpr child))
  · rw [absent] at found
    cases found

theorem Family.collected (family : Family k)
    (found : seek k.sibling (fun i => k.status i = .terminated) maxProc none (k.children p) = .at before child) :
    Family (k.collect p before child) := by
  obtain ⟨isChild, dead⟩ := family.found found
  obtain ⟨l, leads, members⟩ := family.children p
  obtain ⟨_, ⟨l', leads', members'⟩, others⟩ := collect_lists leads found
  refine ⟨fun q => ?_, fun q ended => ?_, fun q isFree => ?_, fun q => ?_, fun i j taken same => ?_⟩
  · by_cases own : q = p
    · subst own
      refine ⟨l', leads', fun i => ?_⟩
      rw [members', members, collect_childOf]
      tauto
    · obtain ⟨lq, leadsQ, membersQ⟩ := family.children q
      have disjoint : ∀ i ∈ l, i ∉ lq := by
        intro i inP inQ
        have atP := ((members i).mp inP).2
        have atQ := ((membersQ i).mp inQ).2
        exact own (Option.some.inj (atQ.symm.trans atP))
      refine ⟨lq, others q lq own leadsQ disjoint, fun i => ?_⟩
      rw [membersQ, collect_childOf]
      constructor
      · intro childQ
        refine ⟨?_, childQ⟩
        rintro rfl
        exact own (Option.some.inj (childQ.2.symm.trans isChild.2))
      · exact fun both => both.2
  · rw [collect_status] at ended
    have noChild := family.childless q ended
    have own : q ≠ p := by
      rintro rfl
      exact family.childless_iff.mp noChild child isChild
    exact others q [] own noChild fun i _ => List.not_mem_nil
  · rw [collect_status]
    by_cases here : q = child
    · rw [here]
      exact dead
    · rw [collect_occupied_of_ne here] at isFree
      exact family.free q isFree
  · rw [collect_next_pid]
    by_cases here : q = child
    · rw [here, collect_pid_self]
      omega
    · rw [collect_pid_of_ne here]
      exact family.below q
  · obtain ⟨otherI, takenI⟩ := collect_taken taken
    rw [collect_pid_of_ne otherI] at same
    by_cases otherJ : j = child
    · rw [otherJ, collect_pid_self] at same
      simp [Kernel.occupied, same] at takenI
    · rw [collect_pid_of_ne otherJ] at same
      exact family.distinct i j takenI same

end collect

/-- The family is as it was, and so are those that have terminated. -/
structure Undisturbed (k k' : Kernel) : Prop where
  kin : ∀ j, (k'.process_table j).kin = (k.process_table j).kin
  next_pid : k'.next_pid = k.next_pid
  ended : ∀ j, k'.status j = .terminated ↔ k.status j = .terminated
  exit : ∀ j, (k'.process_table j).exit_status = (k.process_table j).exit_status

/-- `p` has terminated, and nobody else; whoever waited for that is awake. -/
structure Died (k : Kernel) (p : Slot) (exit : Int) (k' : Kernel) : Prop where
  kin : ∀ j, (k'.process_table j).kin = (k.process_table j).kin
  next_pid : k'.next_pid = k.next_pid
  ended : ∀ j, k'.status j = .terminated ↔ j = p ∨ k.status j = .terminated
  own : (k'.process_table p).exit_status = exit
  exit : ∀ j, j ≠ p → (k'.process_table j).exit_status = (k.process_table j).exit_status
  wakes : ∀ j, (k.process_table p).parent = some j ∨ (k.process_table j).zap_target = some p → k'.status j ≠ .blocked

theorem joins_fn (joins : pt.joins = true) : pt.fn = .join := by
  cases pt with
  | call c => cases c <;> first | rfl | cases joins
  | resume inside => cases inside <;> first | rfl | cases joins

theorem quits_call {exit : Int} (quits : pt.quits exit = true) : ∃ c, pt = .call c ∧ c.fn = .quit exit := by
  cases pt with
  | call c =>
    refine ⟨c, rfl, ?_⟩
    cases c with
    | quit | finish =>
      have same := (Bool.and_eq_true _ _).mp quits
      rw [← of_decide_eq_true same.2]
      rfl
    | _ => cases quits
  | resume => cases quits

theorem Undisturbed.refl : Undisturbed k k := ⟨fun _ => rfl, rfl, fun _ => .rfl, fun _ => rfl⟩

theorem Undisturbed.modify {i : Slot} {f : Process → Process} (alive : k.status i ≠ .terminated)
    (kin : ∀ e, (f e).kin = e.kin) (stays : ∀ e, (f e).status ≠ .terminated)
    (exit : ∀ e, (f e).exit_status = e.exit_status) : Undisturbed k (k.modify i f) := by
  refine ⟨modify_field Process.kin kin, rfl, fun j => ?_, modify_field Process.exit_status exit⟩
  by_cases here : j = i
  · subst here
    rw [status_modify_self]
    exact ⟨fun dead => absurd dead (stays _), fun dead => absurd dead alive⟩
  · rw [status_modify_of_ne here]

theorem exit_congr {j : Slot} (same : k'.unlinked j = k.unlinked j) :
    (k'.process_table j).exit_status = (k.process_table j).exit_status :=
  unlinked_field Process.exit_status (fun _ => rfl) same

theorem Undisturbed.appended {i : Slot} {k₁ : Kernel} (quiet : Undisturbed k k₁)
    (appended : k₁.appendToQueue i = some k') : Undisturbed k k' where
  kin j := (appendToQueue_kin appended j).trans (quiet.kin j)
  next_pid := (appendToQueue_next_pid appended).trans quiet.next_pid
  ended j := by
    rw [status_congr (appendToQueue_unlinked appended j)]
    exact quiet.ended j
  exit j := (exit_congr (appendToQueue_unlinked appended j)).trans (quiet.exit j)

theorem exit_of_unlinked {e : Process} {j : Slot} (atJ : k.unlinked j = e) :
    (k.process_table j).exit_status = e.exit_status := by
  subst atJ
  rfl

theorem terminate_died {exit : Int} (alive : k.status p ≠ .terminated)
    (removed : (k.terminate p exit).remove_from_ready_queue p = some k') : Died k p exit k' where
  kin j := (remove_kin removed j).trans (terminate_kin exit j)
  next_pid := (remove_next_pid removed).trans (terminate_next_pid exit)
  ended j := by
    rw [status_congr (remove_unlinked removed j)]
    by_cases here : j = p
    · subst here
      rw [status_of_unlinked terminate_self]
      simp
    · rcases terminate_other here with same | ⟨blocked, ⟨_, woken⟩ | ⟨_, woken⟩⟩
      · rw [status_congr same]
        simp [here]
      · rw [status_of_unlinked woken, blocked]
        simp [here]
      · rw [status_of_unlinked woken, blocked]
        simp [here]
  own := by
    rw [exit_congr (remove_unlinked removed p), exit_of_unlinked terminate_self]
  exit j other := by
    rw [exit_congr (remove_unlinked removed j)]
    rcases terminate_other other with same | ⟨_, ⟨_, woken⟩ | ⟨_, woken⟩⟩
    · exact exit_congr same
    · rw [exit_of_unlinked woken]
      rfl
    · rw [exit_of_unlinked woken]
      rfl
  wakes j waits := by
    rw [status_congr (remove_unlinked removed j)]
    exact terminate_wakes waits

/-- What a stretch of code of a live process means for the family. -/
inductive Effect (k : Kernel) (p : Slot) : Point → Segment → Prop
  | quiet {pt k' ending} : Undisturbed k k' → (∀ inside, ending = .dispatches inside →
      inside.fn = pt.fn ∧ pt.fn ≠ .spork ∧ ∀ status, pt.fn ≠ .quit status) → Effect k p pt (k', ending)
  | sporks {c slot k' ending} : c.fn = .spork → Sporked k slot k' →
      ending = .returns (k'.process_table slot).pid none ∨ ending = .dispatches (.spork slot) →
      Effect k p (.call c) (k', ending)
  | collects {pt before child} : pt.joins = true →
      seek k.sibling (fun i => k.status i = .terminated) maxProc none (k.children p) = .at before child →
      Effect k p pt (k.collect p before child,
        .returns (k.process_table child).pid (some (k.process_table child).exit_status))
  | quits {pt exit k'} : pt.quits exit = true → k.children p = none → Died k p exit k' →
      Effect k p pt (k', .dispatches (.quit exit))

theorem Path.effect (path : Path k p pt seg) (alive : k.status p ≠ .terminated) : Effect k p pt seg := by
  cases path with
  | halts | sporkHangs | linkHangs | joinHangs | quitHangs | unblockHangs | stays | zapsDead =>
    exact .quiet .refl (by rintro _ ⟨⟩)
  | yields => exact .quiet .refl (by rintro _ ⟨⟩; simp [Inside.fn, Point.fn, Call.fn])
  | waits joins =>
    refine .quiet (.modify alive (fun _ => by rfl) (by simp) fun _ => by rfl) ?_
    rintro _ ⟨⟩
    have isJoin : pt.fn = .join := joins_fn joins
    simp [Inside.fn, isJoin]
  | blocks | zaps =>
    refine .quiet (.modify alive (fun _ => by rfl) (by simp) fun _ => by rfl) ?_
    rintro _ ⟨⟩
    simp [Inside.fn, Point.fn, Call.fn]
  | sporks fn sporked ending => exact .sporks fn sporked ending
  | collects joins found => exact .collects joins found
  | quits quits noChild removed => exact .quits quits noChild (terminate_died alive removed)
  | unblocks _ blocked appended =>
    refine .quiet (Undisturbed.appended ?_ appended) (by rintro _ ⟨⟩; simp [Inside.fn, Point.fn, Call.fn])
    exact .modify (by rw [blocked]; decide) (fun _ => by rfl) (by simp) fun _ => by rfl

theorem Family.quiet (family : Family k) (quiet : Undisturbed k k') : Family k' :=
  family.restatus quiet.kin quiet.next_pid (fun j ended => .inl ((quiet.ended j).mp ended))
    fun j => (quiet.ended j).mpr

theorem Family.died {exit : Int} (family : Family k) (died : Died k p exit k') (noChild : k.children p = none) :
    Family k' := by
  refine family.restatus died.kin died.next_pid (fun j ended => ?_) fun j dead => (died.ended j).mpr (.inr dead)
  rcases (died.ended j).mp ended with rfl | dead
  · exact .inr noChild
  · exact .inl dead

/-- The family is kept by every stretch of code of a live process. -/
theorem Effect.family (effect : Effect k p pt seg) (family : Family k) (running : k.running_process = some p)
    (occupied : k.occupied p = true) (alive : k.status p ≠ .terminated) : Family seg.1 := by
  cases effect with
  | quiet quiet => exact family.quiet quiet
  | sporks _ sporked => exact sporked.family family running occupied alive
  | collects _ found => exact family.collected found
  | quits _ noChild died => exact family.died died noChild

end UslossKernel.Phase1b

