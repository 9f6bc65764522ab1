import Mathlib.Data.Fintype.EquivFin
import UslossKernel.ExitStatus

namespace UslossKernel.Phase1b

open LinkedList Kernel

/-- Every process but `init` has a parent that has been created before it. -/
structure Rooted (k : Kernel) : Prop where
  initPid : (k.process_table initSlot).pid = 1
  orphan : k.parent initSlot = none
  older : ∀ i, k.occupied i = true → i ≠ initSlot →
    ∃ q, k.parent i = some q ∧ (k.process_table q).pid < (k.process_table i).pid

variable {k k' : Kernel} {p slot child : Slot} {pt : Point} {seg : Segment} {before : Option Slot}

namespace Rooted

theorem init_occupied (rooted : Rooted k) : k.occupied initSlot = true := by
  unfold occupied
  rw [rooted.initPid]
  decide

/-- A child is not `init`. -/
theorem child_ne_init (rooted : Rooted k) {i q : Slot} (isChild : k.childOf i q) : i ≠ initSlot := by
  rintro rfl
  have parent : k.parent initSlot = some q := isChild.2
  cases rooted.orphan.symm.trans parent

theorem kin (rooted : Rooted k) (kin : ∀ j, (k'.process_table j).kin = (k.process_table j).kin) : Rooted k' := by
  refine ⟨?_, ?_, fun i taken other => ?_⟩
  · rw [kin_pid kin]
    exact rooted.initPid
  · rw [kin_parent kin]
    exact rooted.orphan
  · rw [kin_occupied kin] at taken
    obtain ⟨q, parent, older⟩ := rooted.older i taken other
    refine ⟨q, ?_, ?_⟩
    · rw [kin_parent kin]
      exact parent
    · rw [kin_pid kin, kin_pid kin]
      exact older

/-- The new process is younger than its parent, which has the CPU. -/
theorem sporked (rooted : Rooted k) (family : Family k) (running : k.running_process = some p)
    (taken : k.occupied p = true) (sporked : Sporked k slot k') : Rooted k' := by
  have parents := sporked.parent_eq running
  have first := (drawPid_first k.next_pid).1
  have init := sporked.apart rooted.init_occupied
  refine ⟨?_, ?_, fun i occupied other => ?_⟩
  · rw [sporked.pid_of_ne init]
    exact rooted.initPid
  · rw [parents, Function.update_of_ne init]
    exact rooted.orphan
  by_cases here : i = slot
  · subst here
    refine ⟨p, ?_, ?_⟩
    · rw [parents, Function.update_self]
    · have bound := family.below p
      rw [sporked.pid_of_ne (sporked.apart taken), sporked.created.1]
      omega
  · rw [sporked.occupied_of_ne here] at occupied
    obtain ⟨q, parent, older⟩ := rooted.older i occupied other
    have alive := (family.parent_alive ⟨occupied, parent⟩).1
    refine ⟨q, ?_, ?_⟩
    · rw [parents, Function.update_of_ne here]
      exact parent
    · rw [sporked.pid_of_ne (sporked.apart alive), sporked.pid_of_ne here]
      exact older

/-- The child that is collected is nobody's parent. -/
theorem collected (rooted : Rooted k) (family : Family k)
    (found : seek k.sibling (fun i => k.status i = .terminated) maxProc none (k.children p) = .at before child) :
    Rooted (k.collect p before child) := by
  obtain ⟨isChild, dead⟩ := family.found found
  refine ⟨?_, ?_, fun i taken other => ?_⟩
  · rw [collect_pid_of_ne (rooted.child_ne_init isChild).symm]
    exact rooted.initPid
  · rw [collect_parent]
    exact rooted.orphan
  obtain ⟨here, occupied⟩ := collect_taken taken
  obtain ⟨q, parent, older⟩ := rooted.older i occupied other
  have notParent : q ≠ child := by
    rintro rfl
    exact (family.parent_alive ⟨occupied, parent⟩).2 dead
  refine ⟨q, ?_, ?_⟩
  · rw [collect_parent]
    exact parent
  · rw [collect_pid_of_ne notParent, collect_pid_of_ne here]
    exact older

theorem effect (rooted : Rooted k) (effect : Effect k p pt seg) (family : Family k)
    (running : k.running_process = some p) (taken : k.occupied p = true) : Rooted seg.1 := by
  cases effect with
  | quiet quiet => exact rooted.kin quiet.kin
  | sporks _ sporked => exact rooted.sporked family running taken sporked
  | collects _ found => exact rooted.collected family found
  | quits _ _ died => exact rooted.kin died.kin

end Rooted

/-- The child lists and the parent pointers tell of one tree, with `init` as its root. -/
structure Tree (k : Kernel) : Prop where
  lists : ∀ p, ∃ l, Leads k.sibling (k.children p) l none ∧ l.Nodup ∧
    ∀ i, i ∈ l ↔ k.occupied i = true ∧ k.parent i = some p
  init : k.occupied initSlot = true ∧ (k.process_table initSlot).pid = 1 ∧ k.parent initSlot = none
  parents : ∀ i, k.occupied i = true → i ≠ initSlot → ∃ q, k.parent i = some q ∧ k.occupied q = true ∧
    k.status q ≠ .terminated ∧ (k.process_table q).pid < (k.process_table i).pid
  unlisted : ∀ i, k.occupied i = false → ∀ p l, Leads k.sibling (k.children p) l none → i ∉ l

theorem Family.tree (family : Family k) (rooted : Rooted k) : Tree k where
  lists p := by
    obtain ⟨l, leads, members⟩ := family.children p
    exact ⟨l, leads, leads.nodup, members⟩
  init := ⟨rooted.init_occupied, rooted.initPid, rooted.orphan⟩
  parents i taken other := by
    obtain ⟨q, parent, older⟩ := rooted.older i taken other
    obtain ⟨occupied, alive⟩ := family.parent_alive ⟨taken, parent⟩
    exact ⟨q, parent, occupied, alive, older⟩
  unlisted i free p l leads member := by
    obtain ⟨l', leads', members⟩ := family.children p
    rw [leads.unique leads'] at member
    exact absurd (((members i).mp member).1.symm.trans free) (by decide)

/-- From every process the parents lead to `init`. -/
theorem Tree.descends (tree : Tree k) {i : Slot} (taken : k.occupied i = true) :
    Relation.ReflTransGen (fun i q => k.parent i = some q) i initSlot := by
  have transitive : IsTrans Slot fun q i => (k.process_table q).pid < (k.process_table i).pid :=
    ⟨fun _ _ _ => lt_trans⟩
  have irreflexive : Std.Irrefl fun q i : Slot => (k.process_table q).pid < (k.process_table i).pid :=
    ⟨fun _ => lt_irrefl _⟩
  -- the pids decrease along the parents, and the table is finite
  have founded := Finite.wellFounded_of_trans_of_irrefl
    fun q i : Slot => (k.process_table q).pid < (k.process_table i).pid
  induction i using founded.induction with
  | _ i ih =>
    by_cases root : i = initSlot
    · rw [root]
    · obtain ⟨q, parent, occupied, _, older⟩ := tree.parents i taken root
      exact .head parent (ih q older occupied)

namespace Machine

variable {m : Machine}

/-- A fact of the tables that every stretch of code of a live process keeps. -/
theorem Ordered.tables (ordered : Ordered m) (Inv : Kernel → Prop) (initial : Inv boot.kernel)
    (given : ∀ k p, Inv k → Inv { k with running_process := some p })
    (preserved : ∀ k p pt seg, Family k → k.running_process = some p → k.occupied p = true →
      k.status p ≠ .terminated → Effect k p pt seg → Inv k → Inv seg.1) : Inv m.kernel := by
  refine Transition.Run.invariant_above ordered (fun _ earlier => Ordered.ledger earlier)
    (fun m => Inv m.kernel) initial fun m t m' ledger inv _ moves => ?_
  have stretch : ∀ p pt seg, m.Ready p pt → pt.exec (m.give p).kernel p = seg → Inv seg.1 := by
    intro p pt seg ready goes
    have alive : (m.give p).kernel.status p ≠ .terminated := by
      rw [give_status, ready.runnable]
      decide
    exact preserved _ p pt seg (ledger.give p).family give_running ready.occupied alive
      ((ready.path goes).effect alive) (given _ p inv)
  cases turn_taken moves with
  | begins => exact given _ _ inv
  | returns ready goes => exact stretch _ _ _ ready goes
  | yields ready goes => exact stretch _ _ _ ready goes
  | halts => exact inv
  | @stops p pt =>
    show Inv ((m.give p).enter p pt).kernel
    rw [enter_kernel]
    exact given _ p inv

theorem boot_rooted : Rooted boot.kernel := by
  have alone : ∀ i, boot.kernel.occupied i = true → i = initSlot := by decide
  exact ⟨by decide, by decide, fun i taken other => absurd (alone i taken) other⟩

/-- In every state the process tree is well formed. -/
theorem tree_well_formed (ordered : Ordered m) : Tree m.kernel := by
  have rooted : Rooted m.kernel := by
    refine ordered.tables Rooted boot_rooted ?_ ?_
    · exact fun k p rooted => ⟨rooted.initPid, rooted.orphan, rooted.older⟩
    · exact fun k p pt seg family running taken _ effect rooted => rooted.effect effect family running taken
  exact ordered.ledger.family.tree rooted

/-- `testcase_main` has two children, and the second one of higher priority. -/
def twoChildren : List Turn :=
  [.resume initSlot, .call initSlot (sporks 3), .resume testcaseSlot, .call testcaseSlot (sporks 4),
    .call testcaseSlot (sporks 2)]

theorem tree_well_formed_children : ∃ m : Machine, (m.kernel.children testcaseSlot = some secondChildSlot ∧
    m.kernel.sibling secondChildSlot = some childSlot ∧ m.kernel.sibling childSlot = none) ∧ Tree m.kernel := by
  obtain ⟨m, ordered, linked⟩ := exists_ordered twoChildren
    (fun m => decide (m.kernel.children testcaseSlot = some secondChildSlot ∧
      m.kernel.sibling secondChildSlot = some childSlot ∧ m.kernel.sibling childSlot = none)) (by decide +kernel)
  exact ⟨m, of_decide_eq_true linked, tree_well_formed ordered⟩

end Machine

end UslossKernel.Phase1b
