import UslossKernel.Deadlocks

namespace UslossKernel.Phase1b

open Kernel

/-- What the column `STATE` tells. No function stores the status 2 of the text `Zapped`. -/
inductive State
  | running
  | terminated (exit_status : Int)
  | blocked
  | runnable
deriving DecidableEq, Repr

def State.text : State → String
  | .running => "Running"
  | .terminated exit_status => "Terminated(" ++ toString exit_status ++ ")"
  | .blocked => "Blocked(waiting)"
  | .runnable => "Runnable"

structure Row where
  pid : Int
  ppid : Int
  name : String
  priority : Nat
  state : State
deriving DecidableEq, Repr

/-- A field of at least `width` characters, with the text on the right. -/
def padLeft (width : Nat) (text : String) : String :=
  "".pushn ' ' (width - text.length) ++ text

/-- The same with the text on the left. -/
def padRight (width : Nat) (text : String) : String :=
  text.pushn ' ' (width - text.length)

/-- `"%3d %5d  %-17s %-9d %-15s\n"` -/
def Row.text (r : Row) : String :=
  padLeft 3 (toString r.pid) ++ " " ++ padLeft 5 (toString r.ppid) ++ "  " ++ padRight 17 r.name ++ " " ++
    padRight 9 (toString r.priority) ++ " " ++ padRight 15 r.state.text ++ "\n"

namespace Kernel

def shownState (k : Kernel) (i : Slot) : State :=
  if k.running_process.any fun p => (k.process_table i).pid = (k.process_table p).pid then .running
  else match k.status i with
  | .terminated => .terminated (k.process_table i).exit_status
  | .blocked => .blocked
  | .runnable => .runnable

/-- `name` is the field of that name. -/
def row (k : Kernel) (name : Slot → String) (i : Slot) : Row where
  pid := (k.process_table i).pid
  ppid := ((k.process_table i).parent.map fun q => (k.process_table q).pid).getD 0
  name := name i
  priority := (k.process_table i).priority
  state := k.shownState i

def rows (k : Kernel) (name : Slot → String) : List Row :=
  ((List.finRange maxProc).filter fun i => k.occupied i).map (k.row name)

/-- The lines that are printed. -/
def dumpProcesses (k : Kernel) (name : Slot → String) : List String :=
  "PID  PPID  NAME              PRIORITY  STATE\n" :: (k.rows name).map Row.text

theorem mem_rows {k : Kernel} {name : Slot → String} {r : Row} :
    r ∈ k.rows name ↔ ∃ i, k.occupied i = true ∧ k.row name i = r := by
  simp [rows]

end Kernel

/-- Rows with the process tree in them, as it is for the process `caller`. -/
structure ShowsTree (log : List Event) (caller : Int) (rows : List Row) : Prop where
  once : (rows.map Row.pid).Nodup
  present : ∃ r ∈ rows, r.pid = caller
  running : ∀ r ∈ rows, r.state = .running ↔ r.pid = caller
  root : ∀ r ∈ rows, r.ppid = 0 ↔ r.pid = 1
  parent : ∀ r ∈ rows, r.pid ≠ 1 →
    ∃ q ∈ rows, q.pid = r.ppid ∧ q.pid < r.pid ∧ ∀ exit, q.state ≠ .terminated exit
  children : ∀ r ∈ rows, ∀ child, SporkedBy log r.pid child →
    Collected log child ∨ ∃ q ∈ rows, q.pid = child ∧ q.ppid = r.pid
  exits : ∀ r ∈ rows, ∀ exit, r.state = .terminated exit → HasQuit log r.pid exit

namespace Machine

variable {m : Machine} {p i q : Slot} {name : Slot → String}

theorem shownState_running (ordered : Ordered m) (taken : m.kernel.occupied i = true) :
    (m.give p).kernel.shownState i = .running ↔ i = p := by
  have distinct := ordered.ledger.family.distinct i p taken
  unfold shownState
  constructor
  · intro shown
    split at shown
    · rename_i same
      exact distinct (of_decide_eq_true same)
    · split at shown <;> cases shown
  · rintro rfl
    exact if_pos (by simp)

theorem shownState_terminated {exit : Int} (shown : (m.give p).kernel.shownState i = .terminated exit) :
    m.kernel.status i = .terminated ∧ (m.kernel.process_table i).exit_status = exit := by
  unfold shownState at shown
  split at shown
  · cases shown
  split at shown
  · rename_i dead
    exact ⟨dead, State.terminated.inj shown⟩
  · cases shown
  · cases shown

/-- The row of a child has the pid of the parent in it. -/
theorem row_ppid (parent : m.kernel.parent i = some q) : ((m.give p).kernel.row name i).ppid = m.pid q := by
  have atI : ((m.give p).kernel.process_table i).parent = some q := parent
  simp only [row, atI]
  rfl

/-- What `dumpProcesses` prints is the process tree: every process once, with an
older parent that is listed too and has not terminated. -/
theorem dump_shows_tree (ordered : Ordered m) (live : m.live p = true) (name : Slot → String) :
    ShowsTree m.log (m.pid p) ((m.give p).kernel.rows name) := by
  have ledger := ordered.ledger
  have rooted := ordered.rooted
  have distinct := ledger.family.distinct
  have taken : m.kernel.occupied p = true := by
    rw [Machine.live, Bool.and_eq_true] at live
    exact live.1
  have listed : ∀ {j}, m.kernel.occupied j = true → (m.give p).kernel.row name j ∈ (m.give p).kernel.rows name :=
    fun occupied => mem_rows.mpr ⟨_, occupied, rfl⟩
  have root : ∀ {j}, m.kernel.occupied j = true → (m.pid j = 1 ↔ j = initSlot) := by
    intro j occupied
    refine ⟨fun one => distinct j initSlot occupied (one.trans rooted.initPid.symm), ?_⟩
    rintro rfl
    exact rooted.initPid
  refine ⟨?_, ⟨_, listed taken, rfl⟩, fun r member => ?_, fun r member => ?_, fun r member other => ?_,
    fun r member child told => ?_, fun r member exit shown => ?_⟩
  · unfold rows
    rw [List.map_map]
    refine List.Nodup.map_on (fun i inI j _ same => ?_) ((List.nodup_finRange maxProc).filter _)
    exact distinct i j (List.mem_filter.mp inI).2 same
  all_goals obtain ⟨i, occupied, rfl⟩ := mem_rows.mp member
  · refine (shownState_running ordered occupied).trans ⟨?_, fun same => distinct i p occupied same⟩
    rintro rfl
    rfl
  · rw [show ((m.give p).kernel.row name i).pid = m.pid i from rfl, root occupied]
    by_cases here : i = initSlot
    · subst here
      have orphan : (m.kernel.process_table initSlot).parent = none := rooted.orphan
      simp [row, orphan]
    · obtain ⟨q, parent, _⟩ := rooted.older i occupied here
      have positive := ledger.positive q (ledger.family.parent_alive ⟨occupied, parent⟩).1
      rw [row_ppid parent]
      exact ⟨fun zero => by omega, fun same => absurd same here⟩
  · have here : i ≠ initSlot := fun same => other ((root occupied).mpr same)
    obtain ⟨q, parent, older⟩ := rooted.older i occupied here
    obtain ⟨there, alive⟩ := ledger.family.parent_alive ⟨occupied, parent⟩
    refine ⟨_, listed there, (row_ppid parent).symm, older, fun exit shown => ?_⟩
    exact alive (shownState_terminated shown).1
  · refine (ledger.kept i child occupied told).imp_right ?_
    rintro ⟨j, isChild, named⟩
    exact ⟨_, listed isChild.1, named, row_ppid isChild.2⟩
  · obtain ⟨dead, rfl⟩ := shownState_terminated shown
    exact ledger.quitted i occupied dead

/-- `testcase_main` has two children, of which the second one has quit. -/
def oneQuitChild : List Turn :=
  [.resume initSlot, .call initSlot (sporks 3), .resume testcaseSlot, .call testcaseSlot (sporks 4),
    .call testcaseSlot (sporks 2), .resume secondChildSlot, .call secondChildSlot (.quit true 7), .resume testcaseSlot]

theorem dump_shows_tree_children : ∃ m : Machine, m.live testcaseSlot = true ∧
    ((m.give testcaseSlot).kernel.rows fun _ => "").map (fun r => (r.pid, r.ppid, r.state)) =
      [(1, 0, .runnable), (2, 1, .running), (3, 2, .runnable), (4, 2, .terminated 7)] ∧
    ShowsTree m.log (m.pid testcaseSlot) ((m.give testcaseSlot).kernel.rows fun _ => "") := by
  obtain ⟨m, ordered, facts⟩ := exists_ordered oneQuitChild (fun m => decide (m.live testcaseSlot = true ∧
    ((m.give testcaseSlot).kernel.rows fun _ => "").map (fun r => (r.pid, r.ppid, r.state)) =
      [(1, 0, .runnable), (2, 1, .running), (3, 2, .runnable), (4, 2, .terminated 7)])) (by decide +kernel)
  obtain ⟨live, shown⟩ := of_decide_eq_true facts
  exact ⟨m, live, shown, dump_shows_tree ordered live _⟩

end Machine

end UslossKernel.Phase1b
