import UslossKernel.DumpProcesses
import UslossKernel.Phase1aInit

namespace UslossKernel.Phase1a

open Kernel

/-- What the column `STATE` tells. -/
inductive State
  | running
  | terminated (exit_status : Int)
  | runnable
deriving DecidableEq, Repr

def State.text : State → String
  | .running => "Running"
  | .terminated exit_status => "Terminated(" ++ toString exit_status ++ ")"
  | .runnable => "Runnable"

structure Row where
  pid : Int
  ppid : Int
  name : String
  priority : Int
  state : State
deriving DecidableEq, Repr

/-- `"- %-4d %-5d %-17s %-9d %-15s\n"` -/
def Row.text (r : Row) : String :=
  "- " ++ Phase1b.padRight 4 (toString r.pid) ++ " " ++ Phase1b.padRight 5 (toString r.ppid) ++ " " ++
    Phase1b.padRight 17 r.name ++ " " ++ Phase1b.padRight 9 (toString r.priority) ++ " " ++
    Phase1b.padRight 15 r.state.text ++ "\n"

namespace Kernel

def shownState (k : Kernel) (i : Slot) : State :=
  if k.running_process.any fun p => (k.process_table i).pid = (k.process_table p).pid then .running
  else match k.status i with
  | .terminated => .terminated (k.process_table i).exit_status
  | .runnable => .runnable

/-- `name` and `priority` are the fields of these names. -/
def row (k : Kernel) (name : Slot → String) (priority : Slot → Int) (i : Slot) : Row where
  pid := (k.process_table i).pid
  ppid := ((k.parent i).map fun q => (k.process_table q).pid).getD 0
  name := name i
  priority := priority i
  state := k.shownState i

def rows (k : Kernel) (name : Slot → String) (priority : Slot → Int) : List Row :=
  ((List.finRange maxProc).filter fun i => k.occupied i).map (k.row name priority)

/-- The lines that are printed. -/
def dumpProcesses (k : Kernel) (name : Slot → String) (priority : Slot → Int) : List String :=
  "-**************** Calling dumpProcesses() *******************\n" ::
    "- PID  PPID  NAME              PRIORITY  STATE\n" :: (k.rows name priority).map Row.text

theorem mem_rows {k : Kernel} {name : Slot → String} {priority : Slot → Int} {r : Row} :
    r ∈ k.rows name priority ↔ ∃ i, k.occupied i = true ∧ k.row name priority i = r := by
  simp [rows]

variable {k k' : Kernel} {p slot : Slot} {startFunc malloc : Bool}

/-- A `spork` that returns has failed, or has filled an entry with a child of its caller. -/
theorem spork_returned (runs : k.running_process = some p) {value : Int}
    (goes : k.spork startFunc malloc = (k', .returns value none)) :
    value = -1 ∧ k'.process_table = k.process_table ∨
      value = k.next_pid ∧ Sporks k k.slot k' ∧ k'.parent k.slot = some p := by
  unfold Kernel.spork at goes
  split at goes
  · cases goes
  split at goes
  · cases goes
    exact .inl ⟨rfl, rfl⟩
  rename_i free
  split at goes
  · cases goes
  split at goes
  · cases goes
  rename_i parent runs'
  obtain rfl := Option.some.inj (runs.symm.trans runs')
  simp only at goes
  split at goes
  · cases goes
  rename_i k'' linked
  obtain ⟨rfl, returned⟩ := Prod.mk.inj goes
  have relinked := linkChild_relinked linked
  refine .inr ⟨(Ending.returns.inj returned).1.symm, .intro (by simpa using free) linked, ?_⟩
  rw [relinked.parent]
  exact congrArg Process.parent newProcess_self

theorem quitted_parent {status : Int} (i : Slot) : (k.quitted p status).parent i = k.parent i := by
  unfold Kernel.parent
  by_cases here : i = p
  · rw [here, quitted_self]
  · rw [quitted_of_ne here]

theorem join_value {status : Bool} (sound : k.Sound) (runs : k.running_process = some p) {value : Int}
    (goes : k.join status = (k', .returns value none)) : value < 0 := by
  cases status with
  | false =>
    cases goes
    decide
  | true =>
    rcases sound.joins runs with ⟨answers, _⟩ | ⟨_, _, answers, _⟩ <;> rw [answers] at goes <;> cases goes
    decide

end Kernel

/-- A call of `spork` by the process with the pid `creator` has returned `child`. -/
def SporkedBy (log : List Event) (creator child : Int) : Prop :=
  .returned creator .spork child none ∈ log

/-- What stands for the creator of a process: its pid, or once it has been joined
-1 or the pid of a younger process. -/
def StandsFor (log : List Event) (creator pid ppid : Int) : Prop :=
  ppid = creator ∨ creator ∈ joined log ∧ (ppid = -1 ∨ pid < ppid)

/-- The table and the history of it belong together. -/
structure Filed (m : Machine) : Prop where
  init : m.kernel.occupied initSlot = true ∧ m.kernel.parent initSlot = none ∧ m.pid initSlot = 1
  creator : ∀ i, m.kernel.occupied i = true → i ≠ initSlot → ∃ q creator, m.kernel.parent i = some q ∧
    SporkedBy m.log creator (m.pid i) ∧ 0 < creator ∧ creator < m.pid i ∧ StandsFor m.log creator (m.pid i) (m.pid q)
  kept : ∀ creator child, SporkedBy m.log creator child → 0 < child →
    child ∈ joined m.log ∨ ∃ i, m.kernel.occupied i = true ∧ m.pid i = child

/-- The state after `spork` has returned the new process to `p`. -/
def Machine.made (m : Machine) (p : Slot) (k : Kernel) : Machine :=
  { m with
    kernel := k
    place := m.contexts k
    log := .returned (m.pid p) .spork m.kernel.next_pid none :: .called (m.pid p) .spork :: m.log }

namespace Filed

open Machine

variable {m m' : Machine} {k : Kernel} {p slot child : Slot}

theorem standsFor_mono {log log' : List Event} {creator pid ppid : Int} (stands : StandsFor log creator pid ppid)
    (more : ∀ pid ∈ joined log, pid ∈ joined log') : StandsFor log' creator pid ppid :=
  stands.imp_right fun both => ⟨more _ both.1, both.2⟩

/-- A step that changes no pid and no parent. -/
theorem quiet (filed : Filed m) (pids : m'.pid = m.pid) (parents : m'.kernel.parent = m.kernel.parent)
    (log : ∀ e ∈ m.log, e ∈ m'.log) (joins : joined m'.log = joined m.log)
    (sporks : ∀ creator child, SporkedBy m'.log creator child → SporkedBy m.log creator child ∨ child ≤ 0) :
    Filed m' := by
  have occupied : m'.kernel.occupied = m.kernel.occupied := by
    funext i
    have same : (m'.kernel.process_table i).pid = (m.kernel.process_table i).pid := congrFun pids i
    unfold Kernel.occupied
    rw [same]
  refine ⟨?_, fun i taken other => ?_, fun creator child told real => ?_⟩
  · rw [occupied, parents, pids]
    exact filed.init
  · rw [occupied] at taken
    obtain ⟨q, creator, parent, sporked, positive, older, stands⟩ := filed.creator i taken other
    rw [parents, pids]
    exact ⟨q, creator, parent, log _ sporked, positive, older, standsFor_mono stands fun _ => joins ▸ id⟩
  · rw [joins, occupied, pids]
    exact filed.kept creator child ((sporks creator child told).resolve_right (not_le.mpr real)) real

/-- `spork` has filled an entry and returned. -/
theorem sporked (filed : Filed m) (recorded : Recorded m) (drawn : m.kernel.Drawn)
    (runs : m.kernel.running_process = some p) (sporks : Sporks m.kernel slot k) (parent : k.parent slot = some p) :
    Filed (m.made p k) := by
  have taken := recorded.sound.running p runs
  have free : (m.kernel.process_table slot).pid = -1 := by simpa [Kernel.occupied] using sporks.free
  have pid : ∀ i, i ≠ slot → (m.made p k).pid i = m.pid i :=
    fun i other => EntryTable.field_of_rest Process.unlinked Process.pid (fun _ => rfl) (sporks.others i other)
  have parents : ∀ i, i ≠ slot → k.parent i = m.kernel.parent i :=
    fun i other => EntryTable.field_of_rest Process.unlinked Process.parent (fun _ => rfl) (sporks.others i other)
  have occupied : ∀ i, i ≠ slot → k.occupied i = m.kernel.occupied i := by
    intro i other
    have same : (k.process_table i).pid = (m.kernel.process_table i).pid := pid i other
    unfold Kernel.occupied
    rw [same]
  have self : (m.made p k).pid slot = m.kernel.next_pid := sporks.pid_self
  have selfTaken : k.occupied slot = true := by
    unfold Kernel.occupied
    rw [sporks.pid_self]
    simp
  have apart : ∀ i, m.kernel.occupied i = true → i ≠ slot := by
    rintro i there rfl
    exact absurd (there.symm.trans sporks.free) (by decide)
  have below : ∀ i, m.pid i < (m.made p k).pid slot := fun i => self ▸ recorded.sound.below i
  refine ⟨?_, fun i there other => ?_, fun creator child told real => ?_⟩
  · have here := apart initSlot filed.init.1
    exact ⟨(occupied initSlot here).trans filed.init.1, (parents initSlot here).trans filed.init.2.1,
      (pid initSlot here).trans filed.init.2.2⟩
  · by_cases here : i = slot
    · subst here
      have positive : 0 < m.pid p := (drawn.1 p).resolve_left (by simpa [Kernel.occupied] using taken)
      refine ⟨p, m.pid p, parent, ?_, positive, below p, .inl (pid p (apart p taken))⟩
      rw [self]
      exact List.mem_cons_self ..
    · obtain ⟨q, creator, parentQ, sporked, positive, older, stands⟩ :=
        filed.creator i ((occupied i here).symm.trans there) other
      rw [pid i here]
      refine ⟨q, creator, (parents i here).trans parentQ, ?_, positive, older, ?_⟩
      · exact List.mem_cons_of_mem _ (List.mem_cons_of_mem _ sporked)
      · by_cases atQ : q = slot
        · -- the entry of the parent has been free, and has a younger process now
          subst atQ
          have gone : creator ∈ joined m.log := by
            refine (stands.resolve_left fun equal => ?_).1
            have equal : (m.kernel.process_table q).pid = creator := equal
            omega
          exact .inr ⟨gone, .inr (below i)⟩
        · rw [pid q atQ]
          exact stands
  · rcases List.mem_cons.mp told with new | told
    · cases new
      exact .inr ⟨slot, selfTaken, self⟩
    · rcases List.mem_cons.mp told with new | told
      · cases new
      refine (filed.kept creator child told real).imp_right ?_
      rintro ⟨i, there, named⟩
      have here := apart i there
      exact ⟨i, (occupied i here).trans there, (pid i here).trans named⟩

/-- `join` has freed an entry and returned. -/
theorem collected (filed : Filed m) (collects : Collects m.kernel p child k) : Filed (m.joins p child k) := by
  have log : joined (m.joins p child k).log = m.pid child :: joined m.log := joined_joined
  have pid : ∀ i, i ≠ child → (m.joins p child k).pid i = m.pid i := fun i other => collects.pid_of_ne other
  have occupied : ∀ i, (m.joins p child k).kernel.occupied i = true ↔ i ≠ child ∧ m.kernel.occupied i = true :=
    collects.occupied_iff
  refine ⟨?_, fun i there other => ?_, fun creator old told real => ?_⟩
  · have here : initSlot ≠ child := by
      rintro rfl
      cases filed.init.2.1.symm.trans collects.parent
    exact ⟨(occupied initSlot).mpr ⟨here, filed.init.1⟩, (collects.parent_eq initSlot).trans filed.init.2.1,
      (pid initSlot here).trans filed.init.2.2⟩
  · obtain ⟨here, there⟩ := (occupied i).mp there
    obtain ⟨q, creator, parent, sporked, positive, older, stands⟩ := filed.creator i there other
    rw [pid i here]
    refine ⟨q, creator, (collects.parent_eq i).trans parent, ?_, positive, older, ?_⟩
    · exact List.mem_cons_of_mem _ (List.mem_cons_of_mem _ sporked)
    · unfold StandsFor
      rw [log]
      by_cases atQ : q = child
      · subst atQ
        refine .inr ⟨?_, .inl collects.pid_self⟩
        rcases stands with rfl | ⟨gone, _⟩
        · exact List.mem_cons_self ..
        · exact List.mem_cons_of_mem _ gone
      · rw [pid q atQ]
        exact stands.imp_right fun both => ⟨List.mem_cons_of_mem _ both.1, both.2⟩
  · rcases List.mem_cons.mp told with new | told
    · cases new
    rcases List.mem_cons.mp told with new | told
    · cases new
    rw [log]
    rcases filed.kept creator old told real with gone | ⟨i, there, rfl⟩
    · exact .inl (List.mem_cons_of_mem _ gone)
    · by_cases here : i = child
      · rw [here]
        exact .inl (List.mem_cons_self ..)
      · exact .inr ⟨i, (occupied i).mpr ⟨here, there⟩, pid i here⟩

/-- A call that returns and has changed nothing. -/
theorem answered {fn : Fn} {value : Int} (filed : Filed m) (table : k.process_table = m.kernel.process_table)
    (failed : fn = .spork → value ≤ 0) : Filed { m with
      kernel := k, place := m.contexts k
      log := .returned (m.pid p) fn value none :: .called (m.pid p) fn :: m.log } := by
  have pids : (fun i => (k.process_table i).pid) = m.pid := by rw [table]; rfl
  have parents : (fun i => (k.process_table i).parent) = m.kernel.parent := by rw [table]; rfl
  refine filed.quiet pids parents (fun e old => ?_) joined_answered fun creator child told => ?_
  · exact List.mem_cons_of_mem _ (List.mem_cons_of_mem _ old)
  · rcases List.mem_cons.mp told with new | told
    · cases new
      exact .inr (failed rfl)
    · rcases List.mem_cons.mp told with new | old
      · cases new
      · exact .inl old

/-- A call that switches. -/
theorem switched {fn : Fn} (filed : Filed m) (pids : ∀ i, (k.process_table i).pid = m.pid i)
    (parents : ∀ i, k.parent i = m.kernel.parent i) : Filed { m with
      kernel := k, place := Function.update m.place p (.inside fn), log := .called (m.pid p) fn :: m.log } := by
  refine filed.quiet (funext pids) (funext parents) (fun e old => List.mem_cons_of_mem _ old) rfl
    fun creator child told => .inl ?_
  rcases List.mem_cons.mp told with new | old
  · cases new
  · exact old

theorem move (filed : Filed m) (recorded : Recorded m) (drawn : m.kernel.Drawn) (move : Move m m') : Filed m' := by
  cases move with
  | starts switched =>
    obtain ⟨_, _, rfl⟩ := switchTo_eq_some switched
    exact filed.quiet rfl rfl (fun _ => id) rfl fun _ _ => .inl
  | begins | stops => exact filed.quiet rfl rfl (fun _ => id) rfl fun _ _ => .inl
  | returns =>
    refine filed.quiet rfl rfl (fun _ old => List.mem_cons_of_mem _ old) joined_answered fun creator child told => ?_
    rcases List.mem_cons.mp told with new | old
    · cases new
      exact .inr le_rfl
    · exact .inl old
  | @calls p c runs place =>
    have effect := Call.exec_effect (c := c) recorded.sound runs
    generalize goes : c.exec m.kernel = seg at effect
    -- the answers of `spork`, whether it has failed or not
    have sporks : ∀ {startFunc malloc k' value}, c = .spork startFunc malloc → seg = (k', .returns value none) →
        Filed (m.run p c) := by
      rintro startFunc malloc k' value rfl rfl
      rw [run_returns goes]
      rcases spork_returned runs goes with ⟨rfl, same⟩ | ⟨rfl, sporks, parent⟩
      · exact filed.answered same fun _ => by decide
      · exact filed.sporked recorded drawn runs sporks parent
    cases effect with
    | @answers next_pid value other =>
      by_cases isSpork : c.fn = .spork
      · cases c with
        | spork => exact sporks rfl rfl
        | _ => cases isSpork
      · rw [run_returns goes]
        exact filed.answered rfl fun fn => absurd fn isSpork
    | sporks other new =>
      cases c with
      | spork => exact sporks rfl rfl
      | join =>
        have negative := join_value recorded.sound runs goes
        omega
      | quit_phase_1a | finish => exact absurd rfl other
      | TEMP_switchTo newpid =>
        simp only [Call.exec, Kernel.TEMP_switchTo] at goes
        split at goes <;> cases goes
    | @collects child k' isJoin collects =>
      rw [run_returns goes, isJoin]
      exact filed.collected collects
    | quits =>
      rw [run_switches goes]
      exact filed.switched (fun i => quitted_pid i) fun i => quitted_parent i
    | switches =>
      rw [run_switches goes]
      exact filed.switched (fun _ => rfl) fun _ => rfl
    | stops notReturns notSwitches =>
      obtain ⟨reason, stopped⟩ := run_stops (p := p) goes notReturns notSwitches
      rw [stopped]
      refine filed.quiet rfl rfl (fun e old => List.mem_cons_of_mem _ old) rfl fun creator child told => .inl ?_
      rcases List.mem_cons.mp told with new | old
      · cases new
      · exact old

end Filed

/-- Rows with all processes in them that have not been joined, and no others, as
they are for the process `caller`. The column `PPID` can be read: a number that is
less than the pid of the process, and no error code, is its creator, and any other
one says that this has been joined. -/
structure ShowsTable (log : List Event) (caller : Int) (rows : List Row) : Prop where
  once : (rows.map Row.pid).Nodup
  present : ∃ r ∈ rows, r.pid = caller
  running : ∀ r ∈ rows, r.state = .running ↔ r.pid = caller
  listed : ∀ creator child, SporkedBy log creator child → 0 < child →
    child ∈ joined log ∨ ∃ r ∈ rows, r.pid = child
  unjoined : ∀ r ∈ rows, r.pid ∉ joined log
  root : ∀ r ∈ rows, r.pid = 1 → r.ppid = 0
  parent : ∀ r ∈ rows, r.pid ≠ 1 → ∃ creator, SporkedBy log creator r.pid ∧
    (0 < r.ppid ∧ r.ppid < r.pid ↔ r.ppid = creator) ∧ (r.ppid ≠ creator → creator ∈ joined log)
  exits : ∀ r ∈ rows, ∀ exit, r.state = .terminated exit → r.pid ∈ quits log

namespace Machine

variable {m : Machine} {p i : Slot}

theorem boot_filed : Filed boot where
  init := by decide
  creator := by
    have alone : ∀ i, boot.kernel.occupied i = true → i = initSlot := by decide
    exact fun i there other => absurd (alone i there) other
  kept _ _ := by rintro ⟨⟩

theorem filed_of_run (run : Transition.Run step (fun _ _ => True) boot m) : Filed m := by
  refine run.invariant_above (fun _ run => run) Filed boot_filed ?_
  intro before a after run filed _ moves
  obtain ⟨goesOn, move⟩ := step_move moves
  obtain ⟨recorded, drawn⟩ := known_of_run run goesOn
  exact filed.move recorded drawn move

theorem shownState_running (recorded : Recorded m) (runs : m.kernel.running_process = some p)
    (taken : m.kernel.occupied i = true) : m.kernel.shownState i = .running ↔ i = p := by
  have distinct := recorded.distinct i p taken
  unfold shownState
  rw [runs]
  constructor
  · intro shown
    split at shown
    · rename_i same
      exact distinct (of_decide_eq_true same)
    · split at shown <;> cases shown
  · rintro rfl
    exact if_pos (by simp)

theorem shownState_terminated {exit : Int} (shown : m.kernel.shownState i = .terminated exit) :
    m.kernel.status i = .terminated := by
  unfold shownState at shown
  split at shown
  · cases shown
  split at shown
  · rename_i dead
    exact dead
  · cases shown

/-- What `dumpProcesses` prints are the processes that have been created and not
joined, each once, with its creator unless that has been joined. -/
theorem dump_shows_table (run : Transition.Run step (fun _ _ => True) boot m) (goesOn : m.stopped = none)
    (runs : m.kernel.running_process = some p) (name : Slot → String) (priority : Slot → Int) :
    ShowsTable m.log (m.pid p) (m.kernel.rows name priority) := by
  have recorded := (known_of_run run goesOn).1
  have filed := filed_of_run run
  have taken := recorded.sound.running p runs
  have listed : ∀ {j}, m.kernel.occupied j = true →
      m.kernel.row name priority j ∈ m.kernel.rows name priority := fun there => mem_rows.mpr ⟨_, there, rfl⟩
  refine ⟨?_, ⟨_, listed taken, rfl⟩, fun r member => ?_, fun creator child told real => ?_, fun r member => ?_,
    fun r member first => ?_, fun r member other => ?_, fun r member exit shown => ?_⟩
  · unfold rows
    rw [List.map_map]
    refine List.Nodup.map_on (fun i inI j _ same => ?_) ((List.nodup_finRange maxProc).filter _)
    exact recorded.distinct i j (List.mem_filter.mp inI).2 same
  · obtain ⟨i, there, rfl⟩ := mem_rows.mp member
    refine (shownState_running recorded runs there).trans ⟨?_, fun same => recorded.distinct i p there same⟩
    rintro rfl
    rfl
  · refine (filed.kept creator child told real).imp_right ?_
    rintro ⟨i, there, named⟩
    exact ⟨_, listed there, named⟩
  · obtain ⟨i, there, rfl⟩ := mem_rows.mp member
    exact recorded.uncollected i there
  · obtain ⟨i, there, rfl⟩ := mem_rows.mp member
    obtain rfl := recorded.distinct i initSlot there ((show m.pid i = 1 from first).trans filed.init.2.2.symm)
    show ((m.kernel.parent initSlot).map _).getD 0 = 0
    rw [filed.init.2.1]
    rfl
  · obtain ⟨i, there, rfl⟩ := mem_rows.mp member
    have here : i ≠ initSlot := by
      rintro rfl
      exact other filed.init.2.2
    obtain ⟨q, creator, parent, sporked, positive, older, stands⟩ := filed.creator i there here
    have ppid : (m.kernel.row name priority i).ppid = m.pid q := by
      show ((m.kernel.parent i).map _).getD 0 = _
      rw [parent]
      rfl
    have pid : (m.kernel.row name priority i).pid = m.pid i := rfl
    refine ⟨creator, sporked, ?_, ?_⟩ <;> rw [ppid]
    · rw [pid]
      rcases stands with same | ⟨_, gone | younger⟩ <;> omega
    · exact fun away => (stands.resolve_left away).1
  · obtain ⟨i, there, rfl⟩ := mem_rows.mp member
    exact List.mem_of_getElem? (recorded.numbered i (shownState_terminated shown))

/-- `testcase_main` has created a process, has quit and has been joined. -/
def creatorJoined : List Act :=
  testcaseRuns ++ [.call (.spork true true), .call (.quit_phase_1a 0 1), .resume, .call (.join true)]

theorem dump_shows_table_run : ∃ m : Machine,
    (m.kernel.rows (fun _ => "") fun _ => 3).map (fun r => (r.pid, r.ppid, r.state)) =
      [(1, 0, .running), (3, -1, .runnable)] ∧
    ShowsTable m.log (m.pid initSlot) (m.kernel.rows (fun _ => "") fun _ => 3) := by
  obtain ⟨m, run, facts⟩ := Transition.exists_run step boot creatorJoined (fun _ _ => true) (fun _ _ _ => trivial)
    (fun m => decide (m.stopped = none ∧ m.kernel.running_process = some initSlot ∧
      (m.kernel.rows (fun _ => "") fun _ => 3).map (fun r => (r.pid, r.ppid, r.state)) =
        [(1, 0, .running), (3, -1, .runnable)])) (by decide +kernel)
  obtain ⟨goesOn, runs, shown⟩ := of_decide_eq_true facts
  exact ⟨m, shown, dump_shows_table run goesOn runs _ _⟩

end Machine

end UslossKernel.Phase1a
