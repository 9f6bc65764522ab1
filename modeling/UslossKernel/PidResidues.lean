import UslossKernel.ProcessTree

namespace UslossKernel.Phase1b

open Kernel

/-- The tests of `spork` that a call has to pass to be given an entry. -/
def Call.takesEntry (k : Kernel) : Call → Bool
  | .spork kernelMode _ malloc stackSize priority =>
    kernelMode && 1 ≤ priority && priority ≤ 5 && minStack ≤ stackSize && k.freeSlot.isSome && malloc
  | _ => false

variable {k k' : Kernel} {p slot i j : Slot} {pt : Point} {c : Call} {seg : Segment}

/-- A call that passes the tests creates a process, unless a list has no end. -/
theorem Call.takes_sporked (takes : c.takesEntry k = true) :
    (∃ slot, Sporked k slot (c.exec k).1 ∧ ((c.exec k).2 = .returns ((c.exec k).1.process_table slot).pid none ∨
      (c.exec k).2 = .dispatches (.spork slot))) ∨ ∃ walk, (c.exec k).2 = .hangs walk := by
  cases c with
  | spork kernelMode startFunc malloc stackSize priority =>
    simp only [Call.takesEntry, Bool.and_eq_true, decide_eq_true_eq] at takes
    obtain ⟨⟨⟨⟨⟨mode, least⟩, most⟩, stack⟩, free⟩, memory⟩ := takes
    obtain ⟨slot, free⟩ := Option.isSome_iff_exists.mp free
    have inRange : ¬ (priority < 1 ∨ 5 < priority) := by omega
    simp only [Call.exec]
    unfold Kernel.spork
    rw [mode, memory, free, if_neg (by decide), if_neg inRange, if_neg (by omega)]
    simp only [Bool.true_eq_false, if_false]
    split
    · exact .inr ⟨.children, rfl⟩
    rename_i linked atLinked
    split
    · exact .inr ⟨.queue, rfl⟩
    rename_i queued atQueued
    have sporked : Sporked k slot (queued.modify slot fun p => { p with next := none }) :=
      .intro free (by omega) (by omega) atLinked atQueued
    split
    · split
      · exact .inl ⟨slot, sporked, .inr rfl⟩
      · exact .inl ⟨slot, sporked, .inl rfl⟩
    · exact .inl ⟨slot, sporked, .inl rfl⟩
  | _ => cases takes

theorem Call.refused (fn : c.fn = .spork) (refused : c.takesEntry k = false) : (c.exec k).1 = k := by
  cases c with
  | spork kernelMode startFunc malloc stackSize priority =>
    simp only [Call.exec]
    unfold Kernel.spork
    split
    · rfl
    rename_i mode
    split
    · rfl
    rename_i range
    split
    · rfl
    rename_i stack
    split
    · rfl
    rename_i slot free
    split
    · rfl
    rename_i memory
    have mode : kernelMode = true := by simpa using mode
    have memory : malloc = true := by simpa using memory
    have passes : (1 ≤ priority ∧ priority ≤ 5) ∧ minStack ≤ stackSize := by omega
    simp [Call.takesEntry, mode, memory, free, passes] at refused
  | _ => cases fn

/-- Only a `spork` that creates a process draws a pid. -/
theorem Path.pids (path : Path k p pt seg) :
    (∃ c slot, pt = .call c ∧ c.fn = .spork ∧ Sporked k slot seg.1) ∨
      seg.1.next_pid = k.next_pid ∧ ∀ j, (seg.1.process_table j).pid = (k.process_table j).pid ∨
        (seg.1.process_table j).pid = -1 := by
  have same : ∀ {k' : Kernel}, (∀ j, (k'.process_table j).kin = (k.process_table j).kin) →
      ∀ j, (k'.process_table j).pid = (k.process_table j).pid ∨ (k'.process_table j).pid = -1 :=
    fun kin j => .inl (kin_pid kin j)
  cases path with
  | halts | sporkHangs | linkHangs | joinHangs | quitHangs | unblockHangs => exact .inr ⟨rfl, fun _ => .inl rfl⟩
  | stays | zapsDead | yields => exact .inr ⟨rfl, fun _ => .inl rfl⟩
  | sporks fn sporked => exact .inl ⟨_, _, rfl, fn, sporked⟩
  | waits | blocks | zaps =>
    dsimp only
    exact .inr ⟨rfl, same (modify_field Process.kin (fun _ => by rfl))⟩
  | @collects _ before child =>
    refine .inr ⟨collect_next_pid, fun j => ?_⟩
    by_cases here : j = child
    · rw [here]
      exact .inr collect_pid_self
    · exact .inl (collect_pid_of_ne here)
  | quits _ _ removed =>
    exact .inr ⟨(remove_next_pid removed).trans (terminate_next_pid _),
      same fun j => (remove_kin removed j).trans (terminate_kin _ j)⟩
  | unblocks _ _ appended =>
    have next_pid := appendToQueue_next_pid appended
    exact .inr ⟨next_pid,
      same fun j => (appendToQueue_kin appended j).trans (modify_field Process.kin (fun _ => by rfl) j)⟩

/-- What phase 2 takes for granted of the pids. -/
def Kernel.DistinctResidues (k : Kernel) : Prop :=
  ∀ i j, k.occupied i = true → k.occupied j = true →
    (k.process_table i).pid % maxProc = (k.process_table j).pid % maxProc → i = j

/-- The pid that is drawn next is some whole laps of the table ahead of that of the process. -/
def Kernel.lapped (k : Kernel) (i : Slot) : Bool :=
  (Kernel.drawPid k.next_pid - (k.process_table i).pid) % maxProc = 0

/-- The pids in use are below the next one. -/
structure Residues (k : Kernel) : Prop where
  below : ∀ i, (k.process_table i).pid < k.next_pid
  distinct : k.DistinctResidues

namespace Residues

theorem lapped_iff : k.lapped i = true ↔
    (Kernel.drawPid k.next_pid : Int) % maxProc = (k.process_table i).pid % maxProc := by
  unfold Kernel.lapped
  rw [decide_eq_true_eq]
  exact Int.emod_eq_emod_iff_emod_sub_eq_zero.symm

/-- The new process shares its residue with the processes that are whole laps behind it. -/
theorem sporked (residues : Residues k) (sporked : Sporked k slot k') :
    (∀ i, (k'.process_table i).pid < k'.next_pid) ∧
      (k'.DistinctResidues ↔ ∀ i, k.occupied i = true → k.lapped i = false) := by
  have first := Kernel.drawPid_first k.next_pid
  have pidSlot := sporked.created.1
  refine ⟨fun i => ?_, fun distinct i taken => ?_, fun unlapped i j takenI takenJ same => ?_⟩
  · rw [sporked.next_pid_eq]
    by_cases here : i = slot
    · rw [here, pidSlot]
      omega
    · rw [sporked.pid_of_ne here]
      have bound := residues.below i
      omega
  · have apart := sporked.apart taken
    rw [Bool.eq_false_iff, ne_eq, lapped_iff, ← pidSlot, ← sporked.pid_of_ne apart]
    intro same
    exact apart (distinct i slot ((sporked.occupied_of_ne apart).trans taken) sporked.occupied_self same.symm)
  · have fresh : ∀ {i}, i ≠ slot → k'.occupied i = true →
        (k'.process_table slot).pid % maxProc ≠ (k'.process_table i).pid % maxProc := by
      intro i other taken same
      rw [sporked.occupied_of_ne other] at taken
      rw [pidSlot, sporked.pid_of_ne other] at same
      exact absurd (lapped_iff.mpr same) (by rw [unlapped i taken]; decide)
    by_cases atI : i = slot
    · by_cases atJ : j = slot
      · rw [atI, atJ]
      · exact absurd (atI ▸ same) (fresh atJ takenJ)
    · by_cases atJ : j = slot
      · exact absurd (atJ ▸ same.symm) (fresh atI takenI)
      · rw [sporked.occupied_of_ne atI] at takenI
        rw [sporked.occupied_of_ne atJ] at takenJ
        rw [sporked.pid_of_ne atI, sporked.pid_of_ne atJ] at same
        exact residues.distinct i j takenI takenJ same

/-- Entries that are freed change nothing. -/
theorem freed (residues : Residues k) (next_pid : k'.next_pid = k.next_pid)
    (pids : ∀ j, (k'.process_table j).pid = (k.process_table j).pid ∨ (k'.process_table j).pid = -1) :
    Residues k' := by
  have kept : ∀ {j}, k'.occupied j = true →
      (k'.process_table j).pid = (k.process_table j).pid ∧ k.occupied j = true := by
    intro j taken
    have named := of_decide_eq_true taken
    have same := (pids j).resolve_right named
    exact ⟨same, decide_eq_true (same ▸ named)⟩
  refine ⟨fun i => ?_, fun i j takenI takenJ same => ?_⟩
  · rw [next_pid]
    rcases pids i with same | free
    · rw [same]
      exact residues.below i
    · rw [free]
      omega
  · obtain ⟨atI, takenI⟩ := kept takenI
    obtain ⟨atJ, takenJ⟩ := kept takenJ
    rw [atI, atJ] at same
    exact residues.distinct i j takenI takenJ same

end Residues

namespace Machine

/-- The action is a `spork` that is given an entry. -/
def takesEntry (m : Machine) : Act → Bool
  | .call c => c.takesEntry m.kernel
  | .start | .resume => false

/-- A process it creates does not share its residue with one in the table. -/
def Unlapped (m : Machine) (a : Act) : Prop :=
  m.takesEntry a = true → ∀ i, m.kernel.occupied i = true → m.kernel.lapped i = false

variable {m m' : Machine} {a : Act}

/-- A stretch of code of the running process keeps the residues apart exactly
if it creates no process whose residue is in use. -/
theorem At.residues (here : m.At p pt) (residues : Residues m.kernel) :
    (m.Unlapped pt.act → Residues (pt.exec m.kernel p).1) ∧
      ((∀ walk, (pt.exec m.kernel p).2 ≠ .hangs walk) → (pt.exec m.kernel p).1.DistinctResidues →
        m.Unlapped pt.act) := by
  refine ⟨fun unlapped => ?_, fun ends distinct => ?_⟩
  · rcases here.path.pids with ⟨c, slot, rfl, fn, sporked⟩ | ⟨next_pid, pids⟩
    · cases takes : c.takesEntry m.kernel with
      | true =>
        obtain ⟨below, iff⟩ := residues.sporked sporked
        exact ⟨below, iff.mpr (unlapped takes)⟩
      | false =>
        have same : ((Point.call c).exec m.kernel p).1 = m.kernel := Call.refused fn takes
        rw [same]
        exact residues
    · exact residues.freed next_pid pids
  · cases pt with
    | resume => rintro ⟨⟩
    | call c =>
      intro takes
      rcases Call.takes_sporked takes with ⟨slot, sporked, _⟩ | ⟨walk, hangs⟩
      · exact (residues.sporked sporked).2.mp distinct
      · exact absurd hangs (ends walk)

theorem step_residues (residues : Residues m.kernel) (moves : m.step a = some m') :
    (m.Unlapped a → Residues m'.kernel) ∧
      (m'.stopped = none → m'.kernel.DistinctResidues → m.Unlapped a) := by
  cases step_move moves with
  | starts => exact ⟨fun _ => ⟨residues.below, residues.distinct⟩, fun _ _ => by rintro ⟨⟩⟩
  | begins => exact ⟨fun _ => residues, fun _ _ => by rintro ⟨⟩⟩
  | halts => exact ⟨fun _ => residues, by rintro ⟨⟩⟩
  | @stops p pt => exact ⟨fun _ => by rwa [stop, enter_kernel], by rintro ⟨⟩⟩
  | @returns p pt k value status here goes =>
    obtain ⟨forth, back⟩ := here.residues residues
    rw [goes] at forth back
    exact ⟨forth, fun _ => back (by simp)⟩
  | @switches p pt k inside next here goes =>
    obtain ⟨forth, back⟩ := here.residues residues
    rw [goes] at forth back
    refine ⟨fun unlapped => ?_, fun _ => back (by simp)⟩
    have after := forth unlapped
    exact ⟨after.below, after.distinct⟩

theorem boot_residues : Residues boot.kernel := by
  have alone : ∀ i, boot.kernel.occupied i = true → i = initSlot := by decide
  exact ⟨by decide, fun i j takenI takenJ _ => (alone i takenI).trans (alone j takenJ).symm⟩

/-- What a step does to the pids. -/
theorem step_pids (moves : m.step a = some m') :
    (∃ slot k, Sporked m.kernel slot k ∧ m'.kernel.process_table = k.process_table ∧
      m'.kernel.next_pid = k.next_pid) ∨
    m'.kernel.next_pid = m.kernel.next_pid ∧ ∀ j, m'.pid j = m.pid j ∨ m'.pid j = -1 := by
  have stretch : ∀ {p pt k ending}, m.At p pt → pt.exec m.kernel p = (k, ending) →
      (∃ slot, Sporked m.kernel slot k) ∨
        k.next_pid = m.kernel.next_pid ∧ ∀ j, (k.process_table j).pid = m.pid j ∨ (k.process_table j).pid = -1 := by
    intro p pt k ending here goes
    have path := here.path
    rw [goes] at path
    rcases path.pids with ⟨_, slot, _, _, sporked⟩ | freed
    · exact .inl ⟨slot, sporked⟩
    · exact .inr freed
  cases step_move moves with
  | starts | begins | halts => exact .inr ⟨rfl, fun _ => .inl rfl⟩
  | @stops p pt => cases pt <;> exact .inr ⟨rfl, fun _ => .inl rfl⟩
  | returns here goes | switches here goes =>
    exact (stretch here goes).imp_left fun ⟨slot, sporked⟩ => ⟨slot, _, sporked, rfl, rfl⟩

end Machine

/-- The pid that the `n`-th process gets that `spork` creates; `init` comes before the first. -/
def nthPid (n : Nat) : Nat :=
  n + 1 + 2 * ((n - 2) / (maxProc - 2))

theorem drawPid_nthPid (n : Nat) : drawPid (nthPid n + 1) = nthPid (n + 1) := by
  unfold drawPid nthPid
  simp only [skipped_eq_true, maxProc]
  split
  · split <;> omega
  · omega

/-- From the second process on the residues come round after 48 creations, and
those of `init` and of the first process are left out. -/
theorem nthPid_residues {n b : Nat} (later : b < n) : nthPid n % maxProc = nthPid b % maxProc ↔
    1 < b ∧ (n - b) % (maxProc - 2) = 0 := by
  unfold nthPid
  simp only [maxProc]
  omega

/-- The machine with a count of the processes that have been created. `birth` is
the number of the process in an entry, and that of `init` is 0. -/
structure Numbered where
  machine : Machine
  created : Nat
  birth : Slot → Nat

namespace Numbered

def boot : Numbered where
  machine := Machine.boot
  created := 0
  birth _ := 0

/-- A process has been created in the entry. -/
def begun (m m' : Machine) (i : Slot) : Bool :=
  !m.kernel.occupied i && m'.kernel.occupied i

def stamp (n : Numbered) (m' : Machine) : Numbered where
  machine := m'
  created := if ∃ i, begun n.machine m' i = true then n.created + 1 else n.created
  birth i := if begun n.machine m' i then n.created + 1 else n.birth i

def step (n : Numbered) (a : Act) : Option Numbered :=
  (n.machine.step a).map n.stamp

/-- When the next process is created, the one in the entry, which is neither
`init` nor the first, will have seen all residues come round some whole times. -/
def outlasts (n : Numbered) (i : Slot) : Bool :=
  1 < n.birth i && (n.created + 1 - n.birth i) % (maxProc - 2) = 0

/-- A `spork` that is given an entry finds nobody who has seen whole rounds. -/
def NoneOutlasts (n : Numbered) (a : Act) : Prop :=
  n.machine.takesEntry a = true → ∀ i, n.machine.kernel.occupied i = true → n.outlasts i = false

instance (n : Numbered) (a : Act) : Decidable (n.NoneOutlasts a) :=
  inferInstanceAs (Decidable (n.machine.takesEntry a = true →
    ∀ i, n.machine.kernel.occupied i = true → n.outlasts i = false))

/-- The numbers tell the pids. -/
structure Counts (n : Numbered) : Prop where
  next_pid : n.machine.kernel.next_pid = nthPid n.created + 1
  pids : ∀ i, n.machine.kernel.occupied i = true → n.birth i ≤ n.created ∧ n.machine.pid i = nthPid (n.birth i)

variable {n : Numbered} {m' : Machine} {a : Act}

theorem Counts.stamp (counts : n.Counts) (moves : n.machine.step a = some m') : (n.stamp m').Counts := by
  rcases Machine.step_pids moves with ⟨slot, k, sporked, table, next_pid⟩ | ⟨next_pid, pids⟩
  · have occupied : m'.kernel.occupied = k.occupied := by
      unfold Kernel.occupied
      rw [table]
    have pid : ∀ i, m'.pid i = (k.process_table i).pid := fun i => by rw [Machine.pid, table]
    have begun : ∀ i, begun n.machine m' i = true ↔ i = slot := by
      intro i
      unfold Numbered.begun
      rw [occupied]
      by_cases here : i = slot
      · simp [here, sporked.free, sporked.occupied_self]
      · simp [here, sporked.occupied_of_ne here]
    have one : (n.stamp m').created = n.created + 1 := if_pos ⟨slot, (begun slot).mpr rfl⟩
    refine ⟨?_, fun i taken => ?_⟩
    · rw [one, show (n.stamp m').machine.kernel.next_pid = _ from next_pid, sporked.next_pid_eq, counts.next_pid,
        drawPid_nthPid]
    · rw [one, show (n.stamp m').machine.pid i = _ from pid i]
      by_cases here : i = slot
      · subst here
        have birth : (n.stamp m').birth i = n.created + 1 := if_pos ((begun i).mpr rfl)
        rw [birth, sporked.created.1, counts.next_pid, drawPid_nthPid]
        exact ⟨le_rfl, rfl⟩
      · have birth : (n.stamp m').birth i = n.birth i := if_neg fun new => here ((begun i).mp new)
        have before : n.machine.kernel.occupied i = true := by
          rw [← sporked.occupied_of_ne here, ← occupied]
          exact taken
        obtain ⟨bound, named⟩ := counts.pids i before
        rw [birth, sporked.pid_of_ne here]
        exact ⟨by omega, named⟩
  · have kept : ∀ i, m'.kernel.occupied i = true →
        n.machine.kernel.occupied i = true ∧ m'.pid i = n.machine.pid i := by
      intro i taken
      have named : m'.pid i ≠ -1 := of_decide_eq_true taken
      have same := (pids i).resolve_right named
      rw [same] at named
      exact ⟨decide_eq_true named, same⟩
    have begun : ∀ i, begun n.machine m' i = false := by
      intro i
      unfold Numbered.begun
      cases taken : m'.kernel.occupied i with
      | false => simp
      | true => simp [(kept i taken).1]
    have none : (n.stamp m').created = n.created := if_neg (by simp [begun])
    refine ⟨?_, fun i taken => ?_⟩
    · rw [none]
      exact next_pid.trans counts.next_pid
    · have birth : (n.stamp m').birth i = n.birth i := if_neg (by simp [begun])
      obtain ⟨before, same⟩ := kept i taken
      rw [none, birth, show (n.stamp m').machine.pid i = _ from same]
      exact counts.pids i before

/-- Whole laps of pids are whole rounds of creations. -/
theorem Counts.lapped (counts : n.Counts) {i : Slot} (taken : n.machine.kernel.occupied i = true) :
    n.machine.kernel.lapped i = n.outlasts i := by
  obtain ⟨bound, named⟩ := counts.pids i taken
  rw [Bool.eq_iff_iff, Residues.lapped_iff, counts.next_pid, drawPid_nthPid,
    show (n.machine.kernel.process_table i).pid = _ from named]
  simp only [outlasts, Bool.and_eq_true, decide_eq_true_eq]
  rw [← nthPid_residues (Nat.lt_succ_of_le bound)]
  exact_mod_cast Iff.rfl

theorem Counts.unlapped_iff (counts : n.Counts) : n.machine.Unlapped a ↔ n.NoneOutlasts a := by
  unfold Machine.Unlapped NoneOutlasts
  refine imp_congr_right fun _ => forall_congr' fun i => imp_congr_right fun taken => ?_
  rw [counts.lapped taken]

theorem boot_counts : boot.Counts where
  next_pid := by decide
  pids := by
    have alone : ∀ i, Machine.boot.kernel.occupied i = true → i = initSlot := by decide
    intro i taken
    obtain rfl := alone i taken
    decide

/-- The pids in the table differ modulo its size for as long as no process is
created a multiple of 48 creations after another one that is in the table, `init`
and the first process apart, and no longer. -/
theorem pids_distinct_modulo_maxProc (run : Transition.Run step NoneOutlasts boot n) :
    n.machine.kernel.DistinctResidues ∧ ∀ a n', n.step a = some n' → n'.machine.stopped = none →
      (n'.machine.kernel.DistinctResidues ↔ n.NoneOutlasts a) := by
  obtain ⟨counts, residues⟩ : n.Counts ∧ Residues n.machine.kernel := by
    refine run.invariant (fun n => n.Counts ∧ Residues n.machine.kernel) ⟨boot_counts, Machine.boot_residues⟩ ?_
    rintro before a after ⟨counts, residues⟩ admitted moves
    obtain ⟨m', moved, rfl⟩ := Option.map_eq_some_iff.mp moves
    exact ⟨counts.stamp moved, (Machine.step_residues residues moved).1 (counts.unlapped_iff.mpr admitted)⟩
  refine ⟨residues.distinct, fun a n' moves goesOn => ?_⟩
  obtain ⟨m', moved, rfl⟩ := Option.map_eq_some_iff.mp moves
  obtain ⟨forth, back⟩ := Machine.step_residues residues moved
  refine ⟨fun distinct => counts.unlapped_iff.mp (back goesOn distinct), fun admitted => ?_⟩
  exact (forth (counts.unlapped_iff.mpr admitted)).distinct

theorem pids_distinct_modulo_maxProc_testcase : ∃ n, Transition.Run step NoneOutlasts boot n ∧
    n.machine.pid Machine.testcaseSlot = 2 ∧ n.machine.kernel.DistinctResidues ∧
    ∀ a n', n.step a = some n' → n'.machine.stopped = none →
      (n'.machine.kernel.DistinctResidues ↔ n.NoneOutlasts a) := by
  obtain ⟨n, run, named⟩ := Transition.exists_run step boot Machine.testcaseRuns (fun n a => decide (n.NoneOutlasts a))
    (fun _ _ => of_decide_eq_true) (fun n => decide (n.machine.pid Machine.testcaseSlot = 2)) (by decide +kernel)
  exact ⟨n, run, of_decide_eq_true named, pids_distinct_modulo_maxProc run⟩

end Numbered

namespace Machine

/-- `testcase_main` has 47 children, joins one more, and creates another. -/
def fullTable : List Act :=
  testcaseRuns ++ List.replicate 47 (.call (sporks 4)) ++
    [.call (sporks 2), .resume, .call (.quit true 0), .resume, .call (.join true), .call (sporks 4)]

def freedSlot : Slot := ⟨0, by decide⟩

/-- The first child has pid 3, and the last one 53. -/
theorem pids_collide : ∃ m, Reaches fullTable m ∧ m.pid childSlot = 3 ∧ m.pid freedSlot = 53 ∧
    ¬ m.kernel.DistinctResidues := by
  obtain ⟨m, reached, named⟩ := exists_reaches fullTable
    (fun m => decide (m.pid childSlot = 3 ∧ m.pid freedSlot = 53)) (by decide +kernel)
  obtain ⟨first, last⟩ := of_decide_eq_true named
  refine ⟨m, reached, first, last, fun distinct => ?_⟩
  have atFirst : (m.kernel.process_table childSlot).pid = 3 := first
  have atLast : (m.kernel.process_table freedSlot).pid = 53 := last
  have same := distinct childSlot freedSlot (by simp [occupied, atFirst]) (by simp [occupied, atLast])
    (by rw [atFirst, atLast]; decide)
  exact absurd same (by decide)

end Machine

end UslossKernel.Phase1b
