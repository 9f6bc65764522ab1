import UslossKernel.Phase1aJoins

namespace UslossKernel.Phase1a

open LinkedList Kernel

/-- Where all the chosen ones stand before `x`, that one is the last. -/
theorem filter_eq_concat {α : Type*} [DecidableEq α] {first second : List α} {x : α} {chosen : α → Bool}
    (distinct : (first ++ x :: second).Nodup) (is : chosen x = true)
    (before : ∀ y, chosen y = true → y ≠ x → y ∈ first) :
    (first ++ x :: second).filter chosen =
      ((first ++ x :: second).filter fun y => chosen y && y != x) ++ [x] := by
  obtain ⟨_, distinctRest, apart⟩ := List.nodup_append.mp distinct
  have notLater : x ∉ second := (List.nodup_cons.mp distinctRest).1
  have later : ∀ y ∈ second, chosen y = false := by
    intro y member
    by_contra named
    have other : y ≠ x := fun same => notLater (same ▸ member)
    exact apart y (before y (by simpa using named) other) y (List.mem_cons_of_mem _ member) rfl
  have same : first.filter chosen = first.filter fun y => chosen y && y != x := by
    refine List.filter_congr fun y member => ?_
    have other : y ≠ x := apart y member x (List.mem_cons_self ..)
    simp [other]
  have none : second.filter chosen = [] := List.filter_eq_nil_iff.mpr fun y member => by simp [later y member]
  have none' : (second.filter fun y => chosen y && y != x) = [] :=
    List.filter_eq_nil_iff.mpr fun y member => by simp [later y member]
  rw [List.filter_append, List.filter_append, List.filter_cons_of_pos is, none, same,
    List.filter_cons_of_neg (by simp), none', List.append_nil]

/-- The pids that have been drawn are no error codes. -/
def Kernel.Drawn (k : Kernel) : Prop :=
  (∀ i, (k.process_table i).pid = -1 ∨ 0 < (k.process_table i).pid) ∧ 0 < k.next_pid

/-- A new process gets a pid, or a process loses it. -/
theorem Kernel.Drawn.changed {k k' : Kernel} {slot : Slot} (drawn : k.Drawn)
    (others : ∀ i, i ≠ slot → (k'.process_table i).pid = (k.process_table i).pid)
    (self : (k'.process_table slot).pid = -1 ∨ (k'.process_table slot).pid = k.next_pid)
    (more : k.next_pid ≤ k'.next_pid) : k'.Drawn := by
  obtain ⟨pids, next⟩ := drawn
  refine ⟨fun i => ?_, next.trans_le more⟩
  by_cases here : i = slot
  · subst here
    exact self.imp_right fun drawn => by rw [drawn]; exact_mod_cast next
  · rw [others i here]
    exact pids i

namespace Machine

variable {m m' : Machine} {p child : Slot} {l : List Slot}

theorem drawn_move (drawn : m.kernel.Drawn) (recorded : Recorded m) (move : Move m m') : m'.kernel.Drawn := by
  cases move with
  | starts switched =>
    obtain ⟨_, _, rfl⟩ := switchTo_eq_some switched
    exact drawn
  | begins | returns | stops => exact drawn
  | @calls p c runs place =>
    have effect := Call.exec_effect (c := c) recorded.sound runs
    generalize goes : c.exec m.kernel = seg at effect
    cases effect with
    | answers _ more =>
      rw [run_returns goes]
      exact ⟨drawn.1, drawn.2.trans_le more⟩
    | sporks _ sporks =>
      rw [run_returns goes]
      refine drawn.changed (fun i other => ?_) (.inr sporks.pid_self) (by rw [sporks.next_pid]; exact Nat.le_succ _)
      exact EntryTable.field_of_rest Process.unlinked Process.pid (fun _ => rfl) (sporks.others i other)
    | collects _ collects =>
      rw [run_returns goes]
      exact drawn.changed (fun i other => collects.pid_of_ne other) (.inl collects.pid_self) collects.next_pid.ge
    | @quits status i =>
      rw [run_switches goes]
      exact ⟨fun j => by rw [show _ = _ from quitted_pid j]; exact drawn.1 j, drawn.2⟩
    | switches =>
      rw [run_switches goes]
      exact drawn
    | stops notReturns notSwitches =>
      obtain ⟨reason, stopped⟩ := run_stops (p := p) goes notReturns notSwitches
      rw [stopped]
      exact drawn

/-- What is known of every machine that goes on. -/
def Known (m : Machine) : Prop :=
  Recorded m ∧ m.kernel.Drawn

theorem known_of_run (run : Transition.Run step (fun _ _ => True) boot m) (goesOn : m.stopped = none) :
    m.Known := by
  refine ⟨(recorded_of_run run).1 goesOn, ?_⟩
  refine run.invariant_above (fun _ => recorded_of_run) (fun m => m.kernel.Drawn) ⟨by decide, by decide⟩ ?_
  intro before a after earlier drawn _ moves
  obtain ⟨goesOn, move⟩ := step_move moves
  exact drawn_move drawn (earlier.1 goesOn) move

/-- A child in the list has the pid, and has terminated. -/
def isDead (m : Machine) (l : List Slot) (pid : Int) : Bool :=
  l.any fun i => m.kernel.status i = .terminated ∧ m.pid i = pid

/-- The children in the list that have terminated, in the order in which they have quit. -/
def dead (m : Machine) (l : List Slot) : List Int :=
  (quits m.log).filter (m.isDead l)

theorem isDead_iff {pid : Int} : m.isDead l pid = true ↔ ∃ i ∈ l, m.kernel.status i = .terminated ∧ m.pid i = pid := by
  simp [isDead]

/-- The state after `join` has returned the child to `p`. -/
def joins (m : Machine) (p child : Slot) (k : Kernel) : Machine :=
  { m with
    kernel := k
    place := m.contexts k
    log := .returned (m.pid p) .join (m.pid child) (some (m.kernel.process_table child).exit_status) ::
      .called (m.pid p) .join :: m.log }

/-- A call of `join` finds nobody, or takes the child that has quit last. -/
theorem run_join (recorded : Recorded m) (runs : m.kernel.running_process = some p)
    (leads : Leads m.kernel.next (m.kernel.children p) l none) :
    (∀ i ∈ l, m.kernel.status i ≠ .terminated) ∧
        m.run p (.join true) = { m with
          log := .returned (m.pid p) .join (-2) none :: .called (m.pid p) .join :: m.log } ∨
      ∃ child k, Latest m.kernel l child ∧ Collects m.kernel p child k ∧
        Leads k.next (k.children p) (l.erase child) none ∧ m.run p (.join true) = m.joins p child k := by
  rcases recorded.sound.joins runs with ⟨answers, nobody⟩ | ⟨child, k, answers, collects, _⟩
  · refine .inl ⟨nobody l leads, ?_⟩
    have same : m.contexts m.kernel = m.place := EntryTable.renewed_eq_self fun _ => id
    rw [run_returns (c := .join true) answers, same]
    rfl
  · obtain ⟨l', leads', latest, rest⟩ := latest_of_collects recorded collects
    obtain rfl := leads.unique leads'
    exact .inr ⟨child, k, latest, collects, rest, run_returns (c := .join true) answers⟩

theorem dead_eq_nil (nobody : ∀ i ∈ l, m.kernel.status i ≠ .terminated) : m.dead l = [] := by
  refine List.filter_eq_nil_iff.mpr fun pid _ listed => ?_
  obtain ⟨i, member, dead, _⟩ := isDead_iff.mp listed
  exact nobody i member dead

/-- One of them less when the child has been taken. -/
theorem isDead_joins {k : Kernel} (recorded : Recorded m) (runs : m.kernel.running_process = some p)
    (leads : Leads m.kernel.next (m.kernel.children p) l none) (collects : Collects m.kernel p child k) (pid : Int) :
    (m.isDead l pid && pid != m.pid child) = (m.joins p child k).isDead (l.erase child) pid := by
  obtain ⟨l', leads', members⟩ := recorded.sound.lists p (recorded.sound.running p runs)
  obtain rfl := leads.unique leads'
  have status : ∀ i, i ≠ child → k.status i = m.kernel.status i := fun i other =>
    EntryTable.field_of_rest Process.unlinked Process.status (fun _ => rfl) (collects.others i other)
  have same : ∀ i, i ≠ child → (m.joins p child k).pid i = m.pid i := fun i other => collects.pid_of_ne other
  rw [Bool.eq_iff_iff, Bool.and_eq_true, bne_iff_ne, isDead_iff, isDead_iff]
  constructor
  · rintro ⟨⟨i, member, dead, rfl⟩, other⟩
    have elsewhere : i ≠ child := by
      rintro rfl
      exact other rfl
    exact ⟨i, (List.mem_erase_of_ne elsewhere).mpr member, (status i elsewhere).trans dead, same i elsewhere⟩
  · rintro ⟨i, member, dead, rfl⟩
    obtain ⟨elsewhere, member⟩ := leads.nodup.mem_erase_iff.mp member
    rw [same i elsewhere]
    refine ⟨⟨i, member, (status i elsewhere).symm.trans dead, rfl⟩, fun equal => elsewhere ?_⟩
    exact recorded.distinct i child (members i member).1 equal

/-- The child that `join` takes is the last of them. -/
theorem dead_joins {k : Kernel} (recorded : Recorded m) (runs : m.kernel.running_process = some p)
    (leads : Leads m.kernel.next (m.kernel.children p) l none) (latest : Latest m.kernel l child)
    (collects : Collects m.kernel p child k) :
    m.dead l = (m.joins p child k).dead (l.erase child) ++ [m.pid child] := by
  obtain ⟨inside, atOrder⟩ := List.getElem?_eq_some_iff.mp (recorded.numbered child latest.dead)
  have whole : (quits m.log).take (m.kernel.process_table child).termOrder ++
      m.pid child :: (quits m.log).drop ((m.kernel.process_table child).termOrder + 1) = quits m.log := by
    rw [← atOrder, ← List.drop_eq_getElem_cons inside, List.take_append_drop]
  have is : m.isDead l (m.pid child) = true := isDead_iff.mpr ⟨child, latest.listed, latest.dead, rfl⟩
  have last := filter_eq_concat (whole.symm ▸ recorded.quitOnce) is fun pid listed other => ?_
  · rw [whole] at last
    refine last.trans (congrArg (· ++ [m.pid child]) (List.filter_congr fun pid _ => ?_))
    exact isDead_joins recorded runs leads collects pid
  · obtain ⟨i, member, dead, rfl⟩ := isDead_iff.mp listed
    have elsewhere : i ≠ child := fun same => other (by rw [same])
    have order := latest.greatest i member elsewhere dead
    refine List.mem_of_getElem? (i := (m.kernel.process_table i).termOrder) ?_
    rw [List.getElem?_take_of_lt order]
    exact recorded.numbered i dead

end Machine

/-- Where `init_run` stands: it starts the service processes, or it has made the
call of `spork`, of `TEMP_switchTo` or of `join`. -/
inductive Stage
  | services
  | sporked
  | switched
  | joined
deriving DecidableEq, Repr

/-- What `init_run` does next: a call, and where it stands then, or `USLOSS_Halt`. -/
inductive Next
  | calls (c : Call) (stage : Stage)
  | halts (code : Int)
deriving DecidableEq, Repr

/-- The last call has returned `value`. -/
def init_run (malloc : Bool) : Stage → Int → Next
  | .services, _ => .calls (.spork true malloc) .sporked
  | .sporked, testcase_pid => if testcase_pid < 0 then .halts 1 else .calls (.TEMP_switchTo testcase_pid) .switched
  | .switched, _ => .calls (.join true) .joined
  | .joined, childPid => if childPid = -2 then .halts 0 else .calls (.join true) .joined

/-- What the call returned that came back last. -/
def Machine.answer (m : Machine) : Int :=
  match m.log.head? with
  | some (.returned _ _ value _) => value
  | _ => 0

/-- The processes, of which `init` runs `init_run`. `halted` is the argument of its `USLOSS_Halt`. -/
structure Booted where
  machine : Machine
  stage : Stage
  value : Int
  halted : Option Int

/-- Any action of another process, of the bootstrap, or of `init` while it starts
the services or is switched to; or the next thing that `init_run` does. -/
inductive BootAct
  | other (a : Act)
  | init (malloc : Bool)
deriving DecidableEq, Repr

namespace Booted

open Machine

def start : Booted where
  machine := boot
  stage := .services
  value := 0
  halted := none

/-- `init` is at its own code. -/
def AtInit (s : Booted) : Prop :=
  s.machine.kernel.running_process = some initSlot ∧ s.machine.place initSlot = .user

instance (s : Booted) : Decidable s.AtInit :=
  inferInstanceAs (Decidable (_ ∧ _))

def step (s : Booted) (a : BootAct) : Option Booted :=
  if s.halted.isSome ∨ s.machine.stopped.isSome then none
  else match a with
  | .other a =>
    if s.AtInit ∧ s.stage ≠ .services then none
    else (s.machine.step a).map fun m => { s with machine := m }
  | .init malloc =>
    if s.AtInit then
      match init_run malloc s.stage s.value with
      | .calls c stage => (s.machine.step (.call c)).map fun m => { s with machine := m, stage, value := m.answer }
      | .halts code => some { s with halted := some code }
    else none

/-- The states of the runs from the start. -/
abbrev Reached (s : Booted) : Prop :=
  Transition.Run step (fun _ _ => True) start s

variable {s s' : Booted} {a : BootAct} {l : List Slot}

/-- The processes make no other steps than those of the kernel. -/
theorem Reached.machine (reached : Reached s) : Transition.Run Machine.step (fun _ _ => True) boot s.machine := by
  refine Transition.Run.invariant reached
    (fun s => Transition.Run Machine.step (fun _ _ => True) boot s.machine) .refl ?_
  intro before a after run _ moves
  unfold step at moves
  split at moves
  · cases moves
  split at moves
  · split at moves
    · cases moves
    · obtain ⟨m, moved, rfl⟩ := Option.map_eq_some_iff.mp moves
      exact run.next trivial moved
  · split at moves
    · split at moves
      · obtain ⟨m, moved, rfl⟩ := Option.map_eq_some_iff.mp moves
        exact run.next trivial moved
      · cases moves
        exact run
    · cases moves

/-- `init` is about to call `join`, and nothing else goes on. -/
structure Looping (s : Booted) : Prop where
  reached : Transition.Run Machine.step (fun _ _ => True) boot s.machine
  goesOn : s.machine.stopped = none
  unhalted : s.halted = none
  atInit : s.AtInit
  asks : ∀ malloc, init_run malloc s.stage s.value = .calls (.join true) .joined

/-- The state after the call has come back. -/
def afterJoin (s : Booted) : Booted :=
  { s with
    machine := s.machine.run initSlot (.join true), stage := .joined
    value := (s.machine.run initSlot (.join true)).answer }

theorem step_init (goesOn : s.machine.stopped = none) (unhalted : s.halted = none) (atInit : s.AtInit)
    (malloc : Bool) : s.step (.init malloc) = match init_run malloc s.stage s.value with
      | .calls c stage => (s.machine.step (.call c)).map fun m => { s with machine := m, stage, value := m.answer }
      | .halts code => some { s with halted := some code } := by
  unfold step
  rw [if_neg (by simp [goesOn, unhalted])]
  exact if_pos atInit

theorem step_other (goesOn : s.machine.stopped = none) (unhalted : s.halted = none) (atInit : s.AtInit)
    (past : s.stage ≠ .services) (a : Act) : s.step (.other a) = none := by
  unfold step
  rw [if_neg (by simp [goesOn, unhalted])]
  exact if_pos ⟨atInit, past⟩

theorem Looping.calls (looping : s.Looping) :
    s.machine.step (.call (.join true)) = some (s.machine.run initSlot (.join true)) := by
  unfold Machine.step
  rw [looping.goesOn, if_neg (by decide), looping.atInit.1]
  exact if_pos looping.atInit.2

theorem Looping.moves (looping : s.Looping) (malloc : Bool) : s.step (.init malloc) = some s.afterJoin := by
  rw [step_init looping.goesOn looping.unhalted looping.atInit, looping.asks]
  simp only [looping.calls]
  rfl

theorem Looping.only (looping : s.Looping) (other : BootAct) (s' : Booted) (moves : s.step other = some s') :
    s' = s.afterJoin := by
  cases other with
  | init malloc => exact Option.some.inj (moves.symm.trans (looping.moves malloc))
  | other a =>
    have past : s.stage ≠ .services := by
      intro services
      have asks := looping.asks true
      rw [services] at asks
      cases asks
    rw [step_other looping.goesOn looping.unhalted looping.atInit past] at moves
    cases moves

/-- When nobody is left, the next thing is to halt. -/
theorem halts (goesOn : s.machine.stopped = none) (unhalted : s.halted = none) (atInit : s.AtInit)
    (stage : s.stage = .joined) (value : s.value = -2) :
    Transition.Forced step 1 s { s with halted := some 0 } := by
  have moves : ∀ malloc, s.step (.init malloc) = some { s with halted := some 0 } := by
    intro malloc
    rw [step_init goesOn unhalted atInit, stage, value]
    rfl
  refine .next (moves true) (fun other s' moved => ?_) .done
  cases other with
  | init malloc => exact Option.some.inj (moved.symm.trans (moves malloc))
  | other a =>
    rw [step_other goesOn unhalted atInit (by rw [stage]; decide)] at moved
    cases moved

theorem final (halted : s.halted = some 0) (a : BootAct) : s.step a = none := by
  unfold step
  rw [halted, if_pos (.inl rfl)]

/-- After a child has been returned `join` is called again. -/
theorem Looping.again {child : Slot} {k : Kernel} (looping : s.Looping)
    (collects : Collects s.machine.kernel initSlot child k)
    (ran : s.machine.run initSlot (.join true) = s.machine.joins initSlot child k) : s.afterJoin.Looping := by
  obtain ⟨recorded, drawn, _⟩ := known_of_run looping.reached looping.goesOn
  obtain ⟨runs, user⟩ := looping.atInit
  refine ⟨looping.reached.next trivial looping.calls, ?_, looping.unhalted, ⟨?_, ?_⟩, fun malloc => ?_⟩
  · show (s.machine.run initSlot (.join true)).stopped = none
    rw [ran]
    exact looping.goesOn
  · show (s.machine.run initSlot (.join true)).kernel.running_process = some initSlot
    rw [ran]
    exact collects.running.trans runs
  · show (s.machine.run initSlot (.join true)).place initSlot = .user
    rw [ran]
    exact (EntryTable.renewed_of_taken (recorded.sound.running initSlot runs)).trans user
  · have value : s.afterJoin.value = s.machine.pid child := by
      show (s.machine.run initSlot (.join true)).answer = _
      rw [ran]
      rfl
    have noCode : s.machine.pid child ≠ -2 := by
      have drawn : s.machine.pid child = -1 ∨ 0 < s.machine.pid child := drawn child
      omega
    rw [value]
    exact if_neg noCode

/-- The loop of `init_run` takes the children that have terminated one by one,
whoever has quit last first, and halts. -/
theorem Looping.drains (looping : s.Looping)
    (leads : Leads s.machine.kernel.next (s.machine.kernel.children initSlot) l none) :
    ∃ s', Transition.Forced step ((s.machine.dead l).length + 2) s s' ∧ s'.halted = some 0 ∧
      joined s'.machine.log = s.machine.dead l ++ joined s.machine.log := by
  generalize quit : s.machine.dead l = pids
  induction pids using List.reverseRecOn generalizing s l with
  | nil =>
    have recorded := (known_of_run looping.reached looping.goesOn).1
    rcases run_join recorded looping.atInit.1 leads with ⟨_, ran⟩ | ⟨child, k, latest, collects, _, _⟩
    · have after : s.afterJoin.machine = { s.machine with
          log := .returned (s.machine.pid initSlot) .join (-2) none ::
            .called (s.machine.pid initSlot) .join :: s.machine.log } := ran
      have ends : Transition.Forced step 1 s.afterJoin { s.afterJoin with halted := some 0 } := by
        refine halts ?_ looping.unhalted ⟨?_, ?_⟩ rfl ?_
        · rw [after]
          exact looping.goesOn
        · rw [after]
          exact looping.atInit.1
        · rw [after]
          exact looping.atInit.2
        · show s.afterJoin.machine.answer = -2
          rw [after]
          rfl
      refine ⟨_, .next (looping.moves true) looping.only ends, rfl, ?_⟩
      show joined s.afterJoin.machine.log = _
      rw [after, joined_answered, joined_called, List.nil_append]
    · rw [dead_joins recorded looping.atInit.1 leads latest collects] at quit
      simp at quit
  | append_singleton earlier pid ih =>
    have recorded := (known_of_run looping.reached looping.goesOn).1
    rcases run_join recorded looping.atInit.1 leads with ⟨nobody, _⟩ | ⟨child, k, latest, collects, rest, ran⟩
    · rw [dead_eq_nil nobody] at quit
      simp at quit
    · have after : s.afterJoin.machine = s.machine.joins initSlot child k := ran
      rw [dead_joins recorded looping.atInit.1 leads latest collects] at quit
      obtain ⟨same, last⟩ := List.append_inj' quit rfl
      obtain ⟨s', forced, halted, log⟩ := ih (looping.again collects ran) (after ▸ rest) (after ▸ same)
      refine ⟨s', ?_, halted, ?_⟩
      · rw [List.length_append]
        exact .next (looping.moves true) looping.only forced
      · rw [log, after, List.append_assoc, ← last]
        rfl

/-- Once `init` runs on after `TEMP_switchTo`, nothing can happen but this: it
joins all its children that have terminated, whoever has quit last first, and
then it halts with 0, whatever other processes there are. -/
theorem init_drains (reached : Reached s) (back : s.stage = .switched) (atInit : s.AtInit)
    (goesOn : s.machine.stopped = none) (unhalted : s.halted = none)
    (leads : Leads s.machine.kernel.next (s.machine.kernel.children initSlot) l none) :
    ∃ s', Transition.Forced step ((s.machine.dead l).length + 2) s s' ∧ s'.halted = some 0 ∧
      joined s'.machine.log = s.machine.dead l ++ joined s.machine.log ∧
      ∀ t, Transition.Run step (fun _ _ => True) s t →
        ∃ n ≤ (s.machine.dead l).length + 2, Transition.Forced step n t s' := by
  have looping : s.Looping := ⟨reached.machine, goesOn, unhalted, atInit, fun _ => by rw [back]; rfl⟩
  obtain ⟨s', forced, halted, log⟩ := looping.drains leads
  exact ⟨s', forced, halted, log, fun t run => forced.run (final halted) run⟩

/-- A service process and `testcase_main` have quit when `init` runs on. -/
def twoChildrenQuit : List BootAct :=
  [.other (.start 1), .other .resume, .other (.call (.spork true true)), .init true, .init true, .other .resume,
    .other (.call (.TEMP_switchTo 2)), .other .resume, .other (.call (.quit_phase_1a 5 3)), .other .resume,
    .other (.call (.quit_phase_1a 7 1)), .other .resume]

theorem four_lt_maxProc : 4 < maxProc := by decide

def secondSlot : Slot := ⟨4, four_lt_maxProc⟩

theorem init_drains_run : ∃ s s' : Booted, Reached s ∧ s.machine.dead [testcaseSlot, secondSlot] = [2, 3] ∧
    Transition.Forced step 4 s s' ∧ s'.halted = some 0 ∧ joined s'.machine.log = [2, 3] := by
  obtain ⟨s, reached, facts⟩ := Transition.exists_run step start twoChildrenQuit (fun _ _ => true)
    (fun _ _ _ => trivial) (fun s => decide (s.stage = .switched ∧ s.AtInit ∧ s.machine.stopped = none ∧
      s.halted = none ∧ s.machine.kernel.children initSlot = some testcaseSlot ∧
      s.machine.kernel.next testcaseSlot = some secondSlot ∧ s.machine.kernel.next secondSlot = none ∧
      s.machine.dead [testcaseSlot, secondSlot] = [2, 3] ∧ joined s.machine.log = [])) (by decide +kernel)
  obtain ⟨back, atInit, goesOn, unhalted, first, second, last, dead, nobody⟩ := of_decide_eq_true facts
  have leads : Leads s.machine.kernel.next (s.machine.kernel.children initSlot) [testcaseSlot, secondSlot] none :=
    ⟨first, second, last⟩
  obtain ⟨s', forced, halted, log, _⟩ := init_drains reached back atInit goesOn unhalted leads
  rw [dead, nobody] at log
  rw [dead] at forced
  exact ⟨s, s', reached, dead, forced, halted, log⟩

end Booted

end UslossKernel.Phase1a
