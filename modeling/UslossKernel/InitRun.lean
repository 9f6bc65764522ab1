import UslossKernel.ReadyQueues

namespace UslossKernel.Phase1b

open LinkedList Kernel

/-- Where `init_run` stands: it starts the service processes, or it has made the
call of `spork`, of `dispatcher` or of `join`. -/
inductive Stage
  | services
  | sporked
  | dispatched
  | joined
deriving DecidableEq, Repr

/-- What `init_run` does next: a call, and where it stands then, or `USLOSS_Halt`. -/
inductive Next
  | calls (c : Call) (stage : Stage)
  | halts (code : Int)
deriving DecidableEq, Repr

/-- The last call has returned `value`. -/
def init_run (malloc : Bool) : Stage → Int → Next
  | .services, _ => .calls (.spork true true malloc minStack 3) .sporked
  | .sporked, testcase_pid => if testcase_pid < 0 then .halts 1 else .calls .dispatcher .dispatched
  | .dispatched, _ => .calls (.join true) .joined
  | .joined, childPid => if childPid = -2 then .halts 0 else .calls (.join true) .joined

/-- The functions of phase 1 that the interrupt handlers call. -/
def Call.interrupts : Call → Bool
  | .dispatcher | .blockMe | .unblockProc _ => true
  | .spork .. | .join _ | .quit .. | .finish .. | .zap _ => false

/-- What a call of `spork` or `join` returns in this step. -/
def Machine.told (m m' : Machine) : Option Int :=
  if m'.log.length ≤ m.log.length then none
  else match m'.log.head? with
    | some (.returned _ .spork value _) | some (.returned _ .join value _) => some value
    | _ => none

/-- The kernel with its processes, of which `init` runs `init_run`. `value` is what the last `spork` or `join`
of `init` has returned, and `halted` the argument of the `USLOSS_Halt` of `init_run`. -/
structure Booted where
  machine : Machine
  stage : Stage
  value : Int
  halted : Option Int

/-- A step that `init_run` does not make, or the next thing that it does. -/
inductive BootAct
  | act (a : Act)
  | init (malloc : Bool)
deriving DecidableEq, Repr

namespace Booted

def start : Booted where
  machine := Machine.boot
  stage := .services
  value := 0
  halted := none

/-- While `init` runs, other calls than those of `init_run` are made by the
interrupt handlers, and by the functions that start the service processes. -/
def allows (s : Booted) : Act → Bool
  | .call c =>
    s.machine.kernel.running_process ≠ some initSlot || c.interrupts || s.stage = .services && c.fn = .spork
  | .start | .resume => true

def after (s : Booted) (stage : Stage) (m : Machine) : Booted :=
  { s with
    machine := m
    stage
    value := if s.machine.kernel.running_process = some initSlot then (s.machine.told m).getD s.value else s.value }

def step (s : Booted) (a : BootAct) : Option Booted :=
  if s.halted.isSome then none
  else match a with
  | .act a => if s.allows a then (s.machine.step a).map (s.after s.stage) else none
  | .init malloc =>
    if s.machine.stopped = none ∧ s.machine.kernel.running_process = some initSlot ∧
      s.machine.place initSlot = .user then
      match init_run malloc s.stage s.value with
      | .calls c stage => (s.machine.step (.call c)).map (s.after stage)
      | .halts code => some { s with halted := some code }
    else none

/-- The states of the runs from the start. -/
abbrev Reached (s : Booted) : Prop :=
  Transition.Run step (fun _ _ => True) start s

end Booted

section exec
variable {k k' : Kernel} {p : Slot} {pt : Point} {value : Int} {status : Option Int}

theorem Call.interrupts_returns {c : Call} (interrupts : c.interrupts = true)
    (goes : c.exec k = (k', .returns value status)) : k' = k := by
  cases c with
  | spork | join | quit | finish | zap => cases interrupts
  | dispatcher => cases goes
  | blockMe =>
    simp only [Call.exec, Kernel.blockMe] at goes
    split at goes <;> cases goes
  | unblockProc pid =>
    simp only [Call.exec, Kernel.unblockProc] at goes
    split at goes
    · cases goes
      rfl
    · split at goes <;> cases goes

/-- Only `join` has something to do when `dispatcher` returns to it. -/
theorem Inside.returns {inside : Inside} (other : inside ≠ .join)
    (goes : inside.exec k p = (k', .returns value status)) : k' = k := by
  cases inside with
  | join => exact absurd rfl other
  | spork | quit | blockMe | unblockProc | zap | dispatcher =>
    cases goes
    rfl

theorem Path.waits_joins (path : Path k p pt (k', .dispatches .join)) : pt.joins = true := by
  generalize ends : (k', Ending.dispatches .join) = seg at path
  cases path with
  | waits joins => exact joins
  | sporks _ _ ending =>
    cases ends
    rcases ending with ending | ending <;> cases ending
  | _ => cases ends

/-- `spork` calls `dispatcher` unless the caller has the higher priority. -/
theorem spork_returns {startFunc malloc : Bool} {stackSize priority : Int} (running : k.running_process = some p)
    (lowest : (k.process_table p).priority = 6) (occupied : k.occupied p = true)
    (goes : k.spork true startFunc malloc stackSize priority = (k', .returns value status)) : value < 0 := by
  unfold Kernel.spork at goes
  simp only [Bool.true_eq_false, if_false] at goes
  split at goes
  · cases goes
    decide
  split at goes
  · cases goes
    decide
  split at goes
  · cases goes
    decide
  rename_i slot free
  split at goes
  · cases goes
  split at goes
  · cases goes
  rename_i range _ _ _ linked atLinked
  split at goes
  · cases goes
  rename_i queued atQueued
  have sporked : Sporked k slot (queued.modify slot fun p => { p with next := none }) :=
    .intro free (by omega) (by omega) atLinked atQueued
  have runs : (queued.modify slot fun p => { p with next := none }).running_process = some p := by
    rw [modify_running, appendToQueue_running atQueued, linkChild_running atLinked]
    exact running
  generalize (queued.modify slot fun p => { p with next := none }) = after at sporked runs goes
  have kept := unlinked_field Process.priority (fun _ => rfl) (sporked.other (sporked.apart occupied))
  obtain ⟨_, _, _, most, _⟩ := sporked.created
  simp only [runs, kept, lowest] at goes
  rw [if_pos (by omega)] at goes
  cases goes

end exec

namespace Machine

variable {m m' : Machine} {a : Act}

/-- What is known of `init` while it runs `init_run`. Whoever has been switched to
and has not gone on yet is still the one that `dispatcher` selects. -/
structure InitRuns (m : Machine) : Prop where
  live : m.kernel.Live initSlot
  lowest : (m.kernel.process_table initSlot).priority = 6
  chosen : ∀ p, m.kernel.running_process = some p → m.place p ≠ .user → m.kernel.selected = some p
  apart : m.place initSlot ≠ .inside .join

namespace InitRuns

/-- A stretch of code that does not make `init` quit. -/
theorem path {k : Kernel} {p : Slot} {pt : Point} {seg : Segment} (path : Path k p pt seg) (live : k.Live initSlot)
    (lowest : (k.process_table initSlot).priority = 6) (stays : p = initSlot → ∀ status, pt.quits status = false) :
    seg.1.Live initSlot ∧ (seg.1.process_table initSlot).priority = 6 := by
  have change := path.change initSlot
  obtain ⟨taken, alive⟩ := live
  have kept : ∀ {e : Process}, seg.1.unlinked initSlot = e → e.pid = (k.unlinked initSlot).pid →
      e.status ≠ .terminated → e.priority = (k.unlinked initSlot).priority →
      seg.1.Live initSlot ∧ (seg.1.process_table initSlot).priority = 6 := by
    rintro _ rfl pid status priority
    refine ⟨⟨?_, status⟩, priority.trans lowest⟩
    unfold occupied at taken ⊢
    rwa [show (seg.1.process_table initSlot).pid = _ from pid]
  generalize atInit : seg.1.unlinked initSlot = e at change
  cases change with
  | same => exact kept atInit rfl alive rfl
  | created free => exact absurd (taken.symm.trans free) (by decide)
  | collected dead => exact absurd dead alive
  | died own quits => exact absurd (quits.symm.trans (stays own.symm _)) (by decide)
  | blocks | parentWoken | zapperWoken | unblocked => exact kept atInit rfl (by simp) rfl

/-- `init` makes no other calls than `spork` and those of the interrupt handlers. -/
theorem step (runs : m.InitRuns) (moves : m.step a = some m')
    (own : m.kernel.running_process = some initSlot → ∀ c, a = .call c → c.fn = .spork ∨ c.interrupts = true) :
    m'.InitRuns := by
  have stays : ∀ {p pt}, m.At p pt → a = pt.act → p = initSlot →
      (∀ status, pt.quits status = false) ∧ pt.joins = false := by
    rintro p pt here rfl rfl
    cases pt with
    | call c =>
      rcases own here.running c rfl with fn | interrupts
      · cases c <;> first | exact ⟨fun _ => rfl, rfl⟩ | cases fn
      · cases c <;> first | exact ⟨fun _ => rfl, rfl⟩ | cases interrupts
    | resume inside =>
      refine ⟨fun _ => rfl, ?_⟩
      cases inside with
      | join => exact absurd here.inside runs.apart
      | _ => rfl
  have others : ∀ {k p}, p ≠ initSlot → m.contexts k initSlot ≠ .inside .join := by
    intro k p _ joins
    exact runs.apart (contexts_inside joins).1
  generalize atAct : a = act at moves
  cases step_move moves with
  | starts running selected =>
    refine ⟨runs.live, runs.lowest, ?_, runs.apart⟩
    rintro p ⟨⟩ _
    exact selected
  | @begins p running place =>
    refine ⟨runs.live, runs.lowest, fun q atQ other => ?_, fun joins => ?_⟩
    · cases running.symm.trans atQ
      simp at other
    · by_cases here : initSlot = p
      · simp [here] at joins
      · exact runs.apart (by simpa [Function.update_of_ne here] using joins)
  | halts => exact ⟨runs.live, runs.lowest, runs.chosen, runs.apart⟩
  | @stops p pt =>
    cases pt <;> exact ⟨runs.live, runs.lowest, runs.chosen, runs.apart⟩
  | @returns p pt k value status here goes =>
    have path := here.path
    rw [goes] at path
    obtain ⟨live, lowest⟩ := InitRuns.path path runs.live runs.lowest fun own => (stays here atAct own).1
    refine ⟨live, lowest, fun q atQ other => ?_, fun joins => ?_⟩
    · have running : k.running_process = some p := path.running.trans here.running
      cases running.symm.trans atQ
      exact absurd back_place_self other
    · by_cases own : initSlot = p
      · subst own
        cases back_place_self.symm.trans joins
      · rw [back_place_of_ne own] at joins
        exact others (Ne.symm own) joins
  | @switches p pt k inside next here goes selected =>
    have path := here.path
    rw [goes] at path
    obtain ⟨live, lowest⟩ := InitRuns.path path runs.live runs.lowest fun own => (stays here atAct own).1
    refine ⟨live, lowest, ?_, fun joins => ?_⟩
    · rintro q ⟨⟩ _
      exact selected
    · by_cases own : initSlot = p
      · subst own
        cases switch_place_self.symm.trans joins
        exact absurd (path.waits_joins.symm.trans (stays here atAct rfl).2) (by decide)
      · rw [switch_place_of_ne own] at joins
        exact others (Ne.symm own) joins

/-- When `init` is back it is the one that `dispatcher` selects, and so it is
after what an interrupt handler has done. -/
theorem selected (runs : m.InitRuns) (moves : m.step a = some m') (goesOn : m'.stopped = none)
    (atInit : m'.kernel.running_process = some initSlot)
    (own : m.kernel.running_process = some initSlot → m.place initSlot = .user →
      m.kernel.selected = some initSlot ∧ ∀ c, a = .call c → c.interrupts = true) :
    m'.kernel.selected = some initSlot := by
  generalize atAct : a = act at moves
  cases step_move moves with
  | starts _ selected =>
    cases atInit
    exact selected
  | begins running place =>
    cases running.symm.trans atInit
    exact runs.chosen initSlot running (by simp [place])
  | halts => cases goesOn
  | @stops p pt => cases goesOn
  | @returns p pt k value status here goes =>
    have path := here.path
    rw [goes] at path
    have running : k.running_process = some p := path.running.trans here.running
    cases running.symm.trans atInit
    cases pt with
    | call c =>
      obtain ⟨selected, interrupts⟩ := own here.running here.user
      have same := Call.interrupts_returns (interrupts c atAct) goes
      subst same
      exact selected
    | resume inside =>
      have other : inside ≠ .join := by
        rintro rfl
        exact runs.apart here.inside
      have same := Inside.returns other goes
      subst same
      exact runs.chosen initSlot here.running (by simp [here.inside])
  | switches _ _ selected =>
    cases atInit
    exact selected

end InitRuns

theorem told_spork {p : Slot} {pt : Point} {k : Kernel} {value : Int} {status : Option Int} :
    m.told ((m.enter p pt).back p .spork k value status) = some value := by
  cases pt <;> simp +arith [told, Machine.back, Machine.enter]

/-- The interrupt handlers return nothing to `init_run`. -/
theorem told_interrupt (moves : m.step a = some m') (running : m.kernel.running_process = some initSlot)
    (user : m.place initSlot = .user) (interrupts : ∀ c, a = .call c → c.interrupts = true) : m.told m' = none := by
  generalize atAct : a = act at moves
  cases step_move moves with
  | starts | begins | halts => simp [told, stop]
  | @returns p pt k value status here =>
    cases pt with
    | call c =>
      have calm := interrupts c atAct
      cases c with
      | dispatcher | blockMe | unblockProc => simp +arith [told, Machine.back, Machine.enter, Point.fn, Call.fn]
      | spork | join | quit | finish | zap => cases calm
    | resume inside =>
      cases here.running.symm.trans running
      cases here.inside.symm.trans user
  | @switches p pt => cases pt <;> simp +arith [told, Machine.switch, Machine.enter]
  | @stops p pt => cases pt <;> simp +arith [told, stop, Machine.enter]

theorem boot_initRuns : boot.InitRuns where
  live := by unfold Kernel.Live; decide
  lowest := by decide
  chosen _ := by rintro ⟨⟩
  apart := by decide

end Machine

namespace Booted

variable {s s' : Booted} {m : Machine} {malloc : Bool}

/-- Where `init_run` can be, and that nothing is ready when it is back from `spork`. -/
structure Known (s : Booted) : Prop where
  runs : s.machine.InitRuns
  stages : s.stage = .services ∨ s.stage = .sporked ∨ s.stage = .dispatched ∧ s.machine.stopped = some (.halted 0)
  back : s.stage = .sporked → s.machine.stopped = none → s.machine.kernel.running_process = some initSlot →
    s.machine.place initSlot = .user → s.value < 0 ∨ s.machine.kernel.selected = some initSlot
  code : s.halted ≠ some 0

theorem Known.act {a : Act} (known : s.Known) (allowed : s.allows a = true) (moves : s.machine.step a = some m) :
    (s.after s.stage m).Known := by
  have goesOn : s.machine.stopped = none := by
    unfold Machine.step at moves
    split at moves
    · cases moves
    · simpa using ‹¬ s.machine.stopped.isSome = true›
  have own : s.machine.kernel.running_process = some initSlot → ∀ c, a = .call c →
      c.interrupts = true ∨ s.stage = .services ∧ c.fn = .spork := by
    rintro running c rfl
    simpa [allows, running] using allowed
  have runs : m.InitRuns := known.runs.step moves fun running c call => ((own running c call).imp_right And.right).symm
  rcases known.stages with services | sporked | ⟨_, stopped⟩
  · exact ⟨runs, .inl services, fun sporked => absurd (services.symm.trans sporked) (by decide), known.code⟩
  · refine ⟨runs, .inr (.inl sporked), fun _ goesOn' atInit user => ?_, known.code⟩
    have interrupts : s.machine.kernel.running_process = some initSlot → ∀ c, a = .call c → c.interrupts = true := by
      intro running c call
      refine (own running c call).resolve_right fun both => ?_
      exact absurd (sporked.symm.trans both.1) (by decide)
    by_cases failed : s.machine.kernel.running_process = some initSlot ∧ s.machine.place initSlot = .user ∧ s.value < 0
    · obtain ⟨running, before, negative⟩ := failed
      have told := Machine.told_interrupt moves running before (interrupts running)
      left
      simpa [after, running, told] using negative
    · refine .inr (known.runs.selected moves goesOn' atInit fun running before => ⟨?_, interrupts running⟩)
      exact (known.back sporked goesOn running before).resolve_left fun negative => failed ⟨running, before, negative⟩
  · cases goesOn.symm.trans stopped

theorem step_call {c : Call} (goesOn : s.machine.stopped = none)
    (running : s.machine.kernel.running_process = some initSlot) (user : s.machine.place initSlot = .user) :
    s.machine.step (.call c) = some (s.machine.run initSlot (.call c)) := by
  simp [Machine.step, goesOn, running, user]

/-- The call that creates `testcase_main`. -/
theorem Known.sporks (known : s.Known) (goesOn : s.machine.stopped = none)
    (running : s.machine.kernel.running_process = some initSlot) (user : s.machine.place initSlot = .user) :
    (s.after .sporked (s.machine.run initSlot (.call (.spork true true malloc minStack 3)))).Known := by
  have moves := step_call (c := .spork true true malloc minStack 3) goesOn running user
  have runs := known.runs.step moves fun _ c call => by
    cases call
    exact .inl rfl
  refine ⟨runs, .inr (.inl rfl), fun _ goesOn' atInit user' => ?_, known.code⟩
  generalize atRun : s.machine.run initSlot (.call (.spork true true malloc minStack 3)) = m at goesOn' atInit user'
  simp only [after] at goesOn' atInit user' ⊢
  unfold Machine.run Machine.settle at atRun
  split at atRun
  · rename_i value status ends
    left
    have negative : value < 0 :=
      spork_returns running known.runs.lowest known.runs.live.1 (Prod.ext rfl ends)
    subst atRun
    rw [if_pos running, show (Point.call (.spork true true malloc minStack 3)).fn = .spork from rfl,
      Machine.told_spork]
    exact negative
  · split at atRun
    · subst atRun
      cases Machine.switch_place_self.symm.trans user'
    · subst atRun
      cases goesOn'
  all_goals
    subst atRun
    cases goesOn'

/-- `dispatcher` finds nobody else. -/
theorem dispatcher_halts {m : Machine} (running : m.kernel.running_process = some initSlot)
    (selected : m.kernel.selected = some initSlot) :
    (m.run initSlot (.call .dispatcher)).stopped = some (.halted 0) := by
  have halts : m.kernel.dispatcher = none := by
    simp [Kernel.dispatcher, contextSwitch, selected, running]
  simp [Machine.run, Machine.settle, Point.exec, Call.exec, halts, Machine.stop]

theorem Known.init (known : s.Known) (moves : s.step (.init malloc) = some s') : s'.Known := by
  unfold step at moves
  split at moves
  · cases moves
  simp only [Option.ite_none_right_eq_some] at moves
  obtain ⟨⟨goesOn, running, user⟩, moves⟩ := moves
  rcases known.stages with services | sporked | ⟨_, stopped⟩
  · simp only [services, init_run, step_call goesOn running user] at moves
    cases moves
    exact known.sporks goesOn running user
  · simp only [sporked, init_run] at moves
    by_cases failed : s.value < 0
    · rw [if_pos failed] at moves
      cases moves
      exact ⟨known.runs, .inr (.inl rfl), fun _ => known.back sporked, by simp⟩
    · simp only [if_neg failed, step_call goesOn running user] at moves
      cases moves
      have selected := (known.back sporked goesOn running user).resolve_left failed
      have runs := known.runs.step (step_call (c := .dispatcher) goesOn running user) fun _ c call => by
        cases call
        exact .inr rfl
      exact ⟨runs, .inr (.inr ⟨rfl, dispatcher_halts running selected⟩), by rintro ⟨⟩, known.code⟩
  · cases goesOn.symm.trans stopped

theorem Reached.known (reached : Reached s) : s.Known := by
  refine reached.invariant Known ?_ fun before a s' known _ moves => ?_
  · exact ⟨Machine.boot_initRuns, .inl rfl, by rintro ⟨⟩, by rintro ⟨⟩⟩
  · cases a with
    | act a =>
      unfold step at moves
      split at moves
      · cases moves
      simp only [Option.ite_none_right_eq_some] at moves
      obtain ⟨allowed, moves⟩ := moves
      obtain ⟨m, moved, rfl⟩ := Option.map_eq_some_iff.mp moves
      exact known.act allowed moved
    | init => exact known.init moves

/-- `init_run` never comes to its loop: when it has the CPU back from `spork`,
`init` is what `dispatcher` selects, and the system halts with 0, whatever
processes there are. -/
theorem init_never_joins (reached : Reached s) : s.stage ≠ .joined ∧ s.halted ≠ some 0 ∧
    ∀ malloc s', s.stage = .sporked → s.step (.init malloc) = some s' → s'.halted = some 1 ∧ s.value < 0 ∨
      s.machine.kernel.selected = some initSlot ∧ s'.stage = .dispatched ∧ s'.machine.stopped = some (.halted 0) := by
  have known := reached.known
  refine ⟨fun joined => ?_, known.code, fun malloc s' sporked moves => ?_⟩
  · rcases known.stages with stage | stage | ⟨stage, _⟩ <;> exact absurd (stage.symm.trans joined) (by decide)
  · unfold step at moves
    split at moves
    · cases moves
    simp only [Option.ite_none_right_eq_some, sporked, init_run] at moves
    obtain ⟨⟨goesOn, running, user⟩, moves⟩ := moves
    by_cases failed : s.value < 0
    · rw [if_pos failed] at moves
      cases moves
      exact .inl ⟨rfl, failed⟩
    · simp only [if_neg failed, step_call goesOn running user] at moves
      cases moves
      have selected := (known.back sporked goesOn running user).resolve_left failed
      exact .inr ⟨selected, rfl, dispatcher_halts running selected⟩

/-- `testcase_main` quits, and `init` is back. -/
def testcaseQuits : List BootAct :=
  [.act .start, .act .resume, .init true, .act .resume, .act (.call (.quit true 0)), .act .resume]

/-- It halts although nobody has joined `testcase_main`. -/
theorem init_never_joins_run : ∃ s : Booted, s.machine.kernel.occupied Machine.testcaseSlot = true ∧
    s.stage = .sporked ∧ (s.step (.init true)).isSome = true ∧ (s.stage ≠ .joined ∧ s.halted ≠ some 0 ∧
    ∀ malloc s', s.stage = .sporked → s.step (.init malloc) = some s' → s'.halted = some 1 ∧ s.value < 0 ∨
      s.machine.kernel.selected = some initSlot ∧ s'.stage = .dispatched ∧
        s'.machine.stopped = some (.halted 0)) := by
  obtain ⟨s, reached, facts⟩ := Transition.exists_run step start testcaseQuits (fun _ _ => true)
    (fun _ _ _ => trivial) (fun s => decide (s.machine.kernel.occupied Machine.testcaseSlot = true ∧
      s.stage = .sporked ∧ (s.step (.init true)).isSome = true)) (by decide +kernel)
  obtain ⟨taken, sporked, moves⟩ := of_decide_eq_true facts
  exact ⟨s, taken, sporked, moves, init_never_joins reached⟩

end Booted

end UslossKernel.Phase1b
