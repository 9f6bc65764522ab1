import Mathlib.Data.List.Perm.Basic
import UslossKernel.PidResidues
import UslossKernel.QuitWakes

namespace UslossKernel.Phase3

open LinkedList Phase1b

/-- The loop of `sys_terminate`: the call that follows when the last `join` has
returned `retval`. -/
def sys_terminate (outstatus : Int) : Option Int → Phase1b.Call
  | none => .join true
  | some retval => if retval ≠ -2 ∧ retval ≠ -3 then .join true else .quit true outstatus

/-- What a turn returns to its process. -/
def answer (m m' : Machine) : Option Int :=
  if m'.log.length ≤ m.log.length then none
  else match m'.log.head? with
    | some (.returned _ _ value _) => some value
    | _ => none

/-- A process inside `sys_terminate`. `joins` is history: what its joins have
returned. `left` says that it has called `quit`. -/
structure Terminating where
  machine : Machine
  retval : Option Int
  joins : List Int
  left : Bool

namespace Terminating

def enter (m : Machine) : Terminating where
  machine := m
  retval := none
  joins := []
  left := false

/-- A turn of the process itself. -/
def ownTurn (s : Terminating) (t : Turn) (m : Machine) : Terminating :=
  match answer s.machine m with
  | some value => { s with machine := m, retval := some value, joins := s.joins ++ [value] }
  | none => { s with machine := m, left := t matches .call _ (.quit ..) }

/-- The process makes the calls of `sys_terminate`, and the others any. -/
def step (p : Slot) (outstatus : Int) (s : Terminating) (t : Turn) : Option Terminating :=
  if s.left = true ∨ t.process ≠ p then (s.machine.turn t).map fun m => { s with machine := m }
  else if t = .resume p ∨ t = .call p (sys_terminate outstatus s.retval) then
    (s.machine.turn t).map (s.ownTurn t)
  else none

end Terminating

instance (k : Kernel) (i p : Slot) : Decidable (k.childOf i p) :=
  inferInstanceAs (Decidable (k.occupied i = true ∧ (k.process_table i).parent = some p))

/-- The pids of the children of a process that have not been joined. -/
def unjoined (k : Kernel) (p : Slot) : List Int :=
  ((List.finRange maxProc).filter fun i => k.childOf i p).map fun i => (k.process_table i).pid

section unjoined
variable {k k' : Kernel} {p child : Slot}

theorem mem_unjoined {pid : Int} : pid ∈ unjoined k p ↔ ∃ i, k.childOf i p ∧ (k.process_table i).pid = pid := by
  simp [unjoined]

theorem unjoined_eq_nil : unjoined k p = [] ↔ ∀ i, ¬ k.childOf i p := by
  simp [unjoined]

theorem unjoined_nodup (family : Family k) : (unjoined k p).Nodup := by
  refine List.Nodup.map_on (fun i member j _ same => ?_) ((List.nodup_finRange _).filter _)
  have child : k.childOf i p := of_decide_eq_true (List.mem_filter.mp member).2
  exact family.distinct i j child.1 same

theorem unjoined_same (childOf : ∀ i, k'.childOf i p ↔ k.childOf i p)
    (pids : ∀ i, k.childOf i p → (k'.process_table i).pid = (k.process_table i).pid) :
    unjoined k' p = unjoined k p := by
  unfold unjoined
  simp only [childOf]
  refine List.map_congr_left fun i member => pids i ?_
  exact of_decide_eq_true (List.mem_filter.mp member).2

/-- A child that is joined is one of them, and the others are left. -/
theorem unjoined_without (isChild : k.childOf child p) (childOf : ∀ i, k'.childOf i p ↔ i ≠ child ∧ k.childOf i p)
    (pids : ∀ i, i ≠ child → (k'.process_table i).pid = (k.process_table i).pid) :
    ((k.process_table child).pid :: unjoined k' p).Perm (unjoined k p) := by
  have member : child ∈ (List.finRange maxProc).filter fun i => k.childOf i p :=
    List.mem_filter.mpr ⟨List.mem_finRange child, decide_eq_true isChild⟩
  have distinct : ((List.finRange maxProc).filter fun i => k.childOf i p).Nodup := (List.nodup_finRange _).filter _
  have rest : unjoined k' p =
      (((List.finRange maxProc).filter fun i => k.childOf i p).erase child).map fun i => (k.process_table i).pid := by
    unfold unjoined
    rw [distinct.erase_eq_filter, List.filter_filter]
    have same : (List.finRange maxProc).filter (fun i => k'.childOf i p) =
        (List.finRange maxProc).filter fun i => (i != child) && decide (k.childOf i p) := by
      refine List.filter_congr fun i _ => ?_
      rw [Bool.eq_iff_iff]
      simp [childOf]
    rw [same]
    refine List.map_congr_left fun i member => pids i ?_
    have kept := (List.mem_filter.mp member).2
    rw [Bool.and_eq_true, bne_iff_ne] at kept
    exact kept.1
  rw [rest]
  exact ((List.perm_cons_erase member).map fun i => (k.process_table i).pid).symm

end unjoined

/-- What the stretch of code of another process means for the family of `p`. -/
theorem keeps_children {k : Kernel} {p q : Slot} {pt : Phase1b.Point} {seg : Phase1b.Segment}
    (path : Phase1b.Path k q pt seg)
    (family : Family k) (running : k.running_process = some q) (alive : k.status q ≠ .terminated) (other : p ≠ q) :
    (∀ i, seg.1.childOf i p ↔ k.childOf i p) ∧
      ∀ i, k.childOf i p → (seg.1.process_table i).pid = (k.process_table i).pid := by
  have effect := path.effect alive
  cases effect with
  | quiet same => exact ⟨fun i => by rw [kin_childOf same.kin], fun i _ => kin_pid same.kin i⟩
  | @sporks _ slot _ _ _ sporked =>
    refine ⟨fun i => ?_, fun i child => sporked.pid_of_ne (sporked.apart child.1)⟩
    rw [sporked.childOf_iff running]
    simp [other]
  | @collects _ before child _ found =>
    have own := (family.found found).1
    have apart : ∀ i, k.childOf i p → i ≠ child := by
      rintro i isChild rfl
      exact other (Option.some.inj (isChild.2.symm.trans own.2))
    refine ⟨fun i => ?_, fun i isChild => collect_pid_of_ne (apart i isChild)⟩
    rw [collect_childOf]
    exact ⟨fun both => both.2, fun isChild => ⟨apart i isChild, isChild⟩⟩
  | quits _ _ died => exact ⟨fun i => by rw [kin_childOf died.kin], fun i _ => kin_pid died.kin i⟩

/-- Another process can only wake `p`. -/
theorem keeps_process {k : Kernel} {p q : Slot} {pt : Phase1b.Point} {seg : Phase1b.Segment}
    (path : Phase1b.Path k q pt seg) (other : p ≠ q)
    (occupied : k.occupied p = true) (alive : k.status p ≠ .terminated) :
    seg.1.occupied p = true ∧ (seg.1.status p = k.status p ∨ seg.1.status p = .runnable) := by
  have change := path.change p
  have pid : (seg.1.unlinked p).pid = (seg.1.process_table p).pid := rfl
  have status : (seg.1.unlinked p).status = seg.1.status p := rfl
  have named : (k.process_table p).pid ≠ -1 := of_decide_eq_true occupied
  unfold Kernel.occupied
  rw [← pid, ← status]
  generalize seg.1.unlinked p = e at change
  cases change with
  | same => exact ⟨decide_eq_true named, .inl rfl⟩
  | created free => exact absurd (occupied.symm.trans free) (by decide)
  | blocks here => exact absurd here other
  | collected dead => exact absurd dead alive
  | died here => exact absurd here other
  | parentWoken | zapperWoken | unblocked => exact ⟨decide_eq_true named, .inr rfl⟩

/-- The process of an entry has its stack. -/
def Stacked (k : Kernel) : Prop := ∀ i, k.occupied i = true → (k.process_table i).stack = true

theorem stack_of_unlinked {k : Kernel} {e : Process} {j : Slot} (atJ : k.unlinked j = e) :
    (k.process_table j).stack = e.stack := by
  subst atJ
  rfl

theorem Stacked.path {k : Kernel} {q : Slot} {pt : Phase1b.Point} {seg : Phase1b.Segment} (stacked : Stacked k)
    (path : Phase1b.Path k q pt seg) : Stacked seg.1 := by
  intro i occupied
  have named : (seg.1.process_table i).pid ≠ -1 := of_decide_eq_true occupied
  rcases path.pids with ⟨_, slot, _, _, sporked⟩ | ⟨_, pids⟩
  · by_cases here : i = slot
    · subst here
      obtain ⟨startFunc, priority, _, _, fields⟩ := sporked.fields
      have same := Kernel.unlinked_field Process.stack (fun _ => rfl) (fields i)
      rw [Kernel.newProcess_self] at same
      exact same
    · have same := Kernel.unlinked_field Process.stack (fun _ => rfl) (sporked.other here)
      exact same.trans (stacked i ((sporked.occupied_of_ne here).symm.trans occupied))
  · have taken : k.occupied i = true := decide_eq_true fun free => named (((pids i).resolve_right named).trans free)
    have change := path.change i
    generalize atI : seg.1.unlinked i = e at change
    have stack := stack_of_unlinked atI
    cases change with
    | created free => exact absurd (taken.symm.trans free) (by decide)
    | collected => exact absurd (congrArg Process.pid atI) named
    | same | blocks | died | parentWoken | zapperWoken | unblocked => exact stack.trans (stacked i taken)

open Machine

theorem Stacked.turn {m m' : Machine} {t : Turn} (stacked : Stacked m.kernel) (taken : Taken m t m') :
    Stacked m'.kernel := by
  cases taken with
  | begins | halts => exact stacked
  | returns ready goes => exact Stacked.path (k := (m.give _).kernel) stacked (ready.path goes)
  | yields ready goes => exact Stacked.path (k := (m.give _).kernel) stacked (ready.path goes)
  | @stops q pt => cases pt <;> exact stacked

theorem stacked_of_ordered {m : Machine} (ordered : Ordered m) : Stacked m.kernel :=
  Transition.Run.invariant ordered (fun m => Stacked m.kernel) (by unfold Stacked; decide) fun _ _ _ stacked _ moves =>
    stacked.turn (turn_taken moves)

/-- `p` is inside `sys_terminate`: between two calls, or in a `join` that waits for a child. -/
structure Inside (m : Machine) (p : Slot) : Prop where
  occupied : m.kernel.occupied p = true
  place : m.place p = .user ∧ m.kernel.status p = .runnable ∨
    m.place p = .inside .join ∧ m.kernel.status p ≠ .terminated ∧ ∃ i, m.kernel.childOf i p

theorem Inside.alive {m : Machine} {p : Slot} (inside : Inside m p) : m.kernel.status p ≠ .terminated := by
  rcases inside.place with ⟨_, awake⟩ | ⟨_, alive, _⟩
  · simp [awake]
  · exact alive

theorem Inside.kept {m m' : Machine} {p : Slot} (inside : Inside m p) (occupied : m'.kernel.occupied p = true)
    (status : m'.kernel.status p = m.kernel.status p ∨ m'.kernel.status p = .runnable)
    (place : m'.place p = m.place p) (childOf : ∀ i, m'.kernel.childOf i p ↔ m.kernel.childOf i p) : Inside m' p := by
  refine ⟨occupied, ?_⟩
  rw [place]
  rcases inside.place with ⟨user, awake⟩ | ⟨joins, alive, i, child⟩
  · rw [awake, or_self] at status
    exact .inl ⟨user, status⟩
  · refine .inr ⟨joins, ?_, i, (childOf i).mpr child⟩
    rcases status with same | awake
    · rwa [same]
    · simp [awake]

theorem turn_process {p : Slot} {pt : Phase1b.Point} : (pt.turn p).process = p := by
  cases pt <;> rfl

/-- The turns of the others leave `p` where it is, with its children. -/
theorem Inside.others {m m' : Machine} {p : Slot} {t : Turn} (inside : Inside m p) (family : Family m.kernel)
    (taken : Taken m t m') (other : t.process ≠ p) :
    Inside m' p ∧ m'.place p = m.place p ∧ unjoined m'.kernel p = unjoined m.kernel p := by
  -- the code of another process, and then the place of `p`
  have stretch : ∀ {q pt k ending}, m.Ready q pt → q ≠ p → pt.exec (m.give q).kernel q = (k, ending) →
      m'.kernel = k → m'.place p = m.contexts k p →
      Inside m' p ∧ m'.place p = m.place p ∧ unjoined m'.kernel p = unjoined m.kernel p := by
    rintro q pt k ending ready apart goes rfl place
    have awake : (m.give q).kernel.status q ≠ .terminated := by
      rw [give_status, ready.runnable]
      decide
    have path := ready.path goes
    have family' : Family (m.give q).kernel :=
      ⟨family.children, family.childless, family.free, family.below, family.distinct⟩
    obtain ⟨childOf, pids⟩ := keeps_children path family' give_running awake apart.symm
    obtain ⟨occupied, status⟩ := keeps_process path apart.symm inside.occupied inside.alive
    have same : m'.place p = m.place p := place.trans (EntryTable.renewed_of_taken inside.occupied)
    exact ⟨inside.kept occupied status same childOf, same, unjoined_same childOf pids⟩
  cases taken with
  | @begins q =>
    have apart : p ≠ q := Ne.symm other
    have same : Function.update m.place q .user p = m.place p := Function.update_of_ne apart ..
    exact ⟨inside.kept inside.occupied (.inl rfl) same fun _ => .rfl, same, rfl⟩
  | returns ready goes =>
    rw [turn_process] at other
    exact stretch ready other goes rfl (back_place_of_ne other.symm)
  | yields ready goes =>
    rw [turn_process] at other
    exact stretch ready other goes rfl (switch_place_of_ne other.symm)
  | halts => exact ⟨inside.kept inside.occupied (.inl rfl) rfl fun _ => .rfl, rfl, rfl⟩
  | @stops q pt =>
    cases pt <;> exact ⟨inside.kept inside.occupied (.inl rfl) rfl fun _ => .rfl, rfl, rfl⟩

section own
variable {k : Kernel} {p : Slot} {pt : Phase1b.Point}

/-- Where `join` looks for a terminated child. -/
theorem exec_joins (running : k.running_process = some p) (joins : pt.joins = true) (some : k.children p ≠ none) :
    pt.exec k p = k.joinLoop p := by
  cases pt with
  | call c =>
    cases c with
    | join status =>
      have given : status = true := joins
      subst given
      simp only [Phase1b.Point.exec, Phase1b.Call.exec, Kernel.join, running]
      rw [if_neg (by decide), if_neg (show (k.process_table p).children ≠ none from some)]
    | _ => cases joins
  | resume inside =>
    cases inside with
    | join => rfl
    | _ => cases joins

theorem exec_childless (running : k.running_process = some p) (childless : k.children p = none) :
    (Phase1b.Point.call (.join true)).exec k p = (k, .returns (-2) none) := by
  simp only [Phase1b.Point.exec, Phase1b.Call.exec, Kernel.join, running]
  rw [if_neg (by decide), if_pos (show (k.process_table p).children = none from childless)]

/-- Without children `quit` does not halt. -/
theorem quit_childless (running : k.running_process = some p) (childless : k.children p = none) (exit : Int) :
    (Phase1b.Point.call (.quit true exit)).exec k p = (k, .hangs .queue) ∨
      ∃ k', (Phase1b.Point.call (.quit true exit)).exec k p = (k', .dispatches (.quit exit)) := by
  simp only [Phase1b.Point.exec, Phase1b.Call.exec, Kernel.quit, running]
  rw [if_neg (by decide), if_neg (not_not.mpr (show (k.process_table p).children = none from childless))]
  cases (k.terminate p exit).remove_from_ready_queue p with
  | none => exact .inl rfl
  | some k' => exact .inr ⟨k', rfl⟩

/-- `join` finds a terminated child, or there is none. -/
theorem joinLoop_cases (family : Family k) :
    (∃ before child, k.childOf child p ∧ k.status child = .terminated ∧ k.joinLoop p = (k.collect p before child,
      .returns (k.process_table child).pid (some (k.process_table child).exit_status))) ∨
    (∀ i, k.childOf i p → k.status i ≠ .terminated) ∧
      k.joinLoop p = (k.modify p fun e => { e with status := .blocked }, .dispatches .join) := by
  obtain ⟨l, leads, members⟩ := family.children p
  have walk : (k.process_table p).children = k.children p := rfl
  rcases seek_leads (fun i => k.status i = .terminated) none leads leads.length_le_fin with
    ⟨absent, _⟩ | ⟨earlier, child, _, _, _, _, found⟩
  · right
    refine ⟨family.absent absent, ?_⟩
    unfold Kernel.joinLoop
    rw [walk, absent]
  · left
    obtain ⟨isChild, dead⟩ := family.found (p := p) found
    refine ⟨earlier.getLast?.or none, child, isChild, dead, ?_⟩
    unfold Kernel.joinLoop
    rw [walk, found]

variable {m m' : Machine}

/-- What a turn of `p` in a `join` can do. -/
inductive Joined (m : Machine) (p : Slot) (pt : Phase1b.Point) : Machine → Prop
  | found {before child} : m.kernel.childOf child p → m.kernel.status child = .terminated →
      Joined m p pt (((m.give p).enter p pt).back p pt.fn ((m.give p).kernel.collect p before child) (m.pid child)
        (some (m.kernel.process_table child).exit_status))
  | waits : (∃ i, m.kernel.childOf i p) → (∀ i, m.kernel.childOf i p → m.kernel.status i ≠ .terminated) →
      Joined m p pt (((m.give p).enter p pt).switch p .join
        ((m.give p).kernel.modify p fun e => { e with status := .blocked }))
  | childless : m.kernel.children p = none →
      Joined m p pt (((m.give p).enter p pt).back p pt.fn (m.give p).kernel (-2) none)

theorem runOn_eq {ending : Ending} (goes : pt.exec (m.give p).kernel p = (k, ending)) :
    (m.give p).runOn p pt = ((m.give p).enter p pt).yieldOrSettle p pt.fn (k, ending) := by
  unfold runOn
  rw [goes]

theorem runOn_joined (family : Family m.kernel) (joins : pt.joins = true)
    (waited : pt = .call (.join true) ∨ ∃ i, m.kernel.childOf i p) : Joined m p pt ((m.give p).runOn p pt) := by
  have family' : Family (m.give p).kernel :=
    ⟨family.children, family.childless, family.free, family.below, family.distinct⟩
  by_cases childless : m.kernel.children p = none
  · obtain rfl : pt = .call (.join true) := by
      rcases waited with first | ⟨i, child⟩
      · exact first
      · exact absurd child (family.childless_iff.mp childless i)
    rw [runOn_eq (exec_childless give_running childless)]
    exact .childless childless
  · have goes := exec_joins (k := (m.give p).kernel) give_running joins childless
    have some : ∃ i, m.kernel.childOf i p := by
      by_contra nobody
      exact childless (family.childless_iff.mpr fun i child => nobody ⟨i, child⟩)
    rcases joinLoop_cases (p := p) family' with ⟨before, child, isChild, dead, loop⟩ | ⟨alive, loop⟩
    · rw [runOn_eq (goes.trans loop)]
      exact .found isChild dead
    · rw [runOn_eq (goes.trans loop)]
      exact .waits some alive

end own

section answer
variable {m : Machine} {p : Slot} {pt : Phase1b.Point} {fn : Phase1b.Fn} {k : Kernel} {value : Int}
  {status : Option Int}

theorem answer_back : answer m (((m.give p).enter p pt).back p fn k value status) = some value := by
  cases pt <;> simp +arith [answer, Machine.back, Machine.enter]

theorem answer_switch {inside : Phase1b.Inside} :
    answer m (((m.give p).enter p pt).switch p inside k) = none := by
  cases pt <;> simp +arith [answer, Machine.switch, Machine.enter]

theorem answer_stop {reason : Stop} : answer m (((m.give p).enter p pt).stop reason) = none := by
  cases pt <;> simp +arith [answer, stop, Machine.enter]

end answer

namespace Terminating

/-- How far a process has come in `sys_terminate`, which began in the state `m₀`. -/
inductive Reaping (m₀ : Machine) (p : Slot) (s : Terminating) : Prop
  | joins {returned : List Int} : s.left = false → Inside s.machine p → s.joins = returned →
      s.retval = returned.getLast? → (returned ++ unjoined s.machine.kernel p).Perm (unjoined m₀.kernel p) →
      Reaping m₀ p s
  | last {returned : List Int} : s.left = false → Inside s.machine p → s.machine.place p = .user →
      s.joins = returned ++ [-2] → s.retval = some (-2) → returned.Perm (unjoined m₀.kernel p) →
      unjoined s.machine.kernel p = [] → Reaping m₀ p s
  | gone {returned : List Int} : s.left = true → s.joins = returned ++ [-2] →
      returned.Perm (unjoined m₀.kernel p) → Reaping m₀ p s

variable {m₀ m' : Machine} {p : Slot} {outstatus : Int} {s s' : Terminating} {t : Turn} {returned : List Int}

/-- While children are returned, the next call is another `join`. -/
theorem sys_terminate_joins (positive : ∀ pid ∈ returned, 0 < pid) :
    sys_terminate outstatus returned.getLast? = .join true := by
  cases last : returned.getLast? with
  | none => rfl
  | some retval =>
    have least := positive retval (List.mem_of_getLast? last)
    exact if_pos (by omega)

theorem ownTurn_machine : (s.ownTurn t m').machine = m' := by
  unfold ownTurn
  split <;> rfl

theorem step_machine (moves : s.step p outstatus t = some s') : s.machine.turn t = some s'.machine := by
  unfold step at moves
  split at moves
  · obtain ⟨m, taken, rfl⟩ := Option.map_eq_some_iff.mp moves
    exact taken
  split at moves
  · obtain ⟨m, taken, rfl⟩ := Option.map_eq_some_iff.mp moves
    rw [taken, ownTurn_machine]
  · cases moves

theorem joins_calls {pt : Phase1b.Point} (joins : pt.joins = true) :
    (pt.turn p matches .call _ (.quit ..)) = false := by
  cases pt with
  | resume => rfl
  | call c => cases c <;> first | rfl | cases joins

/-- A turn in which `p` joins. -/
theorem reaping_joined {pt : Phase1b.Point} {machine : Machine} (joined : Joined s.machine p pt machine)
    (joins : pt.joins = true) (family : Family s.machine.kernel) (stays : s.left = false)
    (occupied : s.machine.kernel.occupied p = true) (retval : s.retval = s.joins.getLast?)
    (runnable : s.machine.kernel.status p = .runnable)
    (children : (s.joins ++ unjoined s.machine.kernel p).Perm (unjoined m₀.kernel p)) :
    Reaping m₀ p (s.ownTurn (pt.turn p) machine) := by
  cases joined with
  | @found before child isChild dead =>
    have own := @answer_back s.machine p pt pt.fn ((s.machine.give p).kernel.collect p before child)
      (s.machine.pid child) (some (s.machine.kernel.process_table child).exit_status)
    have apart : p ≠ child := by
      rintro rfl
      exact absurd (dead.symm.trans runnable) (by decide)
    have without := @unjoined_without _ ((s.machine.give p).kernel.collect p before child) _ _ isChild
      (fun i => collect_childOf i p) (fun i other => collect_pid_of_ne other)
    unfold ownTurn
    rw [own]
    refine @Reaping.joins _ _ _ (s.joins ++ [s.machine.pid child]) stays ⟨?_, .inl ⟨back_place_self, ?_⟩⟩ rfl ?_ ?_
    · exact (Kernel.collect_occupied_of_ne apart).trans occupied
    · exact (Kernel.collect_status p).trans runnable
    · simp
    · rw [List.append_assoc]
      exact (without.append_left s.joins).trans children
  | @waits some alive =>
    have own := @answer_switch s.machine p pt
      ((s.machine.give p).kernel.modify p fun e => { e with status := .blocked }) .join
    have kin : ∀ j, (((s.machine.give p).kernel.modify p fun e => { e with status := .blocked }).process_table j).kin =
        (s.machine.kernel.process_table j).kin := Kernel.modify_field Process.kin (fun _ => by rfl)
    have childOf := kin_childOf (k := s.machine.kernel) kin
    have same : unjoined ((s.machine.give p).kernel.modify p fun e => { e with status := .blocked }) p =
        unjoined s.machine.kernel p :=
      unjoined_same (fun i => by rw [childOf]) fun i _ => kin_pid (k := s.machine.kernel) kin i
    unfold ownTurn
    rw [own]
    refine @Reaping.joins _ _ _ s.joins (joins_calls joins) ⟨?_, .inr ⟨switch_place_self, ?_, ?_⟩⟩ rfl retval ?_
    · exact (congrFun (kin_occupied (k := s.machine.kernel) kin) p).trans occupied
    · show ((s.machine.give p).kernel.modify p fun e => { e with status := .blocked }).status p ≠ .terminated
      rw [Kernel.status_modify_self]
      simp
    · obtain ⟨i, child⟩ := some
      exact ⟨i, by rwa [← childOf] at child⟩
    · exact same ▸ children
  | childless nobody =>
    have own := @answer_back s.machine p pt pt.fn (s.machine.give p).kernel (-2) none
    have empty := unjoined_eq_nil.mpr (family.childless_iff.mp nobody)
    unfold ownTurn
    rw [own]
    rw [empty, List.append_nil] at children
    exact @Reaping.last _ _ _ s.joins stays ⟨occupied, .inl ⟨back_place_self, runnable⟩⟩ back_place_self rfl rfl
      children empty

/-- `quit` does not come back. -/
theorem answer_quit {m : Machine} {kernelMode : Bool} {status : Int} :
    answer m ((m.give p).runOn p (.call (.quit kernelMode status))) = none := by
  unfold runOn yieldOrSettle settle
  cases ends : ((Phase1b.Point.call (.quit kernelMode status)).exec (m.give p).kernel p).2 with
  | returns value exit =>
    have goes : (m.give p).kernel.quit kernelMode status = (((m.give p).kernel.quit kernelMode status).1,
        .returns value exit) := Prod.ext rfl ends
    exact absurd goes quit_never_returns
  | dispatches => exact answer_switch
  | halts | hangs | crashes => exact answer_stop

/-- What a turn of `p` can do: it is at a `join` while children are left to be
joined, and at `quit` afterwards. -/
inductive Own (m₀ : Machine) (p : Slot) (outstatus : Int) (s : Terminating) : Turn → Terminating → Prop
  | joins {pt : Phase1b.Point} {m' : Machine} : pt.joins = true → Joined s.machine p pt m' → s.machine.Ready p pt →
      s.retval = s.joins.getLast? → (s.joins ++ unjoined s.machine.kernel p).Perm (unjoined m₀.kernel p) →
      Own m₀ p outstatus s (pt.turn p) (s.ownTurn (pt.turn p) m')
  | crashes : Phase3.Inside s.machine p → s.retval = s.joins.getLast? →
      (s.joins ++ unjoined s.machine.kernel p).Perm (unjoined m₀.kernel p) →
      Own m₀ p outstatus s (.resume p) { s with machine := s.machine.stop .crashed, left := false }
  | quits {returned : List Int} : s.joins = returned ++ [-2] → returned.Perm (unjoined m₀.kernel p) →
      unjoined s.machine.kernel p = [] → s.machine.Ready p (.call (.quit true outstatus)) →
      Own m₀ p outstatus s (.call p (.quit true outstatus))
        { s with machine := (s.machine.give p).runOn p (.call (.quit true outstatus)), left := true }

theorem Reaping.own_joins (moves : s.machine.turn t = some m') (family : Family s.machine.kernel)
    (own : t = .resume p ∨ t = .call p (.join true)) (inside : Phase3.Inside s.machine p)
    (retval : s.retval = s.joins.getLast?)
    (children : (s.joins ++ unjoined s.machine.kernel p).Perm (unjoined m₀.kernel p)) :
    Own m₀ p outstatus s t (s.ownTurn t m') := by
  rcases own with rfl | rfl
  · rcases inside.place with ⟨user, _⟩ | ⟨joins, _, child⟩
    · exact absurd moves (by simp [turn, Turn.process, user])
    · obtain ⟨ready, rfl | rfl⟩ := turn_resume joins moves
      · exact @Own.joins _ _ _ _ (.resume .join) _ rfl (runOn_joined family rfl (.inr child)) ready retval children
      · have silent : answer s.machine (s.machine.stop .crashed) = none := by simp [answer, stop]
        have crashed : s.ownTurn (.resume p) (s.machine.stop .crashed) =
            { s with machine := s.machine.stop .crashed, left := false } := by
          unfold ownTurn
          rw [silent]
        rw [crashed]
        exact .crashes inside retval children
  · obtain ⟨ready, rfl⟩ := turn_call moves
    exact @Own.joins _ _ _ _ (.call (.join true)) _ rfl (runOn_joined family rfl (.inl rfl)) ready retval children

theorem Reaping.own (reaping : Reaping m₀ p s) (family : Family s.machine.kernel)
    (positive : ∀ pid ∈ unjoined m₀.kernel p, 0 < pid) (stays : s.left = false) (mine : t.process = p)
    (moves : s.step p outstatus t = some s') : Own m₀ p outstatus s t s' := by
  unfold Terminating.step at moves
  rw [if_neg (by simp [stays, mine])] at moves
  split at moves
  · rename_i own
    obtain ⟨m, taken, rfl⟩ := Option.map_eq_some_iff.mp moves
    cases reaping with
    | @joins returned _ inside record retval children =>
      subst record
      have more : sys_terminate outstatus s.retval = .join true := by
        rw [retval]
        refine sys_terminate_joins fun pid member => positive pid (children.subset ?_)
        exact List.mem_append_left _ member
      rw [more] at own
      exact Reaping.own_joins taken family own inside retval children
    | @last returned _ inside user record retval all nobody =>
      rw [retval] at own
      rcases own with rfl | rfl
      · exact absurd taken (by simp [turn, Turn.process, user])
      · obtain ⟨ready, rfl⟩ := turn_call taken
        have left : (s.ownTurn (.call p (sys_terminate outstatus (some (-2))))
            ((s.machine.give p).runOn p (.call (sys_terminate outstatus (some (-2)))))) = { s with
              machine := (s.machine.give p).runOn p (.call (.quit true outstatus)), left := true } := by
          unfold ownTurn
          rw [show sys_terminate outstatus (some (-2)) = .quit true outstatus from rfl, answer_quit]
        rw [left]
        exact .quits record all nobody ready
    | gone left => exact absurd (stays.symm.trans left) (by decide)
  · cases moves

/-- The turns of `p` keep count of its children. -/
theorem Own.reaping (own : Own m₀ p outstatus s t s') (stays : s.left = false) (family : Family s.machine.kernel) :
    Reaping m₀ p s' := by
  cases own with
  | joins joins joined ready retval children =>
    exact reaping_joined joined joins family stays ready.occupied retval ready.runnable children
  | crashes inside retval children =>
    exact @Reaping.joins _ _ _ s.joins rfl ⟨inside.occupied, inside.place⟩ rfl retval children
  | quits record all => exact .gone rfl record all

theorem Reaping.step (reaping : Reaping m₀ p s) (family : Family s.machine.kernel)
    (positive : ∀ pid ∈ unjoined m₀.kernel p, 0 < pid) (moves : s.step p outstatus t = some s') :
    Reaping m₀ p s' := by
  by_cases own : s.left = false ∧ t.process = p
  · exact (reaping.own family positive own.1 own.2 moves).reaping own.1 family
  have other : s.left = false → t.process ≠ p := fun stays mine => own ⟨stays, mine⟩
  unfold Terminating.step at moves
  have first : s.left = true ∨ t.process ≠ p := by
    cases left : s.left with
    | true => exact .inl rfl
    | false => exact .inr (other left)
  rw [if_pos first] at moves
  obtain ⟨m, taken, rfl⟩ := Option.map_eq_some_iff.mp moves
  cases reaping with
  | joins stays inside record retval children =>
    obtain ⟨inside', _, same⟩ := inside.others family (turn_taken taken) (other stays)
    exact .joins stays inside' record retval (same ▸ children)
  | last stays inside user record retval all nobody =>
    obtain ⟨inside', place, same⟩ := inside.others family (turn_taken taken) (other stays)
    exact .last stays inside' (place.trans user) record retval all (same.trans nobody)
  | gone left record all => exact .gone left record all

/-- A turn of `p` does not halt the machine. -/
theorem Own.never_halts (own : Own m₀ p outstatus s t s') (family : Family s.machine.kernel) (code : Int) :
    s'.machine.stopped ≠ some (.halted code) := by
  cases own with
  | joins joins joined ready =>
    rw [ownTurn_machine]
    have goesOn := ready.goesOn
    cases joined <;> simp [Machine.back, Machine.switch, goesOn]
  | crashes => simp [stop]
  | quits _ _ nobody ready =>
    have childless : (s.machine.give p).kernel.children p = none :=
      family.childless_iff.mpr (unjoined_eq_nil.mp nobody)
    rcases quit_childless give_running childless outstatus with hangs | ⟨k', dispatches⟩
    · rw [runOn_eq hangs]
      simp [yieldOrSettle, settle, stop]
    · rw [runOn_eq dispatches]
      simp [yieldOrSettle, Machine.switch, ready.goesOn]

/-- `p` can come to its `quit` by turns of its own. -/
def Finishes (p : Slot) (outstatus : Int) (s : Terminating) : Prop :=
  ∃ turns s', (∀ t ∈ turns, t.process = p) ∧
    Transition.execute (step p outstatus) (fun _ _ => true) s turns = some s' ∧ s'.left = true

theorem Finishes.of_left (left : s.left = true) : Finishes p outstatus s :=
  ⟨[], s, by simp, rfl, left⟩

theorem Finishes.first (finishes : Finishes p outstatus s') (mine : t.process = p)
    (moves : s.step p outstatus t = some s') : Finishes p outstatus s := by
  obtain ⟨turns, s'', own, executed, left⟩ := finishes
  refine ⟨t :: turns, s'', fun u member => ?_, ?_, left⟩
  · rcases List.mem_cons.mp member with rfl | later
    · exact mine
    · exact own u later
  · simp [Transition.execute, moves, executed]

theorem step_own {pt : Phase1b.Point} (stays : s.left = false) (ready : s.machine.Ready p pt)
    (stack : (s.machine.kernel.process_table p).stack = true)
    (follows : pt.turn p = .resume p ∨ pt.turn p = .call p (sys_terminate outstatus s.retval)) :
    s.step p outstatus (pt.turn p) = some (s.ownTurn (pt.turn p) ((s.machine.give p).runOn p pt)) := by
  unfold step
  rw [if_neg (by simp [stays, turn_process]), if_pos follows, ready.turn stack]
  rfl

theorem finishes_last (stays : s.left = false) (goesOn : s.machine.stopped = none) (inside : Phase3.Inside s.machine p)
    (user : s.machine.place p = .user) (stack : (s.machine.kernel.process_table p).stack = true)
    (retval : s.retval = some (-2)) : Finishes p outstatus s := by
  have runnable : s.machine.kernel.status p = .runnable := by
    rcases inside.place with ⟨_, awake⟩ | ⟨joins, _⟩
    · exact awake
    · exact absurd (user.symm.trans joins) (by simp)
  have ready : s.machine.Ready p (.call (.quit true outstatus)) :=
    ⟨goesOn, inside.occupied, runnable, .inl ⟨_, rfl, user⟩⟩
  have moves := @step_own _ outstatus _ _ stays ready stack (.inr (by rw [retval]; rfl))
  refine Finishes.first (.of_left ?_) turn_process moves
  unfold ownTurn
  rw [answer_quit]
  rfl

/-- When all the children that are left have terminated, `p` joins them and quits. -/
theorem Reaping.finishes {n : Nat} (reaping : Reaping m₀ p s) (ordered : Ordered s.machine)
    (positive : ∀ pid ∈ unjoined m₀.kernel p, 0 < pid) (stays : s.left = false) (goesOn : s.machine.stopped = none)
    (dead : ∀ i, s.machine.kernel.childOf i p → s.machine.kernel.status i = .terminated)
    (left : (unjoined s.machine.kernel p).length = n) : Finishes p outstatus s := by
  -- the induction is on the number of children that are left
  induction n using Nat.strong_induction_on generalizing s with
  | _ n ih =>
  have family := ordered.ledger.family
  have stacked := stacked_of_ordered ordered
  cases reaping with
  | gone isLeft => exact .of_left isLeft
  | last _ inside user _ retval => exact finishes_last stays goesOn inside user (stacked p inside.occupied) retval
  | @joins returned _ inside record retval children =>
    subst record
    have more : sys_terminate outstatus s.retval = .join true := by
      rw [retval]
      refine sys_terminate_joins fun pid member => positive pid (children.subset ?_)
      exact List.mem_append_left _ member
    obtain ⟨pt, joins, ready, waited, follows⟩ : ∃ pt : Phase1b.Point, pt.joins = true ∧ s.machine.Ready p pt ∧
        (pt = .call (.join true) ∨ ∃ i, s.machine.kernel.childOf i p) ∧
        (pt.turn p = .resume p ∨ pt.turn p = .call p (sys_terminate outstatus s.retval)) := by
      rcases inside.place with ⟨user, awake⟩ | ⟨waits, alive, i, child⟩
      · exact ⟨.call (.join true), rfl, ⟨goesOn, inside.occupied, awake, .inl ⟨_, rfl, user⟩⟩, .inl rfl,
          .inr (by rw [more]; rfl)⟩
      · refine ⟨.resume .join, rfl, ⟨goesOn, inside.occupied, ?_, .inr ⟨_, rfl, waits⟩⟩, .inr ⟨i, child⟩, .inl rfl⟩
        cases status : s.machine.kernel.status p with
        | runnable => rfl
        | blocked => exact absurd (dead i child) ((quit_loses_no_wakeup ordered).1 p status waits i child)
        | terminated => exact absurd status alive
    have moves := @step_own _ outstatus _ _ stays ready (stacked p inside.occupied) follows
    have joined := runOn_joined family joins waited
    have ordered' : Ordered ((s.machine.give p).runOn p pt) := by
      have turned := step_machine moves
      rw [ownTurn_machine] at turned
      exact Transition.Run.next ordered trivial turned
    have reaping' := reaping_joined joined joins family stays inside.occupied retval ready.runnable children
    refine Finishes.first ?_ turn_process moves
    generalize (s.machine.give p).runOn p pt = next at joined ordered' reaping'
    cases joined with
    | waits some alive =>
      obtain ⟨i, child⟩ := some
      exact absurd (dead i child) (alive i child)
    | @found before child isChild =>
      have without := @unjoined_without _ ((s.machine.give p).kernel.collect p before child) _ _ isChild
        (fun i => collect_childOf i p) (fun i other => collect_pid_of_ne other)
      have fewer := without.length_eq
      rw [List.length_cons] at fewer
      refine ih _ ?_ reaping' (by rwa [ownTurn_machine]) ?_ ?_ (fun i isChild' => ?_) rfl
      · rw [ownTurn_machine]
        exact Nat.lt_of_lt_of_le (Nat.lt_of_succ_le fewer.le) left.le
      · unfold ownTurn
        rw [answer_back]
        exact stays
      · rw [ownTurn_machine]
        simpa [Machine.back] using goesOn
      · rw [ownTurn_machine] at isChild' ⊢
        exact (Kernel.collect_status i).trans (dead i ((collect_childOf i p).mp isChild').2)
    | childless nobody =>
      have last : s.ownTurn (pt.turn p) (((s.machine.give p).enter p pt).back p pt.fn (s.machine.give p).kernel (-2)
          none) = { s with machine := ((s.machine.give p).enter p pt).back p pt.fn (s.machine.give p).kernel (-2) none
                           retval := some (-2), joins := s.joins ++ [-2] } := by
        unfold ownTurn
        rw [answer_back]
      rw [last]
      refine finishes_last stays ?_ ⟨inside.occupied, .inl ⟨back_place_self, ready.runnable⟩⟩ back_place_self
        (stacked p inside.occupied) rfl
      simpa [Machine.back] using goesOn

/-- What `sys_terminate` has done in a state of a run in which it began in `m₀`:
the joins have returned children, each once, and a last one -2 when none is left. -/
structure Reaps (m₀ : Machine) (p : Slot) (outstatus : Int) (s : Terminating) : Prop where
  joins : s.left = false → ∃ returned, (returned ++ unjoined s.machine.kernel p).Perm (unjoined m₀.kernel p) ∧
    (s.joins = returned ∨ s.joins = returned ++ [-2] ∧ unjoined s.machine.kernel p = [])
  quits : ∀ t s', s.left = false → s.step p outstatus t = some s' → s'.left = true →
    t = .call p (.quit true outstatus) ∧ s.machine.kernel.children p = none ∧
      ∃ returned, s.joins = returned ++ [-2] ∧ returned.Perm (unjoined m₀.kernel p)
  goesOn : ∀ t s', s.left = false → t.process = p → s.step p outstatus t = some s' →
    ∀ code, s'.machine.stopped ≠ some (.halted code)
  finishes : s.left = false → s.machine.stopped = none →
    (∀ i, s.machine.kernel.childOf i p → s.machine.kernel.status i = .terminated) → Finishes p outstatus s

/-- `sys_terminate` joins all the children of the process, each once, before it calls `quit`. -/
theorem sys_terminate_reaps (ordered : Ordered m₀) (live : m₀.live p = true) (user : m₀.place p = .user)
    (run : Transition.Run (step p outstatus) (fun _ _ => True) (enter m₀) s) :
    (unjoined m₀.kernel p).Nodup ∧ s.Reaps m₀ p outstatus := by
  have ledger := ordered.ledger
  have positive : ∀ pid ∈ unjoined m₀.kernel p, 0 < pid := by
    intro pid member
    obtain ⟨i, child, rfl⟩ := mem_unjoined.mp member
    exact ledger.positive i child.1
  rw [Machine.live, Bool.and_eq_true, decide_eq_true_eq] at live
  have first : Reaping m₀ p (enter m₀) :=
    @Reaping.joins _ _ _ [] rfl ⟨live.1, .inl ⟨user, live.2⟩⟩ rfl rfl (.refl _)
  obtain ⟨reached, reaping⟩ := run.invariant (fun s => Ordered s.machine ∧ Reaping m₀ p s) ⟨ordered, first⟩
    fun s t s' both _ moves => ⟨Transition.Run.next both.1 trivial (step_machine moves),
      both.2.step both.1.ledger.family positive moves⟩
  have family := reached.ledger.family
  refine ⟨unjoined_nodup ledger.family, fun stays => ?_, fun t s' stays moves left => ?_,
    fun t s' stays mine moves => (reaping.own family positive stays mine moves).never_halts family,
    fun stays goesOn dead => reaping.finishes reached positive stays goesOn dead rfl⟩
  · cases reaping with
    | @joins returned _ _ record _ children => exact ⟨returned, children, .inl record⟩
    | @last returned _ _ _ record _ all nobody =>
      exact ⟨returned, by rwa [nobody, List.append_nil], .inr ⟨record, nobody⟩⟩
    | gone isLeft => exact absurd (stays.symm.trans isLeft) (by decide)
  · by_cases mine : t.process = p
    · cases reaping.own family positive stays mine moves with
      | joins joins =>
        unfold ownTurn at left
        split at left
        · exact absurd (stays.symm.trans left) (by decide)
        · exact absurd ((joins_calls joins).symm.trans left) (by decide)
      | crashes => cases left
      | @quits returned record all nobody =>
        exact ⟨rfl, family.childless_iff.mpr (unjoined_eq_nil.mp nobody), returned, record, all⟩
    · unfold step at moves
      rw [if_pos (.inr mine)] at moves
      obtain ⟨m, _, rfl⟩ := Option.map_eq_some_iff.mp moves
      exact absurd (stays.symm.trans left) (by decide)

/-- `init` creates `testcase_main`, which has two children; one of these quits. -/
def oneQuit : List Turn :=
  [.resume initSlot, .call initSlot (sporks 3), .resume testcaseSlot, .call testcaseSlot (sporks 4),
    .call testcaseSlot (sporks 5), .resume secondChildSlot, .call secondChildSlot (.quit true 7)]

/-- It joins that one and waits for the other. -/
def waitsForOther : List Turn :=
  [.call testcaseSlot (.join true), .call testcaseSlot (.join true), .resume childSlot,
    .call childSlot (.quit true 8), .resume testcaseSlot]

theorem sys_terminate_reaps_family : ∃ (m₀ : Machine) (s : Terminating), unjoined m₀.kernel testcaseSlot = [3, 4] ∧
    s.joins = [4, 3] ∧ (unjoined m₀.kernel testcaseSlot).Nodup ∧ s.Reaps m₀ testcaseSlot 9 := by
  obtain ⟨m₀, ordered, begun⟩ := exists_ordered oneQuit
    (fun m => m.live testcaseSlot && m.place testcaseSlot = .user && unjoined m.kernel testcaseSlot = [3, 4] &&
      (Transition.execute (step testcaseSlot 9) (fun _ _ => true) (enter m) waitsForOther).any fun s =>
        s.joins = [4, 3]) (by decide +kernel)
  simp only [Bool.and_eq_true, decide_eq_true_eq] at begun
  obtain ⟨⟨⟨live, user⟩, family⟩, executes⟩ := begun
  obtain ⟨s, executed, joined⟩ := Transition.exists_executed _ _ _ _ _ executes
  have run := (Transition.Run.of_executed executed).mono fun _ _ _ => trivial
  exact ⟨m₀, s, family, of_decide_eq_true joined, sys_terminate_reaps ordered live user run⟩

end Terminating

end UslossKernel.Phase3
