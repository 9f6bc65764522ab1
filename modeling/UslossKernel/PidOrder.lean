import UslossKernel.DeadProcesses
import UslossKernel.PidResidues
import UslossKernel.QuitWakes
import UslossKernel.ScheduledTurns

namespace UslossKernel.Phase1b

open LinkedList Kernel

/-- When the caller called `spork` last, no pid as large as this one had been returned. -/
def Newest (log : List Event) (caller pid : Int) : Prop :=
  ∃ during before, log = during ++ .called caller .spork :: before ∧ (∀ fn, Event.called caller fn ∉ during) ∧
    ∀ p value, Event.returned p .spork value none ∈ before → value < pid

/-- What a return of `spork` says: an error, or a pid that is new. -/
def SporkLaw : Event → List Event → Prop
  | .returned caller .spork value _, older =>
    value ≤ 0 ∨ Newest older caller value ∧ (∀ p, Event.returned p .spork value none ∉ older) ∧
      (2 < value → value % 50 ≠ 1 ∧ value % 50 ≠ 2)
  | _, _ => True

/-- Whose event it is. -/
def Event.caller : Event → Int
  | .called pid _ | .returned pid _ _ _ => pid

variable {k k' : Kernel} {p q slot : Slot} {pt : Point} {seg : Segment} {log newer : List Event}
  {caller pid value : Int} {status : Option Int}

theorem Newest.append (newest : Newest log caller pid) (others : ∀ e ∈ newer, e.caller ≠ caller) :
    Newest (newer ++ log) caller pid := by
  obtain ⟨during, before, rfl, silent, smaller⟩ := newest
  refine ⟨newer ++ during, before, by simp, fun fn member => ?_, smaller⟩
  rcases List.mem_append.mp member with new | old
  · exact others _ new rfl
  · exact silent fn old

/-- An entry that stays occupied stays with its process. -/
theorem Path.pid_kept (path : Path k p pt seg) (before : k.occupied q = true) (after : seg.1.occupied q = true) :
    (seg.1.process_table q).pid = (k.process_table q).pid := by
  rcases path.pids with ⟨_, slot, _, _, sporked⟩ | ⟨_, pids⟩
  · exact sporked.pid_of_ne (sporked.apart before)
  · refine (pids q).resolve_right fun free => ?_
    exact of_decide_eq_true after free

theorem Path.next_pid_le (path : Path k p pt seg) : k.next_pid ≤ seg.1.next_pid := by
  rcases path.pids with ⟨_, slot, _, _, sporked⟩ | ⟨same, _⟩
  · have first := (drawPid_first k.next_pid).1
    rw [sporked.next_pid_eq]
    omega
  · exact same.ge

/-- A process that has to leave the CPU to its child has just created it. -/
theorem Path.creates (path : Path k p pt (k', .dispatches (.spork slot))) :
    ∃ c, pt = .call c ∧ c.fn = .spork ∧ Sporked k slot k' := by
  cases path with
  | sporks fn sporked ending =>
    rcases ending with ⟨⟨⟩⟩ | ⟨⟨⟩⟩
    exact ⟨_, rfl, fn, sporked⟩

/-- What any call returns is less than the pid that is drawn next. -/
theorem Return.below (returned : Return k p pt k' value status) (before : Family k) (after : Family k')
    (positive : 0 < k.next_pid) : value < k'.next_pid := by
  cases returned with
  | plain bound => omega
  | sporked => exact before.below _
  | sporks => exact after.below _
  | collects =>
    rw [collect_next_pid]
    exact before.below _

/-- The residues that `spork` skips, the first pid apart. -/
theorem drawPid_residues (next_pid : Nat) : 2 < drawPid next_pid →
    (drawPid next_pid : Int) % 50 ≠ 1 ∧ (drawPid next_pid : Int) % 50 ≠ 2 := by
  intro large
  have unskipped := (drawPid_first next_pid).2.1
  simp only [ne_eq, skipped_eq_true] at unskipped
  omega

theorem freeSlot_eq_none : k.freeSlot = none ↔ ∀ i, k.occupied i = true := by
  unfold freeSlot
  rw [List.find?_eq_none]
  have all : ∀ n, ∀ i : Slot, i ∈ (List.finRange maxProc).drop n ++ (List.finRange maxProc).take n := by
    intro n i
    rw [List.mem_append, or_comm, ← List.mem_append, List.take_append_drop]
    exact List.mem_finRange i
  constructor
  · intro none i
    simpa using none i (all _ i)
  · intro full i _
    simp [full i]

/-- The tests on the arguments pass, and the outcome depends on the table. -/
theorem spork_answers_full {kernelMode startFunc malloc : Bool} {stackSize priority : Int} (least : 1 ≤ priority)
    (most : priority ≤ 5) (stack : minStack ≤ stackSize) :
    (k.spork kernelMode startFunc malloc stackSize priority).2 = .returns (-1) none ↔
      kernelMode = true ∧ ∀ i, k.occupied i = true := by
  have inRange : ¬ (priority < 1 ∨ 5 < priority) := by omega
  rw [← freeSlot_eq_none]
  constructor
  · intro answers
    have mode : kernelMode = true := by
      cases kernelMode with
      | false => cases answers
      | true => rfl
    refine ⟨mode, ?_⟩
    by_contra free
    obtain ⟨slot, free⟩ := Option.ne_none_iff_exists'.mp free
    cases malloc with
    | false => simp [Kernel.spork, mode, inRange, not_lt.mpr stack, free] at answers
    | true =>
      have takes : (Call.spork kernelMode startFunc true stackSize priority).takesEntry k = true := by
        simp [Call.takesEntry, mode, least, most, stack, free]
      rcases Call.takes_sporked takes with ⟨slot, sporked, returns | dispatches⟩ | ⟨walk, hangs⟩
      · have drawn := sporked.created.1
        have error := (Ending.returns.inj (answers.symm.trans returns)).1
        omega
      · cases answers.symm.trans dispatches
      · cases answers.symm.trans hangs
  · rintro ⟨rfl, full⟩
    simp [Kernel.spork, inRange, not_lt.mpr stack, full]

namespace Machine

/-- The pids that have been drawn, and those that are still to be returned. -/
structure Drawn (m : Machine) : Prop where
  least : 2 ≤ m.kernel.next_pid
  returned : ∀ p value, Event.returned p .spork value none ∈ m.log → value < m.kernel.next_pid
  residues : ∀ i, m.kernel.occupied i = true → 2 < m.pid i → m.pid i % 50 ≠ 1 ∧ m.pid i % 50 ≠ 2
  calling : ∀ p slot, m.kernel.occupied p = true → m.place p = .inside (.spork slot) →
    Newest m.log (m.pid p) (m.pid slot)

variable {m m' : Machine}

theorem enter_log (m : Machine) (p : Slot) (pt : Point) : ∃ entered, (m.enter p pt).log = entered ++ m.log ∧
    ∀ e ∈ entered, ∃ fn, e = .called (m.pid p) fn := by
  cases pt with
  | call c => exact ⟨[.called (m.pid p) c.fn], rfl, by simp⟩
  | resume => exact ⟨[], rfl, by simp⟩

/-- What a stretch of code of `p` leaves of the pids of the others. -/
theorem Drawn.others {ending : Ending} (drawn : Drawn m) (ledger : Ledger m) (ledger' : Ledger m')
    (ready : m.Ready p pt) (path : Path (m.give p).kernel p pt (k, ending)) (kernel : m'.kernel = k)
    (grown : m'.log = newer ++ m.log) (own : ∀ e ∈ newer, e.caller = m.pid p)
    (returned : ∀ q value, Event.returned q .spork value none ∈ newer → value < k.next_pid)
    (places : ∀ q inside, q ≠ p → m'.place q = .inside inside →
      m.place q = .inside inside ∧ (m.kernel.occupied q = false → k.occupied q = false))
    (self : ∀ slot, m'.place p = .inside (.spork slot) → Newest m'.log (m'.pid p) (m'.pid slot)) : Drawn m' := by
  subst kernel
  have more : m.kernel.next_pid ≤ m'.kernel.next_pid := path.next_pid_le
  refine ⟨drawn.least.trans more, fun q value member => ?_, fun i taken large => ?_, fun q slot taken place => ?_⟩
  · rw [grown] at member
    rcases List.mem_append.mp member with new | old
    · exact returned q value new
    · have bound := drawn.returned q value old
      omega
  · rcases path.pids with ⟨_, slot, _, _, sporked⟩ | ⟨_, pids⟩
    · by_cases here : i = slot
      · subst here
        have created : m'.pid i = drawPid m.kernel.next_pid := sporked.created.1
        rw [created] at large ⊢
        exact drawPid_residues _ (by exact_mod_cast large)
      · have same : m'.pid i = m.pid i := sporked.pid_of_ne here
        rw [same] at large ⊢
        exact drawn.residues i ((sporked.occupied_of_ne here).symm.trans taken) large
    · have same : m'.pid i = m.pid i := (pids i).resolve_right (of_decide_eq_true taken)
      rw [same] at large ⊢
      have named : m'.pid i ≠ -1 := of_decide_eq_true taken
      exact drawn.residues i (decide_eq_true fun free => named (same.trans free)) large
  · by_cases here : q = p
    · subst here
      exact self slot place
    · obtain ⟨before, free⟩ := places q _ here place
      have occupied : m.kernel.occupied q = true := by
        cases was : m.kernel.occupied q with
        | true => rfl
        | false => exact absurd (taken.symm.trans (free was)) (by decide)
      have child := (ledger.sporking slot q occupied before).1
      have child' := (ledger'.sporking slot q taken place).1
      have pidQ : m'.pid q = m.pid q := path.pid_kept occupied taken
      have pidSlot : m'.pid slot = m.pid slot := path.pid_kept child.1 child'.1
      rw [pidQ, pidSlot, grown]
      refine (drawn.calling q slot occupied before).append fun e member same => ?_
      have named : m.pid p = m.pid q := (own e member).symm.trans same
      exact here (ledger.family.distinct p q ready.occupied named).symm

theorem Drawn.turn {t : Turn} (drawn : Drawn m) (ledger : Ledger m) (taken : Taken m t m') : Drawn m' := by
  have ledger' := ledger.turn taken
  have positive : 0 < m.kernel.next_pid := Nat.lt_of_lt_of_le (by decide) drawn.least
  cases taken with
  | @begins p goesOn live place =>
    refine ⟨drawn.least, drawn.returned, drawn.residues, fun q slot occupied at_ => ?_⟩
    have here : q ≠ p := by
      rintro rfl
      simp at at_
    exact drawn.calling q slot occupied (by simpa [here] using at_)
  | @returns p pt k value status ready goes =>
    obtain ⟨entered, grown, calls⟩ := enter_log (m.give p) p pt
    have returned := Point.exec_return give_running goes
    have bound := returned.below (ledger.give p).family ledger'.family positive
    refine @Drawn.others _ _ _ (.returned (m.pid p) pt.fn value status :: entered) _ _ _ drawn ledger ledger' ready
      (ready.path goes) rfl ?_ (fun e member => ?_) (fun q v member => ?_) (fun q inside other at_ => ?_) ?_
    · simp [Machine.back, grown]
    · rcases List.mem_cons.mp member with rfl | call
      · rfl
      · obtain ⟨fn, rfl⟩ := calls e call
        rfl
    · rcases List.mem_cons.mp member with new | call
      · obtain ⟨_, _, rfl, _⟩ := Event.returned.inj new
        exact bound
      · obtain ⟨fn, ⟨⟩⟩ := calls _ call
    · rw [back_place_of_ne other] at at_
      exact contexts_inside at_
    · rw [back_place_self]
      rintro _ ⟨⟩
  | @yields p pt k inside ready goes =>
    obtain ⟨entered, grown, calls⟩ := enter_log (m.give p) p pt
    refine drawn.others ledger ledger' ready (ready.path goes) rfl grown (fun e member => ?_)
      (fun q v member => ?_) (fun q inside other at_ => ?_) fun slot at_ => ?_
    · obtain ⟨fn, rfl⟩ := calls e member
      rfl
    · obtain ⟨fn, ⟨⟩⟩ := calls _ member
    · rw [switch_place_of_ne other] at at_
      exact contexts_inside at_
    · rw [switch_place_self] at at_
      cases at_
      obtain ⟨c, rfl, fn, sporked⟩ := (ready.path goes).creates
      have apart := sporked.apart ready.occupied
      have pidP : (k.process_table p).pid = m.pid p := sporked.pid_of_ne apart
      have pidSlot : (k.process_table slot).pid = drawPid m.kernel.next_pid := sporked.created.1
      have first := (drawPid_first m.kernel.next_pid).1
      show Newest (.called (m.pid p) c.fn :: m.log) (k.process_table p).pid (k.process_table slot).pid
      rw [pidP, pidSlot, fn]
      refine ⟨[], m.log, rfl, by simp, fun q v told => ?_⟩
      have bound := drawn.returned q v told
      omega
  | halts => exact ⟨drawn.least, drawn.returned, drawn.residues, drawn.calling⟩
  | @stops p pt reason ready =>
    cases pt with
    | resume => exact ⟨drawn.least, drawn.returned, drawn.residues, drawn.calling⟩
    | call c =>
      refine ⟨drawn.least, fun q v member => ?_, drawn.residues, fun q slot occupied at_ => ?_⟩
      · rcases List.mem_cons.mp member with ⟨⟨⟩⟩ | old
        exact drawn.returned q v old
      · have here : q ≠ p := by
          rintro rfl
          rcases ready.place with ⟨_, _, user⟩ | ⟨_, ⟨⟩, _⟩
          exact absurd (at_.symm.trans user) (by simp)
        refine @Newest.append _ [.called (m.pid p) c.fn] _ _ (drawn.calling q slot occupied at_)
          fun e member same => ?_
        rw [List.mem_singleton] at member
        subst member
        exact here (ledger.family.distinct p q ready.occupied same).symm

theorem boot_drawn : Drawn boot := by
  have nobody : ∀ i, boot.kernel.occupied i = true → boot.pid i ≤ 2 := by decide
  refine ⟨by decide, fun _ _ told => absurd told List.not_mem_nil, fun i occupied large => ?_, by rintro _ _ _ ⟨⟩⟩
  exact absurd large (not_lt.mpr (nobody i occupied))

theorem Ordered.drawn (ordered : Ordered m) : Drawn m :=
  Transition.Run.invariant_above ordered (fun _ earlier => Ordered.ledger earlier) Drawn boot_drawn
    fun _ _ _ ledger drawn _ moves => drawn.turn ledger (turn_taken moves)

/-- The law of `spork` at a return. -/
theorem Drawn.sporkLaw (drawn : Drawn m) (ledger : Ledger m) (ready : m.Ready p pt)
    (returned : Return (m.give p).kernel p pt k value status) :
    SporkLaw (.returned ((m.entering p pt).pid p) pt.fn value status) (m.entering p pt).log := by
  rw [show (m.entering p pt).pid p = m.pid p from enter_pid (m.give p) p pt p]
  by_cases isSpork : pt.fn = .spork
  · rw [isSpork]
    cases returned with
    | plain bound => exact .inl bound
    | @sporked slot =>
      have place : m.place p = .inside (.spork slot) := by
        rcases ready.place with ⟨_, ⟨⟩, _⟩ | ⟨_, same, place⟩
        cases same
        exact place
      obtain ⟨child, fresh⟩ := ledger.sporking slot p ready.occupied place
      refine .inr ⟨drawn.calling p slot ready.occupied place, fun q told => ?_, drawn.residues slot child.1⟩
      exact fresh q ⟨ledger.positive slot child.1, told⟩
    | @sporks c slot _ fn sporked =>
      have pidSlot : (k.process_table slot).pid = drawPid m.kernel.next_pid := sporked.created.1
      have first := (drawPid_first m.kernel.next_pid).1
      have larger : ∀ q v, Event.returned q .spork v none ∈ m.log → v < (k.process_table slot).pid := by
        intro q v told
        have bound := drawn.returned q v told
        omega
      refine .inr ⟨⟨[], m.log, ?_, by simp, larger⟩, fun q told => ?_, ?_⟩
      · show Event.called (m.pid p) c.fn :: m.log = _
        rw [fn]
        rfl
      · rcases List.mem_cons.mp told with ⟨⟨⟩⟩ | old
        exact absurd (larger q _ old) (lt_irrefl _)
      · rw [pidSlot]
        exact fun large => drawPid_residues _ (by exact_mod_cast large)
    | collects joins => exact absurd ((joins_fn joins).symm.trans isSpork) (by simp)
  · unfold SporkLaw
    split
    · rename_i same
      exact absurd (Event.returned.inj same).2.1 isSpork
    · trivial

theorem sporks_justified (ordered : Ordered m) : History.Justified SporkLaw m.log := by
  have base : ∀ m, Ordered m → Ledger m ∧ Drawn m :=
    fun m earlier => ⟨Ordered.ledger earlier, Ordered.drawn earlier⟩
  refine Transition.Run.invariant_above ordered base
    (fun m => History.Justified SporkLaw m.log) .nil fun m t m' base laws _ moves => ?_
  obtain ⟨ledger, drawn⟩ := base
  have entered : ∀ p pt, History.Justified SporkLaw (m.entering p pt).log := by
    intro p pt
    cases pt with
    | call => exact laws.cons trivial
    | resume => exact laws
  cases turn_taken moves with
  | begins => exact laws
  | returns ready goes => exact (entered _ _).cons (drawn.sporkLaw ledger ready (Point.exec_return give_running goes))
  | yields ready goes => exact entered _ _
  | halts => exact laws
  | stops => exact entered _ _

/-- The laws of any order hold of the scheduler's runs. -/
theorem run_sporkLaw (run : Transition.Run step Plain boot m) : History.Justified SporkLaw m.log ∧
    ∀ i j, m.kernel.occupied i = true → m.pid i = m.pid j → i = j := by
  have ordered : ∀ {m}, Transition.Run step Plain boot m → m.stopped = none → History.Justified SporkLaw m.log ∧
      ∀ i j, m.kernel.occupied i = true → m.pid i = m.pid j → i = j := by
    intro m run goesOn
    obtain ⟨n, ordered, r, rfl⟩ := run_ordered run goesOn
    have laws : History.Justified SporkLaw n.log := sporks_justified ordered
    exact ⟨laws, ordered.ledger.family.distinct⟩
  rcases Relation.ReflTransGen.cases_tail run with rfl | ⟨m₀, earlier, a, plain, moves⟩
  · exact ordered run rfl
  by_cases goesOn : m.stopped = none
  · exact ordered run goesOn
  obtain ⟨laws, distinct⟩ := ordered earlier (step_goesOn moves)
  cases step_move moves with
  | starts | begins => exact ⟨laws, distinct⟩
  | returns here | switches here => exact absurd (by simpa [Machine.back, Machine.switch] using here.goesOn) goesOn
  | halts => exact ⟨laws, distinct⟩
  | @stops p pt =>
    cases pt with
    | call => exact ⟨laws.cons trivial, distinct⟩
    | resume => exact ⟨laws, distinct⟩

/-- The call of `spork` that `p` has made has come back at once. -/
def Answers (m m' : Machine) (p : Slot) (value : Int) : Prop :=
  m'.log.head? = some (.returned (m.pid p) .spork value none)

/-- With the tables `k` a process is in an entry that was free, and its pid is a new one. -/
structure Creates (m : Machine) (k : Kernel) (slot : Slot) : Prop where
  free : m.kernel.occupied slot = false
  taken : k.occupied slot = true
  others : ∀ i, i ≠ slot → (k.process_table i).pid = m.pid i
  larger : ∀ q value, Event.returned q .spork value none ∈ m.log → value < (k.process_table slot).pid
  residues : m.kernel.next_pid = 2 ∧ (k.process_table slot).pid = 2 ∨
    (k.process_table slot).pid % 50 ≠ 1 ∧ (k.process_table slot).pid % 50 ≠ 2

/-- What becomes of a call of `spork` that has made these tables: the pid is
returned now, or when the `dispatcher` inside the call returns. The system halts
if that selects the caller itself. -/
inductive GoesOn (m : Machine) (p slot : Slot) (k : Kernel) (m' : Machine) : Prop
  | returns : m'.kernel = k → m.Answers m' p (k.process_table slot).pid → GoesOn m p slot k m'
  | switches : k.dispatcher = some m'.kernel → m'.place p = .inside (.spork slot) → GoesOn m p slot k m'
  | halts : k.selected = some p → m'.stopped = some (.halted 0) → GoesOn m p slot k m'

/-- What a call of `spork` does. -/
structure SporkOutcome (m : Machine) (p : Slot) (kernelMode startFunc malloc : Bool) (stackSize priority : Int)
    (m' : Machine) : Prop where
  full : 1 ≤ priority → priority ≤ 5 → minStack ≤ stackSize →
    (m.Answers m' p (-1) ↔ kernelMode = true ∧ ∀ i, m.kernel.occupied i = true)
  creates : 1 ≤ priority → priority ≤ 5 → minStack ≤ stackSize → kernelMode = true → malloc = true →
    (∃ i, m.kernel.occupied i = false) → ∃ k slot,
      (m.kernel.spork kernelMode startFunc malloc stackSize priority).1 = k ∧ m.Creates k slot ∧ m.GoesOn p slot k m'
  error : ∀ value < 0, m.Answers m' p value → m'.kernel = m.kernel

theorem At.step_run {c : Call} (here : m.At p (.call c)) : m.step (.call c) = some (m.run p (.call c)) := by
  simp [Machine.step, here.goesOn, here.running, here.user]

/-- A call that comes back at once is the newest event. -/
theorem run_answers {c : Call} (fn : c.fn = .spork) : m.Answers (m.run p (.call c)) p value ↔
    (c.exec m.kernel).2 = .returns value none := by
  unfold Answers run settle
  simp only [Point.exec, Point.fn, fn]
  cases ends : (c.exec m.kernel).2 with
  | returns => simp [Machine.back]
  | dispatches =>
    simp only
    cases (c.exec m.kernel).1.dispatcher with
    | none => simp [stop, enter]
    | some => simp [Machine.switch, enter]
  | halts | hangs | crashes => simp [stop, enter]

theorem run_kernel {c : Call} (returns : (c.exec m.kernel).2 = .returns value status) :
    (m.run p (.call c)).kernel = (c.exec m.kernel).1 := by
  simp [run, settle, Point.exec, returns, Machine.back]

/-- No walk of a call of `spork` goes on for ever. -/
theorem sporks_end {c : Call} (run : Transition.Run step Plain boot m) (here : m.At p (.call c))
    (fn : c.fn = .spork) (walk : Walk) : (c.exec m.kernel).2 ≠ .hangs walk := by
  intro hangs
  have regular := regular_of_run run
  have plain : m.Plain (.call c) := by
    cases c <;> first | rfl | cases fn
  have keeps : m.KeepsQueues (Point.call c).act := plain.keepsQueues regular.untargeted
  have noQueue := (regular.toOrderly.stretch keeps here).2.1
  obtain ⟨n, ordered, r, rfl⟩ := run_ordered run here.goesOn
  have family := ordered.ledger.family
  have path := here.path
  have ends : ((Point.call c).exec (n.setRunning r).kernel p).2 = .hangs walk := hangs
  generalize (Point.call c).exec (n.setRunning r).kernel p = ended at path noQueue ends
  cases path with
  | halts | stays | zapsDead | yields | waits | collects | quits | blocks | unblocks | zaps => cases ends
  | sporkHangs | quitHangs | unblockHangs => exact noQueue rfl
  | joinHangs joins => exact absurd ((joins_fn joins).symm.trans fn) (by simp)
  | sporks _ _ ending => rcases ending with rfl | rfl <;> cases ends
  | @linkHangs c slot startFunc priority _ free endless =>
    have unoccupied : (n.setRunning r).kernel.occupied slot = false := by simpa using List.find?_some free
    obtain ⟨l, leads, members⟩ := family.children p
    have unlisted : slot ∉ l := by
      intro member
      have taken := ((members slot).mp member).1
      exact absurd (taken.symm.trans unoccupied) (by decide)
    have created : Leads ((n.setRunning r).kernel.newProcess slot startFunc priority).sibling
        (((n.setRunning r).kernel.newProcess slot startFunc priority).children p) l none := by
      rw [show ((n.setRunning r).kernel.newProcess slot startFunc priority).sibling = n.kernel.sibling from
          funext fun j => newProcess_field Process.sibling rfl j,
        show ((n.setRunning r).kernel.newProcess slot startFunc priority).children = n.kernel.children from
          funext fun j => newProcess_field Process.children rfl j]
      exact leads
    exact @linkChild_ends ((n.setRunning r).kernel.newProcess slot startFunc priority) _ _ _ here.running
      created unlisted
      endless

/-- Whoever runs is in its queue only at the head. -/
theorem Regular.quitsOnce {a : Act} (regular : m.Regular) (buried : m.Buried) : m.QuitsOnce a := by
  have once : ∀ p, m.kernel.running_process = some p → m.kernel.Once p := by
    intro p runs i live link
    obtain ⟨L, sound⟩ := regular.queues
    obtain ⟨_, head⟩ := buried.running p runs
    have member := sound.mem_queue live
    have leads := sound.leads (m.kernel.queue i)
    have inQueue := ((sound.member _ p).mp (leads.next_mem member link)).2
    rw [← queue_of_priority inQueue, head] at leads
    rw [← queue_of_priority inQueue] at member
    exact absurd link (leads.no_loop member)
  unfold QuitsOnce AtQuit
  split
  · exact once
  · exact once
  · trivial

theorem buried_of_plain (run : Transition.Run step Plain boot m) : m.Buried :=
  run.invariant_above (fun _ earlier => regular_of_run earlier) Buried buried_boot
    fun _ _ _ regular buried _ moves => buried.step (regular.quitsOnce buried) moves

/-- The caller of `spork` is still there to be selected. -/
theorem At.selects {c : Call} (run : Transition.Run step Plain boot m) (here : m.At p (.call c))
    (sporked : Sporked m.kernel slot k) (dispatches : c.exec m.kernel = (k, .dispatches (.spork slot)))
    (halts : k.dispatcher = none) : k.selected = some p := by
  obtain ⟨live, head⟩ := (buried_of_plain run).running p here.running
  have awake := ((regular_of_run run).running p here.running).2
  have same := sporked.other (sporked.apart live.1)
  have running : k.running_process = some p := by
    have path := here.path.running
    rw [show (Point.call c).exec m.kernel p = _ from dispatches] at path
    exact path.trans here.running
  cases selected : k.selected with
  | none =>
    obtain ⟨L, sound⟩ := (regular_of_run run).queues
    have bounds := sound.priorities p live
    have inRange : k.queue p < 6 := by
      have kept : k.priority p = m.kernel.priority p := priority_congr same
      unfold queue Kernel.priority at *
      omega
    have blocked := selected_eq_none.mp selected _ inRange p (sporked.head live head)
    rw [status_congr same, awake] at blocked
    cases blocked
  | some next =>
    by_contra other
    have switched := dispatcher_eq_some.mpr ⟨next, selected, fun runs => other (runs.symm.trans running), rfl⟩
    rw [halts] at switched
    cases switched

theorem Drawn.creates (drawn : Drawn m) (sporked : Sporked m.kernel slot k) : m.Creates k slot := by
  have first := (drawPid_first m.kernel.next_pid).1
  have least := drawn.least
  refine ⟨sporked.free, sporked.occupied_self, fun i other => sporked.pid_of_ne other, fun q value told => ?_, ?_⟩
  · have bound := drawn.returned q value told
    rw [sporked.created.1]
    omega
  · rw [sporked.created.1]
    by_cases none : m.kernel.next_pid = 2
    · exact .inl ⟨none, by rw [none]; decide⟩
    · exact .inr (drawPid_residues _ (by omega))

theorem At.outcome {kernelMode startFunc malloc : Bool} {stackSize priority : Int}
    (run : Transition.Run step Plain boot m)
    (here : m.At p (.call (.spork kernelMode startFunc malloc stackSize priority))) :
    m.SporkOutcome p kernelMode startFunc malloc stackSize priority
      (m.run p (.call (.spork kernelMode startFunc malloc stackSize priority))) := by
  generalize atCall : Call.spork kernelMode startFunc malloc stackSize priority = c at here
  have fn : c.fn = .spork := by
    subst atCall
    rfl
  refine ⟨fun least most stack => ?_, fun least most stack mode memory free => ?_, fun value negative answers => ?_⟩
  · rw [run_answers fn]
    subst atCall
    exact spork_answers_full least most stack
  · have takes : c.takesEntry m.kernel = true := by
      obtain ⟨i, free⟩ := free
      have found : m.kernel.freeSlot ≠ none := by
        rw [ne_eq, freeSlot_eq_none]
        exact fun full => absurd (free.symm.trans (full i)) (by decide)
      obtain ⟨slot, found⟩ := Option.ne_none_iff_exists'.mp found
      subst atCall
      simp [Call.takesEntry, mode, memory, least, most, stack, found]
    rcases Call.takes_sporked takes with ⟨slot, sporked, ending⟩ | ⟨walk, hangs⟩
    · have drawn : Drawn m := by
        obtain ⟨n, ordered, r, rfl⟩ := run_ordered run here.goesOn
        exact ⟨ordered.drawn.least, ordered.drawn.returned, ordered.drawn.residues, ordered.drawn.calling⟩
      have result : (m.kernel.spork kernelMode startFunc malloc stackSize priority).1 = (c.exec m.kernel).1 := by
        subst atCall
        rfl
      refine ⟨_, slot, result, drawn.creates sporked, ?_⟩
      rcases ending with returns | dispatches
      · exact .returns (run_kernel returns) ((run_answers fn).mpr returns)
      · cases switched : (c.exec m.kernel).1.dispatcher with
        | none =>
          refine .halts (here.selects run sporked (Prod.ext rfl dispatches) switched) ?_
          simp [Machine.run, settle, Point.exec, dispatches, switched, stop]
        | some k =>
          refine .switches ?_ ?_
          · simp [Machine.run, settle, Point.exec, dispatches, switched, Machine.switch]
          · simp [Machine.run, settle, Point.exec, dispatches, switched]
    · exact absurd hangs (sporks_end run here fn walk)
  · have returns := (run_answers fn).mp answers
    rw [run_kernel returns]
    have goes : (Point.call c).exec m.kernel p = ((c.exec m.kernel).1, .returns value none) := Prod.ext rfl returns
    have returned := Point.exec_return here.running goes
    generalize (c.exec m.kernel).1 = k at returned
    cases returned with
    | plain => rfl
    | sporks _ sporked =>
      rw [sporked.created.1] at negative
      omega

/-- A `join` that returns a child has freed its entry. -/
theorem join_frees {a : Act} {exit : Int} (run : Transition.Run step Plain boot m) (moves : m.step a = some m')
    (grown : m'.log ≠ m.log) (joined : m'.log.head? = some (.returned caller .join value (some exit))) :
    ∃ i, m.kernel.occupied i = true ∧ m.pid i = value ∧ m'.kernel.occupied i = false := by
  cases step_move moves with
  | starts | begins | halts => exact absurd rfl grown
  | @returns p pt k _ _ here goes =>
    obtain ⟨_, isJoin, rfl, rfl⟩ := Event.returned.inj (Option.some.inj joined)
    have returned := Point.exec_return here.running goes
    obtain ⟨n, ordered, r, rfl⟩ := run_ordered run here.goesOn
    generalize given : some exit = status at returned
    cases returned with
    | plain | sporked | sporks => cases given
    | @collects _ before child _ found =>
      have isChild := (ordered.ledger.family.found found).1
      exact ⟨child, isChild.1, rfl, collect_vacates⟩
  | @switches p pt | @stops p pt =>
    cases pt with
    | call => cases joined
    | resume => exact absurd rfl grown

/-- The pids are new and distinct, and a `spork` fails for a full table only,
which a `join` makes room in. -/
structure UsesTable (m : Machine) : Prop where
  newPids : History.Justified SporkLaw m.log
  distinct : ∀ i j, m.kernel.occupied i = true → m.pid i = m.pid j → i = j
  sporks : ∀ p kernelMode startFunc malloc stackSize priority m', m.kernel.running_process = some p →
    m.step (.call (.spork kernelMode startFunc malloc stackSize priority)) = some m' →
    m.SporkOutcome p kernelMode startFunc malloc stackSize priority m'
  joins : ∀ a m' caller value exit, m.step a = some m' → m'.log ≠ m.log →
    m'.log.head? = some (.returned caller .join value (some exit)) →
    ∃ i, m.kernel.occupied i = true ∧ m.pid i = value ∧ m'.kernel.occupied i = false

theorem spork_uses_whole_table (run : Transition.Run step Plain boot m) : m.UsesTable := by
  obtain ⟨laws, distinct⟩ := run_sporkLaw run
  refine ⟨laws, distinct, fun p kernelMode startFunc malloc stackSize priority m' runs moves => ?_,
    fun a m' caller value exit moves grown joined => join_frees run moves grown joined⟩
  have here : m.At p (.call (.spork kernelMode startFunc malloc stackSize priority)) := by
    refine .of_user runs (step_goesOn moves) ?_
    by_contra other
    simp [step, step_goesOn moves, runs, other] at moves
  cases here.step_run.symm.trans moves
  exact here.outcome run

theorem spork_uses_whole_table_run : ∃ m : Machine, m.log.head? = some (.returned 2 .join 3 (some 5)) ∧
    m.UsesTable := by
  obtain ⟨m, run, joined⟩ := Transition.exists_run step boot oneChild (fun m a => decide (m.Plain a))
    (fun _ _ => of_decide_eq_true) (fun m => decide (m.log.head? = some (.returned 2 .join 3 (some 5))))
    (by decide +kernel)
  exact ⟨m, of_decide_eq_true joined, spork_uses_whole_table run⟩

/-- `testcase_main` has a child of lower priority, joins it and quits. -/
def childFirst : List Act :=
  testcaseRuns ++ [.call (sporks 4), .call (.join true), .resume, .call (.quit true 0), .resume,
    .call (.quit true 0), .resume]

/-- `init` is told of the pid 2 of `testcase_main` when the pid 3 has long been returned. -/
theorem spork_returns_late : ∃ m older, Transition.Run step Plain boot m ∧
    m.log = .returned 1 .spork 2 none :: older ∧ Event.returned 2 .spork 3 none ∈ older := by
  obtain ⟨m, run, late⟩ := Transition.exists_run step boot childFirst (fun m a => decide (m.Plain a))
    (fun _ _ => of_decide_eq_true)
    (fun m => m.log.head? = some (.returned 1 .spork 2 none) && m.log.tail.contains (.returned 2 .spork 3 none))
    (by decide +kernel)
  rw [Bool.and_eq_true, decide_eq_true_eq, List.contains_iff_mem] at late
  exact ⟨m, m.log.tail, run, (List.cons_head?_tail late.1).symm, late.2⟩

end Machine

end UslossKernel.Phase1b
