import UslossKernel.Library.WaitGraph
import UslossKernel.FamilyTree
import UslossKernel.QuitWakes
import UslossKernel.ReadyQueues
import UslossKernel.TerminateReaps

namespace UslossKernel.Phase1b

open LinkedList Kernel Machine

/-- Where the processes are that have blocked themselves; one inside `join` has a child. -/
structure Placed (m : Machine) : Prop where
  blocked : ∀ p, m.kernel.status p = .blocked →
    m.place p = .inside .blockMe ∨ (∃ pid, m.place p = .inside (.zap pid)) ∨ m.place p = .inside .join
  joiner : ∀ p, m.kernel.status p ≠ .terminated → m.place p = .inside .join → ∃ i, m.kernel.childOf i p

variable {k k' : Kernel} {p q : Slot} {pt : Point} {seg : Segment} {ending : Ending} {m m' : Machine}

/-- A process that returns to its own code is as runnable as it was. -/
theorem Path.returns_runnable {value : Int} {status : Option Int} (path : Path k p pt (k', .returns value status))
    (runnable : k.status p = .runnable) : k'.status p = .runnable := by
  cases path with
  | stays | zapsDead => exact runnable
  | @sporks _ slot _ _ _ sporked =>
    by_cases here : p = slot
    · rw [here]
      exact sporked.created.2.1
    · rwa [sporked.status_of_ne here]
  | collects => rwa [collect_status]

/-- One that calls `dispatcher` while it is blocked has blocked itself. -/
theorem Path.blocks_itself {inside : Inside} (path : Path k p pt (k', .dispatches inside))
    (awake : k.status p ≠ .blocked) (blocked : k'.status p = .blocked) :
    inside = .blockMe ∨ (∃ pid, inside = .zap pid) ∨ inside = .join := by
  cases path with
  | yields => exact absurd blocked awake
  | @sporks _ slot _ _ _ sporked =>
    by_cases here : p = slot
    · rw [here, show k'.status slot = .runnable from sporked.created.2.1] at blocked
      cases blocked
    · rw [sporked.status_of_ne here] at blocked
      exact absurd blocked awake
  | waits => exact .inr (.inr rfl)
  | quits _ _ removed =>
    rw [status_congr (remove_unlinked removed p), status_of_unlinked terminate_self] at blocked
    cases blocked
  | blocks => exact .inl rfl
  | @unblocks _ i _ _ sleeping appended =>
    have other : p ≠ i := by
      rintro rfl
      exact awake sleeping
    rw [status_congr (appendToQueue_unlinked appended p), status_modify_of_ne other] at blocked
    exact absurd blocked awake
  | zaps => exact .inr (.inl ⟨_, rfl⟩)

/-- A terminated process stays so until its entry is taken. -/
theorem Effect.stays_dead (effect : Effect k p pt (k', ending)) (taken : k.occupied q = true)
    (dead : k.status q = .terminated) : k'.status q = .terminated := by
  cases effect with
  | quiet same => exact (same.ended q).mpr dead
  | sporks _ sporked => rwa [sporked.status_of_ne (sporked.apart taken)]
  | collects => rwa [collect_status]
  | quits _ _ died => exact (died.ended q).mpr (.inr dead)

theorem joins_cases (joins : pt.joins = true) : pt = .call (.join true) ∨ pt = .resume .join := by
  cases pt with
  | call c =>
    cases c with
    | join status =>
      obtain rfl : status = true := joins
      exact .inl rfl
    | _ => cases joins
  | resume inside =>
    cases inside with
    | join => exact .inr rfl
    | _ => cases joins

/-- `join` goes to sleep with a child to wait for. -/
theorem joins_with_child (family : Family k) (running : k.running_process = some p)
    (goes : pt.exec k p = (k', .dispatches .join)) (resumed : pt = .resume .join → ∃ i, k.childOf i p) :
    ∃ i, k'.childOf i p := by
  have path : Path k p pt (pt.exec k p) := Point.exec_path running
  rw [goes] at path
  cases path with
  | sporks _ _ ending => simp at ending
  | waits joins =>
    have child : ∃ i, k.childOf i p := by
      by_contra alone
      push Not at alone
      rcases joins_cases joins with rfl | rfl
      · rw [Phase3.exec_childless running (family.childless_iff.mpr alone)] at goes
        exact absurd (congrArg Prod.snd goes) (by simp)
      · obtain ⟨i, child⟩ := resumed rfl
        exact alone i child
    have kin : ∀ j, ((k.modify p fun e => { e with status := .blocked }).process_table j).kin =
        (k.process_table j).kin := modify_field Process.kin (fun _ => by rfl)
    rwa [kin_childOf kin]

namespace Placed

/-- What the stretch of code of a process leaves of the places of the others. -/
theorem others (placed : Placed m) (ledger : Ledger m) (ready : m.Ready p pt)
    (goes : pt.exec (m.give p).kernel p = (k, ending)) (kernel : m'.kernel = k)
    (places : ∀ q, q ≠ p → m'.place q = m.contexts k q)
    (blocked : k.status p = .blocked →
      m'.place p = .inside .blockMe ∨ (∃ pid, m'.place p = .inside (.zap pid)) ∨ m'.place p = .inside .join)
    (joiner : m'.place p = .inside .join → ∃ i, k.childOf i p) : Placed m' := by
  have path := ready.path goes
  have alive : (m.give p).kernel.status p ≠ .terminated := by
    rw [give_status, ready.runnable]
    decide
  have effect := path.effect alive
  have after : Family k := effect.family (ledger.give p).family give_running ready.occupied alive
  subst kernel
  refine ⟨fun q sleeping => ?_, fun q awake at_ => ?_⟩
  · by_cases here : q = p
    · subst here
      exact blocked sleeping
    · have same := path.blocked_before here sleeping
      have before : m.kernel.status q = .blocked := (status_congr same).symm.trans sleeping
      have kept : m.contexts m'.kernel q = m.place q := EntryTable.renewed_of_kept (occupied_congr same).trans
      rw [places q here, kept]
      exact placed.blocked q before
  · by_cases here : q = p
    · subst here
      exact joiner at_
    · rw [places q here] at at_
      obtain ⟨there, free⟩ := contexts_inside at_
      have taken : m.kernel.occupied q = true := by
        by_contra vacant
        exact awake (after.free q (free (by simpa using vacant)))
      have before : m.kernel.status q ≠ .terminated := fun dead => awake (effect.stays_dead taken dead)
      obtain ⟨i, child⟩ := placed.joiner q before there
      obtain ⟨childOf, _⟩ := Phase3.keeps_children path (ledger.give p).family give_running alive here
      exact ⟨i, (childOf i).mpr child⟩

theorem turn {t : Turn} (placed : Placed m) (ledger : Ledger m) (taken : Taken m t m') : Placed m' := by
  cases taken with
  | @begins p goesOn live place =>
    have awake : m.kernel.status p ≠ .blocked := by
      simp only [Machine.live, Bool.and_eq_true, decide_eq_true_eq] at live
      rw [live.2]
      decide
    refine ⟨fun q blocked => ?_, fun q alive at_ => ?_⟩
    · have here : q ≠ p := by
        rintro rfl
        exact awake blocked
      simpa [here] using placed.blocked q blocked
    · have here : q ≠ p := by
        rintro rfl
        simp at at_
      exact placed.joiner q alive (by simpa [here] using at_)
  | @returns p pt k value status ready goes =>
    refine placed.others ledger ready goes rfl (fun q other => back_place_of_ne other) (fun blocked => ?_) ?_
    · have runnable : k.status p = .runnable := (ready.path goes).returns_runnable ready.runnable
      rw [runnable] at blocked
      cases blocked
    · rw [back_place_self]
      rintro ⟨⟩
  | @yields p pt k inside ready goes =>
    have awake : (m.give p).kernel.status p ≠ .blocked := by
      rw [give_status, ready.runnable]
      decide
    refine placed.others ledger ready goes rfl (fun q other => switch_place_of_ne other) (fun blocked => ?_) ?_
    · rw [switch_place_self]
      rcases (ready.path goes).blocks_itself awake blocked with rfl | ⟨pid, rfl⟩ | rfl
      · exact .inl rfl
      · exact .inr (.inl ⟨pid, rfl⟩)
      · exact .inr (.inr rfl)
    · rw [switch_place_self]
      rintro ⟨⟩
      refine joins_with_child (ledger.give p).family give_running goes ?_
      rintro rfl
      rcases ready.place with ⟨_, ⟨⟩, _⟩ | ⟨inside, same, place⟩
      obtain rfl := Point.resume.inj same
      refine placed.joiner p ?_ place
      rw [ready.runnable]
      decide
  | halts => exact ⟨placed.blocked, placed.joiner⟩
  | @stops p pt reason ready => cases pt <;> exact ⟨placed.blocked, placed.joiner⟩

end Placed

theorem boot_placed : Placed boot := by
  have nobody : ∀ p, boot.kernel.status p ≠ .blocked := by decide
  exact ⟨fun p blocked => absurd blocked (nobody p), by rintro _ _ ⟨⟩⟩

namespace Machine

theorem Ordered.placed (ordered : Ordered m) : Placed m :=
  Transition.Run.invariant_above ordered (fun _ earlier => Ordered.ledger earlier) Placed boot_placed
    fun _ _ _ ledger before _ moves => before.turn ledger (turn_taken moves)

theorem Ordered.awaited (ordered : Ordered m) : Awaited m :=
  Transition.Run.invariant_above ordered (fun _ earlier => Ordered.ledger earlier) Awaited boot_awaited
    fun _ _ _ ledger before _ moves => before.turn ledger (turn_taken moves)

theorem Ordered.rooted (ordered : Ordered m) : Rooted m.kernel :=
  ordered.tables Rooted boot_rooted (fun _ _ rooted => ⟨rooted.initPid, rooted.orphan, rooted.older⟩)
    fun _ _ _ _ family running taken _ effect rooted => rooted.effect effect family running taken

theorem Ordered.tree (ordered : Ordered m) : Tree m.kernel :=
  ordered.ledger.family.tree ordered.rooted

/-- `p` sleeps in `join`, and `q` is one of its children. -/
def WaitsForChild (m : Machine) (p q : Slot) : Prop :=
  m.kernel.status p = .blocked ∧ m.place p = .inside .join ∧ m.kernel.childOf q p

/-- `p` sleeps in `zap`, and `q` is the process it has zapped. -/
def WaitsForTarget (m : Machine) (p q : Slot) : Prop :=
  m.kernel.status p = .blocked ∧ (m.kernel.process_table p).zap_target = some q ∧
    m.place p = .inside (.zap (m.pid q))

def WaitsFor (m : Machine) (p q : Slot) : Prop :=
  m.WaitsForChild p q ∨ m.WaitsForTarget p q

/-- A process that is live can take a turn. -/
theorem turn_of_live (goesOn : m.stopped = none) (live : m.live p = true) : ∃ t m', m.turn t = some m' := by
  cases place : m.place p with
  | fresh =>
    by_cases startFunc : (m.kernel.process_table p).startFunc = true
    · exact ⟨.resume p, _, by simp [Machine.turn, Turn.process, goesOn, live, place, startFunc]; rfl⟩
    · exact ⟨.resume p, _, by simp [Machine.turn, Turn.process, goesOn, live, place, startFunc]; rfl⟩
  | user => exact ⟨.call p .dispatcher, _, by simp [Machine.turn, Turn.process, goesOn, live, place]; rfl⟩
  | inside inside =>
    by_cases stack : (m.kernel.process_table p).stack = true
    · exact ⟨.resume p, _, by simp [Machine.turn, Turn.process, goesOn, live, place, stack]; rfl⟩
    · exact ⟨.resume p, _, by simp [Machine.turn, Turn.process, goesOn, live, place, stack]; rfl⟩

/-- Where `init` has no children, nobody else is left. -/
theorem Ordered.childless_last (ordered : Ordered m) (childless : ∀ i, ¬ m.kernel.childOf i initSlot) {i : Slot}
    (taken : m.kernel.occupied i = true) : i = initSlot := by
  have family := ordered.ledger.family
  have descends := ordered.tree.descends taken
  induction descends using Relation.ReflTransGen.head_induction_on with
  | refl => rfl
  | @head i q parent _ ih =>
    obtain rfl := ih (family.parent_alive ⟨taken, parent⟩).1
    exact absurd ⟨taken, parent⟩ (childless i)

/-- Where nobody can run and nobody sleeps in `blockMe`, every process waits for one that is not terminated. -/
theorem Ordered.waits (ordered : Ordered m) (asleep : ∀ p, m.live p = false)
    (blockless : ∀ p, m.kernel.status p = .blocked → m.place p ≠ .inside .blockMe)
    (alive : m.kernel.Live p) : ∃ q, m.kernel.Live q ∧ m.WaitsFor p q := by
  have family := ordered.ledger.family
  have blocked : m.kernel.status p = .blocked := by
    have idle := asleep p
    simp only [Machine.live, alive.1, Bool.true_and, decide_eq_false_iff_not] at idle
    cases status : m.kernel.status p with
    | runnable => exact absurd status idle
    | blocked => rfl
    | terminated => exact absurd status alive.2
  rcases ordered.placed.blocked p blocked with inBlockMe | ⟨pid, inZap⟩ | inJoin
  · exact absurd inBlockMe (blockless p blocked)
  · obtain ⟨q, zapped, named, awake⟩ := ordered.awaited.zapper p pid blocked inZap
    have occupied : m.kernel.occupied q = true := by
      by_contra free
      exact awake (family.free q (by simpa using free))
    exact ⟨q, ⟨occupied, awake⟩, .inr ⟨blocked, zapped, by rw [named]; exact inZap⟩⟩
  · obtain ⟨q, child⟩ := ordered.placed.joiner p alive.2 inJoin
    exact ⟨q, ⟨child.1, ordered.awaited.joiner p blocked inJoin q child⟩, .inl ⟨blocked, inJoin, child⟩⟩

/-- A parent is older than the child it waits for. -/
theorem Ordered.child_younger (ordered : Ordered m) {p q : Slot} (waits : m.WaitsForChild p q) :
    m.pid p < m.pid q := by
  obtain ⟨_, _, taken, parent⟩ := waits
  have root : q ≠ initSlot := ordered.rooted.child_ne_init ⟨taken, parent⟩
  obtain ⟨p', parent', older⟩ := ordered.rooted.older q taken root
  obtain rfl : p = p' := Option.some.inj (parent.symm.trans parent')
  exact older

theorem Ordered.wait_cycle (ordered : Ordered m) (asleep : ∀ p, m.live p = false)
    (blockless : ∀ p, m.kernel.status p = .blocked → m.place p ≠ .inside .blockMe)
    (alive : m.kernel.status initSlot ≠ .terminated) : ∃ p, Relation.TransGen m.WaitsFor p p := by
  have start : m.kernel.Live initSlot := ⟨ordered.rooted.init_occupied, alive⟩
  obtain ⟨p, _, cycle⟩ := WaitGraph.exists_cycle start fun p alive => ordered.waits asleep blockless alive
  exact ⟨p, cycle⟩

/-- Where no process can take a turn, `init` has quit as the last process, one
is in `blockMe`, or there is a cycle of waiting processes with a `zap` in it. -/
theorem deadlock_has_zap (ordered : Ordered m) (goesOn : m.stopped = none) (stuck : ∀ t, m.turn t = none) :
    (m.kernel.status initSlot = .terminated ∧ ∀ i, m.kernel.occupied i = true → i = initSlot) ∨
      (∃ p, m.kernel.status p = .blocked ∧ m.place p = .inside .blockMe) ∨
      ∃ p q, m.WaitsForTarget p q ∧ Relation.ReflTransGen m.WaitsFor q p := by
  have asleep : ∀ p, m.live p = false := by
    intro p
    by_contra live
    obtain ⟨t, m', moves⟩ := turn_of_live goesOn (by simpa using live)
    exact absurd ((stuck t).symm.trans moves) (by simp)
  by_cases dead : m.kernel.status initSlot = .terminated
  · have family := ordered.ledger.family
    have childless := family.childless_iff.mp (family.childless initSlot dead)
    exact .inl ⟨dead, fun i taken => ordered.childless_last childless taken⟩
  by_cases inBlockMe : ∃ p, m.kernel.status p = .blocked ∧ m.place p = .inside .blockMe
  · exact .inr (.inl inBlockMe)
  push Not at inBlockMe
  obtain ⟨p, cycle⟩ := ordered.wait_cycle asleep inBlockMe dead
  exact .inr (.inr (WaitGraph.cycle_takes (fun p q waits => ordered.child_younger waits) cycle))

/-- `testcase_main` and its child zap each other, while `init` joins. -/
def zapEachOther : List Turn :=
  [.resume initSlot, .call initSlot (sporks 3), .resume testcaseSlot, .call testcaseSlot (sporks 4),
    .resume childSlot, .call childSlot (.zap 2), .call testcaseSlot (.zap 3), .resume initSlot,
    .call initSlot (.join true)]

theorem deadlock_has_zap_run : ∃ m : Machine, m.WaitsForTarget testcaseSlot childSlot ∧ (∀ t, m.turn t = none) ∧
    ((m.kernel.status initSlot = .terminated ∧ ∀ i, m.kernel.occupied i = true → i = initSlot) ∨
      (∃ p, m.kernel.status p = .blocked ∧ m.place p = .inside .blockMe) ∨
      ∃ p q, m.WaitsForTarget p q ∧ Relation.ReflTransGen m.WaitsFor q p) := by
  obtain ⟨m, ordered, facts⟩ := exists_ordered zapEachOther
    (fun m => decide (m.stopped = none ∧ (∀ p, m.live p = false) ∧ m.kernel.status testcaseSlot = .blocked ∧
      (m.kernel.process_table testcaseSlot).zap_target = some childSlot ∧
      m.place testcaseSlot = .inside (.zap (m.pid childSlot)))) (by decide +kernel)
  obtain ⟨goesOn, asleep, waits⟩ := of_decide_eq_true facts
  have stuck : ∀ t, m.turn t = none := fun t => by simp [Machine.turn, asleep]
  exact ⟨m, waits, stuck, deadlock_has_zap ordered goesOn stuck⟩

/-- A turn that neither calls `blockMe` nor zaps an older process. -/
def ZapsYounger (m : Machine) : Turn → Prop
  | .call _ .blockMe => False
  | .call p (.zap pid) => m.pid p < pid
  | _ => True

instance (m : Machine) (t : Turn) : Decidable (m.ZapsYounger t) := by
  unfold ZapsYounger
  split <;> infer_instance

/-- Nobody sleeps in `blockMe`, and in `zap` only for a younger process. -/
structure Descending (m : Machine) : Prop where
  blockless : ∀ p, m.kernel.status p = .blocked → m.place p ≠ .inside .blockMe
  younger : ∀ p pid, m.kernel.status p = .blocked → m.place p = .inside (.zap pid) → m.pid p < pid

/-- The process that goes to sleep itself. -/
theorem ZapsYounger.sleeper {inside : Inside} (younger : m.ZapsYounger (pt.turn p))
    (path : Path (m.give p).kernel p pt (k, .dispatches inside)) :
    inside ≠ .blockMe ∧ ∀ pid, inside = .zap pid → m.pid p < pid ∧ (k.process_table p).pid = m.pid p := by
  cases path with
  | yields | waits | quits | unblocks => exact ⟨by rintro ⟨⟩, by rintro _ ⟨⟩⟩
  | sporks _ _ ending =>
    obtain rfl : inside = _ := Ending.dispatches.inj (ending.resolve_left (by rintro ⟨⟩))
    exact ⟨by rintro ⟨⟩, by rintro _ ⟨⟩⟩
  | blocks => exact younger.elim
  | zaps =>
    refine ⟨by rintro ⟨⟩, ?_⟩
    rintro _ ⟨⟩
    exact ⟨younger, modify_field Process.pid (fun _ => by rfl) p⟩

theorem Descending.turn {t : Turn} (descending : m.Descending) (younger : m.ZapsYounger t) (taken : Taken m t m') :
    m'.Descending := by
  -- the others are asleep where they were, or have been woken
  have others : ∀ {p q pt k ending}, m.Ready p pt → pt.exec (m.give p).kernel p = (k, ending) → q ≠ p →
      k.status q = .blocked → m.contexts k q = m.place q ∧ m.kernel.status q = .blocked ∧
        (k.process_table q).pid = m.pid q := by
    intro p q pt k ending ready goes other sleeping
    have same : k.unlinked q = m.kernel.unlinked q := (ready.path goes).blocked_before other sleeping
    exact ⟨EntryTable.renewed_of_kept (occupied_congr same).trans, (status_congr same).symm.trans sleeping,
      pid_congr same⟩
  cases taken with
  | @begins p _ live place =>
    refine ⟨fun q blocked at_ => descending.blockless q blocked ?_,
      fun q pid blocked at_ => descending.younger q pid blocked ?_⟩
    all_goals
      have here : q ≠ p := by
        rintro rfl
        simp at at_
      simpa [here] using at_
  | @returns p pt k value status ready goes =>
    refine ⟨fun q blocked at_ => ?_, fun q pid blocked at_ => ?_⟩
    all_goals
      have here : q ≠ p := by
        rintro rfl
        simp at at_
      obtain ⟨kept, before, named⟩ := others ready goes here blocked
      rw [back_place_of_ne here, give_contexts, kept] at at_
    · exact descending.blockless q before at_
    · exact lt_of_eq_of_lt named (descending.younger q pid before at_)
  | @yields p pt k inside ready goes =>
    obtain ⟨blockless, zaps⟩ := younger.sleeper (ready.path goes)
    refine ⟨fun q blocked at_ => ?_, fun q pid blocked at_ => ?_⟩
    · by_cases here : q = p
      · subst here
        rw [switch_place_self] at at_
        exact blockless (Place.inside.inj at_)
      · obtain ⟨kept, before, _⟩ := others ready goes here blocked
        rw [switch_place_of_ne here, give_contexts, kept] at at_
        exact descending.blockless q before at_
    · by_cases here : q = p
      · subst here
        rw [switch_place_self] at at_
        obtain ⟨less, named⟩ := zaps pid (Place.inside.inj at_)
        exact lt_of_eq_of_lt named less
      · obtain ⟨kept, before, named⟩ := others ready goes here blocked
        rw [switch_place_of_ne here, give_contexts, kept] at at_
        exact lt_of_eq_of_lt named (descending.younger q pid before at_)
  | halts => exact ⟨descending.blockless, descending.younger⟩
  | @stops p pt reason ready => cases pt <;> exact ⟨descending.blockless, descending.younger⟩

theorem boot_descending : boot.Descending := by
  have nobody : ∀ p, boot.kernel.status p ≠ .blocked := by decide
  exact ⟨fun p blocked => absurd blocked (nobody p), fun p _ blocked => absurd blocked (nobody p)⟩

/-- Without `blockMe`, and with `zap` on younger processes only, some process
can run as long as `init` has not quit. -/
theorem younger_zaps_never_deadlock (run : Transition.Run turn ZapsYounger boot m)
    (alive : m.kernel.status initSlot ≠ .terminated) : ∃ p, m.live p = true := by
  have ordered : Ordered m := run.mono fun _ _ _ => trivial
  have descending : m.Descending := run.invariant Descending boot_descending
    fun _ _ _ before younger moves => before.turn younger (turn_taken moves)
  by_contra asleep
  push Not at asleep
  obtain ⟨p, cycle⟩ := ordered.wait_cycle (fun p => by simpa using asleep p) descending.blockless alive
  have rises : ∀ p q, m.WaitsFor p q → m.pid p < m.pid q := by
    rintro p q (child | target)
    · exact ordered.child_younger child
    · exact descending.younger p _ target.1 target.2.2
  have risen : Relation.TransGen (· < ·) (m.pid p) (m.pid p) := cycle.lift m.pid rises
  rw [Relation.transGen_eq_self] at risen
  exact lt_irrefl _ risen

/-- `testcase_main` zaps its child, and `init` joins. -/
def zapsYounger : List Turn :=
  [.resume initSlot, .call initSlot (sporks 3), .resume testcaseSlot, .call testcaseSlot (sporks 4),
    .call testcaseSlot (.zap 3), .resume initSlot, .call initSlot (.join true)]

theorem younger_zaps_never_deadlock_run : ∃ m : Machine, (m.WaitsForTarget testcaseSlot childSlot ∧
    m.kernel.status initSlot = .blocked) ∧ ∃ p, m.live p = true := by
  obtain ⟨m, run, facts⟩ := Transition.exists_run turn boot zapsYounger (fun m t => decide (m.ZapsYounger t))
    (fun _ _ => of_decide_eq_true) (fun m => decide (m.kernel.status testcaseSlot = .blocked ∧
      (m.kernel.process_table testcaseSlot).zap_target = some childSlot ∧
      m.place testcaseSlot = .inside (.zap (m.pid childSlot)) ∧ m.kernel.status initSlot = .blocked))
    (by decide +kernel)
  obtain ⟨blocked, zapped, place, joins⟩ := of_decide_eq_true facts
  refine ⟨m, ⟨⟨blocked, zapped, place⟩, joins⟩, younger_zaps_never_deadlock run ?_⟩
  rw [joins]
  decide

end Machine

end UslossKernel.Phase1b
