import UslossKernel.ProcessTree

namespace UslossKernel.Phase1b

open LinkedList Kernel

/-- The ways in which a stretch of code comes to the end of its call. -/
inductive Return (k : Kernel) (p : Slot) : Point → Kernel → Int → Option Int → Prop
  | plain {pt value} : value ≤ 0 → (pt.fn = .join → value = -3 ∨ value = -2 ∧ k.children p = none) →
      (∀ status c, pt = .call c → c.fn ≠ .quit status) → (∀ new_proc, pt ≠ .resume (.spork new_proc)) →
      Return k p pt k value none
  | sporked {new_proc} : Return k p (.resume (.spork new_proc)) k (k.process_table new_proc).pid none
  | sporks {c slot k'} : c.fn = .spork → Sporked k slot k' → Return k p (.call c) k' (k'.process_table slot).pid none
  | collects {pt before child} : pt.joins = true →
      seek k.sibling (fun i => k.status i = .terminated) maxProc none (k.children p) = .at before child →
      Return k p pt (k.collect p before child) (k.process_table child).pid (some (k.process_table child).exit_status)

variable {k k' : Kernel} {p : Slot} {pt : Point} {value : Int} {status : Option Int}

theorem joinLoop_return (joins : pt.joins = true) (goes : k.joinLoop p = (k', .returns value status)) :
    Return k p pt k' value status := by
  unfold joinLoop at goes
  split at goes
  · cases goes
  · cases goes
  · rename_i found
    cases goes
    exact .collects joins found

theorem quit_never_returns {kernelMode : Bool} {exit : Int} :
    k.quit kernelMode exit ≠ (k', .returns value status) := by
  intro goes
  unfold quit at goes
  split at goes
  · cases goes
  split at goes
  · cases goes
  split at goes
  · cases goes
  split at goes <;> cases goes

theorem spork_return {c : Call} (fn : c.fn = .spork) {kernelMode startFunc malloc : Bool} {stackSize priority : Int}
    (goes : k.spork kernelMode startFunc malloc stackSize priority = (k', .returns value status)) :
    Return k p (.call c) k' value status := by
  have errors : ∀ {error : Int}, error ≤ 0 → Return k p (.call c) k error none := by
    intro error bound
    refine .plain bound (fun isJoin => ?_) (fun status c' same isQuit => ?_) (by rintro _ ⟨⟩)
    · exact absurd (fn.symm.trans isJoin) (by decide)
    · cases same
      exact absurd (fn.symm.trans isQuit) (by simp)
  unfold spork at goes
  split at goes
  · cases goes
  split at goes
  · cases goes
    exact errors (by decide)
  split at goes
  · cases goes
    exact errors (by decide)
  split at goes
  · cases goes
    exact errors (by decide)
  rename_i slot free
  split at goes
  · cases goes
  split at goes
  · cases goes
  rename_i linked atLinked
  split at goes
  · cases goes
  rename_i queued atQueued
  have sporked : Sporked k slot (queued.modify slot fun p => { p with next := none }) :=
    .intro free (by omega) (by omega) atLinked atQueued
  simp only at goes
  split at goes
  · split at goes
    · cases goes
    · cases goes
      exact .sporks fn sporked
  · cases goes
    exact .sporks fn sporked

theorem Point.exec_return (running : k.running_process = some p)
    (goes : pt.exec k p = (k', .returns value status)) : Return k p pt k' value status := by
  cases pt with
  | call c =>
    have plain : ∀ {value : Int}, value ≤ 0 → (c.fn = .join → value = -3 ∨ value = -2 ∧ k.children p = none) →
        (∀ status, c.fn ≠ .quit status) → Return k p (.call c) k value none := by
      intro value bound joins quits
      refine .plain bound joins (fun status c' same => ?_) (by rintro _ ⟨⟩)
      cases same
      exact quits status
    cases c with
    | spork =>
      simp only [Point.exec, Call.exec] at goes
      exact spork_return rfl goes
    | join given =>
      simp only [Point.exec, Call.exec, join, running] at goes
      split at goes
      · cases goes
        exact plain (by decide) (fun _ => .inl rfl) (by rintro _ ⟨⟩)
      rename_i given
      split at goes
      · rename_i noChild
        cases goes
        exact plain (by decide) (fun _ => .inr ⟨rfl, noChild⟩) (by rintro _ ⟨⟩)
      · exact joinLoop_return (by simpa [Point.joins] using given) goes
    | quit =>
      simp only [Point.exec, Call.exec] at goes
      exact absurd goes quit_never_returns
    | finish =>
      simp only [Point.exec, Call.exec, finish, running] at goes
      split at goes
      · cases goes
      · exact absurd goes quit_never_returns
    | blockMe =>
      simp only [Point.exec, Call.exec, blockMe, running] at goes
      cases goes
    | unblockProc pid =>
      simp only [Point.exec, Call.exec, unblockProc] at goes
      split at goes
      · cases goes
        exact plain (by decide) (by rintro ⟨⟩) (by rintro _ ⟨⟩)
      split at goes <;> cases goes
    | zap pid =>
      simp only [Point.exec, Call.exec, zap, running] at goes
      split at goes
      · cases goes
      split at goes
      · cases goes
      split at goes
      · cases goes
        exact plain le_rfl (by rintro ⟨⟩) (by rintro _ ⟨⟩)
      · cases goes
    | dispatcher => cases goes
  | resume inside =>
    cases inside with
    | join => exact joinLoop_return rfl goes
    | spork new_proc =>
      cases goes
      exact .sporked
    | _ =>
      cases goes
      exact .plain le_rfl (by rintro ⟨⟩) (by rintro _ _ ⟨⟩) (by rintro _ ⟨⟩)

/-- `spork` has returned the pid of a child to its parent. -/
def SporkedBy (log : List Event) (parent child : Int) : Prop :=
  0 < child ∧ Event.returned parent .spork child none ∈ log

/-- A `join` has returned the child. -/
def Collected (log : List Event) (child : Int) : Prop :=
  ∃ parent status, Event.returned parent .join child (some status) ∈ log

/-- The process has called `quit`. -/
def HasQuit (log : List Event) (pid status : Int) : Prop :=
  Event.called pid (.quit status) ∈ log

section log
variable {log : List Event} {parent child pid : Int} {fn : Fn}

@[simp] theorem sporkedBy_called : SporkedBy (.called pid fn :: log) parent child ↔ SporkedBy log parent child := by
  simp [SporkedBy]

@[simp] theorem collected_called : Collected (.called pid fn :: log) child ↔ Collected log child := by
  simp [Collected]

@[simp] theorem hasQuit_returned : HasQuit (.returned pid fn value status :: log) parent child ↔
    HasQuit log parent child := by
  simp [HasQuit]

theorem hasQuit_called : HasQuit (.called pid fn :: log) parent child ↔
    parent = pid ∧ fn = .quit child ∨ HasQuit log parent child := by
  simp [HasQuit, eq_comm]

theorem sporkedBy_returned : SporkedBy (.returned pid fn value status :: log) parent child ↔
    (0 < child ∧ parent = pid ∧ fn = .spork ∧ child = value ∧ status = none) ∨ SporkedBy log parent child := by
  simp only [SporkedBy, List.mem_cons, Event.returned.injEq]
  constructor
  · rintro ⟨positive, ⟨rfl, rfl, rfl, rfl⟩ | earlier⟩
    · exact .inl ⟨positive, rfl, rfl, rfl, rfl⟩
    · exact .inr ⟨positive, earlier⟩
  · rintro (⟨positive, rfl, rfl, rfl, rfl⟩ | ⟨positive, earlier⟩)
    · exact ⟨positive, .inl ⟨rfl, rfl, rfl, rfl⟩⟩
    · exact ⟨positive, .inr earlier⟩

theorem collected_returned : Collected (.returned pid fn value status :: log) child ↔
    (fn = .join ∧ child = value ∧ status ≠ none) ∨ Collected log child := by
  simp only [Collected, List.mem_cons, Event.returned.injEq]
  constructor
  · rintro ⟨caller, exit, ⟨rfl, rfl, rfl, rfl⟩ | earlier⟩
    · exact .inl ⟨rfl, rfl, by simp⟩
    · exact .inr ⟨caller, exit, earlier⟩
  · rintro (⟨rfl, rfl, given⟩ | ⟨caller, exit, earlier⟩)
    · obtain ⟨exit, rfl⟩ := Option.ne_none_iff_exists'.mp given
      exact ⟨pid, exit, .inl ⟨rfl, rfl, rfl, rfl⟩⟩
    · exact ⟨caller, exit, .inr earlier⟩

end log

/-- What the history and the process table say of each other. -/
structure Ledger (m : Machine) : Prop where
  family : Family m.kernel
  positive : ∀ i, m.kernel.occupied i = true → 0 < m.pid i
  announced : ∀ i p, m.kernel.childOf i p → SporkedBy m.log (m.pid p) (m.pid i) ∨ m.place p = .inside (.spork i)
  sporking : ∀ i p, m.kernel.occupied p = true → m.place p = .inside (.spork i) →
    m.kernel.childOf i p ∧ ∀ parent, ¬ SporkedBy m.log parent (m.pid i)
  kept : ∀ p child, m.kernel.occupied p = true → SporkedBy m.log (m.pid p) child →
    Collected m.log child ∨ ∃ i, m.kernel.childOf i p ∧ m.pid i = child
  uncollected : ∀ i, m.kernel.occupied i = true → ¬ Collected m.log (m.pid i)
  quitted : ∀ i, m.kernel.occupied i = true → m.kernel.status i = .terminated →
    HasQuit m.log (m.pid i) (m.kernel.process_table i).exit_status
  working : m.stopped = none → ∀ i status, m.kernel.occupied i = true → HasQuit m.log (m.pid i) status →
    m.kernel.status i = .terminated
  sporkBelow : ∀ parent child, SporkedBy m.log parent child → parent < m.kernel.next_pid ∧ child < m.kernel.next_pid
  joinBelow : ∀ child, Collected m.log child → child < m.kernel.next_pid
  quitBelow : ∀ pid status, HasQuit m.log pid status → pid < m.kernel.next_pid
  oneParent : ∀ parent parent' child, SporkedBy m.log parent child → SporkedBy m.log parent' child → parent = parent'

namespace Ledger

variable {m m' : Machine}

/-- A stretch of code that the family does not notice. -/
theorem quiet (ledger : Ledger m) (quiet : Undisturbed m.kernel m'.kernel)
    (sporked : ∀ parent child, SporkedBy m'.log parent child ↔ SporkedBy m.log parent child)
    (collected : ∀ child, Collected m'.log child ↔ Collected m.log child)
    (quitKept : ∀ pid status, HasQuit m.log pid status → HasQuit m'.log pid status)
    (quitNew : ∀ pid status, HasQuit m'.log pid status → HasQuit m.log pid status ∨
      m'.stopped ≠ none ∧ pid < m.kernel.next_pid)
    (goesOn : m'.stopped = none → m.stopped = none)
    (places : ∀ q i, m.kernel.occupied q = true →
      (m'.place q = .inside (.spork i) ↔ m.place q = .inside (.spork i))) : Ledger m' := by
  have pid : m'.pid = m.pid := funext (kin_pid quiet.kin)
  have occupied := kin_occupied quiet.kin
  have childOf := kin_childOf quiet.kin
  have next_pid := quiet.next_pid
  constructor
  · exact ledger.family.quiet quiet
  · rw [occupied, pid]
    exact ledger.positive
  · intro i q child
    rw [childOf] at child
    rw [pid, sporked]
    have taken := (ledger.family.parent_alive child).1
    exact (ledger.announced i q child).imp_right (places q i taken).mpr
  · intro i q taken inside
    rw [occupied] at taken
    obtain ⟨child, fresh⟩ := ledger.sporking i q taken ((places q i taken).mp inside)
    rw [childOf, pid]
    exact ⟨child, fun parent told => fresh parent ((sporked _ _).mp told)⟩
  · intro q child taken told
    rw [occupied] at taken
    rw [pid, sporked] at told
    rw [collected, childOf, pid]
    exact ledger.kept q child taken told
  · intro i taken
    rw [occupied] at taken
    rw [pid, collected]
    exact ledger.uncollected i taken
  · intro i taken dead
    rw [occupied] at taken
    rw [pid, quiet.exit]
    exact quitKept _ _ (ledger.quitted i taken ((quiet.ended i).mp dead))
  · intro runs i status taken called
    rw [occupied] at taken
    rw [pid] at called
    rcases quitNew _ _ called with earlier | ⟨stops, _⟩
    · exact (quiet.ended i).mpr (ledger.working (goesOn runs) i status taken earlier)
    · exact absurd runs stops
  · intro parent child told
    rw [next_pid]
    exact ledger.sporkBelow parent child ((sporked _ _).mp told)
  · intro child taken
    rw [next_pid]
    exact ledger.joinBelow child ((collected _).mp taken)
  · intro pid status called
    rw [next_pid]
    exact (quitNew pid status called).elim (ledger.quitBelow pid status) And.right
  · intro parent parent' child told told'
    exact ledger.oneParent parent parent' child ((sporked _ _).mp told) ((sporked _ _).mp told')

/-- `spork` has created the process of `slot`, and is in `dispatcher`. -/
theorem created (ledger : Ledger m) {p slot : Slot} (running : m.kernel.running_process = some p)
    (occupied : m.kernel.occupied p = true) (alive : m.kernel.status p ≠ .terminated)
    (sporks : Sporked m.kernel slot m'.kernel)
    (sporked : ∀ parent child, SporkedBy m'.log parent child ↔ SporkedBy m.log parent child)
    (collected : ∀ child, Collected m'.log child ↔ Collected m.log child)
    (called : ∀ pid status, HasQuit m'.log pid status ↔ HasQuit m.log pid status)
    (goesOn : m'.stopped = none → m.stopped = none) (place : m'.place p = .inside (.spork slot))
    (outside : ∀ i, m.place p ≠ .inside (.spork i))
    (places : ∀ q i, q ≠ p → q ≠ slot → (m'.place q = .inside (.spork i) ↔ m.place q = .inside (.spork i)))
    (fresh : ∀ i, m'.place slot ≠ .inside (.spork i)) : Ledger m' := by
  have first := Kernel.drawPid_first m.kernel.next_pid
  have below := ledger.family.below
  have pidSlot : m'.pid slot = Kernel.drawPid m.kernel.next_pid := sporks.created.1
  have pidOther : ∀ j, j ≠ slot → m'.pid j = m.pid j := fun j other => sporks.pid_of_ne other
  have next_pid := sporks.next_pid_eq
  have childOf := sporks.childOf_iff running
  have apart := sporks.apart occupied
  have childSlot : ∀ q, ¬ m.kernel.childOf slot q := fun q child => sporks.apart child.1 rfl
  have oldChild : ∀ {i q}, m.kernel.childOf i q → i ≠ slot ∧ q ≠ slot :=
    fun child => ⟨sporks.apart child.1, sporks.apart (ledger.family.parent_alive child).1⟩
  have someone : 0 < (m.kernel.next_pid : Int) := (ledger.positive p occupied).trans (below p)
  refine ⟨sporks.family ledger.family running occupied alive, fun i taken => ?_, fun i q child => ?_,
    fun i q taken inside => ?_, fun q child taken told => ?_, fun i taken => ?_, fun i taken dead => ?_,
    fun runs i status taken quits => ?_, fun parent child told => ?_, fun child joined => ?_,
    fun pid status quits => ?_, fun parent parent' child told told' => ?_⟩
  · by_cases here : i = slot
    · rw [here, pidSlot]
      omega
    · rw [sporks.occupied_of_ne here] at taken
      rw [pidOther i here]
      exact ledger.positive i taken
  · rcases (childOf i q).mp child with ⟨rfl, rfl⟩ | old
    · exact .inr place
    · obtain ⟨otherI, otherQ⟩ := oldChild old
      rw [pidOther i otherI, pidOther q otherQ, sporked]
      rcases ledger.announced i q old with told | inside
      · exact .inl told
      · have notP : q ≠ p := by
          rintro rfl
          exact outside i inside
        exact .inr ((places q i notP otherQ).mpr inside)
  · have otherQ : q ≠ slot := by
      rintro rfl
      exact fresh i inside
    by_cases here : q = p
    · subst here
      obtain rfl : slot = i := Inside.spork.inj (Place.inside.inj (place.symm.trans inside))
      refine ⟨(childOf slot q).mpr (.inl ⟨rfl, rfl⟩), fun parent told => ?_⟩
      have bound := (ledger.sporkBelow _ _ ((sporked _ _).mp told)).2
      rw [pidSlot] at bound
      omega
    · rw [sporks.occupied_of_ne otherQ] at taken
      obtain ⟨child, untold⟩ := ledger.sporking i q taken ((places q i here otherQ).mp inside)
      rw [pidOther i (oldChild child).1]
      exact ⟨(childOf i q).mpr (.inr child), fun parent told => untold parent ((sporked _ _).mp told)⟩
  · rw [sporked] at told
    rw [collected]
    by_cases here : q = slot
    · have bound := (ledger.sporkBelow _ _ told).1
      rw [here, pidSlot] at bound
      omega
    · rw [sporks.occupied_of_ne here] at taken
      rw [pidOther q here] at told
      refine (ledger.kept q child taken told).imp_right ?_
      rintro ⟨i, old, named⟩
      exact ⟨i, (childOf i q).mpr (.inr old), (pidOther i (oldChild old).1).trans named⟩
  · rw [collected]
    by_cases here : i = slot
    · intro joined
      have bound := ledger.joinBelow _ joined
      rw [here, pidSlot] at bound
      omega
    · rw [sporks.occupied_of_ne here] at taken
      rw [pidOther i here]
      exact ledger.uncollected i taken
  · have here : i ≠ slot := by
      rintro rfl
      exact absurd (dead.symm.trans sporks.created.2.1) (by decide)
    rw [sporks.occupied_of_ne here] at taken
    rw [sporks.status_of_ne here] at dead
    rw [pidOther i here, exit_congr (sporks.other here), called]
    exact ledger.quitted i taken dead
  · rw [called] at quits
    have here : i ≠ slot := by
      rintro rfl
      have bound := ledger.quitBelow _ _ quits
      rw [pidSlot] at bound
      omega
    rw [sporks.occupied_of_ne here] at taken
    rw [pidOther i here] at quits
    rw [sporks.status_of_ne here]
    exact ledger.working (goesOn runs) i status taken quits
  · have bounds := ledger.sporkBelow parent child ((sporked _ _).mp told)
    rw [next_pid]
    omega
  · have bound := ledger.joinBelow child ((collected _).mp joined)
    rw [next_pid]
    omega
  · have bound := ledger.quitBelow pid status ((called _ _).mp quits)
    rw [next_pid]
    omega
  · exact ledger.oneParent parent parent' child ((sporked _ _).mp told) ((sporked _ _).mp told')

/-- `spork` returns to the parent. -/
theorem announces (ledger : Ledger m) {p slot : Slot} (occupied : m.kernel.occupied p = true)
    (inside : m.place p = .inside (.spork slot)) (table : m'.kernel.process_table = m.kernel.process_table)
    (next_pid : m'.kernel.next_pid = m.kernel.next_pid)
    (sporked : ∀ parent child, SporkedBy m'.log parent child ↔
      parent = m.pid p ∧ child = m.pid slot ∨ SporkedBy m.log parent child)
    (collected : ∀ child, Collected m'.log child ↔ Collected m.log child)
    (called : ∀ pid status, HasQuit m'.log pid status ↔ HasQuit m.log pid status)
    (goesOn : m'.stopped = none → m.stopped = none) (place : ∀ i, m'.place p ≠ .inside (.spork i))
    (places : ∀ q i, q ≠ p → (m'.place q = .inside (.spork i) ↔ m.place q = .inside (.spork i))) : Ledger m' := by
  have kin : ∀ j, (m'.kernel.process_table j).kin = (m.kernel.process_table j).kin := by
    intro j
    rw [table]
  have quiet : Undisturbed m.kernel m'.kernel := by
    refine ⟨kin, next_pid, fun j => ?_, fun j => ?_⟩
    · unfold Kernel.status
      rw [table]
    · rw [table]
  have pid : m'.pid = m.pid := funext (kin_pid kin)
  have occupied' := kin_occupied kin
  have childOf := kin_childOf kin
  have distinct := ledger.family.distinct
  obtain ⟨isChild, untold⟩ := ledger.sporking slot p occupied inside
  have ofP : ∀ {i q}, m.kernel.childOf i q → m.pid i = m.pid slot → q = p ∧ i = slot := by
    intro i q child same
    obtain rfl := distinct i slot child.1 same
    exact ⟨Option.some.inj (child.2.symm.trans isChild.2), rfl⟩
  refine ⟨ledger.family.quiet quiet, ?_, fun i q child => ?_, fun i q taken at_ => ?_, fun q child taken told => ?_,
    fun i taken => ?_, fun i taken dead => ?_, fun runs i status taken quits => ?_, fun parent child told => ?_,
    fun child joined => ?_, fun pid status quits => ?_, fun parent parent' child told told' => ?_⟩
  · rw [occupied', pid]
    exact ledger.positive
  · rw [childOf] at child
    rw [pid, sporked]
    rcases ledger.announced i q child with told | at_
    · exact .inl (.inr told)
    · by_cases here : q = p
      · subst here
        obtain rfl := Inside.spork.inj (Place.inside.inj (at_.symm.trans inside))
        exact .inl (.inl ⟨rfl, rfl⟩)
      · exact .inr ((places q i here).mpr at_)
  · have here : q ≠ p := by
      rintro rfl
      exact place i at_
    rw [occupied'] at taken
    obtain ⟨child, fresh⟩ := ledger.sporking i q taken ((places q i here).mp at_)
    rw [childOf, pid]
    refine ⟨child, fun parent told => ?_⟩
    rcases (sporked _ _).mp told with ⟨_, same⟩ | earlier
    · exact here (ofP child same).1
    · exact fresh parent earlier
  · rw [occupied'] at taken
    rw [pid, sporked] at told
    rw [collected, childOf, pid]
    rcases told with ⟨same, rfl⟩ | earlier
    · obtain rfl := distinct q p taken same
      exact .inr ⟨slot, isChild, rfl⟩
    · exact ledger.kept q child taken earlier
  · rw [occupied'] at taken
    rw [pid, collected]
    exact ledger.uncollected i taken
  · rw [occupied'] at taken
    rw [pid, called, quiet.exit]
    exact ledger.quitted i taken ((quiet.ended i).mp dead)
  · rw [occupied'] at taken
    rw [pid, called] at quits
    exact (quiet.ended i).mpr (ledger.working (goesOn runs) i status taken quits)
  · rw [next_pid]
    rcases (sporked _ _).mp told with ⟨rfl, rfl⟩ | earlier
    · exact ⟨ledger.family.below p, ledger.family.below slot⟩
    · exact ledger.sporkBelow parent child earlier
  · rw [next_pid]
    exact ledger.joinBelow child ((collected _).mp joined)
  · rw [next_pid]
    exact ledger.quitBelow pid status ((called _ _).mp quits)
  · rcases (sporked _ _).mp told with ⟨rfl, rfl⟩ | earlier
    · rcases (sporked _ _).mp told' with ⟨rfl, _⟩ | earlier
      · rfl
      · exact absurd earlier (untold parent')
    · rcases (sporked _ _).mp told' with ⟨_, rfl⟩ | earlier'
      · exact absurd earlier (untold parent)
      · exact ledger.oneParent parent parent' child earlier earlier'

/-- `join` returns a child. -/
theorem collects (ledger : Ledger m) {p child : Slot} {before : Option Slot}
    (found : seek m.kernel.sibling (fun i => m.kernel.status i = .terminated) maxProc none (m.kernel.children p) =
      .at before child)
    (kernel : m'.kernel = m.kernel.collect p before child)
    (sporked : ∀ parent child, SporkedBy m'.log parent child ↔ SporkedBy m.log parent child)
    (collected : ∀ c, Collected m'.log c ↔ c = m.pid child ∨ Collected m.log c)
    (called : ∀ pid status, HasQuit m'.log pid status ↔ HasQuit m.log pid status)
    (goesOn : m'.stopped = none → m.stopped = none)
    (places : ∀ q i, m'.place q = .inside (.spork i) ↔ m.place q = .inside (.spork i))
    (outside : ∀ i, m.place p ≠ .inside (.spork i)) : Ledger m' := by
  obtain ⟨isChild, dead⟩ := ledger.family.found found
  have distinct := ledger.family.distinct
  have taken' : ∀ {j}, m'.kernel.occupied j = true → j ≠ child ∧ m.kernel.occupied j = true := by
    intro j taken
    rw [kernel] at taken
    exact collect_taken taken
  have pid : ∀ {j}, j ≠ child → m'.pid j = m.pid j := by
    intro j other
    unfold Machine.pid
    rw [kernel]
    exact collect_pid_of_ne other
  have childOf : ∀ i q, m'.kernel.childOf i q ↔ i ≠ child ∧ m.kernel.childOf i q := by
    intro i q
    rw [kernel]
    exact collect_childOf i q
  have next_pid : m'.kernel.next_pid = m.kernel.next_pid := by
    rw [kernel]
    exact collect_next_pid
  have status : ∀ j, m'.kernel.status j = m.kernel.status j := by
    intro j
    rw [kernel]
    exact collect_status j
  have parentTaken : ∀ {i q}, m.kernel.childOf i q → q ≠ child := by
    rintro i q old rfl
    exact (ledger.family.parent_alive old).2 dead
  have family : Family m'.kernel := kernel ▸ ledger.family.collected found
  refine ⟨family, fun i taken => ?_, fun i q isChild' => ?_, fun i q taken inside => ?_, fun q c taken told => ?_,
    fun i taken joined => ?_, fun i taken ended => ?_, fun runs i exit taken quits => ?_, fun parent c told => ?_,
    fun c joined => ?_, fun pid exit quits => ?_, fun parent parent' c told told' => ?_⟩
  · obtain ⟨other, taken⟩ := taken' taken
    rw [pid other]
    exact ledger.positive i taken
  · obtain ⟨other, old⟩ := (childOf i q).mp isChild'
    rw [pid other, pid (parentTaken old), sporked, places]
    exact ledger.announced i q old
  · obtain ⟨other, taken⟩ := taken' taken
    obtain ⟨old, untold⟩ := ledger.sporking i q taken ((places q i).mp inside)
    have apart : i ≠ child := by
      rintro rfl
      obtain rfl := Option.some.inj (old.2.symm.trans isChild.2)
      exact outside i ((places q i).mp inside)
    rw [pid apart]
    exact ⟨(childOf i q).mpr ⟨apart, old⟩, fun parent told => untold parent ((sporked _ _).mp told)⟩
  · obtain ⟨other, taken⟩ := taken' taken
    rw [pid other, sporked] at told
    rw [collected]
    rcases ledger.kept q c taken told with joined | ⟨i, old, named⟩
    · exact .inl (.inr joined)
    · by_cases here : i = child
      · exact .inl (.inl (here ▸ named.symm))
      · exact .inr ⟨i, (childOf i q).mpr ⟨here, old⟩, (pid here).trans named⟩
  · obtain ⟨other, taken⟩ := taken' taken
    rw [pid other] at joined
    rcases (collected _).mp joined with same | earlier
    · exact other (distinct i child taken same)
    · exact ledger.uncollected i taken earlier
  · obtain ⟨other, taken⟩ := taken' taken
    rw [status] at ended
    have exit : (m'.kernel.process_table i).exit_status = (m.kernel.process_table i).exit_status := by
      rw [kernel]
      exact collect_field Process.exit_status (fun _ _ => rfl) (fun _ _ => rfl) (fun _ => rfl) i
    rw [pid other, called, exit]
    exact ledger.quitted i taken ended
  · obtain ⟨other, taken⟩ := taken' taken
    rw [pid other, called] at quits
    rw [status]
    exact ledger.working (goesOn runs) i exit taken quits
  · rw [next_pid]
    exact ledger.sporkBelow parent c ((sporked _ _).mp told)
  · rw [next_pid]
    rcases (collected _).mp joined with rfl | earlier
    · exact ledger.family.below child
    · exact ledger.joinBelow c earlier
  · rw [next_pid]
    exact ledger.quitBelow pid exit ((called _ _).mp quits)
  · exact ledger.oneParent parent parent' c ((sporked _ _).mp told) ((sporked _ _).mp told')

/-- `quit` has terminated `p`. -/
theorem quits (ledger : Ledger m) {p : Slot} {exit : Int} (died : Died m.kernel p exit m'.kernel)
    (noChild : m.kernel.children p = none) (occupied : m.kernel.occupied p = true)
    (sporked : ∀ parent child, SporkedBy m'.log parent child ↔ SporkedBy m.log parent child)
    (collected : ∀ c, Collected m'.log c ↔ Collected m.log c)
    (called : ∀ pid status, HasQuit m'.log pid status ↔ pid = m.pid p ∧ status = exit ∨ HasQuit m.log pid status)
    (goesOn : m.stopped = none)
    (places : ∀ q i, m'.place q = .inside (.spork i) ↔ m.place q = .inside (.spork i)) : Ledger m' := by
  have pid : m'.pid = m.pid := funext (kin_pid died.kin)
  have occupied' := kin_occupied died.kin
  have childOf := kin_childOf died.kin
  have next_pid := died.next_pid
  refine ⟨ledger.family.died died noChild, ?_, fun i q child => ?_, fun i q taken inside => ?_,
    fun q child taken told => ?_, fun i taken => ?_, fun i taken dead => ?_, fun _ i status taken quits => ?_,
    fun parent child told => ?_, fun child joined => ?_, fun pid status quits => ?_,
    fun parent parent' child told told' => ?_⟩
  · rw [occupied', pid]
    exact ledger.positive
  · rw [childOf] at child
    rw [pid, sporked, places]
    exact ledger.announced i q child
  · rw [occupied'] at taken
    rw [childOf, pid]
    obtain ⟨child, untold⟩ := ledger.sporking i q taken ((places q i).mp inside)
    exact ⟨child, fun parent told => untold parent ((sporked _ _).mp told)⟩
  · rw [occupied'] at taken
    rw [pid, sporked] at told
    rw [collected, childOf, pid]
    exact ledger.kept q child taken told
  · rw [occupied'] at taken
    rw [pid, collected]
    exact ledger.uncollected i taken
  · rw [occupied'] at taken
    rw [pid, called]
    by_cases here : i = p
    · subst here
      exact .inl ⟨rfl, died.own⟩
    · rw [died.exit i here]
      exact .inr (ledger.quitted i taken (((died.ended i).mp dead).resolve_left here))
  · rw [occupied'] at taken
    rw [pid, called] at quits
    rw [died.ended]
    rcases quits with ⟨same, _⟩ | earlier
    · exact .inl (ledger.family.distinct i p taken same)
    · exact .inr (ledger.working goesOn i status taken earlier)
  · rw [next_pid]
    exact ledger.sporkBelow parent child ((sporked _ _).mp told)
  · rw [next_pid]
    exact ledger.joinBelow child ((collected _).mp joined)
  · rw [next_pid]
    rcases (called _ _).mp quits with ⟨rfl, _⟩ | earlier
    · exact ledger.family.below p
    · exact ledger.quitBelow pid status earlier
  · exact ledger.oneParent parent parent' child ((sporked _ _).mp told) ((sporked _ _).mp told')

end Ledger

namespace Machine

section enter
variable {m : Machine} {a b : Int}

@[simp] theorem sporkedBy_enter : SporkedBy (m.enter p pt).log a b ↔ SporkedBy m.log a b := by
  cases pt with
  | call => exact sporkedBy_called
  | resume => exact .rfl

@[simp] theorem collected_enter : Collected (m.enter p pt).log a ↔ Collected m.log a := by
  cases pt with
  | call => exact collected_called
  | resume => exact .rfl

theorem hasQuit_enter : HasQuit (m.enter p pt).log a b ↔
    (a = m.pid p ∧ ∃ c, pt = .call c ∧ c.fn = .quit b) ∨ HasQuit m.log a b := by
  cases pt with
  | call c =>
    refine hasQuit_called.trans ?_
    simp
  | resume => simp [enter]

/-- A process that calls nothing of the kind has not called `quit`. -/
theorem hasQuit_enter_of_ne (quitless : ∀ status c, pt = .call c → c.fn ≠ .quit status) :
    HasQuit (m.enter p pt).log a b ↔ HasQuit m.log a b := by
  rw [hasQuit_enter]
  constructor
  · rintro (⟨_, c, same, isQuit⟩ | earlier)
    · exact absurd isQuit (quitless b c same)
    · exact earlier
  · exact .inr

theorem Ready.outside_spork {m : Machine} (ready : m.Ready p pt) (other : ∀ i, pt ≠ .resume (.spork i)) (i : Slot) :
    m.place p ≠ .inside (.spork i) := by
  intro inside
  rcases ready.place with ⟨c, rfl, user⟩ | ⟨w, rfl, place⟩
  · exact absurd (inside.symm.trans user) (by simp)
  · obtain rfl := Place.inside.inj (inside.symm.trans place)
    exact other i rfl

end enter

/-- The machine when `p` has entered its call. -/
abbrev entering (m : Machine) (p : Slot) (pt : Point) : Machine := (m.give p).enter p pt

end Machine

namespace Ledger

open Machine

theorem give {m : Machine} (ledger : Ledger m) (p : Slot) : Ledger (m.give p) := by
  have family : Family (m.give p).kernel :=
    ⟨ledger.family.children, ledger.family.childless, ledger.family.free, ledger.family.below, ledger.family.distinct⟩
  exact ⟨family, ledger.positive, ledger.announced, ledger.sporking, ledger.kept, ledger.uncollected, ledger.quitted,
    ledger.working, ledger.sporkBelow, ledger.joinBelow, ledger.quitBelow, ledger.oneParent⟩

variable {m : Machine}

/-- A `spork` that has created its process, before it returns. -/
theorem sporks {c : Call} {slot : Slot} (ledger : Ledger (m.give p)) (ready : m.Ready p (.call c))
    (fn : c.fn = .spork) (sporks : Sporked (m.give p).kernel slot k) :
    Ledger ((m.entering p (.call c)).switch p (.spork slot) k) := by
  have occupied : (m.give p).kernel.occupied p = true := ready.occupied
  have alive : (m.give p).kernel.status p ≠ .terminated := by
    rw [give_status, ready.runnable]
    decide
  have apart := (sporks.apart occupied).symm
  have context : ∀ q, q ≠ slot → (m.give p).contexts k q = m.place q := by
    intro q other
    exact EntryTable.renewed_of_kept (sporks.occupied_of_ne other).trans
  refine ledger.created give_running occupied alive sporks (fun _ _ => sporkedBy_enter) (fun _ => collected_enter)
    (fun _ _ => hasQuit_enter_of_ne ?_) (fun _ => ready.goesOn) switch_place_self
    (ready.outside_spork (by rintro _ ⟨⟩)) (fun q i notP notSlot => ?_) fun i => ?_
  · rintro status _ ⟨⟩ quits
    exact absurd (fn.symm.trans quits) (by simp)
  · rw [switch_place_of_ne notP, context q notSlot]
    exact .rfl
  · rw [switch_place_of_ne apart]
    rw [contexts, EntryTable.renewed_new sporks.free sporks.occupied_self]
    simp

/-- Coming back from a call. -/
theorem back (ledger : Ledger (m.give p)) (ready : m.Ready p pt)
    (returned : Return (m.give p).kernel p pt k value status) :
    Ledger ((m.entering p pt).back p pt.fn k value status) := by
  have occupied : (m.give p).kernel.occupied p = true := ready.occupied
  have goesOn : ((m.entering p pt).back p pt.fn k value status).stopped = none → (m.give p).stopped = none :=
    fun _ => ready.goesOn
  have placeSelf : ∀ i, ((m.entering p pt).back p pt.fn k value status).place p ≠ .inside (.spork i) := by
    intro i
    rw [back_place_self]
    rintro ⟨⟩
  have placeOther : ∀ q, q ≠ p → ((m.entering p pt).back p pt.fn k value status).place q = (m.give p).contexts k q :=
    fun q other => back_place_of_ne other
  cases returned with
  | plain bound _ quitless sporkless =>
    have places : (m.give p).contexts (m.give p).kernel = (m.give p).place := EntryTable.renewed_eq_self fun _ => id
    refine ledger.quiet .refl (fun parent child => ?_) (fun child => ?_) (fun pid exit => ?_) (fun pid exit => ?_)
      goesOn fun q i _ => ?_
    · refine sporkedBy_returned.trans ?_
      rw [sporkedBy_enter]
      constructor
      · rintro (⟨positive, _, _, rfl, _⟩ | earlier)
        · omega
        · exact earlier
      · exact .inr
    · refine collected_returned.trans ?_
      rw [collected_enter]
      simp
    · exact fun earlier => hasQuit_returned.mpr ((hasQuit_enter_of_ne quitless).mpr earlier)
    · exact fun later => .inl ((hasQuit_enter_of_ne quitless).mp (hasQuit_returned.mp later))
    · by_cases here : q = p
      · subst here
        exact ⟨fun inside => absurd inside (placeSelf i),
          fun inside => absurd inside (ready.outside_spork sporkless i)⟩
      · rw [placeOther q here, places]
  | @sporked slot =>
    have inside : (m.give p).place p = .inside (.spork slot) := by
      rcases ready.place with ⟨_, ⟨⟩, _⟩ | ⟨_, ⟨⟩, place⟩
      exact place
    have positive := ledger.positive slot (ledger.sporking slot p occupied inside).1.1
    have places : (m.give p).contexts (m.give p).kernel = (m.give p).place := EntryTable.renewed_eq_self fun _ => id
    refine ledger.announces occupied inside rfl rfl (fun parent child => ?_) (fun child => ?_)
      (fun pid exit => hasQuit_returned) goesOn placeSelf fun q i other => ?_
    · refine sporkedBy_returned.trans (or_congr_left ⟨fun told => ⟨told.2.1, told.2.2.2.1⟩, ?_⟩)
      rintro ⟨rfl, rfl⟩
      exact ⟨positive, rfl, rfl, rfl, rfl⟩
    · refine collected_returned.trans ⟨?_, .inr⟩
      rintro (⟨isJoin, _⟩ | earlier)
      · cases isJoin
      · exact earlier
    · rw [placeOther q other, places]
  | @sporks c slot _ fn sporks =>
    have created := ledger.sporks ready fn sporks
    have apart := sporks.apart occupied
    have named : ((m.entering p (.call c)).switch p (.spork slot) k).pid p = m.pid p := sporks.pid_of_ne apart
    have occupied' : ((m.entering p (.call c)).switch p (.spork slot) k).kernel.occupied p = true :=
      (sporks.occupied_of_ne apart).trans occupied
    have positive := created.positive slot sporks.occupied_self
    refine created.announces occupied' switch_place_self rfl rfl (fun parent child => ?_) (fun child => ?_)
      (fun pid exit => hasQuit_returned) (fun _ => ready.goesOn) placeSelf fun q i other => ?_
    · rw [named]
      refine sporkedBy_returned.trans (or_congr_left ⟨fun told => ⟨?_, told.2.2.2.1⟩, ?_⟩)
      · exact told.2.1.trans (enter_pid (m.give p) p (.call c) p)
      · rintro ⟨rfl, rfl⟩
        exact ⟨positive, (enter_pid (m.give p) p (.call c) p).symm, fn, rfl, rfl⟩
    · refine collected_returned.trans ⟨?_, .inr⟩
      rintro (⟨isJoin, _⟩ | earlier)
      · exact absurd (fn.symm.trans isJoin) (by simp)
      · exact earlier
    · rw [placeOther q other, switch_place_of_ne other]
  | @collects _ before child joins found =>
    have places : (m.give p).contexts ((m.give p).kernel.collect p before child) = (m.give p).place := by
      refine EntryTable.renewed_eq_self fun i free => ?_
      by_cases here : i = child
      · rw [here, collect_vacates]
      · rwa [collect_occupied_of_ne here]
    have isJoin := joins_fn joins
    have outside : ∀ i, (m.give p).place p ≠ .inside (.spork i) := by
      refine ready.outside_spork ?_
      rintro i rfl
      cases joins
    refine ledger.collects found rfl (fun parent c => ?_) (fun c => ?_) (fun pid exit => ?_) goesOn
      (fun q i => ?_) outside
    · refine sporkedBy_returned.trans ?_
      rw [sporkedBy_enter]
      simp
    · refine collected_returned.trans ?_
      rw [collected_enter]
      simp [isJoin, Machine.pid]
    · refine hasQuit_returned.trans (hasQuit_enter_of_ne ?_)
      rintro exit c rfl quits
      exact absurd (isJoin.symm.trans quits) (by simp)
    · by_cases here : q = p
      · subst here
        exact ⟨fun inside => absurd inside (placeSelf i), fun inside => absurd inside (outside i)⟩
      · rw [placeOther q here, places]

/-- Leaving the CPU in `dispatcher`. -/
theorem switch {inside : Inside} (ledger : Ledger (m.give p)) (ready : m.Ready p pt)
    (effect : Effect (m.give p).kernel p pt (k, .dispatches inside)) :
    Ledger ((m.entering p pt).switch p inside k) := by
  have occupied : (m.give p).kernel.occupied p = true := ready.occupied
  have placeOther : ∀ q, q ≠ p → ((m.entering p pt).switch p inside k).place q = (m.give p).contexts k q :=
    fun q other => switch_place_of_ne other
  have unlinked : ∀ {i}, pt.fn ≠ .spork → (m.give p).place p ≠ .inside (.spork i) := by
    intro i other
    refine ready.outside_spork ?_ i
    rintro i rfl
    exact other rfl
  have places : (∀ j, (k.process_table j).kin = ((m.give p).kernel.process_table j).kin) →
      (∀ i, inside ≠ .spork i) → pt.fn ≠ .spork → ∀ q i,
        (((m.entering p pt).switch p inside k).place q = .inside (.spork i) ↔
          (m.give p).place q = .inside (.spork i)) := by
    intro kin sporkless other q i
    have same : (m.give p).contexts k = (m.give p).place := by
      refine EntryTable.renewed_eq_self fun i free => ?_
      rwa [kin_occupied kin]
    by_cases here : q = p
    · subst here
      rw [switch_place_self]
      exact ⟨fun at_ => absurd (Place.inside.inj at_) (sporkless i), fun at_ => absurd at_ (unlinked other)⟩
    · rw [placeOther q here, same]
  cases effect with
  | quiet quiet named =>
    obtain ⟨same, sporkless, quitless⟩ := named inside rfl
    have quitless : ∀ status c, pt = .call c → c.fn ≠ .quit status := by
      rintro status c rfl quits
      exact quitless status quits
    have away : ∀ i, inside ≠ .spork i := by
      rintro i rfl
      exact sporkless same.symm
    exact ledger.quiet quiet (fun _ _ => sporkedBy_enter) (fun _ => collected_enter)
      (fun _ _ earlier => (hasQuit_enter_of_ne quitless).mpr earlier)
      (fun _ _ later => .inl ((hasQuit_enter_of_ne quitless).mp later)) (fun _ => ready.goesOn)
      fun q i _ => places quiet.kin away sporkless q i
  | @sporks c slot _ _ fn sporks ending =>
    rcases ending with ⟨⟨⟩⟩ | same
    obtain rfl := Ending.dispatches.inj same
    exact ledger.sporks ready fn sporks
  | @quits _ exit _ quits noChild died =>
    obtain ⟨c, rfl, fn⟩ := quits_call quits
    refine ledger.quits died noChild occupied (fun _ _ => sporkedBy_enter) (fun _ => collected_enter)
      (fun pid status => ?_) ready.goesOn (places died.kin (by rintro _ ⟨⟩) fun isSpork => ?_)
    · refine hasQuit_enter.trans (or_congr_left (and_congr_right fun _ => ?_))
      constructor
      · rintro ⟨_, ⟨⟩, same⟩
        exact (Fn.quit.inj (fn.symm.trans same)).symm
      · rintro rfl
        exact ⟨c, rfl, fn⟩
    · exact absurd (fn.symm.trans isSpork) (by simp)

theorem stops {reason : Stop} (ledger : Ledger (m.give p)) : Ledger ((m.entering p pt).stop reason) := by
  refine ledger.quiet ?_ (fun _ _ => sporkedBy_enter) (fun _ => collected_enter)
    (fun _ _ earlier => hasQuit_enter.mpr (.inr earlier)) (fun pid exit later => ?_) (fun runs => ?_) fun q i _ => ?_
  · show Undisturbed (m.give p).kernel ((m.give p).enter p pt).kernel
    rw [enter_kernel]
    exact .refl
  · rcases hasQuit_enter.mp later with ⟨rfl, _⟩ | earlier
    · exact .inr ⟨by simp [stop], ledger.family.below p⟩
    · exact .inl earlier
  · cases runs
  · show ((m.give p).enter p pt).place q = _ ↔ _
    rw [enter_place]

theorem turn {t : Turn} {m' : Machine} (ledger : Ledger m) (taken : Taken m t m') : Ledger m' := by
  cases taken with
  | @begins p goesOn live place =>
    refine (ledger.give p).quiet .refl (fun _ _ => .rfl) (fun _ => .rfl) (fun _ _ => id) (fun _ _ => .inl)
      (fun _ => goesOn) fun q i _ => ?_
    by_cases here : q = p
    · subst here
      simp [place]
    · simp [here]
  | @returns p pt k value status ready goes =>
    exact (ledger.give p).back ready (Point.exec_return give_running goes)
  | @yields p pt k inside ready goes =>
    have alive : (m.give p).kernel.status p ≠ .terminated := by
      rw [give_status, ready.runnable]
      decide
    exact (ledger.give p).switch ready ((ready.path goes).effect alive)
  | halts =>
    exact ledger.quiet .refl (fun _ _ => .rfl) (fun _ => .rfl) (fun _ _ => id) (fun _ _ => .inl) (by rintro ⟨⟩)
      fun _ _ _ => .rfl
  | @stops p pt reason ready => exact (ledger.give p).stops

end Ledger

theorem boot_childless (i p : Slot) : ¬ Machine.boot.kernel.childOf i p := by
  have alone : ∀ i, Machine.boot.kernel.occupied i = true → (Machine.boot.kernel.process_table i).parent = none := by
    decide
  intro child
  exact absurd ((alone i child.1).symm.trans child.2) (by simp)

theorem boot_family : Family Machine.boot.kernel := by
  refine ⟨fun p => ⟨[], ?_, fun i => ?_⟩, by decide, by decide, by decide, by decide⟩
  · show Machine.boot.kernel.children p = none
    revert p
    decide
  · simp [boot_childless i p]

theorem boot_ledger : Ledger Machine.boot := by
  have nobody : ∀ i, Machine.boot.kernel.occupied i = true → Machine.boot.kernel.status i ≠ .terminated := by decide
  refine ⟨boot_family, by decide, fun i p child => absurd child (boot_childless i p), by rintro _ _ _ ⟨⟩,
    fun _ _ _ told => absurd told.2 List.not_mem_nil, fun _ _ joined => ?_,
    fun i taken dead => absurd dead (nobody i taken), fun _ _ _ _ quits => absurd quits List.not_mem_nil,
    fun _ _ told => absurd told.2 List.not_mem_nil, fun _ joined => ?_, fun _ _ quits => absurd quits List.not_mem_nil,
    fun _ _ _ told => absurd told.2 List.not_mem_nil⟩
  · obtain ⟨_, _, joined⟩ := joined
    exact List.not_mem_nil joined
  · obtain ⟨_, _, joined⟩ := joined
    exact absurd joined List.not_mem_nil

theorem Machine.Ordered.ledger {m : Machine} (ordered : Machine.Ordered m) : Ledger m :=
  Transition.Run.invariant ordered Ledger boot_ledger fun _ _ _ ledger _ moves =>
    ledger.turn (Machine.turn_taken moves)

/-- What a return of `join` says: an error, that no child is left, or a child
that has called `quit`, with its status, which no `join` has returned before. -/
def JoinLaw : Event → List Event → Prop
  | .returned caller .join value status, older =>
    status = none ∧ (value = -3 ∨ value = -2 ∧ ∀ child, SporkedBy older caller child → Collected older child) ∨
      ∃ exit, status = some exit ∧ SporkedBy older caller value ∧ HasQuit older value exit ∧ ¬ Collected older value
  | _, _ => True

/-- A process that calls `quit` does so for the first time, and its children have been joined. -/
def QuitLaw : Event → List Event → Prop
  | .called pid (.quit _), older =>
    (∀ child, SporkedBy older pid child → Collected older child) ∧ ∀ status, ¬ HasQuit older pid status
  | _, _ => True

open Machine in
/-- The law of `join` at a return. -/
theorem Ledger.joinLaw {m : Machine} (ledger : Ledger (m.give p)) (ready : m.Ready p pt)
    (returned : Return (m.give p).kernel p pt k value status) :
    JoinLaw (.returned ((m.entering p pt).pid p) pt.fn value status) (m.entering p pt).log := by
  have named : (m.entering p pt).pid p = m.pid p := enter_pid (m.give p) p pt p
  have occupied : (m.give p).kernel.occupied p = true := ready.occupied
  by_cases isJoin : pt.fn = .join
  · rw [named, isJoin]
    simp only [JoinLaw, sporkedBy_enter, collected_enter]
    cases returned with
    | plain _ joins _ _ =>
      refine .inl ⟨rfl, (joins isJoin).imp_right ?_⟩
      rintro ⟨rfl, noChild⟩
      refine ⟨rfl, fun child told => ?_⟩
      rcases ledger.kept p child occupied told with joined | ⟨i, isChild, _⟩
      · exact joined
      · exact absurd isChild (ledger.family.childless_iff.mp noChild i)
    | sporked => cases isJoin
    | sporks fn => exact absurd (fn.symm.trans isJoin) (by simp)
    | @collects _ before child joins found =>
      obtain ⟨isChild, dead⟩ := ledger.family.found found
      have outside : ∀ i, (m.give p).place p ≠ .inside (.spork i) := by
        refine ready.outside_spork ?_
        rintro i rfl
        cases joins
      have told := (ledger.announced child p isChild).resolve_right (outside child)
      have quits := ledger.quitted child isChild.1 dead
      refine .inr ⟨_, rfl, told, ?_, ledger.uncollected child isChild.1⟩
      exact hasQuit_enter.mpr (.inr quits)
  · unfold JoinLaw
    split
    · rename_i same
      exact absurd (Event.returned.inj same).2.1 isJoin
    · trivial

theorem joined_justified {m : Machine} (ordered : Machine.Ordered m) : History.Justified JoinLaw m.log := by
  refine Transition.Run.invariant_above ordered (fun _ earlier => Machine.Ordered.ledger earlier)
    (fun m => History.Justified JoinLaw m.log) .nil fun m t m' ledger laws _ moves => ?_
  have entered : ∀ p pt, History.Justified JoinLaw (m.entering p pt).log := by
    intro p pt
    cases pt with
    | call => exact laws.cons trivial
    | resume => exact laws
  cases Machine.turn_taken moves with
  | begins => exact laws
  | returns ready goes =>
    exact (entered _ _).cons ((ledger.give _).joinLaw ready (Point.exec_return Machine.give_running goes))
  | yields ready goes => exact entered _ _
  | halts => exact laws
  | stops => exact entered _ _

theorem entered_quitLaw {m : Machine} (laws : History.Justified QuitLaw m.log)
    (quits : ∀ status c, pt = .call c → c.fn = .quit status → QuitLaw (.called (m.pid p) (.quit status)) m.log) :
    History.Justified QuitLaw (m.entering p pt).log := by
  cases pt with
  | resume => exact laws
  | call c =>
    refine laws.cons ?_
    cases fn : c.fn with
    | quit status => exact quits status c rfl fn
    | _ => trivial

/-- A process that does not call `quit` leaves the law alone. -/
theorem entered_quitless {m : Machine} (laws : History.Justified QuitLaw m.log)
    (quitless : ∀ status c, pt = .call c → c.fn ≠ .quit status) :
    History.Justified QuitLaw (m.entering p pt).log :=
  entered_quitLaw laws fun status c same isQuit => absurd isQuit (quitless status c same)

/-- A `quit` that comes to its end. -/
theorem Ledger.quitLaw {m : Machine} {exit : Int} (ledger : Ledger m) (ready : m.Ready p pt)
    (noChild : m.kernel.children p = none) : QuitLaw (.called (m.pid p) (.quit exit)) m.log := by
  refine ⟨fun child told => ?_, fun status quits => ?_⟩
  · rcases ledger.kept p child ready.occupied told with joined | ⟨i, isChild, _⟩
    · exact joined
    · exact absurd isChild (ledger.family.childless_iff.mp noChild i)
  · have dead := ledger.working ready.goesOn p status ready.occupied quits
    exact absurd (dead.symm.trans ready.runnable) (by decide)

theorem quit_justified {m : Machine} (ordered : Machine.Ordered m) :
    m.stopped = none → History.Justified QuitLaw m.log := by
  refine Transition.Run.invariant_above ordered (fun _ earlier => Machine.Ordered.ledger earlier)
    (fun m => m.stopped = none → History.Justified QuitLaw m.log) (fun _ => .nil) fun m t m' ledger laws _ moves => ?_
  cases Machine.turn_taken moves with
  | begins goesOn => exact fun _ => laws goesOn
  | @returns p pt k value status ready goes =>
    intro _
    have law : History.Justified QuitLaw (m.entering p pt).log := by
      refine entered_quitless (laws ready.goesOn) ?_
      cases Point.exec_return Machine.give_running goes with
      | plain _ _ quitless => exact quitless
      | sporked => rintro _ _ ⟨⟩
      | sporks fn =>
        rintro status _ ⟨⟩ isQuit
        exact absurd (fn.symm.trans isQuit) (by simp)
      | collects joins =>
        rintro status c rfl isQuit
        exact absurd ((joins_fn joins).symm.trans isQuit) (by simp)
    exact law.cons trivial
  | @yields p pt k inside ready goes =>
    intro _
    have alive : (m.give p).kernel.status p ≠ .terminated := by
      rw [Machine.give_status, ready.runnable]
      decide
    have effect := (ready.path goes).effect alive
    generalize seg : (k, Ending.dispatches inside) = seg at effect
    cases effect with
    | quiet _ named =>
      cases seg
      refine entered_quitless (laws ready.goesOn) ?_
      rintro status c rfl isQuit
      exact (named inside rfl).2.2 status isQuit
    | sporks fn =>
      refine entered_quitless (laws ready.goesOn) ?_
      rintro status _ ⟨⟩ isQuit
      exact absurd (fn.symm.trans isQuit) (by simp)
    | collects => cases seg
    | quits _ noChild => exact entered_quitLaw (laws ready.goesOn) fun _ _ _ _ => ledger.quitLaw ready noChild
  | halts => rintro ⟨⟩
  | stops => rintro ⟨⟩

/-- Every exit status is collected once, by the parent, before the parent can quit. -/
theorem exit_status_collected_once {m : Machine} (ordered : Machine.Ordered m) :
    History.Justified JoinLaw m.log ∧ (m.stopped = none → History.Justified QuitLaw m.log) ∧
      ∀ parent parent' child, SporkedBy m.log parent child → SporkedBy m.log parent' child → parent = parent' :=
  ⟨joined_justified ordered, quit_justified ordered, ordered.ledger.oneParent⟩

/-- `init` joins `testcase_main`. -/
def childJoined : List Turn :=
  [.resume initSlot, .call initSlot (Machine.sporks 3), .resume Machine.testcaseSlot,
    .call Machine.testcaseSlot (.quit true 7), .resume initSlot, .call initSlot (.join true)]

theorem exit_status_collected_once_run : ∃ m, Machine.Ordered m ∧
    Event.returned 1 .join 2 (some 7) ∈ m.log ∧
    History.Justified JoinLaw m.log ∧ (m.stopped = none → History.Justified QuitLaw m.log) ∧
      ∀ parent parent' child, SporkedBy m.log parent child → SporkedBy m.log parent' child → parent = parent' := by
  obtain ⟨m, ordered, joined⟩ := Machine.exists_ordered childJoined
    (fun m => decide (Event.returned 1 .join 2 (some 7) ∈ m.log)) (by decide +kernel)
  exact ⟨m, ordered, of_decide_eq_true joined, exit_status_collected_once ordered⟩

end UslossKernel.Phase1b
