import UslossKernel.Library.Population
import UslossKernel.TerminateReaps

namespace UslossKernel.Phase1b

open LinkedList Kernel

/-- Inside a `spork` that has created its process and has not returned. -/
def Place.inSpork : Place → Bool
  | .inside (.spork _) => true
  | _ => false

/-- A `spork` has returned a process. -/
def Event.announces : Event → Bool
  | .returned _ .spork value _ => 0 < value
  | _ => false

/-- A `join` has returned a process. -/
def Event.collects : Event → Bool
  | .returned _ .join _ (some _) => true
  | _ => false

variable {k : Kernel} {p slot child : Slot} {pt : Point} {before : Option Slot} {value : Int} {status : Option Int}

theorem Sporked.occupied_eq {k' : Kernel} (sporked : Sporked k slot k') :
    k'.occupied = Function.update k.occupied slot true := by
  funext i
  by_cases here : i = slot
  · rw [here, Function.update_self, sporked.occupied_self]
  · rw [Function.update_of_ne here, sporked.occupied_of_ne here]

theorem Kernel.collect_occupied_eq :
    (k.collect p before child).occupied = Function.update k.occupied child false := by
  funext i
  by_cases here : i = child
  · rw [here, Function.update_self, collect_vacates]
  · rw [Function.update_of_ne here, collect_occupied_of_ne here]

section allocation

open Machine

variable {m m' : Machine}

/-- A free entry has no stack. -/
def Unstacked (k : Kernel) : Prop := ∀ i, k.occupied i = false → (k.process_table i).stack = false

theorem Unstacked.path {k : Kernel} {seg : Segment} (unstacked : Unstacked k) (path : Path k p pt seg) :
    Unstacked seg.1 := by
  intro i free
  have change := path.change i
  have vacant : (seg.1.unlinked i).pid = -1 := not_not.mp (of_decide_eq_false free)
  have before : (k.unlinked i).pid = -1 → (k.process_table i).stack = false :=
    fun same => unstacked i (decide_eq_false (not_not.mpr same))
  generalize atI : seg.1.unlinked i = e at change vacant
  rw [Phase3.stack_of_unlinked atI]
  cases change with
  | created _ named =>
    rw [named] at vacant
    omega
  | collected => rfl
  | same | blocks | died | parentWoken | zapperWoken | unblocked => exact before vacant

theorem Unstacked.turn {t : Turn} (unstacked : Unstacked m.kernel) (taken : Taken m t m') : Unstacked m'.kernel := by
  cases taken with
  | begins | halts => exact unstacked
  | returns ready goes => exact Unstacked.path (k := (m.give _).kernel) unstacked (ready.path goes)
  | yields ready goes => exact Unstacked.path (k := (m.give _).kernel) unstacked (ready.path goes)
  | @stops q pt => cases pt <;> exact unstacked

theorem Machine.Ordered.stack_iff (ordered : Ordered m) (i : Slot) :
    (m.kernel.process_table i).stack = true ↔ m.kernel.occupied i = true := by
  have unstacked : Unstacked m.kernel :=
    Transition.Run.invariant ordered (fun m => Unstacked m.kernel) (by unfold Unstacked; decide)
      fun _ _ _ before _ moves => before.turn (turn_taken moves)
  refine ⟨fun stack => ?_, Phase3.stacked_of_ordered ordered i⟩
  by_contra free
  exact absurd (stack.symm.trans (unstacked i (by simpa using free))) (by decide)

end allocation

namespace Machine

variable {m m' n : Machine}

/-- The processes that are inside such a `spork`. -/
def sporking (m : Machine) (i : Slot) : Bool :=
  m.kernel.occupied i && (m.place i).inSpork

/-- What has been created is still in the table or has been returned by `join`:
`taken` entries, and `pending` processes that `spork` has yet to return. -/
structure Balanced (m : Machine) (taken pending : Nat) : Prop where
  entries : Counts m.kernel.occupied id taken
  inside : Counts m.sporking id pending
  balance : taken + m.log.countP Event.collects = 1 + m.log.countP Event.announces + pending

/-- Only the running process goes into a `spork` or comes out of it. -/
theorem sporking_eq (ledger : Ledger m) (ready : m.Ready p pt) (occupied : k.occupied p = true)
    (places : ∀ q, q ≠ p → n.place q = m.contexts k q) (kernel : n.kernel = k)
    (kept : ∀ q, k.occupied q = m.kernel.occupied q ∨ (m.kernel.occupied q = false ∧ k.occupied q = true) ∨
      m.kernel.status q = .terminated ∧ k.occupied q = false) :
    n.sporking = Function.update m.sporking p (n.place p).inSpork := by
  subst kernel
  funext q
  by_cases here : q = p
  · subst here
    simp [sporking, occupied]
  rw [Function.update_of_ne here, sporking, sporking, places q here]
  rcases kept q with same | ⟨free, taken⟩ | ⟨dead, freed⟩
  · have still : m.contexts n.kernel q = m.place q := EntryTable.renewed_of_kept same.trans
    rw [same, still]
  · rw [contexts, EntryTable.renewed_new free taken]
    simp [free, taken, Place.inSpork]
  · -- a process that has terminated is in no `spork`, for it would have a child
    rw [freed]
    cases taken : m.kernel.occupied q with
    | false => rfl
    | true =>
      cases place : m.place q with
      | fresh | user => rfl
      | inside inside =>
        cases inside with
        | spork i =>
          have isChild := (ledger.sporking i q taken place).1
          exact absurd dead (ledger.family.parent_alive isChild).2
        | _ => rfl

theorem enter_countP {test : Event → Bool} (blind : ∀ pid fn, test (.called pid fn) = false) :
    (m.entering p pt).log.countP test = m.log.countP test := by
  cases pt with
  | resume => rfl
  | call c => exact List.countP_cons_of_neg (by simp [blind])

/-- Outside such a `spork`, the running process counts for nothing. -/
theorem Ready.sporking_self (ready : m.Ready p pt) (other : ∀ i, pt ≠ .resume (.spork i)) : m.sporking p = false := by
  have outside := ready.outside_spork other
  unfold sporking
  cases place : m.place p with
  | fresh | user => simp [Place.inSpork]
  | inside inside =>
    cases inside with
    | spork i => exact absurd place (outside i)
    | _ => simp [Place.inSpork]

/-- A return adds one event. -/
theorem back_countP {test : Event → Bool} (blind : ∀ pid fn, test (.called pid fn) = false) :
    ((m.entering p pt).back p pt.fn k value status).log.countP test =
      m.log.countP test + if test (.returned ((m.entering p pt).pid p) pt.fn value status) then 1 else 0 := by
  refine List.countP_cons.trans ?_
  rw [enter_countP blind]

namespace Balanced

variable {taken pending : Nat}

/-- Coming back from a call. -/
theorem back (balanced : m.Balanced taken pending) (ledger : Ledger m) (ready : m.Ready p pt)
    (returned : Return (m.give p).kernel p pt k value status) :
    ∃ taken pending, ((m.entering p pt).back p pt.fn k value status).Balanced taken pending := by
  obtain ⟨entries, inside, balance⟩ := balanced
  have occupied : (m.give p).kernel.occupied p = true := ready.occupied
  have places : ∀ q, q ≠ p → ((m.entering p pt).back p pt.fn k value status).place q = (m.give p).contexts k q :=
    fun q other => back_place_of_ne other
  have collects := @back_countP k p pt value status m _ fun _ _ => (rfl : Event.collects (.called _ _) = false)
  have announces := @back_countP k p pt value status m _ fun _ _ => (rfl : Event.announces (.called _ _) = false)
  have user : (((m.entering p pt).back p pt.fn k value status).place p).inSpork = false := by
    rw [back_place_self]
    rfl
  cases returned with
  | plain bound _ _ sporkless =>
    have table := sporking_eq (n := (m.entering p pt).back p pt.fn (m.give p).kernel value none) ledger ready
      occupied places rfl fun _ => .inl rfl
    have stays := inside.update p false
    rw [ready.sporking_self sporkless] at stays
    refine ⟨taken, pending, entries, ?_, ?_⟩
    · rw [table, user]
      exact stays
    · rw [collects, announces]
      have silent : ¬ 0 < value := by omega
      cases pt.fn <;> simpa [Event.collects, Event.announces, silent] using balance
  | @sporked slot =>
    have place : m.place p = .inside (.spork slot) := by
      rcases ready.place with ⟨_, ⟨⟩, _⟩ | ⟨_, ⟨⟩, place⟩
      exact place
    have positive := ledger.positive slot (ledger.sporking slot p ready.occupied place).1.1
    have table := sporking_eq (n := (m.entering p _).back p _ (m.give p).kernel _ none) ledger ready
      occupied places rfl fun _ => .inl rfl
    have self : m.sporking p = true := by simp [sporking, ready.occupied, place, Place.inSpork]
    have someone := inside.pos self
    have leaves : Counts (Function.update m.sporking p false) id (pending - 1) := by
      simpa [self] using inside.update p false
    refine ⟨taken, pending - 1, entries, ?_, ?_⟩
    · rw [table, user]
      exact leaves
    · have told : 0 < ((m.give p).kernel.process_table slot).pid := positive
      rw [collects, announces]
      simp only [Point.fn, Inside.fn, Event.collects, Event.announces, decide_eq_true told]
      simp only [Bool.false_eq_true, if_false, if_true]
      omega
  | @sporks c slot _ fn sporks =>
    have created : k.occupied p = true := (sporks.occupied_of_ne (sporks.apart occupied)).trans occupied
    have table := sporking_eq (n := (m.entering p _).back p _ k _ none) ledger ready created places rfl fun q => by
      by_cases here : q = slot
      · subst here
        exact .inr (.inl ⟨sporks.free, sporks.occupied_self⟩)
      · exact .inl (sporks.occupied_of_ne here)
    have stays := inside.update p false
    rw [ready.sporking_self (by rintro _ ⟨⟩)] at stays
    have free : m.kernel.occupied slot = false := sporks.free
    have more : Counts (Function.update m.kernel.occupied slot true) id (taken + 1) := by
      simpa [free] using entries.update slot true
    refine ⟨taken + 1, pending, ?_, ?_, ?_⟩
    · show Counts k.occupied id (taken + 1)
      rw [sporks.occupied_eq]
      exact more
    · rw [table, user]
      exact stays
    · have told : 0 < (k.process_table slot).pid := by
        have first := (drawPid_first (m.give p).kernel.next_pid).1
        have below : m.pid p < (m.give p).kernel.next_pid := ledger.family.below p
        have positive := ledger.positive p ready.occupied
        rw [sporks.created.1]
        omega
      rw [collects, announces]
      simp only [Point.fn, fn, Event.collects, Event.announces, decide_eq_true told]
      simp only [Bool.false_eq_true, if_false, if_true]
      omega
  | @collects _ before child joins found =>
    obtain ⟨isChild, dead⟩ := (ledger.give p).family.found found
    have sporkless : ∀ i, pt ≠ .resume (.spork i) := by
      rintro i rfl
      cases joins
    have other : p ≠ child := by
      rintro rfl
      rw [give_status, ready.runnable] at dead
      cases dead
    have table := sporking_eq (n := (m.entering p pt).back p pt.fn _ _ _) ledger ready
      ((collect_occupied_of_ne other).trans occupied) places rfl fun q => by
        by_cases here : q = child
        · subst here
          exact .inr (.inr ⟨dead, collect_vacates⟩)
        · exact .inl (collect_occupied_of_ne here)
    have stays := inside.update p false
    rw [ready.sporking_self sporkless] at stays
    have there : m.kernel.occupied child = true := isChild.1
    have someone := entries.pos (i := child) there
    have fewer : Counts (Function.update m.kernel.occupied child false) id (taken - 1) := by
      simpa [there] using entries.update child false
    refine ⟨taken - 1, pending, ?_, ?_, ?_⟩
    · show Counts ((m.give p).kernel.collect p before child).occupied id (taken - 1)
      rw [collect_occupied_eq]
      exact fewer
    · rw [table, user]
      exact stays
    · rw [collects, announces]
      simp only [joins_fn joins, Event.collects, Event.announces, Bool.false_eq_true, if_false, if_true]
      omega

/-- Leaving the CPU in `dispatcher`. -/
theorem switch {inside : Inside} (balanced : m.Balanced taken pending) (ledger : Ledger m) (ready : m.Ready p pt)
    (effect : Effect (m.give p).kernel p pt (k, .dispatches inside)) :
    ∃ taken pending, ((m.entering p pt).switch p inside k).Balanced taken pending := by
  obtain ⟨entries, sporks, balance⟩ := balanced
  have occupied : (m.give p).kernel.occupied p = true := ready.occupied
  have places : ∀ q, q ≠ p → ((m.entering p pt).switch p inside k).place q = (m.give p).contexts k q :=
    fun q other => switch_place_of_ne other
  have log : ∀ {test : Event → Bool}, (∀ pid fn, test (.called pid fn) = false) →
      ((m.entering p pt).switch p inside k).log.countP test = m.log.countP test := enter_countP
  have self : (((m.entering p pt).switch p inside k).place p).inSpork = (Place.inside inside).inSpork := by
    rw [switch_place_self]
  -- the entries are those that there were
  have same : (∀ j, (k.process_table j).kin = ((m.give p).kernel.process_table j).kin) → pt.fn ≠ .spork →
      (∀ i, inside ≠ .spork i) → ((m.entering p pt).switch p inside k).Balanced taken pending := by
    intro kin other away
    have table := sporking_eq (n := (m.entering p pt).switch p inside k) ledger ready
      (by rwa [kin_occupied kin]) places rfl fun q => .inl (by rw [kin_occupied kin]; rfl)
    have stays := sporks.update p false
    rw [ready.sporking_self (by rintro i rfl; exact other rfl)] at stays
    have outside : (Place.inside inside).inSpork = false := by
      cases inside with
      | spork i => exact absurd rfl (away i)
      | _ => rfl
    refine ⟨?_, ?_, ?_⟩
    · show Counts k.occupied id taken
      rw [kin_occupied kin]
      exact entries
    · rw [table, self, outside]
      exact stays
    · rw [log fun _ _ => rfl, log fun _ _ => rfl]
      exact balance
  cases effect with
  | quiet quiet named =>
    obtain ⟨sameFn, other, _⟩ := named inside rfl
    refine ⟨taken, pending, same quiet.kin other ?_⟩
    rintro i rfl
    exact other sameFn.symm
  | @sporks c slot _ _ fn created ending =>
    obtain rfl : inside = .spork slot := by
      rcases ending with ending | ending
      · cases ending
      · exact Ending.dispatches.inj ending
    have still := (created.occupied_of_ne (created.apart occupied)).trans occupied
    have table := sporking_eq (n := (m.entering p _).switch p _ k) ledger ready still places rfl fun q => by
      by_cases here : q = slot
      · subst here
        exact .inr (.inl ⟨created.free, created.occupied_self⟩)
      · exact .inl (created.occupied_of_ne here)
    have outside := ready.sporking_self (by rintro _ ⟨⟩)
    have enters : Counts (Function.update m.sporking p true) id (pending + 1) := by
      simpa [outside] using sporks.update p true
    have free : m.kernel.occupied slot = false := created.free
    have more : Counts (Function.update m.kernel.occupied slot true) id (taken + 1) := by
      simpa [free] using entries.update slot true
    refine ⟨taken + 1, pending + 1, ?_, ?_, ?_⟩
    · show Counts k.occupied id (taken + 1)
      rw [created.occupied_eq]
      exact more
    · rw [table, self]
      exact enters
    · rw [log fun _ _ => rfl, log fun _ _ => rfl]
      omega
  | @quits _ exit _ quits _ died =>
    obtain ⟨c, rfl, fn⟩ := quits_call quits
    refine ⟨taken, pending, same died.kin ?_ (by rintro _ ⟨⟩)⟩
    exact fun isSpork => absurd (fn.symm.trans isSpork) (by simp)

theorem turn {t : Turn} (balanced : m.Balanced taken pending) (ledger : Ledger m) (moved : Taken m t m') :
    ∃ taken pending, m'.Balanced taken pending := by
  cases moved with
  | @begins p goesOn live place =>
    refine ⟨taken, pending, balanced.entries, ?_, balanced.balance⟩
    have same : sporking { m.give p with place := Function.update m.place p .user } = m.sporking := by
      funext q
      by_cases here : q = p
      · subst here
        simp [sporking, place, Place.inSpork]
      · simp [sporking, here]
    rw [same]
    exact balanced.inside
  | @returns p pt k value status ready goes =>
    exact balanced.back ledger ready (Point.exec_return give_running goes)
  | @yields p pt k inside ready goes =>
    have alive : (m.give p).kernel.status p ≠ .terminated := by
      rw [give_status, ready.runnable]
      decide
    exact balanced.switch ledger ready ((ready.path goes).effect alive)
  | halts => exact ⟨taken, pending, balanced.entries, balanced.inside, balanced.balance⟩
  | @stops p pt reason ready =>
    refine ⟨taken, pending, ?_, ?_, ?_⟩
    · simpa [stop] using balanced.entries
    · have same : ((m.entering p pt).stop reason).sporking = m.sporking := by
        funext q
        simp [sporking, stop]
      rw [same]
      exact balanced.inside
    · rw [show ((m.entering p pt).stop reason).log = (m.entering p pt).log from rfl, enter_countP fun _ _ => rfl,
        enter_countP fun _ _ => rfl]
      exact balanced.balance

end Balanced

theorem boot_balanced : boot.Balanced 1 0 := by
  have alone : boot.kernel.occupied = Function.update (fun _ => false) initSlot true := by decide
  have nobody : Counts (fun _ : Slot => false) id 0 := Counts.zero_iff.mpr fun _ => rfl
  refine ⟨?_, Counts.zero_iff.mpr fun i => ?_, rfl⟩
  · rw [alone]
    exact nobody.update initSlot true
  · exact Bool.and_false _

/-- No entry and no stack is lost: at any time there are as many of either as
`spork` has created processes and `join` has not yet returned, with that of `init`. -/
theorem entries_conserved (ordered : Ordered m) : ∃ taken pending,
    Counts m.kernel.occupied id taken ∧ Counts (fun i => (m.kernel.process_table i).stack) id taken ∧
    Counts m.sporking id pending ∧
    taken + m.log.countP Event.collects = 1 + m.log.countP Event.announces + pending := by
  have balanced : ∃ taken pending, m.Balanced taken pending := by
    refine Transition.Run.invariant_above ordered (fun _ earlier => Ordered.ledger earlier)
      (fun m => ∃ taken pending, m.Balanced taken pending) ⟨1, 0, boot_balanced⟩ ?_
    rintro m t m' ledger ⟨taken, pending, balanced⟩ _ moves
    exact balanced.turn ledger (turn_taken moves)
  obtain ⟨taken, pending, balanced⟩ := balanced
  have allocated : (fun i => (m.kernel.process_table i).stack) = m.kernel.occupied := by
    funext i
    exact Bool.eq_iff_iff.mpr (ordered.stack_iff i)
  refine ⟨taken, pending, balanced.entries, ?_, balanced.inside, balanced.balance⟩
  rw [allocated]
  exact balanced.entries

/-- `testcase_main`, which `init` is still creating, has joined a child and is creating another. -/
def oneJoinedOneSporking : List Turn :=
  [.resume initSlot, .call initSlot (sporks 3), .resume testcaseSlot, .call testcaseSlot (sporks 4),
    .resume childSlot, .call childSlot (.quit true 5), .call testcaseSlot (.join true), .call testcaseSlot (sporks 2)]

theorem entries_conserved_run : ∃ m : Machine, (m.log.countP Event.collects = 1 ∧ m.log.countP Event.announces = 1) ∧
    ∃ taken pending, Counts m.kernel.occupied id taken ∧ Counts (fun i => (m.kernel.process_table i).stack) id taken ∧
      Counts m.sporking id pending ∧
      taken + m.log.countP Event.collects = 1 + m.log.countP Event.announces + pending := by
  obtain ⟨m, ordered, test⟩ := exists_ordered oneJoinedOneSporking
    (fun m => m.log.countP Event.collects = 1 && m.log.countP Event.announces = 1) (by decide +kernel)
  simp only [Bool.and_eq_true, decide_eq_true_eq] at test
  exact ⟨m, test, entries_conserved ordered⟩

end Machine

end UslossKernel.Phase1b
