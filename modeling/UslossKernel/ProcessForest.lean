import UslossKernel.ExitStatus
import UslossKernel.Library.Forest

namespace UslossKernel.Phase1b

open LinkedList Kernel

/-- An entry as its process is seen from outside: pids for the pointers, and
the exit status once there is one. -/
def Kernel.member (k : Kernel) (i : Slot) : ForestNode Int Int where
  parent := (k.parent i).map fun q => (k.process_table q).pid
  left := if k.status i = .terminated then some (k.process_table i).exit_status else none

/-- The entries that are taken are the members of the forest. -/
structure Depicts (k : Kernel) (f : Forest Int Int) : Prop where
  listed : ∀ i, k.occupied i = true → f (k.process_table i).pid = some (k.member i)
  only : ∀ pid, f pid ≠ none → ∃ i, k.occupied i = true ∧ (k.process_table i).pid = pid

/-- The forest of `phase1_init`. -/
def initForest : Forest Int Int :=
  fun pid => if pid = 1 then some ⟨none, none⟩ else none

/-- What an event does to the forest, if it does anything. -/
def Event.act : Event → Option (Forest.Act Int Int)
  | .called pid (.quit status) => some (.leave pid status)
  | .returned pid .join child (some status) => some (.reap pid child status)
  | _ => none

theorem Event.act_leave {e : Event} {pid status : Int} :
    e.act = some (.leave pid status) ↔ e = .called pid (.quit status) := by
  cases e with
  | called _ fn => cases fn <;> simp [Event.act]
  | returned _ fn _ status => cases fn <;> cases status <;> simp [Event.act]

theorem Event.act_reap {e : Event} {pid child status : Int} :
    e.act = some (.reap pid child status) ↔ e = .returned pid .join child (some status) := by
  cases e with
  | called _ fn => cases fn <;> simp [Event.act]
  | returned _ fn _ status => cases fn <;> cases status <;> simp [Event.act]

theorem initForest_roots : Forest.Roots initForest := by
  intro pid node there
  unfold initForest at there
  split at there
  · exact (Option.some.inj there).symm
  · cases there

variable {k k' : Kernel} {f : Forest Int Int} {p i slot child : Slot} {pt : Point} {before : Option Slot} {exit : Int}

namespace Depicts

theorem runs (depicts : Depicts k f) (taken : k.occupied i = true) (alive : k.status i ≠ .terminated) :
    f.Runs (k.process_table i).pid := by
  refine ⟨(k.member i).parent, (depicts.listed i taken).trans ?_⟩
  simp [member, alive]

theorem isChild (depicts : Depicts k f) (isChild : k.childOf i p) :
    f.Child (k.process_table p).pid (k.process_table i).pid := by
  have parent : k.parent i = some p := isChild.2
  refine ⟨(k.member i).left, (depicts.listed i isChild.1).trans ?_⟩
  simp [member, parent]

theorem ended (depicts : Depicts k f) (isChild : k.childOf i p) (dead : k.status i = .terminated) :
    f (k.process_table i).pid =
      some ⟨some (k.process_table p).pid, some (k.process_table i).exit_status⟩ := by
  have parent : k.parent i = some p := isChild.2
  refine (depicts.listed i isChild.1).trans ?_
  simp [member, parent, dead]

/-- The children of a process in the forest are its children in the table. -/
theorem childOf (depicts : Depicts k f) (family : Family k) (taken : k.occupied p = true) {c : Int}
    (isChild : f.Child (k.process_table p).pid c) : ∃ i, k.childOf i p ∧ (k.process_table i).pid = c := by
  obtain ⟨left, there⟩ := isChild
  obtain ⟨i, occupied, rfl⟩ := depicts.only c (by simp [there])
  have same := Option.some.inj ((depicts.listed i occupied).symm.trans there)
  obtain ⟨q, parent, named⟩ := Option.map_eq_some_iff.mp (congrArg ForestNode.parent same)
  have old : k.childOf i q := ⟨occupied, parent⟩
  obtain rfl := family.distinct q p (family.parent_alive old).1 named
  exact ⟨i, old, rfl⟩

/-- The forest of a table of which only the links and the states of the living have changed. -/
theorem undisturbed (depicts : Depicts k f) (quiet : Undisturbed k k') : Depicts k' f := by
  have pid := kin_pid quiet.kin
  have member : ∀ i, k'.member i = k.member i := by
    intro i
    have ended := quiet.ended i
    simp only [Kernel.member, kin_parent quiet.kin, pid, quiet.exit i, ended]
  refine ⟨fun i taken => ?_, fun n there => ?_⟩
  · rw [kin_occupied quiet.kin] at taken
    rw [pid, member]
    exact depicts.listed i taken
  · obtain ⟨i, occupied, named⟩ := depicts.only n there
    exact ⟨i, by rwa [kin_occupied quiet.kin], (pid i).trans named⟩

theorem sporked (depicts : Depicts k f) (family : Family k) (running : k.running_process = some p)
    (taken : k.occupied p = true) (sporked : Sporked k slot k') :
    Depicts k' (Function.update f (k'.process_table slot).pid (some ⟨some (k.process_table p).pid, none⟩)) := by
  have apart := sporked.apart taken
  have parents := sporked.parent_eq running
  have named : (k'.process_table slot).pid = drawPid k.next_pid := sporked.created.1
  have alive : k'.status slot = .runnable := sporked.created.2.1
  have first := (drawPid_first k.next_pid).1
  refine ⟨fun i occupied => ?_, fun n there => ?_⟩
  · by_cases here : i = slot
    · subst here
      rw [Function.update_self, member, parents, Function.update_self, alive]
      simp [sporked.pid_of_ne apart]
    · rw [sporked.occupied_of_ne here] at occupied
      have bound := family.below i
      have other : (k'.process_table i).pid ≠ (k'.process_table slot).pid := by
        rw [sporked.pid_of_ne here, named]
        omega
      rw [Function.update_of_ne other, sporked.pid_of_ne here, depicts.listed i occupied]
      have parent : k'.parent i = k.parent i := by rw [parents, Function.update_of_ne here]
      unfold member
      rw [parent, sporked.status_of_ne here, exit_congr (sporked.other here)]
      cases isParent : k.parent i with
      | none => rfl
      | some q =>
        have alive := (family.parent_alive ⟨occupied, isParent⟩).1
        simp [sporked.pid_of_ne (sporked.apart alive)]
  · by_cases here : n = (k'.process_table slot).pid
    · exact ⟨slot, sporked.occupied_self, here.symm⟩
    · rw [Function.update_of_ne here] at there
      obtain ⟨i, occupied, rfl⟩ := depicts.only n there
      have other := sporked.apart occupied
      exact ⟨i, by rwa [sporked.occupied_of_ne other], sporked.pid_of_ne other⟩

theorem collected (depicts : Depicts k f) (family : Family k)
    (found : seek k.sibling (fun i => k.status i = .terminated) maxProc none (k.children p) = .at before child) :
    Depicts (k.collect p before child) (Function.update f (k.process_table child).pid none) := by
  obtain ⟨isChild, dead⟩ := family.found found
  refine ⟨fun i taken => ?_, fun n there => ?_⟩
  · obtain ⟨here, occupied⟩ := collect_taken taken
    have other : (k.process_table i).pid ≠ (k.process_table child).pid :=
      fun same => here (family.distinct i child occupied same)
    have exit : ((k.collect p before child).process_table i).exit_status = (k.process_table i).exit_status :=
      collect_field Process.exit_status (fun _ _ => rfl) (fun _ _ => rfl) (fun _ => rfl) i
    rw [collect_pid_of_ne here, Function.update_of_ne other, depicts.listed i occupied]
    unfold member
    rw [collect_parent, collect_status, exit]
    cases isParent : k.parent i with
    | none => rfl
    | some q =>
      have notParent : q ≠ child := by
        rintro rfl
        exact (family.parent_alive ⟨occupied, isParent⟩).2 dead
      simp [collect_pid_of_ne notParent]
  · have other : n ≠ (k.process_table child).pid := by
      rintro rfl
      simp at there
    rw [Function.update_of_ne other] at there
    obtain ⟨i, occupied, rfl⟩ := depicts.only n there
    have here : i ≠ child := by
      rintro rfl
      exact other rfl
    exact ⟨i, by rwa [collect_occupied_of_ne here], collect_pid_of_ne here⟩

theorem died (depicts : Depicts k f) (family : Family k) (taken : k.occupied p = true) (died : Died k p exit k') :
    Depicts k' (Function.update f (k.process_table p).pid (some ⟨(k.member p).parent, some exit⟩)) := by
  have pid := kin_pid died.kin
  have parents : ∀ i, (k'.member i).parent = (k.member i).parent := by
    intro i
    simp only [member, kin_parent died.kin, pid]
  refine ⟨fun i occupied => ?_, fun n there => ?_⟩
  · rw [kin_occupied died.kin] at occupied
    rw [pid]
    by_cases here : i = p
    · subst here
      rw [Function.update_self, ← parents]
      have dead := (died.ended i).mpr (.inl rfl)
      simp [member, dead, died.own]
    · have other : (k.process_table i).pid ≠ (k.process_table p).pid :=
        fun same => here (family.distinct i p occupied same)
      have ended : k'.status i = .terminated ↔ k.status i = .terminated := by simp [died.ended i, here]
      rw [Function.update_of_ne other, depicts.listed i occupied]
      simp only [member, kin_parent died.kin, pid, died.exit i here, ended]
  · by_cases here : n = (k.process_table p).pid
    · exact ⟨p, by rwa [kin_occupied died.kin], (pid p).trans here.symm⟩
    · rw [Function.update_of_ne here] at there
      obtain ⟨i, occupied, named⟩ := depicts.only n there
      exact ⟨i, by rwa [kin_occupied died.kin], (pid i).trans named⟩

end Depicts

theorem boot_depicts : Depicts Machine.boot.kernel initForest := by
  have alone : ∀ i, Machine.boot.kernel.occupied i = true → i = initSlot := by decide
  have init : Machine.boot.kernel.occupied initSlot = true ∧ (Machine.boot.kernel.process_table initSlot).pid = 1 ∧
      Machine.boot.kernel.member initSlot = ⟨none, none⟩ := ⟨by decide, by decide, rfl⟩
  refine ⟨fun i taken => ?_, fun n there => ?_⟩
  · rw [alone i taken, init.2.1, init.2.2]
    rfl
  · unfold initForest at there
    split at there
    · rename_i isInit
      exact ⟨initSlot, init.1, init.2.1.trans isInit.symm⟩
    · exact absurd rfl there

/-- A run of the forest that the history tells of. -/
structure Forested (m : Machine) (acts : List (Forest.Act Int Int)) (f : Forest Int Int) : Prop where
  run : Forest.Run initForest acts f
  depicts : Depicts m.kernel f
  shown : acts.filter (fun a => !a.spawns) = m.log.filterMap Event.act
  told : ∀ parent child, SporkedBy m.log parent child → .spawn parent child ∈ acts

namespace Forested

variable {m m' : Machine} {acts : List (Forest.Act Int Int)} {a b : Int}

theorem leaves_iff (forested : Forested m acts f) : .leave a b ∈ acts ↔ HasQuit m.log a b := by
  have seen : .leave a b ∈ acts ↔ .leave a b ∈ acts.filter fun a => !a.spawns := by simp [Forest.Act.spawns]
  rw [seen, forested.shown, List.mem_filterMap]
  simp [Event.act_leave, HasQuit]

theorem reaps_iff (forested : Forested m acts f) {v : Int} :
    .reap a b v ∈ acts ↔ Event.returned a .join b (some v) ∈ m.log := by
  have seen : .reap a b v ∈ acts ↔ .reap a b v ∈ acts.filter fun a => !a.spawns := by simp [Forest.Act.spawns]
  rw [seen, forested.shown, List.mem_filterMap]
  simp [Event.act_reap]

theorem spawned_below (forested : Forested m acts f) (ledger : Ledger m) (spawned : .spawn a b ∈ acts) :
    b < m.kernel.next_pid := by
  rcases forested.run.spawned spawned with ⟨left, there⟩ | ⟨v, reaped⟩
  · obtain ⟨i, _, rfl⟩ := forested.depicts.only b (by simp [there])
    exact ledger.family.below i
  · exact ledger.joinBelow b ⟨a, v, forested.reaps_iff.mp reaped⟩

/-- The drawn pid is a new name. -/
theorem spawn (forested : Forested m acts f) (ledger : Ledger m) (taken : m.kernel.occupied p = true)
    (alive : m.kernel.status p ≠ .terminated) (sporks : Sporked m.kernel slot k') :
    Forest.Run initForest (.spawn (m.pid p) (k'.process_table slot).pid :: acts)
      (Function.update f (k'.process_table slot).pid (some ⟨some (m.pid p), none⟩)) := by
  have named : (k'.process_table slot).pid = drawPid m.kernel.next_pid := sporks.created.1
  have first := (drawPid_first m.kernel.next_pid).1
  have positive := ledger.positive p taken
  have below := ledger.family.below p
  refine .spawn forested.run (forested.depicts.runs taken alive) ?_ fun q spawned => ?_
  · have other : (k'.process_table slot).pid ≠ 1 := by
      unfold Machine.pid at positive
      omega
    simp [initForest, other]
  · have bound := forested.spawned_below ledger spawned
    omega

/-- The run and the history go on. -/
theorem extend (forested : Forested m acts f) {acts' : List (Forest.Act Int Int)} {f' : Forest Int Int}
    (run : Forest.Run initForest acts' f') (grows : ∀ a ∈ acts, a ∈ acts') (depicts : Depicts m'.kernel f')
    (shown : acts'.filter (fun a => !a.spawns) = m'.log.filterMap Event.act)
    (told : ∀ parent child, SporkedBy m'.log parent child → SporkedBy m.log parent child ∨ f'.Child parent child) :
    Forested m' acts' f' := by
  refine ⟨run, depicts, shown, fun parent child new => ?_⟩
  rcases told parent child new with old | isChild
  · exact grows _ (forested.told parent child old)
  · exact run.child_spawned initForest_roots isChild

theorem give (forested : Forested m acts f) (p : Slot) : Forested (m.give p) acts f :=
  ⟨forested.run, ⟨forested.depicts.listed, forested.depicts.only⟩, forested.shown, forested.told⟩

end Forested

namespace Machine

variable {m m' : Machine} {acts : List (Forest.Act Int Int)} {value : Int} {status : Option Int}

theorem shown_enter (quitless : ∀ status c, pt = .call c → c.fn ≠ .quit status) :
    (m.entering p pt).log.filterMap Event.act = m.log.filterMap Event.act := by
  cases pt with
  | resume => rfl
  | call c =>
    have silent : (Event.called (m.pid p) c.fn).act = none := by
      cases fn : c.fn with
      | quit status => exact absurd fn (quitless status c rfl)
      | _ => rfl
    exact List.filterMap_cons_none silent

/-- Coming back from a call. -/
theorem forested_back (forested : Forested (m.give p) acts f) (ledger : Ledger (m.give p)) (ready : m.Ready p pt)
    (returned : Return (m.give p).kernel p pt k value status) :
    ∃ acts' f', Forested ((m.entering p pt).back p pt.fn k value status) acts' f' := by
  have occupied : (m.give p).kernel.occupied p = true := ready.occupied
  have named : (m.entering p pt).pid p = (m.give p).pid p := enter_pid (m.give p) p pt p
  have told : ∀ {parent child}, SporkedBy ((m.entering p pt).back p pt.fn k value status).log parent child →
      (0 < child ∧ parent = (m.give p).pid p ∧ pt.fn = .spork ∧ child = value ∧ status = none) ∨
        SporkedBy (m.give p).log parent child := by
    intro parent child new
    rw [← named]
    exact (sporkedBy_returned.mp new).imp_right sporkedBy_enter.mp
  have silent : status = none → (∀ status c, pt = .call c → c.fn ≠ .quit status) →
      ((m.entering p pt).back p pt.fn k value status).log.filterMap Event.act =
        (m.give p).log.filterMap Event.act := by
    rintro rfl quitless
    have last : (Event.returned ((m.entering p pt).pid p) pt.fn value none).act = none := by cases pt.fn <;> rfl
    exact (List.filterMap_cons_none last).trans (shown_enter quitless)
  cases returned with
  | plain bound _ quitless _ =>
    refine ⟨acts, f, forested.extend forested.run (fun _ => id) forested.depicts ?_ fun parent child new => ?_⟩
    · exact forested.shown.trans (silent rfl quitless).symm
    · rcases told new with ⟨positive, _, _, rfl, _⟩ | old
      · omega
      · exact .inl old
  | @sporked slot =>
    have inside : (m.give p).place p = .inside (.spork slot) := by
      rcases ready.place with ⟨_, ⟨⟩, _⟩ | ⟨_, ⟨⟩, place⟩
      exact place
    have isChild := (ledger.sporking slot p occupied inside).1
    refine ⟨acts, f, forested.extend forested.run (fun _ => id) forested.depicts ?_ fun parent child new => ?_⟩
    · exact forested.shown.trans (silent rfl (by rintro _ _ ⟨⟩)).symm
    · rcases told new with ⟨_, rfl, _, rfl, _⟩ | old
      · exact .inr (forested.depicts.isChild isChild)
      · exact .inl old
  | @sporks c slot _ fn sporks =>
    have alive : (m.give p).kernel.status p ≠ .terminated := by
      rw [give_status, ready.runnable]
      decide
    have quitless : ∀ status c', Point.call c = .call c' → c'.fn ≠ .quit status := by
      rintro status _ ⟨⟩ quits
      exact absurd (fn.symm.trans quits) (by simp)
    have run := forested.spawn ledger occupied alive sporks
    refine ⟨_, _, forested.extend run (fun _ => List.mem_cons_of_mem _) ?_ ?_ fun parent child new => ?_⟩
    · exact forested.depicts.sporked ledger.family give_running occupied sporks
    · exact forested.shown.trans (silent rfl quitless).symm
    · rcases told new with ⟨_, rfl, _, rfl, _⟩ | old
      · exact .inr (Forest.child_spawn.mpr (.inl ⟨rfl, rfl⟩))
      · exact .inl old
  | @collects _ before child joins found =>
    obtain ⟨isChild, dead⟩ := ledger.family.found found
    have quitless : ∀ status c, pt = .call c → c.fn ≠ .quit status := by
      rintro status c rfl quits
      exact absurd ((joins_fn joins).symm.trans quits) (by simp)
    have alive : (m.give p).kernel.status p ≠ .terminated := by
      rw [give_status, ready.runnable]
      decide
    have run := Forest.Run.reap forested.run (forested.depicts.runs occupied alive)
      (forested.depicts.ended isChild dead)
    refine ⟨_, _, forested.extend run (fun _ => List.mem_cons_of_mem _) ?_ ?_ fun parent child new => ?_⟩
    · exact forested.depicts.collected ledger.family found
    · have last : (Event.returned ((m.entering p pt).pid p) pt.fn ((m.give p).kernel.process_table child).pid
          (some ((m.give p).kernel.process_table child).exit_status)).act = some (.reap ((m.give p).pid p)
            ((m.give p).pid child) ((m.give p).kernel.process_table child).exit_status) := by
        rw [named, joins_fn joins]
        rfl
      refine Eq.trans ?_ (List.filterMap_cons_some last).symm
      rw [shown_enter quitless]
      exact congrArg _ forested.shown
    · rcases told new with ⟨_, _, isSpork, _⟩ | old
      · exact absurd ((joins_fn joins).symm.trans isSpork) (by simp)
      · exact .inl old

/-- Leaving the CPU in `dispatcher`. -/
theorem forested_switch {inside : Inside} (forested : Forested (m.give p) acts f) (ledger : Ledger (m.give p))
    (ready : m.Ready p pt) (effect : Effect (m.give p).kernel p pt (k, .dispatches inside)) :
    ∃ acts' f', Forested ((m.entering p pt).switch p inside k) acts' f' := by
  have occupied : (m.give p).kernel.occupied p = true := ready.occupied
  have alive : (m.give p).kernel.status p ≠ .terminated := by
    rw [give_status, ready.runnable]
    decide
  have told : ∀ {parent child}, SporkedBy ((m.entering p pt).switch p inside k).log parent child →
      SporkedBy (m.give p).log parent child := sporkedBy_enter.mp
  cases effect with
  | quiet quiet shape =>
    have quitless : ∀ status c, pt = .call c → c.fn ≠ .quit status := by
      rintro status c rfl
      exact (shape inside rfl).2.2 status
    refine ⟨acts, f, forested.extend forested.run (fun _ => id) (forested.depicts.undisturbed quiet) ?_ ?_⟩
    · exact forested.shown.trans (shown_enter quitless).symm
    · exact fun _ _ new => .inl (told new)
  | @sporks c slot _ _ fn sporks =>
    have quitless : ∀ status c', Point.call c = .call c' → c'.fn ≠ .quit status := by
      rintro status _ ⟨⟩ quits
      exact absurd (fn.symm.trans quits) (by simp)
    have run := forested.spawn ledger occupied alive sporks
    refine ⟨_, _, forested.extend run (fun _ => List.mem_cons_of_mem _) ?_ ?_ ?_⟩
    · exact forested.depicts.sporked ledger.family give_running occupied sporks
    · exact forested.shown.trans (shown_enter quitless).symm
    · exact fun _ _ new => .inl (told new)
  | @quits _ exit _ quits noChild died =>
    obtain ⟨c, rfl, fn⟩ := quits_call quits
    have there := forested.depicts.listed p occupied
    have running : f ((m.give p).pid p) = some ⟨((m.give p).kernel.member p).parent, none⟩ := by
      refine there.trans ?_
      simp [member, ready.runnable]
    have run := Forest.Run.leave (v := exit) forested.run running fun i isChild => by
      obtain ⟨j, old, _⟩ := forested.depicts.childOf ledger.family occupied isChild
      exact ledger.family.childless_iff.mp noChild j old
    refine ⟨_, _, forested.extend run (fun _ => List.mem_cons_of_mem _) ?_ ?_ ?_⟩
    · exact forested.depicts.died ledger.family occupied died
    · have last : (Event.called ((m.give p).pid p) c.fn).act = some (.leave ((m.give p).pid p) exit) := by
        rw [fn]
        rfl
      refine Eq.trans ?_ (List.filterMap_cons_some last).symm
      exact congrArg _ forested.shown
    · exact fun _ _ new => .inl (told new)

/-- The process table is a picture of a forest that grows and shrinks as the history tells. -/
theorem Ordered.forested (ordered : Ordered m) : m.stopped = none → ∃ acts f, Forested m acts f := by
  refine Transition.Run.invariant_above ordered (fun _ earlier => Ordered.ledger earlier)
    (fun m => m.stopped = none → ∃ acts f, Forested m acts f) (fun _ => ?_) fun m t m' ledger before _ moves => ?_
  · exact ⟨[], initForest, .start, boot_depicts, rfl, fun _ _ told => absurd told.2 List.not_mem_nil⟩
  cases turn_taken moves with
  | @begins p goesOn =>
    intro _
    obtain ⟨acts, f, forested⟩ := before goesOn
    have given := forested.give p
    exact ⟨acts, f, given.run, given.depicts, given.shown, given.told⟩
  | @returns p _ _ _ _ ready goes =>
    intro _
    obtain ⟨acts, f, forested⟩ := before ready.goesOn
    exact forested_back (forested.give p) (ledger.give p) ready (Point.exec_return give_running goes)
  | @yields p _ _ _ ready goes =>
    intro _
    obtain ⟨acts, f, forested⟩ := before ready.goesOn
    have alive : (m.give p).kernel.status p ≠ .terminated := by
      rw [give_status, ready.runnable]
      decide
    exact forested_switch (forested.give p) (ledger.give p) ready ((ready.path goes).effect alive)
  | halts => rintro ⟨⟩
  | stops => rintro ⟨⟩

/-- Every run of the kernel is a run of the forest: the `quit`s are those who
leave, what the `join`s return is what is reaped, each in the order of the
history, and the spawned are those that `spork` has returned or is about to return. -/
theorem forest_refined (ordered : Ordered m) (goesOn : m.stopped = none) :
    ∃ acts f, Forest.Run initForest acts f ∧ Depicts m.kernel f ∧
      acts.filter (fun a => !a.spawns) = m.log.filterMap Event.act ∧
      ∀ parent child, .spawn parent child ∈ acts ↔ SporkedBy m.log parent child ∨
        ∃ q i, m.kernel.occupied q = true ∧ m.place q = .inside (.spork i) ∧ m.pid q = parent ∧ m.pid i = child := by
  obtain ⟨acts, f, forested⟩ := ordered.forested goesOn
  have ledger := ordered.ledger
  refine ⟨acts, f, forested.run, forested.depicts, forested.shown, fun parent child => ⟨fun spawned => ?_, ?_⟩⟩
  · rcases forested.run.spawned spawned with ⟨left, there⟩ | ⟨v, reaped⟩
    · obtain ⟨i, occupied, rfl⟩ := forested.depicts.only child (by simp [there])
      have same := Option.some.inj ((forested.depicts.listed i occupied).symm.trans there)
      obtain ⟨q, isParent, rfl⟩ := Option.map_eq_some_iff.mp (congrArg ForestNode.parent same)
      have isChild : m.kernel.childOf i q := ⟨occupied, isParent⟩
      refine (ledger.announced i q isChild).imp_right fun place => ?_
      exact ⟨q, i, (ledger.family.parent_alive isChild).1, place, rfl, rfl⟩
    · obtain ⟨newer, older, split⟩ := List.append_of_mem (forested.reaps_iff.mp reaped)
      rcases joined_justified ordered newer _ older split with ⟨nothing, _⟩ | ⟨_, _, told, _⟩
      · cases nothing
      · refine .inl ⟨told.1, ?_⟩
        rw [split]
        exact List.mem_append_right _ (List.mem_cons_of_mem _ told.2)
  · rintro (told | ⟨q, i, occupied, place, rfl, rfl⟩)
    · exact forested.told parent child told
    · have isChild := (ledger.sporking i q occupied place).1
      exact forested.run.child_spawned initForest_roots (forested.depicts.isChild isChild)

/-- A process that has called `quit` leaves no descendant behind: they have all
called it too, and have been joined. -/
theorem descendants_collected {pid status child : Int} (ordered : Ordered m) (goesOn : m.stopped = none)
    (quits : HasQuit m.log pid status) (descends : Relation.TransGen (SporkedBy m.log) pid child) :
    Collected m.log child ∧ ∃ status, HasQuit m.log child status := by
  obtain ⟨acts, f, forested⟩ := ordered.forested goesOn
  have spawned := Relation.TransGen.mono forested.told _ _ descends
  obtain ⟨q, v, reaped⟩ := forested.run.descendants_reaped initForest_roots (forested.leaves_iff.mpr quits) spawned
  have left := forested.run.reaped_left initForest_roots reaped
  exact ⟨⟨q, v, forested.reaps_iff.mp reaped⟩, v, forested.leaves_iff.mp left⟩

/-- `testcase_main` has a child, which has a child; all three come to their end. -/
def threeGenerations : List Turn :=
  [.resume initSlot, .call initSlot (sporks 3), .resume testcaseSlot, .call testcaseSlot (sporks 4),
    .resume childSlot, .call childSlot (sporks 5), .resume secondChildSlot,
    .call secondChildSlot (.quit true 4), .call childSlot (.join true), .call childSlot (.quit true 5),
    .call testcaseSlot (.join true), .call testcaseSlot (.quit true 6)]

theorem forest_refined_run : ∃ m : Machine, HasQuit m.log 2 6 ∧
    ∃ acts f, Forest.Run initForest acts f ∧ Depicts m.kernel f ∧
      acts.filter (fun a => !a.spawns) = m.log.filterMap Event.act ∧
      ∀ parent child, .spawn parent child ∈ acts ↔ SporkedBy m.log parent child ∨
        ∃ q i, m.kernel.occupied q = true ∧ m.place q = .inside (.spork i) ∧ m.pid q = parent ∧ m.pid i = child := by
  obtain ⟨m, ordered, test⟩ := exists_ordered threeGenerations
    (fun m => decide (Event.called 2 (.quit 6) ∈ m.log) && m.stopped.isNone) (by decide +kernel)
  simp only [Bool.and_eq_true, decide_eq_true_eq, Option.isNone_iff_eq_none] at test
  exact ⟨m, test.1, forest_refined ordered test.2⟩

theorem descendants_collected_run : ∃ m : Machine, Collected m.log 4 ∧ ∃ status, HasQuit m.log 4 status := by
  obtain ⟨m, ordered, test⟩ := exists_ordered threeGenerations
    (fun m => decide (Event.called 2 (.quit 6) ∈ m.log ∧ Event.returned 2 .spork 3 none ∈ m.log ∧
      Event.returned 3 .spork 4 none ∈ m.log) && m.stopped.isNone) (by decide +kernel)
  simp only [Bool.and_eq_true, decide_eq_true_eq, Option.isNone_iff_eq_none] at test
  obtain ⟨⟨quits, child, grandchild⟩, goesOn⟩ := test
  have below : Relation.TransGen (SporkedBy m.log) 2 4 := .tail (.single ⟨by decide, child⟩) ⟨by decide, grandchild⟩
  exact ⟨m, descendants_collected ordered goesOn quits below⟩

end Machine

end UslossKernel.Phase1b
