import UslossKernel.Sleeping

namespace UslossKernel.Phase1b

open LinkedList Kernel

variable {k k' : Kernel} {p i : Slot} {pt : Point} {ending : Ending}

/-- A process goes on under its pid. -/
theorem Path.stays_itself (path : Path k p pt (k', ending)) (occupied : k.occupied p = true)
    (runnable : k.status p = .runnable) : (k'.process_table p).pid = (k.process_table p).pid := by
  have change := path.change p
  generalize unlinked : (k', ending).1.unlinked p = e at change
  have named : (k'.process_table p).pid = e.pid := (congrArg Process.pid unlinked :)
  rw [named]
  cases change with
  | same | blocks | died => rfl
  | created free => cases free.symm.trans occupied
  | collected dead => cases dead.symm.trans runnable
  | parentWoken _ _ blocked | zapperWoken _ _ blocked | unblocked _ _ blocked => cases blocked.symm.trans runnable

theorem Kernel.occupied_of_pids (pids : ∀ i, (k'.process_table i).pid = (k.process_table i).pid) :
    k'.occupied = k.occupied := by
  funext i
  simp [occupied, pids i]

namespace Machine

variable {m m' : Machine} {t : Turn}

theorem occupied_same (pid : m'.pid i = m.pid i) : m'.kernel.occupied i = m.kernel.occupied i := by
  have named : (m'.kernel.process_table i).pid = (m.kernel.process_table i).pid := pid
  simp [Kernel.occupied, named]

theorem occupied_of_pid (pids : m'.pid = m.pid) : m'.kernel.occupied = m.kernel.occupied :=
  funext fun i => occupied_same (congrFun pids i)

/-- The turn is a call that wakes the process of `i`: an `unblockProc` with its
pid, or the `quit` of a child of it or of one that it has zapped. -/
def Wakes (m : Machine) (t : Turn) (i : Slot) : Prop :=
  ∃ p c, t = .call p c ∧ (c = .unblockProc (m.pid i) ∨ (∃ exit, c.fn = .quit exit) ∧
    ((m.kernel.process_table p).parent = some i ∨ (m.kernel.process_table i).zap_target = some p))

/-- What the turn of another process does to an entry. -/
inductive Fate (m : Machine) (t : Turn) (m' : Machine) (i : Slot) : Prop
  | stays : m'.pid i = m.pid i → m'.kernel.status i = m.kernel.status i →
      (m.kernel.occupied i = true → m'.place i = m.place i) → Fate m t m' i
  | woken : m.Wakes t i → m'.pid i = m.pid i → m.kernel.status i = .blocked → m'.kernel.status i = .runnable →
      m'.place i = m.place i → Fate m t m' i
  | created : m.kernel.occupied i = false → (m.kernel.next_pid : Int) ≤ m'.pid i → m'.kernel.status i = .runnable →
      Fate m t m' i
  | freed : m.kernel.status i = .terminated → m'.kernel.occupied i = false → Fate m t m' i

theorem Ready.fate (ready : m.Ready p pt) (ledger : Ledger m) (goes : pt.exec (m.give p).kernel p = (k, ending))
    (kernel : m'.kernel = k) (other : i ≠ p) (place : m'.place i = m.contexts k i) : Fate m (pt.turn p) m' i := by
  have change := (ready.path goes).change i
  subst kernel
  have kept : m.kernel.occupied i = true → m'.place i = m.place i := fun taken =>
    place.trans (EntryTable.renewed_of_taken taken)
  have blockedTaken : m.kernel.status i = .blocked → m.kernel.occupied i = true := by
    intro blocked
    by_contra free
    cases (ledger.family.free i (by simpa using free)).symm.trans blocked
  generalize unlinked : (m'.kernel, ending).1.unlinked i = e at change
  have named : m'.pid i = e.pid := (congrArg Process.pid unlinked :)
  have stands : m'.kernel.status i = e.status := (congrArg Process.status unlinked :)
  cases change with
  | same => exact .stays named stands kept
  | created free pid status =>
    have first := (drawPid_first m.kernel.next_pid).1
    have drawn : e.pid = (drawPid m.kernel.next_pid : Nat) := pid
    exact .created free (by omega) (stands.trans status)
  | blocks here | died here => exact absurd here other
  | collected dead =>
    refine .freed dead ?_
    have freed : (m'.kernel.process_table i).pid = -1 := named
    simp [Kernel.occupied, freed]
  | parentWoken quits isParent blocked =>
    obtain ⟨c, rfl, fn⟩ := quits_call quits
    exact .woken ⟨p, c, rfl, .inr ⟨⟨_, fn⟩, .inl isParent⟩⟩ named blocked stands (kept (blockedTaken blocked))
  | zapperWoken quits target blocked =>
    obtain ⟨c, rfl, fn⟩ := quits_call quits
    exact .woken ⟨p, c, rfl, .inr ⟨⟨_, fn⟩, .inr target⟩⟩ named blocked stands (kept (blockedTaken blocked))
  | unblocked call pid blocked =>
    subst call pid
    exact .woken ⟨p, _, rfl, .inl rfl⟩ named blocked stands (kept (blockedTaken blocked))

/-- What a turn does to the entries of the other processes, as long as the system goes on. -/
theorem Taken.fate (taken : Taken m t m') (ledger : Ledger m) (goesOn : m'.stopped = none)
    (other : i ≠ t.process) : Fate m t m' i := by
  cases taken with
  | @begins p _ _ _ =>
    have other : i ≠ p := other
    exact .stays rfl rfl fun _ => by simp [other]
  | @returns p pt k value status ready goes =>
    have other : i ≠ p := by cases pt <;> exact other
    exact ready.fate ledger goes rfl other (back_place_of_ne other)
  | @yields p pt k inside ready goes =>
    have other : i ≠ p := by cases pt <;> exact other
    exact ready.fate ledger goes rfl other (switch_place_of_ne other)
  | halts | stops => cases goesOn

/-- What it does to the entry of its own process. -/
theorem Taken.own (taken : Taken m t m') (goesOn : m'.stopped = none) : m'.pid t.process = m.pid t.process ∧
    (m'.place t.process = .user ∧ m'.kernel.status t.process = .runnable ∨
      ∃ inside, m'.place t.process = .inside inside) := by
  cases taken with
  | @begins p _ live place =>
    have runnable : m.kernel.status p = .runnable := by
      simp only [Machine.live, Bool.and_eq_true, decide_eq_true_eq] at live
      exact live.2
    exact ⟨rfl, .inl ⟨Function.update_self .., runnable⟩⟩
  | @returns p pt k value status ready goes =>
    have path := ready.path goes
    have own : (pt.turn p).process = p := by cases pt <;> rfl
    rw [own]
    have runnable := path.returns_runnable ready.runnable
    exact ⟨path.stays_itself ready.occupied ready.runnable, .inl ⟨back_place_self, runnable⟩⟩
  | @yields p pt k inside ready goes =>
    have own : (pt.turn p).process = p := by cases pt <;> rfl
    rw [own]
    exact ⟨(ready.path goes).stays_itself ready.occupied ready.runnable, .inr ⟨inside, switch_place_self⟩⟩
  | halts | stops => cases goesOn

section calls
variable {pid : Int} {inside : Inside}

/-- `blockMe` blocks its caller. -/
theorem turn_blockMe (moves : m.turn (.call p .blockMe) = some m') : m'.pid = m.pid ∧
    m'.place = Function.update m.place p (.inside .blockMe) ∧
    m'.kernel.status = Function.update m.kernel.status p .blocked := by
  obtain ⟨ready, rfl⟩ := turn_call moves
  have pids : ∀ i, (((m.give p).kernel.modify p fun e => { e with status := .blocked }).process_table i).pid =
      (m.kernel.process_table i).pid := fun i => modify_field Process.pid (fun _ => by rfl) i
  have places : m.contexts ((m.give p).kernel.modify p fun e => { e with status := .blocked }) = m.place := by
    refine EntryTable.renewed_eq_self fun i free => ?_
    rwa [occupied_of_pids pids]
  refine ⟨funext pids, ?_, ?_⟩
  · rw [← places]
    rfl
  · funext i
    by_cases here : i = p
    · subst here
      rw [Function.update_self]
      exact (status_modify_self : ((m.give i).kernel.modify i fun e => { e with status := .blocked }).status i = _)
    · rw [Function.update_of_ne here]
      exact (status_modify_of_ne here :
        ((m.give p).kernel.modify p fun e => { e with status := .blocked }).status i = _)

/-- `unblockProc` returns at once if no process with the pid is blocked, and
makes the process runnable otherwise. -/
theorem turn_unblockProc (moves : m.turn (.call p (.unblockProc pid)) = some m') (goesOn : m'.stopped = none) :
    m'.pid = m.pid ∧
    ((∀ i, m.pid i = pid → m.kernel.status i ≠ .blocked) ∧ m'.place = m.place ∧ m'.kernel.status = m.kernel.status ∨
    ∃ j, m.pid j = pid ∧ m.kernel.status j = .blocked ∧
      m'.place = Function.update m.place p (.inside (.unblockProc pid)) ∧
      m'.kernel.status = Function.update m.kernel.status j .runnable) := by
  obtain ⟨ready, rfl⟩ := turn_call moves
  have user : m.place p = .user := by
    rcases ready.place with ⟨_, _, user⟩ | ⟨_, other, _⟩
    · exact user
    · cases other
  cases found : (List.finRange maxProc).find? fun i =>
      ((m.give p).kernel.process_table i).pid = pid ∧ (m.give p).kernel.status i = .blocked with
  | none =>
    have goes : (Point.call (.unblockProc pid)).exec (m.give p).kernel p =
        ((m.give p).kernel, .returns (-2) none) := by
      show (m.give p).kernel.unblockProc pid = _
      unfold Kernel.unblockProc
      rw [found]
    rw [runOn, yieldOrSettle, settle, goes]
    refine ⟨rfl, .inl ⟨fun i named blocked => ?_, ?_, rfl⟩⟩
    · have absent := List.find?_eq_none.mp found i (List.mem_finRange i)
      exact absent (decide_eq_true ⟨named, blocked⟩)
    · have places : m.contexts (m.give p).kernel = m.place := EntryTable.renewed_eq_self fun i free => free
      have stays : Function.update m.place p .user = m.place := by rw [← user, Function.update_eq_self]
      exact (congrArg (Function.update · p Place.user) places).trans stays
  | some j =>
    have atJ : (m.kernel.process_table j).pid = pid ∧ m.kernel.status j = .blocked :=
      of_decide_eq_true (p := (m.kernel.process_table j).pid = pid ∧ m.kernel.status j = .blocked)
        (List.find?_some found :)
    cases appended : ((m.give p).kernel.modify j fun e => { e with status := .runnable }).appendToQueue j with
    | none =>
      have goes : (Point.call (.unblockProc pid)).exec (m.give p).kernel p = ((m.give p).kernel, .hangs .queue) := by
        show (m.give p).kernel.unblockProc pid = _
        unfold Kernel.unblockProc
        rw [found]
        simp only [appended]
      rw [runOn, yieldOrSettle, settle, goes] at goesOn
      cases goesOn
    | some k' =>
      have goes : (Point.call (.unblockProc pid)).exec (m.give p).kernel p = (k', .dispatches (.unblockProc pid)) := by
        show (m.give p).kernel.unblockProc pid = _
        unfold Kernel.unblockProc
        rw [found]
        simp only [appended]
      have unlinked := appendToQueue_unlinked appended
      have pids : ∀ i, (k'.process_table i).pid = (m.kernel.process_table i).pid := fun i =>
        (pid_congr (unlinked i)).trans (modify_field Process.pid (fun _ => by rfl) i)
      have places : m.contexts k' = m.place := by
        refine EntryTable.renewed_eq_self fun i free => ?_
        rwa [occupied_of_pids pids]
      rw [runOn, yieldOrSettle, goes]
      refine ⟨funext pids, .inr ⟨j, atJ.1, atJ.2, ?_, ?_⟩⟩
      · exact congrArg (Function.update · p (Place.inside (.unblockProc pid))) places
      · funext i
        refine (status_congr (unlinked i)).trans ?_
        by_cases here : i = j
        · subst here
          rw [Function.update_self]
          exact status_modify_self
        · rw [Function.update_of_ne here]
          exact status_modify_of_ne here

/-- A process that has been switched back to in `blockMe` or `unblockProc` returns from it. -/
theorem turn_resumed (moves : m.turn (.resume p) = some m') (goesOn : m'.stopped = none)
    (place : m.place p = .inside .blockMe ∨ ∃ pid, m.place p = .inside (.unblockProc pid)) :
    m'.pid = m.pid ∧ m'.place = Function.update m.place p .user ∧ m'.kernel.status = m.kernel.status := by
  have places : Function.update (m.contexts (m.give p).kernel) p Place.user = Function.update m.place p .user := by
    rw [show m.contexts (m.give p).kernel = m.place from EntryTable.renewed_eq_self fun i free => free]
  rcases place with place | ⟨pid, place⟩ <;>
  · obtain ⟨_, rfl | rfl⟩ := turn_resume place moves
    · exact ⟨rfl, places, rfl⟩
    · cases goesOn

end calls

end Machine

end UslossKernel.Phase1b
