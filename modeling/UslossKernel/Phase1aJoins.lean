import UslossKernel.Phase1aSporks

namespace UslossKernel.Phase1a

open LinkedList

namespace Kernel

variable {k k' : Kernel} {p slot i : Slot}

theorem linkChild_relinked {child : Slot} (linked : k.linkChild p child = some k') : Relinked k k' := by
  unfold linkChild at linked
  split at linked
  · cases linked
  · cases linked
    exact relinked_modify fun _ => rfl
  · cases linked
    exact relinked_modify fun _ => rfl

/-- A new process, with the pid that was next. -/
structure Sporks (k : Kernel) (slot : Slot) (k' : Kernel) : Prop where
  free : k.occupied slot = false
  pid_self : (k'.process_table slot).pid = k.next_pid
  status_self : k'.status slot = .runnable
  others : ∀ i, i ≠ slot → (k'.process_table i).unlinked = (k.process_table i).unlinked
  next_pid : k'.next_pid = k.next_pid + 1
  counter : k'.terminationCounter = k.terminationCounter

theorem Sporks.intro {startFunc : Bool} (free : k.occupied slot = false)
    (linked : ({ k with next_pid := k.next_pid + 1 }.newProcess slot p startFunc k.next_pid).linkChild p slot =
      some k') : Sporks k slot k' := by
  have relinked := linkChild_relinked linked
  have self := @newProcess_self { k with next_pid := k.next_pid + 1 } p slot startFunc k.next_pid
  refine ⟨free, ?_, ?_, fun i other => ?_, relinked.next_pid, relinked.counter⟩
  · rw [relinked.pid, self]
  · refine (EntryTable.field_of_rest Process.unlinked Process.status (fun _ => rfl) (relinked.entries slot)).trans ?_
    rw [self]
  · rw [relinked.entries, newProcess_of_ne other]

end Kernel

open Kernel

/-- What a call of the running process does. -/
inductive Effect (k : Kernel) (p : Slot) (c : Call) : Segment → Prop
  | answers {next_pid value} : c.fn ≠ .quit_phase_1a → k.next_pid ≤ next_pid →
      Effect k p c ({ k with next_pid }, .returns value none)
  | sporks {slot k'} : c.fn ≠ .quit_phase_1a → Sporks k slot k' → Effect k p c (k', .returns k.next_pid none)
  | collects {child k'} : c.fn = .join → Collects k p child k' →
      Effect k p c (k', .returns (k.process_table child).pid (some (k.process_table child).exit_status))
  | quits {status i} : c.fn = .quit_phase_1a →
      Effect k p c ({ k.quitted p status with running_process := some i }, .switches)
  | switches {i} : c.fn ≠ .quit_phase_1a → Effect k p c ({ k with running_process := some i }, .switches)
  | stops {k' ending} : (∀ value status, ending ≠ .returns value status) → ending ≠ .switches →
      Effect k p c (k', ending)

variable {k k' : Kernel} {p : Slot} {c : Call}

theorem quit_effect {status switchToPid : Int} (runs : k.running_process = some p) (fn : c.fn = .quit_phase_1a) :
    Effect k p c (k.quit_phase_1a status switchToPid) := by
  unfold quit_phase_1a
  rw [runs]
  simp only
  split
  · exact .stops (by rintro _ _ ⟨⟩) (by rintro ⟨⟩)
  · split
    · exact .stops (by rintro _ _ ⟨⟩) (by rintro ⟨⟩)
    · rename_i switched
      obtain ⟨i, _, rfl⟩ := switchTo_eq_some switched
      exact .quits fn

theorem Call.exec_effect (sound : k.Sound) (runs : k.running_process = some p) : Effect k p c (c.exec k) := by
  cases c with
  | spork startFunc malloc =>
    simp only [Call.exec]
    unfold Kernel.spork
    split
    · exact .stops (by rintro _ _ ⟨⟩) (by rintro ⟨⟩)
    simp only
    split
    · exact .answers (by rintro ⟨⟩) (Nat.le_succ _)
    rename_i free
    split
    · exact .stops (by rintro _ _ ⟨⟩) (by rintro ⟨⟩)
    split
    · exact .stops (by rintro _ _ ⟨⟩) (by rintro ⟨⟩)
    split
    · exact .stops (by rintro _ _ ⟨⟩) (by rintro ⟨⟩)
    · rename_i linked
      exact .sporks (by rintro ⟨⟩) (.intro (by simpa using free) linked)
  | join status =>
    cases status with
    | false => exact .answers (by rintro ⟨⟩) le_rfl
    | true =>
      rcases sound.joins runs with ⟨none, _⟩ | ⟨child, k', joined, collects, _⟩
      · simp only [Call.exec, none]
        exact .answers (by rintro ⟨⟩) le_rfl
      · simp only [Call.exec, joined]
        exact .collects rfl collects
  | quit_phase_1a status switchToPid => exact quit_effect runs rfl
  | finish rc =>
    simp only [Call.exec]
    unfold Kernel.finish
    rw [runs]
    exact quit_effect runs rfl
  | TEMP_switchTo newpid =>
    simp only [Call.exec]
    unfold Kernel.TEMP_switchTo
    split
    · exact .stops (by rintro _ _ ⟨⟩) (by rintro ⟨⟩)
    · rename_i switched
      obtain ⟨i, _, rfl⟩ := switchTo_eq_some switched
      exact .switches (by rintro ⟨⟩)

/-- Whose `quit_phase_1a` the event is. -/
def Event.quits : Event → Option Int
  | .called pid .quit_phase_1a => some pid
  | _ => none

/-- The child that the event returns from `join`. -/
def Event.joins : Event → Option Int
  | .returned _ .join pid (some _) => some pid
  | _ => none

/-- The processes that have quit, in that order. -/
def quits (log : List Event) : List Int := (log.filterMap Event.quits).reverse

/-- The children that have been joined. -/
def joined (log : List Event) : List Int := log.filterMap Event.joins

variable {log : List Event} {e : Event} {fn : Fn} {pid value : Int} {status : Option Int}

@[simp] theorem quits_returned : quits (.returned pid fn value status :: log) = quits log := rfl

@[simp] theorem joined_called : joined (.called pid fn :: log) = joined log := rfl

@[simp] theorem joined_answered : joined (.returned pid fn value none :: log) = joined log := by
  cases fn <;> rfl

theorem quits_called (other : fn ≠ .quit_phase_1a) : quits (.called pid fn :: log) = quits log := by
  cases fn with
  | quit_phase_1a => exact absurd rfl other
  | _ => rfl

theorem quits_quit : quits (.called pid .quit_phase_1a :: log) = quits log ++ [pid] := by
  simp [quits, Event.quits]

theorem joined_joined {exit : Int} : joined (.returned pid .join value (some exit) :: log) = value :: joined log := rfl

/-- What the history says of the processes that have quit or have been joined. -/
structure Recorded (m : Machine) : Prop where
  sound : m.kernel.Sound
  distinct : ∀ i j, m.kernel.occupied i = true → m.pid i = m.pid j → i = j
  free : ∀ i, m.kernel.occupied i = false → m.kernel.status i = .runnable
  counted : (quits m.log).length = m.kernel.terminationCounter
  numbered : ∀ i, m.kernel.status i = .terminated →
    (quits m.log)[(m.kernel.process_table i).termOrder]? = some (m.pid i)
  quitOnce : (quits m.log).Nodup
  left : ∀ i, m.kernel.occupied i = true → m.pid i ∈ quits m.log → m.place i = .inside .quit_phase_1a
  quitBelow : ∀ pid ∈ quits m.log, pid < m.kernel.next_pid
  joinedOnce : (joined m.log).Nodup
  uncollected : ∀ i, m.kernel.occupied i = true → m.pid i ∉ joined m.log
  joinedBelow : ∀ pid ∈ joined m.log, pid < m.kernel.next_pid

namespace Recorded

open Machine

variable {m m' : Machine} {p slot child : Slot} {c : Call} {k : Kernel}

/-- A step that the entries do not notice. -/
theorem quiet (recorded : Recorded m) (sound : m'.kernel.Sound)
    (table : m'.kernel.process_table = m.kernel.process_table) (more : m.kernel.next_pid ≤ m'.kernel.next_pid)
    (counter : m'.kernel.terminationCounter = m.kernel.terminationCounter) (quits : quits m'.log = quits m.log)
    (joined : joined m'.log = joined m.log)
    (places : ∀ i, m.place i = .inside .quit_phase_1a → m'.place i = .inside .quit_phase_1a) : Recorded m' := by
  have pid : m'.pid = m.pid := by
    unfold Machine.pid
    rw [table]
  have occupied : m'.kernel.occupied = m.kernel.occupied := by
    unfold Kernel.occupied
    rw [table]
  have status : m'.kernel.status = m.kernel.status := by
    unfold Kernel.status
    rw [table]
  refine ⟨sound, ?_, ?_, ?_, ?_, ?_, ?_, ?_, ?_, ?_, ?_⟩
  · rw [pid, occupied]
    exact recorded.distinct
  · rw [occupied, status]
    exact recorded.free
  · rw [quits, counter]
    exact recorded.counted
  · rw [quits, status, table, pid]
    exact recorded.numbered
  · rw [quits]
    exact recorded.quitOnce
  · rw [quits, occupied, pid]
    exact fun i taken quit => places i (recorded.left i taken quit)
  · rw [quits]
    intro pid quit
    have bound := recorded.quitBelow pid quit
    omega
  · rw [joined]
    exact recorded.joinedOnce
  · rw [joined, occupied, pid]
    exact recorded.uncollected
  · rw [joined]
    intro pid collected
    have bound := recorded.joinedBelow pid collected
    omega

/-- An entry is taken or freed. -/
theorem changed (recorded : Recorded m) (sound : k.Sound) {log : List Event}
    (others : ∀ i, i ≠ slot → (k.process_table i).unlinked = (m.kernel.process_table i).unlinked)
    (pidSlot : (k.process_table slot).pid = -1 ∨ m.kernel.next_pid ≤ (k.process_table slot).pid)
    (statusSlot : k.status slot = .runnable) (more : m.kernel.next_pid ≤ k.next_pid)
    (counter : k.terminationCounter = m.kernel.terminationCounter) (quits : quits log = quits m.log)
    (joined : ∀ pid ∈ joined log, pid ∈ Phase1a.joined m.log ∨ m.kernel.occupied slot = true ∧ pid = m.pid slot)
    (once : (Phase1a.joined log).Nodup) : Recorded { m with kernel := k, place := m.contexts k, log } := by
  have pid : ∀ i, i ≠ slot → (k.process_table i).pid = m.pid i :=
    fun i other => EntryTable.field_of_rest Process.unlinked Process.pid (fun _ => rfl) (others i other)
  have status : ∀ i, i ≠ slot → k.status i = m.kernel.status i :=
    fun i other => EntryTable.field_of_rest Process.unlinked Process.status (fun _ => rfl) (others i other)
  have order : ∀ i, i ≠ slot → (k.process_table i).termOrder = (m.kernel.process_table i).termOrder :=
    fun i other => EntryTable.field_of_rest Process.unlinked Process.termOrder (fun _ => rfl) (others i other)
  have occupied : ∀ i, i ≠ slot → k.occupied i = m.kernel.occupied i := by
    intro i other
    unfold Kernel.occupied
    rw [pid i other]
    rfl
  -- a process in the entry has a pid that nobody has had before
  have fresh : k.occupied slot = true → m.kernel.next_pid ≤ (k.process_table slot).pid :=
    fun taken => pidSlot.resolve_left (of_decide_eq_true taken)
  have joinedBelow : ∀ pid ∈ Phase1a.joined log, pid < m.kernel.next_pid := by
    intro pid member
    rcases joined pid member with old | ⟨_, rfl⟩
    · exact recorded.joinedBelow pid old
    · exact recorded.sound.below slot
  have apart : ∀ i, i ≠ slot → k.occupied slot = true → (k.process_table i).pid ≠ (k.process_table slot).pid := by
    intro i other taken same
    have bound : m.pid i < m.kernel.next_pid := recorded.sound.below i
    have above := fresh taken
    rw [← same, pid i other] at above
    omega
  refine ⟨sound, fun i j taken same => ?_, fun i isFree => ?_, ?_, fun i dead => ?_, quits ▸ recorded.quitOnce,
    fun i taken quit => ?_, fun pid quit => ?_, once, fun i taken member => ?_, fun pid member => ?_⟩
  · have same : (k.process_table i).pid = (k.process_table j).pid := same
    have takenJ : k.occupied j = true := by
      unfold Kernel.occupied
      rw [← same]
      exact taken
    by_cases atI : i = slot
    · by_cases atJ : j = slot
      · rw [atI, atJ]
      · exact absurd (atI ▸ same).symm (apart j atJ (atI ▸ taken))
    · by_cases atJ : j = slot
      · exact absurd (atJ ▸ same) (apart i atI (atJ ▸ takenJ))
      · rw [pid i atI, pid j atJ] at same
        exact recorded.distinct i j ((occupied i atI).symm.trans taken) same
  · by_cases here : i = slot
    · rw [here]
      exact statusSlot
    · exact (status i here).trans (recorded.free i ((occupied i here).symm.trans isFree))
  · exact (congrArg List.length quits).trans (recorded.counted.trans counter.symm)
  · have here : i ≠ slot := by
      rintro rfl
      exact absurd (dead.symm.trans statusSlot) (by decide)
    have numbered := recorded.numbered i ((status i here).symm.trans dead)
    rw [← quits, ← order i here, ← pid i here] at numbered
    exact numbered
  · have quit : (k.process_table i).pid ∈ Phase1a.quits log := quit
    rw [quits] at quit
    have here : i ≠ slot := by
      rintro rfl
      exact absurd (recorded.quitBelow _ quit) (not_lt.mpr (fresh taken))
    rw [pid i here] at quit
    have taken := (occupied i here).symm.trans taken
    exact (EntryTable.renewed_of_taken taken).trans (recorded.left i taken quit)
  · have quit : pid ∈ Phase1a.quits log := quit
    rw [quits] at quit
    exact (recorded.quitBelow pid quit).trans_le (by exact_mod_cast more)
  · have member : (k.process_table i).pid ∈ Phase1a.joined log := member
    have here : i ≠ slot := by
      rintro rfl
      exact absurd (joinedBelow _ member) (not_lt.mpr (fresh taken))
    have taken := (occupied i here).symm.trans taken
    rw [pid i here] at member
    rcases joined _ member with old | ⟨_, same⟩
    · exact recorded.uncollected i taken old
    · exact here (recorded.distinct i slot taken same)
  · exact (joinedBelow pid member).trans_le (by exact_mod_cast more)

theorem sporked (recorded : Recorded m) (sound : k.Sound) (sporks : Sporks m.kernel slot k) {log : List Event}
    (quits : quits log = quits m.log) (joined : joined log = joined m.log) :
    Recorded { m with kernel := k, place := m.contexts k, log } := by
  refine recorded.changed sound sporks.others (.inr sporks.pid_self.ge) sporks.status_self ?_ sporks.counter quits
    (fun pid member => .inl (joined ▸ member)) (joined ▸ recorded.joinedOnce)
  rw [sporks.next_pid]
  exact Nat.le_succ _

theorem collected (recorded : Recorded m) (sound : k.Sound) (collects : Collects m.kernel p child k) {log : List Event}
    (quits : quits log = quits m.log) (joined : joined log = m.pid child :: joined m.log) :
    Recorded { m with kernel := k, place := m.contexts k, log } := by
  refine recorded.changed sound collects.others (.inl collects.pid_self) ?_ collects.next_pid.ge collects.counter quits
    (fun pid member => ?_) ?_
  · exact EntryTable.field_of_rest Process.unlinked Process.status (fun _ => rfl) collects.freed
  · rw [joined] at member
    rcases List.mem_cons.mp member with rfl | old
    · exact .inr ⟨collects.occupied, rfl⟩
    · exact .inl old
  · rw [joined]
    exact List.nodup_cons.mpr ⟨recorded.uncollected child collects.occupied, recorded.joinedOnce⟩

/-- A process that quits gets the next number. -/
theorem terminated {status : Int} {i : Slot} (recorded : Recorded m) (occupied : m.kernel.occupied p = true)
    (place : m.place p = .user)
    (sound : Kernel.Sound { m.kernel.quitted p status with running_process := some i }) :
    Recorded { m with
      kernel := { m.kernel.quitted p status with running_process := some i }
      place := Function.update m.place p (.inside .quit_phase_1a)
      log := .called (m.pid p) .quit_phase_1a :: m.log } := by
  have pids : ∀ j, ((m.kernel.quitted p status).process_table j).pid = m.pid j := quitted_pid
  have taken : ∀ j, (m.kernel.quitted p status).occupied j = m.kernel.occupied j := by
    intro j
    unfold Kernel.occupied
    rw [quitted_pid]
  have others : ∀ j, j ≠ p → (m.kernel.quitted p status).status j = m.kernel.status j :=
    fun j other => congrArg Process.status (quitted_of_ne other)
  have notQuit : m.pid p ∉ quits m.log := fun quit =>
    absurd (place.symm.trans (recorded.left p occupied quit)) (by simp)
  have more : quits (.called (m.pid p) .quit_phase_1a :: m.log) = quits m.log ++ [m.pid p] := quits_quit
  refine ⟨sound, fun i j occupied same => ?_, fun i isFree => ?_, ?_, fun i dead => ?_, ?_, fun i occupied quit => ?_,
    fun pid quit => ?_, recorded.joinedOnce, fun i occupied => ?_, recorded.joinedBelow⟩
  · exact recorded.distinct i j ((taken i).symm.trans occupied) ((pids i).symm.trans (same.trans (pids j)))
  · have wasFree : m.kernel.occupied i = false := (taken i).symm.trans isFree
    have other : i ≠ p := by
      rintro rfl
      exact absurd (occupied.symm.trans wasFree) (by decide)
    exact (others i other).trans (recorded.free i wasFree)
  · show (quits (.called (m.pid p) .quit_phase_1a :: m.log)).length = m.kernel.terminationCounter + 1
    rw [more, List.length_append, recorded.counted]
    rfl
  · show (quits (.called (m.pid p) .quit_phase_1a :: m.log))[((m.kernel.quitted p status).process_table
      i).termOrder]? = some ((m.kernel.quitted p status).process_table i).pid
    rw [more, pids]
    by_cases here : i = p
    · rw [here, quitted_self, ← recorded.counted, List.getElem?_concat_length]
    · have numbered := recorded.numbered i ((others i here).symm.trans dead)
      rw [quitted_of_ne here, List.getElem?_append_left (List.getElem?_eq_some_iff.mp numbered).1]
      exact numbered
  · show (quits (.called (m.pid p) .quit_phase_1a :: m.log)).Nodup
    rw [more, List.nodup_append]
    refine ⟨recorded.quitOnce, List.nodup_singleton _, fun a quit b last same => ?_⟩
    rw [List.mem_singleton] at last
    exact notQuit (last ▸ same ▸ quit)
  · have quit : ((m.kernel.quitted p status).process_table i).pid ∈
        quits (.called (m.pid p) .quit_phase_1a :: m.log) := quit
    rw [more, pids, List.mem_append, List.mem_singleton] at quit
    show Function.update m.place p (.inside .quit_phase_1a) i = .inside .quit_phase_1a
    have occupied := (taken i).symm.trans occupied
    by_cases here : i = p
    · rw [here, Function.update_self]
    · rw [Function.update_of_ne here]
      exact recorded.left i occupied (quit.resolve_right fun same => here (recorded.distinct i p occupied same))
  · have quit : pid ∈ quits (.called (m.pid p) .quit_phase_1a :: m.log) := quit
    rw [more, List.mem_append, List.mem_singleton] at quit
    rcases quit with old | rfl
    · exact recorded.quitBelow pid old
    · exact recorded.sound.below p
  · show ((m.kernel.quitted p status).process_table i).pid ∉ joined m.log
    rw [pids]
    exact recorded.uncollected i ((taken i).symm.trans occupied)

theorem called (recorded : Recorded m) (runs : m.kernel.running_process = some p)
    (place : m.place p = .user) (sound : (m.run p c).kernel.Sound) :
    ((m.run p c).stopped = none → Recorded (m.run p c)) ∧ (joined (m.run p c).log).Nodup := by
  have effect := Call.exec_effect (c := c) recorded.sound runs
  generalize goes : c.exec m.kernel = seg at effect
  cases effect with
  | @answers next_pid value other more =>
    rw [run_returns goes] at sound ⊢
    have same : m.contexts { m.kernel with next_pid } = m.place := EntryTable.renewed_eq_self fun _ => id
    refine ⟨fun _ => recorded.quiet sound rfl more rfl ?_ ?_ fun i quit => ?_, ?_⟩
    · rw [quits_returned, quits_called other]
    · rw [joined_answered, joined_called]
    · exact (congrFun same i).trans quit
    · rw [joined_answered, joined_called]
      exact recorded.joinedOnce
  | sporks other sporks =>
    rw [run_returns goes] at sound ⊢
    refine ⟨fun _ => recorded.sporked sound sporks ?_ ?_, ?_⟩
    · rw [quits_returned, quits_called other]
    · rw [joined_answered, joined_called]
    · rw [joined_answered, joined_called]
      exact recorded.joinedOnce
  | @collects child k' isJoin collects =>
    rw [run_returns goes] at sound ⊢
    rw [isJoin]
    have after : Recorded { m with
        kernel := k', place := m.contexts k'
        log := .returned (m.pid p) .join (m.pid child) (some (m.kernel.process_table child).exit_status) ::
          .called (m.pid p) .join :: m.log } :=
      recorded.collected sound collects (by rw [quits_returned, quits_called (by decide)]) joined_joined
    exact ⟨fun _ => after, after.joinedOnce⟩
  | quits isQuit =>
    rw [run_switches goes] at sound ⊢
    rw [isQuit]
    exact ⟨fun _ => recorded.terminated (recorded.sound.running p runs) place sound, recorded.joinedOnce⟩
  | switches other =>
    rw [run_switches goes] at sound ⊢
    refine ⟨fun _ => recorded.quiet sound rfl le_rfl rfl (quits_called other) rfl fun i quit => ?_,
      recorded.joinedOnce⟩
    have here : i ≠ p := by
      rintro rfl
      exact absurd (place.symm.trans quit) (by simp)
    exact (Function.update_of_ne here ..).trans quit
  | stops notReturns notSwitches =>
    obtain ⟨reason, stopped⟩ := run_stops (p := p) goes notReturns notSwitches
    rw [stopped]
    exact ⟨by rintro ⟨⟩, recorded.joinedOnce⟩

theorem move (recorded : Recorded m) (move : Move m m') (sound : m'.kernel.Sound) :
    (m'.stopped = none → Recorded m') ∧ (joined m'.log).Nodup := by
  -- a process that is still to return has not quit
  have stays : ∀ {p place}, m.place p ≠ .inside .quit_phase_1a → ∀ i, m.place i = .inside .quit_phase_1a →
      Function.update m.place p place i = .inside .quit_phase_1a := by
    intro p place elsewhere i quit
    rw [Function.update_of_ne]
    · exact quit
    · rintro rfl
      exact elsewhere quit
  cases move with
  | starts switched =>
    obtain ⟨i, _, rfl⟩ := switchTo_eq_some switched
    exact ⟨fun _ => recorded.quiet sound rfl le_rfl rfl rfl rfl fun _ => id, recorded.joinedOnce⟩
  | begins place =>
    exact ⟨fun _ => recorded.quiet sound rfl le_rfl rfl rfl rfl (stays (by simp [place])), recorded.joinedOnce⟩
  | returns place other =>
    refine ⟨fun _ => recorded.quiet sound rfl le_rfl rfl rfl joined_answered (stays (by simp [place, other])), ?_⟩
    rw [joined_answered]
    exact recorded.joinedOnce
  | calls runs place => exact recorded.called runs place sound
  | stops => exact ⟨by rintro ⟨⟩, recorded.joinedOnce⟩

/-- A process that has terminated stays in its entry as it is until it is joined. -/
theorem kept (recorded : Recorded m) (move : Move m m') {i : Slot} (dead : m.kernel.status i = .terminated)
    (stays : m'.kernel.occupied i = true) :
    (m'.kernel.process_table i).unlinked = (m.kernel.process_table i).unlinked := by
  have taken : m.kernel.occupied i = true := by
    by_contra free
    exact absurd (dead.symm.trans (recorded.free i (by simpa using free))) (by decide)
  cases move with
  | starts switched =>
    obtain ⟨_, _, rfl⟩ := switchTo_eq_some switched
    rfl
  | begins | returns | stops => rfl
  | @calls p c runs place =>
    have effect := Call.exec_effect (c := c) recorded.sound runs
    generalize goes : c.exec m.kernel = seg at effect
    cases effect with
    | answers =>
      rw [run_returns goes]
    | sporks _ sporks =>
      rw [run_returns goes]
      refine sporks.others i ?_
      rintro rfl
      exact absurd (taken.symm.trans sporks.free) (by decide)
    | collects _ collects =>
      rw [run_returns goes] at stays ⊢
      exact collects.others i ((collects.occupied_iff i).mp stays).1
    | quits =>
      rw [run_switches goes]
      have other : i ≠ p := by
        rintro rfl
        have quit := List.mem_of_getElem? (recorded.numbered i dead)
        exact absurd (place.symm.trans (recorded.left i taken quit)) (by simp)
      exact congrArg Process.unlinked (quitted_of_ne other)
    | switches =>
      rw [run_switches goes]
    | stops notReturns notSwitches =>
      obtain ⟨reason, stopped⟩ := run_stops (p := p) goes notReturns notSwitches
      rw [stopped]

end Recorded

namespace Machine

variable {m m' : Machine} {p : Slot}

theorem boot_recorded : Recorded boot where
  sound := boot_sound
  distinct := by decide
  free := by decide
  counted := rfl
  numbered := by decide
  quitOnce := List.nodup_nil
  left _ _ := by rintro ⟨⟩
  quitBelow _ := by rintro ⟨⟩
  joinedOnce := List.nodup_nil
  uncollected _ _ := by rintro ⟨⟩
  joinedBelow _ := by rintro ⟨⟩

theorem recorded_of_run (run : Transition.Run step (fun _ _ => True) boot m) :
    (m.stopped = none → Recorded m) ∧ (joined m.log).Nodup := by
  refine run.invariant (fun m => (m.stopped = none → Recorded m) ∧ (joined m.log).Nodup)
    ⟨fun _ => boot_recorded, List.nodup_nil⟩ fun m a m' before _ moves => ?_
  obtain ⟨goesOn, move⟩ := step_move moves
  have recorded := before.1 goesOn
  exact recorded.move move (step_sound recorded.sound moves)

/-- The terminated child of the list with the greatest `termOrder`. -/
structure Latest (k : Kernel) (l : List Slot) (child : Slot) : Prop where
  listed : child ∈ l
  dead : k.status child = .terminated
  greatest : ∀ i ∈ l, i ≠ child → k.status i = .terminated →
    (k.process_table i).termOrder < (k.process_table child).termOrder

/-- The call has returned the child. Its entry is free, and the rest of its
list and all the others are what they were. -/
structure Joins (m : Machine) (p : Slot) (l : List Slot) (child : Slot) (m' : Machine) : Prop where
  answer : m'.log = .returned (m.pid p) .join (m.pid child) (some (m.kernel.process_table child).exit_status) ::
    .called (m.pid p) .join :: m.log
  frees : ∀ i, m'.kernel.occupied i = true ↔ i ≠ child ∧ m.kernel.occupied i = true
  rest : Leads m'.kernel.next (m'.kernel.children p) (l.erase child) none
  otherLists : ∀ q l', q ≠ p → m.kernel.occupied q = true → Leads m.kernel.next (m.kernel.children q) l' none →
    Leads m'.kernel.next (m'.kernel.children q) l' none
  entries : ∀ i, i ≠ child → (m'.kernel.process_table i).unlinked = (m.kernel.process_table i).unlinked

/-- What a call of `join` does with the list of the children of its caller. -/
def JoinRight (m : Machine) (p : Slot) (m' : Machine) : Prop :=
  ∃ l, Leads m.kernel.next (m.kernel.children p) l none ∧
    (∀ i ∈ l, m.kernel.occupied i = true ∧ m.kernel.parent i = some p) ∧
    ((∃ i ∈ l, m.kernel.status i = .terminated) → ∃ child, Latest m.kernel l child ∧ m.Joins p l child m') ∧
    ((∀ i ∈ l, m.kernel.status i ≠ .terminated) →
      m' = { m with log := .returned (m.pid p) .join (-2) none :: .called (m.pid p) .join :: m.log })

/-- The `termOrder` of a process is its place among those that have quit. -/
theorem latest_of_collects (recorded : Recorded m) {child : Slot} {k : Kernel}
    (collects : Collects m.kernel p child k) : ∃ l, Leads m.kernel.next (m.kernel.children p) l none ∧
      Latest m.kernel l child ∧ Leads k.next (k.children p) (l.erase child) none := by
  obtain ⟨first, second, leads, rest, greatest⟩ := collects.list
  have notFirst : child ∉ first := by
    have distinct := leads.nodup
    rw [List.nodup_append] at distinct
    exact fun member => distinct.2.2 child member child (List.mem_cons_self ..) rfl
  refine ⟨_, leads, ⟨by simp, collects.dead, fun i member other dead => ?_⟩, ?_⟩
  · refine lt_of_le_of_ne (greatest i member dead) fun same => other ?_
    have atI := recorded.numbered i dead
    rw [same, recorded.numbered child collects.dead] at atI
    exact (recorded.distinct child i collects.occupied (Option.some.inj atI)).symm
  · rwa [List.erase_append_right _ notFirst, List.erase_cons_head]

theorem run_joinRight (recorded : Recorded m) (runs : m.kernel.running_process = some p) :
    m.JoinRight p (m.run p (.join true)) := by
  obtain ⟨l, leads, members⟩ := recorded.sound.lists p (recorded.sound.running p runs)
  refine ⟨l, leads, members, ?_⟩
  rcases recorded.sound.joins runs with ⟨answers, nobody⟩ | ⟨child, k, answers, collects, l', leads', stay⟩
  · refine ⟨fun ⟨i, member, dead⟩ => absurd dead (nobody l leads i member), fun _ => ?_⟩
    have same : m.contexts m.kernel = m.place := EntryTable.renewed_eq_self fun _ => id
    rw [run_returns (c := .join true) answers, same]
    rfl
  · obtain ⟨list, leadsList, latest, rest⟩ := latest_of_collects recorded collects
    obtain rfl := leads.unique leadsList
    obtain rfl := leads.unique leads'
    refine ⟨fun _ => ⟨child, latest, ?_⟩, fun nobody => absurd latest.dead (nobody child latest.listed)⟩
    rw [run_returns (c := .join true) answers]
    refine ⟨rfl, collects.occupied_iff, rest, fun q lq other taken leadsQ => ?_, collects.others⟩
    obtain ⟨lq', leadsQ', membersQ⟩ := recorded.sound.lists q taken
    obtain rfl := leadsQ.unique leadsQ'
    exact stay q lq other leadsQ fun i inP inQ =>
      other (Option.some.inj ((membersQ i inQ).2.symm.trans (members i inP).2))

/-- Every call of `join` picks the child that has quit last, once. -/
structure JoinsInOrder (m : Machine) : Prop where
  picks : ∀ p m', m.kernel.running_process = some p → m.step (.call (.join true)) = some m' → m.JoinRight p m'
  once : (joined m.log).Nodup
  quitOnce : m.stopped = none → (quits m.log).Nodup
  numbered : m.stopped = none → ∀ i, m.kernel.status i = .terminated →
    (quits m.log)[(m.kernel.process_table i).termOrder]? = some (m.pid i)
  kept : ∀ a m', m.step a = some m' → ∀ i, m.kernel.status i = .terminated → m'.kernel.occupied i = true →
    (m'.kernel.process_table i).unlinked = (m.kernel.process_table i).unlinked

theorem join_picks_latest (run : Transition.Run step (fun _ _ => True) boot m) : m.JoinsInOrder := by
  obtain ⟨recorded, once⟩ := recorded_of_run run
  refine ⟨fun p m' runs moves => ?_, once, fun goesOn => (recorded goesOn).quitOnce,
    fun goesOn => (recorded goesOn).numbered, fun a m' moves i dead stays => ?_⟩
  · have goesOn := (step_move moves).1
    rw [step_call runs moves]
    exact run_joinRight (recorded goesOn) runs
  · obtain ⟨goesOn, move⟩ := step_move moves
    exact (recorded goesOn).kept move dead stays

/-- `testcase_main` has three children, of which the second quits first, and then the first. -/
def twoQuit : List Act :=
  testcaseRuns ++ [.call (.spork true true), .call (.spork true true), .call (.spork true true),
    .call (.TEMP_switchTo 4), .resume, .call (.quit_phase_1a 8 2), .resume, .call (.TEMP_switchTo 3), .resume,
    .call (.quit_phase_1a 7 2), .resume, .call (.join true)]

theorem join_picks_latest_run : ∃ m : Machine, m.log.head? = some (.returned 2 .join 3 (some 7)) ∧ m.JoinsInOrder := by
  obtain ⟨m, run, joined⟩ := Transition.exists_run step boot twoQuit (fun _ _ => true) (fun _ _ _ => trivial)
    (fun m => decide (m.log.head? = some (.returned 2 .join 3 (some 7)))) (by decide +kernel)
  exact ⟨m, of_decide_eq_true joined, join_picks_latest run⟩

end Machine

end UslossKernel.Phase1a
