import UslossKernel.Scheduler

namespace UslossKernel.Phase1b

open LinkedList

/-- The entry without the links of the lists it is in. -/
def Process.unlinked (e : Process) : Process :=
  { e with parent := none, children := none, sibling := none, next := none }

namespace Kernel

variable {k k' : Kernel} {i j p : Slot} {f : Process → Process} {q : Nat} {head : Option Slot}

@[simp] theorem modify_running : (k.modify i f).running_process = k.running_process := rfl
@[simp] theorem modify_next_pid : (k.modify i f).next_pid = k.next_pid := rfl
@[simp] theorem modify_ready_queues : (k.modify i f).ready_queues = k.ready_queues := rfl
@[simp] theorem setHead_running : (k.setHead q head).running_process = k.running_process := rfl
@[simp] theorem setHead_next_pid : (k.setHead q head).next_pid = k.next_pid := rfl
@[simp] theorem setHead_process_table : (k.setHead q head).process_table = k.process_table := rfl

@[simp] theorem setHead_self : (k.setHead q head).ready_queues q = head := Function.update_self ..

@[simp] theorem setHead_of_ne {q' : Nat} (other : q' ≠ q) : (k.setHead q head).ready_queues q' = k.ready_queues q' :=
  Function.update_of_ne other ..

@[simp] theorem setHead_status : (k.setHead q head).status = k.status := rfl
@[simp] theorem setHead_next : (k.setHead q head).next = k.next := rfl
@[simp] theorem setHead_occupied : (k.setHead q head).occupied = k.occupied := rfl

@[simp] theorem modify_self : (k.modify i f).process_table i = f (k.process_table i) := EntryTable.modify_self

@[simp] theorem modify_of_ne (other : j ≠ i) : (k.modify i f).process_table j = k.process_table j :=
  EntryTable.modify_of_ne other

/-- A field that the change leaves alone. -/
theorem modify_field {α : Type} (field : Process → α) (same : ∀ e, field (f e) = field e) (j : Slot) :
    field ((k.modify i f).process_table j) = field (k.process_table j) :=
  congrFun (EntryTable.fields_modify_of_blind field same) j

def unlinked (k : Kernel) (j : Slot) : Process := (k.process_table j).unlinked

@[simp] theorem modify_next_unlinked {v : Option Slot} (j : Slot) :
    (k.modify i fun e => { e with next := v }).unlinked j = k.unlinked j :=
  modify_field (f := fun e => { e with next := v }) Process.unlinked (fun _ => rfl) j

@[simp] theorem setHead_unlinked (j : Slot) : (k.setHead q head).unlinked j = k.unlinked j := rfl

theorem modify_unlinked_of_ne (other : j ≠ i) : (k.modify i f).unlinked j = k.unlinked j := by
  unfold unlinked
  rw [modify_of_ne other]

theorem modify_unlinked_self : (k.modify i f).unlinked i = (f (k.process_table i)).unlinked := by
  unfold unlinked
  rw [modify_self]

theorem unlinked_field {α : Type} (field : Process → α) (blind : ∀ e : Process, field e.unlinked = field e)
    (same : k'.unlinked i = k.unlinked j) : field (k'.process_table i) = field (k.process_table j) :=
  EntryTable.field_of_rest Process.unlinked field blind same

section newProcess
variable {slot : Slot} {startFunc : Bool} {priority : Nat}

@[simp] theorem newProcess_self : (k.newProcess slot startFunc priority).process_table slot =
    { k.process_table slot with
      pid := drawPid k.next_pid, priority, status := .runnable, stack := true, startFunc } :=
  Function.update_self ..

@[simp] theorem newProcess_of_ne (other : j ≠ slot) :
    (k.newProcess slot startFunc priority).process_table j = k.process_table j :=
  Function.update_of_ne other ..

theorem newProcess_next : (k.newProcess slot startFunc priority).next j = k.next j := by
  unfold next
  by_cases here : j = slot
  · subst here
    rw [newProcess_self]
  · rw [newProcess_of_ne here]

end newProcess

/-- `linkChild` writes to the process table only. -/
theorem linkChild_table {child : Slot} (linked : k.linkChild child = some k') :
    ∃ table, k' = { k with process_table := table } := by
  unfold linkChild at linked
  split at linked
  · cases linked
    exact ⟨_, rfl⟩
  · simp only at linked
    split at linked
    · split at linked <;> cases linked <;> exact ⟨_, rfl⟩
    · cases linked
      exact ⟨_, rfl⟩

theorem linkChild_running {child : Slot} (linked : k.linkChild child = some k') :
    k'.running_process = k.running_process := by
  obtain ⟨_, rfl⟩ := linkChild_table linked
  rfl

/-- `linkChild` changes only the links of the family. -/
theorem linkChild_field {α : Type} {child : Slot} (linked : k.linkChild child = some k') (field : Process → α)
    (parent : ∀ e v, field { e with parent := v } = field e)
    (children : ∀ e v, field { e with children := v } = field e)
    (sibling : ∀ e v, field { e with sibling := v } = field e) (j : Slot) :
    field (k'.process_table j) = field (k.process_table j) := by
  unfold linkChild at linked
  split at linked
  · cases linked
    exact modify_field field (fun e => parent e _) j
  · simp only at linked
    split at linked
    · split at linked <;> cases linked <;>
        simp only [modify_field field (fun e => parent e _), modify_field field (fun e => children e _),
          modify_field field (fun e => sibling e _)]
    · cases linked
      simp only [modify_field field (fun e => parent e _), modify_field field (fun e => children e _),
        modify_field field (fun e => sibling e _)]

theorem linkChild_unlinked {child : Slot} (linked : k.linkChild child = some k') (j : Slot) :
    k'.unlinked j = k.unlinked j :=
  linkChild_field linked Process.unlinked (fun _ _ => rfl) (fun _ _ => rfl) (fun _ _ => rfl) j

theorem linkChild_heads {child : Slot} (linked : k.linkChild child = some k') : k'.ready_queues = k.ready_queues := by
  obtain ⟨_, rfl⟩ := linkChild_table linked
  rfl

/-- The walk comes to the end of the queue, and the entry is put behind it. -/
theorem appendToQueue_eq_some (appended : k.appendToQueue i = some k') :
    (k.ready_queues (k.queue i) = none ∧ k' = k.setHead (k.queue i) (some i)) ∨
      ∃ before last, seek k.next (fun j => (k.next j).isNone) maxProc none (k.ready_queues (k.queue i)) =
        .at before last ∧ k' = k.modify last fun e => { e with next := some i } := by
  unfold appendToQueue at appended
  split at appended
  · cases appended
  · rename_i absent
    exact .inl ⟨seek_last_absent absent, (Option.some.inj appended).symm⟩
  · rename_i found
    exact .inr ⟨_, _, found, (Option.some.inj appended).symm⟩

theorem appendToQueue_running (appended : k.appendToQueue i = some k') : k'.running_process = k.running_process := by
  rcases appendToQueue_eq_some appended with ⟨_, rfl⟩ | ⟨_, _, _, rfl⟩ <;> rfl

theorem appendToQueue_unlinked (appended : k.appendToQueue i = some k') (j : Slot) : k'.unlinked j = k.unlinked j := by
  rcases appendToQueue_eq_some appended with ⟨_, rfl⟩ | ⟨_, _, _, rfl⟩
  · exact setHead_unlinked j
  · exact modify_next_unlinked j

theorem remove_eq_some (removed : k.remove_from_ready_queue p = some k') :
    (seek k.next (fun j => j = p) maxProc none (k.ready_queues (k.queue p)) = .absent ∧ k' = k) ∨
      (k.ready_queues (k.queue p) = some p ∧
        k' = (k.setHead (k.queue p) (k.next p)).modify p fun e => { e with next := none }) ∨
      ∃ before, seek k.next (fun j => j = p) maxProc none (k.ready_queues (k.queue p)) = .at (some before) p ∧
        k.next before = some p ∧
        k' = (k.modify before fun e => { e with next := k.next p }).modify p fun e => { e with next := none } := by
  unfold remove_from_ready_queue at removed
  split at removed
  · cases removed
  · rename_i absent
    exact .inl ⟨absent, (Option.some.inj removed).symm⟩
  · rename_i i found
    obtain ⟨same, ⟨_, start⟩ | ⟨_, ⟨⟩, _⟩⟩ := seek_found found
    obtain rfl := of_decide_eq_true same
    exact .inr (.inl ⟨start, (Option.some.inj removed).symm⟩)
  · rename_i before i found
    obtain ⟨same, ⟨⟨⟩, _⟩ | ⟨_, atBefore, link⟩⟩ := seek_found found
    cases atBefore
    obtain rfl := of_decide_eq_true same
    exact .inr (.inr ⟨before, found, link, (Option.some.inj removed).symm⟩)

theorem remove_running (removed : k.remove_from_ready_queue p = some k') : k'.running_process = k.running_process := by
  rcases remove_eq_some removed with ⟨_, rfl⟩ | ⟨_, rfl⟩ | ⟨_, _, _, rfl⟩ <;> rfl

theorem remove_unlinked (removed : k.remove_from_ready_queue p = some k') (j : Slot) :
    k'.unlinked j = k.unlinked j := by
  rcases remove_eq_some removed with ⟨_, rfl⟩ | ⟨_, rfl⟩ | ⟨_, _, _, rfl⟩
  · rfl
  · rw [modify_next_unlinked, setHead_unlinked]
  · rw [modify_next_unlinked, modify_next_unlinked]

/-- Waking them all, one after the other: `P` is about the entries that are still to come. -/
theorem wakeZappers_over {P : List Slot → Kernel → Prop} (holds : P (List.finRange maxProc) k)
    (keeps : ∀ k i rest, P (i :: rest) k → P rest (wakeZapper p k i)) : P [] (k.wakeZappers p) := by
  unfold wakeZappers
  generalize List.finRange maxProc = slots at holds
  induction slots generalizing k with
  | nil => exact holds
  | cons i rest ih => exact ih (keeps k i rest holds)

/-- What waking one process keeps, waking them all keeps. -/
theorem wakeZappers_keeps {P : Kernel → Prop} (holds : P k) (keeps : ∀ k i, P k → P (wakeZapper p k i)) :
    P (k.wakeZappers p) :=
  wakeZappers_over (P := fun _ => P) holds fun k i _ => keeps k i

theorem wakeZapper_running (i : Slot) : (wakeZapper p k i).running_process = k.running_process := by
  unfold wakeZapper
  split <;> rfl

theorem wakeParent_running : (k.wakeParent p).running_process = k.running_process := by
  unfold wakeParent
  split
  · rfl
  · split <;> rfl

theorem terminate_running (status : Int) : (k.terminate p status).running_process = k.running_process :=
  wakeZappers_keeps (P := fun k' => k'.running_process = k.running_process) wakeParent_running
    fun _ i same => (wakeZapper_running i).trans same

end Kernel

/-- The entry that `spork` has taken is at the end of its queue, and the links
are set. -/
inductive Sporked (k : Kernel) (slot : Slot) : Kernel → Prop
  | intro {startFunc : Bool} {priority : Nat} {linked queued : Kernel} : k.freeSlot = some slot →
      1 ≤ priority → priority ≤ 5 → (k.newProcess slot startFunc priority).linkChild slot = some linked →
      linked.appendToQueue slot = some queued →
      Sporked k slot (queued.modify slot fun p => { p with next := none })

namespace Sporked

variable {k k' : Kernel} {slot : Slot}

theorem free (sporked : Sporked k slot k') : k.occupied slot = false := by
  obtain ⟨found, _⟩ := sporked
  simpa using List.find?_some found

/-- The entries that were taken are others. -/
theorem apart {i : Slot} (sporked : Sporked k slot k') (taken : k.occupied i = true) : i ≠ slot := by
  rintro rfl
  exact absurd (taken.symm.trans sporked.free) (by decide)

theorem fields (sporked : Sporked k slot k') : ∃ (startFunc : Bool) (priority : Nat), 1 ≤ priority ∧ priority ≤ 5 ∧
    ∀ j, k'.unlinked j = (k.newProcess slot startFunc priority).unlinked j := by
  obtain @⟨startFunc, priority, _, _, _, least, most, linked, queued⟩ := sporked
  refine ⟨startFunc, priority, least, most, fun j => ?_⟩
  rw [Kernel.modify_next_unlinked, Kernel.appendToQueue_unlinked queued, Kernel.linkChild_unlinked linked]

theorem other (sporked : Sporked k slot k') {j : Slot} (apart : j ≠ slot) : k'.unlinked j = k.unlinked j := by
  obtain ⟨_, _, _, _, fields⟩ := sporked.fields
  rw [fields]
  unfold Kernel.unlinked
  rw [Kernel.newProcess_of_ne apart]

/-- What the new process starts with; its `zap_target` is that of the last process of the entry. -/
theorem created (sporked : Sporked k slot k') :
    (k'.process_table slot).pid = Kernel.drawPid k.next_pid ∧ (k'.process_table slot).status = .runnable ∧
      1 ≤ (k'.process_table slot).priority ∧ (k'.process_table slot).priority ≤ 5 ∧
      (k'.process_table slot).zap_target = (k.process_table slot).zap_target := by
  obtain ⟨_, _, least, most, fields⟩ := sporked.fields
  have pid := Kernel.unlinked_field Process.pid (fun _ => rfl) (fields slot)
  have priority := Kernel.unlinked_field Process.priority (fun _ => rfl) (fields slot)
  have status := Kernel.unlinked_field Process.status (fun _ => rfl) (fields slot)
  have target := Kernel.unlinked_field Process.zap_target (fun _ => rfl) (fields slot)
  rw [Kernel.newProcess_self] at pid priority status target
  refine ⟨pid, status, ?_, ?_, target⟩ <;> rw [priority] <;> assumption

end Sporked

/-- The point from which `p` looks for a terminated child. -/
def Point.joins : Point → Bool
  | .call (.join status) => status
  | .resume .join => true
  | _ => false

/-- The point at which `quit` is called in kernel mode. -/
def Point.quits (status : Int) : Point → Bool
  | .call (.quit kernelMode s) | .call (.finish kernelMode s) => kernelMode && s = status
  | _ => false

/-- Every way a stretch of code of the running process can go: the point it
starts from, what was tested on the way, the tables it leaves and how it ends. -/
inductive Path (k : Kernel) (p : Slot) : Point → Segment → Prop
  | halts {pt code} : Path k p pt (k, .halts code)
  | sporkHangs {c slot startFunc} {priority : Nat} {linked} : c.fn = .spork → k.freeSlot = some slot →
      1 ≤ priority → priority ≤ 5 → (k.newProcess slot startFunc priority).linkChild slot = some linked →
      linked.appendToQueue slot = none → Path k p (.call c) (k, .hangs .queue)
  | linkHangs {c slot startFunc} {priority : Nat} : c.fn = .spork → k.freeSlot = some slot →
      (k.newProcess slot startFunc priority).linkChild slot = none → Path k p (.call c) (k, .hangs .children)
  | joinHangs {pt} : pt.joins = true →
      seek k.sibling (fun i => k.status i = .terminated) maxProc none (k.process_table p).children = .endless →
      Path k p pt (k, .hangs .children)
  | quitHangs {pt status} : pt.quits status = true → (k.process_table p).children = none →
      (k.terminate p status).remove_from_ready_queue p = none → Path k p pt (k, .hangs .queue)
  | unblockHangs {pid i} : (k.process_table i).pid = pid → k.status i = .blocked →
      (k.modify i fun e => { e with status := .runnable }).appendToQueue i = none →
      Path k p (.call (.unblockProc pid)) (k, .hangs .queue)
  | stays {pt value status} : (∀ pid, pt ≠ .call (.zap pid)) → Path k p pt (k, .returns value status)
  | zapsDead {pid target} : (k.process_table target).pid = pid → k.status target = .terminated →
      Path k p (.call (.zap pid)) (k, .returns 0 none)
  | yields : Path k p (.call .dispatcher) (k, .dispatches .dispatcher)
  | sporks {c slot k' ending} : c.fn = .spork → Sporked k slot k' →
      ending = .returns (k'.process_table slot).pid none ∨ ending = .dispatches (.spork slot) →
      Path k p (.call c) (k', ending)
  | waits {pt} : pt.joins = true →
      seek k.sibling (fun i => k.status i = .terminated) maxProc none (k.process_table p).children = .absent →
      Path k p pt (k.modify p fun e => { e with status := .blocked }, .dispatches .join)
  | collects {pt before child} : pt.joins = true →
      seek k.sibling (fun i => k.status i = .terminated) maxProc none (k.process_table p).children = .at before child →
      Path k p pt (k.collect p before child,
        .returns (k.process_table child).pid (some (k.process_table child).exit_status))
  | quits {pt status k'} : pt.quits status = true → (k.process_table p).children = none →
      (k.terminate p status).remove_from_ready_queue p = some k' → Path k p pt (k', .dispatches (.quit status))
  | blocks : Path k p (.call .blockMe) (k.modify p fun e => { e with status := .blocked }, .dispatches .blockMe)
  | unblocks {pid i k'} : (k.process_table i).pid = pid → k.status i = .blocked →
      (k.modify i fun e => { e with status := .runnable }).appendToQueue i = some k' →
      Path k p (.call (.unblockProc pid)) (k', .dispatches (.unblockProc pid))
  | zaps {pid target} : (k.process_table target).pid = pid → k.status target ≠ .terminated →
      Path k p (.call (.zap pid))
        (k.modify p fun e => { e with status := .blocked, zap_target := some target }, .dispatches (.zap pid))

variable {k : Kernel} {p : Slot} {pt : Point}

theorem joinLoop_path (joins : pt.joins = true) : Path k p pt (k.joinLoop p) := by
  unfold Kernel.joinLoop
  split
  · rename_i endless
    exact .joinHangs joins endless
  · rename_i absent
    exact .waits joins absent
  · rename_i found
    exact .collects joins found

theorem quit_path (running : k.running_process = some p) {kernelMode : Bool} {status : Int}
    (quits : kernelMode = true → pt.quits status = true) : Path k p pt (k.quit kernelMode status) := by
  unfold Kernel.quit
  rw [running]
  simp only
  split
  · exact .halts
  rename_i mode
  split
  · exact .halts
  rename_i childless
  split
  · rename_i endless
    exact .quitHangs (quits (by simpa using mode)) (by simpa using childless) endless
  · rename_i removed
    exact .quits (quits (by simpa using mode)) (by simpa using childless) removed

theorem spork_path {c : Call} (fn : c.fn = .spork) (kernelMode startFunc malloc : Bool) (stackSize priority : Int) :
    Path k p (.call c) (k.spork kernelMode startFunc malloc stackSize priority) := by
  have away : ∀ pid, Point.call c ≠ .call (.zap pid) := by
    rintro pid ⟨⟩
    cases fn
  unfold Kernel.spork
  split
  · exact .halts
  split
  · exact .stays away
  rename_i range
  split
  · exact .stays away
  split
  · exact .stays away
  rename_i slot free
  split
  · exact .halts
  split
  · rename_i endless
    exact .linkHangs fn free endless
  rename_i linked atLinked
  split
  · rename_i endless
    exact .sporkHangs fn free (by omega) (by omega) atLinked endless
  rename_i queued atQueued
  have sporked : Sporked k slot (queued.modify slot fun p => { p with next := none }) :=
    .intro free (by omega) (by omega) atLinked atQueued
  simp only
  split
  · split
    · exact .sporks fn sporked (.inr rfl)
    · exact .sporks fn sporked (.inl rfl)
  · exact .sporks fn sporked (.inl rfl)

theorem Point.exec_path (running : k.running_process = some p) : Path k p pt (pt.exec k p) := by
  cases pt with
  | call c =>
    cases c with
    | spork =>
      simp only [Point.exec, Call.exec]
      exact spork_path rfl ..
    | join status =>
      simp only [Point.exec, Call.exec, Kernel.join, running]
      split
      · exact .stays (by rintro _ ⟨⟩)
      rename_i given
      split
      · exact .stays (by rintro _ ⟨⟩)
      · exact joinLoop_path (by simpa [Point.joins] using given)
    | quit kernelMode status =>
      simp only [Point.exec, Call.exec]
      exact quit_path running fun mode => by simp [Point.quits, mode]
    | finish kernelMode rc =>
      simp only [Point.exec, Call.exec, Kernel.finish, running]
      split
      · exact .halts
      · exact quit_path running fun mode => by simp [Point.quits, mode]
    | blockMe =>
      simp only [Point.exec, Call.exec, Kernel.blockMe, running]
      exact .blocks
    | unblockProc pid =>
      simp only [Point.exec, Call.exec, Kernel.unblockProc]
      split
      · exact .stays (by rintro _ ⟨⟩)
      rename_i i found
      have blocked := List.find?_some found
      simp only [decide_eq_true_eq] at blocked
      split
      · rename_i endless
        exact .unblockHangs blocked.1 blocked.2 endless
      · rename_i appended
        exact .unblocks blocked.1 blocked.2 appended
    | zap pid =>
      simp only [Point.exec, Call.exec, Kernel.zap, running]
      split
      · exact .halts
      split
      · exact .halts
      rename_i target found
      have named : (k.process_table target).pid = pid := by simpa using List.find?_some found
      split
      · rename_i dead
        exact .zapsDead named dead
      · rename_i alive
        exact .zaps named alive
    | dispatcher => exact .yields
  | resume inside =>
    cases inside with
    | join => exact joinLoop_path rfl
    | _ => exact .stays (by rintro _ ⟨⟩)

/-- The action by which a process runs on from a point. -/
def Point.act : Point → Act
  | .call c => .call c
  | .resume _ => .resume

/-- Only `dispatcher` changes which process runs. -/
theorem Path.running {seg : Segment} (path : Path k p pt seg) :
    seg.1.running_process = k.running_process := by
  cases path with
  | halts | sporkHangs | linkHangs | joinHangs | quitHangs | unblockHangs => rfl
  | stays | zapsDead | yields | waits | blocks | zaps => rfl
  | sporks _ sporked =>
    obtain @⟨_, _, linked, _, _, _, _, atLinked, atQueued⟩ := sporked
    have linked := Kernel.linkChild_running atLinked
    have queued := Kernel.appendToQueue_running atQueued
    exact queued.trans linked
  | @collects _ before =>
    cases before <;> rfl
  | quits _ _ removed => exact (Kernel.remove_running removed).trans (Kernel.terminate_running _)
  | unblocks _ _ appended =>
    have queued := Kernel.appendToQueue_running appended
    exact queued

namespace Machine

/-- The running process runs on from this point. -/
structure At (m : Machine) (p : Slot) (pt : Point) : Prop where
  running : m.kernel.running_process = some p
  goesOn : m.stopped = none
  place : (∃ c, pt = .call c ∧ m.place p = .user) ∨ ∃ inside, pt = .resume inside ∧ m.place p = .inside inside

theorem At.of_user {m : Machine} {c : Call} (running : m.kernel.running_process = some p) (goesOn : m.stopped = none)
    (place : m.place p = .user) : m.At p (.call c) :=
  ⟨running, goesOn, .inl ⟨c, rfl, place⟩⟩

theorem At.path {m : Machine} (here : m.At p pt) : Path m.kernel p pt (pt.exec m.kernel p) :=
  Point.exec_path here.running

@[simp] theorem enter_kernel (m : Machine) (p : Slot) (pt : Point) : (m.enter p pt).kernel = m.kernel := by
  cases pt <;> rfl

@[simp] theorem enter_place (m : Machine) (p : Slot) (pt : Point) : (m.enter p pt).place = m.place := by
  cases pt <;> rfl

@[simp] theorem enter_stopped (m : Machine) (p : Slot) (pt : Point) : (m.enter p pt).stopped = m.stopped := by
  cases pt <;> rfl

section place
variable {m : Machine} {k : Kernel} {i : Slot} {fn : Fn} {value : Int} {status : Option Int} {inside : Inside}

theorem enter_contexts : (m.enter p pt).contexts k = m.contexts k := by
  unfold contexts
  rw [enter_kernel, enter_place]

@[simp] theorem back_place_self : (m.back p fn k value status).place p = .user := Function.update_self ..

theorem back_place_of_ne (other : i ≠ p) : ((m.enter p pt).back p fn k value status).place i = m.contexts k i :=
  (Function.update_of_ne other ..).trans (congrFun enter_contexts i)

@[simp] theorem switch_place_self : (m.switch p inside k).place p = .inside inside := Function.update_self ..

theorem switch_place_of_ne (other : i ≠ p) : ((m.enter p pt).switch p inside k).place i = m.contexts k i :=
  (Function.update_of_ne other ..).trans (congrFun enter_contexts i)

/-- A place inside a call is that of a process which was there before. -/
theorem contexts_inside (there : m.contexts k i = .inside inside) :
    m.place i = .inside inside ∧ (m.kernel.occupied i = false → k.occupied i = false) :=
  EntryTable.of_renewed there (by simp)

end place

@[simp] theorem enter_pid (m : Machine) (p : Slot) (pt : Point) (i : Slot) : (m.enter p pt).pid i = m.pid i := by
  unfold pid
  rw [enter_kernel]

theorem At.user {m : Machine} {c : Call} (here : m.At p (.call c)) : m.place p = .user := by
  rcases here.place with ⟨_, _, place⟩ | ⟨_, ⟨⟩, _⟩
  exact place

theorem At.inside {m : Machine} {w : Inside} (here : m.At p (.resume w)) : m.place p = .inside w := by
  rcases here.place with ⟨_, ⟨⟩, _⟩ | ⟨_, same, place⟩
  cases same
  exact place

/-- What a step of the machine can do. -/
inductive Move (m : Machine) : Act → Machine → Prop
  | starts {next : Slot} : m.kernel.running_process = none → m.kernel.selected = some next →
      Move m .start { m with kernel := { m.kernel with running_process := some next } }
  | begins {p : Slot} : m.kernel.running_process = some p → m.place p = .fresh →
      Move m .resume { m with place := Function.update m.place p .user }
  | returns {p : Slot} {pt : Point} {k : Kernel} {value status} : m.At p pt →
      pt.exec m.kernel p = (k, .returns value status) →
      Move m pt.act ((m.enter p pt).back p pt.fn k value status)
  | switches {p : Slot} {pt : Point} {k : Kernel} {inside next} : m.At p pt →
      pt.exec m.kernel p = (k, .dispatches inside) → k.selected = some next → next ≠ p →
      Move m pt.act ((m.enter p pt).switch p inside { k with running_process := some next })
  | halts {a reason} : (∀ walk, reason ≠ .hung walk) → Move m a (m.stop reason)
  | stops {p : Slot} {pt : Point} {reason} : m.At p pt →
      (∀ walk, reason = .hung walk → (pt.exec m.kernel p).2 = .hangs walk) →
      Move m pt.act ((m.enter p pt).stop reason)

theorem run_move {m : Machine} (here : m.At p pt) : Move m pt.act (m.run p pt) := by
  have path := here.path
  unfold run settle
  cases ends : (pt.exec m.kernel p).2 with
  | returns value status => exact .returns here (Prod.ext rfl ends)
  | dispatches inside =>
    have running := path.running
    simp only
    cases switched : (pt.exec m.kernel p).1.dispatcher with
    | none => exact .stops here (by rintro _ ⟨⟩)
    | some k =>
      obtain ⟨next, selected, other, rfl⟩ := Kernel.dispatcher_eq_some.mp switched
      refine .switches here (Prod.ext rfl ends) selected ?_
      rintro rfl
      exact other (running.trans here.running)
  | halts code => exact .stops here (by rintro _ ⟨⟩)
  | hangs walk =>
    refine .stops here ?_
    rintro _ ⟨⟩
    exact ends
  | crashes => exact .stops here (by rintro _ ⟨⟩)

theorem step_move {m m' : Machine} {a : Act} (moves : m.step a = some m') : Move m a m' := by
  unfold step at moves
  split at moves
  · cases moves
  rename_i goesOn
  have goesOn : m.stopped = none := by simpa using goesOn
  split at moves
  · rename_i running
    split at moves
    · rename_i k switched
      obtain ⟨next, selected, _, rfl⟩ := Kernel.dispatcher_eq_some.mp switched
      cases moves
      exact .starts running selected
    · cases moves
      exact .halts (by rintro _ ⟨⟩)
  · rename_i c p running
    split at moves
    · rename_i place
      cases moves
      exact run_move ⟨running, goesOn, .inl ⟨c, rfl, place⟩⟩
    · cases moves
  · rename_i p running
    split at moves
    · rename_i place
      split at moves
      · cases moves
        exact .begins running place
      · cases moves
        exact .halts (by rintro _ ⟨⟩)
    · rename_i inside place
      split at moves
      · cases moves
        exact run_move ⟨running, goesOn, .inr ⟨inside, rfl, place⟩⟩
      · cases moves
        exact .halts (by rintro _ ⟨⟩)
    · cases moves
  · cases moves

/-- At a call of `quit` in kernel mode, `P` holds of the process that quits. -/
def AtQuit (P : Machine → Slot → Prop) (m : Machine) : Act → Prop
  | .call (.quit true _) | .call (.finish true _) => ∀ p, m.kernel.running_process = some p → P m p
  | _ => True

/-- At a call of `unblockProc`, `P` holds of the blocked processes it is for. -/
def AtUnblock (P : Machine → Slot → Prop) (m : Machine) : Act → Prop
  | .call (.unblockProc pid) => ∀ i, (m.kernel.process_table i).pid = pid → m.kernel.status i = .blocked → P m i
  | _ => True

variable {P : Machine → Slot → Prop}

theorem AtQuit.holds {m : Machine} (atQuit : m.AtQuit P pt.act) (here : m.At p pt) {status : Int}
    (quits : pt.quits status = true) : P m p := by
  cases pt with
  | resume => cases quits
  | call c =>
    cases c with
    | quit kernelMode s | finish kernelMode s =>
      cases kernelMode with
      | false => cases quits
      | true => exact atQuit p here.running
    | _ => cases quits

instance [∀ m p, Decidable (P m p)] (m : Machine) (a : Act) : Decidable (m.AtQuit P a) :=
  match a with
  | .call (.quit true _) | .call (.finish true _) =>
    inferInstanceAs (Decidable (∀ p, m.kernel.running_process = some p → P m p))
  | .call (.quit false _) | .call (.finish false _) | .start | .resume | .call (.spork ..) | .call (.join _)
  | .call .blockMe | .call (.unblockProc _) | .call (.zap _) | .call .dispatcher => inferInstanceAs (Decidable True)

instance [∀ m p, Decidable (P m p)] (m : Machine) (a : Act) : Decidable (m.AtUnblock P a) :=
  match a with
  | .call (.unblockProc pid) =>
    inferInstanceAs (Decidable (∀ i, (m.kernel.process_table i).pid = pid → m.kernel.status i = .blocked → P m i))
  | .start | .resume | .call (.spork ..) | .call (.join _) | .call (.quit ..) | .call (.finish ..) | .call .blockMe
  | .call (.zap _) | .call .dispatcher => inferInstanceAs (Decidable True)

/-- Executing these actions one after the other from the start leads to `m`. -/
def Reaches (actions : List Act) (m : Machine) : Prop :=
  Transition.execute step (fun _ _ => true) boot actions = some m

theorem exists_reaches (actions : List Act) (test : Machine → Bool)
    (passes : (Transition.execute step (fun _ _ => true) boot actions).any test = true) :
    ∃ m, Reaches actions m ∧ test m = true :=
  Transition.exists_executed _ _ _ _ _ passes

/-- A `spork` of which only the priority can be refused. -/
def sporks (priority : Int) : Call := .spork true true true minStack priority

/-- `init_run` creates `testcase_main`, which takes over. -/
def testcaseRuns : List Act :=
  [.start, .resume, .call (sporks 3), .resume]

/-- The entries of `testcase_main`, whose pid is 2, and of the first two
processes it creates. -/
def testcaseSlot : Slot := ⟨2, by decide⟩

def childSlot : Slot := ⟨3, by decide⟩

def secondChildSlot : Slot := ⟨4, by decide⟩

end Machine

end UslossKernel.Phase1b
