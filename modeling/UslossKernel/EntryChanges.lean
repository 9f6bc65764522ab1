import UslossKernel.SchedulerSteps

namespace UslossKernel.Phase1b

open LinkedList

namespace Kernel

variable {k k' : Kernel} {i j p : Slot} {f : Process → Process}

theorem next_modify (next : ∀ e, (f e).next = e.next) (j : Slot) : (k.modify i f).next j = k.next j :=
  modify_field Process.next next j

theorem next_modify_self : (k.modify i f).next i = (f (k.process_table i)).next := by
  unfold next
  rw [modify_self]

theorem next_modify_of_ne (other : j ≠ i) : (k.modify i f).next j = k.next j := by
  unfold next
  rw [modify_of_ne other]

theorem status_modify_self : (k.modify i f).status i = (f (k.process_table i)).status := by
  unfold status
  rw [modify_self]

theorem status_modify_of_ne (other : j ≠ i) : (k.modify i f).status j = k.status j := by
  unfold status
  rw [modify_of_ne other]

theorem pid_congr (same : k'.unlinked i = k.unlinked i) : (k'.process_table i).pid = (k.process_table i).pid :=
  unlinked_field Process.pid (fun _ => rfl) same

theorem occupied_congr (same : k'.unlinked i = k.unlinked i) : k'.occupied i = k.occupied i := by
  unfold occupied
  rw [pid_congr same]

theorem status_congr (same : k'.unlinked i = k.unlinked i) : k'.status i = k.status i :=
  unlinked_field Process.status (fun _ => rfl) same

theorem target_congr (same : k'.unlinked i = k.unlinked i) :
    (k'.process_table i).zap_target = (k.process_table i).zap_target :=
  unlinked_field Process.zap_target (fun _ => rfl) same

theorem wakeParent_field {α : Type} (field : Process → α) (blind : ∀ e v, field { e with status := v } = field e)
    (j : Slot) : field ((k.wakeParent p).process_table j) = field (k.process_table j) := by
  unfold wakeParent
  split
  · rfl
  · split
    · exact modify_field field (fun e => blind e _) j
    · rfl

theorem wakeParent_heads : (k.wakeParent p).ready_queues = k.ready_queues := by
  unfold wakeParent
  split
  · rfl
  · split <;> rfl

theorem wakeParent_unlinked (j : Slot) : (k.wakeParent p).unlinked j = k.unlinked j ∨
    (k.process_table p).parent = some j ∧ k.status j = .blocked ∧
      (k.wakeParent p).unlinked j = { k.unlinked j with status := .runnable } := by
  unfold wakeParent
  split
  · exact .inl rfl
  · rename_i q isParent
    split
    · rename_i waits
      by_cases here : j = q
      · subst here
        exact .inr ⟨isParent, waits, modify_unlinked_self⟩
      · exact .inl (modify_unlinked_of_ne here)
    · exact .inl rfl

theorem wakeZappers_unlinked (j : Slot) : (k.wakeZappers p).unlinked j = k.unlinked j ∨
    k.status j = .blocked ∧ (k.process_table j).zap_target = some p ∧
      (k.wakeZappers p).unlinked j = { k.unlinked j with status := .runnable, zap_target := none } := by
  refine wakeZappers_keeps (P := fun k' => k'.unlinked j = k.unlinked j ∨ k.status j = .blocked ∧
    (k.process_table j).zap_target = some p ∧
      k'.unlinked j = { k.unlinked j with status := .runnable, zap_target := none }) (.inl rfl) fun k' i holds => ?_
  unfold wakeZapper
  split
  · rename_i asleep
    by_cases here : j = i
    · subst here
      rw [setHead_unlinked, modify_unlinked_self]
      rcases holds with same | ⟨blocked, target, woken⟩
      · refine .inr ⟨(status_congr same).symm.trans asleep.1, (target_congr same).symm.trans asleep.2, ?_⟩
        rw [← same]
        rfl
      · have awake := congrArg Process.status woken
        cases asleep.1.symm.trans awake
    · rwa [setHead_unlinked, modify_unlinked_of_ne here]
  · exact holds

section collect
variable {parent child : Slot} {before : Option Slot}

/-- `collect` changes only the links of the family and what marks the entry as free. -/
theorem collect_field {α : Type} (field : Process → α) (children : ∀ e v, field { e with children := v } = field e)
    (sibling : ∀ e v, field { e with sibling := v } = field e)
    (freed : ∀ e : Process, field { e with stack := false, pid := -1, sibling := none } = field e) (j : Slot) :
    field ((k.collect parent before child).process_table j) = field (k.process_table j) := by
  unfold collect
  cases before <;> simp only [modify_field field freed, modify_field field fun e => children e _,
    modify_field field fun e => sibling e _]

theorem collect_unlinked (j : Slot) : (k.collect parent before child).unlinked j =
    if j = child then { k.unlinked j with stack := false, pid := -1 } else k.unlinked j := by
  have linked : ∀ {before}, (match before with
      | none => k.modify parent fun p => { p with children := k.sibling child }
      | some b => k.modify b fun p => { p with sibling := k.sibling child } : Kernel).unlinked j = k.unlinked j := by
    intro before
    cases before <;> exact modify_field Process.unlinked (fun _ => by rfl) j
  unfold collect
  by_cases here : j = child
  · subst here
    rw [if_pos rfl, modify_unlinked_self, ← linked]
    rfl
  · rw [if_neg here, modify_unlinked_of_ne here]
    exact linked

theorem collect_status (j : Slot) : (k.collect parent before child).status j = k.status j :=
  collect_field Process.status (fun _ _ => rfl) (fun _ _ => rfl) (fun _ => rfl) j

theorem collect_next (j : Slot) : (k.collect parent before child).next j = k.next j :=
  collect_field Process.next (fun _ _ => rfl) (fun _ _ => rfl) (fun _ => rfl) j

theorem collect_heads : (k.collect parent before child).ready_queues = k.ready_queues := by
  unfold collect
  cases before <;> rfl

theorem collect_occupied_of_ne {j : Slot} (other : j ≠ child) :
    (k.collect parent before child).occupied j = k.occupied j := by
  refine occupied_congr ?_
  rw [collect_unlinked, if_neg other]

end collect

theorem wakeZapper_status (i j : Slot) : (wakeZapper p k i).status j =
    if j = i ∧ k.status i = .blocked ∧ (k.process_table i).zap_target = some p then .runnable else k.status j := by
  unfold wakeZapper
  split
  · rename_i asleep
    rw [setHead_status]
    by_cases here : j = i
    · subst here
      rw [status_modify_self, if_pos ⟨rfl, asleep⟩]
    · rw [status_modify_of_ne here, if_neg fun both => here both.1]
  · rename_i awake
    rw [if_neg fun both => awake both.2]

theorem wakeZapper_target_of_ne {i j : Slot} (other : j ≠ i) :
    ((wakeZapper p k i).process_table j).zap_target = (k.process_table j).zap_target := by
  unfold wakeZapper
  split
  · rw [setHead_process_table, modify_of_ne other]
  · rfl

/-- Nobody who has zapped `p` is left asleep. -/
theorem wakeZappers_wakes (target : (k.process_table j).zap_target = some p) :
    (k.wakeZappers p).status j ≠ .blocked := by
  have all : (k.wakeZappers p).status j ≠ .blocked ∨ j ∈ ([] : List Slot) := by
    refine (wakeZappers_over (P := fun rest k' => k'.status j ≠ .blocked ∨
      j ∈ rest ∧ (k'.process_table j).zap_target = some p) (.inr ⟨List.mem_finRange j, target⟩) ?_).imp_right And.left
    intro k' i rest holds
    rw [wakeZapper_status]
    rcases holds with awake | ⟨member, target'⟩
    · exact .inl (by split <;> simp [awake])
    · by_cases here : j = i
      · subst here
        by_cases asleep : k'.status j = .blocked
        · exact .inl (by simp [asleep, target'])
        · exact .inl (by simp [asleep])
      · refine .inr ⟨(List.mem_cons.mp member).resolve_left here, ?_⟩
        rw [wakeZapper_target_of_ne here]
        exact target'
  exact all.resolve_right List.not_mem_nil

theorem wakeZappers_awake (awake : k.status j ≠ .blocked) : (k.wakeZappers p).status j ≠ .blocked :=
  wakeZappers_keeps (P := fun k' => k'.status j ≠ .blocked) awake fun k' i still => by
    rw [wakeZapper_status]
    split
    · simp
    · exact still

/-- `quit` wakes the parent, and everybody who waits for the end of the process. -/
theorem terminate_wakes {exit : Int} (waits : (k.process_table p).parent = some j ∨
    (k.process_table j).zap_target = some p) : (k.terminate p exit).status j ≠ .blocked := by
  unfold terminate
  generalize died : (k.modify p fun e => { e with status := .terminated, exit_status := exit }) = k'
  have parent : (k'.process_table p).parent = (k.process_table p).parent := by
    subst died
    exact modify_field Process.parent (fun _ => by rfl) p
  have target : (k'.process_table j).zap_target = (k.process_table j).zap_target := by
    subst died
    exact modify_field Process.zap_target (fun _ => by rfl) j
  rcases waits with isParent | byTarget
  · refine wakeZappers_awake ?_
    unfold wakeParent
    rw [parent, isParent]
    simp only
    split
    · rw [status_modify_self]
      simp
    · assumption
  · refine wakeZappers_wakes ?_
    rw [wakeParent_field Process.zap_target (fun _ _ => rfl), target]
    exact byTarget

section terminate
variable {status : Int}

/-- It is not blocked any more, and so is not woken by itself. -/
theorem terminate_self : (k.terminate p status).unlinked p =
    { k.unlinked p with status := .terminated, exit_status := status } := by
  unfold terminate
  generalize died : (k.modify p fun e => { e with status := .terminated, exit_status := status }) = k'
  have atSelf : k'.unlinked p = { k.unlinked p with status := .terminated, exit_status := status } := by
    subst died
    exact modify_unlinked_self
  have dead : k'.status p = .terminated := by
    subst died
    rw [status_modify_self]
  rcases wakeParent_unlinked (k := k') (p := p) p with same | ⟨_, blocked, _⟩
  · rcases wakeZappers_unlinked (k := k'.wakeParent p) (p := p) p with same' | ⟨blocked, _⟩
    · rw [same', same, atSelf]
    · cases ((status_congr same).trans dead).symm.trans blocked
  · cases dead.symm.trans blocked

/-- The others keep their entries, but for the parent and for those that have zapped `p`. -/
theorem terminate_other (other : j ≠ p) : (k.terminate p status).unlinked j = k.unlinked j ∨
    k.status j = .blocked ∧ (
      (k.process_table p).parent = some j ∧
        (k.terminate p status).unlinked j = { k.unlinked j with status := .runnable } ∨
      (k.process_table j).zap_target = some p ∧
        (k.terminate p status).unlinked j = { k.unlinked j with status := .runnable, zap_target := none }) := by
  unfold terminate
  generalize died : (k.modify p fun e => { e with status := .terminated, exit_status := status }) = k'
  have parent : (k'.process_table p).parent = (k.process_table p).parent := by
    subst died
    rw [modify_self]
  have same : k'.unlinked j = k.unlinked j := by
    subst died
    exact modify_unlinked_of_ne other
  rcases wakeParent_unlinked (k := k') (p := p) j with kept | ⟨isParent, blocked, woken⟩
  · have entry := kept.trans same
    rcases wakeZappers_unlinked (k := k'.wakeParent p) (p := p) j with kept' | ⟨blocked, target, woken⟩
    · exact .inl (kept'.trans entry)
    · rw [woken, entry]
      exact .inr ⟨(status_congr entry).symm.trans blocked, .inr ⟨(target_congr entry).symm.trans target, rfl⟩⟩
  · rcases wakeZappers_unlinked (k := k'.wakeParent p) (p := p) j with kept | ⟨still, _⟩
    · rw [kept, woken, same]
      exact .inr ⟨(status_congr same).symm.trans blocked, .inl ⟨parent.symm.trans isParent, rfl⟩⟩
    · have awake := congrArg Process.status woken
      cases still.symm.trans awake

end terminate

end Kernel

open Kernel

/-- What a stretch of code of `p` can do to an entry, the links apart. -/
inductive Change (k : Kernel) (p : Slot) (pt : Point) (j : Slot) : Process → Prop
  | same : Change k p pt j (k.unlinked j)
  | created {e : Process} : k.occupied j = false → e.pid = Kernel.drawPid k.next_pid → e.status = .runnable →
      e.zap_target = (k.process_table j).zap_target → Change k p pt j e
  | blocks {target} : j = p → Change k p pt j { k.unlinked j with status := .blocked, zap_target := target }
  | collected : k.status j = .terminated → Change k p pt j { k.unlinked j with stack := false, pid := -1 }
  | died {status} : j = p → pt.quits status = true →
      Change k p pt j { k.unlinked j with status := .terminated, exit_status := status }
  | parentWoken {status} : pt.quits status = true → (k.process_table p).parent = some j → k.status j = .blocked →
      Change k p pt j { k.unlinked j with status := .runnable }
  | zapperWoken {status} : pt.quits status = true → (k.process_table j).zap_target = some p → k.status j = .blocked →
      Change k p pt j { k.unlinked j with status := .runnable, zap_target := none }
  | unblocked {pid} : pt = .call (.unblockProc pid) → (k.process_table j).pid = pid → k.status j = .blocked →
      Change k p pt j { k.unlinked j with status := .runnable }

variable {k : Kernel} {p : Slot} {pt : Point} {seg : Segment}

theorem terminate_change {status : Int} (quits : pt.quits status = true) (j : Slot) :
    Change k p pt j ((k.terminate p status).unlinked j) := by
  by_cases here : j = p
  · subst here
    rw [terminate_self]
    exact .died rfl quits
  · rcases terminate_other here with same | ⟨blocked, ⟨isParent, woken⟩ | ⟨target, woken⟩⟩
    · rw [same]
      exact .same
    · rw [woken]
      exact .parentWoken quits isParent blocked
    · rw [woken]
      exact .zapperWoken quits target blocked

/-- Blocking the running process. -/
theorem blocks_change (target : Process → Option Slot) (j : Slot) : Change k p pt j
    ((k.modify p fun e => { e with status := .blocked, zap_target := target e }).unlinked j) := by
  by_cases here : j = p
  · rw [here, modify_unlinked_self]
    exact .blocks rfl
  · rw [modify_unlinked_of_ne here]
    exact .same

theorem Path.change (path : Path k p pt seg) (j : Slot) : Change k p pt j (seg.1.unlinked j) := by
  cases path with
  | halts | sporkHangs | linkHangs | joinHangs | quitHangs | unblockHangs => exact .same
  | stays | zapsDead | yields => exact .same
  | @sporks _ slot _ _ _ sporked =>
    by_cases here : j = slot
    · subst here
      obtain ⟨pid, status, _, _, target⟩ := sporked.created
      exact .created sporked.free pid status target
    · rw [sporked.other here]
      exact .same
  | waits | blocks => exact blocks_change Process.zap_target j
  | zaps => exact blocks_change (fun _ => some _) j
  | collects _ found =>
    rw [collect_unlinked]
    split
    · rename_i here
      subst here
      exact .collected (of_decide_eq_true (seek_found found).1)
    · exact .same
  | quits quits _ removed =>
    rw [remove_unlinked removed]
    exact terminate_change quits j
  | @unblocks _ i _ named blocked appended =>
    rw [appendToQueue_unlinked appended]
    by_cases here : j = i
    · subst here
      rw [modify_unlinked_self]
      exact .unblocked rfl named blocked
    · rw [modify_unlinked_of_ne here]
      exact .same

end UslossKernel.Phase1b
