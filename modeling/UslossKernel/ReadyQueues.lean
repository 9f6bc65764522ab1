import UslossKernel.EntryChanges

namespace UslossKernel.Phase1b

open LinkedList

namespace Kernel

/-- Occupied by a process that has not terminated. -/
def Live (k : Kernel) (i : Slot) : Prop :=
  k.occupied i = true ∧ k.status i ≠ .terminated

def priority (k : Kernel) (i : Slot) : Nat := (k.process_table i).priority

/-- The ready queues are the lists `L`, which have all live processes, those of
each priority in one list. -/
structure Intact (k : Kernel) (L : Nat → List Slot) : Prop where
  leads : ∀ q, Leads k.next (k.ready_queues q) (L q) none
  member : ∀ q i, i ∈ L q ↔ k.Live i ∧ k.priority i = q + 1
  priorities : ∀ i, k.Live i → 1 ≤ k.priority i ∧ k.priority i ≤ 6

variable {k k' : Kernel} {L : Nat → List Slot} {i p : Slot}

theorem queue_add_one (least : 1 ≤ k.priority i) : k.priority i = k.queue i + 1 := by
  unfold queue priority at *
  omega

theorem queue_of_priority {q : Nat} (atQ : k.priority i = q + 1) : k.queue i = q := by
  unfold queue priority at *
  omega

theorem live_iff_of_free (free : ∀ i, k.occupied i = false → k.status i = .terminated) :
    k.Live i ↔ k.status i ≠ .terminated := by
  constructor
  · exact fun live => live.2
  · intro alive
    refine ⟨?_, alive⟩
    by_contra unused
    exact alive (free i (by simpa using unused))

theorem Intact.queue_eq (intact : k.Intact L) (live : k.Live i) : k.priority i = k.queue i + 1 :=
  queue_add_one (intact.priorities i live).1

theorem Intact.mem_queue (intact : k.Intact L) (live : k.Live i) : i ∈ L (k.queue i) :=
  (intact.member _ i).mpr ⟨live, intact.queue_eq live⟩

/-- Neither the links nor who is live have changed. -/
theorem Intact.congr (intact : k.Intact L) (next : ∀ i, k'.next i = k.next i)
    (heads : k'.ready_queues = k.ready_queues) (live : ∀ i, k'.Live i ↔ k.Live i)
    (priority : ∀ i, k'.priority i = k.priority i) : k'.Intact L where
  leads q := by
    rw [heads]
    exact (intact.leads q).congr fun i _ => next i
  member q i := by rw [intact.member, live, priority]
  priorities i alive := by
    rw [priority]
    exact intact.priorities i ((live i).mp alive)

/-- Blocking a live process or waking a blocked one. -/
theorem live_modify {f : Process → Process} (pid : ∀ e, (f e).pid = e.pid)
    (status : (f (k.process_table i)).status ≠ .terminated) (live : k.Live i) (j : Slot) :
    (k.modify i f).Live j ↔ k.Live j := by
  unfold Live occupied
  rw [modify_field Process.pid pid]
  by_cases here : j = i
  · subst here
    simp [status_modify_self, status, live.2]
  · rw [status_modify_of_ne here]

theorem free_modify {f : Process → Process} (free : ∀ i, k.occupied i = false → k.status i = .terminated)
    (pid : ∀ e, (f e).pid = e.pid) (live : k.Live i) (j : Slot) (unused : (k.modify i f).occupied j = false) :
    (k.modify i f).status j = .terminated := by
  unfold occupied at unused
  rw [modify_field Process.pid pid] at unused
  have other : j ≠ i := by
    rintro rfl
    cases live.1.symm.trans unused
  rw [status_modify_of_ne other]
  exact free j unused

section collect
variable {parent child : Slot} {before : Option Slot}

theorem collect_priority (j : Slot) : (k.collect parent before child).priority j = k.priority j :=
  collect_field Process.priority (fun _ _ => rfl) (fun _ _ => rfl) (fun _ => rfl) j

/-- Only the entry of a terminated process is freed. -/
theorem collect_live (dead : k.status child = .terminated) (j : Slot) :
    (k.collect parent before child).Live j ↔ k.Live j := by
  unfold Live
  rw [collect_status]
  by_cases here : j = child
  · subst here
    simp [dead]
  · rw [collect_occupied_of_ne here]

theorem collect_free (free : ∀ i, k.occupied i = false → k.status i = .terminated)
    (dead : k.status child = .terminated) (j : Slot) (unused : (k.collect parent before child).occupied j = false) :
    (k.collect parent before child).status j = .terminated := by
  rw [collect_status]
  by_cases here : j = child
  · subst here
    exact dead
  · rw [collect_occupied_of_ne here] at unused
    exact free j unused

end collect

/-- Taking `p` out of its queue changes only links of nodes of that queue. -/
theorem remove_leads {l : List Slot} (removed : k.remove_from_ready_queue p = some k')
    (leads : Leads k.next (k.ready_queues (k.queue p)) l none) (member : p ∈ l) :
    ∃ l', Leads k'.next (k'.ready_queues (k.queue p)) l' none ∧ (∀ i, i ∈ l' ↔ i ∈ l ∧ i ≠ p) ∧
      (∀ q, q ≠ k.queue p → k'.ready_queues q = k.ready_queues q) ∧ ∀ i, i ∉ l → k'.next i = k.next i := by
  have distinct := leads.nodup
  have found := seek_leads (fun j => decide (j = p)) none leads
    leads.length_le_fin
  rcases remove_eq_some removed with ⟨absent, _⟩ | ⟨head, rfl⟩ | ⟨before, atP, link, rfl⟩
  · rw [absent] at found
    rcases found with ⟨_, none⟩ | ⟨_, _, _, _, _, _, ⟨⟩⟩
    simpa using none p member
  · cases l with
    | nil => cases member
    | cons j rest =>
      cases leads.1.symm.trans head
      obtain ⟨absent, _⟩ := List.nodup_cons.mp distinct
      refine ⟨rest, ?_, fun i => ?_, fun q other => ?_, fun i out => ?_⟩
      · simp only [setHead, modify_ready_queues, Function.update_self]
        refine leads.unlink_head fun j inRest => next_modify_of_ne ?_
        rintro rfl
        exact absent inRest
      · constructor
        · intro inRest
          refine ⟨List.mem_cons_of_mem _ inRest, ?_⟩
          rintro rfl
          exact absent inRest
        · rintro ⟨inList, other⟩
          exact (List.mem_cons.mp inList).resolve_left other
      · simp only [setHead, modify_ready_queues, Function.update_of_ne other]
      · refine next_modify_of_ne ?_
        rintro rfl
        exact out member
  · rw [atP] at found
    rcases found with ⟨⟨⟩, _⟩ | ⟨first, j, second, rfl, passes, _, same⟩
    simp only [Option.or_none, Found.at.injEq] at same
    obtain ⟨last, rfl⟩ := same
    obtain ⟨start, rfl⟩ := List.getLast?_eq_some_iff.mp last.symm
    rw [List.append_assoc, List.singleton_append] at leads distinct member ⊢
    have apart : before ≠ p := by
      rintro rfl
      simp [List.nodup_append] at distinct
    have same : ∀ j, j ≠ before → j ≠ p → ((k.modify before fun e => { e with next := k.next p }).modify p
        fun e => { e with next := none }).next j = k.next j := by
      intro j notBefore notP
      rw [next_modify_of_ne notP, next_modify_of_ne notBefore]
    have links : ((k.modify before fun e => { e with next := k.next p }).modify p
        fun e => { e with next := none }).next before = k.next p := by
      rw [next_modify_of_ne apart, next_modify_self]
    refine ⟨start ++ before :: second, leads.unlink same links, fun i => ?_, fun q _ => rfl, fun i out => ?_⟩
    · simp only [List.nodup_append, List.nodup_cons, List.mem_cons, not_or] at distinct
      obtain ⟨_, ⟨_, absent, _⟩, others⟩ := distinct
      simp only [List.mem_append, List.mem_cons]
      constructor
      · rintro (inStart | rfl | inSecond)
        · exact ⟨.inl inStart, others i inStart p (.inr (.inl rfl))⟩
        · exact ⟨.inr (.inl rfl), apart⟩
        · refine ⟨.inr (.inr (.inr inSecond)), ?_⟩
          rintro rfl
          exact absent inSecond
      · rintro ⟨inStart | rfl | rfl | inSecond, other⟩
        · exact .inl inStart
        · exact .inr (.inl rfl)
        · exact absurd rfl other
        · exact .inr (.inr inSecond)
    · refine same i ?_ ?_
      · rintro rfl
        exact out (by simp)
      · rintro rfl
        exact out member

/-- Putting an entry that is in no list behind the end of a queue changes only the link of its last node. -/
theorem append_leads {l : List Slot} (appended : k.appendToQueue i = some k')
    (leads : Leads k.next (k.ready_queues (k.queue i)) l none) (absent : i ∉ l) :
    Leads (k'.modify i fun e => { e with next := none }).next (k'.ready_queues (k.queue i)) (l ++ [i]) none ∧
      (∀ q, q ≠ k.queue i → k'.ready_queues q = k.ready_queues q) ∧
      ∀ j, j ∉ l → j ≠ i → (k'.modify i fun e => { e with next := none }).next j = k.next j := by
  rcases appendToQueue_eq_some appended with ⟨empty, rfl⟩ | ⟨before, last, found, rfl⟩
  · rw [empty] at leads
    obtain rfl : l = [] := by
      cases l with
      | nil => rfl
      | cons => cases leads.1
    refine ⟨⟨Function.update_self .., ?_⟩, fun q other => Function.update_of_ne other .., fun j _ other => ?_⟩
    · exact next_modify_self
    · exact next_modify_of_ne other
  · rcases List.eq_nil_or_concat l with rfl | ⟨first, tail, rfl⟩
    · rw [show k.ready_queues (k.queue i) = none from leads] at found
      cases found
    · rw [List.concat_eq_append] at *
      have atLast := seek_last none leads leads.length_le_fin
      cases found.symm.trans atLast
      have apart : last ≠ i := by
        rintro rfl
        exact absent (by simp)
      have same : ∀ j, j ≠ last → j ≠ i → ((k.modify last fun e => { e with next := some i }).modify i
          fun e => { e with next := none }).next j = k.next j := by
        intro j notLast notI
        rw [next_modify_of_ne notI, next_modify_of_ne notLast]
      have distinct := leads.nodup
      simp only [List.nodup_append, List.mem_singleton, List.mem_append, not_or] at distinct absent
      refine ⟨?_, fun q _ => rfl, fun j out other => same j ?_ other⟩
      · rw [List.append_assoc, List.singleton_append]
        refine leads.snoc (fun j inFirst => same j (distinct.2.2 j inFirst last rfl) ?_) ?_ next_modify_self
        · rintro rfl
          exact absent.1 inFirst
        · rw [next_modify_of_ne apart, next_modify_self]
      · rintro rfl
        exact out (by simp)

theorem append_ends {l : List Slot} (leads : Leads k.next (k.ready_queues (k.queue i)) l none) :
    k.appendToQueue i ≠ none := by
  intro endless
  unfold appendToQueue at endless
  split at endless
  · rename_i found
    have enough := leads.length_le_fin
    rcases seek_leads (fun j => (k.next j).isNone) none leads enough with
      ⟨absent, _⟩ | ⟨_, _, _, _, _, _, atLast⟩
    · cases found.symm.trans absent
    · cases found.symm.trans atLast
  · cases endless
  · cases endless

theorem remove_ends {l : List Slot} (leads : Leads k.next (k.ready_queues (k.queue p)) l none) :
    k.remove_from_ready_queue p ≠ none := by
  intro endless
  unfold remove_from_ready_queue at endless
  split at endless
  · rename_i found
    have enough := leads.length_le_fin
    rcases seek_leads (fun j => decide (j = p)) none leads enough with
      ⟨absent, _⟩ | ⟨_, _, _, _, _, _, atP⟩
    · cases found.symm.trans absent
    · cases found.symm.trans atP
  all_goals cases endless

theorem wakeZappers_asleep (asleep : ∀ i, ¬ (k.status i = .blocked ∧ (k.process_table i).zap_target = some p)) :
    k.wakeZappers p = k := by
  refine wakeZappers_keeps (P := fun k' => k' = k) rfl fun k' i same => ?_
  subst same
  unfold wakeZapper
  rw [if_neg (asleep i)]

/-- No process waits in `zap` for the one that quits, its parent apart. -/
def Unzapped (k : Kernel) (p : Slot) : Prop :=
  ∀ i, k.status i = .blocked → (k.process_table i).zap_target = some p → (k.process_table p).parent = some i

instance : Decidable (k.Unzapped p) :=
  inferInstanceAs (Decidable (∀ i, k.status i = .blocked → (k.process_table i).zap_target = some p →
    (k.process_table p).parent = some i))

theorem Unzapped.terminate (quiet : k.Unzapped p) (status : Int) : k.terminate p status =
    (k.modify p fun e => { e with status := .terminated, exit_status := status }).wakeParent p := by
  unfold Kernel.terminate
  generalize dead : (k.modify p fun e => { e with status := .terminated, exit_status := status }) = k'
  have kept : (k'.process_table p).parent = (k.process_table p).parent := by
    subst dead
    rw [modify_self]
  have parent : ∀ i, k'.status i = .blocked → (k'.process_table i).zap_target = some p →
      (k'.process_table p).parent = some i := by
    intro i blocked target
    have other : i ≠ p := by
      rintro rfl
      subst dead
      rw [status_modify_self] at blocked
      cases blocked
    subst dead
    rw [status_modify_of_ne other] at blocked
    rw [modify_of_ne other] at target
    exact kept.trans (quiet i blocked target)
  refine wakeZappers_asleep ?_
  rintro i ⟨blocked, target⟩
  unfold wakeParent at blocked target
  split at blocked
  · rename_i orphan
    simp only [orphan] at target
    cases orphan.symm.trans (parent i blocked target)
  · rename_i q isParent
    simp only [isParent] at target
    split at blocked
    · rename_i waits
      rw [if_pos waits] at target
      by_cases here : i = q
      · subst here
        rw [status_modify_self] at blocked
        cases blocked
      · rw [status_modify_of_ne here] at blocked
        rw [modify_of_ne here] at target
        cases isParent.symm.trans (parent i blocked target)
        exact here rfl
    · rename_i awake
      rw [if_neg awake] at target
      cases isParent.symm.trans (parent i blocked target)
      exact awake blocked

theorem live_congr (same : k'.unlinked i = k.unlinked i) : k'.Live i ↔ k.Live i := by
  unfold Live
  rw [occupied_congr same, status_congr same]

theorem free_congr (free : ∀ i, k.occupied i = false → k.status i = .terminated)
    (same : k'.unlinked i = k.unlinked i) (unused : k'.occupied i = false) : k'.status i = .terminated := by
  rw [occupied_congr same] at unused
  rw [status_congr same]
  exact free i unused

theorem priority_congr (same : k'.unlinked i = k.unlinked i) : k'.priority i = k.priority i :=
  unlinked_field Process.priority (fun _ => rfl) same

/-- One queue has changed, and only in its own links. -/
theorem Intact.update (intact : k.Intact L) {q₀ : Nat} {l : List Slot}
    (leads : Leads k'.next (k'.ready_queues q₀) l none) (member : ∀ i, i ∈ l ↔ k'.Live i ∧ k'.priority i = q₀ + 1)
    (heads : ∀ q, q ≠ q₀ → k'.ready_queues q = k.ready_queues q)
    (links : ∀ i, k.Live i → i ∉ L q₀ → k'.next i = k.next i)
    (others : ∀ q, q ≠ q₀ → ∀ i, k.Live i ∧ k.priority i = q + 1 ↔ k'.Live i ∧ k'.priority i = q + 1)
    (priorities : ∀ i, k'.Live i → 1 ≤ k'.priority i ∧ k'.priority i ≤ 6) :
    k'.Intact (Function.update L q₀ l) where
  priorities := priorities
  member q i := by
    by_cases here : q = q₀
    · subst here
      rw [Function.update_self, member]
    · rw [Function.update_of_ne here, intact.member, others q here]
  leads q := by
    by_cases here : q = q₀
    · subst here
      rw [Function.update_self]
      exact leads
    · rw [Function.update_of_ne here, heads q here]
      refine (intact.leads q).congr fun i inQueue => links i ((intact.member q i).mp inQueue).1 fun inOther => here ?_
      have atQ := ((intact.member q i).mp inQueue).2
      have atOther := ((intact.member q₀ i).mp inOther).2
      omega

/-- The ready queues are intact, and a free entry counts as terminated. -/
structure Sound (k : Kernel) (L : Nat → List Slot) : Prop extends k.Intact L where
  free : ∀ i, k.occupied i = false → k.status i = .terminated

/-- How `spork` puts the new process into its queue. -/
theorem Sporked.appended {slot : Slot} (sporked : Sporked k slot k') : ∃ linked queued : Kernel,
    (∀ j, linked.next j = k.next j) ∧ linked.ready_queues = k.ready_queues ∧
      linked.appendToQueue slot = some queued ∧ k' = queued.modify slot (fun p => { p with next := none }) ∧
      k'.queue slot = linked.queue slot := by
  obtain @⟨startFunc, priority, linked, queued, _, _, _, atLinked, atQueued⟩ := sporked
  refine ⟨linked, queued, fun j => ?_, ?_, atQueued, rfl, ?_⟩
  · have same := linkChild_field atLinked Process.next (fun _ _ => rfl) (fun _ _ => rfl) (fun _ _ => rfl) j
    exact same.trans newProcess_next
  · rw [linkChild_heads atLinked]
    rfl
  · have same := unlinked_field Process.priority (fun _ => rfl) (appendToQueue_unlinked atQueued slot)
    unfold queue
    rw [modify_self, same]

/-- Linking the new process to its parent leaves the ready queues alone. -/
theorem linked_leads {slot : Slot} {startFunc : Bool} {priority q : Nat} {l : List Slot} {linked : Kernel}
    (atLinked : (k.newProcess slot startFunc priority).linkChild slot = some linked)
    (leads : Leads k.next (k.ready_queues q) l none) : Leads linked.next (linked.ready_queues q) l none := by
  rw [linkChild_heads atLinked]
  refine leads.congr fun j _ => ?_
  have same := linkChild_field atLinked Process.next (fun _ _ => rfl) (fun _ _ => rfl) (fun _ _ => rfl) j
  exact same.trans newProcess_next

/-- The new process is put behind the end of the queue of its priority. -/
theorem Sporked.leads {slot : Slot} {l : List Slot} (sporked : Sporked k slot k')
    (leads : Leads k.next (k.ready_queues (k'.queue slot)) l none) (absent : slot ∉ l) :
    Leads k'.next (k'.ready_queues (k'.queue slot)) (l ++ [slot]) none ∧
      (∀ q, q ≠ k'.queue slot → k'.ready_queues q = k.ready_queues q) ∧
      ∀ j, j ∉ l → j ≠ slot → k'.next j = k.next j := by
  obtain ⟨linked, queued, next, heads, atQueued, rfl, queue⟩ := Sporked.appended sporked
  rw [queue, ← heads] at leads
  rw [queue]
  obtain ⟨longer, others, links⟩ := append_leads atQueued (leads.congr fun j _ => next j) absent
  rw [heads] at others
  exact ⟨longer, others, fun j out apart => (links j out apart).trans (next j)⟩

theorem Sporked.live {slot : Slot} (sporked : Sporked k slot k') : k'.Live slot := by
  obtain ⟨pid, status, _⟩ := sporked.created
  unfold Live occupied Kernel.status
  rw [pid, status]
  simp

theorem Sporked.queue_eq {slot : Slot} (sporked : Sporked k slot k') : k'.priority slot = k'.queue slot + 1 := by
  obtain ⟨_, _, least, _⟩ := sporked.created
  exact queue_add_one least

theorem Sound.sporks {slot : Slot} (sound : k.Sound L) (sporked : Sporked k slot k') : ∃ L', k'.Sound L' := by
  have absent : ∀ q, slot ∉ L q := by
    intro q member
    exact sporked.apart ((sound.member q slot).mp member).1.1 rfl
  have live := Sporked.live sporked
  have prio := Sporked.queue_eq sporked
  obtain ⟨longer, heads, links⟩ := Sporked.leads sporked (sound.leads _) (absent _)
  have others : ∀ i, i ≠ slot → (k'.Live i ↔ k.Live i) ∧ k'.priority i = k.priority i :=
    fun i apart => ⟨live_congr (sporked.other apart), priority_congr (sporked.other apart)⟩
  refine ⟨_, sound.update longer ?_ heads ?_ ?_ ?_, fun i free => ?_⟩
  · intro i
    rw [List.mem_append, List.mem_singleton, sound.member]
    by_cases here : i = slot
    · subst here
      simp [live, prio]
    · rw [(others i here).1, (others i here).2]
      simp [here]
  · intro i alive out
    exact links i out (sporked.apart alive.1)
  · intro q apart i
    by_cases here : i = slot
    · subst here
      constructor
      · rintro ⟨alive, _⟩
        exact absurd rfl (sporked.apart alive.1)
      · rintro ⟨_, atQ⟩
        omega
    · rw [(others i here).1, (others i here).2]
  · intro i alive
    by_cases here : i = slot
    · subst here
      obtain ⟨_, _, least, most, _⟩ := sporked.created
      exact ⟨least, most.trans (by omega)⟩
    · rw [(others i here).2]
      exact sound.priorities i ((others i here).1.mp alive)
  · have here : i ≠ slot := by
      rintro rfl
      cases free.symm.trans live.1
    exact free_congr sound.free (sporked.other here) free

theorem wakeParent_terminated (j : Slot) : (k.wakeParent p).status j = .terminated ↔ k.status j = .terminated := by
  unfold wakeParent
  split
  · rfl
  · rename_i q _
    split
    · rename_i waits
      by_cases here : j = q
      · subst here
        rw [status_modify_self, waits]
        simp
      · rw [status_modify_of_ne here]
    · rfl

/-- Who terminates is no longer live, and no queue has changed. -/
structure Ended (k : Kernel) (p : Slot) (k' : Kernel) : Prop where
  next : ∀ i, k'.next i = k.next i
  heads : k'.ready_queues = k.ready_queues
  occupied : ∀ i, k'.occupied i = k.occupied i
  priority : ∀ i, k'.priority i = k.priority i
  terminated : ∀ i, k'.status i = .terminated ↔ i = p ∨ k.status i = .terminated

theorem wakeParent_ended (status : Int) :
    k.Ended p ((k.modify p fun e => { e with status := .terminated, exit_status := status }).wakeParent p) := by
  have kept : ∀ {α : Type} (field : Process → α), (∀ e v w, field { e with status := v, exit_status := w } = field e) →
      ∀ i, field (((k.modify p fun e => { e with status := .terminated, exit_status := status }).wakeParent
        p).process_table i) = field (k.process_table i) := by
    intro α field blind i
    rw [wakeParent_field field fun e v => blind e v e.exit_status]
    exact modify_field field (fun e => blind e _ _) i
  refine ⟨kept Process.next fun _ _ _ => rfl, wakeParent_heads, fun i => ?_, kept Process.priority fun _ _ _ => rfl,
    fun i => ?_⟩
  · unfold Kernel.occupied
    rw [kept Process.pid fun _ _ _ => rfl]
  · rw [wakeParent_terminated]
    by_cases here : i = p
    · subst here
      simp [status_modify_self]
    · simp [status_modify_of_ne here, here]

theorem Unzapped.ended (quiet : k.Unzapped p) (status : Int) : k.Ended p (k.terminate p status) := by
  rw [quiet.terminate]
  exact wakeParent_ended status

theorem Ended.queue (ended : k.Ended p k') : k'.queue i = k.queue i :=
  congrArg (· - 1) (ended.priority i)

theorem Ended.live (ended : k.Ended p k') : k'.Live i ↔ k.Live i ∧ i ≠ p := by
  unfold Live
  rw [ended.occupied, Ne, ended.terminated, not_or]
  tauto

theorem Ended.leads (ended : k.Ended p k') (intact : k.Intact L) (q : Nat) :
    Leads k'.next (k'.ready_queues q) (L q) none := by
  rw [ended.heads]
  exact (intact.leads q).congr fun i _ => ended.next i

/-- The end of `quit`: `p` has gone from its queue. -/
theorem Sound.quits {t : Kernel} (sound : k.Sound L) (ended : k.Ended p t) (live : k.Live p)
    (removed : t.remove_from_ready_queue p = some k') : ∃ L', k'.Sound L' := by
  have same := fun i => remove_unlinked removed i
  obtain ⟨l, shorter, member, heads, links⟩ := remove_leads removed (ended.leads sound.toIntact _)
    (by rw [ended.queue]; exact sound.mem_queue live)
  have others : ∀ i, (k'.Live i ↔ k.Live i ∧ i ≠ p) ∧ k'.priority i = k.priority i :=
    fun i => ⟨(live_congr (same i)).trans ended.live, (priority_congr (same i)).trans (ended.priority i)⟩
  rw [ended.queue] at shorter member heads links
  refine ⟨_, sound.update shorter ?_ ?_ ?_ ?_ ?_, fun i free => ?_⟩
  · intro i
    rw [member, sound.member, (others i).1, (others i).2]
    tauto
  · intro q apart
    rw [heads q apart, ended.heads]
  · intro i _ out
    rw [links i out, ended.next]
  · intro q apart i
    rw [(others i).1, (others i).2]
    have atP := sound.queue_eq live
    constructor
    · rintro ⟨alive, atQ⟩
      refine ⟨⟨alive, ?_⟩, atQ⟩
      rintro rfl
      omega
    · rintro ⟨⟨alive, _⟩, atQ⟩
      exact ⟨alive, atQ⟩
  · intro i alive
    rw [(others i).2]
    exact sound.priorities i ((others i).1.mp alive).1
  · rw [occupied_congr (same i), ended.occupied] at free
    rw [status_congr (same i), ended.terminated]
    exact .inr (sound.free i free)

theorem Sound.collects {child : Slot} (sound : k.Sound L) (parent : Slot) (before : Option Slot)
    (dead : k.status child = .terminated) : (k.collect parent before child).Sound L :=
  ⟨sound.congr collect_next collect_heads (collect_live dead) collect_priority, collect_free sound.free dead⟩

theorem Sound.set_status (sound : k.Sound L) {f : Process → Process} (next : ∀ e, (f e).next = e.next)
    (pid : ∀ e, (f e).pid = e.pid) (priority : ∀ e, (f e).priority = e.priority)
    (status : (f (k.process_table i)).status ≠ .terminated) (live : k.Live i) : (k.modify i f).Sound L :=
  ⟨sound.congr (next_modify next) rfl (live_modify pid status live) (modify_field Process.priority priority),
    free_modify sound.free pid live⟩

end Kernel

open Kernel

variable {k : Kernel} {L : Nat → List Slot} {p : Slot} {pt : Point} {seg : Segment}

/-- A stretch of code that puts nobody into a queue again keeps the queues
intact, and every walk through them ends. -/
theorem Path.sound (path : Path k p pt seg) (sound : k.Sound L) (live : k.Live p) (awake : k.status p = .runnable)
    (wakes : ∀ pid, pt = .call (.unblockProc pid) → ∀ i, (k.process_table i).pid = pid → k.status i ≠ .blocked)
    (quiet : ∀ status, pt.quits status = true → k.Unzapped p) :
    (∃ L', seg.1.Sound L') ∧ seg.2 ≠ .hangs .queue ∧
      ((∃ value status, seg.2 = .returns value status) → seg.1.Live p ∧ seg.1.status p = .runnable) := by
  have blocks : ∀ target : Process → Option Slot,
      (k.modify p fun e => { e with status := .blocked, zap_target := target e }).Sound L :=
    fun target => sound.set_status (fun _ => rfl) (fun _ => rfl) (fun _ => rfl) (by simp) live
  cases path with
  | halts | linkHangs | joinHangs => exact ⟨⟨L, sound⟩, by simp, by simp⟩
  | sporkHangs _ _ _ _ linked endless => exact absurd endless (append_ends (linked_leads linked (sound.leads _)))
  | @quitHangs _ status quits _ endless =>
    have ended := (quiet status quits).ended status
    exact absurd endless (remove_ends (ended.leads sound.toIntact _))
  | unblockHangs named blocked => exact absurd blocked (wakes _ rfl _ named)
  | unblocks named blocked => exact absurd blocked (wakes _ rfl _ named)
  | stays | zapsDead | yields => exact ⟨⟨L, sound⟩, by simp, fun _ => ⟨live, awake⟩⟩
  | @sporks _ slot _ _ _ sporked ends =>
    have other := sporked.apart live.1
    have same := sporked.other other
    refine ⟨sound.sporks sporked, ?_, fun _ => ⟨(live_congr same).mpr live, (status_congr same).trans awake⟩⟩
    rcases ends with rfl | rfl <;> simp
  | waits => exact ⟨⟨L, blocks Process.zap_target⟩, by simp, by simp⟩
  | blocks => exact ⟨⟨L, blocks Process.zap_target⟩, by simp, by simp⟩
  | @zaps _ target => exact ⟨⟨L, blocks fun _ => some target⟩, by simp, by simp⟩
  | @collects _ before child _ found =>
    have dead := of_decide_eq_true (seek_found found).1
    have status : (k.collect p before child).status p = .runnable :=
      (collect_status p).trans awake
    have sound := sound.collects p before dead
    exact ⟨⟨L, sound⟩, by simp, fun _ => ⟨(live_iff_of_free sound.free).mpr (by simp [status]), status⟩⟩
  | @quits _ status _ quits _ removed =>
    have ended := (quiet status quits).ended status
    exact ⟨sound.quits ended live removed, by simp, by simp⟩

theorem Kernel.Sound.selected {next : Slot} (sound : k.Sound L) (selected : k.selected = some next) :
    k.Live next ∧ k.status next = .runnable := by
  obtain ⟨q, _, head, awake, _⟩ := selected_eq_some.mp selected
  have leads := sound.leads q
  rw [head] at leads
  have member : next ∈ L q := leads.head_mem
  have live := ((sound.member q next).mp member).1
  refine ⟨live, ?_⟩
  cases status : k.status next with
  | runnable => rfl
  | blocked => exact absurd status awake
  | terminated => exact absurd status live.2

/-- Which process runs makes no difference to the queues. -/
theorem Kernel.Sound.running (sound : k.Sound L) (running : Option Slot) :
    ({ k with running_process := running } : Kernel).Sound L :=
  ⟨⟨sound.leads, sound.member, sound.priorities⟩, sound.free⟩

namespace Machine

/-- No process is put back into its queue: none that `unblockProc` finds, and
none that has zapped the one that quits. -/
def KeepsQueues (m : Machine) (a : Act) : Prop :=
  m.AtUnblock (fun _ _ => False) a ∧ m.AtQuit (fun m p => m.kernel.Unzapped p) a

instance (m : Machine) (a : Act) : Decidable (m.KeepsQueues a) :=
  inferInstanceAs (Decidable (m.AtUnblock (fun _ _ => False) a ∧ m.AtQuit (fun m p => m.kernel.Unzapped p) a))

/-- The queues are sound, the running process is in one of them, and no walk through them has hung. -/
structure Orderly (m : Machine) : Prop where
  queues : ∃ L, m.kernel.Sound L
  running : ∀ p, m.kernel.running_process = some p → m.kernel.Live p ∧ m.kernel.status p = .runnable
  walks : m.stopped ≠ some (.hung .queue)

theorem phase1_init_live {i : Slot} : phase1_init.Live i ↔ i = initSlot := by
  unfold Live occupied Kernel.status
  by_cases here : i = initSlot
  · subst here
    rw [phase1_init_initSlot]
    simp
  · rw [phase1_init_of_ne here]
    simp [emptyProcess, here]

theorem phase1_init_sound : phase1_init.Sound (Function.update (fun _ => []) 5 [initSlot]) where
  leads q := by
    by_cases last : q = 5
    · subst last
      have ends : phase1_init.next initSlot = none := by
        unfold next
        rw [phase1_init_initSlot]
        rfl
      rw [Function.update_self]
      exact ⟨by simp [phase1_init], ends⟩
    · rw [Function.update_of_ne last]
      simp [phase1_init, Leads, last]
  member q i := by
    rw [phase1_init_live]
    by_cases last : q = 5
    · subst last
      rw [Function.update_self, List.mem_singleton]
      constructor
      · rintro rfl
        exact ⟨rfl, by unfold Kernel.priority; rw [phase1_init_initSlot]⟩
      · exact fun both => both.1
    · rw [Function.update_of_ne last]
      constructor
      · rintro ⟨⟩
      · rintro ⟨rfl, atQ⟩
        unfold Kernel.priority at atQ
        rw [phase1_init_initSlot] at atQ
        simp only at atQ
        omega
  priorities i live := by
    obtain rfl := phase1_init_live.mp live
    unfold Kernel.priority
    rw [phase1_init_initSlot]
    simp
  free i free := by
    have other : i ≠ initSlot := by
      rintro rfl
      cases free.symm.trans (phase1_init_live.mpr rfl).1
    unfold Kernel.status
    rw [phase1_init_of_ne other]
    rfl

theorem orderly_boot : boot.Orderly where
  queues := ⟨_, phase1_init_sound⟩
  running p running := by cases running
  walks := by simp [boot]

/-- What a stretch of code of the running process leaves behind. -/
theorem Orderly.stretch {m : Machine} (orderly : m.Orderly) (keeps : m.KeepsQueues pt.act) (here : m.At p pt) :
    (∃ L, (pt.exec m.kernel p).1.Sound L) ∧ (pt.exec m.kernel p).2 ≠ .hangs .queue ∧
      ((∃ value status, (pt.exec m.kernel p).2 = .returns value status) →
        (pt.exec m.kernel p).1.Live p ∧ (pt.exec m.kernel p).1.status p = .runnable) := by
  obtain ⟨L, sound⟩ := orderly.queues
  obtain ⟨live, awake⟩ := orderly.running p here.running
  refine here.path.sound sound live awake ?_ fun status quits => keeps.2.holds here quits
  rintro pid rfl
  exact keeps.1

theorem Orderly.step {m m' : Machine} {a : Act} (orderly : m.Orderly) (keeps : m.KeepsQueues a)
    (moves : m.step a = some m') : m'.Orderly := by
  cases step_move moves with
  | starts _ selected =>
    obtain ⟨L, sound⟩ := orderly.queues
    refine ⟨⟨L, sound.running _⟩, ?_, orderly.walks⟩
    rintro p ⟨⟩
    exact sound.selected selected
  | begins => exact ⟨orderly.queues, orderly.running, orderly.walks⟩
  | halts other => exact ⟨orderly.queues, orderly.running, by simpa [stop] using other .queue⟩
  | returns here ends =>
    obtain ⟨⟨L, sound⟩, _, back⟩ := orderly.stretch keeps here
    have path := here.path
    rw [ends] at sound back path
    refine ⟨⟨L, sound⟩, fun q runs => ?_, by simpa [Machine.back] using orderly.walks⟩
    cases here.running.symm.trans (path.running.symm.trans runs)
    exact back ⟨_, _, rfl⟩
  | switches here ends selected =>
    obtain ⟨⟨L, sound⟩, _, _⟩ := orderly.stretch keeps here
    rw [ends] at sound
    refine ⟨⟨L, sound.running _⟩, ?_, by simpa [Machine.switch] using orderly.walks⟩
    rintro q ⟨⟩
    exact sound.selected selected
  | stops here hangs =>
    obtain ⟨_, walks, _⟩ := orderly.stretch keeps here
    refine ⟨?_, ?_, fun hung => walks (hangs _ (Option.some.inj hung))⟩
    · simpa [stop] using orderly.queues
    · simpa [stop] using orderly.running

/-- In a run that puts no process back into its queue, every ready queue is a
list without repetitions of the live processes of its priority, which has each
runnable one once, and every walk through a queue ends. -/
theorem queues_intact {m : Machine} (run : Transition.Run Machine.step KeepsQueues boot m) :
    (∀ q < 6, ∃ l, Leads m.kernel.next (m.kernel.ready_queues q) l none ∧ l.Nodup ∧
      (∀ i ∈ l, m.kernel.occupied i = true ∧ m.kernel.status i ≠ .terminated ∧ m.kernel.priority i = q + 1) ∧
      ∀ i, m.kernel.occupied i = true → m.kernel.status i = .runnable → m.kernel.priority i = q + 1 → l.count i = 1) ∧
    (∀ i, m.kernel.occupied i = true → m.kernel.status i = .runnable →
      1 ≤ m.kernel.priority i ∧ m.kernel.priority i ≤ 6) ∧ m.stopped ≠ some (.hung .queue) := by
  have orderly := run.invariant Orderly orderly_boot fun _ _ _ orderly keeps moves => orderly.step keeps moves
  obtain ⟨L, sound⟩ := orderly.queues
  have live : ∀ i, m.kernel.occupied i = true → m.kernel.status i = .runnable → m.kernel.Live i :=
    fun i occupied awake => ⟨occupied, by simp [awake]⟩
  refine ⟨fun q _ => ⟨L q, sound.leads q, (sound.leads q).nodup, ?_, ?_⟩, ?_, orderly.walks⟩
  · intro i member
    obtain ⟨⟨occupied, alive⟩, atQ⟩ := (sound.member q i).mp member
    exact ⟨occupied, alive, atQ⟩
  · intro i occupied awake atQ
    exact List.count_eq_one_of_mem (sound.leads q).nodup ((sound.member q i).mpr ⟨live i occupied awake, atQ⟩)
  · exact fun i occupied awake => sound.priorities i (live i occupied awake)

/-- A process of priority 2 takes over from `testcase_main`, which joins it when it has quit. -/
def oneChild : List Act :=
  testcaseRuns ++ [.call (sporks 2), .resume, .call (.quit true 5), .resume, .call (.join true)]

theorem queues_intact_run : ∃ m : Machine, m.log.head? = some (.returned 2 .join 3 (some 5)) ∧
    ∃ l, Leads m.kernel.next (m.kernel.ready_queues 2) l none ∧ l.count testcaseSlot = 1 := by
  obtain ⟨m, run, holds⟩ := Transition.exists_run step boot oneChild (fun m a => decide (m.KeepsQueues a))
    (fun _ _ => of_decide_eq_true)
    (fun m => m.log.head? = some (.returned 2 .join 3 (some 5)) && m.kernel.occupied testcaseSlot &&
      m.kernel.status testcaseSlot = .runnable && m.kernel.priority testcaseSlot = 3) (by decide +kernel)
  simp only [Bool.and_eq_true, decide_eq_true_eq] at holds
  obtain ⟨⟨⟨joined, occupied⟩, awake⟩, prio⟩ := holds
  obtain ⟨l, leads, _, _, counts⟩ := (queues_intact run).1 2 (by decide)
  exact ⟨m, joined, l, leads, counts testcaseSlot occupied awake prio⟩

/-- A process of priority 2 blocks, and `testcase_main` wakes it. -/
def wokenInQueue : List Act :=
  testcaseRuns ++ [.call (sporks 2), .resume, .call .blockMe, .resume, .call (.unblockProc 3)]

/-- It has been put behind itself: its queue has no end, and the next `spork`
of its priority walks on for ever. -/
theorem queue_endless : (∃ m, Reaches wokenInQueue m ∧ ¬ ∃ l, Leads m.kernel.next (m.kernel.ready_queues 1) l none) ∧
    ∃ m, Reaches (wokenInQueue ++ [.resume, .call (sporks 2)]) m ∧ m.stopped = some (.hung .queue) := by
  constructor
  · obtain ⟨m, reaches, holds⟩ := exists_reaches wokenInQueue
      (fun m => m.kernel.ready_queues 1 = some childSlot && m.kernel.next childSlot = some childSlot)
      (by decide +kernel)
    simp only [Bool.and_eq_true, decide_eq_true_eq] at holds
    obtain ⟨head, link⟩ := holds
    refine ⟨m, reaches, ?_⟩
    rw [head]
    rintro ⟨l, leads⟩
    exact leads.no_loop leads.head_mem link
  · obtain ⟨m, reaches, hung⟩ := exists_reaches (wokenInQueue ++ [.resume, .call (sporks 2)])
      (fun m => m.stopped = some (.hung .queue)) (by decide +kernel)
    exact ⟨m, reaches, of_decide_eq_true hung⟩

end Machine

end UslossKernel.Phase1b
