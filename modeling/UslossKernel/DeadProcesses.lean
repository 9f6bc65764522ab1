import UslossKernel.ReadyQueues

namespace UslossKernel.Phase1b

open LinkedList

namespace Kernel

/-- The heads of the ready queues, and the links of the live processes, lead to
live processes of the right priority, or to `x`. -/
structure LeadsTo (k : Kernel) (x : Option Slot) : Prop where
  heads : ∀ q i, k.ready_queues q = some i → (k.Live i ∨ some i = x) ∧ k.priority i = q + 1
  links : ∀ i j, k.Live i ∨ some i = x → k.next i = some j → (k.Live j ∨ some j = x) ∧ k.priority j = k.priority i
  priorities : ∀ i, k.Live i → 1 ≤ k.priority i ∧ k.priority i ≤ 6
  free : ∀ i, k.occupied i = false → k.status i = .terminated

/-- They lead to live processes only. -/
abbrev Linked (k : Kernel) : Prop := k.LeadsTo none

variable {k k' : Kernel} {i j p : Slot} {x : Option Slot}

theorem Linked.head (linked : k.Linked) {q : Nat} (head : k.ready_queues q = some i) :
    k.Live i ∧ k.priority i = q + 1 :=
  ⟨(linked.heads q i head).1.resolve_right (by rintro ⟨⟩), (linked.heads q i head).2⟩

theorem Linked.link (linked : k.Linked) (live : k.Live i) (link : k.next i = some j) :
    k.Live j ∧ k.priority j = k.priority i :=
  ⟨(linked.links i j (.inl live) link).1.resolve_right (by rintro ⟨⟩), (linked.links i j (.inl live) link).2⟩

theorem LeadsTo.queue_eq (linked : k.LeadsTo x) (live : k.Live i) : k.priority i = k.queue i + 1 :=
  queue_add_one (linked.priorities i live).1

/-- What is led to is live unless it is `p`. -/
theorem live_of_ne {prio : Prop} (reached : (k.Live i ∨ some i = some p) ∧ prio) (other : i ≠ p) : k.Live i ∧ prio :=
  ⟨reached.1.resolve_right fun same => other (Option.some.inj same), reached.2⟩

theorem LeadsTo.congr (linked : k.LeadsTo x) (next : ∀ i, k'.next i = k.next i)
    (heads : k'.ready_queues = k.ready_queues) (live : ∀ i, k'.Live i ↔ k.Live i)
    (priority : ∀ i, k'.priority i = k.priority i)
    (free : ∀ i, k'.occupied i = false → k'.status i = .terminated) : k'.LeadsTo x where
  heads q i := by
    rw [heads, live, priority]
    exact linked.heads q i
  links i j := by
    rw [next, live, live, priority, priority]
    exact linked.links i j
  priorities i := by
    rw [live, priority]
    exact linked.priorities i
  free := free

/-- The entry has whatever the head of the queue has and the links hand on. -/
def Reached (k : Kernel) (q : Nat) (i : Slot) : Prop :=
  ∀ P : Slot → Prop, (∀ j, k.ready_queues q = some j → P j) → (∀ j l, P j → k.next j = some l → P l) → P i

theorem Linked.reached (linked : k.Linked) {q : Nat} (reached : k.Reached q i) :
    k.Live i ∧ k.priority i = q + 1 := by
  refine reached _ (fun j head => linked.head head) fun j l at_ link => ?_
  obtain ⟨live, prio⟩ := linked.link at_.1 link
  exact ⟨live, prio.trans at_.2⟩

/-- The entry that is appended gets behind the last one of its queue. -/
theorem append_effect (appended : k.appendToQueue i = some k') :
    (k.ready_queues (k.queue i) = none ∧ k' = k.setHead (k.queue i) (some i)) ∨
      ∃ last, k' = k.modify last (fun e => { e with next := some i }) ∧ k.Reached (k.queue i) last := by
  rcases appendToQueue_eq_some appended with empty | ⟨before, last, found, rfl⟩
  · exact .inl empty
  · exact .inr ⟨last, rfl, fun P first link => (seek_closed first link found).1⟩

/-- Putting a live process behind the last one of its queue. -/
theorem Linked.append (linked : k.Linked) (live : k.Live i) (appended : k.appendToQueue i = some k') : k'.Linked := by
  have same := fun j => appendToQueue_unlinked appended j
  have alive := fun j => live_congr (same j)
  have priority := fun j => priority_congr (same j)
  refine ⟨fun q j => ?_, fun a b => ?_, fun j => ?_, fun j free => ?_⟩
  · rw [alive, priority]
    rcases append_effect appended with ⟨_, rfl⟩ | ⟨last, rfl, _⟩
    · intro head
      by_cases here : q = k.queue i
      · subst here
        rw [setHead_self] at head
        cases head
        exact ⟨.inl live, linked.queue_eq live⟩
      · rw [setHead_of_ne here] at head
        exact linked.heads q j head
    · exact linked.heads q j
  · rw [alive, alive, priority, priority]
    rcases append_effect appended with ⟨_, rfl⟩ | ⟨last, rfl, reached⟩
    · exact linked.links a b
    · intro from_ link
      by_cases here : a = last
      · subst here
        rw [next_modify_self] at link
        obtain rfl := Option.some.inj link
        exact ⟨.inl live, (linked.queue_eq live).trans (linked.reached reached).2.symm⟩
      · rw [next_modify_of_ne here] at link
        exact linked.links a b from_ link
  · rw [alive, priority]
    exact linked.priorities j
  · exact free_congr linked.free (same j) free

/-- The new process is last in its queue, behind the one that was. -/
theorem Sporked.effect {slot : Slot} (sporked : Sporked k slot k') : k'.next slot = none ∧ (
    (k.ready_queues (k'.queue slot) = none ∧ (∀ q, k'.ready_queues q =
        if q = k'.queue slot then some slot else k.ready_queues q) ∧ ∀ j, j ≠ slot → k'.next j = k.next j) ∨
      ∃ last, k'.ready_queues = k.ready_queues ∧
        (∀ j, j ≠ slot → k'.next j = if j = last then some slot else k.next j) ∧
        k.Reached (k'.queue slot) last) := by
  obtain ⟨linked, queued, next, heads, atQueued, rfl, queue⟩ := Sporked.appended sporked
  unfold Reached
  rw [queue, ← heads]
  refine ⟨next_modify_self, ?_⟩
  rcases append_effect atQueued with ⟨empty, rfl⟩ | ⟨last, rfl, reached⟩
  · refine .inl ⟨empty, fun q => ?_, fun j other => ?_⟩
    · split
      · rename_i here
        subst here
        exact setHead_self
      · rename_i here
        exact setHead_of_ne here
    · rw [next_modify_of_ne other]
      exact next j
  · refine .inr ⟨last, rfl, fun j other => ?_, fun P first link => reached P first fun j l at_ link' => ?_⟩
    · rw [next_modify_of_ne other]
      split
      · rename_i here
        subst here
        exact next_modify_self
      · rename_i here
        rw [next_modify_of_ne here]
        exact next j
    · exact link j l at_ ((next j).symm.trans link')

theorem Linked.sporks {slot : Slot} (linked : k.Linked) (sporked : Sporked k slot k') : k'.Linked := by
  have dead : ¬ k.Live slot := fun live => sporked.apart live.1 rfl
  have live := Sporked.live sporked
  have prio := Sporked.queue_eq sporked
  -- who was live is another entry, and still as it was
  have kept : ∀ {i n}, k.Live i ∧ k.priority i = n → k'.Live i ∧ k'.priority i = n := by
    rintro i n ⟨alive, atN⟩
    have other : i ≠ slot := by
      rintro rfl
      exact dead alive
    exact ⟨(live_congr (sporked.other other)).mpr alive, (priority_congr (sporked.other other)).trans atN⟩
  obtain ⟨ends, effect⟩ := Sporked.effect sporked
  refine ⟨fun q i head => ?_, fun i j from_ link => ?_, fun i alive => ?_, fun i free => ?_⟩
  · have reached : k'.Live i ∧ k'.priority i = q + 1 := by
      rcases effect with ⟨_, heads, _⟩ | ⟨_, heads, _⟩
      · rw [heads] at head
        split at head
        · rename_i here
          subst here
          cases head
          exact ⟨live, prio⟩
        · exact kept (linked.head head)
      · rw [heads] at head
        exact kept (linked.head head)
    exact ⟨.inl reached.1, reached.2⟩
  · have alive := from_.resolve_right (by rintro ⟨⟩)
    have other : i ≠ slot := by
      rintro rfl
      cases ends.symm.trans link
    have before : k.Live i := (live_congr (sporked.other other)).mp alive
    have reached : k'.Live j ∧ k'.priority j = k'.priority i := by
      rw [priority_congr (sporked.other other)]
      rcases effect with ⟨_, _, next⟩ | ⟨last, _, next, atEnd⟩
      · rw [next i other] at link
        exact kept (linked.link before link)
      · rw [next i other] at link
        split at link
        · rename_i here
          subst here
          cases link
          exact ⟨live, prio.trans (linked.reached atEnd).2.symm⟩
        · exact kept (linked.link before link)
    exact ⟨.inl reached.1, reached.2⟩
  · by_cases here : i = slot
    · subst here
      obtain ⟨_, _, least, most, _⟩ := sporked.created
      exact ⟨least, most.trans (by omega)⟩
    · rw [priority_congr (sporked.other here)]
      exact linked.priorities i ((live_congr (sporked.other here)).mp alive)
  · have here : i ≠ slot := by
      rintro rfl
      cases free.symm.trans live.1
    exact free_congr linked.free (sporked.other here) free

/-- While the zappers of the dead `p` are woken, all but those in `todo`: from the
head of its queue the links lead to `p` by way of those in `l`. -/
structure Fronts (k : Kernel) (p : Slot) (todo l : List Slot) : Prop extends k.LeadsTo (some p) where
  dead : k.status p = .terminated
  leads : Leads k.next (k.ready_queues (k.queue p)) l (some p)
  awake : ∀ i ∈ l, k.Live i ∧ k.status i = .runnable
  last : ∀ i, k.Live i → k.next i = some p → l.getLast? = some i ∨
    i ∈ todo ∧ k.status i = .blocked ∧ (k.process_table i).zap_target = some p
  own : k.next p ≠ some p

theorem Fronts.empty {todo l : List Slot} (fronts : k.Fronts p todo l)
    (head : k.ready_queues (k.queue p) = some p) : l = [] := by
  cases l with
  | nil => rfl
  | cons i rest =>
    cases fronts.leads.1.symm.trans head
    exact absurd fronts.dead (fronts.awake _ (List.mem_cons_self ..)).1.2

/-- What waking a zapper does. -/
structure PutInFront (k : Kernel) (i : Slot) (k' : Kernel) : Prop where
  live : ∀ j, k'.Live j ↔ k.Live j
  occupied : ∀ j, k'.occupied j = k.occupied j
  priority : ∀ j, k'.priority j = k.priority j
  status : ∀ j, j ≠ i → k'.status j = k.status j
  target : ∀ j, j ≠ i → (k'.process_table j).zap_target = (k.process_table j).zap_target
  awake : k'.status i = .runnable
  link : k'.next i = k.ready_queues (k.queue i)
  links : ∀ j, j ≠ i → k'.next j = k.next j
  head : k'.ready_queues (k.queue i) = some i
  heads : ∀ q, q ≠ k.queue i → k'.ready_queues q = k.ready_queues q

theorem PutInFront.leadsTo (front : k.PutInFront i k') (leadsTo : k.LeadsTo x) (live : k.Live i) : k'.LeadsTo x where
  heads q j head := by
    rw [front.live, front.priority]
    by_cases here : q = k.queue i
    · subst here
      cases front.head.symm.trans head
      exact ⟨.inl live, leadsTo.queue_eq live⟩
    · rw [front.heads q here] at head
      exact leadsTo.heads q j head
  links a b from_ link := by
    rw [front.live] at from_ ⊢
    rw [front.priority, front.priority]
    by_cases here : a = i
    · subst here
      rw [front.link] at link
      rw [leadsTo.queue_eq live]
      exact leadsTo.heads _ b link
    · rw [front.links a here] at link
      exact leadsTo.links a b from_ link
  priorities j := by
    rw [front.live, front.priority]
    exact leadsTo.priorities j
  free j unused := by
    rw [front.occupied] at unused
    have here : j ≠ i := by
      rintro rfl
      cases unused.symm.trans live.1
    rw [front.status j here]
    exact leadsTo.free j unused

theorem wakeZapper_cases (linked : k.LeadsTo x) (i : Slot) :
    wakeZapper p k i = k ∧ ¬ (k.status i = .blocked ∧ (k.process_table i).zap_target = some p) ∨
    k.Live i ∧ k.status i = .blocked ∧ k.PutInFront i (wakeZapper p k i) := by
  unfold wakeZapper
  split
  · rename_i asleep
    have alive : k.Live i := (live_iff_of_free linked.free).mpr (by simp [asleep.1])
    refine .inr ⟨alive, asleep.1, ?_⟩
    generalize woken : (k.modify i fun e =>
      { e with status := .runnable, zap_target := none, next := k.ready_queues (k.queue i) }) = k'
    have pid : ∀ j, (k'.process_table j).pid = (k.process_table j).pid := by
      subst woken
      exact modify_field Process.pid fun _ => by rfl
    have occupied : ∀ j, k'.occupied j = k.occupied j := by
      intro j
      unfold Kernel.occupied
      rw [pid]
    have priority : ∀ j, k'.priority j = k.priority j := by
      subst woken
      exact modify_field Process.priority fun _ => by rfl
    have awake : k'.status i = .runnable := by
      subst woken
      exact status_modify_self
    have status : ∀ j, j ≠ i → k'.status j = k.status j := by
      subst woken
      exact fun j => status_modify_of_ne
    have heads : k'.ready_queues = k.ready_queues := by
      subst woken
      rfl
    have live : ∀ j, k'.Live j ↔ k.Live j := by
      intro j
      unfold Live
      rw [occupied]
      by_cases here : j = i
      · subst here
        simp [awake, show k.status j = .blocked from asleep.1]
      · rw [status j here]
    have target : ∀ j, j ≠ i → (k'.process_table j).zap_target = (k.process_table j).zap_target := by
      intro j other
      subst woken
      rw [modify_of_ne other]
    refine ⟨live, occupied, priority, status, target, awake, ?_, fun j other => ?_, setHead_self, fun q other => ?_⟩
    · subst woken
      rw [setHead_next, next_modify_self]
    · subst woken
      rw [setHead_next, next_modify_of_ne other]
    · rw [setHead_of_ne other, heads]
  · rename_i no
    exact .inl ⟨rfl, no⟩

/-- A zapper that is woken gets in front of its queue. -/
theorem Fronts.wakeZapper {i : Slot} {rest l : List Slot} (fronts : k.Fronts p (i :: rest) l) :
    ∃ l', (Kernel.wakeZapper p k i).Fronts p rest l' := by
  rcases wakeZapper_cases fronts.toLeadsTo i with ⟨same, no⟩ | ⟨live, blocked, front⟩
  · rw [same]
    refine ⟨l, fronts.toLeadsTo, fronts.dead, fronts.leads, fronts.awake, fun j alive link => ?_, fronts.own⟩
    rcases fronts.last j alive link with last | ⟨member, asleep⟩
    · exact .inl last
    · rcases List.mem_cons.mp member with rfl | later
      · exact absurd asleep no
      · exact .inr ⟨later, asleep⟩
  generalize Kernel.wakeZapper p k i = k' at front
  have other : p ≠ i := by
    rintro rfl
    cases fronts.dead.symm.trans blocked
  have absent : i ∉ l := fun member => by cases (fronts.awake i member).2.symm.trans blocked
  have queue : k'.queue p = k.queue p := congrArg (· - 1) (front.priority p)
  have leadsTo := front.leadsTo fronts.toLeadsTo live
  have awake : ∀ j ∈ l, k'.Live j ∧ k'.status j = .runnable := by
    intro j member
    have apart : j ≠ i := by
      rintro rfl
      exact absent member
    rw [front.live, front.status j apart]
    exact fronts.awake j member
  have leads : Leads k'.next (k.ready_queues (k.queue p)) l (some p) :=
    fronts.leads.congr fun j member => front.links j (by rintro rfl; exact absent member)
  have dead : k'.status p = .terminated := (front.status p other).trans fronts.dead
  have own : k'.next p ≠ some p := by
    rw [front.links p other]
    exact fronts.own
  have later : ∀ j, j ≠ i → k.Live j → k.next j = some p → l.getLast? = some j ∨
      j ∈ rest ∧ k'.status j = .blocked ∧ (k'.process_table j).zap_target = some p := by
    intro j apart alive link
    rw [front.status j apart, front.target j apart]
    exact (fronts.last j alive link).imp_right fun asleep =>
      ⟨(List.mem_cons.mp asleep.1).resolve_left apart, asleep.2⟩
  by_cases here : k.queue i = k.queue p
  · refine ⟨i :: l, leadsTo, dead, ?_, ?_, fun j alive link => ?_, own⟩
    · rw [queue, ← here]
      refine ⟨front.head, ?_⟩
      rw [front.link, here]
      exact leads
    · simp only [List.forall_mem_cons]
      exact ⟨⟨(front.live i).mpr live, front.awake⟩, awake⟩
    · by_cases atI : j = i
      · subst atI
        rw [front.link, here] at link
        simp [fronts.empty link]
      · rw [front.links j atI] at link
        refine (later j atI ((front.live j).mp alive) link).imp_left fun last => ?_
        rw [List.getLast?_cons, last]
        rfl
  · refine ⟨l, leadsTo, dead, ?_, awake, fun j alive link => ?_, own⟩
    · rw [queue, front.heads _ (Ne.symm here)]
      exact leads
    · by_cases atI : j = i
      · subst atI
        rw [front.link] at link
        exact absurd (queue_of_priority (fronts.heads _ p link).2).symm here
      · rw [front.links j atI] at link
        exact later j atI ((front.live j).mp alive) link

/-- No link of a live process leads to `p`, but for those that its own `quit` sets anew. -/
def Once (k : Kernel) (p : Slot) : Prop :=
  ∀ i, k.Live i → k.next i = some p → i ≠ p ∧ k.status i = .blocked ∧
    (k.process_table i).zap_target = some p ∧ (k.process_table p).parent ≠ some i

theorem Once.fronts (once : k.Once p) (linked : k.Linked) (live : k.Live p)
    (head : k.ready_queues (k.queue p) = some p) (status : Int) : ∃ l, (k.terminate p status).Fronts p [] l := by
  have ended : k.Ended p _ := wakeParent_ended status
  have asleep : ∀ i, k.Live i → k.next i = some p →
      ((k.modify p fun e => { e with status := .terminated, exit_status := status }).wakeParent p).unlinked i =
        k.unlinked i := by
    intro i alive link
    obtain ⟨other, _, _, stranger⟩ := once i alive link
    rcases wakeParent_unlinked i with same | ⟨isParent, _⟩
    · exact same.trans (modify_unlinked_of_ne other)
    · rw [modify_self] at isParent
      exact absurd isParent stranger
  refine wakeZappers_over (P := fun todo k' => ∃ l, k'.Fronts p todo l) ⟨[], ?_⟩ ?keeps
  case keeps =>
    rintro k' i rest ⟨l, fronts⟩
    exact fronts.wakeZapper
  generalize Kernel.wakeParent _ p = k' at ended asleep
  have lives : ∀ {i n}, k.Live i ∧ k.priority i = n → (k'.Live i ∨ some i = some p) ∧ k'.priority i = n := by
    rintro i n ⟨alive, atN⟩
    rw [ended.live, ended.priority]
    by_cases here : i = p
    · exact ⟨.inr (congrArg some here), atN⟩
    · exact ⟨.inl ⟨alive, here⟩, atN⟩
  have lived : ∀ {i}, k'.Live i ∨ some i = some p → k.Live i := by
    rintro i (alive | here)
    · exact (ended.live.mp alive).1
    · cases here
      exact live
  refine ⟨⟨fun q i atHead => ?_, fun i j from_ link => ?_, fun i alive => ?_, fun i free => ?_⟩, ?_, ?_, ?_, ?_, ?_⟩
  · rw [ended.heads] at atHead
    exact lives (linked.head atHead)
  · rw [ended.next] at link
    rw [ended.priority i]
    exact lives (linked.link (lived from_) link)
  · rw [ended.priority]
    exact linked.priorities i (lived (.inl alive))
  · rw [ended.occupied] at free
    exact (ended.terminated i).mpr (.inr (linked.free i free))
  · exact (ended.terminated p).mpr (.inl rfl)
  · rw [ended.heads, ended.queue]
    exact head
  · simp
  · intro i alive link
    rw [ended.next] at link
    have before := lived (.inl alive)
    obtain ⟨_, blocked, target, _⟩ := once i before link
    have same := asleep i before link
    exact .inr ⟨List.mem_finRange i, (status_congr same).trans blocked, (target_congr same).trans target⟩
  · rw [ended.next]
    intro loop
    exact (once p live loop).1 rfl

theorem Fronts.removed {l : List Slot} (fronts : k.Fronts p [] l) (removed : k.remove_from_ready_queue p = some k') :
    k'.Linked := by
  have notLive : ¬ k.Live p := fun live => live.2 fronts.dead
  have same := fun i => remove_unlinked removed i
  have found : seek k.next (fun j => decide (j = p)) maxProc none (k.ready_queues (k.queue p)) = .endless ∨
      seek k.next (fun j => decide (j = p)) maxProc none (k.ready_queues (k.queue p)) = .at (l.getLast?.or none) p :=
    seek_toward fronts.leads (by simp) fun j member => by
      simp only [decide_eq_false_iff_not]
      rintro rfl
      exact notLive (fronts.awake j member).1
  -- what is left of the heads and of the links of the live processes
  have reached : (∀ q i, k'.ready_queues q = some i → k.Live i ∧ k.priority i = q + 1) ∧
      ∀ i j, k.Live i → k'.next i = some j → k.Live j ∧ k.priority j = k.priority i := by
    have own : ∀ j, k.next p = some j → k.Live j ∧ k.priority j = k.priority p := by
      intro j link
      refine live_of_ne (fronts.links p j (.inr rfl) link) ?_
      rintro rfl
      exact fronts.own link
    have others : ∀ i, k.Live i → i ≠ p := by
      rintro i alive rfl
      exact notLive alive
    rcases remove_eq_some removed with ⟨absent, _⟩ | ⟨head, rfl⟩ | ⟨before, atP, link, rfl⟩
    · rcases found with endless | atP
      · cases absent.symm.trans endless
      · cases absent.symm.trans atP
    · have empty := fronts.empty head
      refine ⟨fun q i atHead => ?_, fun i j alive link => ?_⟩
      · rw [modify_ready_queues] at atHead
        by_cases here : q = k.queue p
        · subst here
          rw [setHead_self] at atHead
          rw [← (fronts.heads _ p head).2]
          exact own i atHead
        · rw [setHead_of_ne here] at atHead
          refine live_of_ne (fronts.heads q i atHead) ?_
          rintro rfl
          exact here (queue_of_priority (fronts.heads q i atHead).2).symm
      · rw [next_modify_of_ne (others i alive), setHead_next] at link
        refine live_of_ne (fronts.links i j (.inl alive) link) ?_
        rintro rfl
        simpa [empty] using fronts.last i alive link
    · have atLast : l.getLast? = some before := by
        rcases found with endless | found
        · cases atP.symm.trans endless
        · simpa using (atP.symm.trans found).symm
      refine ⟨fun q i atHead => ?_, fun i j alive link' => ?_⟩
      · refine live_of_ne (fronts.heads q i atHead) ?_
        rintro rfl
        obtain rfl := queue_of_priority (fronts.heads q i atHead).2
        simp [fronts.empty atHead] at atLast
      · rw [next_modify_of_ne (others i alive)] at link'
        by_cases here : i = before
        · subst here
          rw [next_modify_self] at link'
          rw [← (fronts.links i p (.inl alive) link).2]
          exact own j link'
        · rw [next_modify_of_ne here] at link'
          refine live_of_ne (fronts.links i j (.inl alive) link') ?_
          rintro rfl
          rcases fronts.last i alive link' with last | ⟨⟨⟩, _⟩
          cases atLast.symm.trans last
          exact here rfl
  refine ⟨fun q i head => ?_, fun i j from_ link => ?_, fun i alive => ?_, fun i free => ?_⟩
  · rw [live_congr (same i), priority_congr (same i)]
    exact ⟨.inl (reached.1 q i head).1, (reached.1 q i head).2⟩
  · have alive := (live_congr (same i)).mp (from_.resolve_right (by rintro ⟨⟩))
    rw [live_congr (same j), priority_congr (same j), priority_congr (same i)]
    exact ⟨.inl (reached.2 i j alive link).1, (reached.2 i j alive link).2⟩
  · rw [priority_congr (same i)]
    exact fronts.priorities i ((live_congr (same i)).mp alive)
  · exact free_congr fronts.free (same i) free

theorem LeadsTo.set_status (linked : k.LeadsTo x) {f : Process → Process} (next : ∀ e, (f e).next = e.next)
    (pid : ∀ e, (f e).pid = e.pid) (priority : ∀ e, (f e).priority = e.priority)
    (status : (f (k.process_table i)).status ≠ .terminated) (live : k.Live i) : (k.modify i f).LeadsTo x :=
  linked.congr (next_modify next) rfl (live_modify pid status live) (modify_field Process.priority priority)
    (free_modify linked.free pid live)

/-- Queues that are sound lead to live processes only. -/
theorem Sound.linked {L : Nat → List Slot} (sound : k.Sound L) : k.Linked where
  heads q i head := by
    have leads := sound.leads q
    rw [head] at leads
    obtain ⟨live, prio⟩ := (sound.member q i).mp leads.head_mem
    exact ⟨.inl live, prio⟩
  links i j from_ link := by
    have alive := from_.resolve_right (by rintro ⟨⟩)
    have member := (sound.leads _).next_mem (sound.mem_queue alive) link
    obtain ⟨live, prio⟩ := (sound.member _ j).mp member
    exact ⟨.inl live, prio.trans (sound.queue_eq alive).symm⟩
  priorities := sound.priorities
  free := sound.free

end Kernel

open Kernel

variable {k : Kernel} {p : Slot} {pt : Point} {seg : Segment}

/-- A new process is put at the end of its queue, so the heads of the others stay. -/
theorem Sporked.head {slot : Slot} {k' : Kernel} (sporked : Sporked k slot k') (live : k.Live p)
    (head : k.ready_queues (k.queue p) = some p) : k'.ready_queues (k'.queue p) = some p := by
  have same := sporked.other (sporked.apart live.1)
  have queue : k'.queue p = k.queue p := congrArg (· - 1) (priority_congr same)
  rw [queue]
  obtain ⟨_, ⟨empty, heads, _⟩ | ⟨_, heads, _⟩⟩ := Sporked.effect sporked
  · rw [heads, if_neg]
    · exact head
    · intro here
      rw [here, empty] at head
      cases head
  · rw [heads]
    exact head

/-- A stretch of code that takes the process out of its queue altogether when
it quits leaves no link to a dead process. -/
theorem Path.linked (path : Path k p pt seg) (linked : k.Linked) (live : k.Live p)
    (head : k.ready_queues (k.queue p) = some p) (once : ∀ status, pt.quits status = true → k.Once p) :
    seg.1.Linked ∧ ((∃ value status, seg.2 = .returns value status) →
      seg.1.Live p ∧ seg.1.ready_queues (seg.1.queue p) = some p) := by
  have blocks : ∀ target : Process → Option Slot,
      (k.modify p fun e => { e with status := .blocked, zap_target := target e }).Linked :=
    fun target => linked.set_status (fun _ => rfl) (fun _ => rfl) (fun _ => rfl) (by simp) live
  cases path with
  | halts | linkHangs | joinHangs | sporkHangs | quitHangs | unblockHangs => exact ⟨linked, by simp⟩
  | stays | zapsDead | yields => exact ⟨linked, fun _ => ⟨live, head⟩⟩
  | waits => exact ⟨blocks Process.zap_target, by simp⟩
  | blocks => exact ⟨blocks Process.zap_target, by simp⟩
  | @zaps _ target => exact ⟨blocks fun _ => some target, by simp⟩
  | @sporks _ slot k' _ _ sporked =>
    have same := sporked.other (sporked.apart live.1)
    exact ⟨linked.sporks sporked, fun _ => ⟨(live_congr same).mpr live, sporked.head live head⟩⟩
  | @collects _ before child _ found =>
    have dead := of_decide_eq_true (seek_found found).1
    refine ⟨?_, fun _ => ⟨(collect_live dead p).mpr live, ?_⟩⟩
    · exact linked.congr collect_next collect_heads (collect_live dead) collect_priority
        (collect_free linked.free dead)
    · have queue : (k.collect p before child).queue p = k.queue p := congrArg (· - 1) (collect_priority p)
      rw [collect_heads, queue]
      exact head
  | @quits _ status _ quits _ removed =>
    obtain ⟨l, fronts⟩ := (once status quits).fronts linked live head status
    exact ⟨fronts.removed removed, by simp⟩
  | @unblocks _ i _ _ blocked appended =>
    have alive : k.Live i := (live_iff_of_free linked.free).mpr (by simp [blocked])
    have woken : (k.modify i fun e => { e with status := .runnable }).Linked :=
      linked.set_status (fun _ => rfl) (fun _ => rfl) (fun _ => rfl) (by simp) alive
    refine ⟨woken.append ((live_modify ?_ ?_ alive i).mpr alive) appended, by simp⟩
    · exact fun _ => rfl
    · simp

/-- An entry stays terminated until `spork` takes it. -/
theorem Change.terminated {i : Slot} {e : Process} (change : Change k p pt i e) (other : i ≠ p)
    (dead : k.status i = .terminated) (kept : k.occupied i = false → e.pid = -1) : e.status = .terminated := by
  cases change with
  | same | collected => exact dead
  | created free pid =>
    have unused := kept free
    rw [pid] at unused
    omega
  | blocks here => exact absurd here other
  | died here => exact absurd here other
  | parentWoken _ _ blocked | zapperWoken _ _ blocked | unblocked _ _ blocked => cases dead.symm.trans blocked

/-- Who has gone on from `quit` into `dispatcher` has terminated. -/
theorem Path.dies {k' : Kernel} {status : Int} (path : Path k p pt (k', .dispatches (.quit status))) :
    k'.status p = .terminated := by
  cases path with
  | quits _ _ removed =>
    have same := (remove_unlinked removed p).trans terminate_self
    have dead := congrArg Process.status same
    exact dead
  | sporks _ _ ends => rcases ends with ends | ends <;> cases ends

namespace Machine

/-- A process that quits is in its queue only at the head. -/
def QuitsOnce (m : Machine) (a : Act) : Prop := m.AtQuit (fun m p => m.kernel.Once p) a

structure Buried (m : Machine) : Prop where
  linked : m.kernel.Linked
  running : ∀ p, m.kernel.running_process = some p →
    m.kernel.Live p ∧ m.kernel.ready_queues (m.kernel.queue p) = some p
  dead : ∀ i status, m.place i = .inside (.quit status) → m.kernel.status i = .terminated

/-- An entry other than that of the running process, after a stretch of code. -/
theorem Buried.other {m : Machine} (buried : m.Buried) (here : m.At p pt) {i : Slot} (other : i ≠ p) {status : Int}
    (there : m.contexts (pt.exec m.kernel p).1 i = .inside (.quit status)) :
    (pt.exec m.kernel p).1.status i = .terminated := by
  obtain ⟨place, kept⟩ := contexts_inside there
  have dead := (here.path.change i).terminated other (buried.dead i status place) fun free => by
    have unused := kept free
    unfold occupied at unused
    exact of_not_not (of_decide_eq_false unused)
  exact dead

theorem Buried.step {m m' : Machine} {a : Act} (buried : m.Buried) (once : m.QuitsOnce a)
    (moves : m.step a = some m') : m'.Buried := by
  have selects : ∀ {k : Kernel} {next : Slot}, k.Linked → k.selected = some next →
      ({ k with running_process := some next } : Kernel).Linked ∧
        k.Live next ∧ k.ready_queues (k.queue next) = some next := by
    intro k next linked selected
    obtain ⟨q, _, head, _⟩ := selected_eq_some.mp selected
    obtain ⟨live, prio⟩ := linked.head head
    refine ⟨⟨linked.heads, linked.links, linked.priorities, linked.free⟩, live, ?_⟩
    rw [queue_of_priority prio]
    exact head
  cases step_move moves with
  | starts _ selected =>
    obtain ⟨linked, live, head⟩ := selects buried.linked selected
    refine ⟨linked, ?_, buried.dead⟩
    rintro p ⟨⟩
    exact ⟨live, head⟩
  | @begins p =>
    refine ⟨buried.linked, buried.running, fun i status there => ?_⟩
    by_cases here : i = p
    · subst here
      simp at there
    · simp only [Function.update_of_ne here] at there
      exact buried.dead i status there
  | halts => exact ⟨buried.linked, buried.running, buried.dead⟩
  | @returns p pt k value status here ends =>
    obtain ⟨live, head⟩ := buried.running p here.running
    obtain ⟨linked, back⟩ := here.path.linked buried.linked live head fun _ quits => once.holds here quits
    have running := here.path.running
    have others := fun i => buried.other here (i := i)
    rw [ends] at linked back running others
    refine ⟨linked, fun q runs => ?_, fun i status there => ?_⟩
    · cases here.running.symm.trans (running.symm.trans runs)
      exact back ⟨_, _, rfl⟩
    · by_cases at_ : i = p
      · subst at_
        rw [back_place_self] at there
        cases there
      · rw [back_place_of_ne at_] at there
        exact others i at_ there
  | @switches p pt k inside next here ends selected =>
    obtain ⟨live, head⟩ := buried.running p here.running
    obtain ⟨linked, back⟩ := here.path.linked buried.linked live head fun _ quits => once.holds here quits
    have others := fun i => buried.other here (i := i)
    have path := here.path
    rw [ends] at linked others path
    obtain ⟨linked, live, head⟩ := selects linked selected
    refine ⟨linked, ?_, fun i status there => ?_⟩
    · rintro q ⟨⟩
      exact ⟨live, head⟩
    · by_cases at_ : i = p
      · subst at_
        rw [switch_place_self] at there
        cases there
        exact path.dies
      · rw [switch_place_of_ne at_] at there
        exact others i at_ there
  | stops =>
    refine ⟨?_, ?_, ?_⟩
    · simpa [stop] using buried.linked
    · simpa [stop] using buried.running
    · simpa [stop] using buried.dead

theorem buried_boot : boot.Buried where
  linked := phase1_init_sound.linked
  running p running := by cases running
  dead i status there := by cases there

theorem buried_of_run {m : Machine} (run : Transition.Run Machine.step QuitsOnce boot m) : m.Buried :=
  run.invariant Buried buried_boot fun _ _ _ buried once moves => buried.step once moves

/-- While every process that quits is in its queue only at the head, the
running process is alive, and is never one that has gone on from `quit`. -/
theorem dead_never_run {m : Machine} (run : Transition.Run Machine.step QuitsOnce boot m) {p : Slot}
    (running : m.kernel.running_process = some p) :
    m.kernel.Live p ∧ ∀ status, m.place p ≠ .inside (.quit status) := by
  have buried := buried_of_run run
  have live := (buried.running p running).1
  exact ⟨live, fun status there => live.2 (buried.dead p status there)⟩

instance (k : Kernel) (p : Slot) : Decidable (k.Once p) :=
  inferInstanceAs (Decidable (∀ i, (k.occupied i = true ∧ k.status i ≠ .terminated) → k.next i = some p → i ≠ p ∧
    k.status i = .blocked ∧ (k.process_table i).zap_target = some p ∧ (k.process_table p).parent ≠ some i))

instance (m : Machine) (a : Act) : Decidable (m.QuitsOnce a) :=
  inferInstanceAs (Decidable (m.AtQuit (fun m p => m.kernel.Once p) a))

theorem dead_never_run_run : ∃ m : Machine, m.place childSlot = .inside (.quit 5) ∧ m.kernel.Live testcaseSlot ∧
    ∀ status, m.place testcaseSlot ≠ .inside (.quit status) := by
  obtain ⟨m, run, holds⟩ := Transition.exists_run step boot oneChild (fun m a => decide (m.QuitsOnce a))
    (fun _ _ => of_decide_eq_true)
    (fun m => m.place childSlot = .inside (.quit 5) && m.kernel.running_process = some testcaseSlot)
    (by decide +kernel)
  simp only [Bool.and_eq_true, decide_eq_true_eq] at holds
  exact ⟨m, holds.1, dead_never_run run holds.2⟩

/-- `testcase_main` creates two processes and joins them. The first blocks, is
woken by the second, so that it leads to itself, and quits. -/
def runsOnFreedStack : List Act :=
  testcaseRuns ++ [.call (sporks 4), .call (sporks 5), .call (.join true), .resume, .call .blockMe,
    .resume, .call (.unblockProc 3), .resume, .call (.quit true 0), .resume, .call (.join true)]

/-- Its entry is free and its stack freed, and `dispatcher` has switched to it. -/
theorem dead_runs : ∃ m, Reaches runsOnFreedStack m ∧ m.kernel.running_process = some childSlot ∧
    m.place childSlot = .inside (.quit 0) ∧ m.kernel.occupied childSlot = false ∧
    (m.kernel.process_table childSlot).stack = false := by
  obtain ⟨m, reaches, holds⟩ := exists_reaches runsOnFreedStack
    (fun m => m.kernel.running_process = some childSlot && m.place childSlot = .inside (.quit 0) &&
      !m.kernel.occupied childSlot && !(m.kernel.process_table childSlot).stack) (by decide +kernel)
  simp only [Bool.and_eq_true, decide_eq_true_eq, Bool.not_eq_true'] at holds
  exact ⟨m, reaches, holds.1.1.1, holds.1.1.2, holds.1.2, holds.2⟩

end Machine

end UslossKernel.Phase1b
