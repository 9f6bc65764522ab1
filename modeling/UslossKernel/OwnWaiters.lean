import UslossKernel.RecordSources

namespace UslossKernel

variable {g g₀ g' : Globals} {p pid : Pid} {pt : Point} {m n : MboxId} {seg : Segment} {ρ : Role}
  {source : Source} {k : Cont}

namespace Timed

/-- How many entries of the array of `m` are older than the mailbox. -/
def olderIn (m : MboxId) (t : Timed) : Role → Nat
  | .producer => t.olderProducers m
  | .consumer => t.olderConsumers m

/-- Suspended in the role on `m`, in its current life. -/
def OwnWaiter (m : MboxId) (ρ : Role) (t : Timed) (q : Pid) : Prop :=
  t.Suspended m ρ q ∧ t.created m < t.since q

/-- No call on `m` has woken the process since `MboxRecv` on `m` last recorded it. -/
def Unused (m : MboxId) (t : Timed) (q : Pid) : Prop :=
  t.woken m q < t.received m q

/-- No entry of an array is left from an earlier life of `m`, and a record of a
receiver that is not taken out when it is used has not been used before: the
shadow entry that the pointer leads to still has the pid for which the pointer
was set, and no call on `m` has woken the receiver in the meantime. -/
def Current (m : MboxId) (t : Timed) (pid : Pid) : Source → Prop
  | .first ρ => t.olderIn m ρ = 0
  | .entry .producer i => t.olderIn m .producer ≤ i
  | .entry .consumer i => t.olderIn m .consumer ≤ i ∧ t.Unused m pid
  | .pointer => pid = t.receiver m ∧ t.Unused m pid

/-- If the stretch of code wakes a process it takes the pid from a current
record, and it is not that of a release whose id has been handed out again. -/
def WakesCurrent (t : Timed) (p : Pid) (pt : Point) (seg : Segment) : Prop :=
  ∀ pid k source, seg.2 = .unblocks pid k → Follows t.sys.globals pt k.mbox seg.1 source pid →
    t.Current k.mbox pid source ∧
      ∀ k₀, pt = .afterUnblock k₀ → k₀.releases k.mbox = true → t.created k.mbox ≤ t.began p

/-- The same for the stretch of code that the action runs. -/
def WakesOwn (t : Timed) (a : Act) : Prop :=
  ∀ pt, t.sys.RunsFrom a pt → t.WakesCurrent a.pid pt (pt.exec t.sys.globals a.pid)

/-- The pids are those of different processes suspended on `m` in its current life. -/
structure Own (m : MboxId) (ρ : Role) (t : Timed) (waiting : List Pid) : Prop where
  nodup : waiting.Nodup
  waiters : ∀ q ∈ waiting, t.OwnWaiter m ρ q

/-- Inside a release of `m` that began after the id was last handed out. -/
def Releases (m : MboxId) (t : Timed) (r : Pid) : Prop :=
  ∃ k, t.sys.proc r = .unblocking k ∧ k.releases m = true ∧ t.created m ≤ t.began r

/-- The entries made in the current life of `m` are those of its waiters; a
release that is under way has those it has not yet come to. -/
structure OwnRecords (m : MboxId) (t : Timed) : Prop where
  arrays : ∀ ρ, (t.sys.globals.mailboxes m).isActive = true →
    (ρ = .consumer → (t.sys.globals.mailboxes m).numSlots ≠ 0) →
    t.Own m ρ ((ρ.array t.sys.globals m).drop (t.olderIn m ρ))
  inactive : ∀ r, t.Releases m r → (t.sys.globals.mailboxes m).isActive = false
  unique : ∀ r r', t.Releases m r → t.Releases m r' → r = r'
  release : ∀ r i, t.sys.proc r = .unblocking (.releaseProducers m i) → t.created m ≤ t.began r →
    t.Own m .producer ((t.sys.globals.blockedProducers m).drop (max i (t.olderIn m .producer)))

variable {t : Timed} {waiting : List Pid} {i : Nat}

theorem Own.nil : t.Own m ρ [] :=
  ⟨List.nodup_nil, by rintro _ ⟨⟩⟩

theorem Own.tail {q : Pid} {rest : List Pid} (own : t.Own m ρ (q :: rest)) : q ∉ rest ∧ t.Own m ρ rest :=
  ⟨(List.nodup_cons.mp own.nodup).1, (List.nodup_cons.mp own.nodup).2,
    fun r member => own.waiters r (List.mem_cons_of_mem q member)⟩

/-- A process waits in one way on one mailbox. -/
theorem Own.apart {other : Role} (own : t.Own m ρ waiting) (waiter : t.OwnWaiter n other pid)
    (away : ¬ (ρ = other ∧ m = n)) : pid ∉ waiting := by
  intro member
  exact away (Suspended.unique (own.waiters pid member).1 waiter.1)

theorem Own.after (seg : Segment) (own : t.Own m ρ waiting) (here : (t.sys.proc p).At pt)
    (created : (t.after p pt seg).created m = t.created m)
    (unnamed : ∀ pid k, seg.2 = .unblocks pid k → pid ∉ waiting) : (t.after p pt seg).Own m ρ waiting where
  nodup := own.nodup
  waiters q member := by
    obtain ⟨suspended, since⟩ := own.waiters q member
    refine ⟨Sys.blocked_stays here suspended fun k names => unnamed q k names member, ?_⟩
    rwa [created, since_after (awake here suspended)]

/-- The process that blocks can be added. -/
theorem Own.push {w : Wait} (own : t.Own m ρ waiting) (past : t.Past) (here : (t.sys.proc p).At pt)
    (created : (t.after p pt (g', .blocks w)).created m = t.created m) (waits : ρ.waits m w = true) :
    (t.after p pt (g', .blocks w)).Own m ρ (waiting ++ [p]) := by
  have still := own.after (g', .blocks w) here created (by rintro _ _ ⟨⟩)
  refine ⟨?_, fun q member => ?_⟩
  · refine List.nodup_append.mpr ⟨own.nodup, List.nodup_singleton p, fun q member r single same => ?_⟩
    rw [List.mem_singleton.mp single] at same
    exact awake here (own.waiters q member).1 same
  · rcases List.mem_append.mp member with earlier | last
    · exact still.waiters q earlier
    · obtain rfl := List.mem_singleton.mp last
      refine ⟨by simpa [Suspended, Sys.after, Sys.settle] using waits, ?_⟩
      rw [created, since_blocks]
      exact Nat.lt_succ_of_le (past.created m)

/-- The part of the array that a release has before it when it comes to an entry. -/
theorem OwnRecords.own_left (own : t.OwnRecords k.mbox) (current : t.WakesCurrent p pt (g', .unblocks pid k))
    (here : (t.sys.proc p).At pt) (at_ : ReleaseAt t.sys.globals pt g' k.mbox (.producers i))
    (recorded : (t.sys.globals.blockedProducers k.mbox)[i]? = some pid) :
    t.olderIn k.mbox .producer ≤ i ∧ t.Own k.mbox .producer ((t.sys.globals.blockedProducers k.mbox).drop i) := by
  have follows : Follows t.sys.globals pt k.mbox g' (.entry .producer i) pid := .entry (ρ := .producer) at_ recorded
  obtain ⟨(older : t.olderIn k.mbox .producer ≤ i), undisturbed⟩ := current pid k _ rfl follows
  refine ⟨older, ?_⟩
  obtain ⟨_, ⟨rfl, rfl⟩ | rfl⟩ := at_.at_producers rfl
  · have active : (t.sys.globals.mailboxes k.mbox).isActive = true :=
      follows.releases.resolve_right (by rintro ⟨_, _, ⟨⟩⟩)
    have all := own.arrays .producer active (by rintro ⟨⟩)
    rwa [Nat.le_zero.mp older] at all
  · have left := own.release p i here.unblocking_eq (undisturbed _ rfl (by simp [Cont.releases]))
    rwa [Nat.max_eq_left older] at left

/-- What the receivers on record for `m` have in common: they were recorded in
its current life. -/
structure Receivers (m : MboxId) (t : Timed) : Prop where
  pointed : ∀ entry, (t.sys.globals.mailboxes m).consumers = some entry → t.created m < t.received m (t.receiver m)
  listed : ∀ q ∈ (Role.consumer.array t.sys.globals m).drop (t.olderIn m .consumer), t.created m < t.received m q

/-- Who has been recorded and not been woken through a record of the mailbox is
suspended there still. -/
def Unwoken (t : Timed) : Prop :=
  ∀ m q, t.Unused m q → t.sys.SuspendedRecv m q ∧ t.since q = t.received m q

theorem OwnRecords.current_waiter (own : t.OwnRecords k.mbox) (sound : t.sys.globals.Sound) (unwoken : t.Unwoken)
    (receivers : t.Receivers k.mbox) (current : t.WakesCurrent p pt (g', .unblocks pid k))
    (here : (t.sys.proc p).At pt) (follows : Follows t.sys.globals pt k.mbox g' source pid) :
    t.OwnWaiter k.mbox source.role pid := by
  obtain ⟨recent, _⟩ := current pid k source rfl follows
  have receiver : t.created k.mbox < t.received k.mbox pid → t.Unused k.mbox pid →
      t.OwnWaiter k.mbox .consumer pid := by
    intro recorded unused
    obtain ⟨suspended, since⟩ := unwoken k.mbox pid unused
    exact ⟨suspended, since ▸ recorded⟩
  cases follows with
  | @first ρ pid rest _ active storable recorded =>
    have slots : ρ = .consumer → (t.sys.globals.mailboxes k.mbox).numSlots ≠ 0 := by
      intro receiver
      have capacity := (storable receiver).capacity
      rw [sound.capacity k.mbox active] at capacity
      exact Nat.pos_iff_ne_zero.mp capacity
    have all := own.arrays ρ active slots
    rw [recent, recorded] at all
    exact all.waiters pid (List.mem_cons_self ..)
  | @entry ρ i pid at_ recorded =>
    cases ρ with
    | producer =>
      obtain ⟨_, left⟩ := own.own_left current here at_ recorded
      have first : ((t.sys.globals.blockedProducers k.mbox).drop i)[0]? = some pid := by
        simpa [Role.array] using recorded
      exact left.waiters pid (List.mem_of_getElem? first)
    | consumer =>
      obtain ⟨older, unused⟩ := recent
      have later : ((Role.consumer.array t.sys.globals k.mbox).drop (t.olderIn k.mbox .consumer))[
          i - t.olderIn k.mbox .consumer]? = some pid := by
        rw [List.getElem?_drop, Nat.add_sub_cancel' older]
        exact recorded
      exact receiver (receivers.listed pid (List.mem_of_getElem? later)) unused
  | matched _ _ _ pointed | released _ pointed =>
    obtain ⟨same, unused⟩ := recent
    refine receiver ?_ unused
    rw [same]
    exact receivers.pointed _ pointed

theorem olderIn_after (lives : ∀ f, seg.2 ≠ .faults f) : (t.after p pt seg).olderIn m ρ =
    older (t.olderIn m ρ) (handsOut t.sys (t.after p pt seg).sys m) (ρ.array t.sys.globals m)
      (ρ.array seg.1 m) := by
  have kept : (t.sys.after p pt seg).globals = seg.1 := Sys.after_globals lives
  rw [← kept]
  cases ρ <;> rfl

/-- Unless the id is handed out now, the entries made since are as far from the
front of the array as they were. -/
theorem olderIn_kept (lives : ∀ f, seg.2 ≠ .faults f) (handed : handsOut t.sys (t.after p pt seg).sys m = false)
    (longer : (ρ.array t.sys.globals m).length ≤ (ρ.array seg.1 m).length) :
    (t.after p pt seg).olderIn m ρ = t.olderIn m ρ := by
  rw [olderIn_after lives, handed, older, Nat.sub_eq_zero_of_le longer]
  rfl

theorem received_le (past : t.Past) (m : MboxId) (q : Pid) : t.received m q ≤ (t.after p pt seg).received m q := by
  have before := past.received m q
  simp only [Timed.after, stamp]
  split <;> omega

theorem received_blocks (t : Timed) (p : Pid) (pt : Point) (g' : Globals) {w : Wait}
    (receives : Wait.receivesFrom m w = true) :
    (t.after p pt (g', .blocks w)).receiver m = p ∧ (t.after p pt (g', .blocks w)).received m p = t.now + 1 := by
  simp [Timed.after, stamp, Sys.after, Sys.settle, receives]

theorem receiver_kept (here : (t.sys.proc p).At pt)
    (apart : ∀ w, seg.2 = .blocks w → Wait.receivesFrom m w = false) :
    (t.after p pt seg).receiver m = t.receiver m := by
  simp only [Timed.after, stamp, Point.act_pid]
  refine if_neg fun receives => ?_
  rcases Sys.blocked_after receives with before | ⟨_, w, blocks, waits⟩
  · rw [here.blockedIn] at before
    cases before
  · rw [apart w blocks] at waits
    cases waits

/-- The pointer is set where a receiver is recorded, and is null when the id is handed out. -/
theorem Receivers.pointed_after (receivers : t.Receivers m) (past : t.Past) (here : (t.sys.proc p).At pt)
    (path : Path t.sys.globals p pt seg) (lives : ∀ f, seg.2 ≠ .faults f) {entry : Nat}
    (pointed : (seg.1.mailboxes m).consumers = some entry) :
    (t.after p pt seg).created m < (t.after p pt seg).received m ((t.after p pt seg).receiver m) := by
  have unhanded : ((seg.1.mailboxes m).isActive = true → (t.sys.globals.mailboxes m).isActive = true) →
      (t.after p pt seg).created m = t.created m := by
    intro active
    refine created_kept ?_
    rw [handsOut, after_sys, Sys.after_globals lives]
    cases atM : (seg.1.mailboxes m).isActive with
    | true => simp [active atM]
    | false => simp
  have recorded : ∀ w, seg.2 = .blocks w → Wait.receivesFrom m w = true →
      t.created m < (t.after p pt seg).received m ((t.after p pt seg).receiver m) := by
    intro w blocks receives
    obtain ⟨g', _⟩ := seg
    obtain rfl := blocks
    obtain ⟨last, now⟩ := received_blocks t p pt g' receives
    rw [last, now]
    exact Nat.lt_succ_of_le (past.created m)
  cases path.points (m := m) with
  | null null =>
    rw [null] at pointed
    cases pointed
  | same same active =>
    rw [unhanded active]
    by_cases blocks : ∃ w, seg.2 = .blocks w ∧ Wait.receivesFrom m w = true
    · obtain ⟨w, blocks, receives⟩ := blocks
      exact recorded w blocks receives
    · rw [receiver_kept here fun w ends => by simpa using fun receives => blocks ⟨w, ends, receives⟩]
      exact lt_of_lt_of_le (receivers.pointed entry (same ▸ pointed)) (received_le past m _)
  | @set w blocks receives active =>
    rw [unhanded fun _ => active]
    exact recorded w blocks receives

theorem Receivers.listed_after (receivers : t.Receivers m) (past : t.Past) (path : Path t.sys.globals p pt seg)
    (lives : ∀ f, seg.2 ≠ .faults f) {q : Pid}
    (member : q ∈ (Role.consumer.array seg.1 m).drop ((t.after p pt seg).olderIn m .consumer)) :
    (t.after p pt seg).created m < (t.after p pt seg).received m q := by
  rw [olderIn_after lives] at member
  cases handed : handsOut t.sys (t.after p pt seg).sys m with
  | true => simp only [handed, older, if_true, List.drop_length, List.not_mem_nil] at member
  | false =>
    rw [created_kept handed]
    rw [handed, older, if_neg Bool.false_ne_true] at member
    have before : q ∈ (Role.consumer.array t.sys.globals m).drop (t.olderIn m .consumer) →
        t.created m < (t.after p pt seg).received m q :=
      fun listed => lt_of_lt_of_le (receivers.listed q listed) (received_le past m q)
    have requeue := path.requeue lives (ρ := .consumer) (m := m)
    generalize Role.consumer.array seg.1 m = waiting' at requeue member
    cases requeue with
    | keeps => exact before (by simpa using member)
    | @joins w _ blocks waits _ pushed _ =>
      rcases pushed with rfl | rfl
      · exact before (by simpa using member)
      · obtain ⟨g', _⟩ := seg
        obtain rfl := blocks
        have bound : t.olderIn m .consumer ≤ (Role.consumer.array t.sys.globals m).length := past.consumers m
        rw [List.length_append, Nat.sub_eq_zero_of_le (Nat.le_add_right _ _), Nat.sub_zero,
          List.drop_append_of_le_length bound] at member
        rcases List.mem_append.mp member with listed | last
        · exact before listed
        · rw [List.mem_singleton.mp last, (received_blocks t p pt g' waits).2]
          exact Nat.lt_succ_of_le (past.created m)
    | @pops pid rest _ first =>
      rw [first] at before member
      refine before ?_
      cases atOlder : t.olderIn m .consumer with
      | zero => exact List.mem_cons_of_mem pid (by simpa [atOlder] using member)
      | succ n => simpa [atOlder] using member
    | empties => simp at member

theorem Receivers.after (receivers : t.Receivers m) (past : t.Past) (here : (t.sys.proc p).At pt)
    (path : Path t.sys.globals p pt seg) (lives : ∀ f, seg.2 ≠ .faults f) : (t.after p pt seg).Receivers m := by
  have globals : (t.after p pt seg).sys.globals = seg.1 := Sys.after_globals lives
  refine ⟨fun entry pointed => ?_, fun q member => ?_⟩
  · exact receivers.pointed_after past here path lives (globals ▸ pointed)
  · exact receivers.listed_after past path lives (globals ▸ member)

/-- While only own waiters are woken, who has not been woken by a call on `m`
has not been woken at all. -/
theorem Unwoken.after (unwoken : t.Unwoken) (past : t.Past) (here : (t.sys.proc p).At pt)
    (waiters : ∀ pid k, seg.2 = .unblocks pid k → ∃ ρ, t.Suspended k.mbox ρ pid) :
    (t.after p pt seg).Unwoken := by
  intro m q unused
  by_cases self : q = p
  · subst self
    have outside : (t.sys.proc q).blockedIn (fun _ => true) = false := here.blockedIn _
    simp only [Unused, Timed.after, stamp, Point.act_pid, outside, Bool.false_eq_true, false_and, and_false, if_false,
      true_and] at unused ⊢
    split at unused
    · rename_i receives
      obtain ⟨w, atQ, kind⟩ := Proc.blockedIn_iff.mp receives
      exact ⟨receives, by simp [atQ, kind]⟩
    · have before := (unwoken m q unused).1
      rw [Sys.SuspendedRecv, here.blockedIn] at before
      cases before
  · have received : (t.after p pt seg).received m q = t.received m q := by
      simp only [Timed.after, stamp, Point.act_pid]
      exact if_neg fun own => self own.1
    have earlier : (t.after p pt seg).woken m q = t.woken m q := by
      by_contra changed
      have now : (t.after p pt seg).woken m q = t.now + 1 := by
        simp only [Timed.after, stamp] at changed ⊢
        split at changed
        · rename_i woken
          exact if_pos woken
        · exact absurd rfl changed
      have bound := past.received m q
      rw [Unused, now, received] at unused
      omega
    rw [Unused, earlier, received] at unused
    obtain ⟨suspended, since⟩ := unwoken m q unused
    refine ⟨Sys.blocked_stays here suspended fun k names => ?_, ?_⟩
    · obtain ⟨ρ, waits⟩ := waiters q k names
      obtain ⟨_, rfl⟩ := Suspended.unique (ρ := .consumer) suspended waits
      obtain ⟨g', _⟩ := seg
      obtain rfl := names
      have now := woken_unblocks pt g' k self suspended
      have bound := past.received k.mbox q
      omega
    · rw [since_after self, received, since]

/-- A release that is under way was so before, or it begins now. -/
theorem releases_after (past : t.Past) (here : (t.sys.proc p).At pt) (path : Path t.sys.globals p pt seg)
    (lives : ∀ f, seg.2 ≠ .faults f) {r : Pid} (releases : (t.after p pt seg).Releases m r) :
    handsOut t.sys (t.after p pt seg).sys m = false ∧
      (t.Releases m r ∨ r = p ∧ pt = .start (.release (m : Nat)) ∧ (t.sys.globals.mailboxes m).isActive = true ∧
        (seg.1.mailboxes m).isActive = false) := by
  obtain ⟨k, atR, inside, undisturbed⟩ := releases
  by_cases own : r = p
  · subst own
    obtain ⟨g', pid, rfl⟩ := unblocking_self lives atR
    obtain ⟨stage, at_⟩ := path.release_at inside
    rcases at_.sameMail with ⟨rfl, active, same⟩ | ⟨⟨k₀, releases, rfl⟩, _⟩
    · have inactive : (g'.mailboxes m).isActive = false := (same.active m).trans (by simp)
      exact ⟨by simp [handsOut, active], .inr ⟨rfl, rfl, active, inactive⟩⟩
    · rw [began_after (by rintro _ _ ⟨⟩)] at undisturbed
      obtain ⟨handed, created⟩ := created_before past undisturbed
      exact ⟨handed, .inl ⟨k₀, here.unblocking_eq, releases, created⟩⟩
  · rw [began_after fun c same => (own same).elim] at undisturbed
    obtain ⟨handed, created⟩ := created_before past undisturbed
    exact ⟨handed, .inl ⟨k, unblocking_other own atR, inside, created⟩⟩

/-- A part of an array that the stretch of code takes no pid from. -/
theorem Own.others (own : t.Own m ρ waiting) (here : (t.sys.proc p).At pt) (path : Path t.sys.globals p pt seg)
    (handed : handsOut t.sys (t.after p pt seg).sys m = false)
    (waiters : ∀ source pid k, seg.2 = .unblocks pid k → Follows t.sys.globals pt k.mbox seg.1 source pid →
      t.OwnWaiter k.mbox source.role pid)
    (away : ∀ source pid k, seg.2 = .unblocks pid k → k.mbox = m →
      Follows t.sys.globals pt k.mbox seg.1 source pid → source.role ≠ ρ) : (t.after p pt seg).Own m ρ waiting := by
  refine own.after _ here (created_kept handed) fun pid k names => ?_
  obtain ⟨g', outcome⟩ := seg
  obtain rfl := names
  obtain ⟨source, follows⟩ := path.follows
  refine own.apart (waiters _ _ _ rfl follows) ?_
  rintro ⟨same, mbox⟩
  exact away source pid k rfl mbox.symm follows same.symm

/-- Where no pid is taken from the array, its entries stay those of waiters. -/
theorem Own.kept (own : t.Own m ρ ((ρ.array t.sys.globals m).drop (max i (t.olderIn m ρ)))) (past : t.Past)
    (here : (t.sys.proc p).At pt) (path : Path t.sys.globals p pt seg) (lives : ∀ f, seg.2 ≠ .faults f)
    (handed : handsOut t.sys (t.after p pt seg).sys m = false)
    (waiters : ∀ source pid k, seg.2 = .unblocks pid k → Follows t.sys.globals pt k.mbox seg.1 source pid →
      t.OwnWaiter k.mbox source.role pid)
    (away : ∀ source pid k, seg.2 = .unblocks pid k → k.mbox = m →
      Follows t.sys.globals pt k.mbox seg.1 source pid → source.role ≠ ρ)
    (bound : (t.sys.globals.mailboxes m).isActive = true →
      max i (t.olderIn m ρ) ≤ (ρ.array t.sys.globals m).length) :
    (t.after p pt seg).Own m ρ ((ρ.array seg.1 m).drop (max i ((t.after p pt seg).olderIn m ρ))) := by
  have still := own.others here path handed waiters away
  have same := olderIn_kept (ρ := ρ) lives handed
  by_cases unblocks : ∃ pid k, seg.2 = .unblocks pid k
  · obtain ⟨pid, k, names⟩ := unblocks
    obtain ⟨g', outcome⟩ := seg
    obtain rfl := names
    obtain ⟨source, follows⟩ := path.follows
    have array : ρ.array g' m = ρ.array t.sys.globals m ∨ ρ.array g' m = [] := by
      by_cases here : m = k.mbox
      · have other := away source pid k rfl here.symm follows
        subst here
        exact follows.array_other other
      · exact .inl (follows.array_away here)
    rcases array with kept | emptied
    · rwa [same (le_of_eq (congrArg List.length kept.symm)), kept]
    · rw [emptied, List.drop_nil]
      exact .nil
  · have requeue := path.requeue lives (ρ := ρ) (m := m)
    generalize ρ.array seg.1 m = waiting' at requeue same
    cases requeue with
    | keeps => rwa [same le_rfl]
    | @joins w _ blocks waits active pushed _ =>
      rcases pushed with rfl | rfl
      · rwa [same le_rfl]
      · rw [same (by simp), List.drop_append_of_le_length (bound active)]
        obtain ⟨g', _⟩ := seg
        obtain rfl := blocks
        exact own.push past here (created_kept handed) waits
    | pops _ wakes => exact absurd ⟨_, _, wakes⟩ unblocks
    | empties => rw [List.drop_nil]; exact .nil

/-- The first entry is taken from an array that has no older ones. -/
theorem Own.popped {rest : List Pid} (own : t.Own m ρ ((ρ.array t.sys.globals m).drop (t.olderIn m ρ)))
    (here : (t.sys.proc p).At pt) (handed : handsOut t.sys (t.after p pt (g', .unblocks pid k)).sys m = false)
    (current : t.olderIn m ρ = 0) (first : ρ.array t.sys.globals m = pid :: rest)
    (array : ρ.array g' m = rest) : (t.after p pt (g', .unblocks pid k)).Own m ρ
      ((ρ.array g' m).drop ((t.after p pt (g', .unblocks pid k)).olderIn m ρ)) := by
  have older : (t.after p pt (g', .unblocks pid k)).olderIn m ρ = 0 := by
    rw [olderIn_after (by rintro _ ⟨⟩), handed, current]
    simp [Timed.older]
  rw [current, first] at own
  obtain ⟨absent, left⟩ := own.tail
  rw [older, array]
  refine left.after _ here (created_kept handed) ?_
  rintro _ _ ⟨⟩
  exact absent

/-- The array of an active mailbox of which an entry is woken. -/
theorem OwnRecords.taken (own : t.OwnRecords k.mbox)
    (all : t.Own k.mbox source.role ((source.role.array t.sys.globals k.mbox).drop (t.olderIn k.mbox source.role)))
    (current : t.WakesCurrent p pt (g', .unblocks pid k)) (here : (t.sys.proc p).At pt)
    (handed : handsOut t.sys (t.after p pt (g', .unblocks pid k)).sys k.mbox = false)
    (active : (g'.mailboxes k.mbox).isActive = true) (follows : Follows t.sys.globals pt k.mbox g' source pid)
    (slots : source.role = .consumer → (t.sys.globals.mailboxes k.mbox).numSlots ≠ 0) :
    (t.after p pt (g', .unblocks pid k)).Own k.mbox source.role
      ((source.role.array g' k.mbox).drop ((t.after p pt (g', .unblocks pid k)).olderIn k.mbox source.role)) := by
  obtain ⟨recent, undisturbed⟩ := current pid k source rfl follows
  have undone : ∀ {stage}, ReleaseAt t.sys.globals pt g' k.mbox stage → False := by
    intro stage at_
    rcases at_.sameMail with ⟨_, _, same⟩ | ⟨⟨k₀, releases, back⟩, same⟩
    · rw [same.active] at active
      simp at active
    · have undone := own.inactive p ⟨k₀, (back ▸ here).unblocking_eq, releases, undisturbed k₀ back releases⟩
      rw [same.active, undone] at active
      cases active
  cases follows with
  | first _ _ _ recorded array =>
    exact all.popped here handed recent recorded ((congrFun array k.mbox).trans (Function.update_self ..))
  | entry at_ | released at_ => exact (undone at_).elim
  | matched _ _ zero => exact absurd zero (slots rfl)

/-- The array of a mailbox that is active afterwards. -/
theorem OwnRecords.arrays_after (own : t.OwnRecords m) (past : t.Past)
    (waiters : ∀ source pid k, seg.2 = .unblocks pid k → Follows t.sys.globals pt k.mbox seg.1 source pid →
      t.OwnWaiter k.mbox source.role pid)
    (current : t.WakesCurrent p pt seg) (here : (t.sys.proc p).At pt) (path : Path t.sys.globals p pt seg)
    (lives : ∀ f, seg.2 ≠ .faults f) (active : (seg.1.mailboxes m).isActive = true)
    (slots : ρ = .consumer → (seg.1.mailboxes m).numSlots ≠ 0) :
    (t.after p pt seg).Own m ρ ((ρ.array seg.1 m).drop ((t.after p pt seg).olderIn m ρ)) := by
  cases handed : handsOut t.sys (t.after p pt seg).sys m with
  | true =>
    rw [olderIn_after lives, handed, older, if_pos rfl, List.drop_length]
    exact .nil
  | false =>
    have before : (t.sys.globals.mailboxes m).isActive = true := by
      by_contra inactive
      rw [stays_inactive lives handed (by simpa using inactive)] at active
      cases active
    have unreleased : pt ≠ .start (.release (m : Nat)) := by
      intro start
      have ends := path.release_ends (.inl start) fun _ => before
      rw [(ends.status (by rw [start]; rintro ⟨_, ⟨⟩⟩)).1] at active
      cases active
    obtain ⟨_, numSlots⟩ := path.transfer.status before unreleased
    rw [numSlots] at slots
    have all := own.arrays ρ before slots
    by_cases taken : ∃ source pid k, seg.2 = .unblocks pid k ∧ k.mbox = m ∧
        Follows t.sys.globals pt k.mbox seg.1 source pid ∧ source.role = ρ
    · obtain ⟨source, pid, k, names, rfl, follows, rfl⟩ := taken
      obtain ⟨g', outcome⟩ := seg
      obtain rfl := names
      exact own.taken all current here handed active follows slots
    · push Not at taken
      rw [← Nat.zero_max (t.olderIn m ρ)] at all
      have kept := all.kept past here path lives handed waiters taken fun _ => by
        rw [Nat.zero_max]
        cases ρ
        · exact past.producers m
        · exact past.consumers m
      rwa [Nat.zero_max] at kept

/-- The part of the array that the release run by `p` still has before it. -/
theorem OwnRecords.release_self (own : t.OwnRecords m) (current : t.WakesCurrent p pt seg)
    (here : (t.sys.proc p).At pt) (path : Path t.sys.globals p pt seg) (lives : ∀ f, seg.2 ≠ .faults f)
    (handed : handsOut t.sys (t.after p pt seg).sys m = false)
    (atP : (t.after p pt seg).sys.proc p = .unblocking (.releaseProducers m i)) :
    (t.after p pt seg).Own m .producer
      ((seg.1.blockedProducers m).drop (max i ((t.after p pt seg).olderIn m .producer))) := by
  obtain ⟨g', pid, rfl⟩ := unblocking_self lives atP
  obtain ⟨j, rfl, at_, (recorded : (t.sys.globals.blockedProducers m)[j]? = some pid)⟩ :=
    path.loops (ρ := .producer)
  obtain ⟨older, left⟩ :=
    OwnRecords.own_left (k := .releaseProducers m (j + 1)) own current here at_ recorded
  have kept : g'.blockedProducers m = t.sys.globals.blockedProducers m :=
    (ReleaseAt.at_loop (ρ := .producer) at_).1
  have same := olderIn_kept (ρ := .producer) lives handed (le_of_eq (congrArg List.length kept.symm))
  obtain ⟨bound, atJ⟩ := List.getElem?_eq_some_iff.mp recorded
  rw [Cont.mbox, List.drop_eq_getElem_cons bound] at left
  obtain ⟨absent, rest⟩ := left.tail
  rw [Cont.mbox] at older
  rw [same, kept, Nat.max_eq_left (by omega)]
  refine rest.after _ here (created_kept handed) ?_
  rintro _ _ ⟨⟩
  rwa [atJ] at absent

/-- The part of the array that the release of another process has before it. -/
theorem OwnRecords.release_other (own : t.OwnRecords m) (past : t.Past)
    (waiters : ∀ source pid k, seg.2 = .unblocks pid k → Follows t.sys.globals pt k.mbox seg.1 source pid →
      t.OwnWaiter k.mbox source.role pid)
    (current : t.WakesCurrent p pt seg) (here : (t.sys.proc p).At pt) (path : Path t.sys.globals p pt seg)
    (lives : ∀ f, seg.2 ≠ .faults f) (handed : handsOut t.sys (t.after p pt seg).sys m = false) {r : Pid}
    (other : r ≠ p) (releasing : t.Releases m r) (atR : t.sys.proc r = .unblocking (.releaseProducers m i))
    (created : t.created m ≤ t.began r) :
    (t.after p pt seg).Own m .producer
      ((seg.1.blockedProducers m).drop (max i ((t.after p pt seg).olderIn m .producer))) := by
  have inactive := own.inactive r releasing
  refine Own.kept (ρ := .producer) (own.release r i atR created) past here path lives handed waiters ?_ ?_
  · rintro source pid k names rfl follows
    rcases follows.releases with active | ⟨k₀, releases, back⟩
    · rw [inactive] at active
      cases active
    · have undisturbed := (current pid k source names follows).2 k₀ back releases
      exact absurd (own.unique r p releasing ⟨k₀, (back ▸ here).unblocking_eq, releases, undisturbed⟩) other
  · intro active
    rw [inactive] at active
    cases active

theorem OwnRecords.after (own : t.OwnRecords m) (past : t.Past)
    (waiters : ∀ source pid k, seg.2 = .unblocks pid k → Follows t.sys.globals pt k.mbox seg.1 source pid →
      t.OwnWaiter k.mbox source.role pid)
    (current : t.WakesCurrent p pt seg) (here : (t.sys.proc p).At pt) (path : Path t.sys.globals p pt seg)
    (lives : ∀ f, seg.2 ≠ .faults f) : (t.after p pt seg).OwnRecords m := by
  have globals : (t.after p pt seg).sys.globals = seg.1 := Sys.after_globals lives
  refine ⟨fun ρ active slots => ?_, fun r releases => ?_, fun r r' first second => ?_, fun r i atR undisturbed => ?_⟩
  · rw [globals] at active slots ⊢
    exact own.arrays_after past waiters current here path lives active slots
  · rw [globals]
    obtain ⟨handed, before | ⟨_, _, _, inactive⟩⟩ := releases_after past here path lives releases
    · exact stays_inactive lives handed (own.inactive r before)
    · exact inactive
  · obtain ⟨_, before | ⟨own₁, _, active, _⟩⟩ := releases_after past here path lives first <;>
      obtain ⟨_, before' | ⟨own₂, _, active', _⟩⟩ := releases_after past here path lives second
    · exact own.unique r r' before before'
    · rw [own.inactive r before] at active'
      cases active'
    · rw [own.inactive r' before'] at active
      cases active
    · exact own₁.trans own₂.symm
  · obtain ⟨handed, before⟩ := releases_after past here path lives ⟨_, atR, by simp [Cont.releases], undisturbed⟩
    rw [globals]
    by_cases self : r = p
    · subst self
      exact own.release_self current here path lives handed atR
    · have releasing := before.resolve_right fun begins => self begins.1
      obtain ⟨_, created⟩ := created_before past (began_after (fun c same => (self same).elim) ▸ undisturbed)
      exact own.release_other past waiters current here path lives handed self releasing (unblocking_other self atR)
        created

theorem OwnRecords.unmoved {a : Act} {s' : Sys} (own : t.OwnRecords m) (unmoved : t.Unmoved a s') :
    (t.stamp a s').OwnRecords m := by
  have waiters : ∀ {ρ waiting}, t.Own m ρ waiting → (t.stamp a s').Own m ρ waiting := by
    refine fun own => ⟨own.nodup, fun q member => ?_⟩
    obtain ⟨suspended, since⟩ := own.waiters q member
    exact ⟨(unmoved.blocked q _).trans suspended, by rwa [unmoved.created, unmoved.since]⟩
  have older : ∀ ρ, (t.stamp a s').olderIn m ρ = t.olderIn m ρ := by
    intro ρ
    cases ρ <;> simp [olderIn, stamp, Timed.older, handsOut, unmoved.globals]
  have releases : ∀ r, (t.stamp a s').Releases m r → t.Releases m r := by
    rintro r ⟨k, atR, inside, undisturbed⟩
    have before := unmoved.inside r k atR
    rw [unmoved.created, unmoved.began before] at undisturbed
    exact ⟨k, before, inside, undisturbed⟩
  refine ⟨fun ρ active slots => ?_, fun r inside => ?_, fun r r' first second => ?_, fun r i atR undisturbed => ?_⟩
  · rw [stamp_sys, unmoved.globals] at active slots ⊢
    rw [older]
    exact waiters (own.arrays ρ active slots)
  · rw [stamp_sys, unmoved.globals]
    exact own.inactive r (releases r inside)
  · exact own.unique r r' (releases r first) (releases r' second)
  · have before := unmoved.inside r _ atR
    rw [unmoved.created, unmoved.began before] at undisturbed
    rw [stamp_sys, unmoved.globals, older]
    exact waiters (own.release r i before undisturbed)

theorem boot_ownRecords (m : MboxId) : boot.OwnRecords m := by
  refine ⟨fun ρ _ _ => ?_, ?_, ?_, ?_⟩
  · rw [boot_array, List.drop_nil]
    exact .nil
  · rintro _ ⟨_, ⟨⟩, _⟩
  · rintro _ _ ⟨_, ⟨⟩, _⟩
  · rintro _ _ ⟨⟩

theorem Unwoken.unmoved {a : Act} {s' : Sys} (unwoken : t.Unwoken) (unmoved : t.Unmoved a s') :
    (t.stamp a s').Unwoken := by
  intro m q unused
  rw [Unused, unmoved.woken, unmoved.received] at unused
  obtain ⟨suspended, since⟩ := unwoken m q unused
  rw [unmoved.since, unmoved.received]
  exact ⟨(unmoved.blocked q _).trans suspended, since⟩

theorem Receivers.unmoved {a : Act} {s' : Sys} (receivers : t.Receivers m) (unmoved : t.Unmoved a s') :
    (t.stamp a s').Receivers m := by
  have older : (t.stamp a s').olderIn m .consumer = t.olderIn m .consumer := by
    simp [olderIn, stamp, Timed.older, handsOut, unmoved.globals]
  refine ⟨?_, ?_⟩
  · rw [unmoved.created, unmoved.received, unmoved.receiver, stamp_sys, unmoved.globals]
    exact receivers.pointed
  · rw [unmoved.created, unmoved.received, older, stamp_sys, unmoved.globals]
    exact receivers.listed

theorem receivers_of_run {guard : Timed → Act → Prop} (run : Transition.Run step guard boot t) :
    ∀ m, t.Receivers m := by
  refine invariant run (fun _ => past_of_run) (fun t => ∀ m, t.Receivers m) (fun m => ⟨fun entry => ?_, fun q => ?_⟩)
    ?_ ?_
  · intro pointed
    rw [boot, Sys.boot, phase2Init_eq, Globals.createMailbox_mailboxes, Function.update_apply] at pointed
    split at pointed <;> cases pointed
  · rw [boot_array, List.drop_nil]
    rintro ⟨⟩
  · intro t p pt seg past receivers _ here path _ lives m
    exact (receivers m).after past here path lives
  · intro t a s' _ receivers unmoved m
    exact (receivers m).unmoved unmoved

theorem ownRecords_of_run (run : Transition.Run step WakesOwn boot t) : (∀ m, t.OwnRecords m) ∧ t.Unwoken := by
  have base : ∀ t, Transition.Run step WakesOwn boot t → t.Past ∧ t.sys.globals.Sound ∧ ∀ m, t.Receivers m :=
    fun t run => ⟨past_of_run run, Sys.sound_of_run (sys_run run), receivers_of_run run⟩
  refine invariant run base (fun t => (∀ m, t.OwnRecords m) ∧ t.Unwoken)
    ⟨boot_ownRecords, fun _ _ unused => absurd unused (lt_irrefl _)⟩ ?_ ?_
  · rintro t p pt seg ⟨past, sound, receivers⟩ ⟨own, unwoken⟩ admitted here path ran lives
    have current : t.WakesCurrent p pt seg := by
      have runs := admitted pt ⟨p, rfl, here⟩
      rwa [Point.act_pid, ← ran] at runs
    have waiters : ∀ source pid k, seg.2 = .unblocks pid k → Follows t.sys.globals pt k.mbox seg.1 source pid →
        t.OwnWaiter k.mbox source.role pid := by
      intro source pid k names follows
      obtain ⟨g', outcome⟩ := seg
      obtain rfl := names
      exact (own k.mbox).current_waiter sound unwoken (receivers k.mbox) current here follows
    refine ⟨fun m => (own m).after past waiters current here path lives, ?_⟩
    refine Unwoken.after unwoken past here fun pid k names => ?_
    obtain ⟨g', outcome⟩ := seg
    obtain rfl := names
    obtain ⟨source, follows⟩ := path.follows
    exact ⟨source.role, (waiters source pid k rfl follows).1⟩
  · rintro t a s' _ ⟨own, unwoken⟩ unmoved
    exact ⟨fun m => (own m).unmoved unmoved, Unwoken.unmoved unwoken unmoved⟩

/-- While all pids come from current records, the mailbox layer wakes only
processes that are suspended on the mailbox itself, in its current life. -/
theorem wakes_own_waiters (run : Transition.Run step WakesOwn boot t) {a : Act} (admitted : t.WakesOwn a)
    (runs : t.sys.RunsFrom a pt) (wakes : pt.exec t.sys.globals a.pid = (g', .unblocks pid k)) :
    (t.sys.SuspendedSend k.mbox pid ∨ t.sys.SuspendedRecv k.mbox pid) ∧ t.created k.mbox < t.since pid := by
  have current := admitted pt runs
  obtain ⟨p, rfl, here⟩ := runs
  have path := Point.exec_path t.sys.globals p pt
  rw [Point.act_pid] at wakes current
  rw [wakes] at path current
  obtain ⟨source, follows⟩ := path.follows
  have sound := Sys.sound_of_run (sys_run run)
  obtain ⟨own, unwoken⟩ := ownRecords_of_run run
  obtain ⟨suspended, since⟩ :=
    (own k.mbox).current_waiter sound unwoken (receivers_of_run run k.mbox) current here follows
  refine ⟨?_, since⟩
  generalize source.role = ρ at suspended
  cases ρ with
  | producer => exact .inl suspended
  | consumer => exact .inr suspended

/-- A test for `WakesOwn` at a call other than a release. -/
def testWakesOwn (t : Timed) : Act → Bool
  | .call _ (.release _) => false
  | .call p c => match (c.start t.sys.globals p).2 with
    | .unblocks pid k => decide (t.olderProducers k.mbox = 0) && decide (t.olderConsumers k.mbox = 0) &&
        (decide ((t.sys.globals.mailboxes k.mbox).numSlots ≠ 0) ||
          decide (pid = t.receiver k.mbox) && decide (t.woken k.mbox pid < t.received k.mbox pid))
    | _ => true
  | _ => false

theorem WakesOwn.of_test {a : Act} (passes : t.testWakesOwn a = true) : t.WakesOwn a := by
  intro pt runs pid k source wakes follows
  cases a with
  | call p c =>
    obtain rfl := runs.of_call
    have started : ∀ {g₀ m stage}, ¬ ReleaseAt t.sys.globals (.start c) g₀ m stage := by
      intro g₀ m stage at_
      rcases at_.sameMail with ⟨start, _⟩ | ⟨⟨_, _, ⟨⟩⟩, _⟩
      rw [Point.start.inj start] at passes
      cases passes
    have tested : t.olderProducers k.mbox = 0 ∧ t.olderConsumers k.mbox = 0 ∧
        ((t.sys.globals.mailboxes k.mbox).numSlots = 0 → pid = t.receiver k.mbox ∧ t.Unused k.mbox pid) := by
      have wakes : (c.start t.sys.globals p).2 = .unblocks pid k := wakes
      cases c with
      | release => cases passes
      | _ =>
        simp only [testWakesOwn, wakes, Bool.and_eq_true, Bool.or_eq_true, decide_eq_true_eq] at passes
        exact ⟨passes.1.1, passes.1.2, passes.2.resolve_left ∘ not_not_intro⟩
    refine ⟨?_, by rintro _ ⟨⟩⟩
    cases follows with
    | @first ρ =>
      cases ρ with
      | producer => exact tested.1
      | consumer => exact tested.2.1
    | entry at_ | released at_ => exact (started at_).elim
    | matched _ _ zero => exact tested.2.2 zero
  | resume | yield | sleep | rouse => cases passes

/-- A receiver waits on the zero-slot mailbox 7. -/
def oneWaiter : List Act :=
  [.call 1 (.create 0 0 true), .call 1 (.recv 7 ⟨true, 0⟩)]

theorem wakes_own_waiters_run : ∃ t : Timed, (t.sys.SuspendedSend 7 1 ∨ t.sys.SuspendedRecv 7 1) ∧
    t.created 7 < t.since 1 := by
  obtain ⟨t, run, holds⟩ := Transition.exists_run step boot oneWaiter testWakesOwn (fun _ _ => WakesOwn.of_test)
    (fun t => t.sys.proc 2 = .outside && t.testWakesOwn (.call 2 (.send 7 none 0)) &&
      ((Point.start (.send 7 none 0)).exec t.sys.globals 2).2 = .unblocks 1 (.sendMatched 7)) (by decide +kernel)
  simp only [Bool.and_eq_true, decide_eq_true_eq] at holds
  obtain ⟨⟨out, passes⟩, wakes⟩ := holds
  have here : (t.sys.proc 2).At (.start (.send 7 none 0)) := by
    rw [out]
    exact .start
  exact ⟨t, wakes_own_waiters run (.of_test passes) ⟨2, rfl, here⟩ (Prod.ext rfl wakes)⟩

/-- A receiver is matched on the zero-slot mailbox 7 and then waits on the mailbox 8. -/
def waitsElsewhere : List Act :=
  [.call 1 (.create 0 0 true), .call 1 (.create 5 50 true), .call 1 (.recv 7 ⟨true, 0⟩), .call 2 (.send 7 none 0),
    .resume 1, .yield 1, .resume 2, .yield 2, .call 1 (.recv 8 ⟨true, 50⟩)]

/-- The release of the first mailbox wakes it from the second. -/
theorem wakes_other_waiter : ∃ t, Reaches waitsElsewhere t ∧ (t.sys.step (.call 2 (.release 7))).isSome = true ∧
    t.sys.RunsFrom (.call 2 (.release 7)) (.start (.release 7)) ∧
    (∃ g', (Point.start (.release 7)).exec t.sys.globals 2 = (g', .unblocks 1 (.releaseConsumers 7 1))) ∧
    t.sys.SuspendedRecv 8 1 ∧ ¬ t.sys.SuspendedSend 7 1 ∧ ¬ t.sys.SuspendedRecv 7 1 := by
  obtain ⟨t, reaches, holds⟩ := exists_reaches waitsElsewhere
    (fun t => (t.sys.step (.call 2 (.release 7))).isSome && t.sys.proc 2 = .outside &&
      t.sys.proc 1 = .blocked (.recvEmpty 8 ⟨true, 50⟩) &&
      ((Point.start (.release 7)).exec t.sys.globals 2).2 = .unblocks 1 (.releaseConsumers 7 1)) (by decide +kernel)
  simp only [Bool.and_eq_true, decide_eq_true_eq] at holds
  obtain ⟨⟨⟨moves, out⟩, waits⟩, wakes⟩ := holds
  have here : (t.sys.proc 2).At (.start (.release 7)) := by
    rw [out]
    exact .start
  refine ⟨t, reaches, moves, ⟨2, rfl, here⟩, ⟨_, Prod.ext rfl wakes⟩, ?_, ?_, ?_⟩
  · rw [Sys.SuspendedRecv, waits]
    rfl
  · rw [Sys.SuspendedSend, waits]
    decide
  · rw [Sys.SuspendedRecv, waits]
    decide

end Timed

end UslossKernel
