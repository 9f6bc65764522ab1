import UslossKernel.CallLines

namespace UslossKernel

variable {p q : Pid} {pt : Point} {seg : Segment} {m : MboxId} {ρ : Role} {kind : Wait → Bool}

theorem Proc.waitsIn_iff {proc : Proc} :
    proc.waitsIn kind = true ↔ proc.wokenIn kind = true ∨ proc.blockedIn kind = true := by
  cases proc <;> simp [Proc.waitsIn, Proc.wokenIn, Proc.blockedIn]

namespace Sys

variable {s : Sys}

/-- A stretch of code moves another process only if it wakes it. -/
theorem others_after (other : q ≠ p) (unwoken : ∀ k, seg.2 = .unblocks q k → (s.proc q).blockedIn kind = false) :
    ((s.after p pt seg).proc q).wokenIn kind = (s.proc q).wokenIn kind ∧
      ((s.after p pt seg).proc q).blockedIn kind = (s.proc q).blockedIn kind := by
  obtain ⟨g, outcome⟩ := seg
  cases outcome with
  | returns | blocks => simp [after, settle, Function.update_of_ne other]
  | unblocks pid k =>
    simp only [after, settle, enter_proc]
    by_cases named : q = pid
    · subst named
      rw [Function.update_self, Function.update_of_ne other, Proc.wake_wokenIn, Proc.wake_blockedIn, unwoken k rfl]
      exact ⟨Bool.or_false _, rfl⟩
    · rw [Function.update_of_ne named, Function.update_of_ne other]
      exact ⟨rfl, rfl⟩
  | faults => simp [after, settle]

/-- The process that ran it is not on the way any more. -/
theorem own_after (s : Sys) (p : Pid) (pt : Point) (seg : Segment) (kind : Wait → Bool)
    (lives : ∀ f, seg.2 ≠ .faults f) : ((s.after p pt seg).proc p).wokenIn kind = false ∧
    ((s.after p pt seg).proc p).blockedIn kind = seg.2.waitsIn kind := by
  obtain ⟨g, outcome⟩ := seg
  cases outcome with
  | returns | blocks => simp [after, settle, Outcome.waitsIn]
  | unblocks pid k =>
    rw [unblocks_self]
    exact ⟨rfl, rfl⟩
  | faults f => exact absurd rfl (lives f)

theorem calls_length (fn : Fn) : (s.calls fn).length ≤ ((s.after p pt seg).calls fn).length := by
  rw [after_calls]
  exact (calls_grow fn).length_le

end Sys

namespace Timed

variable {t : Timed} {onTheWay : List Pid}

/-- Those who wait in this role on `m`, first the ones that have been woken, in
the order in which they were, and then the ones on record, are in the order of
their calls. There is a place or a message for each that has been woken, and
for no more of them. -/
structure Line (m : MboxId) (ρ : Role) (t : Timed) (onTheWay : List Pid) : Prop where
  woken : ∀ q, q ∈ onTheWay ↔ (t.sys.proc q).wokenIn (ρ.waits m) = true
  waiting : ∀ q, q ∈ ρ.array t.sys.globals m ↔ t.Suspended m ρ q
  inTurn : onTheWay.Pairwise fun a b => t.woken m a < t.woken m b
  inOrder : (onTheWay ++ ρ.array t.sys.globals m).Pairwise fun a b => t.sys.ordinal a < t.sys.ordinal b
  numbered : ∀ q ∈ onTheWay ++ ρ.array t.sys.globals m, t.sys.ordinal q < (t.sys.calls (ρ.fn m)).length
  enough : onTheWay.length ≤ ρ.offers t.sys.globals m
  full : ρ.array t.sys.globals m ≠ [] → onTheWay.length = ρ.offers t.sys.globals m

namespace Line

theorem not_mem (line : t.Line m ρ onTheWay) (here : (t.sys.proc p).At pt) : p ∉ ρ.array t.sys.globals m := by
  intro member
  have suspended := (line.waiting p).mp member
  rw [Suspended, here.blockedIn] at suspended
  cases suspended

theorem mem_iff (line : t.Line m ρ onTheWay) (here : (t.sys.proc p).At pt) :
    p ∈ onTheWay ↔ pt.resumesIn (ρ.waits m) = true := by
  rw [line.woken, here.wokenIn]

theorem member (line : t.Line m ρ onTheWay) {j : Nat} (held : t.sys.turn (ρ.waits m) q = some j) :
    q ∈ onTheWay ++ ρ.array t.sys.globals m ∧ t.sys.ordinal q = j := by
  unfold Sys.turn at held
  split at held
  · rename_i waits
    refine ⟨List.mem_append.mpr ?_, Option.some.inj held⟩
    exact (Proc.waitsIn_iff.mp waits).imp (line.woken q).mpr (line.waiting q).mpr
  · cases held

/-- Who was woken before the others is the first in the line. -/
theorem first (line : t.Line m ρ onTheWay) (member : p ∈ onTheWay)
    (earliest : ∀ q ∈ onTheWay, q ≠ p → t.woken m p < t.woken m q) : ∃ rest, onTheWay = p :: rest := by
  cases onTheWay with
  | nil => cases member
  | cons a rest =>
    refine ⟨rest, ?_⟩
    by_contra other
    have away : a ≠ p := fun same => other (by rw [same])
    have later := earliest a (List.mem_cons_self ..) away
    have earlier := (List.pairwise_cons.mp line.inTurn).1 p ((List.mem_cons.mp member).resolve_left away.symm)
    omega

/-- Nobody waits while there is something for a newcomer. -/
theorem empty (line : t.Line m ρ []) (offered : ρ.offers t.sys.globals m ≠ 0) : ρ.array t.sys.globals m = [] := by
  by_contra some
  exact offered (line.full some).symm

theorem ordinal_kept (line : t.Line m ρ onTheWay) (here : (t.sys.proc p).At pt)
    (member : q ∈ onTheWay ++ ρ.array t.sys.globals m) : (t.after p pt seg).sys.ordinal q = t.sys.ordinal q := by
  rw [after_sys, Sys.after_ordinal]
  by_cases self : q = p
  · subst self
    rcases List.mem_append.mp member with way | recorded
    · have resumes := (line.mem_iff here).mp way
      cases pt with
      | afterBlock => rfl
      | start | afterUnblock => cases resumes
    · exact absurd recorded (line.not_mem here)
  · exact Sys.enter_ordinal self

theorem woken_kept (line : t.Line m ρ onTheWay) (member : q ∈ onTheWay) :
    (t.after p pt seg).woken m q = t.woken m q := by
  have woken := (line.woken q).mp member
  exact Timed.woken_kept (by cases atQ : t.sys.proc q <;> simp_all)

/-- A stretch of code that wakes none of them, and after which its process does not wait. -/
theorem settles {left : List Pid} (line : t.Line m ρ onTheWay) (here : (t.sys.proc p).At pt)
    (lives : ∀ f, seg.2 ≠ .faults f) (shorter : left.Sublist onTheWay)
    (members : ∀ q, q ∈ left ↔ q ∈ onTheWay ∧ q ≠ p) (array : ρ.array seg.1 m = ρ.array t.sys.globals m)
    (done : seg.2.waitsIn (ρ.waits m) = false) (unwoken : ∀ pid k, seg.2 = .unblocks pid k → ¬ t.Suspended m ρ pid)
    (enough : left.length ≤ ρ.offers seg.1 m) (full : ρ.array seg.1 m ≠ [] → left.length = ρ.offers seg.1 m) :
    (t.after p pt seg).Line m ρ left := by
  have globals : (t.after p pt seg).sys.globals = seg.1 := Sys.after_globals lives
  have others : ∀ q, q ≠ p → ((t.sys.after p pt seg).proc q).wokenIn (ρ.waits m) = (t.sys.proc q).wokenIn (ρ.waits m) ∧
      ((t.sys.after p pt seg).proc q).blockedIn (ρ.waits m) = (t.sys.proc q).blockedIn (ρ.waits m) :=
    fun q other => Sys.others_after other fun k names => Bool.eq_false_iff.mpr (unwoken q k names)
  obtain ⟨gone, calm⟩ := Sys.own_after t.sys p pt seg (ρ.waits m) lives
  have sublist : (left ++ ρ.array seg.1 m).Sublist (onTheWay ++ ρ.array t.sys.globals m) :=
    array ▸ shorter.append (List.Sublist.refl _)
  have kept : ∀ q ∈ left ++ ρ.array seg.1 m, (t.after p pt seg).sys.ordinal q = t.sys.ordinal q :=
    fun q member => line.ordinal_kept here (sublist.subset member)
  refine ⟨fun q => ?_, fun q => ?_, ?_, ?_, fun q member => ?_, ?_, ?_⟩
  · rw [members, line.woken]
    by_cases self : q = p
    · subst self
      simp [gone]
    · rw [after_sys, (others q self).1]
      exact and_iff_left self
  · rw [globals, array, line.waiting]
    by_cases self : q = p
    · subst self
      rw [Suspended, here.blockedIn, Suspended, after_sys, calm, done]
    · rw [Suspended, Suspended, after_sys, (others q self).2]
  · refine (line.inTurn.sublist shorter).imp_of_mem fun atA atB before => ?_
    rwa [line.woken_kept (shorter.subset atA), line.woken_kept (shorter.subset atB)]
  · rw [globals]
    refine (line.inOrder.sublist sublist).imp_of_mem fun atA atB before => ?_
    rwa [kept _ atA, kept _ atB]
  · rw [globals] at member
    rw [kept q member]
    exact (line.numbered q (sublist.subset member)).trans_le (Sys.calls_length _)
  · rwa [globals]
  · rwa [globals]

/-- The process is suspended behind the others. -/
theorem joins {w : Wait} {g' : Globals} (line : t.Line m ρ []) (here : (t.sys.proc p).At pt)
    (starts : ∃ c, pt = .start c) (queues : pt.queues (ρ.waits m) (ρ.fn m) = true) (waits : ρ.waits m w = true)
    (array : ρ.array g' m = ρ.array t.sys.globals m ++ [p]) (none : ρ.offers g' m = 0) :
    (t.after p pt (g', .blocks w)).Line m ρ [] := by
  have others : ∀ q, q ≠ p →
      ((t.sys.after p pt (g', .blocks w)).proc q).wokenIn (ρ.waits m) = (t.sys.proc q).wokenIn (ρ.waits m) ∧
      ((t.sys.after p pt (g', .blocks w)).proc q).blockedIn (ρ.waits m) = (t.sys.proc q).blockedIn (ρ.waits m) :=
    fun q other => Sys.others_after other (by rintro _ ⟨⟩)
  obtain ⟨gone, held⟩ := Sys.own_after t.sys p pt (g', .blocks w) (ρ.waits m) (by rintro _ ⟨⟩)
  obtain ⟨c, rfl⟩ := starts
  have fn : c.fn = ρ.fn m := of_decide_eq_true queues
  have number : (t.after p (.start c) (g', .blocks w)).sys.ordinal p = (t.sys.calls (ρ.fn m)).length := by
    rw [after_sys, Sys.after_ordinal, ← fn]
    exact Function.update_self ..
  have total : ((t.after p (.start c) (g', .blocks w)).sys.calls (ρ.fn m)).length =
      (t.sys.calls (ρ.fn m)).length + 1 := by
    rw [after_sys, Sys.after_calls, ← fn]
    simp [Sys.enter]
  have earlier : ∀ q ∈ ρ.array t.sys.globals m,
      (t.after p (.start c) (g', .blocks w)).sys.ordinal q < (t.sys.calls (ρ.fn m)).length := by
    intro q member
    rw [line.ordinal_kept here (List.mem_append_right _ member)]
    exact line.numbered q (List.mem_append_right _ member)
  refine ⟨fun q => ?_, fun q => ?_, .nil, ?_, fun q member => ?_, Nat.zero_le _, fun _ => none.symm⟩
  · rw [line.woken]
    by_cases self : q = p
    · subst self
      rw [here.wokenIn, after_sys, gone]
      rfl
    · rw [after_sys, (others q self).1]
  · change q ∈ ρ.array g' m ↔ _
    rw [array, List.mem_append, List.mem_singleton, line.waiting]
    by_cases self : q = p
    · subst self
      simp [Suspended, held, Outcome.waitsIn, waits]
    · rw [Suspended, Suspended, after_sys, (others q self).2]
      exact or_iff_left self
  · change ([] ++ ρ.array g' m).Pairwise _
    rw [array, List.nil_append, List.pairwise_append]
    refine ⟨?_, List.pairwise_singleton .., fun a member b last => ?_⟩
    · refine List.Pairwise.imp_of_mem (fun {a b} atA atB before => ?_) line.inOrder
      rwa [line.ordinal_kept here atA, line.ordinal_kept here atB]
    · rw [List.mem_singleton.mp last, number]
      exact earlier a member
  · change q ∈ [] ++ ρ.array g' m at member
    rw [array, List.nil_append] at member
    rw [total]
    rcases List.mem_append.mp member with before | last
    · exact Nat.lt_succ_of_lt (earlier q before)
    · rw [List.mem_singleton.mp last, number]
      exact Nat.lt_succ_self _

/-- The first on record is woken, as the last of those who have been. -/
theorem wakes {pid : Pid} {rest : List Pid} {g' : Globals} {k : Cont} (line : t.Line m ρ onTheWay) (past : t.Past)
    (here : (t.sys.proc p).At pt) (mbox : k.mbox = m) (recorded : ρ.array t.sys.globals m = pid :: rest)
    (left : ρ.array g' m = rest) (more : ρ.offers g' m = ρ.offers t.sys.globals m + 1)
    (away : p ∉ onTheWay) : (t.after p pt (g', .unblocks pid k)).Line m ρ (onTheWay ++ [pid]) := by
  have suspended : t.Suspended m ρ pid := (line.waiting pid).mp (recorded ▸ List.mem_cons_self ..)
  have ordered := line.inOrder
  rw [recorded] at ordered
  have distinct : pid ∉ rest := by
    intro member
    exact lt_irrefl _ ((List.pairwise_cons.mp (List.pairwise_append.mp ordered).2.1).1 pid member)
  have others : ∀ q, q ≠ p → q ≠ pid →
      ((t.sys.after p pt (g', .unblocks pid k)).proc q).wokenIn (ρ.waits m) = (t.sys.proc q).wokenIn (ρ.waits m) ∧
      ((t.sys.after p pt (g', .unblocks pid k)).proc q).blockedIn (ρ.waits m) =
        (t.sys.proc q).blockedIn (ρ.waits m) := by
    refine fun q other unnamed => Sys.others_after other ?_
    rintro _ ⟨⟩
    exact absurd rfl unnamed
  have other : pid ≠ p := awake here suspended
  have named := Sys.unblocks_named t.sys other pt g' k
  have gone := (Sys.own_after t.sys p pt (g', .unblocks pid k) (ρ.waits m) (by rintro _ ⟨⟩)).1
  have same : onTheWay ++ [pid] ++ ρ.array g' m = onTheWay ++ ρ.array t.sys.globals m := by
    rw [left, recorded, List.append_assoc, List.singleton_append]
  have kept : ∀ {q}, q ∈ onTheWay ++ ρ.array t.sys.globals m →
      (t.after p pt (g', .unblocks pid k)).sys.ordinal q = t.sys.ordinal q := line.ordinal_kept here
  have last := woken_unblocks pt g' k other suspended
  rw [mbox] at last
  refine ⟨fun q => ?_, fun q => ?_, ?_, ?_, fun q member => ?_, ?_, fun some => ?_⟩
  · rw [List.mem_append, List.mem_singleton, line.woken]
    by_cases self : q = p
    · subst self
      rw [after_sys, gone, ← line.woken]
      simp [away, other.symm]
    · by_cases first : q = pid
      · subst first
        have waits : (t.sys.proc q).blockedIn (ρ.waits m) = true := suspended
        simp [named, Proc.wake_wokenIn, waits]
      · rw [after_sys, (others q self first).1]
        exact or_iff_left first
  · change q ∈ ρ.array g' m ↔ _
    rw [left]
    have whole := line.waiting q
    rw [recorded, List.mem_cons] at whole
    by_cases first : q = pid
    · subst first
      rw [Suspended, after_sys, named, Proc.wake_blockedIn]
      simp [distinct]
    · rw [or_iff_right first] at whole
      rw [whole]
      by_cases self : q = p
      · subst self
        have calm := (Sys.own_after t.sys q pt (g', .unblocks pid k) (ρ.waits m) (by rintro _ ⟨⟩)).2
        rw [Suspended, here.blockedIn, Suspended, after_sys, calm]
        rfl
      · rw [Suspended, Suspended, after_sys, (others q self first).2]
  · refine List.pairwise_append.mpr ⟨?_, List.pairwise_singleton .., fun a member b single => ?_⟩
    · refine line.inTurn.imp_of_mem fun atA atB earlier => ?_
      rwa [line.woken_kept atA, line.woken_kept atB]
    · rw [List.mem_singleton.mp single, last, line.woken_kept member]
      exact Nat.lt_succ_of_le (past.woken m a)
  · change (onTheWay ++ [pid] ++ ρ.array g' m).Pairwise _
    rw [same]
    refine line.inOrder.imp_of_mem fun atA atB earlier => ?_
    rwa [kept atA, kept atB]
  · change q ∈ onTheWay ++ [pid] ++ ρ.array g' m at member
    rw [same] at member
    rw [kept member]
    refine (line.numbered q member).trans_le ?_
    rw [after_sys]
    exact Sys.calls_length _
  · change (onTheWay ++ [pid]).length ≤ ρ.offers g' m
    rw [more, List.length_append]
    exact Nat.succ_le_succ line.enough
  · change (onTheWay ++ [pid]).length = ρ.offers g' m
    rw [more, List.length_append, line.full (by rw [recorded]; exact List.cons_ne_nil _ _)]
    rfl

end Line

/-- The sends and receives on `m` take turns: in either role those who have
been woken resume in the order in which they were, no call begins while one is
on the way, who is suspended finds room in the array, a send finds the pointer
set if a receiver is on record, and no other mailbox wakes those who wait. -/
structure TakesTurns (m : MboxId) (t : Timed) (a : Act) : Prop extends Sys.SendsAndReceives m t.sys a where
  resumes : ∀ (ρ : Role) w, t.sys.RunsFrom a (.afterBlock w) → ρ.waits m w = true →
    ∀ q, q ≠ a.pid → (t.sys.proc q).wokenIn (ρ.waits m) = true → t.woken m a.pid < t.woken m q
  enters : ∀ (ρ : Role) p c, a = .call p c → c.fn = ρ.fn m → ∀ q, (t.sys.proc q).wokenIn (ρ.waits m) = false
  room : ∀ (ρ : Role) pt w, t.sys.RunsFrom a pt → (pt.exec t.sys.globals a.pid).2 = .blocks w → ρ.waits m w = true →
    (ρ.array t.sys.globals m).length < ρ.limit
  pointed : t.sys.StoresInto a m → t.sys.globals.blockedConsumers m ≠ [] →
    (t.sys.globals.mailboxes m).consumers ≠ none
  own : ∀ pt pid k, t.sys.RunsFrom a pt → (pt.exec t.sys.globals a.pid).2 = .unblocks pid k →
    t.sys.SuspendedSend m pid ∨ t.sys.SuspendedRecv m pid → k.mbox = m

/-- Both lines of `m` are in order. -/
def InLine (m : MboxId) (t : Timed) : Prop :=
  ∀ ρ, ∃ onTheWay, t.Line m ρ onTheWay

variable {a : Act}

/-- Nobody has been woken when a call begins. -/
theorem TakesTurns.none_woken (turns : t.TakesTurns m a) (line : t.Line m ρ onTheWay) {c : Call}
    (starts : a = .call p c) (fn : c.fn = ρ.fn m) : onTheWay = [] := by
  refine List.eq_nil_iff_forall_not_mem.mpr fun q member => ?_
  have woken := (line.woken q).mp member
  rw [turns.enters ρ p c starts fn q] at woken
  cases woken

/-- Who resumes is the first in the line. -/
theorem TakesTurns.first (turns : t.TakesTurns m (pt.act p)) (line : t.Line m ρ onTheWay) (here : (t.sys.proc p).At pt)
    {w : Wait} (resumes : pt = .afterBlock w) (waits : ρ.waits m w = true) : ∃ rest, onTheWay = p :: rest := by
  subst resumes
  refine line.first ((line.mem_iff here).mpr waits) fun q member other => ?_
  have later := turns.resumes ρ w ⟨p, rfl, here⟩ waits q (by rwa [Point.act_pid]) ((line.woken q).mp member)
  rwa [Point.act_pid] at later

/-- No call made before this one still waits when there is something for it. -/
theorem TakesTurns.foremost (turns : t.TakesTurns m (pt.act p)) (line : t.Line m ρ onTheWay)
    (here : (t.sys.proc p).At pt) (queues : pt.queues (ρ.waits m) (ρ.fn m) = true)
    (offered : ρ.offers t.sys.globals m ≠ 0) : t.sys.Foremost (ρ.waits m) p pt := by
  intro q other j held
  obtain ⟨member, rfl⟩ := line.member held
  cases pt with
  | start c =>
    obtain rfl := turns.none_woken line rfl (of_decide_eq_true queues)
    rw [line.empty offered] at member
    cases member
  | afterBlock w =>
    obtain ⟨rest, rfl⟩ := turns.first line here rfl queues
    have inOrder := line.inOrder
    rw [List.cons_append, List.pairwise_cons] at inOrder
    rw [List.cons_append] at member
    exact inOrder.1 q ((List.mem_cons.mp member).resolve_left other)
  | afterUnblock => cases queues

/-- A woken receiver finds a message. -/
theorem TakesTurns.found (turns : t.TakesTurns m (pt.act p)) (inLine : t.InLine m) (here : (t.sys.proc p).At pt)
    {buffer : Buffer} (resumes : pt = .afterBlock (.recvEmpty m buffer)) :
    (t.sys.globals.mailboxSlotQueues m).count ≠ 0 := by
  obtain ⟨onTheWay, line⟩ := inLine .consumer
  obtain ⟨rest, rfl⟩ := turns.first line here resumes (by simp [Role.waits, Wait.receivesFrom])
  have enough := line.enough
  rw [List.length_cons, Role.offers] at enough
  omega

theorem TakesTurns.inCallOrder (turns : t.TakesTurns m a) (inLine : t.InLine m) : Sys.InCallOrder m t.sys a where
  toSendsAndReceives := turns.toSendsAndReceives
  sends := by
    rintro pt msg k ⟨p, rfl, here⟩ at_
    obtain ⟨onTheWay, line⟩ := inLine .producer
    obtain ⟨queues, _, room⟩ := at_.queues turns.plain
    rw [Point.act_pid]
    exact turns.foremost line here queues (Nat.sub_ne_zero_of_lt room)
  receives := by
    rintro pt g₀ buffer k ⟨p, rfl, here⟩ at_
    obtain ⟨onTheWay, line⟩ := inLine .consumer
    obtain ⟨queues, _, occupied⟩ := at_.queues turns.plain
    rw [Point.act_pid]
    exact turns.foremost line here queues occupied.ne'
  found := by
    rintro buffer ⟨p, rfl, here⟩
    exact turns.found inLine here rfl

theorem nobody_waits (lasting : t.sys.Lasting m) (inactive : (t.sys.globals.mailboxes m).isActive = false)
    (line : t.Line m ρ onTheWay) : onTheWay = [] ∧ ρ.array t.sys.globals m = [] := by
  have nobody : ∀ q, (t.sys.proc q).waitsIn (ρ.waits m) ≠ true := by
    intro q waits
    have fits := lasting.2 q
    cases atQ : t.sys.proc q with
    | blocked w | woken w =>
      rw [atQ] at waits fits
      have mbox := Role.waits_mbox (ρ := ρ) (by simpa [Proc.waitsIn] using waits)
      have active := (fits mbox).1
      rw [mbox, inactive] at active
      cases active
    | outside | asleep | unblocking => simp [atQ, Proc.waitsIn] at waits
  refine ⟨List.eq_nil_iff_forall_not_mem.mpr fun q member => ?_,
    List.eq_nil_iff_forall_not_mem.mpr fun q member => ?_⟩
  · exact nobody q (Proc.waitsIn_iff.mpr (.inl ((line.woken q).mp member)))
  · exact nobody q (Proc.waitsIn_iff.mpr (.inr ((line.waiting q).mp member)))

section

variable (turns : t.TakesTurns m (pt.act p)) (line : t.Line m ρ onTheWay) (here : (t.sys.proc p).At pt)
include turns line here

/-- Whoever is served leaves the line at its front, or was never in it. -/
theorem TakesTurns.line_serves (lives : ∀ f, seg.2 ≠ .faults f) (queues : pt.queues (ρ.waits m) (ρ.fn m) = true)
    (done : seg.2.waitsIn (ρ.waits m) = false) (array : ρ.array seg.1 m = ρ.array t.sys.globals m)
    (offers : ρ.offers t.sys.globals m = ρ.offers seg.1 m + 1)
    (unwoken : ∀ pid k, seg.2 = .unblocks pid k → ¬ t.Suspended m ρ pid) :
    ∃ left, (t.after p pt seg).Line m ρ left := by
  cases pt with
  | start c =>
    obtain rfl := turns.none_woken line rfl (of_decide_eq_true queues)
    refine ⟨[], line.settles here lives (.refl _) (by simp) array done unwoken (Nat.zero_le _) fun some => ?_⟩
    exact absurd (array.trans (line.empty (by omega))) some
  | afterBlock w =>
    obtain ⟨rest, rfl⟩ := turns.first line here rfl queues
    have absent : p ∉ rest := fun member => lt_irrefl _ ((List.pairwise_cons.mp line.inTurn).1 p member)
    have enough := line.enough
    rw [List.length_cons] at enough
    refine ⟨rest, line.settles here lives (List.sublist_cons_self ..) (fun q => ?_) array done unwoken (by omega)
      fun some => ?_⟩
    · rw [List.mem_cons]
      exact ⟨fun member => ⟨.inr member, fun same => absent (same ▸ member)⟩, fun ⟨either, other⟩ =>
        either.resolve_left other⟩
    · have full := line.full (array ▸ some)
      rw [List.length_cons] at full
      omega
  | afterUnblock => cases queues

/-- Who is suspended has just begun its call: a woken one finds something. -/
theorem TakesTurns.line_joins {w : Wait} {g' : Globals} (path : Path t.sys.globals p pt (g', .blocks w))
    (queues : pt.queues (ρ.waits m) (ρ.fn m) = true) (waits : ρ.waits m w = true)
    (none : ρ.offers t.sys.globals m = 0) (still : ρ.offers g' m = 0)
    (room : (ρ.array t.sys.globals m).length < ρ.limit) : ∃ left, (t.after p pt (g', .blocks w)).Line m ρ left := by
  obtain ⟨c, rfl⟩ : ∃ c, pt = .start c := by
    cases pt with
    | start c => exact ⟨c, rfl⟩
    | afterBlock w =>
      obtain ⟨rest, rfl⟩ := turns.first line here rfl queues
      have enough := line.enough
      rw [List.length_cons] at enough
      omega
    | afterUnblock => cases queues
  obtain rfl := turns.none_woken line rfl (of_decide_eq_true queues)
  refine ⟨[], line.joins here ⟨c, rfl⟩ queues waits ?_ still⟩
  have requeue : Requeue ρ m _ _ _ _ (ρ.array g' m) := path.requeue (by rintro _ ⟨⟩)
  generalize ρ.array g' m = waiting' at requeue ⊢
  cases requeue with
  | keeps apart =>
    rw [apart w rfl] at waits
    cases waits
  | joins _ _ _ _ longer => exact longer (line.not_mem here) room
  | pops _ wakes => cases wakes
  | empties _ _ blockless => exact absurd rfl (blockless w)

/-- What becomes of the line for one of the roles. -/
theorem TakesTurns.line_after (inLine : t.InLine m) (past : t.Past) (lasting : t.sys.Lasting m)
    (path : Path t.sys.globals p pt seg) (ran : seg = pt.exec t.sys.globals p) (lives : ∀ f, seg.2 ≠ .faults f) :
    ∃ left, (t.after p pt seg).Line m ρ left := by
  have runs : t.sys.RunsFrom (pt.act p) pt := ⟨p, rfl, here⟩
  have step : LineStep ρ m t.sys.globals pt seg := by
    refine path.lineStep lives lasting.1 here (lasting.2 p) turns.plain ?_ ?_ ?_
    · exact fun g₀ buffer k at_ => turns.large buffer ⟨pt, g₀, k, runs, at_⟩
    · exact fun buffer resumes => turns.found inLine here resumes
    · exact fun msg k at_ => turns.pointed ⟨pt, msg, k, runs, at_⟩
  -- a call on `m` wakes those of the other role, a call elsewhere none of this
  have unwoken : (∀ pid k, seg.2 = .unblocks pid k → k.mbox = m → pid ∈ ρ.other.array t.sys.globals m) →
      ∀ pid k, seg.2 = .unblocks pid k → ¬ t.Suspended m ρ pid := by
    intro named pid k names suspended
    obtain ⟨others, opposite⟩ := inLine ρ.other
    have mbox := turns.own pt pid k runs (by rw [Point.act_pid, ← ran, names]) (by
      cases ρ
      · exact .inl suspended
      · exact .inr suspended)
    have same := (Suspended.unique suspended ((opposite.waiting pid).mp (named pid k names mbox))).1
    cases ρ <;> cases same
  have stays : pt.queues (ρ.waits m) (ρ.fn m) = false → p ∉ onTheWay := by
    intro queues member
    have resumes := (line.mem_iff here).mp member
    cases pt with
    | afterBlock => exact Bool.false_ne_true (queues.symm.trans resumes)
    | start | afterUnblock => cases resumes
  cases step with
  | serves queues done array offers named =>
    exact turns.line_serves line here lives queues done array offers (unwoken named)
  | @joins w queues blocks waits none still =>
    have room := turns.room ρ _ w runs (by rw [Point.act_pid, ← ran, blocks]) waits
    obtain ⟨g', outcome⟩ := seg
    obtain rfl := blocks
    exact turns.line_joins line here path queues waits none still room
  | @wakes pid rest k queues names mbox recorded left more =>
    obtain ⟨g', outcome⟩ := seg
    obtain rfl := names
    exact ⟨_, line.wakes past here mbox recorded left more (stays queues)⟩
  | apart queues done array more same named =>
    have away := stays queues
    refine ⟨onTheWay, line.settles here lives (.refl _) (fun q => ?_) array done (unwoken named)
      (line.enough.trans more) fun some => ?_⟩
    · exact ⟨fun member => ⟨member, fun same => away (same ▸ member)⟩, And.left⟩
    · have before := array ▸ some
      exact (line.full before).trans (same before).symm
  | inactive dead queues done array away =>
    obtain ⟨rfl, none⟩ := nobody_waits lasting dead line
    refine ⟨[], line.settles here lives (.refl _) (by simp) array done ?_ (Nat.zero_le _) fun some => ?_⟩
    · exact unwoken fun pid k names mbox => absurd mbox (away pid k names)
    · exact absurd (array.trans none) some

end

theorem Line.unmoved {s' : Sys} (line : t.Line m ρ onTheWay) (unmoved : t.Unmoved a s') :
    (t.stamp a s').Line m ρ onTheWay := by
  have woken : ∀ q kind, (s'.proc q).wokenIn kind = (t.sys.proc q).wokenIn kind := by
    intro q kind
    have waits := unmoved.waits q kind
    have blocked := unmoved.blocked q kind
    have all := unmoved.blocked q fun _ => true
    cases atQ : s'.proc q <;> cases was : t.sys.proc q <;>
      simp_all [Proc.waitsIn, Proc.blockedIn, Proc.wokenIn]
  have kept : ∀ q ∈ onTheWay ++ ρ.array t.sys.globals m, s'.ordinal q = t.sys.ordinal q := by
    intro q member
    refine unmoved.ordinal q (ρ.waits m) (Proc.waitsIn_iff.mpr ?_)
    exact (List.mem_append.mp member).imp (line.woken q).mp (line.waiting q).mp
  refine ⟨fun q => ?_, fun q => ?_, ?_, ?_, fun q member => ?_, ?_, ?_⟩
  · rw [line.woken, stamp_sys, woken]
  · rw [stamp_sys, unmoved.globals, line.waiting, Suspended, Suspended, stamp_sys, unmoved.blocked]
  · rw [unmoved.woken]
    exact line.inTurn
  · rw [stamp_sys, unmoved.globals]
    refine line.inOrder.imp_of_mem fun atA atB before => ?_
    rwa [kept _ atA, kept _ atB]
  · rw [stamp_sys, unmoved.globals] at member
    rw [stamp_sys, kept q member]
    exact (line.numbered q member).trans_le (unmoved.calls _)
  · rw [stamp_sys, unmoved.globals]
    exact line.enough
  · rw [stamp_sys, unmoved.globals]
    exact line.full

theorem Line.boot (m : MboxId) (ρ : Role) : boot.Line m ρ [] where
  woken q := by
    change q ∈ [] ↔ Proc.outside.wokenIn (ρ.waits m) = true
    simp
  waiting q := by
    rw [boot_array]
    change q ∈ [] ↔ Proc.outside.blockedIn (ρ.waits m) = true
    simp
  inTurn := .nil
  inOrder := by
    rw [boot_array]
    exact .nil
  numbered q member := by
    rw [boot_array] at member
    cases member
  enough := Nat.zero_le _
  full some := absurd (boot_array ρ m) some

theorem lasting_of_turns (run : Transition.Run step (TakesTurns m) boot t) : t.sys.Lasting m :=
  Sys.lasting_of_run (sys_run_under run fun _ _ _ turns => turns.unreleased)

theorem inLine_of_run (run : Transition.Run step (TakesTurns m) boot t) : t.InLine m := by
  have base : ∀ t, Transition.Run step (TakesTurns m) boot t → t.Past ∧ t.sys.Lasting m :=
    fun t run => ⟨past_of_run run, lasting_of_turns run⟩
  refine invariant run base (InLine m) (fun ρ => ⟨[], .boot m ρ⟩) ?_ ?_
  · rintro t p pt seg ⟨past, lasting⟩ inLine turns here path ran lives ρ
    obtain ⟨onTheWay, line⟩ := inLine ρ
    exact turns.line_after line here inLine past lasting path ran lives
  · rintro t a s' _ inLine unmoved ρ
    obtain ⟨onTheWay, line⟩ := inLine ρ
    exact ⟨onTheWay, line.unmoved unmoved⟩

/-- First come, first served, in every run in which the calls take turns. -/
theorem first_come_first_served {m : MboxId} {t : Timed} (run : Transition.Run step (TakesTurns m) boot t) :
    t.sys.FirstComeFirstServed m :=
  Sys.served_in_call_order (sys_run_under run fun _ _ sofar turns => turns.inCallOrder (inLine_of_run sofar))

/-- Where the action runs on from. -/
def pointOf (s : Sys) : Act → Option Point
  | .call _ c => some (.start c)
  | .resume p => match s.proc p with
    | .woken w => some (.afterBlock w)
    | .unblocking k => some (.afterUnblock k)
    | _ => none
  | _ => none

theorem pointOf_eq {s : Sys} (runs : s.RunsFrom a pt) : pointOf s a = some pt := by
  obtain ⟨p, rfl, here⟩ := runs
  cases pt with
  | start c => rfl
  | afterBlock w => simp [Point.act, pointOf, here.woken_eq]
  | afterUnblock k => simp [Point.act, pointOf, here.unblocking_eq]

/-- The tests of `TakesTurns` for the mailbox 7 at a point in the code, where
only these actions have been taken. -/
def testTurn (actions : List Act) (t : Timed) (p : Pid) (pt : Point) (ρ : Role) : Bool :=
  let onTheWay (q : Pid) := (t.sys.proc q).wokenIn (ρ.waits 7)
  (match pt with
    | .start c => c.fn ≠ ρ.fn 7 || actions.all fun b => !onTheWay b.pid
    | .afterBlock w => !ρ.waits 7 w ||
      actions.all fun b => b.pid = p || !onTheWay b.pid || decide (t.woken 7 p < t.woken 7 b.pid)
    | .afterUnblock _ => true) &&
  match (pt.exec t.sys.globals p).2 with
  | .blocks w => !ρ.waits 7 w || decide ((ρ.array t.sys.globals 7).length < ρ.limit)
  | .unblocks _ k => k.mbox = 7
  | _ => true

def testTakesTurns (actions : List Act) (t : Timed) (a : Act) : Bool :=
  t.sys.testSendsAndReceives a &&
  (t.sys.globals.blockedConsumers 7 = [] || (t.sys.globals.mailboxes 7).consumers.isSome) &&
  (pointOf t.sys a).all fun pt => [Role.producer, .consumer].all (t.testTurn actions a.pid pt)

theorem TakesTurns.of_test {actions : List Act} (apart : t.sys.Within actions)
    (passes : t.testTakesTurns actions a = true) : t.TakesTurns 7 a := by
  simp only [testTakesTurns, Bool.and_eq_true] at passes
  obtain ⟨⟨plain, pointed⟩, turn⟩ := passes
  have tested : ∀ {pt}, t.sys.RunsFrom a pt → ∀ ρ, t.testTurn actions a.pid pt ρ = true := by
    intro pt runs ρ
    rw [pointOf_eq runs] at turn
    exact List.all_eq_true.mp turn ρ (by cases ρ <;> simp)
  have within : ∀ {q : Pid} {ρ : Role}, (t.sys.proc q).wokenIn (ρ.waits 7) = true →
      ∃ b ∈ actions, b.pid = q := by
    intro q ρ woken
    by_contra absent
    push Not at absent
    rw [apart q absent] at woken
    cases woken
  refine ⟨.of_test plain, ?_, ?_, ?_, ?_, ?_⟩
  · intro ρ w runs waits q other woken
    have test := tested runs ρ
    simp only [testTurn, waits, Bool.not_true, Bool.false_or, Bool.and_eq_true] at test
    obtain ⟨b, member, rfl⟩ := within woken
    simpa [other, woken] using List.all_eq_true.mp test.1 b member
  · rintro ρ p c rfl fn q
    by_contra woken
    have onTheWay : (t.sys.proc q).wokenIn (ρ.waits 7) = true := by simpa using woken
    have test := List.all_eq_true.mp turn ρ (by cases ρ <;> simp)
    simp only [testTurn, fn, ne_eq, not_true_eq_false, decide_false, Bool.false_or, Bool.and_eq_true] at test
    obtain ⟨b, member, rfl⟩ := within onTheWay
    simpa [onTheWay] using List.all_eq_true.mp test.1 b member
  · intro ρ pt w runs blocks waits
    have test := tested runs ρ
    simp only [testTurn, blocks, waits, Bool.and_eq_true] at test
    simpa using test.2
  · rintro _ some null
    simp [null, some] at pointed
  · intro pt pid k runs names _
    have test := tested runs .producer
    simp only [testTurn, names, Bool.and_eq_true, decide_eq_true_eq] at test
    exact test.2

/-- Two receivers wait, are both woken and resume in that order; then a sender
waits and is woken. -/
def inTurn : List Act :=
  [.call 1 (.create 2 50 true), .call 1 (.recv 7 ⟨true, 50⟩), .call 2 (.recv 7 ⟨true, 50⟩),
    .call 3 (.send 7 (some [65]) 1), .resume 3, .call 3 (.send 7 (some [66]) 1), .resume 3, .yield 3,
    .resume 1, .yield 1, .resume 2, .call 2 (.send 7 (some [67]) 1), .call 2 (.send 7 (some [68]) 1),
    .call 2 (.send 7 (some [69]) 1), .call 1 (.recv 7 ⟨true, 50⟩), .resume 2, .yield 2, .resume 1]

theorem first_come_first_served_run : ∃ t : Timed, t.sys.globals.stored 7 = [[65], [66], [67], [68], [69]] ∧
    t.sys.returned (.recv 7) = [(0, ⟨1, [65]⟩), (1, ⟨1, [66]⟩), (2, ⟨1, [67]⟩)] ∧ t.sys.FirstComeFirstServed 7 := by
  obtain ⟨t, executed, done⟩ := Transition.exists_executed step (testTakesTurns inTurn) boot inTurn
    (fun t => t.sys.globals.stored 7 = [[65], [66], [67], [68], [69]] &&
      t.sys.returned (.recv 7) = [(0, ⟨1, [65]⟩), (1, ⟨1, [66]⟩), (2, ⟨1, [67]⟩)]) (by decide +kernel)
  have run := Transition.Run.of_executed executed
  replace run := run.with_invariant (fun t => t.sys.Within inTurn) (fun _ _ => rfl) <| by
    intro before a after within both moves
    obtain ⟨s', moved, rfl⟩ := Option.map_eq_some_iff.mp moves
    exact within.step both.2 moved
  have turns : Transition.Run step (TakesTurns 7) boot t := run.mono fun t a both => .of_test both.1 both.2.1
  simp only [Bool.and_eq_true, decide_eq_true_eq] at done
  exact ⟨t, done.1, done.2, first_come_first_served turns⟩

end Timed

end UslossKernel
