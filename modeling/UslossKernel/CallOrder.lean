import UslossKernel.CallSteps

namespace UslossKernel

/-- Waiting to store this message in `m`. -/
def Wait.carries (m : MboxId) (msg : Message) (w : Wait) : Bool :=
  w = .sendFull m msg

theorem Point.fn_of_queues {pt : Point} {m : MboxId}
    (queues : pt.queues (Wait.receivesFrom m) (.recv (m : Nat)) = true) : pt.fn = .recv (m : Nat) := by
  cases pt with
  | start c => exact of_decide_eq_true queues
  | afterBlock w => cases w <;> simp_all [Point.queues, Wait.receivesFrom, Point.fn, Wait.fn]
  | afterUnblock => cases queues

theorem Outcome.not_carries {outcome : Outcome} {m : MboxId} (ends : outcome.waitsIn (Wait.sendsTo m) = false)
    (msg : Message) : outcome.waitsIn (Wait.carries m msg) = false := by
  cases outcome with
  | blocks w => cases w <;> simp_all [Outcome.waitsIn, Wait.sendsTo, Wait.carries]
  | returns | unblocks | faults => rfl

namespace Sys

/-- `m` is used by sends and receives only, which pass their checks, the
buffers are large enough and there always is a free slot. -/
structure SendsAndReceives (m : MboxId) (s : Sys) (a : Act) : Prop where
  unreleased : Unreleased m s a
  admitted : ∀ p c, a = .call p c → c.fn = .send (m : Nat) ∨ c.fn = .recv (m : Nat) → c.Admitted s.globals
  unconditional : ∀ p c, a = .call p c → c.fn ≠ .condSend (m : Nat) ∧ c.fn ≠ .condRecv (m : Nat)
  slots : (s.globals.mailboxes m).isActive = true → 0 < (s.globals.mailboxes m).numSlots
  free : 0 < s.globals.freeSlotCount
  large : ∀ buffer, s.TakesFrom a m buffer → (s.globals.received m).ret ≤ buffer.msg_max_size

/-- No call made before the one that `p` runs on in still waits. -/
def Foremost (s : Sys) (kind : Wait → Bool) (p : Pid) (pt : Point) : Prop :=
  ∀ q, q ≠ p → ∀ j, s.turn kind q = some j → s.ownTurn p pt < j

/-- Besides, nobody stores or takes a message while an earlier call of its
kind waits, and a resumed receiver finds a message. -/
structure InCallOrder (m : MboxId) (s : Sys) (a : Act) : Prop extends SendsAndReceives m s a where
  sends : ∀ pt msg k, s.RunsFrom a pt → StorePoint s.globals pt m msg k → s.Foremost (Wait.sendsTo m) a.pid pt
  receives : ∀ pt g₀ buffer k, s.RunsFrom a pt → TakePoint s.globals pt g₀ m buffer k →
    s.Foremost (Wait.receivesFrom m) a.pid pt
  found : ∀ buffer, s.RunsFrom a (.afterBlock (.recvEmpty m buffer)) → (s.globals.mailboxSlotQueues m).count ≠ 0

variable {m : MboxId} {s : Sys} {p : Pid} {pt : Point} {seg : Segment}

theorem SendsAndReceives.plain (admits : SendsAndReceives m s (pt.act p)) : Plain s.globals m pt where
  unreleased := admits.unreleased.point
  admitted := by
    rintro c rfl
    exact admits.admitted p c rfl
  unconditional := by
    rintro c rfl
    exact admits.unconditional p c rfl
  slots := admits.slots

theorem calls_grow (fn : Fn) : s.calls fn <+: (s.enter p pt).calls fn := by
  cases pt with
  | start c =>
    simp only [enter, Function.update_apply]
    split
    · rename_i same
      subst same
      exact List.prefix_append ..
    · exact List.prefix_refl _
  | afterBlock | afterUnblock => exact List.prefix_refl _

theorem getElem?_of_prefix {α : Type*} {l₁ l₂ : List α} (extended : l₁ <+: l₂) {i : Nat} {a : α}
    (at_ : l₁[i]? = some a) : l₂[i]? = some a := by
  obtain ⟨rest, rfl⟩ := extended
  obtain ⟨inside, _⟩ := List.getElem?_eq_some_iff.mp at_
  rw [List.getElem?_append_left inside, at_]

/-- The messages that the sends on `m` were called with. -/
def sent (s : Sys) (m : MboxId) : List Message :=
  (s.calls (.send (m : Nat))).map Call.message

theorem sent_after : (s.after p pt seg).sent m = (s.enter p pt).sent m := by
  rw [sent, after_calls, sent]

theorem sent_grows : s.sent m <+: (s.enter p pt).sent m :=
  (calls_grow _).map _

/-- What is stored in `m` is what the sends were called with, in that order,
the waiting ones being the next. -/
structure SendOrder (m : MboxId) (s : Sys) : Prop where
  turns : Turns (s.turn (Wait.sendsTo m)) (s.globals.stored m).length (s.calls (.send (m : Nat))).length
  carried : ∀ msg q j, s.turn (Wait.carries m msg) q = some j → (s.sent m)[j]? = some msg
  stored : s.globals.stored m <+: s.sent m

/-- The message of the send that runs on. -/
theorem SendOrder.own (order : s.SendOrder m) (here : (s.proc p).At pt)
    (queues : pt.queues (Wait.sendsTo m) (.send (m : Nat)) = true)
    (slots : ∀ w, pt = .afterBlock w → w.mbox = m → w.zeroSlot = false) :
    ((s.enter p pt).sent m)[s.ownTurn p pt]? = some pt.message := by
  cases pt with
  | start c =>
    have fn : c.fn = .send (m : Nat) := of_decide_eq_true queues
    simp [sent, ownTurn, enter, fn, Point.message]
  | afterBlock w =>
    have kind : w.sendsTo m = true := queues
    have slotted := slots w rfl (Wait.mbox_of_sendsTo kind)
    cases w with
    | sendFull n msg =>
      obtain rfl : n = m := of_decide_eq_true kind
      refine order.carried msg p _ ?_
      rw [turn_own here]
      simp [Point.resumesIn, Wait.carries, ownTurn, enter]
    | sendZero => cases slotted
    | recvZero | recvEmpty => cases kind
  | afterUnblock => cases queues

theorem SendOrder.carried_after (order : s.SendOrder m) (lives : ∀ f, seg.2 ≠ .faults f)
    (own : ∀ msg, seg.2.waitsIn (Wait.carries m msg) = true → ((s.enter p pt).sent m)[s.ownTurn p pt]? = some msg)
    (msg : Message) (q : Pid) (j : Nat) (held : (s.after p pt seg).turn (Wait.carries m msg) q = some j) :
    ((s.after p pt seg).sent m)[j]? = some msg := by
  rw [sent_after]
  rw [turn_after lives] at held
  by_cases self : q = p
  · subst self
    rw [Function.update_self] at held
    split at held
    · rename_i waits
      cases held
      exact own msg waits
    · cases held
  · rw [Function.update_of_ne self] at held
    exact getElem?_of_prefix sent_grows (order.carried msg q j held)

theorem SendOrder.after (order : s.SendOrder m) (lasting : s.Lasting m) (admits : InCallOrder m s (pt.act p))
    (here : (s.proc p).At pt) (path : Path s.globals p pt seg) (lives : ∀ f, seg.2 ≠ .faults f) :
    (s.after p pt seg).SendOrder m := by
  have plain := admits.plain
  have slots : ∀ w, pt = .afterBlock w → w.mbox = m → w.zeroSlot = false := by
    rintro w rfl mbox
    exact (plain.resumes here (lasting.2 p) mbox).2
  cases path.sends lives here (lasting.2 p) plain with
  | @stores k at_ queues ends stored =>
    have first := admits.sends pt _ k ⟨p, rfl, here⟩ at_
    rw [Point.act_pid] at first
    obtain ⟨next, turns⟩ := turns_served order.turns here lives queues ends first
    refine ⟨?_, order.carried_after lives fun msg waits => ?_, ?_⟩
    · rwa [after_globals lives, stored, List.length_append]
    · rw [Outcome.not_carries ends] at waits
      cases waits
    · have own := order.own here queues slots
      rw [next] at own
      have before : s.globals.stored m <+: (s.enter p pt).sent m := order.stored.trans sent_grows
      obtain ⟨inside, atNext⟩ := List.getElem?_eq_some_iff.mp own
      have longer := List.concat_get_prefix before inside
      rw [after_globals lives, stored, sent_after]
      simpa [atNext] using longer
  | waits queues blocks stored =>
    have own := order.own here queues slots
    refine ⟨?_, order.carried_after lives fun msg waits => ?_, ?_⟩
    · rw [after_globals lives, stored]
      exact turns_waits order.turns here queues (by simp [blocks, Outcome.waitsIn, Wait.sendsTo])
    · rw [blocks] at waits
      obtain rfl : pt.message = msg := by simpa [Outcome.waitsIn, Wait.carries] using waits
      exact own
    · rw [after_globals lives, stored, sent_after]
      exact order.stored.trans sent_grows
  | apart queues ends stored =>
    refine ⟨?_, order.carried_after lives fun msg waits => ?_, ?_⟩
    · rw [after_globals lives, stored]
      exact turns_apart order.turns here lives queues ends
    · rw [Outcome.not_carries ends] at waits
      cases waits
    · rw [after_globals lives, stored, sent_after]
      exact order.stored.trans sent_grows

/-- The receives on `m` take the messages in the order of the calls. -/
structure RecvOrder (m : MboxId) (s : Sys) : Prop where
  turns : Turns (s.turn (Wait.receivesFrom m)) (s.globals.taken m).length (s.calls (.recv (m : Nat))).length
  inside : ∀ q k, s.proc q = .unblocking k → k.fn = .recv (m : Nat) →
    ∃ delivery, (s.globals.taken m)[s.ordinal q]? = some delivery ∧ k = .recvTaken m delivery.result
  returned : ∀ i r, (i, r) ∈ s.returned (.recv (m : Nat)) →
    ∃ delivery, (s.globals.taken m)[i]? = some delivery ∧ delivery.result = r
  accepted : ∀ delivery ∈ s.globals.taken m, 0 ≤ delivery.result.ret

theorem unblocking_origin (lives : ∀ f, seg.2 ≠ .faults f) {q : Pid} {k : Cont}
    (inside : (s.after p pt seg).proc q = .unblocking k) :
    (q ≠ p ∧ s.proc q = .unblocking k) ∨ (q = p ∧ ∃ pid, seg.2 = .unblocks pid k) := by
  obtain ⟨g, outcome⟩ := seg
  by_cases self : q = p
  · subst self
    refine .inr ⟨rfl, ?_⟩
    cases outcome with
    | returns | blocks => simp [after, settle] at inside
    | unblocks pid k' =>
      rw [unblocks_self] at inside
      cases inside
      exact ⟨pid, rfl⟩
    | faults f => exact absurd rfl (lives f)
  · have held : ((s.after p pt (g, outcome)).proc q).unblockingIn (fun k' => k' = k) = true := by
      rw [inside]
      simp
    rcases unblockingIn_after held with before | ⟨same, _⟩
    · refine .inl ⟨self, ?_⟩
      cases atQ : s.proc q <;> simp_all [Proc.unblockingIn]
    · exact (self same).elim

theorem after_returned {fn : Fn} (quiet : ∀ r, seg.2 = .returns r → pt.fn ≠ fn) :
    (s.after p pt seg).returned fn = s.returned fn := by
  obtain ⟨g, outcome⟩ := seg
  cases outcome with
  | returns r => rw [returned_returns, Function.update_of_ne (quiet r rfl).symm]
  | blocks | unblocks | faults => cases pt <;> rfl

/-- What is taken stays taken, and the others do not move. -/
theorem RecvOrder.inside_after (order : s.RecvOrder m) (lives : ∀ f, seg.2 ≠ .faults f)
    (more : s.globals.taken m <+: seg.1.taken m)
    (own : ∀ pid k, seg.2 = .unblocks pid k → k.fn = .recv (m : Nat) →
      ∃ delivery, (seg.1.taken m)[s.ownTurn p pt]? = some delivery ∧ k = .recvTaken m delivery.result)
    (q : Pid) (k : Cont) (inside : (s.after p pt seg).proc q = .unblocking k) (fn : k.fn = .recv (m : Nat)) :
    ∃ delivery, ((s.after p pt seg).globals.taken m)[(s.after p pt seg).ordinal q]? = some delivery ∧
      k = .recvTaken m delivery.result := by
  rw [after_globals lives, after_ordinal]
  rcases unblocking_origin lives inside with ⟨other, before⟩ | ⟨rfl, pid, unblocks⟩
  · obtain ⟨delivery, at_, same⟩ := order.inside q k before fn
    rw [enter_ordinal other]
    exact ⟨delivery, getElem?_of_prefix more at_, same⟩
  · exact own pid k unblocks fn

theorem RecvOrder.returned_after (order : s.RecvOrder m) (lives : ∀ f, seg.2 ≠ .faults f)
    (more : s.globals.taken m <+: seg.1.taken m)
    (own : ∀ r, seg.2 = .returns r → pt.fn = .recv (m : Nat) →
      ∃ delivery, (seg.1.taken m)[s.ownTurn p pt]? = some delivery ∧ delivery.result = r)
    (i : Nat) (r : Result) (entry : (i, r) ∈ (s.after p pt seg).returned (.recv (m : Nat))) :
    ∃ delivery, ((s.after p pt seg).globals.taken m)[i]? = some delivery ∧ delivery.result = r := by
  rw [after_globals lives]
  have earlier : (i, r) ∈ s.returned (.recv (m : Nat)) →
      ∃ delivery, (seg.1.taken m)[i]? = some delivery ∧ delivery.result = r := by
    intro entry
    obtain ⟨delivery, at_, same⟩ := order.returned i r entry
    exact ⟨delivery, getElem?_of_prefix more at_, same⟩
  by_cases here : ∃ r', seg.2 = .returns r' ∧ pt.fn = .recv (m : Nat)
  · obtain ⟨r', returns, fn⟩ := here
    obtain ⟨g, outcome⟩ := seg
    obtain rfl : outcome = .returns r' := returns
    rw [returned_returns, fn, Function.update_self, List.mem_append, List.mem_singleton] at entry
    rcases entry with entry | entry
    · exact earlier entry
    · cases entry
      exact own _ rfl fn
  · rw [after_returned fun r' returns fn => here ⟨r', returns, fn⟩] at entry
    exact earlier entry

theorem RecvOrder.after (order : s.RecvOrder m) (lasting : s.Lasting m) (admits : InCallOrder m s (pt.act p))
    (here : (s.proc p).At pt) (path : Path s.globals p pt seg) (lives : ∀ f, seg.2 ≠ .faults f) :
    (s.after p pt seg).RecvOrder m := by
  have runs : s.RunsFrom (pt.act p) pt := ⟨p, rfl, here⟩
  have large : ∀ g₀ buffer k, TakePoint s.globals pt g₀ m buffer k →
      (s.globals.received m).ret ≤ buffer.msg_max_size :=
    fun g₀ buffer k at_ => admits.large buffer ⟨pt, g₀, k, runs, at_⟩
  have found : ∀ buffer, pt = .afterBlock (.recvEmpty m buffer) → (s.globals.mailboxSlotQueues m).count ≠ 0 := by
    rintro buffer rfl
    exact admits.found buffer runs
  cases path.receives lives here (lasting.2 p) admits.plain large found with
  | @takes g₀ buffer at_ queues taken ends =>
    have first := admits.receives pt g₀ buffer _ runs at_
    rw [Point.act_pid] at first
    have done : seg.2.waitsIn (Wait.receivesFrom m) = false := by
      rcases ends with ends | ⟨pid, ends⟩ <;> rw [ends] <;> rfl
    obtain ⟨next, turns⟩ := turns_served order.turns here lives queues done first
    have more : s.globals.taken m <+: seg.1.taken m := by
      rw [taken]
      exact List.prefix_append ..
    have last : (seg.1.taken m)[s.ownTurn p pt]? = some ⟨buffer.msg_max_size, s.globals.received m⟩ := by
      rw [next, taken, List.getElem?_concat_length]
    refine ⟨?_, order.inside_after lives more ?_, order.returned_after lives more ?_, ?_⟩
    · rwa [after_globals lives, taken, List.length_append]
    · intro pid k unblocks _
      refine ⟨_, last, ?_⟩
      rcases ends with ends | ⟨pid, ends⟩ <;> rw [ends] at unblocks <;> cases unblocks
      rfl
    · intro r returns _
      refine ⟨_, last, ?_⟩
      rcases ends with ends | ⟨pid, ends⟩ <;> rw [ends] at returns <;> cases returns
      rfl
    · rw [after_globals lives, taken]
      intro delivery member
      rcases List.mem_append.mp member with member | member
      · exact order.accepted delivery member
      · cases List.mem_singleton.mp member
        exact Int.natCast_nonneg _
  | @waits w queues blocks kind taken =>
    have more : s.globals.taken m <+: seg.1.taken m := taken ▸ List.prefix_refl _
    refine ⟨?_, order.inside_after lives more ?_, order.returned_after lives more ?_, ?_⟩
    · rw [after_globals lives, taken]
      exact turns_waits order.turns here queues (by rw [blocks]; exact kind)
    · intro pid k unblocks
      rw [blocks] at unblocks
      cases unblocks
    · intro r returns
      rw [blocks] at returns
      cases returns
    · rw [after_globals lives, taken]
      exact order.accepted
  | @returns r from_ ends taken =>
    have more : s.globals.taken m <+: seg.1.taken m := taken ▸ List.prefix_refl _
    refine ⟨?_, order.inside_after lives more ?_, order.returned_after lives more ?_, ?_⟩
    · rw [after_globals lives, taken]
      exact turns_apart order.turns here lives (by rw [from_]; rfl) (by rw [ends]; rfl)
    · intro pid k unblocks
      rw [ends] at unblocks
      cases unblocks
    · intro r' returns _
      rw [ends] at returns
      cases returns
      subst from_
      obtain ⟨delivery, at_, same⟩ := order.inside p _ here.unblocking_eq rfl
      cases same
      exact ⟨delivery, taken ▸ at_, rfl⟩
    · rw [after_globals lives, taken]
      exact order.accepted
  | apart fn ends other taken =>
    have more : s.globals.taken m <+: seg.1.taken m := taken ▸ List.prefix_refl _
    refine ⟨?_, order.inside_after lives more ?_, order.returned_after lives more ?_, ?_⟩
    · have queues : pt.queues (Wait.receivesFrom m) (.recv (m : Nat)) = false :=
        Bool.eq_false_iff.mpr fun queues => fn (Point.fn_of_queues queues)
      rw [after_globals lives, taken]
      exact turns_apart order.turns here lives queues ends
    · intro pid k unblocks same
      exact (other pid k unblocks same).elim
    · intro r _ same
      exact (fn same).elim
    · rw [after_globals lives, taken]
      exact order.accepted

theorem step_defined {s s' : Sys} {a : Act} (moves : s.step a = some s') : s.fault = none := by
  cases a with
  | call | yield | sleep =>
    simp only [step, Option.ite_none_right_eq_some, mayRun, Bool.and_eq_true, Option.isNone_iff_eq_none] at moves
    exact moves.1.1.1
  | resume p =>
    simp only [step, Option.ite_none_right_eq_some, mayRun, Bool.and_eq_true, Option.isNone_iff_eq_none] at moves
    exact moves.1.1
  | rouse p =>
    simp only [step, Option.ite_none_right_eq_some, Option.isNone_iff_eq_none] at moves
    exact moves.1.1

theorem turn_idle {q : Pid} {proc : Proc} {cpu : Option Pid} {kind : Wait → Bool} (was : (s.proc q).idle = true)
    (becomes : proc.idle = true) :
    ({ s with proc := Function.update s.proc q proc, cpu := cpu } : Sys).turn kind = s.turn kind := by
  funext r
  by_cases moved : r = q
  · subst moved
    simp [turn, Proc.idle_waitsIn was, Proc.idle_waitsIn becomes]
  · simp [turn, Function.update_of_ne moved]

/-- The sends store their messages in the order of the calls, and the receive
with the same number returns the message. -/
def FirstComeFirstServed (m : MboxId) (s : Sys) : Prop :=
  s.globals.stored m <+: s.sent m ∧
  ∀ i r, (i, r) ∈ s.returned (.recv (m : Nat)) →
    ∃ c, (s.calls (.send (m : Nat)))[i]? = some c ∧ r = ⟨c.message.length, c.message⟩

/-- What the two orders say of the messages so far. -/
structure Ordered (m : MboxId) (s : Sys) : Prop where
  stored : s.globals.stored m <+: s.sent m
  returned : ∀ i r, (i, r) ∈ s.returned (.recv (m : Nat)) →
    ∃ delivery, (s.globals.taken m)[i]? = some delivery ∧ delivery.result = r
  accepted : ∀ delivery ∈ s.globals.taken m, 0 ≤ delivery.result.ret

theorem SendOrder.ordered (sends : s.SendOrder m) (receives : s.RecvOrder m) : s.Ordered m :=
  ⟨sends.stored, receives.returned, receives.accepted⟩

/-- An undefined operation leaves the messages as they are. -/
theorem Ordered.stops (ordered : s.Ordered m) (f : Fault) :
    ({ s.enter p pt with fault := some f } : Sys).Ordered m := by
  have same : (s.enter p pt).returned = s.returned := by cases pt <;> rfl
  refine ⟨?_, ?_, ?_⟩
  · rw [enter_globals]
    exact ordered.stored.trans sent_grows
  · rw [enter_globals, same]
    exact ordered.returned
  · rw [enter_globals]
    exact ordered.accepted

theorem Ordered.firstServed (ordered : s.Ordered m) (intact : s.globals.MailIntact m) :
    s.FirstComeFirstServed m := by
  refine ⟨ordered.stored, fun i r entry => ?_⟩
  obtain ⟨delivery, atTaken, rfl⟩ := ordered.returned i r entry
  have accepted := ordered.accepted delivery (List.mem_of_getElem? atTaken)
  obtain ⟨delivered, pending, whole, accounts, _⟩ := intact.delivered
  obtain ⟨inside, same⟩ := List.getElem?_eq_some_iff.mp atTaken
  have within : i < delivered.length := accounts.length_eq ▸ inside
  have account : delivery.Accounts delivered[i] := by
    have at_ := accounts.get inside within
    rwa [List.get_eq_getElem, same] at at_
  have atSent : (s.sent m)[i]? = some delivered[i] := by
    refine getElem?_of_prefix ordered.stored ?_
    rw [whole, List.getElem?_append_left within, List.getElem?_eq_getElem within]
  rw [sent, List.getElem?_map] at atSent
  obtain ⟨c, atCall, message⟩ := Option.map_eq_some_iff.mp atSent
  refine ⟨c, atCall, ?_⟩
  rw [message]
  unfold Delivery.Accounts at account
  split at account
  · rw [account] at accepted
    exact absurd accepted (by decide)
  · exact account

theorem boot_history (m : MboxId) : boot.globals.stored m = [] ∧ boot.globals.taken m = [] := by
  rw [boot, phase2Init_eq]
  exact ⟨rfl, rfl⟩

theorem SendOrder.boot (m : MboxId) : Sys.boot.SendOrder m where
  turns := by
    rw [(boot_history m).1]
    exact Turns.start
  carried _ _ _ held := by cases held
  stored := by
    rw [(boot_history m).1]
    exact List.nil_prefix

theorem RecvOrder.boot (m : MboxId) : Sys.boot.RecvOrder m where
  turns := by
    rw [(boot_history m).2]
    exact Turns.start
  inside _ _ held := by cases held
  returned _ _ entry := by cases entry
  accepted := by
    rw [(boot_history m).2]
    rintro _ ⟨⟩

theorem SendOrder.idle (order : s.SendOrder m) {q : Pid} {proc : Proc} {cpu : Option Pid}
    (was : (s.proc q).idle = true) (becomes : proc.idle = true) :
    ({ s with proc := Function.update s.proc q proc, cpu := cpu } : Sys).SendOrder m where
  turns := by
    rw [turn_idle was becomes]
    exact order.turns
  carried msg r j held := by
    rw [turn_idle was becomes] at held
    exact order.carried msg r j held
  stored := order.stored

theorem RecvOrder.idle (order : s.RecvOrder m) {q : Pid} {proc : Proc} {cpu : Option Pid}
    (was : (s.proc q).idle = true) (becomes : proc.idle = true) :
    ({ s with proc := Function.update s.proc q proc, cpu := cpu } : Sys).RecvOrder m where
  turns := by
    rw [turn_idle was becomes]
    exact order.turns
  inside r k held := by
    by_cases moved : r = q
    · subst moved
      simp only [Function.update_self] at held
      subst held
      cases becomes
    · simp only [Function.update_of_ne moved] at held
      exact order.inside r k held
  returned := order.returned
  accepted := order.accepted

/-- First come, first served, in every run in which nobody overtakes. -/
theorem served_in_call_order {m : MboxId} {s : Sys} (run : Transition.Run Sys.step (InCallOrder m) boot s) :
    s.FirstComeFirstServed m := by
  have lasting : ∀ s, Transition.Run Sys.step (fun s a => s.fault = none ∧ InCallOrder m s a) boot s → s.Lasting m :=
    fun s run => lasting_of_run (run.mono fun _ _ both => both.2.unreleased)
  have result : s.Ordered m ∧ (s.fault = none → s.SendOrder m ∧ s.RecvOrder m) := by
    refine invariant (run.enabled fun _ _ _ => step_defined) lasting
      (fun s => s.Ordered m ∧ (s.fault = none → s.SendOrder m ∧ s.RecvOrder m)) ?_ ?_ ?_ ?_
    · exact ⟨SendOrder.ordered (.boot m) (.boot m), fun _ => ⟨.boot m, .boot m⟩⟩
    · intro s p pt seg lasting order admits here path lives
      obtain ⟨sends, receives⟩ := order.2 admits.1
      have sends' := sends.after lasting admits.2 here path lives
      have receives' := receives.after lasting admits.2 here path lives
      exact ⟨sends'.ordered receives', fun _ => ⟨sends', receives'⟩⟩
    · intro s p pt f order
      exact ⟨order.1.stops f, fun defined => by cases defined⟩
    · intro s q proc cpu order was becomes
      refine ⟨⟨order.1.stored, order.1.returned, order.1.accepted⟩, fun defined => ?_⟩
      obtain ⟨sends, receives⟩ := order.2 defined
      exact ⟨sends.idle was becomes, receives.idle was becomes⟩
  exact result.1.firstServed (mailIntact_of_run (run.mono fun _ _ admits => admits.unreleased))

/-- Sends and receives on the mailbox 7, the latter with buffers of 50 bytes. -/
def testSendsAndReceives (s : Sys) (a : Act) : Bool :=
  let mbox := s.globals.mailboxes 7
  (!mbox.isActive || 0 < mbox.numSlots) && 0 < s.globals.freeSlotCount && (s.globals.received 7).ret ≤ 50 &&
  match a with
  | .call _ (.create ..) | .yield _ => true
  | .call _ (.send id msg_ptr msg_size) => id = 7 && mbox.isActive && s.globals.accepts 7 msg_ptr msg_size
  | .call _ (.recv id buffer) => id = 7 && mbox.isActive && buffer.msg_max_size = 50
  | .resume p => !(s.proc p).wokenIn fun
    | .recvEmpty _ buffer => buffer.msg_max_size ≠ 50
    | _ => false
  | _ => false

theorem SendsAndReceives.of_test {a : Act} (plain : s.testSendsAndReceives a = true) : SendsAndReceives 7 s a := by
  simp only [testSendsAndReceives, Bool.and_eq_true, Bool.or_eq_true, Bool.not_eq_true', decide_eq_true_eq] at plain
  obtain ⟨⟨⟨slots, free⟩, fits⟩, kind⟩ := plain
  refine ⟨?_, ?_, ?_, ?_, free, ?_⟩
  · rintro p rfl
    cases kind
  · rintro p c rfl fn
    rcases fn with fn | fn <;> cases c <;> cases fn
    · simp only [Bool.and_eq_true, decide_eq_true_eq] at kind
      exact ⟨7, Globals.activeMbox_eq_some.mpr ⟨rfl, kind.1.2⟩, kind.2, .inr free.ne'⟩
    · simp only [Bool.and_eq_true, decide_eq_true_eq] at kind
      exact ⟨7, Globals.activeMbox_eq_some.mpr ⟨rfl, kind.1.2⟩, by omega⟩
  · rintro p c rfl
    cases c with
    | create | send | recv => exact ⟨nofun, nofun⟩
    | release | condSend | condRecv => cases kind
  · intro active
    simpa [active] using slots
  · rintro buffer ⟨pt, g₀, k, ⟨p, rfl, here⟩, at_⟩
    cases at_ with
    | recv =>
      simp only [Point.act, Bool.and_eq_true, decide_eq_true_eq] at kind
      omega
    | resumed =>
      simp only [Point.act, here.woken_eq, Proc.wokenIn_woken, Bool.not_eq_true', decide_eq_false_iff_not, ne_eq,
        not_not] at kind
      omega
    | condRecv => cases kind

/-- Two receivers wait and are both woken; the second one resumes first. -/
def overtaken : List Act :=
  [.call 1 (.create 5 50 true), .call 1 (.recv 7 ⟨true, 50⟩), .call 2 (.recv 7 ⟨true, 50⟩),
    .call 3 (.send 7 (some [65]) 1), .resume 3, .call 3 (.send 7 (some [66]) 1), .resume 2]

/-- The second receive gets the first message. -/
theorem receiver_overtaken : ∃ s, Transition.Run Sys.step (SendsAndReceives 7) boot s ∧
    (s.globals.mailboxes 7).numSlots = 5 ∧
    s.calls (.send 7) = [.send 7 (some [65]) 1, .send 7 (some [66]) 1] ∧
    s.returned (.recv 7) = [(1, ⟨1, [65]⟩)] ∧ ¬ s.FirstComeFirstServed 7 := by
  obtain ⟨s, reaches, done⟩ := exists_reaches overtaken
    (fun s => (s.globals.mailboxes 7).numSlots = 5 &&
      s.calls (.send 7) = [.send 7 (some [65]) 1, .send 7 (some [66]) 1] &&
      s.returned (.recv 7) = [(1, ⟨1, [65]⟩)]) (by decide +kernel)
  have run : Transition.Run Sys.step (SendsAndReceives 7) boot s :=
    reaches.run testSendsAndReceives (fun _ _ _ => .of_test) (by decide +kernel)
  simp only [Bool.and_eq_true, decide_eq_true_eq] at done
  obtain ⟨⟨slots, calls⟩, returned⟩ := done
  refine ⟨s, run, slots, calls, returned, fun served => ?_⟩
  obtain ⟨c, atCall, result⟩ := served.2 1 ⟨1, [65]⟩ (by
    show _ ∈ s.returned (.recv 7)
    simp [returned])
  have second : c = .send 7 (some [66]) 1 := by
    have here : (s.calls (.send 7))[1]? = some c := atCall
    rw [calls] at here
    exact (Option.some.inj here).symm
  subst second
  revert result
  decide

end Sys

end UslossKernel
