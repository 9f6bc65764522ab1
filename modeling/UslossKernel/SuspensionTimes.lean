import UslossKernel.Waiting

namespace UslossKernel

/-- The mailbox layer with a clock that counts the steps. The other fields are
history: when each process was last suspended in a call, when `MboxRecv` on
each mailbox last recorded it, when a call on the mailbox last woke it, who was
the last to be recorded so, when it began its last call, when each id was last
handed out, and how many of the pids recorded for the id now were there already
then. -/
structure Timed where
  sys : Sys
  now : Nat
  since : Pid → Nat
  received : MboxId → Pid → Nat
  woken : MboxId → Pid → Nat
  receiver : MboxId → Pid
  began : Pid → Nat
  created : MboxId → Nat
  olderProducers : MboxId → Nat
  olderConsumers : MboxId → Nat

namespace Timed

def boot : Timed where
  sys := Sys.boot
  now := 0
  since _ := 0
  received _ _ := 0
  woken _ _ := 0
  receiver _ := 0
  began _ := 0
  created _ := 0
  olderProducers _ := 0
  olderConsumers _ := 0

/-- The action has handed out `m`. -/
def handsOut (s s' : Sys) (m : MboxId) : Bool :=
  !(s.globals.mailboxes m).isActive && (s'.globals.mailboxes m).isActive

/-- Records are taken from the front of a list and added at its end. -/
def older (before : Nat) (handedOut : Bool) (waiting waiting' : List Pid) : Nat :=
  if handedOut then waiting'.length else before - (waiting.length - waiting'.length)

/-- Enter in the history that the action has led to `s'`. -/
def stamp (t : Timed) (a : Act) (s' : Sys) : Timed where
  sys := s'
  now := t.now + 1
  since := if (s'.proc a.pid).blockedIn (fun _ => true) then Function.update t.since a.pid (t.now + 1) else t.since
  received m q :=
    if q = a.pid ∧ (s'.proc q).blockedIn (Wait.receivesFrom m) = true then t.now + 1 else t.received m q
  woken m q :=
    if (s'.proc a.pid).unblockingIn (fun k => decide (k.mbox = m)) = true ∧
      (t.sys.proc q).blockedIn (fun _ => true) = true ∧ (s'.proc q).blockedIn (fun _ => true) = false then t.now + 1
    else t.woken m q
  receiver m := if (s'.proc a.pid).blockedIn (Wait.receivesFrom m) = true then a.pid else t.receiver m
  began := match a with
    | .call p _ => Function.update t.began p (t.now + 1)
    | _ => t.began
  created m := if handsOut t.sys s' m then t.now + 1 else t.created m
  olderProducers m := older (t.olderProducers m) (handsOut t.sys s' m) (t.sys.globals.blockedProducers m)
    (s'.globals.blockedProducers m)
  olderConsumers m := older (t.olderConsumers m) (handsOut t.sys s' m) (t.sys.globals.blockedConsumers m)
    (s'.globals.blockedConsumers m)

def step (t : Timed) (a : Act) : Option Timed :=
  (t.sys.step a).map (t.stamp a)

def Reaches (actions : List Act) (t : Timed) : Prop :=
  Transition.execute step (fun _ _ => true) boot actions = some t

/-- The history changes nothing about what can happen. -/
theorem sys_run_under {guard : Timed → Act → Prop} {weaker : Sys → Act → Prop} {t : Timed}
    (run : Transition.Run step guard boot t)
    (implies : ∀ t a, Transition.Run step guard boot t → guard t a → weaker t.sys a) :
    Transition.Run Sys.step weaker Sys.boot t.sys := by
  refine (run.with_known (fun _ => id)).invariant (fun t => Transition.Run Sys.step weaker Sys.boot t.sys) .refl ?_
  rintro before a after earlier ⟨sofar, admitted⟩ moves
  obtain ⟨s', moved, rfl⟩ := Option.map_eq_some_iff.mp moves
  exact earlier.next (implies before a sofar admitted) moved

theorem sys_run {guard : Timed → Act → Prop} {t : Timed} (run : Transition.Run step guard boot t) :
    Transition.Run Sys.step (fun _ _ => True) Sys.boot t.sys :=
  sys_run_under run fun _ _ _ _ => trivial

theorem exists_reaches (actions : List Act) (test : Timed → Bool)
    (passes : (Transition.execute step (fun _ _ => true) boot actions).any test = true) :
    ∃ t, Reaches actions t ∧ test t = true :=
  Transition.exists_executed _ _ _ _ _ passes

variable {t : Timed} {p : Pid} {pt : Point} {seg : Segment}

/-- The state after `p` has run a stretch of code. -/
def after (t : Timed) (p : Pid) (pt : Point) (seg : Segment) : Timed :=
  t.stamp (pt.act p) (t.sys.after p pt seg)

@[simp] theorem after_sys (t : Timed) (p : Pid) (pt : Point) (seg : Segment) :
    (t.after p pt seg).sys = t.sys.after p pt seg := rfl

@[simp] theorem stamp_sys (t : Timed) (a : Act) (s' : Sys) : (t.stamp a s').sys = s' := rfl

theorem woken_kept {m : MboxId} {q : Pid} (awake : (t.sys.proc q).blockedIn (fun _ => true) = false) :
    (t.after p pt seg).woken m q = t.woken m q := by
  simp [after, stamp, awake]

/-- A call on its mailbox has woken a process now. -/
theorem woken_unblocks {q : Pid} (pt : Point) (g : Globals) (k : Cont) {kind : Wait → Bool} (other : q ≠ p)
    (suspended : (t.sys.proc q).blockedIn kind = true) :
    (t.after p pt (g, .unblocks q k)).woken k.mbox q = t.now + 1 := by
  obtain ⟨w, atQ, _⟩ := Proc.blockedIn_iff.mp suspended
  simp [after, stamp, Sys.unblocks_self, Sys.unblocks_named t.sys other, atQ, Proc.wake]

/-- The times up to now. -/
structure Past (t : Timed) : Prop where
  since : ∀ q, t.since q ≤ t.now
  received : ∀ m q, t.received m q ≤ t.now
  woken : ∀ m q, t.woken m q ≤ t.now
  began : ∀ q, t.began q ≤ t.now
  created : ∀ m, t.created m ≤ t.now
  producers : ∀ m, t.olderProducers m ≤ (t.sys.globals.blockedProducers m).length
  consumers : ∀ m, t.olderConsumers m ≤ (t.sys.globals.blockedConsumers m).length

theorem older_le {before : Nat} {handedOut : Bool} {waiting waiting' : List Pid} (bound : before ≤ waiting.length) :
    older before handedOut waiting waiting' ≤ waiting'.length := by
  unfold older
  split <;> omega

theorem Past.stamp (past : t.Past) (a : Act) (s' : Sys) : (t.stamp a s').Past where
  since q := by
    have before := past.since q
    simp only [Timed.stamp]
    split
    · rw [Function.update_apply]
      split <;> omega
    · omega
  received m q := by
    have before := past.received m q
    simp only [Timed.stamp]
    split <;> omega
  woken m q := by
    have before := past.woken m q
    simp only [Timed.stamp]
    split <;> omega
  began q := by
    have before := past.began q
    simp only [Timed.stamp]
    split
    · rw [Function.update_apply]
      split <;> omega
    · omega
  created m := by
    have before := past.created m
    simp only [Timed.stamp]
    split <;> omega
  producers m := older_le (past.producers m)
  consumers m := older_le (past.consumers m)

theorem past_of_run {guard : Timed → Act → Prop} (run : Transition.Run step guard boot t) : t.Past := by
  refine run.invariant Past ⟨fun _ => le_rfl, fun _ _ => le_rfl, fun _ _ => le_rfl, fun _ => le_rfl, fun _ => le_rfl,
    fun _ => Nat.zero_le _, fun _ => Nat.zero_le _⟩ ?_
  intro before a after past _ moves
  obtain ⟨s', _, rfl⟩ := Option.map_eq_some_iff.mp moves
  exact past.stamp a s'

/-- A stop, or a move outside the mailbox layer. -/
structure Unmoved (t : Timed) (a : Act) (s' : Sys) : Prop where
  globals : s'.globals = t.sys.globals
  blocked : ∀ q kind, (s'.proc q).blockedIn kind = (t.sys.proc q).blockedIn kind
  waits : ∀ q kind, (s'.proc q).waitsIn kind = (t.sys.proc q).waitsIn kind
  inside : ∀ q k, s'.proc q = .unblocking k → t.sys.proc q = .unblocking k
  awake : (t.sys.proc a.pid).blockedIn (fun _ => true) = false
  starts : ∀ q c, a = .call q c → (t.sys.proc q).idle = true
  ordinal : ∀ q kind, (t.sys.proc q).waitsIn kind = true → s'.ordinal q = t.sys.ordinal q
  calls : ∀ fn, (t.sys.calls fn).length ≤ (s'.calls fn).length

theorem unmoved_stop (here : (t.sys.proc p).At pt) (f : Fault) :
    t.Unmoved (pt.act p) { t.sys.enter p pt with fault := some f } where
  globals := Sys.enter_globals ..
  blocked q kind := by rw [Sys.enter_proc]
  waits q kind := by rw [Sys.enter_proc]
  inside q k inside := by rwa [Sys.enter_proc] at inside
  awake := by rw [Point.act_pid, here.blockedIn]
  starts q c calls := by
    cases pt <;> cases calls
    rw [here.outside_eq]
    rfl
  ordinal q kind waits := by
    cases pt with
    | start c =>
      refine Function.update_of_ne ?_ _ _
      rintro rfl
      rw [here.outside_eq] at waits
      cases waits
    | afterBlock | afterUnblock => rfl
  calls fn := by
    cases pt with
    | start c =>
      simp only [Sys.enter, Function.update_apply]
      split
      · rename_i same
        simp [same]
      · exact le_rfl
    | afterBlock | afterUnblock => exact le_rfl

theorem idle_blockedIn {proc : Proc} (idle : proc.idle = true) (kind : Wait → Bool) : proc.blockedIn kind = false := by
  cases proc <;> first | rfl | cases idle

theorem unmoved_idle {a : Act} {proc : Proc} (cpu : Option Pid) (was : (t.sys.proc a.pid).idle = true)
    (becomes : proc.idle = true) :
    t.Unmoved a { t.sys with proc := Function.update t.sys.proc a.pid proc, cpu := cpu } where
  globals := rfl
  blocked q kind := by
    change (Function.update t.sys.proc a.pid proc q).blockedIn kind = _
    by_cases moved : q = a.pid
    · rw [moved, Function.update_self, idle_blockedIn was, idle_blockedIn becomes]
    · rw [Function.update_of_ne moved]
  waits q kind := by
    change (Function.update t.sys.proc a.pid proc q).waitsIn kind = _
    by_cases moved : q = a.pid
    · rw [moved, Function.update_self, Proc.idle_waitsIn was, Proc.idle_waitsIn becomes]
    · rw [Function.update_of_ne moved]
  inside q k inside := by
    change Function.update t.sys.proc a.pid proc q = _ at inside
    by_cases moved : q = a.pid
    · rw [moved, Function.update_self] at inside
      rw [inside] at becomes
      cases becomes
    · rwa [Function.update_of_ne moved] at inside
  awake := idle_blockedIn was _
  starts := by
    rintro q c rfl
    exact was
  ordinal _ _ _ := rfl
  calls _ := le_rfl

namespace Unmoved

variable {a : Act} {s' : Sys}

theorem quiet (unmoved : t.Unmoved a s') (kind : Wait → Bool) : (s'.proc a.pid).blockedIn kind = false := by
  have awake := unmoved.awake
  rw [unmoved.blocked]
  cases atA : t.sys.proc a.pid with
  | blocked w =>
    rw [atA] at awake
    cases awake
  | outside | asleep | woken | unblocking => rfl

theorem received (unmoved : t.Unmoved a s') : (t.stamp a s').received = t.received := by
  funext m q
  refine if_neg ?_
  rintro ⟨rfl, receives⟩
  rw [unmoved.quiet] at receives
  cases receives

theorem woken (unmoved : t.Unmoved a s') : (t.stamp a s').woken = t.woken := by
  funext m q
  refine if_neg ?_
  rintro ⟨_, before, after⟩
  rw [unmoved.blocked, before] at after
  cases after

theorem receiver (unmoved : t.Unmoved a s') : (t.stamp a s').receiver = t.receiver := by
  simp [stamp, unmoved.quiet]

theorem since (unmoved : t.Unmoved a s') : (t.stamp a s').since = t.since := by
  simp [stamp, unmoved.blocked, unmoved.awake]

theorem created (unmoved : t.Unmoved a s') : (t.stamp a s').created = t.created := by
  simp [stamp, handsOut, unmoved.globals]

theorem began (unmoved : t.Unmoved a s') {q : Pid} {k : Cont} (inside : t.sys.proc q = .unblocking k) :
    (t.stamp a s').began q = t.began q := by
  cases a with
  | call p c =>
    refine Function.update_of_ne ?_ _ _
    rintro rfl
    have idle := unmoved.starts q c rfl
    rw [inside] at idle
    cases idle
  | _ => rfl

end Unmoved

/-- The invariant rule with the history. -/
theorem invariant {guard : Timed → Act → Prop} (run : Transition.Run step guard boot t)
    {Base : Timed → Prop} (base : ∀ t, Transition.Run step guard boot t → Base t) (Inv : Timed → Prop)
    (initial : Inv boot)
    (segment : ∀ t p pt seg, Base t → Inv t → guard t (pt.act p) → (t.sys.proc p).At pt →
      Path t.sys.globals p pt seg → seg = pt.exec t.sys.globals p → (∀ f, seg.2 ≠ .faults f) → Inv (t.after p pt seg))
    (unmoved : ∀ t a s', Base t → Inv t → t.Unmoved a s' → Inv (t.stamp a s')) : Inv t := by
  refine run.invariant_above base Inv initial fun before a _ above holds admitted moves => ?_
  obtain ⟨s', moved, rfl⟩ := Option.map_eq_some_iff.mp moves
  cases Sys.step_move moved with
  | @segment p pt _ here =>
    have path := Point.exec_path before.sys.globals p pt
    unfold Sys.run
    generalize atSeg : pt.exec before.sys.globals p = seg at path
    by_cases lives : ∀ f, seg.2 ≠ .faults f
    · exact segment _ _ _ _ above holds admitted here path atSeg.symm lives
    · push Not at lives
      obtain ⟨f, atF⟩ := lives
      rw [Sys.after, atF]
      exact unmoved before (pt.act p) _ above holds (unmoved_stop here f)
  | idle was becomes => exact unmoved _ _ _ above holds (unmoved_idle _ was becomes)

end Timed

end UslossKernel
