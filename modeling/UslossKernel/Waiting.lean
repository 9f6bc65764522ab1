import UslossKernel.Segments
import UslossKernel.Library.Population

namespace UslossKernel

/-- The code running on from this point follows a `blockMe` of the given kind. -/
def Point.resumesIn (kind : Wait → Bool) : Point → Bool
  | .afterBlock w => kind w
  | _ => false

/-- The code running on from this point follows an `unblockProc` of the given kind. -/
def Point.returnsIn (kind : Cont → Bool) : Point → Bool
  | .afterUnblock k => kind k
  | _ => false

theorem Proc.At.outside_eq {proc : Proc} {c : Call} (here : proc.At (.start c)) : proc = .outside := by
  cases here
  rfl

theorem Proc.At.woken_eq {proc : Proc} {w : Wait} (here : proc.At (.afterBlock w)) : proc = .woken w := by
  cases here
  rfl

theorem Proc.At.unblocking_eq {proc : Proc} {k : Cont} (here : proc.At (.afterUnblock k)) :
    proc = .unblocking k := by
  cases here
  rfl

theorem Proc.At.wokenIn {proc : Proc} {pt : Point} (here : proc.At pt) (kind : Wait → Bool) :
    proc.wokenIn kind = pt.resumesIn kind := by
  cases here <;> rfl

theorem Proc.At.unblockingIn {proc : Proc} {pt : Point} (here : proc.At pt) (kind : Cont → Bool) :
    proc.unblockingIn kind = pt.returnsIn kind := by
  cases here <;> rfl

theorem Proc.At.blockedIn {proc : Proc} {pt : Point} (here : proc.At pt) (kind : Wait → Bool) :
    proc.blockedIn kind = false := by
  cases here <;> rfl

theorem Proc.blockedIn_iff {proc : Proc} {kind : Wait → Bool} :
    proc.blockedIn kind = true ↔ ∃ w, proc = .blocked w ∧ kind w = true := by
  cases proc <;> simp [Proc.blockedIn]

theorem Proc.blockedIn_apart {proc : Proc} {kind other : Wait → Bool} (blocked : proc.blockedIn kind = true)
    (apart : ∀ w, kind w = true → other w = false) : proc.blockedIn other = false := by
  obtain ⟨w, rfl, holds⟩ := Proc.blockedIn_iff.mp blocked
  exact apart w holds

theorem Proc.idle_waitsIn {proc : Proc} (idle : proc.idle = true) (kind : Wait → Bool) :
    proc.waitsIn kind = false := by
  cases proc <;> first | rfl | cases idle

theorem Proc.wake_blockedIn (proc : Proc) (kind : Wait → Bool) : proc.wake.blockedIn kind = false := by
  cases proc <;> rfl

theorem Proc.wake_unblockingIn (proc : Proc) (kind : Cont → Bool) :
    proc.wake.unblockingIn kind = proc.unblockingIn kind := by
  cases proc <;> rfl

/-- Waking turns the suspended calls into woken ones. -/
theorem Proc.wake_wokenIn (proc : Proc) (kind : Wait → Bool) :
    proc.wake.wokenIn kind = (proc.wokenIn kind || proc.blockedIn kind) := by
  cases proc <;> simp [Proc.wake, Proc.wokenIn, Proc.blockedIn]

namespace Sys

/-- The invariant rule for the system: a stretch of code, a stretch that ends
in an undefined operation, or a move outside the mailbox layer. -/
theorem invariant {guard : Sys → Act → Prop} {start s : Sys} (run : Transition.Run Sys.step guard start s)
    {Base : Sys → Prop} (base : ∀ s, Transition.Run Sys.step guard start s → Base s) (Inv : Sys → Prop)
    (initial : Inv start)
    (segment : ∀ s p pt seg, Base s → Inv s → guard s (pt.act p) → (s.proc p).At pt →
      Path s.globals p pt seg → (∀ f, seg.2 ≠ .faults f) → Inv (s.after p pt seg))
    (stops : ∀ s p pt f, Inv s → Inv { s.enter p pt with fault := some f })
    (idle : ∀ s q proc cpu, Inv s → (s.proc q).idle = true → proc.idle = true →
      Inv { s with proc := Function.update s.proc q proc, cpu := cpu }) : Inv s := by
  refine run.invariant_above base Inv initial fun before a _ above holds admitted moves => ?_
  cases step_move moves with
  | @segment p pt _ here =>
    have path := Point.exec_path before.globals p pt
    unfold Sys.run
    generalize pt.exec before.globals p = seg at path
    by_cases lives : ∀ f, seg.2 ≠ .faults f
    · exact segment _ _ _ _ above holds admitted here path lives
    · push Not at lives
      obtain ⟨f, atF⟩ := lives
      rw [after, atF]
      exact stops _ _ _ _ holds
  | idle was becomes => exact idle _ _ _ _ holds was becomes

/-- Where a process stands after the stretch of code it has run. -/
theorem run_self (s : Sys) (p : Pid) (pt : Point) :
    (∃ r, (pt.exec s.globals p).2 = .returns r ∧ (s.run p pt).proc p = .outside) ∨
    (∃ w, (pt.exec s.globals p).2 = .blocks w ∧ (s.run p pt).proc p = .blocked w) ∨
    (∃ pid k, (pt.exec s.globals p).2 = .unblocks pid k ∧ (s.run p pt).proc p = .unblocking k) ∨
    ∃ f, (pt.exec s.globals p).2 = .faults f ∧ (s.run p pt).proc p = s.proc p := by
  unfold run after
  obtain ⟨g, outcome⟩ := pt.exec s.globals p
  cases outcome with
  | returns r => exact .inl ⟨r, rfl, by simp [settle]⟩
  | blocks w => exact .inr (.inl ⟨w, rfl, by simp [settle]⟩)
  | faults f => exact .inr (.inr (.inr ⟨f, rfl, by simp [settle]⟩))
  | unblocks pid k =>
    refine .inr (.inr (.inl ⟨pid, k, rfl, ?_⟩))
    by_cases named : p = pid
    · subst named
      simp [settle, Proc.wake]
    · simp [settle, Function.update_of_ne named]

theorem after_globals {s : Sys} {p : Pid} {pt : Point} {seg : Segment} (lives : ∀ f, seg.2 ≠ .faults f) :
    (s.after p pt seg).globals = seg.1 := by
  obtain ⟨g, outcome⟩ := seg
  cases outcome with
  | returns | blocks | unblocks => rfl
  | faults f => exact absurd rfl (lives f)

theorem returned_returns (s : Sys) (p : Pid) (pt : Point) (g : Globals) (r : Result) :
    (s.after p pt (g, .returns r)).returned =
      Function.update s.returned pt.fn (s.returned pt.fn ++ [((s.enter p pt).ordinal p, r)]) := by
  cases pt <;> rfl

variable {s : Sys} {p : Pid} {pt : Point} {seg : Segment}

/-- Who is suspended after a stretch of code was so before, unless it is the
process that ran it. -/
theorem blocked_after {q : Pid} {kind : Wait → Bool}
    (blocked : ((s.after p pt seg).proc q).blockedIn kind = true) :
    (s.proc q).blockedIn kind = true ∨ q = p ∧ ∃ w, seg.2 = .blocks w ∧ kind w = true := by
  obtain ⟨g, outcome⟩ := seg
  by_cases self : q = p
  · subst self
    cases outcome with
    | returns => simp [after, settle, Proc.blockedIn] at blocked
    | blocks w =>
      simp only [after, settle, Function.update_self] at blocked
      exact .inr ⟨rfl, w, rfl, blocked⟩
    | unblocks pid k =>
      simp only [after, settle, enter_proc, Function.update_apply] at blocked
      split at blocked
      · rw [Proc.wake_blockedIn] at blocked
        cases blocked
      · simp [Proc.blockedIn] at blocked
    | faults =>
      simp only [after, settle, enter_proc] at blocked
      exact .inl blocked
  · refine .inl ?_
    cases outcome with
    | returns | blocks =>
      simpa only [after, settle, enter_proc, Function.update_of_ne self] using blocked
    | unblocks pid k =>
      simp only [after, settle, enter_proc] at blocked
      by_cases named : q = pid
      · subst named
        rw [Function.update_self, Proc.wake_blockedIn] at blocked
        cases blocked
      · rwa [Function.update_of_ne named, Function.update_of_ne self] at blocked
    | faults => simpa only [after, settle, enter_proc] using blocked

theorem unblocks_self (s : Sys) (p : Pid) (pt : Point) (g : Globals) (pid : Pid) (k : Cont) :
    (s.after p pt (g, .unblocks pid k)).proc p = .unblocking k := by
  simp only [after, settle, enter_proc]
  by_cases self : p = pid
  · subst self
    rw [Function.update_self, Function.update_self]
    rfl
  · rw [Function.update_of_ne self, Function.update_self]

/-- The process that is named is woken. -/
theorem unblocks_named (s : Sys) {p pid : Pid} (other : pid ≠ p) (pt : Point) (g : Globals) (k : Cont) :
    (s.after p pt (g, .unblocks pid k)).proc pid = (s.proc pid).wake := by
  simp only [after, settle, enter_proc, Function.update_self, Function.update_of_ne other]

/-- Who is inside an `unblockProc` after a stretch of code was so before,
unless it is the process that ran it. -/
theorem unblockingIn_after {q : Pid} {kind : Cont → Bool}
    (inside : ((s.after p pt seg).proc q).unblockingIn kind = true) :
    (s.proc q).unblockingIn kind = true ∨ q = p ∧ ∃ pid k, seg.2 = .unblocks pid k ∧ kind k = true := by
  obtain ⟨g, outcome⟩ := seg
  by_cases self : q = p
  · subst self
    cases outcome with
    | returns | blocks => simp [after, settle] at inside
    | unblocks pid k =>
      rw [unblocks_self] at inside
      exact .inr ⟨rfl, pid, k, rfl, inside⟩
    | faults => exact .inl (by simpa only [after, settle, enter_proc] using inside)
  · refine .inl ?_
    cases outcome with
    | returns | blocks => simpa only [after, settle, enter_proc, Function.update_of_ne self] using inside
    | unblocks pid k =>
      simp only [after, settle, enter_proc, Function.update_apply, if_neg self] at inside
      split at inside
      · rename_i named
        subst named
        rwa [if_neg self, Proc.wake_unblockingIn] at inside
      · exact inside
    | faults => simpa only [after, settle, enter_proc] using inside

variable {n : Nat}

/-- A move outside the mailbox layer does not count. -/
theorem counts_idle {q : Pid} {proc : Proc} {kind : Proc → Bool}
    (busy : ∀ proc, proc.idle = true → kind proc = false) (counted : Counts s.proc kind n)
    (was : (s.proc q).idle = true) (becomes : proc.idle = true) :
    Counts (Function.update s.proc q proc) kind n := by
  simpa [busy _ was, busy _ becomes] using counted.update q proc

theorem woken_idle {q : Pid} {proc : Proc} {kind : Wait → Bool} (counted : Counts s.proc (Proc.wokenIn kind) n)
    (was : (s.proc q).idle = true) (becomes : proc.idle = true) :
    Counts (Function.update s.proc q proc) (Proc.wokenIn kind) n :=
  counts_idle (fun proc idle => by cases proc <;> first | rfl | cases idle) counted was becomes

theorem unblocking_idle {q : Pid} {proc : Proc} {kind : Cont → Bool}
    (counted : Counts s.proc (Proc.unblockingIn kind) n) (was : (s.proc q).idle = true)
    (becomes : proc.idle = true) : Counts (Function.update s.proc q proc) (Proc.unblockingIn kind) n :=
  counts_idle (fun proc idle => by cases proc <;> first | rfl | cases idle) counted was becomes

theorem blocked_idle {q r : Pid} {proc : Proc} {kind : Wait → Bool} (becomes : proc.idle = true)
    (blocked : (Function.update s.proc q proc r).blockedIn kind = true) : (s.proc r).blockedIn kind = true := by
  by_cases moved : r = q
  · subst moved
    rw [Function.update_self] at blocked
    cases proc <;> first | cases blocked | cases becomes
  · rwa [Function.update_of_ne moved] at blocked

/-- How the number of woken calls of a kind changes. -/
theorem woken_returns {g : Globals} {r : Result} {kind : Wait → Bool} (here : (s.proc p).At pt)
    (counted : Counts s.proc (Proc.wokenIn kind) n) :
    Counts (s.after p pt (g, .returns r)).proc (Proc.wokenIn kind) (n - if pt.resumesIn kind then 1 else 0) := by
  have moved := counted.update p .outside
  rw [here.wokenIn] at moved
  simpa [after, settle] using moved

theorem woken_blocks {g : Globals} {w : Wait} {kind : Wait → Bool} (here : (s.proc p).At pt)
    (counted : Counts s.proc (Proc.wokenIn kind) n) :
    Counts (s.after p pt (g, .blocks w)).proc (Proc.wokenIn kind) (n - if pt.resumesIn kind then 1 else 0) := by
  have moved := counted.update p (.blocked w)
  rw [here.wokenIn] at moved
  simpa [after, settle] using moved

theorem woken_unblocks {g : Globals} {pid : Pid} {k : Cont} {kind : Wait → Bool} (here : (s.proc p).At pt)
    (counted : Counts s.proc (Proc.wokenIn kind) n) :
    Counts (s.after p pt (g, .unblocks pid k)).proc (Proc.wokenIn kind)
      ((n - if pt.resumesIn kind then 1 else 0) + if (s.proc pid).blockedIn kind then 1 else 0) := by
  have moved := counted.update p (.unblocking k)
  rw [here.wokenIn] at moved
  have woken := moved.update pid (Function.update s.proc p (.unblocking k) pid).wake
  simp only [after, settle, enter_proc]
  by_cases self : pid = p
  · subst self
    rw [here.blockedIn]
    simpa [Proc.wake] using woken
  · rw [Function.update_of_ne self] at woken ⊢
    rw [Proc.wake_wokenIn] at woken
    cases suspended : (s.proc pid).blockedIn kind with
    | false => simpa [suspended] using woken
    | true =>
      have asleep : (s.proc pid).wokenIn kind = false := by
        obtain ⟨w, atW, _⟩ := Proc.blockedIn_iff.mp suspended
        rw [atW]
        rfl
      simpa [suspended, asleep] using woken

/-- How the number of calls inside an `unblockProc` of a kind changes. -/
theorem unblocking_returns {g : Globals} {r : Result} {kind : Cont → Bool} (here : (s.proc p).At pt)
    (counted : Counts s.proc (Proc.unblockingIn kind) n) :
    Counts (s.after p pt (g, .returns r)).proc (Proc.unblockingIn kind)
      (n - if pt.returnsIn kind then 1 else 0) := by
  have moved := counted.update p .outside
  rw [here.unblockingIn] at moved
  simpa [after, settle] using moved

theorem unblocking_blocks {g : Globals} {w : Wait} {kind : Cont → Bool} (here : (s.proc p).At pt)
    (counted : Counts s.proc (Proc.unblockingIn kind) n) :
    Counts (s.after p pt (g, .blocks w)).proc (Proc.unblockingIn kind)
      (n - if pt.returnsIn kind then 1 else 0) := by
  have moved := counted.update p (.blocked w)
  rw [here.unblockingIn] at moved
  simpa [after, settle] using moved

theorem unblocking_unblocks {g : Globals} {pid : Pid} {k : Cont} {kind : Cont → Bool} (here : (s.proc p).At pt)
    (counted : Counts s.proc (Proc.unblockingIn kind) n) :
    Counts (s.after p pt (g, .unblocks pid k)).proc (Proc.unblockingIn kind)
      (n + (if kind k then 1 else 0) - if pt.returnsIn kind then 1 else 0) := by
  have moved := counted.update p (.unblocking k)
  rw [here.unblockingIn] at moved
  have woken := moved.update pid (Function.update s.proc p (.unblocking k) pid).wake
  simp only [Proc.wake_unblockingIn, Nat.add_sub_cancel] at woken
  simp only [after, settle, enter_proc]
  exact woken

theorem unblocking_after {kind : Cont → Bool} (seg : Segment) (here : (s.proc p).At pt)
    (counted : Counts s.proc (Proc.unblockingIn kind) n) :
    ∃ n', Counts (s.after p pt seg).proc (Proc.unblockingIn kind) n' := by
  obtain ⟨g, outcome⟩ := seg
  cases outcome with
  | returns => exact ⟨_, unblocking_returns here counted⟩
  | blocks => exact ⟨_, unblocking_blocks here counted⟩
  | unblocks => exact ⟨_, unblocking_unblocks here counted⟩
  | faults => exact ⟨n, by simpa only [after, settle, enter_proc] using counted⟩

theorem Settled.no_woken (settled : s.Settled) {kind : Wait → Bool} : Counts s.proc (Proc.wokenIn kind) 0 := by
  refine Counts.zero_iff.mpr fun q => ?_
  cases atQ : s.proc q with
  | woken w => exact (settled q w atQ).elim
  | outside | asleep | blocked | unblocking => rfl

/-- Only the process that runs can leave the woken ones. -/
theorem woken_after {kind : Wait → Bool} (seg : Segment) (here : (s.proc p).At pt)
    (counted : Counts s.proc (Proc.wokenIn kind) n) : ∃ n', Counts (s.after p pt seg).proc (Proc.wokenIn kind) n' ∧
      n ≤ n' + (if pt.resumesIn kind then 1 else 0) := by
  obtain ⟨g, outcome⟩ := seg
  cases outcome with
  | returns => exact ⟨_, woken_returns here counted, by omega⟩
  | blocks => exact ⟨_, woken_blocks here counted, by omega⟩
  | unblocks => exact ⟨_, woken_unblocks here counted, by omega⟩
  | faults => exact ⟨n, by simpa only [after, settle, enter_proc] using counted, by omega⟩

/-- As long as calls of this kind are suspended, enough others have been woken
and are on the way. -/
def Covered (kind : Wait → Bool) (Enough : Globals → Nat → Prop) (s : Sys) : Prop :=
  ∃ n, Counts s.proc (Proc.wokenIn kind) n ∧ ((∃ q, (s.proc q).blockedIn kind = true) → Enough s.globals n)

theorem Covered.of_run {guard : Sys → Act → Prop} {s : Sys} (run : Transition.Run Sys.step guard boot s)
    {Base : Sys → Prop} (base : ∀ s, Transition.Run Sys.step guard boot s → Base s) {kind : Wait → Bool}
    {Enough : Globals → Nat → Prop}
    (segment : ∀ s p pt seg, Base s → s.Covered kind Enough → guard s (pt.act p) → (s.proc p).At pt →
      Path s.globals p pt seg → (∀ f, seg.2 ≠ .faults f) → (s.after p pt seg).Covered kind Enough) :
    s.Covered kind Enough := by
  refine invariant run base (Covered kind Enough) ?_ segment ?_ ?_
  · refine ⟨0, Counts.zero_iff.mpr fun _ => rfl, ?_⟩
    rintro ⟨q, suspended⟩
    cases suspended
  · intro s p pt f covered
    simpa only [Covered, enter_proc, enter_globals] using covered
  · intro s q proc cpu covered was becomes
    obtain ⟨n, counted, enough⟩ := covered
    refine ⟨n, woken_idle counted was becomes, ?_⟩
    rintro ⟨r, suspended⟩
    exact enough ⟨r, blocked_idle becomes suspended⟩

theorem Covered.enough {kind : Wait → Bool} {Enough : Globals → Nat → Prop} (covered : s.Covered kind Enough)
    (settled : s.Settled) (suspended : (s.proc p).blockedIn kind = true) : Enough s.globals 0 := by
  obtain ⟨n, counted, enough⟩ := covered
  obtain rfl := counted.unique settled.no_woken
  exact enough ⟨p, suspended⟩

end Sys

end UslossKernel
