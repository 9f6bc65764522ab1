import UslossKernel.UserWaits

namespace UslossKernel.Phase3

open LinkedList Phase1b Kernel Machine Users

/-- A process is created once by `sys_spawn`, starts once, in the function with the
argument that its `Spawn` has named, and its pid is returned once, by that `Spawn`. -/
def StartLaw : UserEvent → List UserEvent → Prop
  | .created _ child _, older => ∀ parent f, UserEvent.created parent child f ∉ older
  | .started pid f, older => (∃ parent, UserEvent.created parent pid f ∈ older) ∧ ∀ g, UserEvent.started pid g ∉ older
  | .spawned parent f pid ret, older =>
    ret = 0 ∧ (pid = -1 ∨ pid = -2 ∨
      UserEvent.created parent pid.toInt f ∈ older ∧ ∀ other, ¬ Spawned older other pid.toInt)
  | _, _ => True

/-- The function of the process has returned, or it has called `Terminate`. -/
def Ending : Option Syscall → Prop
  | some (.terminate ..) => True
  | _ => False

/-- Every wrapper belongs to one process, or to one `sys_spawn` that has not called `spork`. -/
structure Wrapped (s : Users) : Prop where
  modes : ∀ i, s.machine.kernel.occupied i = true → s.call i ≠ none → s.user i = true
  owned : ∀ i w, s.machine.kernel.occupied i = true → s.arg i = some w → w < s.mallocs
  alone : ∀ i j w, s.machine.kernel.occupied i = true → s.machine.kernel.occupied j = true →
    s.arg i = some w → s.arg j = some w → i = j
  held : ∀ i w, s.machine.kernel.occupied i = true → s.arg i = some w → ¬ Ending (s.call i) →
    ∃ f parent, s.heap w = some f ∧ UserEvent.created parent (s.machine.pid i) f ∈ s.log
  unstarted : ∀ i, s.machine.kernel.occupied i = true → s.machine.place i = .fresh →
    ∀ f, UserEvent.started (s.machine.pid i) f ∉ s.log
  pending : ∀ p args w, s.machine.kernel.occupied p = true → s.call p = some (.spawn args w) → w < s.mallocs ∧
    (s.machine.place p = .user → s.heap w = some ⟨args.arg1, args.arg2⟩ ∧
      ∀ i, s.machine.kernel.occupied i = true → s.arg i ≠ some w)
  apart : ∀ p q args args' w, s.machine.kernel.occupied p = true → s.machine.kernel.occupied q = true →
    s.machine.place p = .user → s.machine.place q = .user → s.call p = some (.spawn args w) →
      s.call q = some (.spawn args' w) → p = q
  making : ∀ p i args w, s.machine.kernel.occupied p = true → s.call p = some (.spawn args w) →
    s.machine.place p = .inside (.spork i) →
      UserEvent.created (s.machine.pid p) (s.machine.pid i) ⟨args.arg1, args.arg2⟩ ∈ s.log
  createdBelow : ∀ parent child f, UserEvent.created parent child f ∈ s.log → child < s.machine.kernel.next_pid
  startedBelow : ∀ pid f, UserEvent.started pid f ∈ s.log → pid < s.machine.kernel.next_pid

/-- What a turn of `p` does with the wrappers. -/
structure TurnWrapped (s : Users) (p : Slot) (s' : Users) : Prop extends TurnFrame s p s' where
  arg : ∀ i, taken s.machine s'.machine i = false → s'.arg i = s.arg i
  given : ∀ i w, taken s.machine s'.machine i = true → s'.arg i = some w → ∃ args,
    s.call p = some (.spawn args w) ∧ s.machine.place p = .user ∧
      UserEvent.created (s.machine.pid p) (s'.machine.pid i) ⟨args.arg1, args.arg2⟩ ∈ s'.log
  heap : ∀ w, w < s.mallocs → s'.heap w = s.heap w ∨ s.arg p = some w ∧ Ending (s'.call p)
  mallocs : s.mallocs ≤ s'.mallocs
  ends : Ending (s.call p) → Ending (s'.call p)
  modes : s'.call p ≠ none → s'.user p = true
  pending : ∀ args w, s'.call p = some (.spawn args w) → w < s'.mallocs ∧
    (s'.machine.place p = .user → s.mallocs ≤ w ∧ s'.heap w = some ⟨args.arg1, args.arg2⟩)
  making : ∀ i args w, s'.call p = some (.spawn args w) → s'.machine.place p = .inside (.spork i) →
    UserEvent.created (s.machine.pid p) (s'.machine.pid i) ⟨args.arg1, args.arg2⟩ ∈ s'.log
  created : ∀ parent child f, UserEvent.created parent child f ∈ s'.log →
    UserEvent.created parent child f ∈ s.log ∨ child < s'.machine.kernel.next_pid
  started : ∀ pid f, UserEvent.started pid f ∈ s'.log → UserEvent.started pid f ∈ s.log ∨ pid = s.machine.pid p

variable {m m' : Machine} {s s' : Users} {p q i : Slot} {c : Syscall} {pt : Phase1b.Point} {k : Kernel} {value : Int}
  {status : Option Int}

namespace TurnWrapped

/-- The wrapper of another process is as it was. -/
theorem kept {w : Nat} (after : TurnWrapped s p s') (wrapped : Wrapped s) (other : i ≠ p)
    (occupied : s.machine.kernel.occupied i = true) (arg : s.arg i = some w) : s'.heap w = s.heap w := by
  refine (after.heap w (wrapped.owned i w occupied arg)).resolve_right ?_
  rintro ⟨own, _⟩
  exact other (wrapped.alone i p w occupied after.turned.here arg own)

/-- The process that has been created has the wrapper of this `sys_spawn`. -/
theorem wrapper {w : Nat} (after : TurnWrapped s p s') (wrapped : Wrapped s)
    (new : taken s.machine s'.machine i = true) (arg : s'.arg i = some w) :
    (∃ args : Sysargs, s'.heap w = some ⟨args.arg1, args.arg2⟩ ∧
      UserEvent.created (s.machine.pid p) (s'.machine.pid i) ⟨args.arg1, args.arg2⟩ ∈ s'.log) ∧
    w < s.mallocs ∧ ∀ j, s.machine.kernel.occupied j = true → s.arg j ≠ some w := by
  obtain ⟨args, call, user, created⟩ := after.given i w new arg
  obtain ⟨bound, holds⟩ := wrapped.pending p args w after.turned.here call
  obtain ⟨holds, unowned⟩ := holds user
  have same := (after.heap w bound).resolve_right fun own => unowned p after.turned.here own.1
  exact ⟨⟨args, same.trans holds, created⟩, bound, unowned⟩

theorem alone {j : Slot} {w : Nat} (after : TurnWrapped s p s') (wrapped : Wrapped s)
    (occupiedI : s'.machine.kernel.occupied i = true) (occupiedJ : s'.machine.kernel.occupied j = true)
    (argI : s'.arg i = some w) (argJ : s'.arg j = some w) : i = j := by
  rcases after.cases occupiedI with ⟨oldI, beforeI, _⟩ | ⟨newI, _⟩ <;>
    rcases after.cases occupiedJ with ⟨oldJ, beforeJ, _⟩ | ⟨newJ, _⟩
  · rw [after.arg i oldI] at argI
    rw [after.arg j oldJ] at argJ
    exact wrapped.alone i j w beforeI beforeJ argI argJ
  · rw [after.arg i oldI] at argI
    exact absurd argI ((after.wrapper wrapped newJ argJ).2.2 i beforeI)
  · rw [after.arg j oldJ] at argJ
    exact absurd argJ ((after.wrapper wrapped newI argI).2.2 j beforeJ)
  · exact after.turned.one i j newI newJ

theorem held {w : Nat} (after : TurnWrapped s p s') (wrapped : Wrapped s)
    (occupied : s'.machine.kernel.occupied i = true) (arg : s'.arg i = some w) (going : ¬ Ending (s'.call i)) :
    ∃ f parent, s'.heap w = some f ∧ UserEvent.created parent (s'.machine.pid i) f ∈ s'.log := by
  rcases after.cases occupied with ⟨old, before, same⟩ | ⟨new, _⟩
  · rw [after.arg i old] at arg
    rw [same]
    by_cases own : i = p
    · subst own
      obtain ⟨f, parent, holds, created⟩ := wrapped.held i w before arg fun ends => going (after.ends ends)
      have same := (after.heap w (wrapped.owned i w before arg)).resolve_right fun freed => going freed.2
      exact ⟨f, parent, same.trans holds, after.grows _ created⟩
    · rw [after.call i own old] at going
      obtain ⟨f, parent, holds, created⟩ := wrapped.held i w before arg going
      exact ⟨f, parent, (after.kept wrapped own before arg).trans holds, after.grows _ created⟩
  · obtain ⟨⟨args, holds, created⟩, _⟩ := after.wrapper wrapped new arg
    exact ⟨_, _, holds, created⟩

theorem unstarted (after : TurnWrapped s p s') (wrapped : Wrapped s) (ledger : Ledger s.machine)
    (occupied : s'.machine.kernel.occupied i = true) (fresh : s'.machine.place i = .fresh) (f : FunctionArgs) :
    UserEvent.started (s'.machine.pid i) f ∉ s'.log := by
  intro started
  rcases after.cases occupied with ⟨old, before, same⟩ | ⟨_, _, bound, _⟩
  · have other : i ≠ p := by
      rintro rfl
      exact after.turned.ran fresh
    rw [after.turned.place i other before] at fresh
    rw [same] at started
    rcases after.started _ f started with earlier | own
    · exact wrapped.unstarted i before fresh f earlier
    · exact other (ledger.family.distinct i p before own)
  · have less : s.machine.pid p < s.machine.kernel.next_pid := ledger.family.below p
    rcases after.started _ f started with earlier | own
    · have := wrapped.startedBelow _ f earlier
      omega
    · omega

/-- A `sys_spawn` of another process that has not called `spork` still has its wrapper. -/
theorem waiting {args : Sysargs} {w : Nat} (after : TurnWrapped s p s') (wrapped : Wrapped s) (own : q ≠ p)
    (before : s.machine.kernel.occupied q = true) (call : s.call q = some (.spawn args w))
    (atUser : s.machine.place q = .user) : s'.heap w = some ⟨args.arg1, args.arg2⟩ ∧
      ∀ i, s'.machine.kernel.occupied i = true → s'.arg i ≠ some w := by
  obtain ⟨bound, holds⟩ := wrapped.pending q args w before call
  obtain ⟨holds, unowned⟩ := holds atUser
  have same := (after.heap w bound).resolve_right fun freed => unowned p after.turned.here freed.1
  refine ⟨same.trans holds, fun i occupied arg => ?_⟩
  rcases after.cases occupied with ⟨old, before, _⟩ | ⟨new, _⟩
  · rw [after.arg i old] at arg
    exact unowned i before arg
  · obtain ⟨args', callP, userP, _⟩ := after.given i w new arg
    exact own (wrapped.apart q p args args' w before after.turned.here atUser userP call callP)

/-- Another process that is in a `sys_spawn` was in it before. -/
theorem calling {args : Sysargs} {w : Nat} (after : TurnWrapped s p s') (own : q ≠ p)
    (occupied : s'.machine.kernel.occupied q = true) (call : s'.call q = some (.spawn args w)) :
    s.machine.kernel.occupied q = true ∧ s.call q = some (.spawn args w) ∧ s'.machine.pid q = s.machine.pid q := by
  rcases after.cases occupied with ⟨old, before, same⟩ | ⟨_, _, _, _, none⟩
  · exact ⟨before, (after.call q own old).symm.trans call, same⟩
  · exact absurd (none.symm.trans call) (by simp)

theorem pends {args : Sysargs} {w : Nat} (after : TurnWrapped s p s') (wrapped : Wrapped s)
    (occupied : s'.machine.kernel.occupied q = true) (call : s'.call q = some (.spawn args w)) :
    w < s'.mallocs ∧ (s'.machine.place q = .user → s'.heap w = some ⟨args.arg1, args.arg2⟩ ∧
      ∀ i, s'.machine.kernel.occupied i = true → s'.arg i ≠ some w) := by
  by_cases own : q = p
  · subst own
    obtain ⟨bound, user⟩ := after.pending args w call
    refine ⟨bound, fun place => ⟨(user place).2, fun i occupied arg => ?_⟩⟩
    have least := (user place).1
    rcases after.cases occupied with ⟨old, before, _⟩ | ⟨new, _⟩
    · rw [after.arg i old] at arg
      have := wrapped.owned i w before arg
      omega
    · have := (after.wrapper wrapped new arg).2.1
      omega
  · obtain ⟨before, call, _⟩ := after.calling own occupied call
    refine ⟨(wrapped.pending q args w before call).1.trans_le after.mallocs, fun atUser => ?_⟩
    rw [after.turned.place q own before] at atUser
    exact after.waiting wrapped own before call atUser

theorem apart {r : Slot} {args args' : Sysargs} {w : Nat} (after : TurnWrapped s p s') (wrapped : Wrapped s)
    (occupiedQ : s'.machine.kernel.occupied q = true) (occupiedR : s'.machine.kernel.occupied r = true)
    (placeQ : s'.machine.place q = .user) (placeR : s'.machine.place r = .user)
    (callQ : s'.call q = some (.spawn args w)) (callR : s'.call r = some (.spawn args' w)) : q = r := by
  -- a wrapper that has just been allocated belongs to nobody else
  have fresh : ∀ {j args}, j ≠ p → s'.machine.kernel.occupied j = true → s'.call j = some (.spawn args w) →
      ¬ s.mallocs ≤ w := by
    intro j args own occupied call
    obtain ⟨before, call, _⟩ := after.calling own occupied call
    have := (wrapped.pending j args w before call).1
    omega
  by_cases ownQ : q = p <;> by_cases ownR : r = p
  · rw [ownQ, ownR]
  · subst ownQ
    exact absurd (((after.pending args w callQ).2 placeQ).1) (fresh ownR occupiedR callR)
  · subst ownR
    exact absurd (((after.pending args' w callR).2 placeR).1) (fresh ownQ occupiedQ callQ)
  · obtain ⟨beforeQ, callQ, _⟩ := after.calling ownQ occupiedQ callQ
    obtain ⟨beforeR, callR, _⟩ := after.calling ownR occupiedR callR
    rw [after.turned.place q ownQ beforeQ] at placeQ
    rw [after.turned.place r ownR beforeR] at placeR
    exact wrapped.apart q r args args' w beforeQ beforeR placeQ placeR callQ callR

theorem makes {args : Sysargs} {w : Nat} (after : TurnWrapped s p s') (wrapped : Wrapped s) (ledger : Ledger s.machine)
    (ledger' : Ledger s'.machine) (occupied : s'.machine.kernel.occupied q = true)
    (call : s'.call q = some (.spawn args w)) (place : s'.machine.place q = .inside (.spork i)) :
    UserEvent.created (s'.machine.pid q) (s'.machine.pid i) ⟨args.arg1, args.arg2⟩ ∈ s'.log := by
  by_cases own : q = p
  · subst own
    rw [after.turned.self.2]
    exact after.making i args w call place
  · obtain ⟨before, call, same⟩ := after.calling own occupied call
    have child := (ledger'.sporking i q occupied place).1
    rw [after.turned.place q own before] at place
    have childBefore := (ledger.sporking i q before place).1
    rcases after.cases child.1 with ⟨_, _, sameChild⟩ | ⟨new, _⟩
    · rw [same, sameChild]
      exact after.grows _ (wrapped.making q i args w before call place)
    · simp [taken, childBefore.1] at new

end TurnWrapped

/-- The wrappers after a turn. -/
theorem Wrapped.turn (wrapped : Wrapped s) (ledger : Ledger s.machine) (ledger' : Ledger s'.machine)
    (after : TurnWrapped s p s') : Wrapped s' := by
  have grows := after.turned.counts
  refine ⟨fun i occupied calls => ?_, fun i w occupied arg => ?_,
    fun i j w occupiedI occupiedJ => after.alone wrapped occupiedI occupiedJ,
    fun i w occupied => after.held wrapped occupied, fun i occupied => after.unstarted wrapped ledger occupied,
    fun q args w occupied => after.pends wrapped occupied,
    fun q r args args' w occupiedQ occupiedR => after.apart wrapped occupiedQ occupiedR,
    fun q i args w occupied => after.makes wrapped ledger ledger' occupied, fun parent child f created => ?_,
    fun pid f started => ?_⟩
  · by_cases own : i = p
    · subst own
      exact after.modes calls
    · rcases after.cases occupied with ⟨old, before, _⟩ | ⟨_, _, _, _, none⟩
      · rw [after.call i own old] at calls
        exact (after.user i own old).trans (wrapped.modes i before calls)
      · exact absurd none calls
  · rcases after.cases occupied with ⟨old, before, _⟩ | ⟨new, _⟩
    · rw [after.arg i old] at arg
      exact (wrapped.owned i w before arg).trans_le after.mallocs
    · exact (after.wrapper wrapped new arg).2.1.trans_le after.mallocs
  · rcases after.created parent child f created with earlier | bound
    · have := wrapped.createdBelow parent child f earlier
      omega
    · exact bound
  · rcases after.started pid f started with earlier | rfl
    · have := wrapped.startedBelow pid f earlier
      omega
    · have less : s.machine.pid p < s.machine.kernel.next_pid := ledger.family.below p
      omega

/-- A turn that allocates and frees nothing and begins no `sys_spawn`. -/
theorem TurnWrapped.idle (newer : List UserEvent) (frame : TurnFrame s p s')
    (arg : ∀ i, s'.arg i = if taken s.machine s'.machine i then none else s.arg i) (heap : s'.heap = s.heap)
    (mallocs : s'.mallocs = s.mallocs)
    (modes : s'.call p ≠ none → s'.user p = true) (ends : Ending (s.call p) → Ending (s'.call p))
    (outside : ∀ args w, s'.call p ≠ some (.spawn args w)) (log : s'.log = newer ++ s.log)
    (silent : ∀ e ∈ newer, (∀ parent child f, e ≠ .created parent child f) ∧
      ∀ pid f, e = .started pid f → pid = s.machine.pid p) : TurnWrapped s p s' := by
  refine ⟨frame, fun i old => by rw [arg, old]; rfl, fun i w new given => ?_, fun w _ => .inl (by rw [heap]),
    mallocs.ge, ends, modes, fun args w now => absurd now (outside args w),
    fun i args w now => absurd now (outside args w), fun parent child f created => .inl ?_, fun pid f started => ?_⟩
  · rw [arg, new] at given
    cases given
  · rw [log] at created
    exact (List.mem_append.mp created).resolve_left fun new => (silent _ new).1 _ _ _ rfl
  · rw [log] at started
    exact (List.mem_append.mp started).symm.imp_right fun new => (silent _ new).2 _ _ rfl

/-- The user log is justified, and while the machine runs the wrappers are in order. -/
structure Begun (s : Users) : Prop where
  laws : History.Justified StartLaw s.log
  on : s.machine.stopped = none → Wrapped s

theorem boot_begun : Begun Users.boot := by
  refine ⟨.nil, fun _ => ⟨?_, ?_, ?_, ?_, ?_, ?_, ?_, ?_, ?_, ?_⟩⟩
  · rintro i _ calls
    exact absurd rfl calls
  · rintro _ _ _ ⟨⟩
  · rintro _ _ _ _ _ ⟨⟩
  · rintro _ _ _ ⟨⟩
  · rintro _ _ _ _ ⟨⟩
  · rintro _ _ _ _ ⟨⟩
  · rintro _ _ _ _ _ _ _ _ _ ⟨⟩
  · rintro _ _ _ _ _ ⟨⟩
  · rintro _ _ _ ⟨⟩
  · rintro _ _ ⟨⟩

theorem Begun.turn (begun : Begun s) (kept : Kept s) (kept' : Kept s') (goesOn : s.machine.stopped = none)
    (laws : History.Justified StartLaw s'.log) (after : s'.machine.stopped = none → TurnWrapped s p s') : Begun s' :=
  ⟨laws, fun goesOn' => (begun.on goesOn).turn (kept.on goesOn).1.ledger (kept'.on goesOn').1.ledger (after goesOn')⟩

theorem Begun.kernel (begun : Begun s) (kept : Kept s) {t : Turn} {user : Bool} (kernelMode : s.user t.process = false)
    (turns : s.machine.turn t = some m') : Begun (s.become m' user none) := by
  obtain ⟨goesOn, occupied, _⟩ := turn_live turns
  have wrapped := begun.on goesOn
  have self : taken s.machine m' t.process = false := by simp [taken, occupied]
  have outside : s.call t.process = none := by
    by_contra calls
    exact absurd (kernelMode.symm.trans (wrapped.modes _ occupied calls)) (by decide)
  have same : (s.become m' user none).call t.process = none := by
    show (if taken s.machine m' t.process then none else s.call t.process) = none
    rw [outside, ite_self]
  refine begun.turn (p := t.process) kept (kept.kernel kernelMode turns) goesOn begun.laws fun goesOn' => ?_
  refine .idle [] (.kernel (kept.on goesOn).1.ledger kernelMode turns goesOn') (fun _ => rfl) rfl rfl ?_ ?_ ?_ rfl ?_
  · exact fun calls => absurd same calls
  · rw [outside]
    exact fun impossible => impossible.elim
  · rw [same]
    rintro _ _ ⟨⟩
  · simp

/-- A user process enters or leaves a system call. -/
theorem Begun.calls (begun : Begun s) (kept : Kept s) (kept' : Kept s') (goesOn : s.machine.stopped = none)
    (live : s.machine.live p = true) (place : s.machine.place p = .user) (userMode : s.user p = true)
    (machine : s'.machine = s.machine) (user : s'.user = s.user) (arg : s'.arg = s.arg) (entered : Option Syscall)
    (call : s'.call = Function.update s.call p entered) (ends : ¬ Ending (s.call p))
    (heap : ∀ w, w < s.mallocs → s'.heap w = s.heap w ∨ s.arg p = some w ∧ Ending entered)
    (mallocs : s.mallocs ≤ s'.mallocs)
    (pending : ∀ args w, entered = some (.spawn args w) →
      s.mallocs ≤ w ∧ w < s'.mallocs ∧ s'.heap w = some ⟨args.arg1, args.arg2⟩)
    (newer : List UserEvent) (log : s'.log = newer ++ s.log)
    (silent : ∀ e ∈ newer, (∃ pid status, e = .ended pid status) ∨ ∃ pid value, e = .gotPid pid value) : Begun s' := by
  have untaken : ∀ i, taken s.machine s'.machine i = false := by simp [taken, machine]
  have same : s'.call p = entered := by rw [call, Function.update_self]
  have laws : History.Justified StartLaw s'.log := by
    rw [log]
    clear log
    induction newer with
    | nil => exact begun.laws
    | cons e newer rest =>
      refine (rest fun e member => silent e (List.mem_cons_of_mem _ member)).cons ?_
      rcases silent e List.mem_cons_self with ⟨_, _, rfl⟩ | ⟨_, _, rfl⟩ <;> trivial
  have old : ∀ e ∈ s'.log, (∃ parent child f, e = .created parent child f) ∨ (∃ pid f, e = .started pid f) →
      e ∈ s.log := by
    intro e member which
    rw [log] at member
    refine (List.mem_append.mp member).resolve_left fun new => ?_
    rcases silent e new with ⟨_, _, rfl⟩ | ⟨_, _, rfl⟩ <;> rcases which with ⟨_, _, _, ⟨⟩⟩ | ⟨_, _, ⟨⟩⟩
  refine begun.turn (p := p) kept kept' goesOn laws fun _ => ?_
  refine ⟨.calls live place machine user call log, fun i _ => by rw [arg], fun i w new => ?_, fun w bound => ?_,
    mallocs, fun was => absurd was ends, fun _ => user ▸ userMode, fun args w now => ?_, fun i args w _ inside => ?_,
    fun parent child f created => .inl (old _ created (.inl ⟨_, _, _, rfl⟩)),
    fun pid f started => .inl (old _ started (.inr ⟨_, _, rfl⟩))⟩
  · exact absurd ((untaken i).symm.trans new) (by decide)
  · rw [same]
    exact heap w bound
  · obtain ⟨least, most, holds⟩ := pending args w (same.symm.trans now)
    exact ⟨most, fun _ => ⟨least, holds⟩⟩
  · rw [machine, place] at inside
    cases inside

/-- The function of a user process ends. -/
theorem Begun.terminates (begun : Begun s) (kept : Kept s) (goesOn : s.machine.stopped = none)
    (live : s.machine.live p = true) (place : s.machine.place p = .user) (userMode : s.user p = true)
    (outside : s.call p = none) {heap : Nat → Option FunctionArgs} {exit : BitVec 32}
    (freed : ∀ w, w < s.mallocs → heap w = s.heap w ∨ s.arg p = some w) :
    Begun (({ s with heap := heap } : Users).terminates p exit) := by
  refine begun.calls kept (kept.terminates goesOn live place) goesOn live place userMode rfl rfl rfl
    (some (.terminate (Terminate exit) none)) rfl (by simp [outside, Ending]) (fun w bound => ?_) le_rfl
    (by rintro _ _ ⟨⟩) [.ended (s.machine.pid p) exit] rfl (by simp)
  exact (freed w bound).imp_right fun own => ⟨own, trivial⟩

theorem Begun.enters (begun : Begun s) (kept : Kept s) {call : UserCall} (goesOn : s.machine.stopped = none)
    (live : s.machine.live p = true) (place : s.machine.place p = .user) (userMode : s.user p = true)
    (outside : s.call p = none) : Begun (s.enter p call) := by
  have crash : Begun s.crash := ⟨begun.laws, by rintro ⟨⟩⟩
  have kept' : Kept (s.enter p call) := kept.enters goesOn live place outside
  have idle : ¬ Ending (s.call p) := by simp [outside, Ending]
  cases call with
  | Spawn name func arg stack_size priority wrapper =>
    simp only [Users.enter] at kept' ⊢
    split at kept' <;> rename_i allocated
    · rw [if_pos allocated]
      refine begun.calls kept kept' goesOn live place userMode rfl rfl rfl (some (.spawn _ s.mallocs)) rfl idle
        (fun w bound => .inl (Function.update_of_ne bound.ne ..)) (Nat.le_succ _) ?_ [] rfl (by simp)
      rintro args w ⟨⟩
      exact ⟨le_rfl, Nat.lt_succ_self _, Function.update_self ..⟩
    · rw [if_neg allocated]
      exact crash
  | Wait =>
    exact begun.calls kept kept' goesOn live place userMode rfl rfl rfl (some (.wait Wait)) rfl idle
      (fun _ _ => .inl rfl) le_rfl (by rintro _ _ ⟨⟩) [] rfl (by simp)
  | other =>
    exact begun.calls kept kept' goesOn live place userMode rfl rfl rfl (some .other) rfl idle
      (fun _ _ => .inl rfl) le_rfl (by rintro _ _ ⟨⟩) [] rfl (by simp)
  | Terminate status => exact begun.terminates kept goesOn live place userMode outside fun _ _ => .inl rfl
  | GetPID =>
    refine begun.calls kept kept' goesOn live place userMode rfl rfl rfl none ?_ idle
      (fun _ _ => .inl rfl) le_rfl (by rintro _ _ ⟨⟩) [_] rfl ?_
    · exact (outside ▸ Function.update_eq_self p s.call).symm
    · simp
  | returns ret =>
    simp only [Users.enter]
    split
    · exact begun.terminates kept goesOn live place userMode outside fun _ _ => .inl rfl
    rename_i wrapper arg
    split
    · exact crash
    · refine begun.terminates kept goesOn live place userMode outside fun w bound => ?_
      by_cases own : w = wrapper
      · exact .inr (own ▸ arg)
      · exact .inl (Function.update_of_ne own ..)

/-- A new process begins with its wrapper, which is there. -/
theorem Begun.begins (begun : Begun s) (kept : Kept s) (user : s.user p = true) (fresh : s.machine.place p = .fresh)
    (turns : s.machine.turn (.resume p) = some m') : Begun (s.begin p m') := by
  obtain ⟨goesOn, occupied, _⟩ := turn_live turns
  obtain ⟨ordered, told⟩ := kept.on goesOn
  have wrapped := begun.on goesOn
  have outside : s.call p = none := (fresh ▸ told.stands p occupied user : Stands (s.call p) .fresh).fresh
  have kept' := kept.begins user fresh turns
  have pid : m'.pid p = s.machine.pid p := by
    obtain rfl | rfl := turn_fresh fresh turns <;> rfl
  have idle : ∀ {s' : Users} (newer : List UserEvent), s'.machine = m' → s'.user = s.user → s'.call = s.call →
      s'.arg = s.arg → s'.heap = s.heap → s'.mallocs = s.mallocs → s'.log = newer ++ s.log →
      (∀ e ∈ newer, ∃ f, e = .started (s.machine.pid p) f) → s'.machine.stopped = none → TurnWrapped s p s' := by
    intro s' newer machine users calls args heap mallocs log started goesOn'
    have untaken : ∀ i, taken s.machine s'.machine i = false := fun i => machine.symm ▸ fresh_untaken fresh turns i
    refine .idle newer (.begins ordered.ledger fresh turns (machine ▸ goesOn') machine users calls log)
      (fun i => by rw [untaken, args]; rfl) heap mallocs (fun _ => users ▸ user) (by simp [outside, Ending])
      (by simp [calls, outside]) log fun e member => ?_
    obtain ⟨f, rfl⟩ := started e member
    exact ⟨by simp, by simp⟩
  cases arg : s.arg p with
  | none =>
    have same : s.begin p m' = { s with machine := m' } := by simp [Users.begin, arg]
    rw [same] at kept' ⊢
    exact begun.turn kept kept' goesOn begun.laws (idle [] rfl rfl rfl rfl rfl rfl rfl (by simp))
  | some w =>
    obtain ⟨f, parent, holds, created⟩ := wrapped.held p w occupied arg (by simp [outside, Ending])
    have same : s.begin p m' = ({ s with machine := m' } : Users).record (.started (m'.pid p) f) := by
      simp [Users.begin, arg, holds]
    rw [same] at kept' ⊢
    refine begun.turn kept kept' goesOn (begun.laws.cons ?_) (idle [_] rfl rfl rfl rfl rfl rfl rfl ?_)
    · rw [pid]
      exact ⟨⟨parent, created⟩, wrapped.unstarted p occupied fresh⟩
    · simp [pid]

theorem answered_owner (value : Int) (status : Option Int) : (s.answered p value status c).arg = s.arg ∧
    (s.answered p value status c).heap = s.heap ∧ (s.answered p value status c).mallocs = s.mallocs := by
  cases c with
  | spawn | wait | other => exact ⟨rfl, rfl, rfl⟩
  | terminate =>
    simp only [answered]
    split <;> exact ⟨rfl, rfl, rfl⟩

theorem creates_owner : (s.creates p m c).heap = s.heap ∧ (s.creates p m c).mallocs = s.mallocs := by
  cases c <;> exact ⟨rfl, rfl⟩

/-- A system call other than `Spawn` uses no wrapper. -/
theorem within_idle (other : ∀ args w, c ≠ .spawn args w) :
    (∀ i, (s.within p c m).arg i = if taken s.machine m i then none else s.arg i) ∧
    (s.within p c m).heap = s.heap ∧ (s.within p c m).mallocs = s.mallocs ∧
    ∃ newer, (s.within p c m).log = newer ++ s.log ∧ ∀ e ∈ newer,
      (∃ parent pid status ret, e = .waited parent pid status ret) ∨ ∃ parent child, e = .reaped parent child := by
  have creates : (∀ i, (s.creates p m c).arg i = if taken s.machine m i then none else s.arg i) ∧
      (s.creates p m c).log = s.log := by
    cases c with
    | spawn args w => exact absurd rfl (other args w)
    | _ => exact ⟨fun _ => rfl, rfl⟩
  unfold Users.within
  split
  · exact ⟨creates.1, creates_owner.1, creates_owner.2, [], creates.2, by simp⟩
  · rename_i value status _
    obtain ⟨arg, heap, mallocs⟩ := answered_owner (s := s.creates p m c) (p := p) (c := c) value status
    rw [arg, heap, mallocs]
    refine ⟨creates.1, creates_owner.1, creates_owner.2, _, answered_log.trans (by rw [creates.2]), fun e member => ?_⟩
    cases c with
    | spawn args w => exact absurd rfl (other args w)
    | wait => exact .inl ⟨_, _, _, _, List.mem_singleton.mp member⟩
    | other => cases member
    | terminate =>
      simp only [Syscall.events] at member
      split at member
      · exact .inr ⟨_, _, List.mem_singleton.mp member⟩
      · cases member

theorem within_call (here : s.machine.kernel.occupied p = true) (call : s.call p = some c) :
    (s.within p c m).call p = some c ∨ ∃ value, (s.within p c m).call p = c.after value := by
  unfold Users.within
  split
  · left
    rw [creates_call, call]
    simp [taken, here]
  · right
    exact ⟨_, by rw [answered_call, Function.update_self]⟩

theorem Begun.goes_idle (begun : Begun s) (kept : Kept s) (goes : Goes s p c pt)
    (kept' : Kept (s.within p c ((s.machine.give p).runOn p pt))) (other : ∀ args w, c ≠ .spawn args w) :
    Begun (s.within p c ((s.machine.give p).runOn p pt)) := by
  obtain ⟨arg, heap, mallocs, newer, log, events⟩ :=
    within_idle (s := s) (p := p) (m := (s.machine.give p).runOn p pt) other
  have laws : History.Justified StartLaw (newer ++ s.log) := by
    clear log
    induction newer with
    | nil => exact begun.laws
    | cons e newer rest =>
      refine (rest fun e member => events e (List.mem_cons_of_mem _ member)).cons ?_
      rcases events e List.mem_cons_self with ⟨_, _, _, _, rfl⟩ | ⟨_, _, rfl⟩ <;> trivial
  refine begun.turn (p := p) kept kept' goes.ready.goesOn (log.symm ▸ laws) fun goesOn' => ?_
  rw [within_machine] at goesOn'
  have frame := goes.within_frame (kept.on goes.ready.goesOn).1.ledger goesOn'
  refine .idle newer frame (fun i => by rw [within_machine, arg]) heap mallocs
    (fun _ => frame.userSelf.trans goes.user) (fun was => ?_) (fun args w now => ?_) log fun e member => ?_
  · rw [goes.call] at was
    rcases within_call (m := (s.machine.give p).runOn p pt) goes.ready.occupied goes.call with same | ⟨value, same⟩
    · rwa [same]
    · rw [same]
      cases c with
      | terminate => trivial
      | _ => cases was
  · rcases within_call (m := (s.machine.give p).runOn p pt) goes.ready.occupied goes.call with same | ⟨value, same⟩
    · exact other args w (Option.some.inj (same.symm.trans now))
    · rw [same] at now
      cases c with
      | spawn args' w' => exact other args' w' rfl
      | _ => cases now
  · rcases events e member with ⟨_, _, _, _, rfl⟩ | ⟨_, _, rfl⟩ <;> simp

section spawn
variable {args : Sysargs} {w : Nat}

/-- The events of the process that `sys_spawn` has created. -/
def createdBy (s : Users) (p : Slot) (m : Machine) (f : FunctionArgs) : List UserEvent :=
  ((List.finRange maxProc).filter (taken s.machine m)).map fun i => .created (s.machine.pid p) (m.pid i) f

theorem mem_createdBy {f : FunctionArgs} {e : UserEvent} :
    e ∈ createdBy s p m f ↔ ∃ i, taken s.machine m i = true ∧ e = .created (s.machine.pid p) (m.pid i) f := by
  simp only [createdBy, List.mem_map, List.mem_filter, List.mem_finRange, true_and, eq_comm]

theorem createdBy_law {f : FunctionArgs} (laws : History.Justified StartLaw s.log)
    (below : ∀ parent child f, UserEvent.created parent child f ∈ s.log → child < s.machine.kernel.next_pid)
    (one : ∀ i j, taken s.machine m i = true → taken s.machine m j = true → i = j)
    (fresh : ∀ i, taken s.machine m i = true → (s.machine.kernel.next_pid : Int) ≤ m.pid i) :
    History.Justified StartLaw (createdBy s p m f ++ s.log) := by
  have alone : createdBy s p m f = [] ∨ ∃ i, taken s.machine m i = true ∧
      createdBy s p m f = [.created (s.machine.pid p) (m.pid i) f] := by
    unfold createdBy
    have nodup := (List.nodup_finRange maxProc).filter (taken s.machine m)
    have all : ∀ i ∈ (List.finRange maxProc).filter (taken s.machine m), taken s.machine m i = true := by simp
    generalize (List.finRange maxProc).filter (taken s.machine m) = entries at nodup all
    match entries with
    | [] => exact .inl rfl
    | [i] => exact .inr ⟨i, all i List.mem_cons_self, rfl⟩
    | i :: j :: _ =>
      have same := one i j (all i (by simp)) (all j (by simp))
      simp [same] at nodup
  rcases alone with none | ⟨i, new, single⟩
  · rw [none]
    exact laws
  · rw [single]
    refine laws.cons fun parent g earlier => ?_
    have := below parent _ g earlier
    have := fresh i new
    omega

/-- The events of the answer to `sys_spawn` and of the process that it has created. -/
theorem within_spawn_log : (s.within p (.spawn args w) m).log = createdBy s p m ⟨args.arg1, args.arg2⟩ ++ s.log ∨
    ∃ value status, reply s.machine m = some (value, status) ∧ (s.within p (.spawn args w) m).log =
      .spawned (m.pid p) ⟨args.arg1, args.arg2⟩ (.ofInt 32 value) 0 ::
        (createdBy s p m ⟨args.arg1, args.arg2⟩ ++ s.log) := by
  unfold Users.within
  split
  · exact .inl rfl
  · rename_i value status answer
    refine .inr ⟨value, status, answer, ?_⟩
    simp only [answered, setCall, record, sys_spawnReturn, int_pointer]
    rfl

theorem created_in_log (new : taken s.machine m i = true) :
    UserEvent.created (s.machine.pid p) (m.pid i) ⟨args.arg1, args.arg2⟩ ∈ (s.within p (.spawn args w) m).log := by
  have made : UserEvent.created (s.machine.pid p) (m.pid i) ⟨args.arg1, args.arg2⟩ ∈
      createdBy s p m ⟨args.arg1, args.arg2⟩ ++ s.log := List.mem_append_left _ (mem_createdBy.mpr ⟨i, new, rfl⟩)
  rcases within_spawn_log (s := s) (p := p) (m := m) with log | ⟨_, _, _, log⟩
  · rwa [log]
  · rw [log]
    exact List.mem_cons_of_mem _ made

theorem of_within_spawn {e : UserEvent} (member : e ∈ (s.within p (.spawn args w) m).log) :
    e ∈ s.log ∨ e ∈ createdBy s p m ⟨args.arg1, args.arg2⟩ ∨ ∃ parent f pid ret, e = .spawned parent f pid ret := by
  rcases within_spawn_log (s := s) (p := p) (m := m) with log | ⟨_, _, _, log⟩
  · rw [log] at member
    exact (List.mem_append.mp member).symm.imp_right .inl
  · rw [log] at member
    rcases List.mem_cons.mp member with answer | member
    · exact .inr (.inr ⟨_, _, _, _, answer⟩)
    · exact (List.mem_append.mp member).symm.imp_right .inl

theorem Ready.calls {call : Phase1b.Call} (ready : m.Ready p pt) (same : pt = .call call) : m.place p = .user := by
  rcases ready.place with ⟨_, _, user⟩ | ⟨_, resume, _⟩
  · exact user
  · cases same.symm.trans resume

/-- An entry is taken by a process that calls `spork`, which may wait for the new process. -/
theorem runOn_taken_entry (ready : m.Ready p pt) :
    (∀ i, taken m ((m.give p).runOn p pt) i = true → m.place p = .user) ∧
    (((m.give p).runOn p pt).stopped = none → ∀ i, ((m.give p).runOn p pt).place p = .inside (.spork i) →
      taken m ((m.give p).runOn p pt) i = true) := by
  have entries : ∀ {k ending}, pt.exec (m.give p).kernel p = (k, ending) →
      (∀ i, m.kernel.occupied i = false → k.occupied i = true → m.place p = .user) ∧
      ∀ i, ending = .dispatches (.spork i) → m.kernel.occupied i = false ∧ k.occupied i = true := by
    intro k ending ends
    rcases entries_taken ready ends with ⟨kept, quiet⟩ | ⟨call, slot, rfl, sporked, named⟩
    · exact ⟨fun i free occupied => absurd (free.symm.trans (kept i occupied)) (by decide),
        fun i waits => absurd waits (quiet i)⟩
    · refine ⟨fun _ _ _ => Ready.calls ready rfl, fun i waits => ?_⟩
      rw [named i waits]
      exact ⟨sporked.free, sporked.occupied_self⟩
  rcases runOn_cases (m := m) p pt with ⟨k, value, status, ends, runs⟩ | ⟨k, inside, ends, runs⟩ | ⟨reason, runs⟩
  · rw [runs]
    refine ⟨fun i new => ?_, fun _ i waits => ?_⟩
    · simp only [taken, Bool.and_eq_true, Bool.not_eq_true'] at new
      exact (entries ends).1 i new.1 new.2
    · simp [Machine.back] at waits
  · rw [runs]
    refine ⟨fun i new => ?_, fun _ i waits => ?_⟩
    · simp only [taken, Bool.and_eq_true, Bool.not_eq_true'] at new
      exact (entries ends).1 i new.1 new.2
    · simp only [Machine.switch, Function.update_self, Place.inside.injEq] at waits
      obtain ⟨free, occupied⟩ := (entries ends).2 i (by rw [waits])
      simp only [taken, Bool.and_eq_true, Bool.not_eq_true']
      exact ⟨free, occupied⟩
  · rw [runs]
    refine ⟨fun i new => ?_, by rintro ⟨⟩⟩
    have kernel : (((m.give p).enter p pt).stop reason).kernel.occupied = m.kernel.occupied := by
      cases pt <;> rfl
    simp [taken, kernel] at new

theorem within_spawn_owner : (∀ i, (s.within p (.spawn args w) m).arg i =
      if taken s.machine m i then some w else s.arg i) ∧
    (s.within p (.spawn args w) m).heap = s.heap ∧ (s.within p (.spawn args w) m).mallocs = s.mallocs := by
  unfold Users.within
  split <;> exact ⟨fun _ => rfl, rfl, rfl⟩

/-- A `sys_spawn` that goes on waits inside `spork`. -/
theorem Goes.spawn_waits (goes : Goes s p (.spawn args w) pt) {args' : Sysargs} {w' : Nat}
    (goesOn : ((s.machine.give p).runOn p pt).stopped = none)
    (call : (s.within p (.spawn args w) ((s.machine.give p).runOn p pt)).call p = some (.spawn args' w')) :
    (args' = args ∧ w' = w) ∧ ((s.machine.give p).runOn p pt).place p ≠ .user := by
  refine ⟨?_, fun place => ?_⟩
  · rcases within_call (m := (s.machine.give p).runOn p pt) goes.ready.occupied goes.call with same | ⟨value, same⟩
    · cases same.symm.trans call
      exact ⟨rfl, rfl⟩
    · cases same.symm.trans call
  · rcases runOn_cases (m := s.machine) p pt with ⟨k, value, status, _, runs⟩ | ⟨k, inside, _, runs⟩ | ⟨reason, runs⟩
    · unfold Users.within at call
      rw [runs, reply_back] at call
      simp only [answered_call, Function.update_self] at call
      cases call
    · rw [runs] at place
      simp [Machine.switch] at place
    · rw [runs] at goesOn
      cases goesOn

theorem spawn_wrapped (wrapped : Wrapped s) (goes : Goes s p (.spawn args w) pt) (ledger : Ledger s.machine)
    (ledger' : Ledger ((s.machine.give p).runOn p pt)) (goesOn : ((s.machine.give p).runOn p pt).stopped = none) :
    TurnWrapped s p (s.within p (.spawn args w) ((s.machine.give p).runOn p pt)) := by
  have frame := goes.within_frame ledger goesOn
  obtain ⟨calls, waits⟩ := runOn_taken_entry goes.ready
  obtain ⟨arg, heap, mallocs⟩ := within_spawn_owner (s := s) (p := p) (m := (s.machine.give p).runOn p pt) (w := w)
  refine ⟨frame, fun i untaken => ?_, fun i w' taken given => ?_, fun _ _ => .inl (by rw [heap]), mallocs.ge, ?_,
    fun _ => frame.userSelf.trans goes.user, fun args' w' call => ?_, fun i args' w' call place => ?_,
    fun parent child f created => ?_, fun pid f started => ?_⟩
  · rw [within_machine] at untaken
    rw [arg, untaken]
    rfl
  · rw [within_machine] at taken
    rw [arg, taken] at given
    cases given
    rw [within_machine]
    exact ⟨args, goes.call, calls i taken, created_in_log taken⟩
  · rw [goes.call]
    exact fun impossible => impossible.elim
  · obtain ⟨⟨rfl, rfl⟩, notUser⟩ := goes.spawn_waits goesOn call
    rw [within_machine, mallocs]
    exact ⟨(wrapped.pending p args' w' goes.ready.occupied goes.call).1, fun user => absurd user notUser⟩
  · obtain ⟨⟨rfl, rfl⟩, _⟩ := goes.spawn_waits goesOn call
    rw [within_machine] at place ⊢
    exact created_in_log (waits goesOn i place)
  · rcases of_within_spawn created with earlier | made | ⟨_, _, _, _, ⟨⟩⟩
    · exact .inl earlier
    · obtain ⟨i, _, same⟩ := mem_createdBy.mp made
      cases same
      rw [within_machine]
      exact .inr (ledger'.family.below i)
  · rcases of_within_spawn started with earlier | made | ⟨_, _, _, _, ⟨⟩⟩
    · exact .inl earlier
    · obtain ⟨i, _, same⟩ := mem_createdBy.mp made
      cases same

/-- What phase 1 has returned to `sys_spawn`. -/
theorem Goes.spawn_value (goes : Goes s p (.spawn args w) pt) (told : Told s) (wrapped : Wrapped s)
    (ledger : Ledger s.machine) (ends : pt.exec (s.machine.give p).kernel p = (k, .returns value status))
    (kernel : m.kernel = k) :
    value = -1 ∨ value = -2 ∨ UserEvent.created (s.machine.pid p) value ⟨args.arg1, args.arg2⟩ ∈
      createdBy s p m ⟨args.arg1, args.arg2⟩ ++ s.log ∧ ∀ other, ¬ Spawned s.log other value := by
  rcases goes.point with ⟨_, rfl, malloc, rfl⟩ | ⟨inside, rfl, calls⟩
  · have ends : (s.machine.give p).kernel.spork true true malloc (int args.arg3).toInt (int args.arg4).toInt =
        (k, .returns value status) := ends
    refine (spork_value ends).2.imp_right (Or.imp_right ?_)
    rintro ⟨slot, sporked, rfl⟩
    have free : s.machine.kernel.occupied slot = false := sporked.free
    have new : taken s.machine m slot = true := by
      simp [taken, kernel, free, sporked.occupied_self]
    have named : (k.process_table slot).pid = m.pid slot := by rw [← kernel]; rfl
    refine ⟨List.mem_append_left _ (mem_createdBy.mpr ⟨slot, new, by rw [named]⟩), fun other spawned => ?_⟩
    have drawn : (k.process_table slot).pid = drawPid s.machine.kernel.next_pid := sporked.created.1
    have least := (drawPid_first s.machine.kernel.next_pid).1
    have below := (ledger.sporkBelow _ _ (told.spawnedBack _ _ spawned)).2
    omega
  · cases inside with
    | spork i =>
      cases ends
      have place : s.machine.place p = .inside (.spork i) := by
        rcases goes.ready.place with ⟨_, impossible, _⟩ | ⟨_, same, place⟩
        · cases impossible
        · cases same
          exact place
      refine .inr (.inr ⟨List.mem_append_right _ (wrapped.making p i args w goes.ready.occupied goes.call place), ?_⟩)
      exact fun other spawned => (ledger.sporking i p goes.ready.occupied place).2 other (told.spawnedBack _ _ spawned)
    | _ => cases calls

/-- A turn in which the machine stops takes no entry. -/
theorem stopped_untaken (ready : m.Ready p pt) (stops : ((m.give p).runOn p pt).stopped ≠ none) (i : Slot) :
    taken m ((m.give p).runOn p pt) i = false := by
  rcases runOn_cases (m := m) p pt with ⟨k, value, status, _, runs⟩ | ⟨k, inside, _, runs⟩ | ⟨reason, runs⟩
  · rw [runs] at stops
    refine absurd ?_ stops
    cases pt <;> exact ready.goesOn
  · rw [runs] at stops
    refine absurd ?_ stops
    cases pt <;> exact ready.goesOn
  · have kernel : (((m.give p).enter p pt).stop reason).kernel.occupied = m.kernel.occupied := by
      cases pt <;> rfl
    rw [runs]
    simp [taken, kernel]

theorem Goes.created_law (goes : Goes s p (.spawn args w) pt) (begun : Begun s) (ledger : Ledger s.machine) :
    History.Justified StartLaw (createdBy s p ((s.machine.give p).runOn p pt) ⟨args.arg1, args.arg2⟩ ++ s.log) := by
  have below := (begun.on goes.ready.goesOn).createdBelow
  by_cases goesOn : ((s.machine.give p).runOn p pt).stopped = none
  · have turned := goes.turned ledger goesOn
    refine createdBy_law begun.laws below turned.one fun i new => ?_
    simp only [taken, Bool.and_eq_true, Bool.not_eq_true'] at new
    rcases turned.entry i new.2 with ⟨before, _⟩ | ⟨_, least, _⟩
    · exact absurd (before.symm.trans new.1) (by decide)
    · exact least
  · have untaken := stopped_untaken goes.ready goesOn
    refine createdBy_law begun.laws below (fun i j new => ?_) fun i new => ?_
    · exact absurd ((untaken i).symm.trans new) (by decide)
    · exact absurd ((untaken i).symm.trans new) (by decide)

theorem Begun.goes_spawn (begun : Begun s) (kept : Kept s) (goes : Goes s p (.spawn args w) pt)
    (bound : s.machine.kernel.next_pid + 3 ≤ 2 ^ 31)
    (kept' : Kept (s.within p (.spawn args w) ((s.machine.give p).runOn p pt))) :
    Begun (s.within p (.spawn args w) ((s.machine.give p).runOn p pt)) := by
  obtain ⟨ordered, told⟩ := kept.on goes.ready.goesOn
  have wrapped := begun.on goes.ready.goesOn
  have created := goes.created_law begun ordered.ledger
  refine begun.turn (p := p) kept kept' goes.ready.goesOn ?_ fun goesOn' => ?_
  · rcases within_spawn_log (s := s) (p := p) (m := (s.machine.give p).runOn p pt) with log |
      ⟨value, status, answer, log⟩
    · exact log.symm ▸ created
    rcases runOn_cases (m := s.machine) p pt with ⟨k, value', status', ends, runs⟩ | ⟨k, inside, _, runs⟩ |
      ⟨reason, runs⟩
    · rw [runs, reply_back] at answer
      cases answer
      have goesOn : ((s.machine.give p).runOn p pt).stopped = none := by
        rw [runs]
        cases pt <;> exact goes.ready.goesOn
      have pid := (goes.turned ordered.ledger goesOn).self.2
      have kernel : ((s.machine.give p).runOn p pt).kernel = k := by
        rw [runs]
        rfl
      obtain ⟨_, least, most⟩ := goes.spork_bounds ordered.ledger ends
      have named := toInt_int_pointer value (by omega) (by omega)
      rw [int_pointer] at named
      rw [log, pid]
      refine created.cons ⟨rfl, ?_⟩
      rcases goes.spawn_value told wrapped ordered.ledger ends kernel with rfl | rfl | ⟨made, fresh⟩
      · exact .inl rfl
      · exact .inr (.inl rfl)
      · refine .inr (.inr ?_)
        rw [named]
        refine ⟨made, fun other spawned => fresh other (spawned.of_quiet fun e member => ?_)⟩
        obtain ⟨_, _, rfl⟩ := mem_createdBy.mp member
        trivial
    · rw [runs, reply_switch] at answer
      cases answer
    · rw [runs, reply_stop] at answer
      cases answer
  · rw [within_machine] at goesOn'
    have ledger' := (kept'.on (within_machine.symm ▸ goesOn')).1.ledger
    rw [within_machine] at ledger'
    exact spawn_wrapped wrapped goes ordered.ledger ledger' goesOn'

end spawn

theorem Begun.crashes (begun : Begun s) : Begun (s.within p c (s.machine.stop .crashed)) := by
  refine ⟨?_, fun goesOn => ?_⟩
  · have same : s.within p c (s.machine.stop .crashed) = s.creates p (s.machine.stop .crashed) c := by
      unfold Users.within
      simp [reply, Machine.stop]
    have log : (s.creates p (s.machine.stop .crashed) c).log = s.log := by
      cases c with
      | spawn => simp [creates, taken, Machine.stop]
      | _ => rfl
    rw [same, log]
    exact begun.laws
  · rw [within_machine] at goesOn
    cases goesOn

/-- Every act keeps the wrappers in order. -/
theorem Begun.acted (begun : Begun s) (kept : Kept s) (bound : s.machine.kernel.next_pid + 3 ≤ 2 ^ 31)
    (acted : Acted s s') : Begun s' := by
  have kept' := kept.acted bound acted
  cases acted with
  | kernel kernelMode turns => exact begun.kernel kept kernelMode turns
  | enters goesOn live place user outside => exact begun.enters kept goesOn live place user outside
  | begins user fresh turns => exact begun.begins kept user fresh turns
  | @goes p c pt goes turns =>
    cases c with
    | spawn args w => exact begun.goes_spawn kept goes bound kept'
    | _ => exact begun.goes_idle kept goes kept' (by rintro _ _ ⟨⟩)
  | @leaves p goesOn live place call =>
    have occupied : s.machine.kernel.occupied p = true := by
      simp only [Machine.live, Bool.and_eq_true] at live
      exact live.1
    have user := (begun.on goesOn).modes p occupied (by simp [call])
    exact begun.calls kept kept' goesOn live place user rfl rfl rfl none rfl (by simp [call, Ending])
      (fun _ _ => .inl rfl) le_rfl (by rintro _ _ ⟨⟩) [] rfl (by simp)
  | crashes => exact begun.crashes

theorem Users.Reached.begun {s : Users} (reached : Users.Reached s) : Begun s :=
  Transition.Run.invariant_above reached (fun _ earlier => Users.Reached.kept earlier) Begun boot_begun
    fun _ _ _ kept begun bound moves => begun.acted kept bound (kept.step_acted moves)

/-- What `Spawn` creates starts once, in the function with the argument it was given, and until that
function ends its wrapper is there and holds them. -/
theorem Users.starts_justified {s : Users} (reached : Users.Reached s) : History.Justified StartLaw s.log ∧
    (s.machine.stopped = none → ∀ i w, s.machine.kernel.occupied i = true → s.arg i = some w → ¬ Ending (s.call i) →
      ∃ f parent, s.heap w = some f ∧ UserEvent.created parent (s.machine.pid i) f ∈ s.log) :=
  ⟨reached.begun.laws, fun goesOn => (reached.begun.on goesOn).held⟩

/-- The user process 3 spawns a child before it itself runs on, and that one another. -/
def grandchildSpawned : List UserAct :=
  [.kernel (.resume initSlot) false, .kernel (.call initSlot (sporks 3)) false, .kernel (.resume testcaseSlot) false,
    .kernel (.call testcaseSlot (sporks 3)) true, .resume childSlot,
    .call childSlot (.Spawn 0 4096 7 (.ofInt 32 minStack) 2 true), .handler childSlot (sporks 2),
    .resume secondChildSlot, .call secondChildSlot (.Spawn 0 8192 9 (.ofInt 32 minStack) 4 true),
    .handler secondChildSlot (sporks 4),
    .call secondChildSlot (.returns 0), .resume childSlot, .resume ⟨5, by decide⟩]

theorem Users.starts_justified_run : ∃ s, Users.Reached s ∧ .started 5 ⟨8192, 9⟩ ∈ s.log ∧
    History.Justified StartLaw s.log ∧
    (s.machine.stopped = none → ∀ i w, s.machine.kernel.occupied i = true → s.arg i = some w → ¬ Ending (s.call i) →
      ∃ f parent, s.heap w = some f ∧ UserEvent.created parent (s.machine.pid i) f ∈ s.log) := by
  obtain ⟨s, reached, started⟩ := Transition.exists_run Users.step Users.boot grandchildSpawned
    (fun s _ => decide (s.machine.kernel.next_pid + 3 ≤ 2 ^ 31)) (fun _ _ => of_decide_eq_true)
    (fun s => decide (.started 5 ⟨8192, 9⟩ ∈ s.log)) (by decide +kernel)
  exact ⟨s, reached, of_decide_eq_true started, starts_justified reached⟩

end UslossKernel.Phase3
