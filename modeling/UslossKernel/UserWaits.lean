import UslossKernel.UserStatus

namespace UslossKernel.Phase3

open LinkedList Phase1b Kernel Machine Users

variable {m m' : Machine} {s s' : Users} {p q i : Slot} {c : Syscall} {pt : Phase1b.Point} {k : Kernel} {value : Int}
  {status : Option Int}

@[simp] theorem toInt_int_pointer (value : Int) (least : -2 ^ 31 ≤ value) (most : value < 2 ^ 31) :
    (int (pointer (.ofInt 32 value))).toInt = value := by
  rw [int_pointer, BitVec.toInt_ofInt]
  exact Int.bmod_eq_of_le (by omega) (by omega)

theorem returned_enter {caller : Int} {fn : Phase1b.Fn} :
    Event.returned caller fn value status ∈ (m.entering p pt).log ↔ Event.returned caller fn value status ∈ m.log := by
  cases pt <;> simp [Machine.enter]

/-- An event that neither tells of a new child nor of one that is gone. -/
def Quiet : UserEvent → Prop
  | .spawned .. | .reaped .. => False
  | .waited _ _ _ ret => ret ≠ 0
  | _ => True

section log
variable {log newer : List UserEvent} {parent child : Int}

theorem spawned_append : Spawned (newer ++ log) parent child ↔
    Spawned newer parent child ∨ Spawned log parent child := by
  simp only [Spawned, List.mem_append]
  constructor
  · rintro ⟨positive, f, pid, ret, new | old, named⟩
    · exact .inl ⟨positive, f, pid, ret, new, named⟩
    · exact .inr ⟨positive, f, pid, ret, old, named⟩
  · rintro (⟨positive, f, pid, ret, new, named⟩ | ⟨positive, f, pid, ret, old, named⟩)
    · exact ⟨positive, f, pid, ret, .inl new, named⟩
    · exact ⟨positive, f, pid, ret, .inr old, named⟩

theorem gone_append : Gone (newer ++ log) child ↔ Gone newer child ∨ Gone log child := by
  simp only [Gone, List.mem_append]
  constructor
  · rintro (⟨parent, pid, status, new | old, named⟩ | ⟨parent, new | old⟩)
    · exact .inl (.inl ⟨parent, pid, status, new, named⟩)
    · exact .inr (.inl ⟨parent, pid, status, old, named⟩)
    · exact .inl (.inr ⟨parent, new⟩)
    · exact .inr (.inr ⟨parent, old⟩)
  · rintro ((⟨parent, pid, status, new, named⟩ | ⟨parent, new⟩) | ⟨parent, pid, status, old, named⟩ | ⟨parent, old⟩)
    · exact .inl ⟨parent, pid, status, .inl new, named⟩
    · exact .inr ⟨parent, .inl new⟩
    · exact .inl ⟨parent, pid, status, .inr old, named⟩
    · exact .inr ⟨parent, .inr old⟩

/-- Events of which the law says nothing. -/
theorem laws_append (laws : History.Justified UserLaw log) (free : ∀ e ∈ newer, ∀ older, UserLaw e older) :
    History.Justified UserLaw (newer ++ log) := by
  induction newer with
  | nil => exact laws
  | cons e newer rest =>
    exact (rest fun e member => free e (List.mem_cons_of_mem _ member)).cons (free e List.mem_cons_self _)

theorem Spawned.of_quiet (spawned : Spawned (newer ++ log) parent child) (quiet : ∀ e ∈ newer, Quiet e) :
    Spawned log parent child := by
  refine (spawned_append.mp spawned).resolve_left ?_
  rintro ⟨_, _, _, _, new, _⟩
  exact quiet _ new

theorem Gone.of_quiet (gone : Gone (newer ++ log) child) (quiet : ∀ e ∈ newer, Quiet e) : Gone log child := by
  refine (gone_append.mp gone).resolve_left ?_
  rintro (⟨_, _, _, new, _⟩ | ⟨_, new⟩)
  · exact quiet _ new rfl
  · exact quiet _ new

end log

/-- A turn that is neither a return of `Spawn` nor one of a child. -/
theorem TurnTold.quiet {newer : List UserEvent} (frame : TurnFrame s p s') (log : s'.log = newer ++ s.log)
    (quiet : ∀ e ∈ newer, Quiet e)
    (sporked : s.user p = true → ∀ child, SporkedBy s'.machine.log (s.machine.pid p) child →
      SporkedBy s.machine.log (s.machine.pid p) child)
    (joined : s.user p = true → ∀ child status,
      Event.returned (s.machine.pid p) .join child (some status) ∈ s'.machine.log →
        Event.returned (s.machine.pid p) .join child (some status) ∈ s.machine.log)
    (ended : s.user p = true → ∀ exit, HasQuit s'.machine.log (s.machine.pid p) exit →
      HasQuit s.machine.log (s.machine.pid p) exit ∨
        ∃ status : BitVec 32, status.toInt = exit ∧ Ended s'.log (s.machine.pid p) status)
    (stands : s.user p = true → Stands (s'.call p) (s'.machine.place p))
    (ending : s.user p = true → ∀ args retval, s'.call p = some (.terminate args retval) →
      Ended s'.log (s.machine.pid p) (int args.arg1)) : TurnTold s p s' := by
  refine ⟨frame, fun user child told => .inl (sporked user child told),
    fun user child status told => .inl (joined user child status told), ended, fun parent child spawned => .inl ?_,
    fun child gone => .inl ?_, stands, ending⟩
  · rw [log] at spawned
    exact spawned.of_quiet quiet
  · rw [log] at gone
    exact gone.of_quiet quiet

section within

theorem Syscall.events_wait {pid exit : Int} {args : Sysargs} (positive : 0 < value) :
    (Syscall.wait args).events pid value (some exit) = [.waited pid (.ofInt 32 value) (.ofInt 32 exit) 0] := by
  have apart : value ≠ -2 := by omega
  simp [events, sys_waitReturn, apart]
  rfl

theorem Syscall.events_childless {pid : Int} {args : Sysargs} :
    (Syscall.wait args).events pid (-2) none = [.waited pid (-2) 0 (-2)] := by
  simp [events, sys_waitReturn]

/-- The event when a child is returned. -/
theorem Syscall.events_child (pid exit : Int) (positive : 0 < value) (most : value < 2 ^ 31)
    (joins : c.Calls .join) :
    (∀ child, Gone (c.events pid value (some exit)) child ↔ child = value) ∧
      ∀ parent child, ¬ Spawned (c.events pid value (some exit)) parent child := by
  cases c with
  | spawn args wrapper => cases joins
  | other => exact absurd rfl joins.2.1
  | wait args =>
    have named := toInt_int_pointer value (by omega) most
    rw [int_pointer] at named
    rw [events_wait positive]
    simp [Gone, Spawned, named, eq_comm]
  | terminate args retval =>
    rw [events, if_pos positive]
    simp [Gone, Spawned]

namespace Goes

/-- A process that comes to `quit` has been told so. -/
theorem ended (goes : Goes s p c pt) (told : Told s) {exit : Int}
    (quits : HasQuit (s.machine.entering p pt).log (s.machine.pid p) exit) :
    HasQuit s.machine.log (s.machine.pid p) exit ∨
      ∃ status : BitVec 32, status.toInt = exit ∧ Ended s.log (s.machine.pid p) status := by
  rcases hasQuit_enter.mp quits with ⟨_, c', rfl, fn⟩ | earlier
  · rcases goes.point with ⟨call, same, makes⟩ | ⟨inside, same, _⟩
    · cases same
      obtain ⟨args, retval, rfl, rfl⟩ := Syscall.makes_quits makes fn
      exact .inr ⟨_, rfl, told.ending p goes.ready.occupied goes.user args retval goes.call⟩
    · cases same
  · exact .inl earlier

/-- The handler waits in its call. -/
theorem switches (goes : Goes s p c pt) (told : Told s) (ledger : Ledger s.machine) {inside : Phase1b.Inside}
    (ends : pt.exec (s.machine.give p).kernel p = (k, .dispatches inside))
    (runs : (s.machine.give p).runOn p pt = ((s.machine.give p).enter p pt).switch p inside k) :
    TurnTold s p (s.creates p ((s.machine.give p).runOn p pt) c) := by
  obtain ⟨newer, log, created⟩ := creates_log (s := s) (p := p) (m := (s.machine.give p).runOn p pt) (c := c)
  have goesOn : ((s.machine.give p).runOn p pt).stopped = none := by
    rw [runs]
    cases pt <;> exact goes.ready.goesOn
  have called : (s.creates p ((s.machine.give p).runOn p pt) c).call p = some c := by
    rw [creates_call, goes.call]
    simp [taken, goes.ready.occupied]
  have frame : TurnFrame s p (s.creates p ((s.machine.give p).runOn p pt) c) := by
    refine goes.frame ledger goesOn creates_machine (fun i => ?_) (fun i _ => ?_) (grows_of_append log)
    · rw [creates_machine, creates_user]
    · rw [creates_machine, creates_call]
  have history : ((s.machine.give p).runOn p pt).log = (s.machine.entering p pt).log := by
    rw [runs]
    rfl
  refine .quiet frame log (fun e member => ?_) (fun _ child => ?_) (fun _ child status => ?_) (fun _ exit => ?_)
    (fun _ => ?_) fun _ args retval call => ?_
  · obtain ⟨_, _, _, rfl⟩ := created e member
    trivial
  · rw [creates_machine, history]
    exact sporkedBy_enter.mp
  · rw [creates_machine, history]
    exact returned_enter.mp
  · rw [creates_machine, history]
    intro quits
    rcases goes.ended told quits with quits | ⟨status, same, ended⟩
    · exact .inl quits
    · exact .inr ⟨status, same, frame.grows _ ended⟩
  · rw [creates_machine, called, runs]
    exact .inr ⟨inside, Function.update_self .., (goes.dispatches_fn ends).symm ▸ goes.calls⟩
  · rw [called] at call
    cases call
    exact frame.grows _ (told.ending p goes.ready.occupied goes.user args retval goes.call)

end Goes

/-- What a return of phase 1 to the handler leaves, whatever it returns. -/
structure Answered (s : Users) (p : Slot) (c : Syscall) (pt : Phase1b.Point) (value : Int) (status : Option Int)
    (s' : Users) : Prop where
  frame : TurnFrame s p s'
  log : ∃ newer, s'.log = c.events (s.machine.pid p) value status ++ (newer ++ s.log) ∧
    ∀ e ∈ newer, ∃ parent child f, e = .created parent child f
  history : s'.machine.log = .returned (s.machine.pid p) pt.fn value status :: (s.machine.entering p pt).log
  ended : ∀ exit, HasQuit s'.machine.log (s.machine.pid p) exit → HasQuit s.machine.log (s.machine.pid p) exit ∨
    ∃ status : BitVec 32, status.toInt = exit ∧ Ended s'.log (s.machine.pid p) status
  stands : Stands (s'.call p) (s'.machine.place p)
  ending : ∀ args retval, s'.call p = some (.terminate args retval) →
    Ended s'.log (s.machine.pid p) (int args.arg1)

theorem Goes.returns (goes : Goes s p c pt) (told : Told s) (ledger : Ledger s.machine)
    (runs : m' = ((s.machine.give p).enter p pt).back p pt.fn k value status)
    (own : m' = (s.machine.give p).runOn p pt) :
    Answered s p c pt value status ((s.creates p m' c).answered p value status c) := by
  obtain ⟨newer, made, created⟩ := creates_log (s := s) (p := p) (m := m') (c := c)
  have machine : ((s.creates p m' c).answered p value status c).machine = m' := by
    rw [answered_machine, creates_machine]
  have goesOn : m'.stopped = none := by
    rw [runs]
    cases pt <;> exact goes.ready.goesOn
  have place : m'.place p = .user := by
    rw [runs]
    exact Function.update_self ..
  have self : m'.pid p = s.machine.pid p := own ▸ (goes.turned ledger (own ▸ goesOn)).self.2
  have log : ((s.creates p m' c).answered p value status c).log =
      c.events (s.machine.pid p) value status ++ (newer ++ s.log) := by
    rw [answered_log, creates_machine, made, self]
  have frame : TurnFrame s p ((s.creates p m' c).answered p value status c) := by
    refine goes.frame ledger (own ▸ goesOn) (machine.trans own) (fun i => ?_) (fun i other => ?_)
      (grows_of_append (log.trans (List.append_assoc ..).symm))
    · rw [machine, answered_user, creates_user]
    · rw [machine, answered_call, Function.update_of_ne other, creates_call]
  have history : m'.log = .returned (s.machine.pid p) pt.fn value status :: (s.machine.entering p pt).log := by
    rw [runs]
    show Event.returned ((s.machine.entering p pt).pid p) .. :: _ = _
    rw [show (s.machine.entering p pt).pid p = s.machine.pid p from enter_pid (s.machine.give p) p pt p]
  have called : ((s.creates p m' c).answered p value status c).call p = c.after value := by
    rw [answered_call, Function.update_self]
  refine ⟨frame, ⟨newer, log, created⟩, ?_, fun exit quits => ?_, ?_, fun args retval call => ?_⟩
  · rw [machine, history]
  · rw [machine, history, hasQuit_returned] at quits
    exact (goes.ended told quits).imp_right fun ⟨status, same, ended⟩ => ⟨status, same, frame.grows _ ended⟩
  · rw [machine, place, called]
    cases c with
    | spawn | wait => exact .inr rfl
    | terminate | other => exact .inl rfl
  · rw [called] at call
    cases c with
    | spawn | wait | other => cases call
    | terminate args' retval' =>
      cases call
      exact frame.grows _ (told.ending p goes.ready.occupied goes.user args _ goes.call)

/-- The child that a `join` of `p` finds has been told to `p`, has said its status and is not gone. -/
theorem Told.found (told : Told s) (ledger : Ledger s.machine) (goes : Goes s p c pt) (joins : pt.fn = .join)
    (child : s.machine.kernel.childOf i p) (dead : s.machine.kernel.status i = .terminated) :
    Spawned s.log (s.machine.pid p) (s.machine.pid i) ∧
    (∃ status : BitVec 32, status.toInt = (s.machine.kernel.process_table i).exit_status ∧
      Ended s.log (s.machine.pid i) status) ∧ ¬ Gone s.log (s.machine.pid i) := by
  refine ⟨?_, ?_, fun gone => ledger.uncollected i child.1 (told.goneBack _ gone)⟩
  · refine told.spawned p goes.ready.occupied goes.user _ ((ledger.announced i p child).resolve_right ?_)
    refine goes.ready.outside_spork ?_ i
    rintro j rfl
    cases joins
  · exact told.ended i child.1 (told.children i p child goes.user) _ (ledger.quitted i child.1 dead)

/-- If no child is left, all of them are gone. -/
theorem Told.childless (told : Told s) (ordered : Machine.Ordered s.machine) (goes : Goes s p c pt)
    (noChild : s.machine.kernel.children p = none) {child : Int} (spawned : Spawned s.log (s.machine.pid p) child) :
    Gone s.log child := by
  have sporked := told.spawnedBack _ _ spawned
  rcases ordered.ledger.kept p child goes.ready.occupied sporked with ⟨parent, status, joined⟩ | ⟨i, isChild, _⟩
  · obtain ⟨newer, older, split⟩ := List.append_of_mem joined
    rcases joined_justified ordered newer _ older split with ⟨impossible, _⟩ | ⟨_, _, earlier, _⟩
    · cases impossible
    · have same : parent = s.machine.pid p := by
        refine ordered.ledger.oneParent _ _ child ⟨earlier.1, ?_⟩ sporked
        rw [split]
        exact List.mem_append_right _ (List.mem_cons_of_mem _ earlier.2)
      rw [same] at joined
      exact told.gone p goes.ready.occupied goes.user child status joined
  · exact absurd isChild (ordered.ledger.family.childless_iff.mp noChild i)

namespace Answered

variable {args : Sysargs} {wrapper : Nat}

theorem quiet_created {newer : List UserEvent} (created : ∀ e ∈ newer, ∃ parent child f, e = .created parent child f) :
    ∀ e ∈ newer, Quiet e := by
  intro e member
  obtain ⟨_, _, _, rfl⟩ := created e member
  trivial

theorem law_created {newer log : List UserEvent} (laws : History.Justified UserLaw log)
    (created : ∀ e ∈ newer, ∃ parent child f, e = .created parent child f) :
    History.Justified UserLaw (newer ++ log) := by
  refine laws_append laws fun e member older => ?_
  obtain ⟨_, _, _, rfl⟩ := created e member
  trivial

/-- `Spawn` returns. -/
theorem told_spawn (answered : Answered s p (.spawn args wrapper) pt value none s') (fn : pt.fn = .spork)
    (least : -2 ≤ value) (most : value < 2 ^ 31) : TurnTold s p s' := by
  obtain ⟨newer, log, created⟩ := answered.log
  have log : s'.log = .spawned (s.machine.pid p) ⟨args.arg1, args.arg2⟩ (int (pointer (.ofInt 32 value))) 0 ::
      (newer ++ s.log) := log
  have head : .spawned (s.machine.pid p) ⟨args.arg1, args.arg2⟩ (int (pointer (.ofInt 32 value))) 0 ∈ s'.log := by
    rw [log]
    exact List.mem_cons_self
  have named := toInt_int_pointer value (by omega) most
  have quiet := quiet_created created
  refine ⟨answered.frame, fun user child told => ?_, fun user child status told => .inl ?_, fun _ => answered.ended,
    fun parent child spawned => ?_, fun child gone => .inl ?_, fun _ => answered.stands, fun _ => answered.ending⟩
  · rw [answered.history, sporkedBy_returned, sporkedBy_enter] at told
    rcases told with ⟨positive, _, _, rfl, _⟩ | earlier
    · exact .inr ⟨positive, _, _, _, head, named⟩
    · exact .inl earlier
  · rw [answered.history, fn] at told
    exact returned_enter.mp (List.mem_of_ne_of_mem (by simp) told)
  · rw [log] at spawned
    obtain ⟨positive, f, pid, ret, member, same⟩ := spawned
    rcases List.mem_cons.mp member with new | old
    · cases new
      refine .inr ?_
      rw [answered.history, fn, sporkedBy_returned]
      exact .inl ⟨positive, rfl, rfl, same.symm.trans named, rfl⟩
    · exact .inl (Spawned.of_quiet ⟨positive, f, pid, ret, old, same⟩ quiet)
  · rw [log] at gone
    rcases gone with ⟨parent, pid, status, member, same⟩ | ⟨parent, member⟩
    · exact Gone.of_quiet (.inl ⟨parent, pid, status, List.mem_of_ne_of_mem (by simp) member, same⟩) quiet
    · exact Gone.of_quiet (.inr ⟨parent, List.mem_of_ne_of_mem (by simp) member⟩) quiet

/-- A call that returns no child. -/
theorem told_none (answered : Answered s p c pt value none s') (notSpawn : pt.fn ≠ .spork) (none : value ≤ 0)
    (waits : ∀ args, c = .wait args → value = -2) (other : ∀ args wrapper, c ≠ .spawn args wrapper) :
    TurnTold s p s' := by
  obtain ⟨newer, log, created⟩ := answered.log
  refine .quiet answered.frame (log.trans (List.append_assoc ..).symm) (fun e member => ?_) (fun _ child told => ?_)
    (fun _ child status told => ?_) (fun _ => answered.ended) (fun _ => answered.stands) fun _ => answered.ending
  · rcases List.mem_append.mp member with answer | made
    · cases c with
      | spawn args wrapper => exact absurd rfl (other args wrapper)
      | wait args =>
        obtain rfl := waits args rfl
        obtain rfl := List.mem_singleton.mp answer
        show int (pointer (-2)) ≠ 0
        decide
      | terminate =>
        rw [Syscall.events, if_neg (by omega)] at answer
        cases answer
      | other => cases answer
    · exact quiet_created created e made
  · rw [answered.history, sporkedBy_returned, sporkedBy_enter] at told
    exact told.resolve_left fun new => notSpawn new.2.2.1
  · rw [answered.history] at told
    exact returned_enter.mp (List.mem_of_ne_of_mem (by simp) told)

/-- A call that returns a child. -/
theorem told_child {exit : Int} (answered : Answered s p c pt value (some exit) s') (fn : pt.fn = .join)
    (positive : 0 < value) (most : value < 2 ^ 31) (joins : c.Calls .join) : TurnTold s p s' := by
  obtain ⟨newer, log, created⟩ := answered.log
  obtain ⟨gone_iff, notSpawned⟩ := Syscall.events_child (s.machine.pid p) exit positive most joins
  refine ⟨answered.frame, fun _ child told => .inl ?_, fun _ child status told => ?_, fun _ => answered.ended,
    fun parent child spawned => .inl ?_, fun child gone => ?_, fun _ => answered.stands, fun _ => answered.ending⟩
  · rw [answered.history, sporkedBy_returned, sporkedBy_enter] at told
    exact told.resolve_left fun new => by simp [fn] at new
  · rw [answered.history, fn] at told
    rcases List.mem_cons.mp told with new | old
    · cases new
      refine .inr ?_
      rw [log]
      exact gone_append.mpr (.inl ((gone_iff _).mpr rfl))
    · exact .inl (returned_enter.mp old)
  · rw [log] at spawned
    exact ((spawned_append.mp spawned).resolve_left (notSpawned _ _)).of_quiet (quiet_created created)
  · rw [log] at gone
    rcases gone_append.mp gone with now | earlier
    · obtain rfl := (gone_iff _).mp now
      refine .inr ?_
      rw [answered.history, fn, collected_returned]
      exact .inl ⟨rfl, rfl, by simp⟩
    · exact .inl (earlier.of_quiet (quiet_created created))

end Answered

theorem child_bounds (ledger : Ledger m) (bound : m.kernel.next_pid + 3 ≤ 2 ^ 31) (child : m.kernel.childOf i p) :
    0 < m.pid i ∧ m.pid i < 2 ^ 31 := by
  have below : m.pid i < m.kernel.next_pid := ledger.family.below i
  exact ⟨ledger.positive i child.1, by omega⟩

/-- A turn of a user process in a system call. -/
theorem Goes.told (goes : Goes s p c pt) (told : Told s) (ordered : Machine.Ordered s.machine)
    (laws : History.Justified UserLaw s.log) (bound : s.machine.kernel.next_pid + 3 ≤ 2 ^ 31) :
    History.Justified UserLaw (s.within p c ((s.machine.give p).runOn p pt)).log ∧
      (((s.machine.give p).runOn p pt).stopped = none →
        TurnTold s p (s.within p c ((s.machine.give p).runOn p pt))) := by
  have ledger := ordered.ledger
  have unanswered : reply s.machine ((s.machine.give p).runOn p pt) = none →
      s.within p c ((s.machine.give p).runOn p pt) = s.creates p ((s.machine.give p).runOn p pt) c := by
    intro silent
    unfold Users.within
    rw [silent]
  rcases runOn_cases (m := s.machine) p pt with ⟨k, value, status, ends, runs⟩ | ⟨k, inside, ends, runs⟩ |
    ⟨reason, runs⟩
  · have within : s.within p c ((s.machine.give p).runOn p pt) =
        (s.creates p ((s.machine.give p).runOn p pt) c).answered p value status c := by
      unfold Users.within
      rw [runs, reply_back]
    have answered := goes.returns told ledger runs rfl
    rw [within]
    obtain ⟨newer, log, created⟩ := answered.log
    have older := Answered.law_created laws created
    rw [log]
    cases c with
    | spawn args wrapper =>
      obtain ⟨rfl, least, most⟩ := goes.spork_bounds ledger ends
      exact ⟨older.cons trivial, fun _ => answered.told_spawn goes.calls least (by omega)⟩
    | wait args =>
      have fn : pt.fn = .join := goes.calls
      rcases goes.join_value ledger fn ends with ⟨rfl, rfl, noChild⟩ | ⟨i, child, dead, rfl, rfl⟩
      · refine ⟨?_, fun _ => answered.told_none (by simp [fn]) (by decide) (fun _ _ => rfl) (by rintro _ _ ⟨⟩)⟩
        rw [Syscall.events_childless]
        refine older.cons (.inr ⟨rfl, rfl, rfl, fun child spawned => ?_⟩)
        have gone := told.childless ordered goes noChild (spawned.of_quiet (Answered.quiet_created created))
        exact gone_append.mpr (.inr gone)
      · obtain ⟨spawned, ⟨exit, same, ended⟩, notGone⟩ := told.found ledger goes fn child dead
        obtain ⟨positive, most⟩ := child_bounds ledger bound child
        have named := toInt_int_pointer (s.machine.pid i) (by omega) most
        rw [int_pointer] at named
        refine ⟨?_, fun _ => answered.told_child fn positive most (fn ▸ goes.calls)⟩
        rw [Syscall.events_wait positive, ← same, BitVec.ofInt_toInt]
        refine older.cons (.inl ⟨rfl, ?_, ?_, fun gone => ?_⟩)
        · rw [named]
          exact spawned_append.mpr (.inr spawned)
        · rw [named]
          exact List.mem_append_right _ ended
        · rw [named] at gone
          exact notGone (gone.of_quiet (Answered.quiet_created created))
    | terminate args retval =>
      rcases goes.calls with fn | ⟨exit, fn⟩
      · rcases goes.join_value ledger fn ends with ⟨rfl, rfl, noChild⟩ | ⟨i, child, dead, rfl, rfl⟩
        · exact ⟨older, fun _ => answered.told_none (by simp [fn]) (by decide) (by rintro _ ⟨⟩) (by rintro _ _ ⟨⟩)⟩
        · obtain ⟨spawned, ⟨exit, _, ended⟩, notGone⟩ := told.found ledger goes fn child dead
          obtain ⟨positive, most⟩ := child_bounds ledger bound child
          refine ⟨?_, fun _ => answered.told_child fn positive most (fn ▸ goes.calls)⟩
          rw [Syscall.events, if_pos positive]
          refine older.cons ⟨spawned_append.mpr (.inr spawned), ⟨exit, List.mem_append_right _ ended⟩, fun gone => ?_⟩
          exact notGone (gone.of_quiet (Answered.quiet_created created))
      · obtain ⟨rfl, least⟩ := goes.plain_return (by simp [fn]) (by simp [fn]) ends
        rw [Syscall.events, if_neg (by omega)]
        exact ⟨older, fun _ => answered.told_none (by simp [fn]) least (by rintro _ ⟨⟩) (by rintro _ _ ⟨⟩)⟩
    | other =>
      obtain ⟨notSpork, notJoin, _⟩ := goes.calls
      obtain ⟨rfl, least⟩ := goes.plain_return notSpork notJoin ends
      exact ⟨older, fun _ => answered.told_none notSpork least (by rintro _ ⟨⟩) (by rintro _ _ ⟨⟩)⟩
  · rw [unanswered (by rw [runs, reply_switch])]
    obtain ⟨newer, log, created⟩ := creates_log (s := s) (p := p) (m := (s.machine.give p).runOn p pt) (c := c)
    rw [log]
    exact ⟨Answered.law_created laws created, fun _ => goes.switches told ledger ends runs⟩
  · rw [unanswered (by rw [runs, reply_stop])]
    obtain ⟨newer, log, created⟩ := creates_log (s := s) (p := p) (m := (s.machine.give p).runOn p pt) (c := c)
    rw [log]
    refine ⟨Answered.law_created laws created, fun goesOn => ?_⟩
    rw [runs] at goesOn
    cases goesOn

/-- The user log is justified, and while the machine runs the users have been told. -/
structure Kept (s : Users) : Prop where
  laws : History.Justified UserLaw s.log
  on : s.machine.stopped = none → Machine.Ordered s.machine ∧ Told s

theorem boot_kept : Kept Users.boot := by
  refine ⟨.nil, fun _ => ⟨.refl, ?_⟩⟩
  refine ⟨by rintro _ _ ⟨⟩, by rintro _ _ ⟨⟩, by rintro _ _ ⟨⟩, fun _ _ spawned => ?_, fun _ gone => ?_,
    by rintro _ _ _ ⟨⟩, by rintro _ _ ⟨⟩, by rintro _ _ ⟨⟩⟩
  · obtain ⟨_, _, _, _, member, _⟩ := spawned
    cases member
  · rcases gone with ⟨_, _, _, member, _⟩ | ⟨_, member⟩ <;> cases member

/-- A turn of a process in kernel mode. -/
theorem Kept.kernel (kept : Kept s) {t : Turn} {user : Bool} (kernelMode : s.user t.process = false)
    (turns : s.machine.turn t = some m') : Kept (s.become m' user none) := by
  obtain ⟨ordered, told⟩ := kept.on (turn_live turns).1
  refine ⟨kept.laws, fun goesOn => ⟨ordered.next trivial turns, ?_⟩⟩
  have frame : TurnFrame s t.process (s.become m' user none) := .kernel ordered.ledger kernelMode turns goesOn
  have vacuous : ∀ {P : Prop}, s.user t.process = true → P := fun userMode =>
    absurd (kernelMode.symm.trans userMode) (by decide)
  exact told.turn ordered.ledger (joined_justified ordered)
    (.quiet frame (List.nil_append _).symm (by simp) vacuous vacuous vacuous vacuous vacuous)

/-- A user process enters a system call. -/
theorem Kept.calls (kept : Kept s) (goesOn : s.machine.stopped = none) (live : s.machine.live p = true)
    (place : s.machine.place p = .user) (machine : s'.machine = s.machine) (user : s'.user = s.user)
    (entered : Option Syscall) (call : s'.call = Function.update s.call p entered) (newer : List UserEvent)
    (log : s'.log = newer ++ s.log) (quiet : ∀ e ∈ newer, Quiet e) (laws : History.Justified UserLaw (newer ++ s.log))
    (ending : ∀ args retval, entered = some (.terminate args retval) →
      Ended (newer ++ s.log) (s.machine.pid p) (int args.arg1)) : Kept s' := by
  obtain ⟨ordered, told⟩ := kept.on goesOn
  have frame : TurnFrame s p s' := .calls live place machine user call log
  have after : TurnTold s p s' := by
    refine .quiet frame log quiet (fun _ _ told => machine ▸ told) (fun _ _ _ told => machine ▸ told)
      (fun _ _ told => .inl (machine ▸ told)) (fun _ => ?_) fun _ args retval now => ?_
    · rw [machine, place, call, Function.update_self]
      cases entered with
      | none => exact .inr rfl
      | some c => exact .inl rfl
    · rw [call, Function.update_self] at now
      rw [log]
      exact ending args retval now
  refine ⟨log.symm ▸ laws, fun _ => ⟨machine.symm ▸ ordered, ?_⟩⟩
  exact told.turn ordered.ledger (joined_justified ordered) after

theorem Kept.terminates (kept : Kept s) (goesOn : s.machine.stopped = none) (live : s.machine.live p = true)
    (place : s.machine.place p = .user) {heap : Nat → Option FunctionArgs} {status : BitVec 32} :
    Kept (({ s with heap := heap } : Users).terminates p status) := by
  refine kept.calls goesOn live place rfl rfl (some (.terminate (Terminate status) none)) rfl
    [.ended (s.machine.pid p) status] rfl ?_ (kept.laws.cons trivial) ?_
  · simp [Quiet]
  · rintro args retval ⟨⟩
    show _ ∈ _
    simp [Terminate]

theorem Kept.enters (kept : Kept s) {call : UserCall} (goesOn : s.machine.stopped = none)
    (live : s.machine.live p = true) (place : s.machine.place p = .user) (outside : s.call p = none) :
    Kept (s.enter p call) := by
  have crash : Kept s.crash := ⟨kept.laws, by rintro ⟨⟩⟩
  cases call with
  | Spawn name func arg stack_size priority wrapper =>
    simp only [Users.enter]
    split
    · exact kept.calls goesOn live place rfl rfl (some (.spawn _ _)) rfl [] rfl (by simp) kept.laws (by rintro _ _ ⟨⟩)
    · exact crash
  | Wait =>
    exact kept.calls goesOn live place rfl rfl (some (.wait Wait)) rfl [] rfl (by simp) kept.laws (by rintro _ _ ⟨⟩)
  | other =>
    exact kept.calls goesOn live place rfl rfl (some .other) rfl [] rfl (by simp) kept.laws (by rintro _ _ ⟨⟩)
  | Terminate status => exact kept.terminates goesOn live place
  | GetPID =>
    refine kept.calls goesOn live place rfl rfl none ?_ [_] rfl ?_ (kept.laws.cons trivial) (by rintro _ _ ⟨⟩)
    · exact (outside ▸ Function.update_eq_self p s.call).symm
    · simp [Quiet]
  | returns ret =>
    simp only [Users.enter]
    split
    · exact kept.terminates goesOn live place
    split
    · exact crash
    · exact kept.terminates goesOn live place

/-- `trampoline` in a new process. -/
theorem Kept.begins (kept : Kept s) (user : s.user p = true) (fresh : s.machine.place p = .fresh)
    (turns : s.machine.turn (.resume p) = some m') : Kept (s.begin p m') := by
  obtain ⟨goesOn, occupied, _⟩ := turn_live turns
  obtain ⟨ordered, told⟩ := kept.on goesOn
  rcases begin_cases (s := s) (p := p) m' with ⟨crashed, log⟩ | ⟨machine, users, calls, newer, log, started⟩
  · exact ⟨log.symm ▸ kept.laws, fun goesOn => absurd goesOn crashed⟩
  have laws : History.Justified UserLaw (s.begin p m').log := by
    rw [log]
    refine laws_append kept.laws fun e member older => ?_
    obtain ⟨_, _, rfl⟩ := started e member
    trivial
  refine ⟨laws, fun goesOn' => ?_⟩
  rw [machine] at goesOn'
  have frame := TurnFrame.begins ordered.ledger fresh turns goesOn' machine users calls log
  have outside : s.call p = none := (fresh ▸ told.stands p occupied user : Stands (s.call p) .fresh).fresh
  have history : m'.log = s.machine.log ∧ m'.place p = .user := by
    obtain rfl | rfl := turn_fresh fresh turns
    · exact ⟨rfl, Function.update_self ..⟩
    · cases goesOn'
  have after : TurnTold s p (s.begin p m') := by
    refine .quiet frame log (fun e member => ?_) (fun _ child told => ?_) (fun _ child status told => ?_)
      (fun _ exit told => .inl ?_) (fun _ => ?_) fun _ args retval now => ?_
    · obtain ⟨_, _, rfl⟩ := started e member
      trivial
    · rwa [machine, history.1] at told
    · rwa [machine, history.1] at told
    · rwa [machine, history.1] at told
    · rw [machine, calls, outside, history.2]
      exact .inr rfl
    · rw [calls, outside] at now
      cases now
  rw [machine]
  exact ⟨ordered.next trivial turns, told.turn ordered.ledger (joined_justified ordered) after⟩

theorem Kept.goes (kept : Kept s) (goes : Goes s p c pt) (bound : s.machine.kernel.next_pid + 3 ≤ 2 ^ 31)
    (turns : s.machine.turn (pt.turn p) = some ((s.machine.give p).runOn p pt)) :
    Kept (s.within p c ((s.machine.give p).runOn p pt)) := by
  obtain ⟨ordered, told⟩ := kept.on goes.ready.goesOn
  obtain ⟨laws, after⟩ := goes.told told ordered kept.laws bound
  refine ⟨laws, fun goesOn => ?_⟩
  rw [within_machine] at goesOn ⊢
  exact ⟨ordered.next trivial turns, told.turn ordered.ledger (joined_justified ordered) (after goesOn)⟩

end within

/-- The handler runs on a stack that has been freed. -/
theorem Kept.crashes (kept : Kept s) : Kept (s.within p c (s.machine.stop .crashed)) := by
  have same : s.within p c (s.machine.stop .crashed) = s.creates p (s.machine.stop .crashed) c := by
    unfold Users.within
    simp [reply, Machine.stop]
  obtain ⟨newer, log, created⟩ := creates_log (s := s) (p := p) (m := s.machine.stop .crashed) (c := c)
  refine ⟨?_, fun goesOn => ?_⟩
  · rw [same, log]
    exact Answered.law_created kept.laws created
  · rw [within_machine] at goesOn
    cases goesOn

/-- Every act keeps the users told. -/
theorem Kept.acted (kept : Kept s) (bound : s.machine.kernel.next_pid + 3 ≤ 2 ^ 31) (acted : Acted s s') :
    Kept s' := by
  cases acted with
  | kernel kernelMode turns => exact kept.kernel kernelMode turns
  | enters goesOn live place _ outside => exact kept.enters goesOn live place outside
  | begins user fresh turns => exact kept.begins user fresh turns
  | goes goes turns => exact kept.goes goes bound turns
  | leaves goesOn live place =>
    exact kept.calls goesOn live place rfl rfl none rfl [] rfl (by simp) kept.laws (by rintro _ _ ⟨⟩)
  | crashes => exact kept.crashes

theorem Kept.step_acted (kept : Kept s) {a : UserAct} (moves : s.step a = some s') : Acted s s' :=
  Users.step_acted (fun goesOn => (kept.on goesOn).2.stands) moves

theorem Users.Reached.kept {s : Users} (reached : Users.Reached s) : Kept s :=
  Transition.Run.invariant reached Kept boot_kept fun _ _ _ kept bound moves =>
    kept.acted bound (kept.step_acted moves)

/-- Every return of `Wait` is that of a child of the caller that has ended with this
status and has not been returned before, or says that none is left. -/
theorem Users.waits_justified {s : Users} (reached : Users.Reached s) : History.Justified UserLaw s.log :=
  reached.kept.laws

/-- The user process 3 spawns a child, which terminates, and waits for it. -/
def childWaited : List UserAct :=
  [.kernel (.resume initSlot) false, .kernel (.call initSlot (sporks 3)) false, .kernel (.resume testcaseSlot) false,
    .kernel (.call testcaseSlot (sporks 3)) true, .resume childSlot,
    .call childSlot (.Spawn 0 4096 7 (.ofInt 32 minStack) 4 true), .handler childSlot (sporks 4),
    .resume secondChildSlot, .call secondChildSlot (.Terminate (-5)), .handler secondChildSlot (.join true),
    .handler secondChildSlot (.quit true (-5)), .call childSlot .Wait, .handler childSlot (.join true)]

theorem Users.waits_justified_run : ∃ s, Users.Reached s ∧ .waited 3 4 (-5) 0 ∈ s.log ∧
    History.Justified UserLaw s.log := by
  obtain ⟨s, reached, waited⟩ := Transition.exists_run Users.step Users.boot childWaited
    (fun s _ => decide (s.machine.kernel.next_pid + 3 ≤ 2 ^ 31)) (fun _ _ => of_decide_eq_true)
    (fun s => decide (.waited 3 4 (-5) 0 ∈ s.log)) (by decide +kernel)
  exact ⟨s, reached, of_decide_eq_true waited, waits_justified reached⟩

end UslossKernel.Phase3
