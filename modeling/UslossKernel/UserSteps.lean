import UslossKernel.UserTurns

namespace UslossKernel.Phase3

open LinkedList Phase1b Kernel Machine Users

/-- The function of phase 1 that a handler calls. -/
def Syscall.Calls : Syscall → Phase1b.Fn → Prop
  | .spawn .., fn => fn = .spork
  | .wait _, fn => fn = .join
  | .terminate .., fn => fn = .join ∨ ∃ exit, fn = .quit exit
  | .other, fn => fn ≠ .spork ∧ fn ≠ .join ∧ ∀ exit, fn ≠ .quit exit

/-- Where a user process is in the kernel, by the system call it is in. -/
def Stands : Option Syscall → Place → Prop
  | none, place => place = .fresh ∨ place = .user
  | some c, place => place = .user ∨ ∃ inside, place = .inside inside ∧ c.Calls inside.fn

/-- What a turn of `p` leaves of the others, and of whether it is a user process. -/
structure TurnFrame (s : Users) (p : Slot) (s' : Users) : Prop where
  turned : Turned s.machine p s'.machine
  grows : ∀ e ∈ s.log, e ∈ s'.log
  userSelf : s'.user p = s.user p
  user : ∀ i, i ≠ p → Users.taken s.machine s'.machine i = false → s'.user i = s.user i
  child : ∀ i, Users.taken s.machine s'.machine i = true → s.user p = true → s'.user i = true
  fresh : ∀ i, i ≠ p → Users.taken s.machine s'.machine i = true → s'.call i = none
  call : ∀ i, i ≠ p → Users.taken s.machine s'.machine i = false → s'.call i = s.call i

variable {m m' : Machine} {s s' : Users} {p q i : Slot} {c : Syscall} {pt : Phase1b.Point} {k : Kernel} {value : Int}
  {status : Option Int}

theorem Turned.refl (here : m.kernel.occupied p = true) (ran : m.place p ≠ .fresh) : Turned m p m :=
  ⟨here, ⟨[], rfl, by simp⟩, ⟨here, rfl⟩, fun i taken => .inl ⟨taken, rfl⟩,
    fun i j taken => by simp [Users.taken] at taken, fun i q child => .inl child, fun q other taken => rfl, ran,
    le_rfl⟩

theorem Syscall.makes_calls {call : Phase1b.Call} (makes : c.makes call) : c.Calls call.fn := by
  cases c with
  | spawn =>
    obtain ⟨_, rfl⟩ := makes
    rfl
  | wait =>
    cases makes
    rfl
  | terminate args retval =>
    cases makes
    simp only [Syscall.Calls, sys_terminate]
    split
    · exact .inl rfl
    split
    · exact .inl rfl
    · exact .inr ⟨_, rfl⟩
  | other =>
    cases call with
    | blockMe | unblockProc | dispatcher => simp [Syscall.Calls, Phase1b.Call.fn]
    | _ => cases makes

theorem Syscall.makes_quits {call : Phase1b.Call} (makes : c.makes call) {exit : Int} (fn : call.fn = .quit exit) :
    ∃ args retval, c = .terminate args retval ∧ exit = (int args.arg1).toInt := by
  cases c with
  | spawn =>
    obtain ⟨_, rfl⟩ := makes
    cases fn
  | wait =>
    cases makes
    cases fn
  | terminate args retval =>
    cases makes
    refine ⟨args, retval, rfl, ?_⟩
    unfold sys_terminate at fn
    split at fn
    · cases fn
    split at fn
    · cases fn
    · cases fn
      rfl
  | other => exact absurd fn ((makes_calls makes).2.2 exit)

theorem creates_machine : (s.creates p m c).machine = m := by
  cases c <;> rfl

theorem creates_user (i : Slot) : (s.creates p m c).user i = if taken s.machine m i then true else s.user i := by
  cases c <;> rfl

theorem creates_call (i : Slot) : (s.creates p m c).call i = if taken s.machine m i then none else s.call i := by
  cases c <;> rfl

theorem creates_log : ∃ newer, (s.creates p m c).log = newer ++ s.log ∧
    ∀ e ∈ newer, ∃ parent child f, e = .created parent child f := by
  cases c with
  | spawn =>
    refine ⟨_, rfl, fun e member => ?_⟩
    obtain ⟨i, _, rfl⟩ := List.mem_map.mp member
    exact ⟨_, _, _, rfl⟩
  | wait => exact ⟨[], rfl, by simp⟩
  | terminate | other => exact ⟨[], rfl, by simp⟩

/-- The event of an answer to the handler. -/
def Syscall.events (pid value : Int) (status : Option Int) : Syscall → List UserEvent
  | .spawn args _ =>
    let args' := sys_spawnReturn args value
    [.spawned pid ⟨args.arg1, args.arg2⟩ (int args'.arg1) (int args'.arg4)]
  | .wait args =>
    let args' := sys_waitReturn args value status
    [.waited pid (int args'.arg1) (int args'.arg2) (int args'.arg4)]
  | .terminate .. => if 0 < value then [.reaped pid value] else []
  | .other => []

/-- The system call of the process after an answer. -/
def Syscall.after (value : Int) : Syscall → Option Syscall
  | .spawn .. | .wait _ => none
  | .terminate args _ => some (.terminate args (some value))
  | .other => some .other

theorem answered_machine : (s.answered p value status c).machine = s.machine := by
  cases c with
  | spawn | wait | other => rfl
  | terminate =>
    simp only [answered]
    split <;> rfl

theorem answered_user : (s.answered p value status c).user = s.user := by
  cases c with
  | spawn | wait | other => rfl
  | terminate =>
    simp only [answered]
    split <;> rfl

theorem answered_call : (s.answered p value status c).call = Function.update s.call p (c.after value) := by
  cases c with
  | spawn | wait | other => rfl
  | terminate =>
    simp only [answered]
    split <;> rfl

theorem answered_log : (s.answered p value status c).log = c.events (s.machine.pid p) value status ++ s.log := by
  cases c with
  | spawn | wait | other => rfl
  | terminate =>
    simp only [answered, Syscall.events]
    split <;> rfl

theorem grows_of_append {newer : List UserEvent} (log : s'.log = newer ++ s.log) : ∀ e ∈ s.log, e ∈ s'.log := by
  intro e member
  rw [log]
  exact List.mem_append_right _ member

/-- A turn of a user process in a system call: its handler calls phase 1, or runs
on within that call. -/
structure Goes (s : Users) (p : Slot) (c : Syscall) (pt : Phase1b.Point) : Prop where
  ready : s.machine.Ready p pt
  user : s.user p = true
  call : s.call p = some c
  point : (∃ call, pt = .call call ∧ c.makes call) ∨ ∃ inside, pt = .resume inside ∧ c.Calls inside.fn

namespace Goes

theorem calls (goes : Goes s p c pt) : c.Calls pt.fn := by
  rcases goes.point with ⟨call, rfl, makes⟩ | ⟨inside, rfl, calls⟩
  · exact Syscall.makes_calls makes
  · exact calls

theorem turned (goes : Goes s p c pt) (ledger : Ledger s.machine)
    (goesOn : ((s.machine.give p).runOn p pt).stopped = none) :
    Turned s.machine p ((s.machine.give p).runOn p pt) := by
  have turned := Turned.of_taken ledger (runOn_taken goes.ready) goesOn
  rwa [turn_process] at turned

theorem frame (goes : Goes s p c pt) (ledger : Ledger s.machine)
    (goesOn : ((s.machine.give p).runOn p pt).stopped = none) (machine : s'.machine = (s.machine.give p).runOn p pt)
    (user : ∀ i, s'.user i = if taken s.machine s'.machine i then true else s.user i)
    (call : ∀ i, i ≠ p → s'.call i = if taken s.machine s'.machine i then none else s.call i)
    (grows : ∀ e ∈ s.log, e ∈ s'.log) : TurnFrame s p s' := by
  have turned : Turned s.machine p s'.machine := machine.symm ▸ goes.turned ledger goesOn
  have self : taken s.machine s'.machine p = false := by simp [taken, goes.ready.occupied]
  refine ⟨turned, grows, by simp [user, self], fun i _ old => by simp [user, old], fun i new _ => by simp [user, new],
    fun i other new => by simp [call i other, new], fun i other old => by simp [call i other, old]⟩

/-- The code of phase 1 waits in the function that was called. -/
theorem dispatches_fn {inside : Phase1b.Inside} (goes : Goes s p c pt)
    (ends : pt.exec (s.machine.give p).kernel p = (k, .dispatches inside)) : inside.fn = pt.fn := by
  have alive : (s.machine.give p).kernel.status p ≠ .terminated := by
    rw [give_status, goes.ready.runnable]
    decide
  have effect := (goes.ready.path ends).effect alive
  generalize seg : (k, Ending.dispatches inside) = segment at effect
  cases effect with
  | quiet _ named =>
    cases seg
    exact (named inside rfl).1
  | sporks fn _ ending =>
    cases seg
    rcases ending with impossible | waits
    · cases impossible
    · cases waits
      exact fn.symm
  | collects => cases seg
  | quits quits =>
    cases seg
    obtain ⟨_, rfl, fn⟩ := quits_call quits
    exact fn.symm

end Goes

theorem within_machine : (s.within p c m).machine = m := by
  unfold Users.within
  split
  · exact creates_machine
  · rw [answered_machine, creates_machine]

/-- What an act can do. -/
inductive Acted (s : Users) : Users → Prop
  | kernel {t : Turn} {user m'} : s.user t.process = false → s.machine.turn t = some m' →
      Acted s (s.become m' user none)
  | enters {p : Slot} {call : UserCall} : s.machine.stopped = none → s.machine.live p = true →
      s.machine.place p = .user → s.user p = true → s.call p = none → Acted s (s.enter p call)
  | begins {p : Slot} {m'} : s.user p = true → s.machine.place p = .fresh → s.machine.turn (.resume p) = some m' →
      Acted s (s.begin p m')
  | goes {p : Slot} {c pt} : Goes s p c pt → s.machine.turn (pt.turn p) = some ((s.machine.give p).runOn p pt) →
      Acted s (s.within p c ((s.machine.give p).runOn p pt))
  | leaves {p : Slot} : s.machine.stopped = none → s.machine.live p = true → s.machine.place p = .user →
      s.call p = some .other → Acted s (s.setCall p none)
  | crashes {p : Slot} {c} : s.machine.stopped = none → Acted s (s.within p c (s.machine.stop .crashed))

theorem Acted.goesOn (acted : Acted s s') : s.machine.stopped = none := by
  cases acted with
  | kernel _ turns => exact (turn_live turns).1
  | enters goesOn => exact goesOn
  | begins _ _ turns => exact (turn_live turns).1
  | goes goes => exact goes.ready.goesOn
  | leaves goesOn => exact goesOn
  | crashes goesOn => exact goesOn

theorem outside_iff : s.outside p = true ↔ s.machine.stopped = none ∧ s.machine.live p = true ∧
    s.machine.place p = .user ∧ s.user p = true := by
  simp [Users.outside, and_assoc]

theorem Users.step_acted {a : UserAct} (stands : s.machine.stopped = none → ∀ p, s.machine.kernel.occupied p = true →
    s.user p = true → Stands (s.call p) (s.machine.place p)) (moves : s.step a = some s') : Acted s s' := by
  cases a with
  | kernel t user =>
    simp only [Users.step] at moves
    split at moves
    · cases moves
    rename_i kernel
    obtain ⟨m', turns, rfl⟩ := Option.map_eq_some_iff.mp moves
    exact .kernel (by simpa using kernel) turns
  | call p call =>
    simp only [Users.step] at moves
    split at moves
    · rename_i may
      cases moves
      obtain ⟨goesOn, live, place, user⟩ := outside_iff.mp may.1
      exact .enters goesOn live place user may.2
    · cases moves
  | leave p =>
    simp only [Users.step] at moves
    split at moves
    · rename_i may
      cases moves
      obtain ⟨goesOn, live, place, _⟩ := outside_iff.mp may.1
      exact .leaves goesOn live place may.2
    · cases moves
  | handler p call =>
    simp only [Users.step] at moves
    split at moves
    · cases moves
    rename_i c inside
    split at moves
    · rename_i may
      obtain ⟨m', turns, rfl⟩ := Option.map_eq_some_iff.mp moves
      obtain ⟨ready, rfl⟩ := turn_call turns
      exact .goes ⟨ready, may.1, inside, .inl ⟨call, rfl, may.2⟩⟩ turns
    · cases moves
  | resume p =>
    simp only [Users.step] at moves
    split at moves
    · cases moves
    rename_i user
    have user : s.user p = true := by simpa using user
    split at moves
    · rename_i place
      obtain ⟨m', turns, rfl⟩ := Option.map_eq_some_iff.mp moves
      exact .begins user place turns
    · rename_i c call _
      obtain ⟨m', turns, rfl⟩ := Option.map_eq_some_iff.mp moves
      obtain ⟨goesOn, occupied, _⟩ := turn_live turns
      have stands := stands goesOn p occupied user
      rw [call] at stands
      rcases stands with outside | ⟨inside, place, calls⟩
      · simp [Machine.turn, outside] at turns
      · obtain ⟨ready, rfl | rfl⟩ := turn_resume place turns
        · exact .goes ⟨ready, user, call, .inr ⟨inside, rfl, calls⟩⟩ turns
        · exact .crashes goesOn
    · cases moves

/-- What a `spork` that does not call `dispatcher` returns. -/
theorem spork_value {kernel : Kernel} {kernelMode startFunc malloc : Bool} {stackSize priority : Int}
    (ends : kernel.spork kernelMode startFunc malloc stackSize priority = (k, .returns value status)) :
    status = none ∧
      (value = -1 ∨ value = -2 ∨ ∃ slot, Sporked kernel slot k ∧ value = (k.process_table slot).pid) := by
  unfold Kernel.spork at ends
  split at ends
  · cases ends
  split at ends
  · cases ends
    exact ⟨rfl, .inl rfl⟩
  split at ends
  · cases ends
    exact ⟨rfl, .inr (.inl rfl)⟩
  split at ends
  · cases ends
    exact ⟨rfl, .inl rfl⟩
  rename_i slot free
  split at ends
  · cases ends
  split at ends
  · cases ends
  rename_i linked atLinked
  split at ends
  · cases ends
  rename_i queued atQueued
  have sporked : Sporked kernel slot (queued.modify slot fun p => { p with next := none }) :=
    .intro free (by omega) (by omega) atLinked atQueued
  simp only at ends
  split at ends
  · split at ends
    · cases ends
    · cases ends
      exact ⟨rfl, .inr (.inr ⟨slot, sporked, rfl⟩)⟩
  · cases ends
    exact ⟨rfl, .inr (.inr ⟨slot, sporked, rfl⟩)⟩

/-- The value that phase 1 returns to `sys_spawn` fits in an `int`. -/
theorem Goes.spork_bounds {args : Sysargs} {wrapper : Nat} (goes : Goes s p (.spawn args wrapper) pt)
    (ledger : Ledger s.machine) (ends : pt.exec (s.machine.give p).kernel p = (k, .returns value status)) :
    status = none ∧ -2 ≤ value ∧ value < s.machine.kernel.next_pid + 3 := by
  rcases goes.point with ⟨_, rfl, malloc, rfl⟩ | ⟨inside, rfl, calls⟩
  · have ends : (s.machine.give p).kernel.spork true true malloc (int args.arg3).toInt (int args.arg4).toInt =
        (k, .returns value status) := ends
    obtain ⟨noStatus, value⟩ := spork_value ends
    refine ⟨noStatus, ?_⟩
    rcases value with rfl | rfl | ⟨slot, sporked, rfl⟩
    · omega
    · omega
    · have named : (k.process_table slot).pid = drawPid s.machine.kernel.next_pid := sporked.created.1
      have most : drawPid s.machine.kernel.next_pid ≤ s.machine.kernel.next_pid + 2 := by
        unfold drawPid
        split
        · split <;> omega
        · omega
      omega
  · cases inside with
    | spork i =>
      cases ends
      have child := (ledger.sporking i p goes.ready.occupied (by
        rcases goes.ready.place with ⟨_, impossible, _⟩ | ⟨_, same, place⟩
        · cases impossible
        · cases same
          exact place)).1
      have positive := ledger.positive i child.1
      have below := ledger.family.below i
      have named : ((s.machine.give p).kernel.process_table i).pid = s.machine.pid i := rfl
      have same : s.machine.pid i = (s.machine.kernel.process_table i).pid := rfl
      refine ⟨rfl, ?_⟩
      omega
    | _ => cases calls

/-- A handler that joins gives `join` an address. -/
theorem Goes.joins (goes : Goes s p c pt) (fn : pt.fn = .join) : pt = .call (.join true) ∨ pt = .resume .join := by
  rcases goes.point with ⟨call, rfl, makes⟩ | ⟨inside, rfl, _⟩
  · left
    cases c with
    | spawn =>
      obtain ⟨_, rfl⟩ := makes
      cases fn
    | wait =>
      cases makes
      rfl
    | other => exact absurd fn (Syscall.makes_calls makes).2.1
    | terminate args retval =>
      cases makes
      simp only [Phase1b.Point.fn, sys_terminate] at fn ⊢
      split at fn
      · rfl
      split at fn
      · rename_i more
        simp [more]
      · cases fn
  · cases inside with
    | join => exact .inr rfl
    | _ => cases fn

/-- What `join` returns to a handler. -/
theorem Goes.join_value (goes : Goes s p c pt) (ledger : Ledger s.machine) (fn : pt.fn = .join)
    (ends : pt.exec (s.machine.give p).kernel p = (k, .returns value status)) :
    (status = none ∧ value = -2 ∧ s.machine.kernel.children p = none) ∨
      ∃ i, s.machine.kernel.childOf i p ∧ s.machine.kernel.status i = .terminated ∧ value = s.machine.pid i ∧
        status = some (s.machine.kernel.process_table i).exit_status := by
  have bad : value = -3 → status = none → False := by
    rintro rfl rfl
    rcases goes.joins fn with rfl | rfl
    · simp only [Phase1b.Point.exec, Phase1b.Call.exec, Kernel.join, give_running, joinLoop] at ends
      split at ends
      · rename_i given
        cases given
      split at ends
      · simp at ends
      split at ends <;> simp at ends
    · simp only [Phase1b.Point.exec, Phase1b.Inside.exec, joinLoop] at ends
      split at ends <;> simp at ends
  cases Phase1b.Point.exec_return give_running ends with
  | plain _ joins =>
    rcases joins fn with wrong | ⟨none, noChild⟩
    · exact absurd rfl (bad wrong)
    · exact .inl ⟨rfl, none, noChild⟩
  | sporked => cases fn
  | sporks other => exact absurd (other.symm.trans fn) (by simp)
  | collects _ found =>
    obtain ⟨child, dead⟩ := (ledger.give p).family.found found
    exact .inr ⟨_, child, dead, rfl, rfl⟩

/-- What the other functions return. -/
theorem Goes.plain_return (goes : Goes s p c pt) (notSpork : pt.fn ≠ .spork) (notJoin : pt.fn ≠ .join)
    (ends : pt.exec (s.machine.give p).kernel p = (k, .returns value status)) : status = none ∧ value ≤ 0 := by
  cases Phase1b.Point.exec_return give_running ends with
  | plain least => exact ⟨rfl, least⟩
  | sporked => exact absurd rfl notSpork
  | sporks fn => exact absurd fn notSpork
  | collects joins => exact absurd (joins_fn joins) notJoin

theorem turn_fresh (fresh : m.place p = .fresh) (turns : m.turn (.resume p) = some m') :
    m' = { m.give p with place := Function.update m.place p .user } ∨ m' = m.stop (.halted 1) := by
  unfold Machine.turn at turns
  split at turns
  · cases turns
  simp only [fresh] at turns
  split at turns
  · exact .inl (Option.some.inj turns).symm
  · exact .inr (Option.some.inj turns).symm

theorem begin_cases (m' : Machine) : (s.begin p m').machine.stopped ≠ none ∧ (s.begin p m').log = s.log ∨
    (s.begin p m').machine = m' ∧ (s.begin p m').user = s.user ∧ (s.begin p m').call = s.call ∧
      ∃ newer, (s.begin p m').log = newer ++ s.log ∧ ∀ e ∈ newer, ∃ pid f, e = .started pid f := by
  unfold Users.begin
  simp only
  split
  · exact .inr ⟨rfl, rfl, rfl, [], rfl, by simp⟩
  split
  · exact .inl ⟨by simp [crash, Machine.stop], rfl⟩
  · exact .inr ⟨rfl, rfl, rfl, [_], rfl, by simp⟩

/-- A process that begins creates no other. -/
theorem fresh_untaken (fresh : m.place p = .fresh) (turns : m.turn (.resume p) = some m') (i : Slot) :
    taken m m' i = false := by
  obtain rfl | rfl := turn_fresh fresh turns
  · simp [taken]
  · simp [taken, Machine.stop]

/-- A turn of a process in kernel mode. -/
theorem TurnFrame.kernel (ledger : Ledger s.machine) {t : Turn} {user : Bool} (kernelMode : s.user t.process = false)
    (turns : s.machine.turn t = some m') (goesOn : m'.stopped = none) :
    TurnFrame s t.process (s.become m' user none) := by
  have self : taken s.machine m' t.process = false := by simp [taken, (turn_live turns).2.1]
  refine ⟨Turned.of_taken ledger (turn_taken turns) goesOn, fun _ member => member, by simp [become, self],
    fun i _ old => ?_, fun _ _ userMode => ?_, fun i _ new => if_pos new, fun i _ old => ?_⟩
  · exact if_neg (Bool.eq_false_iff.mp old)
  · exact absurd (kernelMode.symm.trans userMode) (by decide)
  · exact if_neg (Bool.eq_false_iff.mp old)

/-- A user process enters a system call or leaves it. -/
theorem TurnFrame.calls (live : s.machine.live p = true) (place : s.machine.place p = .user)
    (machine : s'.machine = s.machine) (user : s'.user = s.user) {entered : Option Syscall}
    (call : s'.call = Function.update s.call p entered) {newer : List UserEvent} (log : s'.log = newer ++ s.log) :
    TurnFrame s p s' := by
  have occupied : s.machine.kernel.occupied p = true := by
    simp only [Machine.live, Bool.and_eq_true] at live
    exact live.1
  have untaken : ∀ i, taken s.machine s'.machine i = false := by simp [taken, machine]
  refine ⟨machine.symm ▸ .refl occupied (by simp [place]), grows_of_append log, by rw [user],
    fun i _ _ => by rw [user], fun i new => ?_, fun i _ new => ?_,
    fun i other _ => by rw [call, Function.update_of_ne other]⟩
  · exact absurd ((untaken i).symm.trans new) (by decide)
  · exact absurd ((untaken i).symm.trans new) (by decide)

/-- A new process begins. -/
theorem TurnFrame.begins (ledger : Ledger s.machine) (fresh : s.machine.place p = .fresh)
    (turns : s.machine.turn (.resume p) = some m') (goesOn : m'.stopped = none) (machine : s'.machine = m')
    (user : s'.user = s.user) (call : s'.call = s.call) {newer : List UserEvent} (log : s'.log = newer ++ s.log) :
    TurnFrame s p s' := by
  have turned : Turned s.machine p m' := Turned.of_taken ledger (turn_taken turns) goesOn
  have untaken : ∀ i, taken s.machine s'.machine i = false := fun i => machine.symm ▸ fresh_untaken fresh turns i
  refine ⟨machine.symm ▸ turned, grows_of_append log, by rw [user], fun i _ _ => by rw [user],
    fun i new => ?_, fun i _ new => ?_, fun i _ _ => by rw [call]⟩
  · exact absurd ((untaken i).symm.trans new) (by decide)
  · exact absurd ((untaken i).symm.trans new) (by decide)

/-- No system call begins before the process does. -/
theorem Stands.fresh {call : Option Syscall} (stands : Stands call .fresh) : call = none := by
  cases call with
  | none => rfl
  | some c =>
    rcases stands with impossible | ⟨_, impossible, _⟩ <;> cases impossible

theorem within_grows : ∀ e ∈ s.log, e ∈ (s.within p c m).log := by
  obtain ⟨newer, log, _⟩ := creates_log (s := s) (p := p) (m := m) (c := c)
  unfold Users.within
  split
  · exact grows_of_append log
  · intro e member
    rw [answered_log, log]
    exact List.mem_append_right _ (List.mem_append_right _ member)

/-- A turn within a system call. -/
theorem Goes.within_frame (goes : Goes s p c pt) (ledger : Ledger s.machine)
    (goesOn : ((s.machine.give p).runOn p pt).stopped = none) :
    TurnFrame s p (s.within p c ((s.machine.give p).runOn p pt)) := by
  refine goes.frame ledger goesOn within_machine (fun i => ?_) (fun i other => ?_) within_grows
  · rw [within_machine]
    unfold Users.within
    split
    · rw [creates_user]
    · rw [answered_user, creates_user]
  · rw [within_machine]
    unfold Users.within
    split
    · rw [creates_call]
    · rw [answered_call, Function.update_of_ne other, creates_call]

end UslossKernel.Phase3
