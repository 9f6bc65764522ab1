import UslossKernel.Sleepers

namespace UslossKernel

namespace Phase4a

/-- When a process has called `sys_sleep`, as the number of ticks counted by
then, and the seconds it has asked for. -/
structure SleepCall where
  calledAt : Nat
  seconds : BitVec 32

/-- The ticks the call asks for, as an exact number. -/
def SleepCall.asked (ticksPerSec : BitVec 32) (call : SleepCall) : Nat :=
  call.seconds.toNat * ticksPerSec.toNat

/-- The clock service with the number of ticks it has counted and the last
`sys_sleep` of each process. -/
structure TimedClock where
  service : Client Clock ClockTask
  ticks : Nat
  call : Pid → SleepCall

namespace TimedClock

def start (driver : Pid) : TimedClock :=
  ⟨startClock driver, 0, fun _ => ⟨0, 0⟩⟩

/-- The last calls after an action. -/
def enters (t : TimedClock) : ClientAct (BitVec 32) Empty → Pid → SleepCall
  | .invoke p seconds => Function.update t.call p ⟨t.ticks, seconds⟩
  | _ => t.call

def step (ticksPerSec : BitVec 32) (t : TimedClock) (a : ClientAct (BitVec 32) Empty) : Option TimedClock :=
  (t.service.step (clocking ticksPerSec) a).map fun service =>
    { service
      ticks := if service.shared.tickCount = t.service.shared.tickCount then t.ticks else t.ticks + 1
      call := t.enters a }

/-- No due time overflows, the others stay away from the mailbox of the
requests, and nobody else wakes a process that sleeps. -/
structure Unhurried (ticksPerSec : BitVec 32) (t : TimedClock) (a : ClientAct (BitVec 32) Empty) : Prop where
  apart : Client.Apart clockMbox t.service a
  fits : ∀ p seconds, a = .invoke p seconds → 0 ≤ seconds.toInt →
    t.service.shared.tickCount.toInt + seconds.toNat * ticksPerSec.toNat < 2 ^ 31
  unstrayed : ∀ q, Sleeps t.service q → ¬ t.service.Strays (clocking ticksPerSec) a q

/-- The request is that of the last call of the process, and its due time has
not overflowed. -/
structure Asked (ticksPerSec : BitVec 32) (t : TimedClock) (p : Pid) (req : SleepReq) : Prop where
  wakeupTick : req.wakeupTick = BitVec.ofNat 32 (t.call p).calledAt + (t.call p).seconds * ticksPerSec
  fits : (BitVec.ofNat 32 (t.call p).calledAt).toInt + (t.call p).asked ticksPerSec < 2 ^ 31
  before : (t.call p).calledAt ≤ t.ticks

/-- The ticks are counted, each request is that of a process that is on its way
to sleep or sleeps, and no process has two. -/
structure OnTime (ticksPerSec : BitVec 32) (driver : Pid) (t : TimedClock) : Prop where
  counted : t.service.shared.tickCount = BitVec.ofNat 32 t.ticks
  sending : ∀ p req, t.service.task p = .sending req → t.Asked ticksPerSec p req
  known : ∀ r ∈ (view driver t.service).outstanding,
    Sleeps t.service r.pid.toInt ∧ t.Asked ticksPerSec r.pid.toInt r
  single : ∀ p, (view driver t.service).outstanding.countP (fun r => r.pid.toInt = p) ≤ 1

end TimedClock

/-- Where nothing overflows the sum is that of the integers. -/
theorem toInt_add_ofNat {x : BitVec 32} {m : Nat} (below : x.toInt + m < 2 ^ 31) :
    (x + BitVec.ofNat 32 m).toInt = x.toInt + m := by
  have lower : -2 ^ 31 ≤ x.toInt := by simpa using x.le_toInt
  have wraps : (BitVec.ofNat 32 m).toInt = (m : Int).bmod (2 ^ 32) := BitVec.toInt_ofNat' ..
  rw [BitVec.toInt_add, wraps, Int.add_bmod_bmod]
  exact Int.bmod_eq_of_le (by omega) (by omega)

theorem mul_eq_ofNat (a b : BitVec 32) : a * b = BitVec.ofNat 32 (a.toNat * b.toNat) := by
  apply BitVec.eq_of_toNat_eq
  simp

theorem due_iff {req : SleepReq} {tickCount : BitVec 32} :
    req.due tickCount = true ↔ req.wakeupTick.toInt ≤ tickCount.toInt := by
  rw [SleepReq.due, BitVec.sle_eq_decide, decide_eq_true_eq]

/-- A request is not due before its time if and only if that does not overflow:
otherwise it is due at the largest `int` at the latest. -/
theorem not_due_before_iff {req : SleepReq} {tickCount : BitVec 32} {asked : Nat}
    (wakeupTick : req.wakeupTick = tickCount + BitVec.ofNat 32 asked) :
    (∀ k < asked, req.due (tickCount + BitVec.ofNat 32 k) = false) ↔ tickCount.toInt + asked < 2 ^ 31 := by
  have upper : tickCount.toInt < 2 ^ 31 := by simpa using tickCount.toInt_lt
  constructor
  · intro early
    by_contra wraps
    have reaches : ((2 ^ 31 - 1 - tickCount.toInt).toNat : Int) = 2 ^ 31 - 1 - tickCount.toInt :=
      Int.toNat_of_nonneg (by omega)
    have due := early (2 ^ 31 - 1 - tickCount.toInt).toNat (by omega)
    have largest := toInt_add_ofNat (x := tickCount) (m := (2 ^ 31 - 1 - tickCount.toInt).toNat) (by omega)
    have bound : req.wakeupTick.toInt < 2 ^ 31 := by simpa using req.wakeupTick.toInt_lt
    rw [← Bool.not_eq_true, due_iff, largest, reaches] at due
    omega
  · intro fits k before
    rw [← Bool.not_eq_true, due_iff, wakeupTick, toInt_add_ofNat fits, toInt_add_ofNat (by omega)]
    omega

namespace TimedClock

variable {ticksPerSec : BitVec 32} {driver p : Pid} {t t' : TimedClock} {a : ClientAct (BitVec 32) Empty}
  {req : SleepReq}

/-- A request that is due has waited for the ticks that were asked for. -/
theorem Asked.waited (asked : t.Asked ticksPerSec p req) (due : req.due (BitVec.ofNat 32 t.ticks) = true) :
    (t.call p).calledAt + (t.call p).asked ticksPerSec ≤ t.ticks := by
  obtain ⟨wakeupTick, fits, before⟩ := asked
  rw [mul_eq_ofNat] at wakeupTick
  by_contra early
  have sum : t.ticks = (t.call p).calledAt + (t.ticks - (t.call p).calledAt) := by omega
  have undue := (not_due_before_iff wakeupTick).mpr fits (t.ticks - (t.call p).calledAt) (by
    unfold SleepCall.asked at early
    omega)
  rw [← BitVec.ofNat_add, ← sum, due] at undue
  cases undue

theorem Asked.congr (asked : t.Asked ticksPerSec p req) (call : t'.call p = t.call p) (later : t.ticks ≤ t'.ticks) :
    t'.Asked ticksPerSec p req :=
  ⟨by rw [call]; exact asked.wakeupTick, by rw [call]; exact asked.fits, by rw [call]; exact asked.before.trans later⟩

end TimedClock

section

variable {ticksPerSec : BitVec 32} {driver p q : Pid} {s s' : Client Clock ClockTask}
  {a : ClientAct (BitVec 32) Empty}

/-- A step counts one tick or none. -/
theorem tickCount_of_move (moves : s.Move (clocking ticksPerSec) a s') :
    s'.shared.tickCount = s.shared.tickCount ∨ s'.shared.tickCount = s.shared.tickCount + 1 := by
  have advances : ∀ {p pt c next}, (clocking ticksPerSec).op (s.task p) = .call c next →
      (s.advance (clocking ticksPerSec) p pt next).shared.tickCount = s.shared.tickCount ∨
        (s.advance (clocking ticksPerSec) p pt next).shared.tickCount = s.shared.tickCount + 1 := by
    intro p pt c next place
    rcases Client.advance_cases (R := clocking ticksPerSec) s p pt next with ⟨r, _, same⟩ | ⟨_, same⟩ <;> rw [same]
    · rw [Client.enter_shared]
      cases at_ : s.task p <;> rw [at_] at place <;> cases place
      · left
        simp only
        split <;> rfl
      · exact .inr rfl
      · left
        simp only [scan]
        split <;> rfl
      · exact .inl rfl
    · exact .inl rfl
  cases moves with
  | user | yields => exact .inl rfl
  | @invokes p seconds next _ _ _ invoked =>
    simp only [clocking, Option.ite_none_right_eq_some, Option.some.injEq] at invoked
    obtain ⟨_, rfl⟩ := invoked
    left
    rw [Client.enter_shared, sys_sleep]
    split <;> rfl
  | calls place | resumes place => exact advances place
  | @wakes p pid next place =>
    left
    rw [Client.enter_shared]
    cases at_ : s.task p <;> rw [at_] at place <;> cases place
    rfl
  | @returns p next place =>
    left
    rw [Client.enter_shared]
    cases at_ : s.task p <;> rw [at_] at place <;> cases place
    rfl
  | @goes p _ _ place => cases at_ : s.task p <;> rw [at_] at place <;> cases place
  | @event e => exact e.elim

/-- A process comes to the `MboxSend` of its request only by calling `sys_sleep`. -/
theorem sending_of_move (moves : s.Move (clocking ticksPerSec) a s') {req : SleepReq}
    (task : s'.task q = .sending req) : s.task q = .sending req ∨ ∃ seconds, a = .invoke q seconds ∧
      0 ≤ seconds.toInt ∧ req.wakeupTick = s.shared.tickCount + seconds * ticksPerSec := by
  have advances : ∀ {p pt c next}, (clocking ticksPerSec).op (s.task p) = .call c next →
      (s.advance (clocking ticksPerSec) p pt next).task q = .sending req → s.task q = .sending req := by
    intro p pt c next place task
    by_cases own : q = p
    · subst own
      by_cases sends : ∃ req', s.task q = .sending req'
      · obtain ⟨req', at_⟩ := sends
        rcases Client.advance_cases (R := clocking ticksPerSec) s q pt next with ⟨r, _, same⟩ | ⟨_, same⟩ <;>
          rw [same] at task
        · rw [Client.enter_task, Function.update_self] at task
          rw [at_] at place
          cases place
          cases task
        · exact task
      · exact absurd task (advance_not_sending place (fun req' at_ => sends ⟨req', at_⟩) req)
    · rwa [Client.advance_task_of_ne s own] at task
  have enters : ∀ {sys : Sys} {p next}, (∀ r, (next : Clock × ClockTask).2 ≠ .sending r) →
      (Client.enter (clocking ticksPerSec) { s with sys } p next).task q = .sending req → s.task q = .sending req := by
    intro sys p next other task
    by_cases own : q = p
    · subst own
      rw [Client.enter_task, Function.update_self] at task
      exact absurd task (other req)
    · rwa [Client.enter_task, Function.update_of_ne own] at task
  cases moves with
  | user | yields => exact .inl task
  | @invokes p seconds next _ _ _ invoked =>
    simp only [clocking, Option.ite_none_right_eq_some, Option.some.injEq] at invoked
    obtain ⟨_, rfl⟩ := invoked
    by_cases own : q = p
    · subst own
      rw [Client.enter_task, Function.update_self, sys_sleep] at task
      split at task
      · cases task
      · rename_i nonneg
        cases task
        refine .inr ⟨seconds, rfl, ?_, rfl⟩
        simpa [BitVec.slt_eq_decide] using nonneg
    · rw [Client.enter_task, Function.update_of_ne own] at task
      exact .inl task
  | calls place | resumes place => exact .inl (advances place task)
  | @wakes p pid next place =>
    refine .inl (enters (fun r => ?_) task)
    cases at_ : s.task p <;> rw [at_] at place <;> cases place
    simp
  | @returns p next place =>
    refine .inl (enters (fun r => ?_) task)
    cases at_ : s.task p <;> rw [at_] at place <;> cases place
    simp
  | @goes p _ _ place => cases at_ : s.task p <;> rw [at_] at place <;> cases place
  | @event e => exact e.elim

end

namespace TimedClock

variable {ticksPerSec : BitVec 32} {driver p : Pid} {t t' : TimedClock} {a : ClientAct (BitVec 32) Empty}
  {req : SleepReq}

/-- What a step of the service leaves: one more tick or none, and the calls of
the processes that have not called `sys_sleep`. -/
theorem step_spec (moves : t.step ticksPerSec a = some t') :
    t.service.Move (clocking ticksPerSec) a t'.service ∧ t.ticks ≤ t'.ticks ∧
      (t.service.shared.tickCount = BitVec.ofNat 32 t.ticks →
        t'.service.shared.tickCount = BitVec.ofNat 32 t'.ticks) ∧ t'.call = t.enters a := by
  obtain ⟨service, moved, rfl⟩ := Option.map_eq_some_iff.mp moves
  have move := Client.step_move moved
  refine ⟨move, ?_, fun counted => ?_, rfl⟩
  · simp only
    split <;> omega
  · by_cases same : service.shared.tickCount = t.service.shared.tickCount
    · rw [if_pos same, same, counted]
    · rw [if_neg same, (tickCount_of_move move).resolve_left same, counted, BitVec.ofNat_add]
      rfl

/-- A call of `sys_sleep` is made by a process outside the routines. -/
theorem enters_of_busy (moves : t.step ticksPerSec a = some t') (busy : t.service.task p ≠ .outside) :
    t.enters a p = t.call p := by
  cases a with
  | invoke q seconds =>
    refine Function.update_of_ne ?_ _ _
    rintro rfl
    obtain ⟨service, moved, _⟩ := Option.map_eq_some_iff.mp moves
    simp only [Client.step, Option.ite_none_right_eq_some] at moved
    have idle := moved.1.1
    cases at_ : t.service.task p <;> rw [at_] at idle <;> first | exact busy at_ | cases idle
  | user | run | resume | yield | event => rfl

theorem OnTime.known_step (onTime : t.OnTime ticksPerSec driver) (well : ClockWell ticksPerSec driver t.service)
    (unhurried : t.Unhurried ticksPerSec a) (moves : t.step ticksPerSec a = some t')
    {label : ScannedQueue.Label SleepReq} (effect : Effect ticksPerSec driver t.service a t'.service label) :
    (∀ r ∈ (view driver t'.service).outstanding,
      Sleeps t'.service r.pid.toInt ∧ t'.Asked ticksPerSec r.pid.toInt r) ∧
    ∀ p, (view driver t'.service).outstanding.countP (fun r => r.pid.toInt = p) ≤ 1 := by
  obtain ⟨_, later, _, call⟩ := step_spec moves
  -- what is outstanding and is not passed on stays so
  have stays : ∀ r ∈ (view driver t.service).outstanding, (∀ r', label = .passes r' → r'.pid.toInt ≠ r.pid.toInt) →
      Sleeps t'.service r.pid.toInt ∧ t'.Asked ticksPerSec r.pid.toInt r := by
    intro r member other
    obtain ⟨sleeps, asked⟩ := onTime.known r member
    refine ⟨?_, asked.congr (by rw [call]; exact enters_of_busy moves (by rw [sleeps.1]; simp)) later⟩
    rcases effect.wakes _ sleeps with still | strays | ⟨r', passes, named⟩
    · exact still
    · exact absurd strays (unhurried.unstrayed _ sleeps)
    · exact absurd named (other r' passes)
  have single := onTime.single
  have known := onTime.known
  have sender := effect.sender
  have step := effect.step
  generalize view driver t.service = v at *
  generalize view driver t'.service = v' at *
  have keeps : v'.outstanding.Perm v.outstanding → (∀ r, label ≠ .passes r) →
      (∀ r ∈ v'.outstanding, Sleeps t'.service r.pid.toInt ∧ t'.Asked ticksPerSec r.pid.toInt r) ∧
        ∀ p, v'.outstanding.countP (fun r => r.pid.toInt = p) ≤ 1 := by
    intro same unpassed
    refine ⟨fun r member => stays r (same.mem_iff.mp member) fun r' passes => absurd passes (unpassed r'), fun p => ?_⟩
    rw [same.countP_eq]
    exact single p
  cases step with
  | quiet | ticks | ends => exact keeps (.refl _) (by simp)
  | takes _ none first => exact keeps (by simp [ScannedQueue.State.outstanding, none, first]) (by simp)
  | @putsBack r _ held =>
    refine keeps ?_ (by simp)
    simp only [ScannedQueue.State.outstanding, held, Option.toList_none, Option.toList_some, List.nil_append,
      List.singleton_append]
    exact List.perm_append_singleton ..
  | @loses r _ held =>
    have before : v.outstanding = r :: v.requests := by simp [ScannedQueue.State.outstanding, held]
    rw [before] at stays single
    refine ⟨fun r' member => stays r' (List.mem_cons_of_mem _ member) (by simp), fun p => ?_⟩
    exact (List.sublist_cons_self ..).countP_le.trans (single p)
  | @passes r _ held =>
    have before : v.outstanding = r :: v.requests := by simp [ScannedQueue.State.outstanding, held]
    rw [before] at stays single
    refine ⟨fun r' member => stays r' (List.mem_cons_of_mem _ member) ?_, fun p => ?_⟩
    · rintro _ ⟨⟩ same
      -- otherwise the process would have two requests
      have one := single r.pid.toInt
      rw [List.countP_cons_of_pos (by simp)] at one
      have positive : 0 < v.requests.countP (fun r'' => r''.pid.toInt = r.pid.toInt) :=
        List.countP_pos_iff.mpr ⟨r', member, by simpa using same.symm⟩
      omega
    · exact (List.sublist_cons_self ..).countP_le.trans (single p)
  | sends r =>
    obtain ⟨p, task, sleeps⟩ := sender r rfl
    obtain ⟨_, named, _⟩ : ClockTask.Stands _ _ p _ (.sending r) := task ▸ well.stands p
    have awake : ¬ Sleeps t.service p := fun before => by
      rw [before.1] at task
      cases task
    have after : (ScannedQueue.State.outstanding
        { v with requests := v.requests ++ [r], sent := v.sent ++ [r] }) = v.outstanding ++ [r] := by
      simp [ScannedQueue.State.outstanding]
    rw [after]
    have uncalled : t.enters a p = t.call p := enters_of_busy moves (by rw [task]; simp)
    refine ⟨fun r' member => ?_, fun q => ?_⟩
    · rcases List.mem_append.mp member with old | new
      · exact stays r' old (by simp)
      · obtain rfl := List.mem_singleton.mp new
        rw [named]
        exact ⟨sleeps, (onTime.sending p r' task).congr (by rw [call]; exact uncalled) later⟩
    · rw [List.countP_append]
      by_cases own : r.pid.toInt = q
      · have none : v.outstanding.countP (fun r' => r'.pid.toInt = q) = 0 := by
          refine List.countP_eq_zero.mpr fun r' member same => awake ?_
          rw [← named, own, ← of_decide_eq_true same]
          exact (known r' member).1
        simp [none, own]
      · simpa [own] using single q

theorem OnTime.step (onTime : t.OnTime ticksPerSec driver) (well : ClockWell ticksPerSec driver t.service)
    (unhurried : t.Unhurried ticksPerSec a) (moves : t.step ticksPerSec a = some t') :
    t'.OnTime ticksPerSec driver := by
  obtain ⟨move, later, counted, call⟩ := step_spec moves
  obtain ⟨_, label, effect⟩ := well.step unhurried.apart move
  obtain ⟨known, single⟩ := onTime.known_step well unhurried moves effect
  refine ⟨counted onTime.counted, fun p req task => ?_, known, single⟩
  rcases sending_of_move move task with before | ⟨seconds, rfl, nonneg, wakeupTick⟩
  · have uncalled : t.enters a p = t.call p := enters_of_busy moves (by rw [before]; simp)
    exact (onTime.sending p req before).congr (by rw [call]; exact uncalled) later
  · have here : t'.call p = ⟨t.ticks, seconds⟩ := by
      rw [call]
      exact Function.update_self ..
    have fits := unhurried.fits p seconds rfl nonneg
    rw [onTime.counted] at fits wakeupTick
    refine ⟨by rw [here, wakeupTick], ?_, by rw [here]; exact later⟩
    rw [here, SleepCall.asked]
    exact_mod_cast fits

theorem onTime_of_run (run : Transition.Run (TimedClock.step ticksPerSec) (Unhurried ticksPerSec) (start driver) t) :
    ClockWell ticksPerSec driver t.service ∧ t.OnTime ticksPerSec driver := by
  refine run.invariant (fun t => ClockWell ticksPerSec driver t.service ∧ t.OnTime ticksPerSec driver) ⟨?_, ?_⟩ ?_
  · exact @clockWell_of_run ticksPerSec driver (startClock driver) (Client.Apart clockMbox) .refl
      fun _ _ apart => apart
  · have places : ∀ p, (startClock driver).task p = .outside ∨ (startClock driver).task p = .waitingDevice := by
      intro p
      by_cases self : p = driver <;> simp [startClock, Phase4a.start, self]
    have empty : initSys.globals.queued clockMbox = [] := initSys_clockMbox.queued
    have fresh : (view driver (startClock driver)).outstanding = [] := by
      simp [ScannedQueue.State.outstanding, view, requests, empty, held, startClock, Phase4a.start, ClockTask.held]
    refine ⟨rfl, fun p req task => ?_, fun r member => ?_, fun p => ?_⟩
    · have task : (startClock driver).task p = .sending req := task
      rcases places p with at_ | at_ <;> rw [task] at at_ <;> cases at_
    · have member : r ∈ (view driver (startClock driver)).outstanding := member
      rw [fresh] at member
      cases member
    · change (view driver (startClock driver)).outstanding.countP _ ≤ 1
      rw [fresh]
      exact Nat.zero_le _
  · rintro before a after ⟨well, onTime⟩ unhurried moves
    exact ⟨(well.step unhurried.apart (step_spec moves).1).1, onTime.step well unhurried moves⟩

/-- What the driver passes on is the request of a process that sleeps, and it
has waited as long as that has asked. -/
theorem OnTime.passed (onTime : t.OnTime ticksPerSec driver) (well : ClockWell ticksPerSec driver t.service)
    (apart : Client.Apart clockMbox t.service a) (moves : t.step ticksPerSec a = some t')
    (passed : t'.service.shared.passed = t.service.shared.passed ++ [req]) :
    Sleeps t.service req.pid.toInt ∧
      (t.call req.pid.toInt).calledAt + (t.call req.pid.toInt).asked ticksPerSec ≤ t.ticks := by
  obtain ⟨_, label, effect⟩ := well.step apart (step_spec moves).1
  have passed : (view driver t'.service).passed = (view driver t.service).passed ++ [req] := passed
  have due : (view driver t.service).due = SleepReq.due t.service.shared.tickCount := rfl
  have known := onTime.known
  have step := effect.step
  generalize view driver t.service = v at *
  generalize view driver t'.service = v' at *
  cases step with
  | quiet | sends | ticks | takes | ends | putsBack | loses => simp at passed
  | @passes r _ held isDue =>
    obtain rfl : r = req := by simpa using passed
    obtain ⟨sleeps, asked⟩ := known r (by simp [ScannedQueue.State.outstanding, held])
    rw [due, onTime.counted] at isDue
    exact ⟨sleeps, asked.waited isDue⟩

/-- Where no due time overflows and nobody else wakes a sleeper, the driver
passes a process on only when the ticks it has asked for have been counted
since its call. A request is not due before its time, at any of the ticks until
then, if and only if its due time does not overflow. -/
theorem sleeps_full_time
    (run : Transition.Run (TimedClock.step ticksPerSec) (Unhurried ticksPerSec) (start driver) t) :
    (∀ a t' req, t.Unhurried ticksPerSec a → t.step ticksPerSec a = some t' →
      t'.service.shared.passed = t.service.shared.passed ++ [req] → Sleeps t.service req.pid.toInt ∧
        (t.call req.pid.toInt).calledAt + (t.call req.pid.toInt).asked ticksPerSec ≤ t.ticks) ∧
    ∀ (clock : Clock) (p : Pid) (seconds : BitVec 32), 0 ≤ seconds.toInt →
      ∃ req, sys_sleep ticksPerSec clock p seconds = (clock, .sending req) ∧
        ((∀ k < seconds.toNat * ticksPerSec.toNat, req.due (clock.tickCount + BitVec.ofNat 32 k) = false) ↔
          clock.tickCount.toInt + (seconds.toNat * ticksPerSec.toNat : Nat) < 2 ^ 31) := by
  obtain ⟨well, onTime⟩ := onTime_of_run run
  refine ⟨fun a t' req unhurried moves passed => onTime.passed well unhurried.apart moves passed, ?_⟩
  intro clock p seconds nonneg
  refine ⟨⟨BitVec.ofInt 32 p, clock.tickCount + seconds * ticksPerSec⟩, ?_, not_due_before_iff ?_⟩
  · rw [sys_sleep, if_neg]
    simpa [BitVec.slt_eq_decide] using nonneg
  · exact congrArg (clock.tickCount + ·) (mul_eq_ofNat seconds ticksPerSec)

/-- A stretch of code that wakes nobody who sleeps. -/
def calm (s : Client Clock ClockTask) (seg : Segment) : Bool :=
  match seg.2 with
  | .unblocks pid _ => s.task pid ≠ .sleeping
  | _ => true

/-- A test for the first and the last part of `Unhurried`. -/
def testUndisturbed (t : TimedClock) : ClientAct (BitVec 32) Empty → Bool
  | .run p =>
    match (t.service.task p).op with
    | .call c _ => calm t.service (c.start t.service.sys.globals p)
    | _ => true
  | .resume p =>
    match t.service.sys.proc p with
    | .woken w => calm t.service (w.resume t.service.sys.globals p)
    | .unblocking k => calm t.service (k.resume t.service.sys.globals)
    | _ => true
  | .user (.call p c) => !c.fn.addresses clockMbox && calm t.service (c.start t.service.sys.globals p)
  | .invoke .. => true
  | _ => false

theorem undisturbed_of_test (admitted : t.testUndisturbed a = true) : Client.Apart clockMbox t.service a ∧
    ∀ q, Sleeps t.service q → ¬ t.service.Strays (clocking ticksPerSec) a q := by
  have awake : ∀ {seg : Segment} {q k}, calm t.service seg = true → seg.2 = .unblocks q k → ¬ Sleeps t.service q := by
    intro seg q k passes unblocks sleeps
    rw [calm, unblocks] at passes
    simp [sleeps.1] at passes
  refine ⟨?_, fun q sleeps => ?_⟩
  · rintro p c rfl
    simp only [testUndisturbed, Bool.and_eq_true, Bool.not_eq_true'] at admitted
    exact admitted.1
  · rintro (rfl | ⟨p, pt, k, running, unblocks⟩)
    · cases admitted
    · cases running with
      | user here =>
        cases pt with
        | start c =>
          simp only [Point.act, testUndisturbed, Bool.and_eq_true] at admitted
          exact awake admitted.2 unblocks sleeps
        | afterBlock | afterUnblock => cases admitted
      | calls place =>
        have place : (t.service.task p).op = _ := place
        simp only [testUndisturbed, place] at admitted
        exact awake admitted unblocks sleeps
      | resumes here resumes =>
        simp only [testUndisturbed] at admitted
        cases pt with
        | start c => exact resumes c rfl
        | afterBlock w =>
          rw [here.woken_eq] at admitted
          exact awake admitted unblocks sleeps
        | afterUnblock k' =>
          rw [here.unblocking_eq] at admitted
          exact awake admitted unblocks sleeps

/-- Process 3 sleeps for so many seconds, a tick comes, and the driver looks at
the request. -/
def sleeperLookedAt (seconds : BitVec 32) : List (ClientAct (BitVec 32) Empty) :=
  [.run 2, .invoke 3 seconds, .run 3, .user (.call 5 (.send 6 (some (intBytes 0)) 4)), .resume 2, .run 2]

/-- One second of one tick. -/
theorem sleeps_full_time_run : ∃ t : TimedClock, Transition.Run (TimedClock.step 1) (Unhurried 1) (start 2) t ∧
    t.service.task 2 = .unblocking ⟨3, 1⟩ ∧ t.ticks = 1 ∧ Sleeps t.service 3 ∧
    (t.call 3).calledAt + (t.call 3).asked 1 ≤ t.ticks := by
  obtain ⟨t, executed, passes⟩ := Transition.exists_executed (TimedClock.step 1) (fun t a =>
      t.testUndisturbed a && decide (t.service.shared.tickCount.toInt < 2)) (start 2) (sleeperLookedAt 1)
    (fun t => t.service.task 2 = .unblocking ⟨3, 1⟩ && t.ticks = 1 && (t.step 1 (.run 2)).any fun t' =>
      t.testUndisturbed (.run 2) && t'.service.shared.passed = t.service.shared.passed ++ [⟨3, 1⟩]) (by decide +kernel)
  have run : Transition.Run (TimedClock.step 1) (Unhurried 1) (start 2) t := by
    refine (Transition.Run.of_executed executed).mono fun t a both => ?_
    obtain ⟨admitted, member⟩ := both
    rw [Bool.and_eq_true, decide_eq_true_eq] at admitted
    obtain ⟨apart, unstrayed⟩ := @undisturbed_of_test 1 t a admitted.1
    refine ⟨apart, fun p seconds same _ => ?_, unstrayed⟩
    subst same
    obtain ⟨-, rfl⟩ : p = 3 ∧ seconds = 1 := by simpa [sleeperLookedAt] using member
    have small := admitted.2
    have asked : ((1 : BitVec 32).toNat : Int) * ((1 : BitVec 32).toNat : Int) = 1 := by decide
    omega
  simp only [Bool.and_eq_true, decide_eq_true_eq, Option.any_eq_true] at passes
  obtain ⟨⟨task, ticks⟩, t', moves, admitted, passed⟩ := passes
  obtain ⟨apart, unstrayed⟩ := @undisturbed_of_test 1 t (.run 2) admitted
  obtain ⟨sleeps, waited⟩ := (sleeps_full_time run).1 (.run 2) t' ⟨3, 1⟩ ⟨apart, nofun, unstrayed⟩ moves passed
  exact ⟨t, run, task, ticks, sleeps, waited⟩

/-- Process 3 asks for 214748365 seconds of ten ticks, and the first tick ends
its sleep. -/
theorem sleep_cut_short : ∃ t t' : TimedClock, Transition.Run (TimedClock.step 10) (fun t a =>
      Client.Apart clockMbox t.service a ∧
        ∀ q, Sleeps t.service q → ¬ t.service.Strays (clocking 10) a q) (start 2) t ∧
    t.step 10 (.run 2) = some t' ∧ Sleeps t.service 3 ∧ t.ticks = 1 ∧
    t'.service.shared.passed = [⟨3, 2147483650⟩] ∧ (t.call 3).calledAt = 0 ∧ (t.call 3).asked 10 = 2147483650 := by
  obtain ⟨t, executed, passes⟩ := Transition.exists_executed (TimedClock.step 10) testUndisturbed (start 2)
    (sleeperLookedAt 214748365) (fun t => t.service.task 3 = .sleeping && t.service.sys.proc 3 = .asleep &&
      t.ticks = 1 && (t.call 3).calledAt = 0 && (t.call 3).asked 10 = 2147483650 && (t.step 10 (.run 2)).any fun t' =>
        t'.service.shared.passed = [⟨3, 2147483650⟩]) (by decide +kernel)
  simp only [Bool.and_eq_true, decide_eq_true_eq, Option.any_eq_true] at passes
  obtain ⟨⟨⟨⟨⟨task, asleep⟩, ticks⟩, calledAt⟩, asked⟩, t', moves, passed⟩ := passes
  exact ⟨t, t', (Transition.Run.of_executed executed).mono fun _ _ both => undisturbed_of_test both.1, moves,
    ⟨task, asleep⟩, ticks, passed, calledAt, asked⟩

end TimedClock

end Phase4a

end UslossKernel
