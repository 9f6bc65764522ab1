import UslossKernel.ClockService

namespace UslossKernel

namespace Phase4a

/-- Each of these processes has one of the requests, and the requests have no
others. -/
structure Matched (requests : List SleepReq) (asleep : Pid → Prop) : Prop where
  one : ∀ p, asleep p → requests.countP (fun r => r.pid.toInt = p) = 1
  known : ∀ r ∈ requests, asleep r.pid.toInt

namespace Matched

variable {requests requests' : List SleepReq} {asleep asleep' : Pid → Prop}

theorem perm (matched : Matched requests asleep) (same : requests'.Perm requests) (still : ∀ q, asleep' q ↔ asleep q) :
    Matched requests' asleep' where
  one p sleeps := by
    rw [same.countP_eq]
    exact matched.one p ((still p).mp sleeps)
  known r member := (still _).mpr (matched.known r (same.mem_iff.mp member))

/-- A process falls asleep with its request queued. -/
theorem add (matched : Matched requests asleep) {r : SleepReq} (awake : ¬ asleep r.pid.toInt)
    (falls : ∀ q, asleep' q ↔ asleep q ∨ q = r.pid.toInt) : Matched (requests ++ [r]) asleep' where
  one p sleeps := by
    rw [List.countP_append]
    by_cases own : p = r.pid.toInt
    · subst own
      have none : requests.countP (fun r' => r'.pid.toInt = r.pid.toInt) = 0 := by
        refine List.countP_eq_zero.mpr fun r' member named => awake ?_
        rw [← of_decide_eq_true named]
        exact matched.known r' member
      simp [none]
    · have before := matched.one p (((falls p).mp sleeps).resolve_right own)
      simp [before, Ne.symm own]
  known r' member := by
    rcases List.mem_append.mp member with old | new
    · exact (falls _).mpr (.inl (matched.known r' old))
    · exact (falls _).mpr (.inr (by rw [List.mem_singleton.mp new]))

/-- The process of a request is woken when the request goes. -/
theorem remove {r : SleepReq} (matched : Matched (r :: requests) asleep)
    (wakes : ∀ q, asleep' q ↔ asleep q ∧ q ≠ r.pid.toInt) : Matched requests asleep' where
  one p sleeps := by
    obtain ⟨before, other⟩ := (wakes p).mp sleeps
    have one := matched.one p before
    rwa [List.countP_cons_of_neg (by simpa using Ne.symm other)] at one
  known r' member := by
    refine (wakes _).mpr ⟨matched.known r' (List.mem_cons_of_mem _ member), fun same => ?_⟩
    -- otherwise the process would have two requests
    have one := matched.one r.pid.toInt (matched.known r (List.mem_cons_self ..))
    rw [List.countP_cons_of_pos (by simp)] at one
    have positive : 0 < requests.countP (fun r'' => r''.pid.toInt = r.pid.toInt) :=
      List.countP_pos_iff.mpr ⟨r', member, by simpa using same⟩
    omega

end Matched

/-- The sends of `sys_sleep` and `ClockDriver` find a free slot, that of
`sys_sleep` finds room, and nobody else wakes a process that sleeps. -/
structure Supplied (ticksPerSec : BitVec 32) (driver : Pid) (s : Client Clock ClockTask)
    (a : ClientAct (BitVec 32) Empty) : Prop where
  apart : Client.Apart clockMbox s a
  sends : ∀ p req, s.task p = .sending req → a = .run p →
    s.sys.globals.freeSlotCount ≠ 0 ∧ (s.sys.globals.mailboxSlotQueues clockMbox).count < 100
  putsBack : ∀ req, s.task driver = .puttingBack req → a = .run driver → s.sys.globals.freeSlotCount ≠ 0
  unstrayed : ∀ q, Sleeps s q → ¬ s.Strays (clocking ticksPerSec) a q

/-- The processes that sleep are those of the requests in the mailbox or in
hand, and no process is stuck in its send. -/
structure SleepersMatch (driver : Pid) (s : Client Clock ClockTask) : Prop where
  sending : ∀ p req, s.task p = .sending req → s.sys.proc p = .outside
  matched : Matched (view driver s).outstanding (Sleeps s)

section

variable {ticksPerSec : BitVec 32} {driver p q : Pid} {s s' : Client Clock ClockTask}
  {a : ClientAct (BitVec 32) Empty}

/-- Only `sys_sleep` goes to its `MboxSend`. -/
theorem advance_not_sending {pt : Point} {c : Call} {next : Result → Clock → Clock × ClockTask}
    (place : (clocking ticksPerSec).op (s.task p) = .call c next) (other : ∀ req, s.task p ≠ .sending req)
    (req : SleepReq) : (s.advance (clocking ticksPerSec) p pt next).task p ≠ .sending req := by
  have advanced := Client.advanced (R := clocking ticksPerSec) s p pt next
  generalize s.advance (clocking ticksPerSec) p pt next = s' at *
  generalize pt.exec s.sys.globals p = seg at advanced
  cases advanced with
  | blocks _ _ task | unblocks _ _ task | faults _ _ task =>
    rw [task]
    exact other req
  | @returns _ r _ _ _ task =>
    rw [task]
    cases at_ : s.task p with
    | sending req' => exact absurd at_ (other req')
    | waitingDevice | puttingBack =>
      rw [at_] at place
      cases place
      simp
    | receiving =>
      rw [at_] at place
      cases place
      simp only [scan]
      split
      · split <;> simp
      · simp
    | outside | sleeping | unblocking =>
      rw [at_] at place
      cases place

/-- The `MboxSend` of `sys_sleep` does not wait where it finds a slot and room. -/
theorem ClockWell.sends_through (well : ClockWell ticksPerSec driver s) {req : SleepReq}
    (task : s.task p = .sending req) (out : s.sys.proc p = .outside)
    (room : (s.sys.globals.mailboxSlotQueues clockMbox).count < 100) {c : Call}
    {next : Result → Clock → Clock × ClockTask} (place : (clocking ticksPerSec).op (s.task p) = .call c next) :
    (s.advance (clocking ticksPerSec) p (.start c) next).task p = .sleeping ∨
      (s.advance (clocking ticksPerSec) p (.start c) next).sys.proc p = .outside := by
  have advanced := Client.advanced (R := clocking ticksPerSec) s p (.start c) next
  obtain ⟨sending, _, awake, _⟩ :=
    well.sends (out ▸ .start) .start place (by rw [task] at place; cases place; rfl) (.inl task)
  rw [task] at place
  cases place
  generalize s.advance (clocking ticksPerSec) p _ _ = s' at *
  generalize Point.exec s.sys.globals p _ = seg at *
  cases sending with
  | refused =>
    cases advanced with
    | returns _ _ task' => exact .inl task'
  | waits _ full =>
    rw [well.numSlots] at full
    omega
  | stored _ _ _ ends =>
    rcases ends with rfl | ⟨pointed, _⟩
    · cases advanced with
      | returns _ _ task' => exact .inl task'
    · exact absurd well.consumers pointed
  | returned inside => exact absurd inside (awake _)
  | faults =>
    cases advanced with
    | faults _ _ _ proc => exact .inr (proc.trans out)

theorem SleepersMatch.sending_step (sound : SleepersMatch driver s) (well : ClockWell ticksPerSec driver s)
    (supplied : Supplied ticksPerSec driver s a) (moves : s.Move (clocking ticksPerSec) a s') (q : Pid)
    (req : SleepReq) (task : s'.task q = .sending req) : s'.sys.proc q = .outside := by
  have stays : s.task q = .sending req → (s'.sys.proc q = s.sys.proc q ∨ s'.sys.proc q = (s.sys.proc q).wake) →
      s'.sys.proc q = .outside := by
    intro before same
    have out := sound.sending q req before
    rcases same with same | woken
    · rw [same, out]
    · rw [woken, out]
      rfl
  cases moves with
  | @user act sys may moved =>
    refine stays task (Client.user_other moved q ?_)
    rintro rfl
    have at_ : s.task act.pid = .sending req := task
    rcases well.keeps.user_place may moved with place | ⟨⟨_, place⟩, _⟩ <;> rw [at_] at place <;> cases place
  | @invokes p _ next place may out =>
    by_cases own : q = p
    · subst own
      rw [Client.enter_task, Function.update_self] at task
      rw [Client.enter_eq (by rw [task]; rfl)]
      exact out
    · rw [Client.enter_task, Function.update_of_ne own] at task
      exact stays task (.inl (Client.enter_proc_of_ne _ own _))
  | @calls p c next place may out =>
    by_cases own : q = p
    · subst own
      by_cases sends : ∃ req', s.task q = .sending req'
      · obtain ⟨req', at_⟩ := sends
        rcases well.sends_through at_ out (supplied.sends q req' at_ rfl).2 place with sleeps | out'
        · rw [sleeps] at task
          cases task
        · exact out'
      · exact absurd task (advance_not_sending place (fun req' at_ => sends ⟨req', at_⟩) req)
    · rw [Client.advance_task_of_ne s own] at task
      exact stays task (Client.advance_other q own)
  | @resumes p pt c next place may here resumes =>
    by_cases own : q = p
    · subst own
      refine absurd task (advance_not_sending place (fun req' at_ => ?_) req)
      rw [sound.sending q req' at_] at here
      cases here
      exact resumes _ rfl
    · rw [Client.advance_task_of_ne s own] at task
      exact stays task (Client.advance_other q own)
  | @wakes p pid next place may out =>
    by_cases own : q = p
    · subst own
      rw [Client.enter_task, Function.update_self] at task
      cases at_ : s.task q <;> rw [at_] at place <;> cases place
      cases task
    · rw [Client.enter_task, Function.update_of_ne own] at task
      refine stays task ?_
      rw [Client.enter_proc_of_ne _ own]
      exact Client.unblockProc_other q
  | @returns p next place may out =>
    by_cases own : q = p
    · subst own
      rw [Client.enter_task, Function.update_self] at task
      cases at_ : s.task q <;> rw [at_] at place <;> cases place
      cases task
    · rw [Client.enter_task, Function.update_of_ne own] at task
      exact stays task (.inl (Client.enter_proc_of_ne _ own _))
  | @goes p _ _ place => cases at_ : s.task p <;> rw [at_] at place <;> cases place
  | yields => exact stays task (.inl rfl)
  | @event e => exact e.elim

theorem SleepersMatch.matched_step (sound : SleepersMatch driver s) (well : ClockWell ticksPerSec driver s)
    (supplied : Supplied ticksPerSec driver s a) {label : ScannedQueue.Label SleepReq}
    (effect : Effect ticksPerSec driver s a s' label) : Matched (view driver s').outstanding (Sleeps s') := by
  have matched := sound.matched
  -- who falls asleep has sent a request, and who wakes has been passed on
  have falls : ∀ q, Sleeps s' q → Sleeps s q ∨ ∃ req, s.task q = .sending req ∧ label = .sends req := by
    intro q sleeps
    rcases effect.fallsAsleep q sleeps with before | ⟨req, task, sent | ⟨runs, none⟩⟩
    · exact .inl before
    · exact .inr ⟨req, task, sent⟩
    · exact absurd none (supplied.sends q req task runs).1
  have wakes : ∀ q, Sleeps s q → Sleeps s' q ∨ ∃ req, label = .passes req ∧ req.pid.toInt = q := by
    intro q sleeps
    rcases effect.wakes q sleeps with still | strays | passed
    · exact .inl still
    · exact absurd strays (supplied.unstrayed q sleeps)
    · exact .inr passed
  have sender := effect.sender
  have passed := effect.passed
  have lost := effect.lost
  have step := effect.step
  generalize view driver s = v at *
  generalize view driver s' = v' at *
  have quiet : (∀ req, label ≠ .sends req) → (∀ req, label ≠ .passes req) → ∀ q, Sleeps s' q ↔ Sleeps s q := by
    intro unsent unpassed q
    constructor
    · intro sleeps
      rcases falls q sleeps with before | ⟨req, _, sent⟩
      · exact before
      · exact absurd sent (unsent req)
    · intro sleeps
      rcases wakes q sleeps with still | ⟨req, passes, _⟩
      · exact still
      · exact absurd passes (unpassed req)
  cases step with
  | quiet | ticks => exact matched.perm (.refl _) (quiet (by simp) (by simp))
  | takes _ none first =>
    refine matched.perm ?_ (quiet (by simp) (by simp))
    simp [ScannedQueue.State.outstanding, none, first]
  | ends => exact matched.perm (.refl _) (quiet (by simp) (by simp))
  | @putsBack r _ held =>
    refine matched.perm ?_ (quiet (by simp) (by simp))
    simp only [ScannedQueue.State.outstanding, held, Option.toList_none, Option.toList_some, List.nil_append,
      List.singleton_append]
    exact List.perm_append_singleton ..
  | loses =>
    obtain ⟨runs, none, req, task⟩ := lost rfl
    exact absurd none (supplied.putsBack req task runs)
  | @passes r _ held =>
    have taken : Matched (r :: v.requests) (Sleeps s) := by
      simpa [ScannedQueue.State.outstanding, held] using matched
    refine taken.remove fun q => ⟨fun sleeps => ⟨?_, ?_⟩, fun before => ?_⟩
    · exact (falls q sleeps).resolve_right (by simp)
    · rintro rfl
      exact passed r rfl sleeps
    · refine (wakes q before.1).resolve_right ?_
      rintro ⟨req, same, named⟩
      cases same
      exact before.2 named.symm
  | sends r =>
    obtain ⟨p, task, sleeps⟩ := sender r rfl
    obtain ⟨_, named, _⟩ : ClockTask.Stands _ _ p _ (.sending r) := task ▸ well.stands p
    have awake : ¬ Sleeps s p := fun before => by
      rw [before.1] at task
      cases task
    have added : Matched (v.outstanding ++ [r]) (Sleeps s') := matched.add (by rwa [named]) fun q =>
      ⟨fun sleeps => ?_, ?_⟩
    · simpa [ScannedQueue.State.outstanding] using added
    · refine (falls q sleeps).imp_right ?_
      rintro ⟨req, atQ, same⟩
      cases same
      obtain ⟨_, named', _⟩ : ClockTask.Stands _ _ q _ (.sending r) := atQ ▸ well.stands q
      exact named'.symm
    · rintro (before | rfl)
      · exact (wakes q before).resolve_right (by simp)
      · rwa [named]

theorem sleepersMatch_of_run
    (run : Transition.Run (Client.step (clocking ticksPerSec)) (Supplied ticksPerSec driver) (startClock driver) s) :
    SleepersMatch driver s := by
  have well : ∀ s, Transition.Run (Client.step (clocking ticksPerSec)) (Supplied ticksPerSec driver)
      (startClock driver) s → ClockWell ticksPerSec driver s :=
    fun s run => clockWell_of_run run fun _ _ supplied => supplied.apart
  refine run.invariant_above well (SleepersMatch driver) ?_ fun before act after well sound supplied moves => ?_
  · have places : ∀ p, (startClock driver).task p = .outside ∨ (startClock driver).task p = .waitingDevice := by
      intro p
      by_cases self : p = driver <;> simp [startClock, start, self]
    have empty : initSys.globals.queued clockMbox = [] := initSys_clockMbox.queued
    have fresh : (view driver (startClock driver)).outstanding = [] := by
      simp [ScannedQueue.State.outstanding, view, requests, empty, held, startClock, start, ClockTask.held]
    refine ⟨fun p _ _ => initSys_outside p, fun p sleeps => ?_, fun r member => ?_⟩
    · rcases places p with at_ | at_ <;> rw [sleeps.1] at at_ <;> cases at_
    · rw [fresh] at member
      cases member
  · obtain ⟨_, label, effect⟩ := well.step supplied.apart (Client.step_move moves)
    exact ⟨sound.sending_step well supplied (Client.step_move moves), sound.matched_step well supplied effect⟩

/-- In `sys_sleep`, in its `blockMe` or waiting in its `MboxSend`. -/
def BlockedInSleep (s : Client Clock ClockTask) (p : Pid) : Prop :=
  Sleeps s p ∨ (∃ req, s.task p = .sending req) ∧ ∃ w, s.sys.proc p = .blocked w

/-- Sleepers and requests correspond one to one in every run in which the sends
find a slot and room and nobody else wakes a sleeper. -/
theorem sleepers_have_requests
    (run : Transition.Run (Client.step (clocking ticksPerSec)) (Supplied ticksPerSec driver) (startClock driver) s) :
    (∀ p, BlockedInSleep s p →
      ((held driver s).toList ++ requests s).countP (fun r => r.pid.toInt = p) = 1) ∧
    ∀ r ∈ (held driver s).toList ++ requests s, BlockedInSleep s r.pid.toInt := by
  have sound := sleepersMatch_of_run run
  refine ⟨fun p blocked => ?_, fun r member => .inl (sound.matched.known r member)⟩
  rcases blocked with sleeps | ⟨⟨req, task⟩, w, inside⟩
  · exact sound.matched.one p sleeps
  · rw [sound.sending p req task] at inside
    cases inside

end

/-- Process 3 sleeps for a second. -/
def oneSleeps : List (ClientAct (BitVec 32) Empty) :=
  [.invoke 3 1, .run 3]

theorem sleepers_have_requests_run : ∃ s, Transition.Run (Client.step (clocking 10)) (Supplied 10 2) (startClock 2) s ∧
    BlockedInSleep s 3 ∧ ((held 2 s).toList ++ requests s).countP (fun r => r.pid.toInt = 3) = 1 := by
  obtain ⟨s, executed, passes⟩ := Transition.exists_executed (Client.step (clocking 10)) (fun s a =>
    Client.isApart clockMbox a && s.sys.globals.freeSlotCount ≠ 0 &&
      (s.sys.globals.mailboxSlotQueues clockMbox).count < 100 && (view 2 s).outstanding = []) (startClock 2) oneSleeps
    (fun s => s.task 3 = .sleeping && s.sys.proc 3 = .asleep) (by decide +kernel)
  have run : Transition.Run (Client.step (clocking 10)) (Supplied 10 2) (startClock 2) s := by
    refine Transition.Run.along (fun state action run admitted => ?_) .refl executed
    simp only [Bool.and_eq_true, decide_eq_true_eq] at admitted
    obtain ⟨⟨⟨apart, free⟩, room⟩, empty⟩ := admitted
    refine ⟨.of_test apart, fun _ _ _ _ => ⟨free, room⟩, fun _ _ _ => free, fun q sleeps => ?_⟩
    have one := (sleepersMatch_of_run run).matched.one q sleeps
    rw [empty] at one
    cases one
  simp only [Bool.and_eq_true, decide_eq_true_eq] at passes
  exact ⟨s, run, .inl passes, (sleepers_have_requests run).1 3 (.inl passes)⟩

/-- When the pool is used up, process 3 sleeps for a second. -/
theorem sleeper_without_request : ∃ s, Transition.Run (Client.step (clocking 10)) (Client.Apart clockMbox)
    (startClock 2) s ∧ BlockedInSleep s 3 ∧ held 2 s = none ∧ requests s = [] := by
  obtain ⟨sys, drained, free, emptied⟩ := start_drained (clocking 10) (startClock 2).shared (startClock 2).task rfl
  have start : Transition.Run (Client.step (clocking 10)) (Client.Apart clockMbox) (startClock 2) ⟨sys, _, _⟩ :=
    emptied.mono fun _ _ member => draining_apart (by decide) member
  let req : SleepReq := ⟨3, 10⟩
  let shared : Clock := (startClock 2).shared
  let task : Pid → ClockTask := Function.update (startClock 2).task 3 (.sending req)
  have may : sys.mayRun 3 = true := by simp [Sys.mayRun, drained.lives, free]
  -- `sys_sleep` begins
  let sys₁ : Sys := { sys with cpu := some 3 }
  have invoked : (clocking 10).invoke 3 (startClock 2).shared 1 = some ((startClock 2).shared, .sending ⟨3, 10⟩) := by
    decide
  have begins : Client.step (clocking 10) ⟨sys, shared, (startClock 2).task⟩ (.invoke 3 1) =
      some ⟨sys₁, shared, task⟩ :=
    (Client.Move.invokes (s := ⟨sys, shared, (startClock 2).task⟩) rfl may (drained.out 3) invoked).step
  have drained₁ : Drained sys₁ := ⟨drained.lives, drained.out, drained.slots, drained.boxes⟩
  have may₁ : sys₁.mayRun 3 = true := by simp [Sys.mayRun, sys₁, drained.lives]
  -- its `MboxSend` finds no slot, and it goes to sleep
  have box := drained.boxes clockMbox (by decide) initSys_clockMbox.active
  have accepted : sys₁.globals.accepts clockMbox (some req.bytes) 8 = true := by
    simp [Globals.accepts, sys₁, box.mbox, initSys_clockMbox.slotSize]
  have refuses := drained₁.send initSys_clockMbox (by decide) (by decide) accepted 3
  have empty : (sys₁.run 3 (.start (.send clockMbox.val (some req.bytes) 8))).globals.queued clockMbox = [] := by
    rw [Sys.run_globals (by rw [refuses]; rintro f ⟨⟩), refuses]
    exact box.queued.trans initSys_clockMbox.queued
  have sends :=
    (Client.Move.calls (R := clocking 10) (s := ⟨sys₁, shared, task⟩) (p := 3) rfl may₁ (drained₁.out 3)).step
  rw [Client.advance_eq (r := ⟨-2, []⟩) (by rw [refuses]; rfl)] at sends
  have ran : Transition.Run (Client.step (clocking 10)) (Client.Apart clockMbox) (startClock 2) ⟨sys₁, shared, task⟩ :=
    start.next (.of_test rfl) begins
  refine ⟨_, ran.next (.of_test rfl) sends, .inl ⟨rfl, ?_⟩, rfl, ?_⟩
  · simp [Client.enter, clocking, ClockTask.op, Op.blocks, Sys.blockMe]
  · simpa [requests] using empty

end Phase4a

end UslossKernel
