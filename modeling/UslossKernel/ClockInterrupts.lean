import UslossKernel.Waiting

namespace UslossKernel

/-- `clockMailbox`, the mailbox that `phase2_init` creates. -/
def clockMailbox : MboxId := 6

/-- The bytes of an `int` in memory. -/
def intBytes (value : BitVec 32) : Message :=
  (List.range 4).map fun i => UInt8.ofNat (value.toNat / 256 ^ i)

/-- The device types `waitDevice` tells apart. -/
inductive DeviceType
  | clock
  | term
  | other
deriving DecidableEq, Repr

/-- `waitDevice`: a receive from the clock mailbox, or a status at once. -/
def waitDevice (type : DeviceType) (unit : Int) : Call ⊕ Int :=
  if type = .clock ∧ unit = 0 then .inl (.recv (clockMailbox : Nat) ⟨true, 4⟩)
  else if type = .term ∧ unit = 1 then .inr 0x6101
  else .inr (-1)

/-- A suspended send of a variable stores what the variable then holds. -/
def Proc.reread (msg : Message) : Proc → Proc
  | .blocked (.sendFull m _) => .blocked (.sendFull m msg)
  | .woken (.sendFull m _) => .woken (.sendFull m msg)
  | proc => proc

/-- The mailbox layer with its clock interrupt. `handling` holds of the
processes that are inside the `MboxSend` of the handler. -/
structure ClockSys where
  sys : Sys
  clockTicks : BitVec 32
  handling : Pid → Bool

/-- What can happen next; `interrupt p` is a clock interrupt while `p` runs. -/
inductive ClockAct
  | mailbox (a : Act)
  | waitDevice (p : Pid) (type : DeviceType) (unit : Int)
  | interrupt (p : Pid)
deriving DecidableEq, Repr

/-- The `MboxSend` of the handler would suspend its caller: the mailbox is full
of ticks nobody has received, or has no slot and no receiver. -/
def Globals.TickPending (g : Globals) : Prop :=
  (g.mailboxes clockMailbox).isActive = true ∧ 4 ≤ (g.mailboxes clockMailbox).slotSize ∧
    if (g.mailboxes clockMailbox).numSlots = 0 then (g.mailboxes clockMailbox).consumers = none
    else g.freeSlotCount ≠ 0 ∧ (g.mailboxes clockMailbox).numSlots ≤ (g.mailboxSlotQueues clockMailbox).count

instance (g : Globals) : Decidable g.TickPending := by
  unfold Globals.TickPending
  infer_instance

namespace ClockSys

def boot : ClockSys where
  sys := Sys.boot
  clockTicks := 0
  handling _ := false

/-- The mailbox layer has moved on; a process that has come out of its call
has left the handler. -/
def moveTo (s : ClockSys) (sys : Sys) : ClockSys :=
  { s with sys, handling := fun q => s.handling q && !(sys.proc q).idle }

/-- `clockTicks += 100000`, where the sends of other handlers read it from. -/
def tick (s : ClockSys) : ClockSys :=
  let clockTicks := s.clockTicks + 100000
  let reread := fun q => if s.handling q then (s.sys.proc q).reread (intBytes clockTicks) else s.sys.proc q
  { s with clockTicks, sys := { s.sys with proc := reread } }

/-- `MboxSend(clockMailbox, &clockTicks, sizeof(int))` -/
def handlerSend (s : ClockSys) : Call :=
  .send (clockMailbox : Nat) (some (intBytes s.clockTicks)) 4

/-- `clock_interrupt_handler` up to the end of its `MboxSend`; `dispatcher` is
the action `yield`. -/
def clock_interrupt_handler (s : ClockSys) (p : Pid) : Option ClockSys :=
  (s.tick.sys.step (.call p s.tick.handlerSend)).map fun sys =>
    { s.tick with handling := Function.update s.handling p true }.moveTo sys

def step (s : ClockSys) : ClockAct → Option ClockSys
  | .mailbox a => (s.sys.step a).map s.moveTo
  | .waitDevice p type unit =>
    match UslossKernel.waitDevice type unit with
    | .inl c => (s.sys.step (.call p c)).map s.moveTo
    | .inr _ => if s.sys.mayRun p ∧ s.sys.proc p = .outside then some { s with sys.cpu := some p } else none
  | .interrupt p => s.clock_interrupt_handler p

end ClockSys

theorem waitsIn_idle {proc : Proc} {kind : Wait → Bool} (waits : proc.waitsIn kind = true) : proc.idle = false := by
  cases proc <;> first | rfl | cases waits

/-- When a send suspends its caller. -/
theorem mboxSend_blocks {g : Globals} {p : Pid} {mbox_id msg_size : Int} {msg_ptr : Option Message} :
    (∃ w, (mboxSend g p mbox_id msg_ptr msg_size).2 = .blocks w) ↔
      ∃ m, g.activeMbox mbox_id = some m ∧ g.accepts m msg_ptr msg_size = true ∧
        if (g.mailboxes m).numSlots = 0 then (g.mailboxes m).consumers = none
        else g.freeSlotCount ≠ 0 ∧ (g.mailboxes m).numSlots ≤ (g.mailboxSlotQueues m).count := by
  have stores : ∀ m msg k, ¬ ∃ w, (storeAndWake g m msg k).2 = .blocks w := by
    rintro m msg k ⟨w, blocks⟩
    unfold storeAndWake wakeupConsumer returnCode at blocks
    split at blocks <;> [cases blocks; skip]
    split at blocks <;> [cases blocks; skip]
    split at blocks <;> [cases blocks; skip]
    split at blocks
    · split at blocks <;> cases blocks
    · cases blocks
  unfold mboxSend
  cases found : g.activeMbox mbox_id with
  | none => simp [returnCode]
  | some m =>
    have active := (Globals.activeMbox_eq_some.mp found).2
    cases accepted : g.accepts m msg_ptr msg_size with
    | false => simp [returnCode, accepted]
    | true =>
      by_cases zero : (g.mailboxes m).numSlots = 0
      · cases atPointer : (g.mailboxes m).consumers <;> simp [zero, accepted, atPointer]
      have slots : 0 < (g.mailboxes m).numSlots := Nat.pos_of_ne_zero zero
      by_cases free : g.freeSlotCount = 0
      · simp [zero, accepted, free, returnCode]
      by_cases full : (g.mailboxes m).numSlots ≤ (g.mailboxSlotQueues m).count
      · simp [zero, accepted, free, full, mboxSendLoop, slots, active]
      · simpa [zero, accepted, free, full, mboxSendLoop] using stores m _ _

namespace ClockSys

theorem handlerSend_blocks {s : ClockSys} {g : Globals} {p : Pid} :
    (∃ w, (s.handlerSend.start g p).2 = .blocks w) ↔ g.TickPending := by
  have accepts : ∀ m, g.accepts m (some (intBytes s.clockTicks)) 4 = true ↔ 4 ≤ (g.mailboxes m).slotSize := by
    intro m
    simp [Globals.accepts]
  simp only [handlerSend, Call.start, mboxSend_blocks, Globals.activeMbox_eq_some, accepts]
  constructor
  · rintro ⟨m, ⟨same, active⟩, rest⟩
    obtain rfl : clockMailbox = m := Fin.ext (by exact_mod_cast same)
    exact ⟨active, rest⟩
  · intro pending
    exact ⟨clockMailbox, ⟨rfl, pending.1⟩, pending.2⟩

/-- The interrupt runs the handler in the process that has the CPU. -/
theorem interrupt_eq {s s' : ClockSys} {p : Pid} (moves : s.step (.interrupt p) = some s') :
    s.sys.proc p = .outside ∧ s'.sys = s.tick.sys.run p (.start s.tick.handlerSend) ∧
      ∀ q, s'.handling q = (Function.update s.handling p true q && !(s'.sys.proc q).idle) := by
  simp only [step, clock_interrupt_handler, Option.map_eq_some_iff, Sys.step, Option.ite_none_right_eq_some,
    Option.some.injEq] at moves
  obtain ⟨sys, ⟨⟨may, out⟩, rfl⟩, rfl⟩ := moves
  refine ⟨?_, rfl, fun q => rfl⟩
  by_cases inside : s.handling p = true
  · simp only [tick, inside, if_true] at out
    cases at_ : s.sys.proc p with
    | outside => rfl
    | asleep | unblocking => simp [at_, Proc.reread] at out
    | blocked w | woken w => cases w <;> simp [at_, Proc.reread] at out
  · simpa [tick, inside] using out

theorem tick_outside {s : ClockSys} {p : Pid} (out : s.sys.proc p = .outside) : s.tick.sys.proc p = .outside := by
  simp [tick, out, Proc.reread]

/-- Whether the interrupt suspends the process is told by the clock mailbox. -/
theorem interrupt_suspends_iff {s s' : ClockSys} {p : Pid} (moves : s.step (.interrupt p) = some s') :
    (∃ w, s'.sys.proc p = .blocked w) ↔ s.sys.globals.TickPending := by
  obtain ⟨out, same, _⟩ := interrupt_eq moves
  have blocks : (∃ w, ((Point.start s.tick.handlerSend).exec s.tick.sys.globals p).2 = .blocks w) ↔
      s.sys.globals.TickPending := by
    simp only [Point.exec, handlerSend_blocks]
    rfl
  rw [← blocks, same]
  rcases Sys.run_self s.tick.sys p (.start s.tick.handlerSend) with
    ⟨r, ends, place⟩ | ⟨w, ends, place⟩ | ⟨pid, k, ends, place⟩ | ⟨f, ends, place⟩ <;> rw [ends, place]
  · simp
  · simp
  · simp
  · simp [tick_outside out]

/-- What follows an `unblockProc` in a mailbox call never suspends. -/
theorem Path.runs_on {g : Globals} {p : Pid} {k : Cont} {seg : Segment} (path : Path g p (.afterUnblock k) seg)
    (w : Wait) : seg.2 ≠ .blocks w := by
  cases path with
  | storeFaults at_ | stores at_ | storesAndWakes at_ => cases at_
  | takeFaults at_ | takeRejects at_ | takes at_ | takesAndWakes at_ => cases at_
  | sendMatchedReturns | sendStoredReturns | recvTakenReturns | releaseReturns => simp [returnCode]
  | releaseWakesProducer | releaseWakesConsumer | releaseWakesPointer => simp

/-- A process inside an `unblockProc` comes out of it or enters another. -/
theorem unblocking_step {sys sys' : Sys} {a : Act} {q : Pid} {k : Cont} (inside : sys.proc q = .unblocking k)
    (moves : sys.step a = some sys') : sys'.proc q = .outside ∨ ∃ k', sys'.proc q = .unblocking k' := by
  cases Sys.step_move moves with
  | @segment p pt may here =>
    by_cases own : q = p
    · subst own
      rw [inside] at here
      cases here
      have runsOn := Path.runs_on (Point.exec_path sys.globals q (.afterUnblock k))
      rcases Sys.run_self sys q (.afterUnblock k) with
        ⟨_, _, place⟩ | ⟨w, ends, _⟩ | ⟨_, k', _, place⟩ | ⟨_, _, place⟩
      · exact .inl place
      · exact absurd ends (runsOn w)
      · exact .inr ⟨k', place⟩
      · exact .inr ⟨k, place.trans inside⟩
    · refine .inr ⟨k, ?_⟩
      unfold Sys.run
      rw [Sys.after_other own (by rw [inside]; rfl), inside]
  | idle was =>
    have other : q ≠ a.pid := by
      rintro rfl
      rw [inside] at was
      cases was
    exact .inr ⟨k, (Function.update_of_ne other _ _).trans inside⟩

/-- Whoever is inside the handler has woken a receiver there. -/
def Undelayed (s : ClockSys) : Prop :=
  ∀ p, s.handling p = true → ∃ k, s.sys.proc p = .unblocking k

/-- A clock interrupt finds the tick before it received. -/
def Collected (s : ClockSys) (a : ClockAct) : Prop :=
  ∀ p, a = .interrupt p → ¬ s.sys.globals.TickPending

theorem Undelayed.moveTo {s : ClockSys} {sys : Sys} {a : Act} (undelayed : s.Undelayed)
    (moves : s.sys.step a = some sys) : (s.moveTo sys).Undelayed := by
  intro q handling
  simp only [ClockSys.moveTo, Bool.and_eq_true, Bool.not_eq_true'] at handling
  obtain ⟨k, inside⟩ := undelayed q handling.1
  rcases unblocking_step inside moves with out | still
  · rw [out] at handling
    exact absurd handling.2 (by simp [Proc.idle])
  · exact still

/-- A tick changes no message where nobody waits inside the handler. -/
theorem tick_settled {s : ClockSys}
    (settled : ∀ q, s.handling q = true → (s.sys.proc q).waitsIn (fun _ => true) = false) : s.tick.sys = s.sys := by
  have same : (fun q => if s.handling q then (s.sys.proc q).reread (intBytes (s.clockTicks + 100000))
      else s.sys.proc q) = s.sys.proc := by
    funext q
    split
    · rename_i handling
      have quiet := settled q handling
      cases place : s.sys.proc q <;> rw [place] at quiet <;> first | rfl | cases quiet
    · rfl
  simp only [tick, same]

theorem Undelayed.settled {s : ClockSys} (undelayed : s.Undelayed) (q : Pid) (handling : s.handling q = true) :
    (s.sys.proc q).waitsIn (fun _ => true) = false := by
  obtain ⟨k, inside⟩ := undelayed q handling
  rw [inside]
  rfl

theorem Undelayed.tick_eq {s : ClockSys} (undelayed : s.Undelayed) : s.tick.sys = s.sys :=
  tick_settled undelayed.settled

theorem Undelayed.interrupt {s s' : ClockSys} {p : Pid} (undelayed : s.Undelayed)
    (collected : ¬ s.sys.globals.TickPending) (moves : s.step (.interrupt p) = some s') : s'.Undelayed := by
  intro q handling
  have suspends := interrupt_suspends_iff moves
  obtain ⟨out, run, handling_eq⟩ := interrupt_eq moves
  rw [handling_eq, Bool.and_eq_true, Bool.not_eq_true'] at handling
  obtain ⟨entered, busy⟩ := handling
  by_cases own : q = p
  · subst own
    rw [run] at suspends busy ⊢
    rcases Sys.run_self s.tick.sys q (.start s.tick.handlerSend) with
      ⟨_, _, place⟩ | ⟨w, _, place⟩ | ⟨_, k, _, place⟩ | ⟨_, _, place⟩
    · rw [place] at busy
      cases busy
    · exact absurd (suspends.mp ⟨w, place⟩) collected
    · exact ⟨k, place⟩
    · rw [place, tick_outside out] at busy
      cases busy
  · rw [Function.update_of_ne own] at entered
    obtain ⟨k, inside⟩ := undelayed q entered
    refine ⟨k, ?_⟩
    rw [run, undelayed.tick_eq, Sys.run, Sys.after_other own (by rw [inside]; rfl), inside]

theorem Undelayed.step {s s' : ClockSys} {a : ClockAct} (undelayed : s.Undelayed) (collected : s.Collected a)
    (moves : s.step a = some s') : s'.Undelayed := by
  cases a with
  | mailbox a =>
    obtain ⟨sys, moved, rfl⟩ := Option.map_eq_some_iff.mp moves
    exact undelayed.moveTo moved
  | waitDevice p type unit =>
    cases waits : UslossKernel.waitDevice type unit with
    | inl c =>
      simp only [ClockSys.step, waits] at moves
      obtain ⟨sys, moved, rfl⟩ := Option.map_eq_some_iff.mp moves
      exact undelayed.moveTo moved
    | inr status =>
      simp only [ClockSys.step, waits, Option.ite_none_right_eq_some, Option.some.injEq] at moves
      obtain ⟨_, rfl⟩ := moves
      exact undelayed
  | interrupt p => exact undelayed.interrupt (collected p rfl) moves

/-- As long as every interrupt finds the tick before it received, nobody is
suspended inside the handler; and an interrupt that does not find it received
suspends the process it interrupts. -/
theorem interrupts_complete {s : ClockSys} (run : Transition.Run ClockSys.step Collected boot s) :
    (∀ p, s.handling p = true → (s.sys.proc p).waitsIn (fun _ => true) = false) ∧
    ∀ p s', s.step (.interrupt p) = some s' →
      ((∃ w, s'.sys.proc p = .blocked w) ↔ s.sys.globals.TickPending) := by
  have undelayed : s.Undelayed := by
    refine run.invariant Undelayed ?_ fun _ _ _ undelayed collected moves => undelayed.step collected moves
    intro p handling
    cases handling
  exact ⟨undelayed.settled, fun p s' moves => interrupt_suspends_iff moves⟩

/-- A process waits for the clock, a tick comes while another one runs, and
the tick wakes the first. -/
def oneTickAwaited : List ClockAct :=
  [.waitDevice 2 .clock 0, .interrupt 1]

theorem interrupts_complete_run : ∃ s, Transition.Run ClockSys.step Collected boot s ∧ s.handling 1 = true ∧
    (s.sys.proc 1).waitsIn (fun _ => true) = false := by
  obtain ⟨s, run, handling⟩ : ∃ s, Transition.Run ClockSys.step Collected boot s ∧ s.handling 1 = true :=
    Transition.exists_run ClockSys.step boot oneTickAwaited (fun s _ => !decide s.sys.globals.TickPending)
      (fun s a passes p _ => by simpa using passes) (fun s => s.handling 1) (by decide +kernel)
  exact ⟨s, run, handling, (interrupts_complete run).1 1 handling⟩

/-- Two ticks that nobody waits for, while the process 1 runs. -/
def twoTicksUnawaited : List ClockAct :=
  [.interrupt 1, .interrupt 1]

theorem interrupt_suspends : ∃ s, Transition.execute ClockSys.step (fun _ _ => true) boot twoTicksUnawaited = some s ∧
    s.handling 1 = true ∧ s.sys.proc 1 = .blocked (.sendFull clockMailbox (intBytes 200000)) := by
  obtain ⟨s, executed, stuck⟩ := Transition.exists_executed ClockSys.step (fun _ _ => true) boot twoTicksUnawaited
    (fun s => s.handling 1 && s.sys.proc 1 = .blocked (.sendFull clockMailbox (intBytes 200000))) (by decide +kernel)
  simp only [Bool.and_eq_true, decide_eq_true_eq] at stuck
  exact ⟨s, executed, stuck⟩

end ClockSys

end UslossKernel
