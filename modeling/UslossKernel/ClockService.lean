import UslossKernel.ClockInterrupts
import UslossKernel.Library.ScannedQueue
import UslossKernel.Phase4Init
import UslossKernel.QueueCalls

namespace UslossKernel

namespace Phase4a

/-- The `int` that stands in these bytes. -/
def intOfBytes (bytes : Message) : BitVec 32 :=
  BitVec.ofNat 32 ((bytes.take 4).foldr (fun byte rest => byte.toNat + 256 * rest) 0)

structure SleepReq where
  pid : BitVec 32
  wakeupTick : BitVec 32
deriving DecidableEq, Repr

/-- A request as `MboxSend` copies it. -/
def SleepReq.bytes (req : SleepReq) : Message :=
  intBytes req.pid ++ intBytes req.wakeupTick

def SleepReq.ofBytes (bytes : Message) : SleepReq :=
  ⟨intOfBytes bytes, intOfBytes (bytes.drop 4)⟩

/-- `req.wakeupTick <= tickCount` -/
def SleepReq.due (tickCount : BitVec 32) (req : SleepReq) : Bool :=
  req.wakeupTick.sle tickCount

/-- The tick counter. The other fields are history: the requests that
`sys_sleep` has sent, those whose process has been passed to `unblockProc`, and
what `sys_sleep` has left in `arg4`. -/
structure Clock where
  tickCount : BitVec 32
  sent : List SleepReq
  passed : List SleepReq
  returned : List Int
deriving DecidableEq, Repr

/-- Where a process stands in `sys_sleep` or in `ClockDriver`. -/
inductive ClockTask
  | outside
  | sending (req : SleepReq)
  | sleeping
  | waitingDevice
  | receiving
  | unblocking (req : SleepReq)
  | puttingBack (req : SleepReq)
deriving DecidableEq, Repr

/-- `sys_sleep` up to its `MboxSend`, called by `p`. -/
def sys_sleep (ticksPerSec : BitVec 32) (clock : Clock) (p : Pid) (seconds : BitVec 32) : Clock × ClockTask :=
  if seconds.slt 0 then ({ clock with returned := clock.returned ++ [-1] }, .outside)
  else (clock, .sending ⟨BitVec.ofInt 32 p, clock.tickCount + seconds * ticksPerSec⟩)

/-- The body of the inner loop of `ClockDriver`, with what `MboxCondRecv` gave. -/
def scan (clock : Clock) (r : Result) : Clock × ClockTask :=
  if 0 < r.ret then
    let req := SleepReq.ofBytes r.buf
    (clock, if req.due clock.tickCount then .unblocking req else .puttingBack req)
  else (clock, .waitingDevice)

/-- What follows in `sys_sleep` and `ClockDriver`. The results of `MboxSend`
are not looked at: that `sys_sleep` has sent is history. -/
def ClockTask.op : ClockTask → Op Clock ClockTask
  | .outside => .idle
  | .sending req => .call (.send clockMbox.val (some req.bytes) 8) fun r clock =>
      (if r.ret = 0 then { clock with sent := clock.sent ++ [req] } else clock, .sleeping)
  | .sleeping => .blockMe fun clock => ({ clock with returned := clock.returned ++ [0] }, .outside)
  | .waitingDevice => .call (.recv clockMailbox.val ⟨true, 4⟩) fun _ clock =>
      ({ clock with tickCount := clock.tickCount + 1 }, .receiving)
  | .receiving => .call (.condRecv clockMbox.val ⟨true, 8⟩) fun r clock => scan clock r
  | .unblocking req => .unblockProc req.pid.toInt fun clock =>
      ({ clock with passed := clock.passed ++ [req] }, .receiving)
  | .puttingBack req => .call (.send clockMbox.val (some req.bytes) 8) fun _ clock => (clock, .waitingDevice)

/-- Whether the place is one in `ClockDriver`. -/
def ClockTask.serves : ClockTask → Bool
  | .outside | .sending _ | .sleeping => false
  | .waitingDevice | .receiving | .unblocking _ | .puttingBack _ => true

/-- `ClockDriver` can be preempted anywhere; a system call only gives up the
CPU by itself. The ids of processes are `int`s. -/
def clocking (ticksPerSec : BitVec 32) : Routines Clock ClockTask (BitVec 32) Empty where
  op := ClockTask.op
  invoke p clock seconds := if -2 ^ 31 ≤ p ∧ p < 2 ^ 31 then some (sys_sleep ticksPerSec clock p seconds) else none
  yields := ClockTask.serves
  event clock _ := clock

example : waitDevice .clock 0 = .inl (.recv clockMailbox.val ⟨true, 4⟩) := rfl

/-- The clock service when `driver` starts to run `ClockDriver`. -/
def startClock (driver : Pid) : Client Clock ClockTask :=
  start ⟨0, [], [], []⟩ (Function.update (fun _ => .outside) driver .waitingDevice)

theorem intOfBytes_intBytes (value : BitVec 32) (rest : Message) : intOfBytes (intBytes value ++ rest) = value := by
  have bound := value.isLt
  apply BitVec.eq_of_toNat_eq
  have four : (intBytes value ++ rest).take 4 = intBytes value := List.take_left' (by simp [intBytes])
  rw [intOfBytes, four]
  simp [intBytes, List.range_succ]
  omega

@[simp] theorem SleepReq.ofBytes_bytes (req : SleepReq) : SleepReq.ofBytes req.bytes = req := by
  have second : req.bytes.drop 4 = intBytes req.wakeupTick ++ [] := by
    rw [List.append_nil]
    exact List.drop_left' (by simp [intBytes])
  rw [SleepReq.ofBytes, second, SleepReq.bytes, intOfBytes_intBytes, intOfBytes_intBytes]

theorem SleepReq.bytesAt_bytes (req : SleepReq) : bytesAt (some req.bytes) 8 = req.bytes := by
  have length : req.bytes.length = 8 := by simp [SleepReq.bytes, intBytes]
  rw [bytesAt_take _ length.ge, ← length, List.take_length]

theorem pid_toInt {p : Int} (lower : -2 ^ 31 ≤ p) (upper : p < 2 ^ 31) : (BitVec.ofInt 32 p).toInt = p := by
  rw [BitVec.toInt_ofInt]
  exact Int.bmod_eq_of_le (by omega) (by omega)

/-- The requests in `clockMbox`, oldest first. -/
def requests (s : Client Clock ClockTask) : List SleepReq :=
  (s.sys.globals.queued clockMbox).map fun r => .ofBytes r.buf

/-- The request a process has taken out and not yet dealt with. -/
def ClockTask.held : ClockTask → Proc → Option SleepReq
  | .unblocking req, _ | .puttingBack req, _ => some req
  | .receiving, .unblocking (.condRecvTaken _ r) => some (.ofBytes r.buf)
  | _, _ => none

def held (driver : Pid) (s : Client Clock ClockTask) : Option SleepReq :=
  (s.task driver).held (s.sys.proc driver)

/-- In the `blockMe` of `sys_sleep`. -/
def Sleeps (s : Client Clock ClockTask) (p : Pid) : Prop :=
  s.task p = .sleeping ∧ s.sys.proc p = .asleep

/-- What holds of the process `p` where it stands. -/
def ClockTask.Stands (driver : Pid) (tickCount : BitVec 32) (p : Pid) (proc : Proc) (task : ClockTask) : Prop :=
  (task.serves = true ↔ p = driver) ∧ match task with
  | .sending req => req.pid.toInt = p ∧ ∀ k, proc ≠ .unblocking k
  | .receiving => ∀ k, proc = .unblocking k → ∃ r, k = .condRecvTaken clockMbox r ∧ r.ret = 8
  | .unblocking req => req.due tickCount = true
  | .puttingBack req => req.due tickCount = false ∧ ∀ k, proc ≠ .unblocking k
  | .outside | .sleeping | .waitingDevice => True

/-- What holds along every run. -/
structure ClockWell (ticksPerSec : BitVec 32) (driver : Pid) (s : Client Clock ClockTask) : Prop where
  keeps : s.Keeps (clocking ticksPerSec) clockMbox
  numSlots : (s.sys.globals.mailboxes clockMbox).numSlots = 100
  slotSize : (s.sys.globals.mailboxes clockMbox).slotSize = 8
  consumers : (s.sys.globals.mailboxes clockMbox).consumers = none
  sized : ∀ r ∈ s.sys.globals.queued clockMbox, r.ret = 8
  stands : ∀ p, (s.task p).Stands driver s.shared.tickCount p (s.sys.proc p)

/-- The service as a queue that the driver scans at every tick. -/
def view (driver : Pid) (s : Client Clock ClockTask) : ScannedQueue.State SleepReq where
  requests := requests s
  held := held driver s
  scanning := decide (s.task driver ≠ .waitingDevice)
  due := SleepReq.due s.shared.tickCount
  sent := s.shared.sent
  passed := s.shared.passed

/-- What a step does to that queue, and to the processes that sleep. -/
structure Effect (ticksPerSec : BitVec 32) (driver : Pid) (s : Client Clock ClockTask)
    (a : ClientAct (BitVec 32) Empty) (s' : Client Clock ClockTask) (label : ScannedQueue.Label SleepReq) : Prop where
  step : ScannedQueue.Step (view driver s) label (view driver s')
  fallsAsleep : ∀ q, Sleeps s' q → Sleeps s q ∨ ∃ req, s.task q = .sending req ∧
    (label = .sends req ∨ a = .run q ∧ s.sys.globals.freeSlotCount = 0)
  wakes : ∀ q, Sleeps s q → Sleeps s' q ∨ s.Strays (clocking ticksPerSec) a q ∨
    ∃ req, label = .passes req ∧ req.pid.toInt = q
  sender : ∀ req, label = .sends req → ∃ p, s.task p = .sending req ∧ Sleeps s' p
  passed : ∀ req, label = .passes req → ¬ Sleeps s' req.pid.toInt
  lost : label = .loses → a = .run driver ∧ s.sys.globals.freeSlotCount = 0 ∧ ∃ req, s.task driver = .puttingBack req

/-- The processes other than `p` stay where they are, or are woken there. -/
structure Frame (p : Pid) (s s' : Client Clock ClockTask) : Prop where
  tasks : ∀ q, q ≠ p → s'.task q = s.task q
  procs : ∀ q, q ≠ p → s'.sys.proc q = s.sys.proc q ∨ s'.sys.proc q = (s.sys.proc q).wake

section

variable {ticksPerSec : BitVec 32} {driver p q : Pid} {s s' : Client Clock ClockTask}
  {a : ClientAct (BitVec 32) Empty}

theorem unreleasing_clocking (m : MboxId) : Client.Unreleasing (clocking ticksPerSec) m := by
  intro place c next at_
  cases place <;> cases at_ <;> simp

theorem ClockTask.Stands.wake {tickCount : BitVec 32} {proc : Proc} {task : ClockTask}
    (stands : task.Stands driver tickCount p proc) : task.Stands driver tickCount p proc.wake := by
  have only : ∀ k, proc.wake = .unblocking k → proc = .unblocking k := by
    intro k woken
    cases proc <;> first | exact woken | cases woken
  obtain ⟨serves, rest⟩ := stands
  refine ⟨serves, ?_⟩
  cases task with
  | sending req => exact ⟨rest.1, fun k woken => rest.2 k (only k woken)⟩
  | puttingBack req => exact ⟨rest.1, fun k woken => rest.2 k (only k woken)⟩
  | receiving => exact fun k woken => rest k (only k woken)
  | outside | sleeping | waitingDevice | unblocking => exact rest

/-- Only the driver looks at the tick counter. -/
theorem ClockTask.Stands.tick {tickCount tickCount' : BitVec 32} {proc : Proc} {task : ClockTask}
    (stands : task.Stands driver tickCount p proc) (other : p ≠ driver) : task.Stands driver tickCount' p proc := by
  obtain ⟨serves, rest⟩ := stands
  refine ⟨serves, ?_⟩
  cases task with
  | unblocking | puttingBack => exact absurd (serves.mp rfl) other
  | outside | sending | sleeping | waitingDevice | receiving => exact rest

theorem Sleeps.of_frame (frame : Frame p s s') (other : q ≠ p) (sleeps : Sleeps s' q) : Sleeps s q := by
  obtain ⟨task, asleep⟩ := sleeps
  refine ⟨(frame.tasks q other).symm.trans task, ?_⟩
  rcases frame.procs q other with same | woken
  · exact same.symm.trans asleep
  · rw [asleep] at woken
    cases before : s.sys.proc q <;> rw [before] at woken <;> cases woken

theorem held_wake (task : ClockTask) (proc : Proc) : task.held proc.wake = task.held proc := by
  cases task <;> cases proc <;> rfl

theorem Frame.held (frame : Frame p s s') (other : driver ≠ p) : held driver s' = held driver s := by
  unfold Phase4a.held
  rw [frame.tasks driver other]
  rcases frame.procs driver other with same | woken
  · rw [same]
  · rw [woken, held_wake]

theorem requests_sameBox (same : s.sys.globals.SameBox clockMbox s'.sys.globals) : requests s' = requests s := by
  unfold requests
  rw [same.queued]

theorem requests_globals (same : s'.sys.globals = s.sys.globals) : requests s' = requests s := by
  unfold requests
  rw [same]

theorem view_eq (same : requests s' = requests s) (holds : held driver s' = held driver s)
    (waits : s'.task driver = .waitingDevice ↔ s.task driver = .waitingDevice)
    (tick : s'.shared.tickCount = s.shared.tickCount) (sent : s'.shared.sent = s.shared.sent)
    (passed : s'.shared.passed = s.shared.passed) : view driver s' = view driver s := by
  simp only [view, same, holds, waits, tick, sent, passed, ne_eq]

/-- What stays of the invariant when the process `p` has run. -/
theorem ClockWell.after (well : ClockWell ticksPerSec driver s) (keeps : s'.Keeps (clocking ticksPerSec) clockMbox)
    (table : s'.sys.globals.mailboxes clockMbox = s.sys.globals.mailboxes clockMbox)
    (sized : ∀ r ∈ s'.sys.globals.queued clockMbox, r.ret = 8) (frame : Frame p s s')
    (tick : s'.shared.tickCount = s.shared.tickCount ∨ p = driver)
    (own : (s'.task p).Stands driver s'.shared.tickCount p (s'.sys.proc p)) : ClockWell ticksPerSec driver s' where
  keeps := keeps
  numSlots := by rw [table, well.numSlots]
  slotSize := by rw [table, well.slotSize]
  consumers := by rw [table, well.consumers]
  sized := sized
  stands q := by
    by_cases self : q = p
    · rw [self]
      exact own
    · have before : (s'.task q).Stands driver s.shared.tickCount q (s'.sys.proc q) := by
        rw [frame.tasks q self]
        rcases frame.procs q self with same | woken
        · exact same ▸ well.stands q
        · exact woken ▸ (well.stands q).wake
      rcases tick with same | rfl
      · exact same ▸ before
      · exact before.tick self

theorem ClockWell.frame (well : ClockWell ticksPerSec driver s) (keeps : s'.Keeps (clocking ticksPerSec) clockMbox)
    (same : s.sys.globals.SameBox clockMbox s'.sys.globals) (frame : Frame p s s')
    (tick : s'.shared.tickCount = s.shared.tickCount ∨ p = driver)
    (own : (s'.task p).Stands driver s'.shared.tickCount p (s'.sys.proc p)) : ClockWell ticksPerSec driver s' :=
  well.after keeps same.mbox (by rw [same.queued]; exact well.sized) frame tick own

/-- A request that was received is due or is put back. -/
theorem scan_received {clock : Clock} {r : Result} (sized : r.ret = 8) : scan clock r = (clock,
    if (SleepReq.ofBytes r.buf).due clock.tickCount then .unblocking (.ofBytes r.buf)
    else .puttingBack (.ofBytes r.buf)) := by
  simp [scan, sized]

/-- The driver then has it in hand. -/
theorem scan_held {r : Result} (sized : r.ret = 8) (shared : s'.shared = (scan s.shared r).1)
    (task : s'.task driver = (scan s.shared r).2)
    (out : s'.sys.proc driver = if (scan s.shared r).2.op.blocks then .asleep else .outside) :
    s'.shared = s.shared ∧ held driver s' = some (.ofBytes r.buf) ∧ s'.task driver ≠ .waitingDevice ∧
      s'.task driver ≠ .sleeping ∧
      (s'.task driver).Stands driver s'.shared.tickCount driver (s'.sys.proc driver) := by
  rw [scan_received sized] at shared task out
  rw [held, task, out, shared]
  by_cases due : (SleepReq.ofBytes r.buf).due s.shared.tickCount = true
  · simp only [due, if_true, ClockTask.op, Op.blocks]
    exact ⟨trivial, rfl, by simp, by simp, by simp [ClockTask.serves], due⟩
  · simp only [due, ClockTask.op, Op.blocks]
    exact ⟨trivial, rfl, by simp, by simp, by simp [ClockTask.serves], by simpa using due, by simp⟩

theorem running_awake {pt : Point} (running : Client.Running (clocking ticksPerSec) s a p pt) (other : q ≠ p)
    (sleeps : Sleeps s q) {sys : Sys} (ran : sys.proc q = (s.sys.run p pt).proc q) :
    sys.proc q = .asleep ∨ s.Strays (clocking ticksPerSec) a q := by
  rcases @Sys.run_other s.sys p q pt other with same | ⟨_, k, unblocks⟩
  · exact .inl (ran.trans (same.trans sleeps.2))
  · exact .inr (.inr ⟨p, pt, k, running, unblocks⟩)

/-- What happens outside the service. -/
theorem ClockWell.user (well : ClockWell ticksPerSec driver s) {act : Act} {sys : Sys}
    (may : s.userMay (clocking ticksPerSec) act = true) (moved : s.sys.step act = some sys)
    (apart : Client.Apart clockMbox s (.user act : ClientAct (BitVec 32) Empty)) :
    ClockWell ticksPerSec driver { s with sys } ∧
      Effect ticksPerSec driver s (.user act) { s with sys } .quiet := by
  obtain ⟨same, keeps⟩ := well.keeps.user may (fun p c same => apart p c (by rw [same])) moved
  have frame : Frame act.pid s { s with sys } := ⟨fun _ _ => rfl, Client.user_other moved⟩
  have place := well.keeps.user_place may moved
  have task : s.task act.pid = .outside ∨ s.task act.pid = .sleeping ∧ act = .rouse act.pid ∧
      sys.proc act.pid = .outside := by
    rcases place with idle | ⟨⟨next, blocks⟩, rouse, _, rfl⟩
    · refine .inl ?_
      cases at_ : s.task act.pid <;> rw [at_] at idle <;> first | rfl | cases idle
    · refine .inr ⟨?_, rouse, Function.update_self ..⟩
      cases at_ : s.task act.pid <;> rw [at_] at blocks <;> first | rfl | cases blocks
  have stands : (s.task act.pid).Stands driver s.shared.tickCount act.pid (sys.proc act.pid) := by
    have before := well.stands act.pid
    rcases task with at_ | ⟨at_, _⟩ <;> rw [at_] at before ⊢ <;> exact before
  have other : driver ≠ act.pid := by
    rintro rfl
    have serves := (well.stands act.pid).1.mpr rfl
    rcases task with at_ | ⟨at_, _⟩ <;> rw [at_] at serves <;> cases serves
  refine ⟨well.frame keeps same frame (.inl rfl) stands, ?_, fun q sleeps => .inl ?_, fun q sleeps => ?_, by simp,
    by simp, by simp⟩
  · rw [view_eq (requests_sameBox same) (frame.held other) .rfl rfl rfl rfl]
    exact .quiet
  · by_cases own : q = act.pid
    · subst own
      rcases task with at_ | ⟨_, _, out⟩
      · exact absurd (at_.symm.trans sleeps.1) (by simp)
      · exact absurd (out.symm.trans sleeps.2) (by simp)
    · exact sleeps.of_frame frame own
  · by_cases own : q = act.pid
    · subst own
      rcases task with at_ | ⟨_, rouse, _⟩
      · exact absurd (at_.symm.trans sleeps.1) (by simp)
      · exact .inr (.inl (.inl (congrArg ClientAct.user rouse)))
    · cases Sys.step_move moved with
      | @segment p pt _ here =>
        rw [Point.act_pid] at own
        have ran : (s.sys.run p pt).proc q = (s.sys.run p pt).proc q := rfl
        rcases running_awake (.user here) own sleeps ran with asleep | strays
        · exact .inl ⟨sleeps.1, asleep⟩
        · exact .inr (.inl strays)
      | idle => exact .inl ⟨sleeps.1, (Function.update_of_ne own _ _).trans sleeps.2⟩

theorem advance_frame {pt : Point} {next : Result → Clock → Clock × ClockTask} :
    Frame p s (s.advance (clocking ticksPerSec) p pt next) where
  tasks _ other := Client.advance_task_of_ne s other pt next
  procs _ other := Client.advance_other _ other

/-- The others sleep on while `p` runs mailbox code, unless it wakes them. -/
theorem advance_wakes {pt : Point} {next : Result → Clock → Clock × ClockTask}
    (running : Client.Running (clocking ticksPerSec) s a p pt) (calls : s.task p ≠ .sleeping) (sleeps : Sleeps s q) :
    Sleeps (s.advance (clocking ticksPerSec) p pt next) q ∨ s.Strays (clocking ticksPerSec) a q := by
  have other : q ≠ p := by
    rintro rfl
    exact calls sleeps.1
  rcases running_awake running other sleeps (Client.advance_proc_of_ne s other pt next) with asleep | strays
  · exact .inl ⟨(Client.advance_task_of_ne s other pt next).trans sleeps.1, asleep⟩
  · exact .inr strays

/-- A step of the driver puts nobody to sleep. -/
theorem Effect.of_driver {label : ScannedQueue.Label SleepReq} (frame : Frame p s s') (awake : s'.task p ≠ .sleeping)
    (step : ScannedQueue.Step (view driver s) label (view driver s'))
    (wakes : ∀ q, Sleeps s q → Sleeps s' q ∨ s.Strays (clocking ticksPerSec) a q ∨
      ∃ req, label = .passes req ∧ req.pid.toInt = q)
    (sender : ∀ req, label ≠ .sends req) (passed : ∀ req, label = .passes req → ¬ Sleeps s' req.pid.toInt)
    (lost : label = .loses → a = .run driver ∧ s.sys.globals.freeSlotCount = 0 ∧
      ∃ req, s.task driver = .puttingBack req) : Effect ticksPerSec driver s a s' label where
  step := step
  fallsAsleep _ sleeps := .inl (sleeps.of_frame frame fun own => awake (own ▸ sleeps.1))
  wakes := wakes
  sender req same := absurd same (sender req)
  passed := passed
  lost := lost

/-- The process `p` has run, and those it has not woken sleep on. -/
structure Ran (ticksPerSec : BitVec 32) (a : ClientAct (BitVec 32) Empty) (p : Pid) (s s' : Client Clock ClockTask) :
    Prop where
  keeps : s'.Keeps (clocking ticksPerSec) clockMbox
  frame : Frame p s s'
  wakes : ∀ q, Sleeps s q → Sleeps s' q ∨ s.Strays (clocking ticksPerSec) a q

/-- A step of the driver inside the mailboxes. -/
theorem ClockWell.drives (well : ClockWell ticksPerSec p s) (label : ScannedQueue.Label SleepReq)
    (ran : Ran ticksPerSec a p s s')
    (table : s'.sys.globals.mailboxes clockMbox = s.sys.globals.mailboxes clockMbox)
    (sized : ∀ r ∈ s'.sys.globals.queued clockMbox, r.ret = 8) (awake : s'.task p ≠ .sleeping)
    (own : (s'.task p).Stands p s'.shared.tickCount p (s'.sys.proc p))
    (step : ScannedQueue.Step (view p s) label (view p s')) (sender : ∀ req, label ≠ .sends req)
    (passed : ∀ req, label ≠ .passes req) (lost : label = .loses → a = .run p ∧ s.sys.globals.freeSlotCount = 0 ∧
      ∃ req, s.task p = .puttingBack req) :
    ClockWell ticksPerSec p s' ∧ ∃ label, Effect ticksPerSec p s a s' label :=
  ⟨well.after ran.keeps table sized ran.frame (.inr rfl) own, label, .of_driver ran.frame awake step
    (fun q sleeps => (ran.wakes q sleeps).imp_right .inl) sender (fun req same => absurd same (passed req)) lost⟩

/-- A step in which the driver goes on scanning with the request it has. -/
theorem ClockWell.rests (well : ClockWell ticksPerSec p s) (ran : Ran ticksPerSec a p s s')
    (table : s'.sys.globals.mailboxes clockMbox = s.sys.globals.mailboxes clockMbox)
    (queued : s'.sys.globals.queued clockMbox = s.sys.globals.queued clockMbox) (shared : s'.shared = s.shared)
    (waits : s'.task p = .waitingDevice ↔ s.task p = .waitingDevice) (holds : held p s' = held p s)
    (awake : s'.task p ≠ .sleeping) (own : (s'.task p).Stands p s'.shared.tickCount p (s'.sys.proc p)) :
    ClockWell ticksPerSec p s' ∧ ∃ label, Effect ticksPerSec p s a s' label := by
  refine well.drives .quiet ran table (by rw [queued]; exact well.sized) awake own ?_ (by simp) (by simp)
    (by simp)
  rw [view_eq (by rw [requests, requests, queued]) holds waits (by rw [shared]) (by rw [shared]) (by rw [shared])]
  exact .quiet

/-- The driver has found no request left. -/
theorem ClockWell.endsScan (well : ClockWell ticksPerSec p s) (ran : Ran ticksPerSec a p s s')
    (task : s.task p = .receiving) (before : held p s = none) (empty : s.sys.globals.queued clockMbox = [])
    (globals : s'.sys.globals = s.sys.globals) (shared : s'.shared = s.shared) (task' : s'.task p = .waitingDevice)
    (proc : s'.sys.proc p = .outside) :
    ClockWell ticksPerSec p s' ∧ ∃ label, Effect ticksPerSec p s a s' label := by
  have after : held p s' = none := by
    rw [held, task', proc]
    rfl
  refine well.drives .ends ran (by rw [globals]) (by rw [globals]; exact well.sized) (by simp [task']) ?_ ?_
    (by simp) (by simp) (by simp)
  · rw [task', proc]
    exact ⟨by simp [ClockTask.serves], trivial⟩
  · have ends := ScannedQueue.Step.ends (v := view p s) (by simp [view, task]) before (by simp [view, requests, empty])
    convert ends using 1
    simp [view, requests, globals, after, before, task', shared]

/-- The driver has taken out the oldest request, and has it in hand. -/
theorem ClockWell.takesOut {g : Globals} {r : Result} (well : ClockWell ticksPerSec p s)
    (ran : Ran ticksPerSec a p s s') (task : s.task p = .receiving) (before : held p s = none)
    (first : s.sys.globals.queued clockMbox = r :: g.queued clockMbox)
    (table : g.mailboxes clockMbox = s.sys.globals.mailboxes clockMbox) (globals : s'.sys.globals = g)
    (shared : s'.shared = s.shared) (holds : held p s' = some (.ofBytes r.buf)) (goesOn : s'.task p ≠ .waitingDevice)
    (awake : s'.task p ≠ .sleeping) (own : (s'.task p).Stands p s'.shared.tickCount p (s'.sys.proc p)) :
    ClockWell ticksPerSec p s' ∧ ∃ label, Effect ticksPerSec p s a s' label := by
  have queue : requests s = .ofBytes r.buf :: (g.queued clockMbox).map fun r => .ofBytes r.buf := by
    rw [requests, first, List.map_cons]
  refine well.drives .takes ran (by rw [globals, table]) (fun r' member => ?_) awake own ?_ (by simp)
    (by simp) (by simp)
  · rw [globals] at member
    exact well.sized r' (first ▸ List.mem_cons_of_mem _ member)
  · have took := ScannedQueue.Step.takes (v := view p s) (by simp [view, task]) before queue
    convert took using 1
    simp [view, requests, globals, holds, goesOn, task, shared]

/-- An `MboxCondRecv` of the driver fails only on an empty queue. -/
theorem ClockWell.queued_nil {buffer : Buffer} (well : ClockWell ticksPerSec p s) (sized : 0 < buffer.msg_max_size)
    (refused : ¬ (Call.condRecv clockMbox.val buffer).Admitted s.sys.globals) :
    s.sys.globals.queued clockMbox = [] := by
  by_contra occupied
  refine refused ⟨clockMbox, Globals.activeMbox_eq_some.mpr ⟨rfl, well.keeps.active⟩, by omega, fun none => ?_⟩
  rw [← Globals.queued_length well.keeps.sound well.keeps.active] at none
  exact occupied (List.length_eq_zero_iff.mp none)

/-- Outside of an `unblockProc` the driver has nothing in hand before it has received. -/
theorem held_receiving (task : s.task p = .receiving) (awake : ∀ k, s.sys.proc p ≠ .unblocking k) :
    held p s = none := by
  rw [held, task]
  cases at_ : s.sys.proc p with
  | unblocking k => exact absurd at_ (awake k)
  | outside | blocked | woken | asleep => rfl

section

variable {pt : Point} (well : ClockWell ticksPerSec driver s) (here : (s.sys.proc p).At pt)
  (running : Client.Running (clocking ticksPerSec) s a p pt) {c : Call} (runs : c.Runs pt)
  {next : Result → Clock → Clock × ClockTask} (place : (clocking ticksPerSec).op (s.task p) = .call c next)
include well here running runs place

theorem ClockWell.ran (calls : s.task p ≠ .sleeping) :
    Ran ticksPerSec a p s (s.advance (clocking ticksPerSec) p pt next) :=
  ⟨well.keeps.advance (unreleasing_clocking _) place here runs, advance_frame, fun _ => advance_wakes running calls⟩

/-- `ClockDriver` in its `waitDevice`. -/
theorem ClockWell.waits (task : s.task p = .waitingDevice) :
    ClockWell ticksPerSec driver (s.advance (clocking ticksPerSec) p pt next) ∧
      ∃ label, Effect ticksPerSec driver s a (s.advance (clocking ticksPerSec) p pt next) label := by
  have ran := well.ran here running runs place (by rw [task]; simp)
  have advanced := Client.advanced (R := clocking ticksPerSec) s p pt next
  have same : c.fn.addresses clockMbox = false →
      s.sys.globals.SameBox clockMbox (s.advance (clocking ticksPerSec) p pt next).sys.globals :=
    well.keeps.advance_sameBox runs
  have served := (well.stands p).1
  rw [task] at place served
  cases place
  replace same := same (by decide)
  obtain rfl := served.mp rfl
  generalize s.advance (clocking ticksPerSec) p pt _ = s' at *
  have before : held p s = none := by simp [held, task, ClockTask.held]
  generalize pt.exec s.sys.globals p = seg at advanced
  cases advanced with
  | returns _ shared task' proc =>
    have proc : s'.sys.proc p = .outside := proc
    have after : held p s' = none := by
      rw [held, task', proc]
      rfl
    refine well.drives .ticks ran same.mbox (by rw [same.queued]; exact well.sized) (by simp [task']) ?_ ?_ (by simp)
      (by simp) (by simp)
    · rw [task', proc]
      exact ⟨by simp [ClockTask.serves], by simp⟩
    · have ticked := ScannedQueue.Step.ticks (v := view p s) (SleepReq.due s'.shared.tickCount)
        (by simp [view, task]) before
      convert ticked using 1
      simp [view, requests_sameBox same, after, before, task', shared]
  | blocks _ shared task' proc | unblocks _ shared task' proc | faults _ shared task' proc =>
    have waiting : s'.task p = .waitingDevice := by rw [task', task]
    have after : held p s' = held p s := by
      rw [before, held, waiting]
      rfl
    refine well.rests ran same.mbox same.queued shared (by rw [task']) after (by simp [waiting]) ?_
    rw [waiting]
    exact ⟨served, trivial⟩

/-- `ClockDriver` in its `MboxCondRecv`. -/
theorem ClockWell.takes (task : s.task p = .receiving) :
    ClockWell ticksPerSec driver (s.advance (clocking ticksPerSec) p pt next) ∧
      ∃ label, Effect ticksPerSec driver s a (s.advance (clocking ticksPerSec) p pt next) label := by
  have ran := well.ran here running runs place (by rw [task]; simp)
  have advanced := Client.advanced (R := clocking ticksPerSec) s p pt next
  have path := Point.exec_path s.sys.globals p pt
  obtain ⟨served, stands⟩ := well.stands p
  rw [task] at place served stands
  cases place
  obtain rfl := served.mp rfl
  have slotted : (s.sys.globals.mailboxes clockMbox).numSlots ≠ 0 := by rw [well.numSlots]; decide
  have table := path.table slotted here (well.keeps.fits p) (.inr (.inr runs.fn))
  have taking := path.taking well.keeps.sound well.keeps.active slotted here (well.keeps.fits p) runs .condRecv
  have unblocks := @Path.fn_unblocks _ _ _ _ path
  have blocks := fun w => path.waits_blocks runs (w := w)
  -- nothing is held before the message is taken out
  have idle : (∀ k, pt ≠ .afterUnblock k) → held p s = none := fun awake =>
    held_receiving task fun k inside => by
      rw [inside] at here
      cases here
      exact awake k rfl
  generalize s.advance (clocking ticksPerSec) p pt _ = s' at *
  generalize pt.exec s.sys.globals p = seg at *
  cases taking with
  | @refused code start refused negative =>
    cases advanced with
    | returns globals shared task' proc =>
      have ended : scan s.shared ⟨code, []⟩ = (s.shared, .waitingDevice) := by simp [scan, not_lt.mpr negative.le]
      rw [ended] at shared task'
      have proc : s'.sys.proc p = .outside := by rwa [ended] at proc
      have empty := well.queued_nil (by decide) refused
      exact well.endsScan ran task (idle (by simp [start])) empty globals shared task' proc
  | waits =>
    exact absurd (blocks _ rfl) Call.condRecv_waits
  | missed at_ =>
    rw [at_] at runs
    cases runs.waits
  | rejected first small =>
    have sized := well.sized _ (first ▸ List.mem_cons_self ..)
    rw [sized] at small
    exact absurd small (lt_irrefl _)
  | @taken g r _ first room awake ends =>
    have sized := well.sized r (first ▸ List.mem_cons_self ..)
    have before : held p s = none := idle awake
    rcases ends with rfl | ⟨pid, k, rfl, kind⟩
    · cases advanced with
      | returns globals shared task' proc =>
        obtain ⟨shared, holds, goesOn, awake', stands'⟩ := scan_held sized shared task' proc
        exact well.takesOut ran task before first (congrFun table _) globals shared holds goesOn awake' stands'
    · cases advanced with
      | unblocks globals shared task' proc =>
        have fn : k.fn = .condRecv (clockMbox : Nat) := (unblocks rfl).trans runs.fn
        obtain rfl : k = .condRecvTaken clockMbox r := kind.resolve_left (by rintro rfl; cases fn)
        have holds : held p s' = some (.ofBytes r.buf) := by
          rw [held, task', task, proc]
          rfl
        have receiving : s'.task p = .receiving := by rw [task', task]
        refine well.takesOut ran task before first (congrFun table _) globals shared holds (by simp [receiving])
          (by simp [receiving]) ?_
        rw [receiving, proc]
        refine ⟨served, ?_⟩
        rintro k ⟨⟩
        exact ⟨r, rfl, sized⟩
  | @returned k r at_ kind =>
    subst at_
    have inside : s.sys.proc p = .unblocking k := here.unblocking_eq
    obtain ⟨r', rfl, sized⟩ := stands k inside
    have same : r = r' := by
      rcases kind with other | same
      · cases other
      · cases same
        rfl
    subst same
    cases advanced with
    | returns globals shared task' proc =>
      obtain ⟨shared, holds, goesOn, awake', stands'⟩ := scan_held sized shared task' proc
      have before : held p s = some (.ofBytes r.buf) := by
        rw [held, task, inside]
        rfl
      exact well.rests ran (by rw [globals]) (by rw [globals]) shared (by simp [goesOn, task])
        (holds.trans before.symm) awake' stands'
  | faults =>
    cases advanced with
    | faults globals shared task' proc =>
      have receiving : s'.task p = .receiving := by rw [task', task]
      refine well.rests ran (by rw [globals]) (by rw [globals]) shared (by rw [task'])
        (by rw [held, held, task', proc]) (by simp [receiving]) ?_
      rw [receiving, proc]
      exact ⟨served, stands⟩

omit running in
/-- The `MboxSend` of a request finds its mailbox as it is made, and is not in
an `unblockProc`. -/
theorem ClockWell.sends {req : SleepReq} (call : c = .send clockMbox.val (some req.bytes) 8)
    (task : s.task p = .sending req ∨ s.task p = .puttingBack req) :
    Sending s.sys.globals clockMbox c req.bytes pt (pt.exec s.sys.globals p) ∧
      (pt.exec s.sys.globals p).1.mailboxes = s.sys.globals.mailboxes ∧ (∀ k, pt ≠ .afterUnblock k) ∧
      (¬ c.Admitted s.sys.globals → s.sys.globals.freeSlotCount = 0) := by
  have path := Point.exec_path s.sys.globals p pt
  have slotted : (s.sys.globals.mailboxes clockMbox).numSlots ≠ 0 := by rw [well.numSlots]; decide
  subst call
  refine ⟨path.sending well.keeps.sound well.keeps.active slotted here (well.keeps.fits p) runs
    (.send req.bytesAt_bytes.symm), path.table slotted here (well.keeps.fits p) (.inl runs.fn), ?_, fun refused => ?_⟩
  · rintro k rfl
    have inside := here.unblocking_eq
    obtain ⟨_, stands⟩ := well.stands p
    rcases task with task | task <;> rw [task] at stands <;> exact stands.2 k inside
  · by_contra free
    have accepted : s.sys.globals.accepts clockMbox (some req.bytes) 8 = true := by
      simp [Globals.accepts, well.slotSize]
    exact refused ⟨clockMbox, Globals.activeMbox_eq_some.mpr ⟨rfl, well.keeps.active⟩, accepted, .inr free⟩

/-- `sys_sleep` in its `MboxSend`. -/
theorem ClockWell.sleeps {req : SleepReq} (task : s.task p = .sending req)
    (first : ∀ c', pt = .start c' → a = .run p) :
    ClockWell ticksPerSec driver (s.advance (clocking ticksPerSec) p pt next) ∧
      ∃ label, Effect ticksPerSec driver s a (s.advance (clocking ticksPerSec) p pt next) label := by
  obtain ⟨keeps, frame, wakes⟩ := well.ran here running runs place (by rw [task]; simp)
  have advanced := Client.advanced (R := clocking ticksPerSec) s p pt next
  obtain ⟨sending, table, awake, unslotted⟩ :=
    well.sends here runs place (by rw [task] at place; cases place; rfl) (.inl task)
  obtain ⟨served, caller, _⟩ : ClockTask.Stands _ _ p _ (.sending req) := task ▸ well.stands p
  have other : driver ≠ p := by
    rintro rfl
    cases served.mpr rfl
  rw [task] at place
  cases place
  have driving := frame.tasks driver other
  have holds := frame.held other
  generalize s.advance (clocking ticksPerSec) p pt _ = s' at *
  generalize pt.exec s.sys.globals p = seg at *
  have sleepsOnly : ∀ q, q ≠ p → Sleeps s' q → Sleeps s q := fun q away sleeps => sleeps.of_frame frame away
  -- a process that goes on in the send is not asleep
  have stays : s'.sys.globals.mailboxes clockMbox = s.sys.globals.mailboxes clockMbox →
      s'.sys.globals.queued clockMbox = s.sys.globals.queued clockMbox → s'.shared = s.shared → s'.task = s.task →
      (∀ k, s'.sys.proc p ≠ .unblocking k) →
      ClockWell ticksPerSec driver s' ∧ ∃ label, Effect ticksPerSec driver s a s' label := by
    intro table queued shared task' awake'
    have at_ : s'.task p = .sending req := by rw [task', task]
    refine ⟨well.after keeps table (by rw [queued]; exact well.sized) frame (.inl (by rw [shared])) ?_, .quiet,
      .of_driver frame (by simp [at_]) ?_ (fun q sleeps => (wakes q sleeps).imp_right .inl) (by simp) (by simp)
      (by simp)⟩
    · rw [at_]
      exact ⟨served, caller, awake'⟩
    · rw [view_eq (by rw [requests, requests, queued]) holds (by rw [driving]) (by rw [shared]) (by rw [shared])
        (by rw [shared])]
      exact .quiet
  cases sending with
  | @refused code start refused negative =>
    cases advanced with
    | returns globals shared task' proc =>
      have proc : s'.sys.proc p = .asleep := proc
      have shared : s'.shared = s.shared := by rw [shared, if_neg (by simp; omega)]
      refine ⟨well.after keeps (by rw [globals]) (by rw [globals]; exact well.sized) frame (.inl (by rw [shared])) ?_,
        .quiet, ?_, fun q sleeps => ?_, fun q sleeps => (wakes q sleeps).imp_right .inl, by simp, by simp, by simp⟩
      · rw [task']
        exact ⟨served, trivial⟩
      · rw [view_eq (requests_globals globals) holds (by rw [driving]) (by rw [shared]) (by rw [shared])
          (by rw [shared])]
        exact .quiet
      · by_cases own : q = p
        · subst own
          exact .inr ⟨req, task, .inr ⟨first _ start, unslotted refused⟩⟩
        · exact .inl (sleepsOnly q own sleeps)
  | waits queued _ =>
    cases advanced with
    | blocks globals shared task' proc =>
      exact stays (by rw [globals, table]) (by rw [globals, queued]) shared task' (by simp [proc])
  | @stored g o queued room _ ends =>
    obtain rfl : o = .returns ⟨0, []⟩ := ends.resolve_right fun pointed => pointed.1 well.consumers
    cases advanced with
    | returns globals shared task' proc =>
      have proc : s'.sys.proc p = .asleep := proc
      have shared : s'.shared = { s.shared with sent := s.shared.sent ++ [req] } := by rw [shared, if_pos rfl]
      have appended : requests s' = requests s ++ [req] := by
        rw [requests, globals, queued, List.map_append]
        simp [requests]
      refine ⟨well.after keeps (by rw [globals, table]) (fun r member => ?_) frame (.inl (by rw [shared])) ?_,
        .sends req, ?_, fun q sleeps => ?_, fun q sleeps => (wakes q sleeps).imp_right .inl, fun r same => ?_, by simp,
        by simp⟩
      · rw [globals, queued] at member
        rcases List.mem_append.mp member with old | new
        · exact well.sized r old
        · rw [List.mem_singleton.mp new]
          simp [SleepReq.bytes, intBytes]
      · rw [task']
        exact ⟨served, trivial⟩
      · have sends := ScannedQueue.Step.sends (v := view driver s) req
        convert sends using 1
        simp [view, appended, holds, driving, shared]
      · by_cases own : q = p
        · subst own
          exact .inr ⟨req, task, .inl rfl⟩
        · exact .inl (sleepsOnly q own sleeps)
      · cases same
        exact ⟨p, task, task', proc⟩
  | returned inside => exact absurd inside (awake _)
  | faults =>
    cases advanced with
    | faults globals shared task' proc =>
      refine stays (by rw [globals]) (by rw [globals]) shared task' fun k inside => ?_
      rw [proc] at inside
      obtain ⟨_, stands⟩ := well.stands p
      rw [task] at stands
      exact stands.2 k inside

/-- `ClockDriver` in the `MboxSend` of the request it puts back. -/
theorem ClockWell.putsBack {req : SleepReq} (task : s.task p = .puttingBack req)
    (first : ∀ c', pt = .start c' → a = .run p) :
    ClockWell ticksPerSec driver (s.advance (clocking ticksPerSec) p pt next) ∧
      ∃ label, Effect ticksPerSec driver s a (s.advance (clocking ticksPerSec) p pt next) label := by
  have ran := well.ran here running runs place (by rw [task]; simp)
  have advanced := Client.advanced (R := clocking ticksPerSec) s p pt next
  obtain ⟨sending, table, awake, unslotted⟩ :=
    well.sends here runs place (by rw [task] at place; cases place; rfl) (.inr task)
  obtain ⟨served, late, awake'⟩ : ClockTask.Stands _ _ p _ (.puttingBack req) := task ▸ well.stands p
  obtain rfl := served.mp rfl
  rw [task] at place
  cases place
  generalize s.advance (clocking ticksPerSec) p pt _ = s' at *
  generalize pt.exec s.sys.globals p = seg at *
  have before : held p s = some req := by
    rw [held, task]
    rfl
  have scanning : (view p s).scanning = true := by simp [view, task]
  have stays : s'.sys.globals.mailboxes clockMbox = s.sys.globals.mailboxes clockMbox →
      s'.sys.globals.queued clockMbox = s.sys.globals.queued clockMbox → s'.shared = s.shared → s'.task = s.task →
      (∀ k, s'.sys.proc p ≠ .unblocking k) →
      ClockWell ticksPerSec p s' ∧ ∃ label, Effect ticksPerSec p s a s' label := by
    intro table queued shared task' awake'
    have at_ : s'.task p = .puttingBack req := by rw [task', task]
    have after : held p s' = some req := by
      rw [held, at_]
      rfl
    refine well.rests ran table queued shared (by rw [task']) (after.trans before.symm) (by simp [at_]) ?_
    rw [at_, shared]
    exact ⟨served, late, awake'⟩
  cases sending with
  | @refused code start refused negative =>
    cases advanced with
    | returns globals shared task' proc =>
      have proc : s'.sys.proc p = .outside := proc
      have after : held p s' = none := by
        rw [held, task', proc]
        rfl
      refine well.drives .loses ran (by rw [globals]) (by rw [globals]; exact well.sized) (by simp [task']) ?_ ?_
        (by simp) (by simp) fun _ => ⟨first _ start, unslotted refused, req, task⟩
      · rw [task']
        exact ⟨by simp [ClockTask.serves], trivial⟩
      · have loses := ScannedQueue.Step.loses (v := view p s) scanning before late
        convert loses using 1
        simp [view, requests_globals globals, after, task', shared]
  | waits queued _ =>
    cases advanced with
    | blocks globals shared task' proc =>
      exact stays (by rw [globals, table]) (by rw [globals, queued]) shared task' (by simp [proc])
  | @stored g o queued room _ ends =>
    obtain rfl : o = .returns ⟨0, []⟩ := ends.resolve_right fun pointed => pointed.1 well.consumers
    cases advanced with
    | returns globals shared task' proc =>
      have proc : s'.sys.proc p = .outside := proc
      have after : held p s' = none := by
        rw [held, task', proc]
        rfl
      have appended : requests s' = requests s ++ [req] := by
        rw [requests, globals, queued, List.map_append]
        simp [requests]
      refine well.drives .putsBack ran (by rw [globals, table]) (fun r member => ?_) (by simp [task']) ?_ ?_ (by simp)
        (by simp) (by simp)
      · rw [globals, queued] at member
        rcases List.mem_append.mp member with old | new
        · exact well.sized r old
        · rw [List.mem_singleton.mp new]
          simp [SleepReq.bytes, intBytes]
      · rw [task']
        exact ⟨by simp [ClockTask.serves], trivial⟩
      · have putsBack := ScannedQueue.Step.putsBack (v := view p s) scanning before late
        convert putsBack using 1
        simp [view, appended, after, task', shared]
  | returned inside => exact absurd inside (awake _)
  | faults =>
    cases advanced with
    | faults globals shared task' proc =>
      exact stays (by rw [globals]) (by rw [globals]) shared task' fun k inside => awake' k (proc ▸ inside)

end

/-- A step that goes on outside the mailboxes and the driver. -/
theorem ClockWell.elsewhere (well : ClockWell ticksPerSec driver s) (keeps : s'.Keeps (clocking ticksPerSec) clockMbox)
    (globals : s'.sys.globals = s.sys.globals) (procs : s'.sys.proc = s.sys.proc)
    (tasks : ∀ q, q ≠ p → s'.task q = s.task q) (awake : ¬ Sleeps s p) (awake' : s'.task p ≠ .sleeping)
    (tick : s'.shared.tickCount = s.shared.tickCount) (sent : s'.shared.sent = s.shared.sent)
    (passed : s'.shared.passed = s.shared.passed) (other : driver ≠ p ∨ s'.task p = s.task p)
    (own : (s'.task p).Stands driver s'.shared.tickCount p (s'.sys.proc p)) :
    ClockWell ticksPerSec driver s' ∧ ∃ label, Effect ticksPerSec driver s a s' label := by
  have frame : Frame p s s' := ⟨tasks, fun q _ => .inl (congrFun procs q)⟩
  have same : s'.task driver = s.task driver := by
    by_cases self : driver = p
    · rw [self]
      exact other.resolve_left (not_not_intro self)
    · exact tasks driver self
  refine ⟨well.after keeps (by rw [globals]) (by rw [globals]; exact well.sized) frame (.inl tick) own, .quiet,
    .of_driver frame awake' ?_ (fun q sleeps => .inl ?_) (by simp) (by simp) (by simp)⟩
  · rw [view_eq (requests_globals globals) (by rw [held, held, same, procs]) (by rw [same]) tick sent passed]
    exact .quiet
  · have away : q ≠ p := by
      rintro rfl
      exact awake sleeps
    exact ⟨(tasks q away).trans sleeps.1, (congrFun procs q).trans sleeps.2⟩

/-- `ClockDriver` in its `unblockProc`. -/
theorem ClockWell.passes (well : ClockWell ticksPerSec driver s) {req : SleepReq} (task : s.task p = .unblocking req)
    (out : s.sys.proc p = .outside)
    (keeps : s'.Keeps (clocking ticksPerSec) clockMbox) (sys : s'.sys = s.sys.unblockProc p req.pid.toInt)
    (shared : s'.shared = { s.shared with passed := s.shared.passed ++ [req] })
    (task' : s'.task = Function.update s.task p .receiving) :
    ClockWell ticksPerSec driver s' ∧ ∃ label, Effect ticksPerSec driver s a s' label := by
  obtain ⟨served, due⟩ : ClockTask.Stands _ _ p _ (.unblocking req) := task ▸ well.stands p
  obtain rfl := served.mp rfl
  have globals : s'.sys.globals = s.sys.globals := by
    rw [sys]
    rfl
  have frame : Frame p s s' := ⟨fun q away => by rw [task', Function.update_of_ne away], fun q _ => by
    rw [sys]
    exact Client.unblockProc_other q⟩
  have receiving : s'.task p = .receiving := by rw [task', Function.update_self]
  have out' : s'.sys.proc p = .outside := by
    rw [sys]
    exact Client.unblockProc_out out
  have before : held p s = some req := by
    rw [held, task]
    rfl
  have after : held p s' = none := by
    rw [held, receiving, out']
    rfl
  refine ⟨well.after keeps (by rw [globals]) (by rw [globals]; exact well.sized) frame (.inr rfl) ?_, .passes req,
    .of_driver frame (by simp [receiving]) ?_ (fun q sleeps => ?_) (by simp) ?_ (by simp)⟩
  · rw [receiving, out']
    exact ⟨by simp [ClockTask.serves], by simp⟩
  · have passes := ScannedQueue.Step.passes (v := view p s) (by simp [view, task]) before due
    convert passes using 1
    simp [view, requests_globals globals, after, receiving, task, shared]
  · by_cases named : q = req.pid.toInt
    · exact .inr (.inr ⟨req, rfl, named.symm⟩)
    · refine .inl ⟨?_, ?_⟩
      · rw [frame.tasks q, sleeps.1]
        rintro rfl
        rw [sleeps.1] at task
        cases task
      · rw [sys]
        exact (Function.update_of_ne named _ _).trans sleeps.2
  · rintro r ⟨⟩ ⟨_, asleep⟩
    simp only [sys, Sys.unblockProc, Function.update_self] at asleep
    cases at_ : s.sys.proc req.pid.toInt <;> rw [at_] at asleep <;> cases asleep

theorem ClockWell.advance (well : ClockWell ticksPerSec driver s) {pt : Point} (here : (s.sys.proc p).At pt)
    (running : Client.Running (clocking ticksPerSec) s a p pt) {c : Call} (runs : c.Runs pt)
    {next : Result → Clock → Clock × ClockTask} (place : (clocking ticksPerSec).op (s.task p) = .call c next)
    (first : ∀ c', pt = .start c' → a = .run p) :
    ClockWell ticksPerSec driver (s.advance (clocking ticksPerSec) p pt next) ∧
      ∃ label, Effect ticksPerSec driver s a (s.advance (clocking ticksPerSec) p pt next) label := by
  cases task : s.task p with
  | sending => exact well.sleeps here running runs place task first
  | waitingDevice => exact well.waits here running runs place task
  | receiving => exact well.takes here running runs place task
  | puttingBack => exact well.putsBack here running runs place task first
  | outside | sleeping | unblocking =>
    rw [task] at place
    cases place

theorem ClockWell.step (well : ClockWell ticksPerSec driver s) (apart : Client.Apart clockMbox s a)
    (moves : s.Move (clocking ticksPerSec) a s') :
    ClockWell ticksPerSec driver s' ∧ ∃ label, Effect ticksPerSec driver s a s' label := by
  have keeps := well.keeps.step (unreleasing_clocking _) apart moves
  cases moves with
  | user may moved =>
    obtain ⟨well', effect⟩ := well.user may moved apart
    exact ⟨well', .quiet, effect⟩
  | @invokes p seconds next idle may out invoked =>
    have task : s.task p = .outside := by
      cases at_ : s.task p <;> rw [at_] at idle <;> first | rfl | cases idle
    obtain ⟨served, _⟩ := well.stands p
    rw [task] at served
    have other : driver ≠ p := by
      rintro rfl
      cases served.mpr rfl
    simp only [clocking, Option.ite_none_right_eq_some, Option.some.injEq] at invoked
    obtain ⟨⟨lower, upper⟩, rfl⟩ := invoked
    have awake : ¬ Sleeps s p := fun sleeps => by
      rw [sleeps.1] at task
      cases task
    have calls : (ClockTask.op (sys_sleep ticksPerSec s.shared p seconds).2).blocks = false := by
      unfold sys_sleep
      split <;> rfl
    rw [Client.enter_eq calls] at keeps ⊢
    refine well.elsewhere (p := p) keeps rfl rfl (fun q away => Function.update_of_ne away _ _) awake ?_ ?_ ?_ ?_
      (.inl other) ?_
    · simp only [Function.update_self]
      unfold sys_sleep
      split <;> simp
    · simp only [sys_sleep]
      split <;> rfl
    · simp only [sys_sleep]
      split <;> rfl
    · simp only [sys_sleep]
      split <;> rfl
    · simp only [Function.update_self, out]
      unfold sys_sleep
      split
      · exact ⟨served, trivial⟩
      · exact ⟨served, pid_toInt lower upper, by simp⟩
  | calls place may out => exact well.advance (out ▸ .start) (.calls place) .start place (fun _ _ => rfl)
  | resumes place may here resumes =>
    exact well.advance here (.resumes here resumes) (Client.runs_of_placed well.keeps.placed place here resumes) place
      fun c start => absurd start (resumes c)
  | @wakes p pid next place may out =>
    cases task : s.task p with
    | unblocking req =>
      rw [task] at place
      cases place
      exact well.passes task out keeps rfl rfl rfl
    | outside | sending | sleeping | waitingDevice | receiving | puttingBack =>
      rw [task] at place
      cases place
  | @returns p next place may out =>
    cases task : s.task p with
    | sleeping =>
      rw [task] at place
      cases place
      obtain ⟨served, _⟩ := well.stands p
      rw [task] at served
      have other : driver ≠ p := by
        rintro rfl
        cases served.mpr rfl
      have awake : ¬ Sleeps s p := fun sleeps => by
        rw [sleeps.2] at out
        cases out
      refine well.elsewhere (p := p) keeps rfl rfl (fun q away => Function.update_of_ne away _ _) awake ?_ rfl rfl rfl
        (.inl other) ?_
      · rw [Client.enter_task, Function.update_self]
        simp
      · rw [Client.enter_task, Function.update_self]
        exact ⟨served, trivial⟩
    | outside | sending | unblocking | waitingDevice | receiving | puttingBack =>
      rw [task] at place
      cases place
  | @goes p _ _ place => cases task : s.task p <;> rw [task] at place <;> cases place
  | @yields p serves may out =>
    have awake : ¬ Sleeps s p := fun sleeps => by
      rw [sleeps.2] at out
      cases out
    refine well.elsewhere (p := p) keeps rfl rfl (fun _ _ => rfl) awake ?_ rfl rfl rfl (.inr rfl) (well.stands p)
    intro sleeping
    rw [show s.task p = .sleeping from sleeping] at serves
    cases serves
  | @event e => exact e.elim

end

theorem clockWell_of_run {ticksPerSec : BitVec 32} {driver : Pid} {s : Client Clock ClockTask}
    {guard : Client Clock ClockTask → ClientAct (BitVec 32) Empty → Prop}
    (run : Transition.Run (Client.step (clocking ticksPerSec)) guard (startClock driver) s)
    (apart : ∀ s a, guard s a → Client.Apart clockMbox s a) : ClockWell ticksPerSec driver s := by
  refine run.invariant (ClockWell ticksPerSec driver) ?_ fun before a _ well admitted moves =>
    (well.step (apart before a admitted) (Client.step_move moves)).1
  have fresh := initSys_clockMbox
  refine ⟨start_keeps _ _ _ fresh, fresh.numSlots, fresh.slotSize, fresh.consumers, ?_, fun p => ?_⟩
  · intro r member
    have empty : (startClock driver).sys.globals.queued clockMbox = [] := fresh.queued
    rw [empty] at member
    cases member
  · by_cases self : p = driver
    · subst self
      simp [startClock, start, ClockTask.Stands, ClockTask.serves]
    · simp [startClock, start, ClockTask.Stands, ClockTask.serves, self]

end Phase4a

end UslossKernel
