import UslossKernel.TerminalReads

namespace UslossKernel

namespace Phase4a

variable {δ : Type}

/-- What is relied on of `waitDevice`: the calls on a unit are given the
statuses of its interrupts, in their order and each once. -/
structure WaitDevice.InOrder (W : WaitDevice δ) (device : δ) (pending : δ → TermUnit → List TermStatus) : Prop where
  start : pending device = fun _ => []
  interrupt : ∀ d unit status, pending (W.interrupt d unit status) =
    Function.update (pending d) unit (pending d unit ++ [status])
  waits : ∀ d unit, pending d unit = [] → W.waitDevice d unit = none
  gives : ∀ d unit status rest, pending d unit = status :: rest →
    ∃ d', W.waitDevice d unit = some (status, d') ∧ pending d' = Function.update (pending d) unit rest

/-- What a step does to the places of the processes and to the shared variables. -/
inductive Work (W : WaitDevice δ) (s : Client (TermState δ) TermTask)
    (a : ClientAct TermCall (TermUnit × TermStatus)) (shared : TermState δ) (task : Pid → TermTask) : Prop
  | stays : shared = s.shared → task = s.task → Work W s a shared task
  | refuses {p args} : a = .invoke p (.read args) → args.check = none → (s.task p).driver = none →
      shared = { s.shared with refused := s.shared.refused ++ [⟨none, -1⟩] } →
      task = Function.update s.task p .outside → Work W s a shared task
  | begins {p args unit} : a = .invoke p (.read args) → args.check = some unit → (s.task p).driver = none →
      shared = { s.shared with begun := s.shared.begun + 1 } →
      task = Function.update s.task p (.reading unit ⟨s.shared.begun, args.userBufSize⟩) → Work W s a shared task
  | receives {p d status device} : s.task p = .waiting d →
      W.waitDevice s.shared.device d.unit = some (status, device) → shared = s.shared.give d status device →
      task = Function.update s.task p (d.receive status) → Work W s a shared task
  | sends {p d r} : s.task p = .sending d → shared = (d.sent r s.shared).1 →
      task = Function.update s.task p (d.sent r s.shared).2 → Work W s a shared task
  | reads {p unit call r} : s.task p = .reading unit call → shared = s.shared.copied unit (copyLine call r) →
      task = Function.update s.task p .outside → Work W s a shared task
  | writes {p place terminals} : (s.task p).driver = none →
      (∀ unit, (TermTask.ofWriter place).writesTo = some unit →
        (s.task p).writesTo = some unit ∨ ∃ args, a = .invoke p (.write args) ∧ args.check = some unit) →
      shared = { s.shared with terminals } → task = Function.update s.task p (.ofWriter place) →
      Work W s a shared task
  | awaits {p w i status device} : s.task p = .writing (.waiting w i) →
      W.waitDevice s.shared.device w.unit = some (status, device) → shared = { s.shared with device } →
      task = Function.update s.task p (.ofWriter (.loop w (i + 1))) → Work W s a shared task
  | arrives {e} : shared = (terminals W).event s.shared e → task = s.task → Work W s a shared task

@[simp] theorem ofWriter_driver (place : Writer) : (TermTask.ofWriter place).driver = none := by
  cases place <;> rfl

theorem ofWriter_reading (place : Writer) (unit : TermUnit) (call : ReadCall) :
    TermTask.ofWriter place ≠ .reading unit call := by
  cases place <;> simp [TermTask.ofWriter]

theorem driver_reading {place : TermTask} {d : TermDriver} (driver : place.driver = some d) (unit : TermUnit)
    (call : ReadCall) : place ≠ .reading unit call := by
  rintro rfl
  cases driver

theorem driver_writesTo {place : TermTask} {d : TermDriver} (driver : place.driver = some d) :
    place.writesTo = none := by
  cases place <;> first | rfl | cases driver

theorem ofWriter_writesTo (place : Writer) : (TermTask.ofWriter place).writesTo = place.write.map Write.unit := by
  cases place <;> rfl

theorem terminals_blocks (W : WaitDevice δ) (place : TermTask) : ((terminals W).op place).blocks = false := by
  cases place with
  | outside | waiting | sending | reading => rfl
  | writing place => cases place <;> rfl

/-- The mailbox calls of `sys_term_write` are on the lock, and leave the rest. -/
theorem writing_call {W : WaitDevice δ} {place : Writer} {c : Call}
    {next : Result → TermState δ → TermState δ × TermTask} (at_ : (terminals W).op (.writing place) = .call c next) :
    (∃ unit, c = .send (mutexMbox unit).val none 0 ∨ c = .recv (mutexMbox unit).val ⟨false, 0⟩) ∧
      ∀ r t, ∃ place' terminals, next r t = ({ t with terminals }, .ofWriter place') := by
  cases place with
  | outside | putting | waiting => cases at_
  | locking w =>
    cases at_
    exact ⟨⟨w.unit, .inl rfl⟩, fun r t => ⟨.loop w 0, t.terminals, rfl⟩⟩
  | unlocking w =>
    cases at_
    exact ⟨⟨w.unit, .inr rfl⟩, fun r t => ⟨.outside, _, rfl⟩⟩

/-- None of the routines blocks or wakes a process by itself. -/
theorem terminals_runs {W : WaitDevice δ} {place : TermTask} :
    (∀ next, (terminals W).op place ≠ .blockMe next) ∧ ∀ pid next, (terminals W).op place ≠ .unblockProc pid next := by
  cases place with
  | outside | waiting | sending | reading => exact ⟨nofun, nofun⟩
  | writing place => cases place <;> exact ⟨nofun, nofun⟩

/-- Outside the routines a process is no driver. -/
theorem idle_driver {W : WaitDevice δ} {place : TermTask} (idle : (terminals W).op place = .idle) :
    place.driver = none ∧ (∀ unit call, place ≠ .reading unit call) := by
  cases place with
  | outside | writing => exact ⟨rfl, by simp⟩
  | waiting | sending | reading => cases idle

section

variable {W : WaitDevice δ} {drivers : Fin maxTerms ↪ Pid} {arg : Fin maxTerms → TermUnit}
  {s s' : Client (TermState δ) TermTask} {p : Pid} {a : ClientAct TermCall (TermUnit × TermStatus)}

theorem advance_work {pt : Point} {c : Call} {next : Result → TermState δ → TermState δ × TermTask}
    (place : (terminals W).op (s.task p) = .call c next) :
    Work W s a (s.advance (terminals W) p pt next).shared (s.advance (terminals W) p pt next).task := by
  rcases Client.advance_cases (R := terminals W) s p pt next with ⟨r, _, same⟩ | ⟨_, same⟩ <;> rw [same]
  · cases at_ : s.task p with
    | outside | waiting =>
      rw [at_] at place
      cases place
    | sending d =>
      rw [at_] at place
      cases place
      exact .sends at_ rfl rfl
    | reading unit call =>
      rw [at_] at place
      cases place
      exact .reads at_ rfl rfl
    | writing writer =>
      rw [at_] at place
      cases writer with
      | outside | putting w i | waiting w i => cases place
      | locking w =>
        cases place
        refine .writes (by rw [at_]; rfl) (fun unit writesTo => .inl ?_) rfl rfl
        rw [ofWriter_writesTo, loop_write] at writesTo
        rw [at_]
        exact writesTo
      | unlocking w =>
        cases place
        exact .writes (by rw [at_]; rfl) (by rintro unit ⟨⟩) rfl
          (show _ = Function.update s.task p (.ofWriter .outside) from rfl)
  · exact .stays rfl rfl

theorem begin_work (idle : (terminals W).op (s.task p) = .idle) (call : TermCall) :
    Work W s (.invoke p call) (call.begin s.shared).1 (Function.update s.task p (call.begin s.shared).2) := by
  have driver := (idle_driver idle).1
  cases call with
  | read args =>
    simp only [TermCall.begin]
    unfold sys_term_read
    cases check : args.check with
    | none => exact .refuses rfl check driver rfl rfl
    | some unit => exact .begins rfl check driver rfl rfl
  | write args =>
    refine .writes driver (fun unit writesTo => .inr ⟨args, rfl, ?_⟩) rfl rfl
    rw [ofWriter_writesTo] at writesTo
    cases check : args.check with
    | none =>
      rw [check] at writesTo
      cases writesTo
    | some unit' =>
      rw [check] at writesTo
      exact writesTo

theorem work_of_move (moves : s.Move (terminals W) a s') : Work W s a s'.shared s'.task := by
  cases moves with
  | user | yields => exact .stays rfl rfl
  | @invokes p call next place _ _ invoked =>
    obtain rfl := Option.some.inj invoked
    exact begin_work place call
  | calls place | resumes place => exact advance_work place
  | wakes place => exact absurd place (terminals_runs.2 _ _)
  | returns place => exact absurd place (terminals_runs.1 _)
  | @goes p next result place _ _ went =>
    cases at_ : s.task p with
    | outside | sending | reading =>
      rw [at_] at place
      cases place
    | waiting d =>
      rw [at_] at place
      cases place
      obtain ⟨⟨status, device⟩, given, rfl⟩ := Option.map_eq_some_iff.mp went
      exact .receives at_ given rfl rfl
    | writing writer =>
      rw [at_] at place
      cases writer with
      | outside | locking w | unlocking w => cases place
      | putting w i =>
        cases place
        obtain rfl := Option.some.inj went
        exact .writes (by rw [at_]; rfl) (fun unit same => .inl (by rw [at_]; exact same)) rfl
          (show _ = Function.update s.task p (.ofWriter (.waiting w i)) from rfl)
      | waiting w i =>
        cases place
        obtain ⟨⟨status, device⟩, given, rfl⟩ := Option.map_eq_some_iff.mp went
        exact .awaits at_ given rfl rfl
  | event => exact .arrives rfl rfl

/-- What has been started stays with the driver. -/
theorem TermDriver.receive_driver (d : TermDriver) (status : TermStatus) :
    ∃ d', (d.receive status).driver = some d' ∧ d'.number = d.number ∧ d'.unit = d.unit := by
  unfold TermDriver.receive
  split
  · dsimp only
    split <;> exact ⟨_, rfl, rfl, rfl⟩
  · exact ⟨d, rfl, rfl, rfl⟩

theorem characters_append (first second : List TermStatus) :
    characters (first ++ second) = characters first ++ characters second := by
  simp [characters]

/-- The four drivers are where they have been started, each with the unit of
its `arg`, and what they have done so far fits this. -/
structure Bound (drivers : Fin maxTerms ↪ Pid) (arg : Fin maxTerms → TermUnit) (shared : TermState δ)
    (task : Pid → TermTask) : Prop where
  own : ∀ p d, (task p).driver = some d → drivers d.number = p ∧ d.unit = arg d.number
  serves : ∀ i, ∃ d, (task (drivers i)).driver = some d
  given : ∀ entry ∈ shared.given, entry.2.1 = arg entry.1
  completed : ∀ i, ∀ line ∈ shared.completed i, line.mbox = lineReadyMbox (arg i)

/-- The process that a step is about stays the driver it was, or none. -/
theorem Bound.update {shared shared' : TermState δ} {task : Pid → TermTask} (bound : Bound drivers arg shared task)
    {place : TermTask} (same : ∀ d, place.driver = some d → ∃ d', (task p).driver = some d' ∧ d.number = d'.number ∧
      d.unit = d'.unit)
    (serves : (task p).driver.isSome = true → place.driver.isSome = true)
    (given : ∀ entry ∈ shared'.given, entry.2.1 = arg entry.1)
    (completed : ∀ i, ∀ line ∈ shared'.completed i, line.mbox = lineReadyMbox (arg i)) :
    Bound drivers arg shared' (Function.update task p place) where
  own q d at_ := by
    by_cases self : q = p
    · subst self
      rw [Function.update_self] at at_
      obtain ⟨d', before, number, unit⟩ := same d at_
      rw [number, unit]
      exact bound.own q d' before
    · rw [Function.update_of_ne self] at at_
      exact bound.own q d at_
  serves i := by
    by_cases self : drivers i = p
    · subst self
      rw [Function.update_self]
      exact Option.isSome_iff_exists.mp (serves (Option.isSome_iff_exists.mpr (bound.serves i)))
    · rw [Function.update_of_ne self]
      exact bound.serves i
  given := given
  completed := completed

theorem Bound.work (bound : Bound drivers arg s.shared s.task) {shared : TermState δ} {task : Pid → TermTask}
    (work : Work W s a shared task) : Bound drivers arg shared task := by
  -- a process that is no driver comes to another such place
  have others : ∀ {p place} {shared : TermState δ}, (s.task p).driver = none → place.driver = none →
      shared.given = s.shared.given → shared.completed = s.shared.completed →
      Bound drivers arg shared (Function.update s.task p place) := by
    intro p place shared before after given completed
    exact bound.update (by simp [after]) (by simp [before]) (by rw [given]; exact bound.given)
      (by rw [completed]; exact bound.completed)
  cases work with
  | stays shared task =>
    subst shared task
    exact bound
  | refuses _ _ driver shared task | begins _ _ driver shared task =>
    subst shared task
    exact others driver rfl rfl rfl
  | writes driver _ shared task =>
    subst shared task
    exact others driver (ofWriter_driver _) rfl rfl
  | awaits at_ _ shared task =>
    subst shared task
    exact others (by rw [at_]; rfl) (ofWriter_driver _) rfl rfl
  | reads at_ shared task =>
    subst shared task
    exact others (by rw [at_]; rfl) rfl rfl rfl
  | @receives p d status device at_ _ shared task =>
    subst shared task
    have own := (bound.own p d (by rw [at_]; rfl)).2
    obtain ⟨d', becomes, number, unit⟩ := d.receive_driver status
    refine bound.update ?_ (fun _ => by rw [becomes]; rfl) ?_ bound.completed
    · intro d'' same
      rw [becomes] at same
      obtain rfl := Option.some.inj same
      exact ⟨d, by rw [at_]; rfl, number, unit⟩
    · intro entry member
      rcases List.mem_append.mp member with old | new
      · exact bound.given entry old
      · rw [List.mem_singleton.mp new]
        exact own
  | @sends p d r at_ shared task =>
    subst shared task
    have own := (bound.own p d (by rw [at_]; rfl)).2
    refine bound.update ?_ (fun _ => rfl) bound.given (fun i line member => ?_)
    · rintro d' ⟨⟩
      exact ⟨d, by rw [at_]; rfl, rfl, rfl⟩
    · by_cases same : i = d.number
      · subst same
        simp only [TermDriver.sent, Function.update_self, List.mem_append, List.mem_singleton] at member
        rcases member with old | rfl
        · exact bound.completed _ line old
        · exact congrArg lineReadyMbox own
      · simp only [TermDriver.sent, Function.update_of_ne same] at member
        exact bound.completed i line member
  | arrives shared task =>
    subst shared task
    exact ⟨bound.own, bound.serves, bound.given, bound.completed⟩

variable {device : δ}

theorem startTerminals_driver (p : Pid) : ((startTerminals device drivers arg).task p).driver =
    ((List.finRange maxTerms).find? fun i => drivers i = p).map fun i => ⟨i, arg i, []⟩ := by
  simp only [startTerminals, start]
  cases (List.finRange maxTerms).find? fun i => drivers i = p <;> rfl

theorem startTerminals_at (i : Fin maxTerms) :
    (startTerminals device drivers arg).task (drivers i) = .waiting ⟨i, arg i, []⟩ := by
  have found : ((List.finRange maxTerms).find? fun j => drivers j = drivers i) = some i := by
    cases at_ : (List.finRange maxTerms).find? fun j => drivers j = drivers i with
    | none => exact absurd (List.find?_eq_none.mp at_ i (List.mem_finRange i)) (by simp)
    | some j =>
      have same := List.find?_some at_
      exact congrArg some (drivers.injective (of_decide_eq_true same))
  simp only [startTerminals, start]
  rw [found]

/-- Whoever is no driver is outside at first. -/
theorem startTerminals_outside (other : ∀ i, drivers i ≠ p) :
    (startTerminals device drivers arg).task p = .outside := by
  have none : ((List.finRange maxTerms).find? fun i => drivers i = p) = none :=
    List.find?_eq_none.mpr fun i _ => by simp [other i]
  simp only [startTerminals, start]
  rw [none]

theorem bound_of_run {guard : Client (TermState δ) TermTask → ClientAct TermCall (TermUnit × TermStatus) → Prop}
    (run : Transition.Run (Client.step (terminals W)) guard (startTerminals device drivers arg) s) :
    Bound drivers arg s.shared s.task := by
  refine run.invariant (fun s => Bound drivers arg s.shared s.task) ?_ fun _ _ _ bound _ moves =>
    bound.work (work_of_move (Client.step_move moves))
  refine ⟨fun p d at_ => ?_, fun i => ⟨_, by rw [startTerminals_at]; rfl⟩, by simp [startTerminals, start],
    by simp [startTerminals, start]⟩
  rw [startTerminals_driver, Option.map_eq_some_iff] at at_
  obtain ⟨i, found, rfl⟩ := at_
  have here := List.find?_some found
  exact ⟨of_decide_eq_true here, rfl⟩

end

/-- The characters that have come in, with the terminal of each. -/
def TermState.typed (t : TermState δ) : List (TermUnit × UInt8) :=
  (t.arrived.filter fun e => e.2.recvStatus = .busy).map fun e => (e.1, e.2.recvChar)

/-- A character that comes in at a terminal. -/
def typed (e : TermUnit × UInt8) : TermUnit × TermStatus :=
  (e.1, ⟨e.2, .busy⟩)

/-- The terminal has its own driver: a `TermDriver` that waits for this unit, is
given its characters in their order and no others, and sends its lines to the
mailbox of the unit. -/
def OwnDriver (drivers : Fin maxTerms ↪ Pid) (pending : δ → TermUnit → List TermStatus)
    (s : Client (TermState δ) TermTask) (unit : TermUnit) : Prop :=
  ∃ i d, (s.task (drivers i)).driver = some d ∧ d.unit = unit ∧
    (∀ entry ∈ s.shared.given, entry.1 = i → entry.2.1 = unit) ∧
    s.shared.consumedBy i ++ characters (pending s.shared.device unit) = s.shared.received unit ∧
    ∀ line ∈ s.shared.completed i, line.mbox = lineReadyMbox unit

/-- Nobody writes to other terminals than these. -/
def Writes (written : Set TermUnit) (_ : Client (TermState δ) TermTask)
    (a : ClientAct TermCall (TermUnit × TermStatus)) : Prop :=
  ∀ p args unit, a = .invoke p (.write args) → args.check = some unit → unit ∈ written

/-- Where nobody writes, the statuses of a terminal are with the drivers or are
still to be given out. -/
structure Ordered (pending : δ → TermUnit → List TermStatus) (written : Set TermUnit)
    (s : Client (TermState δ) TermTask) : Prop where
  writers : ∀ p unit, (s.task p).writesTo = some unit → unit ∈ written
  order : ∀ unit ∉ written, (s.shared.given.filter fun entry => entry.2.1 = unit).map (fun entry => entry.2.2) ++
    pending s.shared.device unit = (s.shared.arrived.filter fun e => e.1 = unit).map Prod.snd

section

variable {W : WaitDevice δ} {device : δ} {pending : δ → TermUnit → List TermStatus} {drivers : Fin maxTerms ↪ Pid}
  {arg : Fin maxTerms → TermUnit} {written : Set TermUnit} {s s' : Client (TermState δ) TermTask} {p : Pid}

theorem WaitDevice.InOrder.takes (lawful : W.InOrder device pending) {d d' : δ} {unit : TermUnit} {status : TermStatus}
    (given : W.waitDevice d unit = some (status, d')) :
    pending d unit = status :: pending d' unit ∧ ∀ other ≠ unit, pending d' other = pending d other := by
  cases first : pending d unit with
  | nil =>
    rw [lawful.waits d unit first] at given
    cases given
  | cons status' rest =>
    obtain ⟨d'', given', after⟩ := lawful.gives d unit status' rest first
    rw [given] at given'
    cases given'
    rw [after, Function.update_self]
    exact ⟨rfl, fun other ne => Function.update_of_ne ne _ _⟩

theorem Ordered.step {a : ClientAct TermCall (TermUnit × TermStatus)} (lawful : W.InOrder device pending)
    (ordered : Ordered pending written s) (admitted : Writes written s a) (moves : s.Move (terminals W) a s') :
    Ordered pending written s' := by
  obtain ⟨writers, order⟩ := ordered
  have updated : ∀ {q : Pid} {place : TermTask}, (∀ unit, place.writesTo = some unit → unit ∈ written) →
      ∀ p unit, ((Function.update s.task q place) p).writesTo = some unit → unit ∈ written := by
    intro q place new p unit writesTo
    by_cases own : p = q
    · subst own
      rw [Function.update_self] at writesTo
      exact new unit writesTo
    · rw [Function.update_of_ne own] at writesTo
      exact writers p unit writesTo
  have work := work_of_move moves
  obtain ⟨sys', shared', task'⟩ := s'
  cases work with
  | stays shared task =>
    subst shared task
    exact ⟨writers, order⟩
  | refuses _ _ _ shared task | begins _ _ _ shared task | reads _ shared task | sends _ shared task =>
    subst shared task
    exact ⟨updated (by rintro unit ⟨⟩), order⟩
  | writes _ same shared task =>
    subst shared task
    refine ⟨updated fun unit writesTo => ?_, order⟩
    rcases same unit writesTo with before | ⟨args, begins, checked⟩
    · exact writers _ unit before
    · exact admitted _ args unit begins checked
  | @awaits p w i status next at_ given shared task =>
    subst shared task
    have writing : w.unit ∈ written := writers p w.unit (by rw [at_]; rfl)
    refine ⟨updated fun unit writesTo => ?_, fun unit unwritten => ?_⟩
    · rw [ofWriter_writesTo, loop_write] at writesTo
      exact Option.some.inj writesTo ▸ writing
    · have other : unit ≠ w.unit := by
        rintro rfl
        exact unwritten writing
      simp only [(lawful.takes given).2 unit other]
      exact order unit unwritten
  | @receives p d status next at_ given shared task =>
    subst shared task
    obtain ⟨first, others⟩ := lawful.takes given
    refine ⟨updated fun unit writesTo => ?_, fun unit unwritten => ?_⟩
    · obtain ⟨d', becomes, _⟩ := d.receive_driver status
      rw [driver_writesTo becomes] at writesTo
      cases writesTo
    · have before := order unit unwritten
      simp only [TermState.give, List.filter_append, List.map_append]
      rw [← before]
      by_cases same : d.unit = unit
      · subst same
        simp [first]
      · simp [same, others unit (Ne.symm same)]
  | @arrives e shared task =>
    subst shared task
    refine ⟨writers, fun unit unwritten => ?_⟩
    simp only [terminals, lawful.interrupt, List.filter_append, List.map_append]
    rw [← order unit unwritten, List.append_assoc]
    congr 1
    by_cases same : e.1 = unit
    · subst same
      simp
    · simp [same, Function.update_of_ne (Ne.symm same)]

theorem ordered_of_run (lawful : W.InOrder device pending)
    (run : Transition.Run (Client.step (terminals W)) (Writes written) (startTerminals device drivers arg) s) :
    Ordered pending written s := by
  refine run.invariant (Ordered pending written) ?_ fun _ _ _ ordered admitted moves =>
    ordered.step lawful admitted (Client.step_move moves)
  refine ⟨fun p unit writesTo => ?_, fun unit _ => by simp [startTerminals, start, lawful.start]⟩
  simp only [startTerminals, start] at writesTo
  split at writesTo <;> cases writesTo

theorem initSys_free : initSys.fault = none ∧ initSys.cpu = none := by
  have free := initSys_test (fun s => s.fault.isNone && s.cpu.isNone) (by decide +kernel)
  simpa using free

theorem received_typed {t : TermState δ} (unit : TermUnit) :
    t.received unit = (t.typed.filter fun e => e.1 = unit).map Prod.snd := by
  simp [TermState.received, TermState.typed, characters, List.filter_map, List.filter_filter, Function.comp_def,
    Bool.and_comm]

/-- The characters come in before any driver has run. -/
theorem arrivals (lawful : W.InOrder device pending) (drivers : Fin maxTerms ↪ Pid) (arg : Fin maxTerms → TermUnit)
    (written : Set TermUnit) (A : List (TermUnit × UInt8)) : ∃ s : Client (TermState δ) TermTask,
    Transition.Run (Client.step (terminals W)) (Writes written) (startTerminals device drivers arg) s ∧
      s.sys = initSys ∧ s.task = (startTerminals device drivers arg).task ∧ s.shared.given = [] ∧ s.shared.typed = A ∧
      ∀ unit, pending s.shared.device unit = ((A.filter fun e => e.1 = unit).map typed).map Prod.snd := by
  induction A using List.reverseRecOn with
  | nil => exact ⟨_, .refl, rfl, rfl, rfl, rfl, fun unit => congrFun lawful.start unit⟩
  | append_singleton A e ih =>
    obtain ⟨s, run, sys, task, given, arrived, order⟩ := ih
    refine ⟨{ s with shared := (terminals W).event s.shared (typed e) },
      run.next (by rintro p args unit ⟨⟩) (Client.Move.event).step, sys, task, given, ?_, fun unit => ?_⟩
    · rw [← arrived]
      simp [TermState.typed, terminals, typed]
    · simp only [terminals, typed, lawful.interrupt]
      by_cases same : e.1 = unit
      · subst same
        simp [order, typed]
      · simp [order, same, Function.update_of_ne (Ne.symm same)]

/-- A driver is given the next character of its unit, and is preempted. -/
theorem driver_takes (lawful : W.InOrder device pending) {d : TermDriver} {c : UInt8} {rest : List TermStatus}
    (lives : s.sys.fault = none) (free : s.sys.cpu = none) (out : s.sys.proc p = .outside)
    (at_ : s.task p = .waiting d) (first : pending s.shared.device d.unit = ⟨c, .busy⟩ :: rest) :
    ∃ s', Transition.Run (Client.step (terminals W)) (Writes written) s s' ∧ s'.sys = s.sys ∧
      s'.shared.given = s.shared.given ++ [(d.number, d.unit, ⟨c, .busy⟩)] ∧ s'.shared.typed = s.shared.typed ∧
      pending s'.shared.device d.unit = rest ∧ ∀ q, q ≠ p → s'.task q = s.task q := by
  have may : s.sys.mayRun p = true := by simp [Sys.mayRun, lives, free]
  obtain ⟨device', given, order⟩ := lawful.gives s.shared.device d.unit _ rest first
  let after : Client (TermState δ) TermTask := ⟨{ s.sys with cpu := some p },
    s.shared.give d ⟨c, .busy⟩ device', Function.update s.task p (d.receive ⟨c, .busy⟩)⟩
  have goes : s.step (terminals W) (.run p) = some after := by
    have went := (Client.Move.goes (R := terminals W) (s := s) (by rw [at_]; rfl) may out
      (Option.map_eq_some_iff.mpr ⟨_, given, rfl⟩)).step
    rwa [Client.enter_eq (terminals_blocks W _)] at went
  have serving : (terminals W).yields (after.task p) = true := by
    obtain ⟨d', becomes, _⟩ := d.receive_driver ⟨c, .busy⟩
    simp only [after, Function.update_self]
    cases place : d.receive ⟨c, .busy⟩ <;> rw [place] at becomes <;> first | rfl | cases becomes
  have yields := (Client.Move.yields (s := after) serving (by simp [after, Sys.mayRun, lives]) out).step
  refine ⟨_, (Transition.Run.next .refl (by rintro _ _ _ ⟨⟩) goes).next (by rintro _ _ _ ⟨⟩) yields, ?_, rfl, rfl, ?_,
    fun q other => ?_⟩
  · simp only [after]
    rw [← free]
  · simp [after, TermState.give, order]
  · exact Function.update_of_ne other _ _

/-- The drivers all wait for the first terminal. -/
theorem ownDriver_first {guard : Client (TermState δ) TermTask → ClientAct TermCall (TermUnit × TermStatus) → Prop}
    (run : Transition.Run (Client.step (terminals W)) guard (startTerminals device drivers nullArg) s)
    {unit : TermUnit} (own : OwnDriver drivers pending s unit) : unit = 0 := by
  obtain ⟨i, d, serves, rfl, _⟩ := own
  exact ((bound_of_run run).own _ d serves).2

/-- And two characters that come in there can go to two of them. -/
theorem characters_split (lawful : W.InOrder device pending) (drivers : Fin maxTerms ↪ Pid)
    (written : Set TermUnit) (c₁ c₂ : UInt8) (rest : List (TermUnit × UInt8)) :
    ∃ s, Transition.Run (Client.step (terminals W)) (Writes written) (startTerminals device drivers nullArg) s ∧
      s.shared.typed = (0, c₁) :: (0, c₂) :: rest ∧ ¬ OwnDriver drivers pending s 0 := by
  obtain ⟨s₀, run₀, sys₀, task₀, given₀, typed₀, order₀⟩ :=
    arrivals lawful drivers nullArg written ((0, c₁) :: (0, c₂) :: rest)
  obtain ⟨lives, free⟩ := initSys_free
  have first : (s₀.task (drivers 0)) = .waiting ⟨0, 0, []⟩ := by rw [task₀, startTerminals_at]; rfl
  obtain ⟨s₁, run₁, sys₁, given₁, typed₁, order₁, task₁⟩ := driver_takes (s := s₀) lawful (by rw [sys₀, lives])
    (by rw [sys₀, free]) (by rw [sys₀, initSys_outside]) first (by rw [order₀]; rfl)
  rw [sys₀] at sys₁
  have second : (s₁.task (drivers 1)) = .waiting ⟨1, 0, []⟩ := by
    rw [task₁ _ (fun same => absurd (drivers.injective same) (by decide)), task₀, startTerminals_at]
    rfl
  obtain ⟨s₂, run₂, sys₂, given₂, typed₂, order₂, _⟩ := driver_takes (s := s₁) lawful (by rw [sys₁, lives])
    (by rw [sys₁, free]) (by rw [sys₁, initSys_outside]) second (by rw [order₁]; rfl)
  have arrived : s₂.shared.typed = (0, c₁) :: (0, c₂) :: rest := by rw [typed₂, typed₁, typed₀]
  refine ⟨s₂, (run₀.trans run₁).trans run₂, arrived, ?_⟩
  rintro ⟨i, d, _, _, _, order, _⟩
  have lengths := congrArg List.length order
  rw [received_typed, arrived, order₂] at lengths
  have both : (s₂.shared.consumedBy i).length = 2 := by
    simp only [List.length_append, List.length_map, characters] at lengths
    simp [List.filter_map, Function.comp_def, typed] at lengths
    omega
  rw [TermState.consumedBy, given₂, given₁, given₀] at both
  have apart : (1 : Fin maxTerms) ≠ 0 := by decide
  have alone : ([(0, 0, ⟨c₁, .busy⟩), (1, 0, ⟨c₂, .busy⟩)].filter
      fun entry : Fin maxTerms × TermUnit × TermStatus => entry.1 = i).length ≤ 1 := by
    by_cases same : (0 : Fin maxTerms) = i
    · subst same
      simp [apart]
    · rw [List.filter_cons_of_neg (by simpa using same)]
      exact List.length_filter_le ..
  have shorter : (characters (([(0, 0, ⟨c₁, .busy⟩), (1, 0, ⟨c₂, .busy⟩)].filter
      fun entry : Fin maxTerms × TermUnit × TermStatus => entry.1 = i).map fun entry => entry.2.2)).length ≤ 1 := by
    rw [characters, List.length_map]
    exact (List.length_filter_le ..).trans (by rwa [List.length_map])
  exact absurd (both.symm.le.trans shorter) (by decide)

/-- Nobody has the lock of a terminal at first: its `MboxSend` returns at once. -/
theorem initSys_locks (p : Pid) (unit : TermUnit) {sys : Sys} (globals : sys.globals = initSys.globals)
    (lives : sys.fault = none) : ∃ r,
    ((Point.start (.send (mutexMbox unit).val none 0)).exec sys.globals p).2 = .returns r ∧
      (sys.run p (.start (.send (mutexMbox unit).val none 0))).mayRun p = true := by
  have fresh := initSys_mutexMbox unit
  have free : initSys.globals.freeSlotCount ≠ 0 := of_decide_eq_true
    (initSys_test (fun s => s.globals.freeSlotCount ≠ 0) (by decide +kernel))
  have capacity := initSys_sound.capacity _ fresh.active
  have storable : Storable initSys.globals (mutexMbox unit) :=
    ⟨Nat.pos_of_ne_zero free, fresh.allocated, by rw [capacity, fresh.numSlots]; exact one_pos⟩
  have at_ : StorePoint initSys.globals (.start (.send (mutexMbox unit).val none 0)) (mutexMbox unit)
      (bytesAt none 0) (.sendStored (mutexMbox unit)) :=
    .send fresh.active (by simp [Globals.accepts]) (by rw [fresh.numSlots]; decide) free
      (by rw [fresh.count, fresh.numSlots]; exact one_pos)
  have exec := (at_.exec p).trans (storeAndWake_stores storable fresh.consumers _ _)
  rw [← globals] at exec
  refine ⟨⟨0, []⟩, by rw [exec]; rfl, ?_⟩
  rw [Sys.run, exec]
  simp [Sys.after, Sys.settle, returnCode, Sys.enter, Sys.mayRun, lives]

/-- A process that writes to the first terminal can be given a character that
comes in there. -/
theorem writer_takes (lawful : W.InOrder device pending) (drivers : Fin maxTerms ↪ Pid)
    (writes : (0 : TermUnit) ∈ written) (c : UInt8) : ∃ s,
    Transition.Run (Client.step (terminals W)) (Writes written) (startTerminals device drivers nullArg) s ∧
      s.shared.typed = [(0, c)] ∧ s.shared.given = [] ∧ pending s.shared.device 0 = [] := by
  obtain ⟨s₀, run₀, sys₀, task₀, given₀, typed₀, order₀⟩ :=
    arrivals lawful drivers nullArg written [(0, c)]
  -- a process that is no driver
  obtain ⟨p, other⟩ : ∃ p : Pid, ∀ i, drivers i ≠ p := by
    obtain ⟨p, fresh⟩ := Infinite.exists_notMem_finset (Finset.univ.map drivers)
    exact ⟨p, fun i same => fresh (Finset.mem_map.mpr ⟨i, Finset.mem_univ i, same⟩)⟩
  obtain ⟨lives, free⟩ := initSys_free
  have outside : s₀.task p = .outside := by rw [task₀, startTerminals_outside other]
  have out : initSys.proc p = .outside := initSys_outside p
  let w : Write := ⟨s₀.shared.terminals.writes.length, 0, [88]⟩
  let begun := sys_term_write s₀.shared.terminals ⟨some [88], 1, 0⟩
  -- the call begins
  have begins : s₀.step (terminals W) (.invoke p (.write ⟨some [88], 1, 0⟩)) = some ⟨{ s₀.sys with cpu := some p },
      { s₀.shared with terminals := begun.1 }, Function.update s₀.task p (.writing (.locking w))⟩ :=
    Client.step_invoke_eq (R := terminals W) (by rw [outside]; rfl) (by simp [Sys.mayRun, sys₀, lives, free])
      (by rw [sys₀, out]) rfl rfl
  generalize atSys₁ : ({ s₀.sys with cpu := some p } : Sys) = sys₁ at begins
  have globals₁ : sys₁.globals = initSys.globals := by rw [← atSys₁, sys₀]
  have lives₁ : sys₁.fault = none := by rw [← atSys₁, sys₀, lives]
  -- its `MboxSend` returns
  obtain ⟨r, ends, may₂⟩ := initSys_locks p 0 globals₁ lives₁
  have out₂ : (sys₁.run p (.start (.send (mutexMbox 0).val none 0))).proc p = .outside := by
    rcases Sys.run_self sys₁ p (.start (.send (mutexMbox 0).val none 0)) with
      ⟨_, _, out⟩ | ⟨_, other, _⟩ | ⟨_, _, other, _⟩ | ⟨_, other, _⟩
    · exact out
    all_goals rw [ends] at other; cases other
  have locks := Client.step_call_eq (R := terminals W) (α := TermCall) (ε := TermUnit × TermStatus)
    (s := ⟨sys₁, { s₀.shared with terminals := begun.1 }, Function.update s₀.task p (.writing (.locking w))⟩)
    (p := p) (by simp only [Function.update_self]; rfl) (by simp [← atSys₁, Sys.mayRun, sys₀, lives])
    (by rw [← atSys₁, sys₀, out]) ends rfl
  generalize sys₁.run p (.start (.send (mutexMbox 0).val none 0)) = sys₂ at locks may₂ out₂
  have lives₂ : sys₂.fault = none := by
    simp only [Sys.mayRun, Bool.and_eq_true, Option.isNone_iff_eq_none] at may₂
    exact may₂.1
  -- the character is sent, and `waitDevice` gives what has come in
  have puts := Client.step_go_eq (R := terminals W) (α := TermCall) (ε := TermUnit × TermStatus)
    (s := ⟨sys₂, { s₀.shared with terminals := begun.1 }, Function.update s₀.task p (.writing (.putting w 0))⟩)
    (p := p) (by simp only [Function.update_self]; rfl) may₂ out₂ rfl rfl
  obtain ⟨device', given, order⟩ := lawful.gives s₀.shared.device 0 ⟨c, .busy⟩ [] (by rw [order₀]; rfl)
  have takes := Client.step_go_eq (R := terminals W) (α := TermCall) (ε := TermUnit × TermStatus)
    (s := ⟨{ sys₂ with cpu := some p }, { s₀.shared with terminals := begun.1.deviceOutput w 0 },
      Function.update s₀.task p (.writing (.waiting w 0))⟩)
    (p := p) (by simp only [Function.update_self]; rfl) (by simp [Sys.mayRun, lives₂]) out₂
    (Option.map_eq_some_iff.mpr ⟨_, given, rfl⟩) (terminals_blocks W _)
  rw [Function.update_idem] at locks puts takes
  have admits : ∀ s : Client (TermState δ) TermTask, Writes written s (.run p) := by
    rintro _ _ _ _ ⟨⟩
  refine ⟨_, (((run₀.next ?_ begins).next (admits _) locks).next (admits _) puts).next (admits _) takes, typed₀,
    given₀, ?_⟩
  · rintro _ args unit ⟨⟩ checked
    obtain rfl : 0 = unit := Option.some.inj checked
    exact writes
  · simp [order]

/-- A single character has been given to one driver. -/
theorem consumedBy_all {t : TermState δ} (few : (characters (t.given.map fun entry => entry.2.2)).length ≤ 1) :
    ∃ i, t.consumedBy i = characters (t.given.map fun entry => entry.2.2) := by
  have whole : characters (t.given.map fun entry => entry.2.2) =
      (t.given.filter fun entry => entry.2.2.recvStatus = .busy).map fun entry => entry.2.2.recvChar := by
    simp [characters, List.filter_map, Function.comp_def]
  have part : ∀ i, t.consumedBy i = ((t.given.filter fun entry => entry.2.2.recvStatus = .busy).filter
      fun entry => entry.1 = i).map fun entry => entry.2.2.recvChar := by
    intro i
    simp [TermState.consumedBy, characters, List.filter_map, List.filter_filter, Function.comp_def, Bool.and_comm]
  rw [whole, List.length_map] at few
  simp only [whole, part]
  generalize (t.given.filter fun entry => entry.2.2.recvStatus = .busy) = busy at few
  match busy, few with
  | [], _ => exact ⟨0, rfl⟩
  | [entry], _ => exact ⟨entry.1, by simp⟩
  | _ :: _ :: _, few => simp at few

/-- With the `arg` that the drivers are started with, each terminal that
receives has its own driver exactly if no character comes in, or a single one on
the first terminal, to which nobody writes. -/
theorem terminals_have_own_drivers_iff (lawful : W.InOrder device pending) (drivers : Fin maxTerms ↪ Pid)
    (written : Set TermUnit) (A : List (TermUnit × UInt8)) :
    (∀ s, Transition.Run (Client.step (terminals W)) (Writes written) (startTerminals device drivers nullArg) s →
      s.shared.typed = A → ∀ unit, s.shared.received unit ≠ [] → OwnDriver drivers pending s unit) ↔
    A = [] ∨ ∃ c, A = [(0, c)] ∧ 0 ∉ written := by
  constructor
  · intro owned
    have first : ∀ e ∈ A, e.1 = 0 := by
      intro e member
      obtain ⟨s, run, _, _, _, arrived, _⟩ := arrivals lawful drivers nullArg written A
      refine ownDriver_first run (owned s run arrived e.1 ?_)
      rw [received_typed, arrived]
      exact List.ne_nil_of_mem (List.mem_map_of_mem (List.mem_filter.mpr ⟨member, decide_eq_true rfl⟩))
    match A, owned, first with
    | [], _, _ => exact .inl rfl
    | [(u, c)], owned, first =>
      obtain rfl : u = 0 := first _ (List.mem_cons_self ..)
      refine .inr ⟨c, rfl, fun writes => ?_⟩
      obtain ⟨s, run, arrived, given, none⟩ := writer_takes lawful drivers writes c
      obtain ⟨i, d, _, _, _, order, _⟩ := owned s run arrived 0 (by rw [received_typed, arrived]; simp)
      -- no driver has been given the character
      rw [received_typed, arrived, none, TermState.consumedBy, given] at order
      simp [characters] at order
    | (u₁, c₁) :: (u₂, c₂) :: rest, owned, first =>
      obtain rfl : u₁ = 0 := first _ (List.mem_cons_self ..)
      obtain rfl : u₂ = 0 := first (u₂, c₂) (by simp)
      obtain ⟨s, run, arrived, split⟩ := characters_split lawful drivers written c₁ c₂ rest
      refine absurd (owned s run arrived 0 ?_) split
      rw [received_typed, arrived]
      simp
  · rintro (rfl | ⟨c, rfl, unwritten⟩) s run arrived unit received
    · rw [received_typed, arrived] at received
      exact absurd rfl received
    rw [received_typed, arrived] at received
    obtain rfl : unit = 0 := by
      by_contra other
      exact received (by simp [Ne.symm other])
    have bound := bound_of_run run
    have order := (ordered_of_run lawful run).order 0 unwritten
    have all : (s.shared.given.filter fun entry => entry.2.1 = 0) = s.shared.given :=
      List.filter_eq_self.mpr fun entry listed => decide_eq_true (bound.given entry listed)
    rw [all] at order
    -- of the statuses that were given one at most has a character
    have whole := congrArg characters order
    rw [characters_append] at whole
    change _ = s.shared.received 0 at whole
    have few : (characters (s.shared.given.map fun entry => entry.2.2)).length ≤ 1 := by
      have lengths := congrArg List.length whole
      rw [received_typed, arrived] at lengths
      simp at lengths
      omega
    -- the driver that has been given it, or any
    obtain ⟨i, taken⟩ := consumedBy_all few
    obtain ⟨d, serves⟩ := bound.serves i
    exact ⟨i, d, serves, (bound.own _ d serves).2, fun entry listed _ => bound.given entry listed,
      by rw [taken]; exact whole, bound.completed i⟩

end

/-- The statuses of each terminal in a queue of its own. -/
def queues : WaitDevice (TermUnit → List TermStatus) where
  interrupt d unit status := Function.update d unit (d unit ++ [status])
  waitDevice d unit :=
    match d unit with
    | [] => none
    | status :: rest => some (status, Function.update d unit rest)

theorem queues_inOrder : queues.InOrder (fun _ => []) id where
  start := rfl
  interrupt _ _ _ := rfl
  waits d unit none := by
    rw [id] at none
    simp only [queues, none]
  gives d unit status rest first := by
    rw [id] at first
    exact ⟨Function.update d unit rest, by simp only [queues, first], rfl⟩

/-- The ids of the four drivers in a boot with one process before them. -/
def termPids : Fin maxTerms ↪ Pid :=
  ⟨fun i => 3 + i.val, fun i j same => Fin.ext (by simpa using same)⟩

theorem terminals_have_own_drivers_iff_queues :
    (∀ s, Transition.Run (Client.step (terminals queues)) (Writes ∅)
      (startTerminals (fun _ => []) termPids nullArg) s → s.shared.typed = [(0, 97)] →
        ∀ unit, s.shared.received unit ≠ [] → OwnDriver termPids id s unit) ↔
    ([(0, 97)] : List (TermUnit × UInt8)) = [] ∨
      ∃ c, ([(0, 97)] : List (TermUnit × UInt8)) = [(0, c)] ∧ (0 : TermUnit) ∉ (∅ : Set TermUnit) :=
  terminals_have_own_drivers_iff queues_inOrder termPids ∅ [(0, 97)]

/-- A character on the second terminal: no driver waits for it. -/
theorem terminal_without_driver : ∃ s,
    Transition.Run (Client.step (terminals queues)) (Writes ∅) (startTerminals (fun _ => []) termPids nullArg) s ∧
      s.shared.typed = [(1, 97)] ∧ s.shared.received 1 = [97] ∧ ¬ OwnDriver termPids id s 1 := by
  obtain ⟨s, run, _, _, _, arrived, _⟩ :=
    arrivals queues_inOrder termPids nullArg ∅ [(1, 97)]
  refine ⟨s, run, arrived, ?_, fun own => absurd (ownDriver_first run own) (by decide)⟩
  rw [received_typed, arrived]
  rfl

end Phase4a

end UslossKernel
