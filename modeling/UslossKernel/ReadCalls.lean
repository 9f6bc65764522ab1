import UslossKernel.TerminalDrivers

namespace UslossKernel

namespace Phase4a

variable {δ : Type}

/-- The call of `sys_term_read`, if it is one. -/
def TermCall.asRead : Pid × TermCall → Option (Pid × TermArgs)
  | (p, .read args) => some (p, args)
  | (_, .write _) => none

/-- The calls of `sys_term_read` that pass the checks, in their order. -/
def readCalls (calls : List (Pid × TermCall)) : List (Pid × TermArgs) :=
  accepted (calls.filterMap TermCall.asRead)

/-- The process has made this call, for this unit and with this size. -/
def MadeBy (calls : List (Pid × TermCall)) (p : Pid) (unit : TermUnit) (call : ReadCall) : Prop :=
  ∃ args, (readCalls calls)[call.number]? = some (p, args) ∧ args.unit = unit.val ∧
    args.userBufSize = call.userBufSize

/-- The reads that go on, and those that have come to their end, are those of
calls that processes have made, and no call ends twice. -/
structure ReadsRecorded (s : Calling (TermState δ) TermTask TermCall) : Prop where
  begun : s.client.shared.begun = (readCalls s.calls).length
  reading : ∀ p unit call, s.client.task p = .reading unit call → MadeBy s.calls p unit call
  ended : ∀ unit, ∀ r ∈ s.client.shared.reads unit, ∃ p, MadeBy s.calls p unit r.call
  fresh : ∀ p unit call, s.client.task p = .reading unit call →
    ∀ unit', ∀ r ∈ s.client.shared.reads unit', r.call.number ≠ call.number
  once : ∀ unit, ((s.client.shared.reads unit).map fun r => r.call.number).Nodup

theorem copyLine_call (call : ReadCall) (r : Result) : (copyLine call r).call = call := by
  unfold copyLine
  split <;> rfl

theorem MadeBy.mono {calls more : List (Pid × TermCall)} {p : Pid} {unit : TermUnit} {call : ReadCall}
    (made : MadeBy calls p unit call) (grown : readCalls calls <+: readCalls more) : MadeBy more p unit call := by
  obtain ⟨args, at_, rest⟩ := made
  obtain ⟨later, same⟩ := grown
  refine ⟨args, ?_, rest⟩
  rw [← same, List.getElem?_append_left (List.getElem?_eq_some_iff.mp at_).1, at_]

theorem MadeBy.below {calls : List (Pid × TermCall)} {p : Pid} {unit : TermUnit} {call : ReadCall}
    (made : MadeBy calls p unit call) : call.number < (readCalls calls).length := by
  obtain ⟨_, at_, _⟩ := made
  exact (List.getElem?_eq_some_iff.mp at_).1

/-- The number tells which process it was. -/
theorem MadeBy.pid_eq {calls : List (Pid × TermCall)} {p q : Pid} {unit unit' : TermUnit} {call call' : ReadCall}
    (made : MadeBy calls p unit call) (made' : MadeBy calls q unit' call') (same : call.number = call'.number) :
    p = q := by
  obtain ⟨_, at_, _⟩ := made
  obtain ⟨_, at_', _⟩ := made'
  rw [same] at at_
  cases at_.symm.trans at_'
  rfl

section

variable {W : WaitDevice δ} {s s' : Calling (TermState δ) TermTask TermCall} {p : Pid}
  {a : ClientAct TermCall (TermUnit × TermStatus)}

/-- Who comes to another place than in `sys_term_read` leaves the others there. -/
theorem reading_of_update {task : Pid → TermTask} {place : TermTask} (other : ∀ unit call, place ≠ .reading unit call)
    (q : Pid) (unit : TermUnit) (call : ReadCall) (at_ : Function.update task p place q = .reading unit call) :
    q ≠ p ∧ task q = .reading unit call := by
  by_cases own : q = p
  · subst own
    rw [Function.update_self] at at_
    exact absurd at_ (other unit call)
  · rw [Function.update_of_ne own] at at_
    exact ⟨own, at_⟩

/-- No call begins and none ends. -/
theorem ReadsRecorded.elsewhere (recorded : ReadsRecorded s)
    (before : ∀ q unit call, s'.client.task q = .reading unit call → s.client.task q = .reading unit call)
    (begun : s'.client.shared.begun = s.client.shared.begun) (reads : s'.client.shared.reads = s.client.shared.reads)
    (calls : readCalls s'.calls = readCalls s.calls) : ReadsRecorded s' := by
  have grown : readCalls s.calls <+: readCalls s'.calls := by rw [calls]
  refine ⟨by rw [begun, calls]; exact recorded.begun, fun q unit call at_ => ?_, fun unit r member => ?_,
    fun q unit call at_ => ?_, by rw [reads]; exact recorded.once⟩
  · exact (recorded.reading q unit call (before q unit call at_)).mono grown
  · rw [reads] at member
    obtain ⟨q, made⟩ := recorded.ended unit r member
    exact ⟨q, made.mono grown⟩
  · rw [reads]
    exact recorded.fresh q unit call (before q unit call at_)

/-- A call begins. -/
theorem ReadsRecorded.begins (recorded : ReadsRecorded s) {args : TermArgs} {unit : TermUnit}
    (checked : args.check = some unit)
    (task : s'.client.task =
      Function.update s.client.task p (.reading unit ⟨s.client.shared.begun, args.userBufSize⟩))
    (begun : s'.client.shared.begun = s.client.shared.begun + 1)
    (reads : s'.client.shared.reads = s.client.shared.reads)
    (calls : readCalls s'.calls = readCalls s.calls ++ [(p, args)]) : ReadsRecorded s' := by
  have grown : readCalls s.calls <+: readCalls s'.calls := by
    rw [calls]
    exact List.prefix_append ..
  have cases_ : ∀ q unit' call, s'.client.task q = .reading unit' call →
      s.client.task q = .reading unit' call ∨
        q = p ∧ unit' = unit ∧ call = ⟨s.client.shared.begun, args.userBufSize⟩ := by
    intro q unit' call at_
    rw [task] at at_
    by_cases own : q = p
    · subst own
      rw [Function.update_self] at at_
      cases at_
      exact .inr ⟨rfl, rfl, rfl⟩
    · rw [Function.update_of_ne own] at at_
      exact .inl at_
  refine ⟨by rw [begun, calls, recorded.begun]; simp, fun q unit' call at_ => ?_, fun unit' r member => ?_,
    fun q unit' call at_ => ?_, by rw [reads]; exact recorded.once⟩
  · rcases cases_ q unit' call at_ with old | ⟨rfl, rfl, rfl⟩
    · exact (recorded.reading q unit' call old).mono grown
    · refine ⟨args, ?_, (TermArgs.check_eq_some.mp checked).1, rfl⟩
      rw [calls, recorded.begun, List.getElem?_concat_length]
  · rw [reads] at member
    obtain ⟨q, made⟩ := recorded.ended unit' r member
    exact ⟨q, made.mono grown⟩
  · rw [reads]
    rcases cases_ q unit' call at_ with old | ⟨rfl, rfl, rfl⟩
    · exact recorded.fresh q unit' call old
    · intro other r member
      obtain ⟨_, made⟩ := recorded.ended other r member
      have below := made.below
      rw [recorded.begun]
      exact below.ne

/-- A call comes to its end. -/
theorem ReadsRecorded.ends (recorded : ReadsRecorded s) {unit : TermUnit} {call : ReadCall} {r : Result}
    (at_ : s.client.task p = .reading unit call) (task : s'.client.task = Function.update s.client.task p .outside)
    (shared : s'.client.shared = s.client.shared.copied unit (copyLine call r))
    (calls : readCalls s'.calls = readCalls s.calls) : ReadsRecorded s' := by
  have grown : readCalls s.calls <+: readCalls s'.calls := by rw [calls]
  have before : ∀ q unit' call', s'.client.task q = .reading unit' call' →
      q ≠ p ∧ s.client.task q = .reading unit' call' := by
    rw [task]
    exact reading_of_update (by simp)
  -- the reads are those before and this one
  have listed : ∀ unit', ∀ read ∈ s'.client.shared.reads unit', read ∈ s.client.shared.reads unit' ∨
      unit' = unit ∧ read.call = call := by
    intro unit' read member
    rw [shared] at member
    by_cases same : unit' = unit
    · subst same
      rw [TermState.copied_reads, Function.update_self] at member
      rcases List.mem_append.mp member with old | new
      · exact .inl old
      · exact .inr ⟨rfl, by rw [List.mem_singleton.mp new, copyLine_call]⟩
    · rw [TermState.copied_reads, Function.update_of_ne same] at member
      exact .inl member
  have made := recorded.reading p unit call at_
  refine ⟨by rw [shared, calls]; exact recorded.begun, fun q unit' call' there => ?_, fun unit' read member => ?_,
    fun q unit' call' there other read member => ?_, fun unit' => ?_⟩
  · exact (recorded.reading q unit' call' (before q unit' call' there).2).mono grown
  · rcases listed unit' read member with old | ⟨rfl, same⟩
    · obtain ⟨q, made⟩ := recorded.ended unit' read old
      exact ⟨q, made.mono grown⟩
    · rw [same]
      exact ⟨p, made.mono grown⟩
  · obtain ⟨own, there⟩ := before q unit' call' there
    rcases listed other read member with old | ⟨rfl, same⟩
    · exact recorded.fresh q unit' call' there other read old
    · intro equal
      rw [same] at equal
      exact own ((recorded.reading q unit' call' there).pid_eq made equal.symm)
  · have once := recorded.once unit'
    rw [shared]
    by_cases same : unit' = unit
    · subst same
      rw [TermState.copied_reads, Function.update_self, List.map_append, List.map_singleton, copyLine_call]
      refine List.nodup_append.mpr ⟨once, List.nodup_singleton _, fun number member other single => ?_⟩
      obtain ⟨read, listed', rfl⟩ := List.mem_map.mp member
      rw [List.mem_singleton.mp single]
      exact recorded.fresh p unit' call at_ unit' read listed'
    · rw [TermState.copied_reads, Function.update_of_ne same]
      exact once

theorem ReadsRecorded.step (recorded : ReadsRecorded s) (moves : s.step (terminals W) a = some s') :
    ReadsRecorded s' := by
  obtain ⟨moved, calls⟩ := Calling.step_eq_some.mp moves
  have whole : readCalls s'.calls = readCalls s.calls ++ readCalls a.begins := by
    rw [calls, readCalls, List.filterMap_append, accepted, List.filter_append]
    rfl
  by_cases asks : ∃ q args, a = .invoke q (.read args)
  · obtain ⟨q, args, rfl⟩ := asks
    have begun : s'.client.shared = (sys_term_read s.client.shared args).1 ∧
        s'.client.task = Function.update s.client.task q (sys_term_read s.client.shared args).2 := by
      generalize s'.client = client' at moved
      cases Client.step_move moved with
      | invokes _ _ _ invoked =>
        obtain rfl := Option.some.inj invoked
        exact ⟨rfl, rfl⟩
    obtain ⟨shared, task⟩ := begun
    cases checked : args.check with
    | none =>
      rw [sys_term_read, checked] at shared task
      refine recorded.elsewhere ?_ (by rw [shared]) (by rw [shared]) ?_
      · rw [task]
        exact fun q unit call at_ => (reading_of_update (by simp) q unit call at_).2
      · simpa [readCalls, ClientAct.begins, TermCall.asRead, accepted, checked] using whole
    | some unit =>
      rw [sys_term_read, checked] at shared task
      refine recorded.begins checked task (by rw [shared]) (by rw [shared]) ?_
      rw [whole]
      simp [readCalls, ClientAct.begins, TermCall.asRead, accepted, checked]
  · have same : readCalls s'.calls = readCalls s.calls := by
      rw [whole]
      have none : readCalls a.begins = [] := by
        cases a with
        | invoke q call =>
          cases call with
          | read args => exact absurd ⟨q, args, rfl⟩ asks
          | write args => rfl
        | user | run | resume | yield | event => rfl
      rw [none, List.append_nil]
    -- one process comes to another place, not in `sys_term_read`
    have elsewhere : ∀ {q place}, (∀ unit call, place ≠ .reading unit call) →
        s'.client.task = Function.update s.client.task q place → s'.client.shared.begun = s.client.shared.begun →
        s'.client.shared.reads = s.client.shared.reads → ReadsRecorded s' := by
      intro q place other task begun reads
      refine recorded.elsewhere ?_ begun reads same
      rw [task]
      exact fun q unit call at_ => (reading_of_update other q unit call at_).2
    cases work_of_move (Client.step_move moved) with
    | refuses asked | begins asked => exact absurd ⟨_, _, asked⟩ asks
    | stays shared task =>
      exact recorded.elsewhere (by rw [task]; exact fun _ _ _ => id) (by rw [shared]) (by rw [shared]) same
    | arrives shared task =>
      exact recorded.elsewhere (by rw [task]; exact fun _ _ _ => id) (by rw [shared]; rfl) (by rw [shared]; rfl) same
    | @receives _ d status _ _ _ shared task =>
      obtain ⟨_, driver, _⟩ := d.receive_driver status
      exact elsewhere (driver_reading driver) task (by rw [shared]; rfl) (by rw [shared]; rfl)
    | sends _ shared task =>
      exact elsewhere (by simp [TermDriver.sent]) task (by rw [shared]; rfl) (by rw [shared]; rfl)
    | writes _ _ shared task | awaits _ _ shared task =>
      exact elsewhere (ofWriter_reading _) task (by rw [shared]) (by rw [shared])
    | reads at_ shared task => exact recorded.ends at_ task shared same

theorem readsRecorded_of_run {guard : Calling (TermState δ) TermTask TermCall →
    ClientAct TermCall (TermUnit × TermStatus) → Prop} {device : δ} {drivers : Fin maxTerms ↪ Pid}
    {arg : Fin maxTerms → TermUnit}
    (run : Transition.Run (Calling.step (terminals W)) guard (.start (startTerminals device drivers arg)) s) :
    ReadsRecorded s := by
  refine run.invariant ReadsRecorded ?_ fun _ _ _ recorded _ moves => recorded.step moves
  have none : ∀ p unit call, (startTerminals device drivers arg).task p ≠ .reading unit call := by
    intro p unit call at_
    simp only [startTerminals, start] at at_
    split at at_ <;> cases at_
  exact ⟨rfl, fun p unit call at_ => absurd at_ (none p unit call), by rintro unit r ⟨⟩,
    fun p unit call at_ => absurd at_ (none p unit call), fun _ => List.nodup_nil⟩

end

end Phase4a

end UslossKernel
