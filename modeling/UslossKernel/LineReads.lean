import UslossKernel.Library.LineAssembly
import UslossKernel.QueueCalls
import UslossKernel.ReadCalls

namespace UslossKernel

namespace Phase4a

variable {δ : Type}

/-- What `TermDriver` sends of a line: up to its first NUL, and a NUL. -/
def lineMessage (line : Message) : Result :=
  ⟨(text line ++ [0]).length, text line ++ [0]⟩

/-- The line that is in the mailbox while its send has not returned. -/
def TermTask.inFlight : TermTask → Proc → List Message
  | .sending d, .unblocking _ => [d.currLine]
  | _, _ => []

/-- The lines of the driver that have got through to its mailbox. -/
def keptLines (drivers : Fin maxTerms ↪ Pid) (i : Fin maxTerms) (s : Client (TermState δ) TermTask) : List Message :=
  ((s.shared.completed i).filter Line.kept).map Line.currLine ++
    (s.task (drivers i)).inFlight (s.sys.proc (drivers i))

/-- The read has copied as much of the line as fits, and said how much. -/
def Read.Delivers (line : Message) (r : Read) : Prop :=
  r.userBuf = line.take r.call.userBufSize.toNat ∧ r.ret = ⟨some (min line.length r.call.userBufSize), 0⟩

/-- The lines of a driver with these lines behind it, and what it has of the next. -/
def TermTask.assembly (lines : List Message) : TermTask → LineAssembly.Assembly UInt8
  | .waiting d => ⟨lines, d.currLine⟩
  | .sending d => ⟨lines ++ [d.currLine], []⟩
  | .outside | .reading .. | .writing _ => ⟨lines, []⟩

/-- The lines of the characters that the driver has taken. -/
def assembled (t : TermState δ) (i : Fin maxTerms) : LineAssembly.Assembly UInt8 :=
  LineAssembly.assemble newline maxLine (t.consumedBy i)

/-- The driver has cut what it has taken into lines. -/
def Assembles (drivers : Fin maxTerms ↪ Pid) (i : Fin maxTerms) (shared : TermState δ) (task : Pid → TermTask) :
    Prop :=
  assembled shared i = (task (drivers i)).assembly ((shared.completed i).map Line.currLine)

/-- Nothing happens to the mailbox of the driver from outside; its sends find a
slot where they find room; the part of a line that is read holds no NUL; and a
reader that was woken for a line finds one. -/
structure Orderly (drivers : Fin maxTerms ↪ Pid) (arg : Fin maxTerms → TermUnit) (i : Fin maxTerms)
    (s : Client (TermState δ) TermTask) (a : ClientAct TermCall (TermUnit × TermStatus)) : Prop where
  apart : Client.Apart (lineReadyMbox (arg i)) s a
  stocked : ∀ d, s.task (drivers i) = .sending d → a = .run (drivers i) →
    (s.sys.globals.mailboxSlotQueues (lineReadyMbox (arg i))).count < maxLinesBuffered →
      s.sys.globals.freeSlotCount ≠ 0
  legible : ∀ p call line, s.task p = .reading (arg i) call → a = .run p ∨ a = .resume p →
    (keptLines drivers i s)[(s.shared.reads (arg i)).length]? = some line → 0 ∉ line.take call.userBufSize.toNat
  found : ∀ p call w, s.task p = .reading (arg i) call → s.sys.proc p = .woken w → a = .resume p →
    (s.sys.globals.mailboxSlotQueues (lineReadyMbox (arg i))).count ≠ 0

/-- What holds of the mailbox of a driver that has a unit of its own. -/
structure LineBox (W : WaitDevice δ) (drivers : Fin maxTerms ↪ Pid) (arg : Fin maxTerms → TermUnit) (i : Fin maxTerms)
    (s : Client (TermState δ) TermTask) : Prop where
  keeps : s.Keeps (terminals W) (lineReadyMbox (arg i))
  numSlots : (s.sys.globals.mailboxes (lineReadyMbox (arg i))).numSlots = maxLinesBuffered
  slotSize : (s.sys.globals.mailboxes (lineReadyMbox (arg i))).slotSize = maxLine + 1
  producers : s.sys.globals.blockedProducers (lineReadyMbox (arg i)) = []
  taking : ∀ p call, s.task p = .reading (arg i) call → ∀ k, s.sys.proc p ≠ .unblocking k
  buffered : ∃ read rest, keptLines drivers i s = read ++ rest ∧
    List.Forall₂ Read.Delivers read (s.shared.reads (arg i)) ∧
    s.sys.globals.queued (lineReadyMbox (arg i)) = rest.map lineMessage

theorem text_cons_zero (rest : Message) : text (0 :: rest) = [] := rfl

theorem text_cons {c : UInt8} (char : c ≠ 0) (rest : Message) : text (c :: rest) = c :: text rest :=
  List.takeWhile_cons_of_pos (decide_eq_true char)

theorem text_length_le (line : Message) : (text line).length ≤ line.length :=
  (List.takeWhile_sublist _).length_le

/-- What comes after a NUL does not matter. -/
theorem text_append_zero (line rest : Message) : text (line ++ 0 :: rest) = text line := by
  induction line with
  | nil => rfl
  | cons c line ih =>
    rw [List.cons_append]
    by_cases zero : c = 0
    · rw [zero, text_cons_zero, text_cons_zero]
    · rw [text_cons zero, text_cons zero, ih]

theorem text_terminated (line : Message) : text (line ++ [0]) = text line :=
  text_append_zero line []

theorem text_text (line : Message) : text (text line) = text line := by
  induction line with
  | nil => rfl
  | cons c rest ih =>
    by_cases zero : c = 0
    · rw [zero, text_cons_zero]
      rfl
    · rw [text_cons zero, text_cons zero, ih]

theorem take_terminated (line : Message) : (line ++ [0]).take ((text line).length + 1) = text line ++ [0] := by
  induction line with
  | nil => rfl
  | cons c rest ih =>
    rw [List.cons_append]
    by_cases zero : c = 0
    · rw [zero, text_cons_zero]
      rfl
    · rw [text_cons zero, List.length_cons, List.take_succ_cons, ih, List.cons_append]

/-- Up to its first NUL nothing is lost. -/
theorem text_take {line : Message} {n : Nat} (legible : 0 ∉ line.take n) :
    (text line).take n = line.take n ∧ min (text line).length n = min line.length n := by
  induction line generalizing n with
  | nil => exact ⟨rfl, rfl⟩
  | cons c rest ih =>
    cases n with
    | zero => simp
    | succ n =>
      rw [List.take_succ_cons, List.mem_cons, not_or] at legible
      obtain ⟨first, legible⟩ := legible
      obtain ⟨taken, length⟩ := ih legible
      rw [text_cons (Ne.symm first), List.take_succ_cons, List.take_succ_cons, taken, List.length_cons,
        List.length_cons]
      exact ⟨rfl, by omega⟩

/-- What a read then gives. -/
theorem copyLine_lineMessage {call : ReadCall} {line : Message} (legible : 0 ∉ line.take call.userBufSize.toNat) :
    copyLine call (lineMessage line) =
      ⟨call, line.take call.userBufSize.toNat, ⟨some (min line.length call.userBufSize), 0⟩⟩ := by
  obtain ⟨taken, length⟩ := text_take legible
  have bound := text_length_le line
  have len : strlen (text line ++ [0]) = (text line).length := by rw [strlen, text_terminated, text_text]
  have copied : ∀ n, n ≤ (text line).length → (text line ++ [0]).take n = (text line).take n := fun n short =>
    List.take_append_of_le_length short
  have positive : ¬ (lineMessage line).ret < 0 := not_lt.mpr (Int.natCast_nonneg _)
  rw [copyLine, if_neg positive]
  simp only [lineMessage, len]
  split
  · rename_i smaller
    simp only [copied _ (by omega : call.userBufSize.toNat ≤ (text line).length), taken, Read.mk.injEq,
      Sysreturn.mk.injEq, Option.some.injEq, true_and, and_true]
    omega
  · rename_i larger
    rw [Int.toNat_natCast, copied _ le_rfl, List.take_length]
    have whole : (text line).take call.userBufSize.toNat = text line := List.take_of_length_le (by omega)
    rw [whole] at taken
    simp only [Read.mk.injEq, Sysreturn.mk.injEq, Option.some.injEq, true_and, and_true]
    exact ⟨taken, by omega⟩

section

variable {W : WaitDevice δ} {device : δ} {drivers : Fin maxTerms ↪ Pid} {arg : Fin maxTerms → TermUnit}
  {i : Fin maxTerms} {s s' : Client (TermState δ) TermTask} {p : Pid}

/-- A driver is in none of the calls of the others. -/
theorem Bound.driver_ne (bound : Bound drivers arg s.shared s.task) (none : (s.task p).driver = none) :
    drivers i ≠ p := by
  rintro rfl
  obtain ⟨d, serves⟩ := bound.serves i
  rw [none] at serves
  cases serves

theorem Bound.other_driver (bound : Bound drivers arg s.shared s.task) {d : TermDriver}
    (at_ : (s.task p).driver = some d) (other : d.number ≠ i) : drivers i ≠ p := by
  intro same
  exact other (drivers.injective ((bound.own p d at_).1.trans same.symm))

theorem consumedBy_give (t : TermState δ) (d : TermDriver) (status : TermStatus) (device : δ) (i : Fin maxTerms) :
    (t.give d status device).consumedBy i =
      t.consumedBy i ++ if d.number = i then characters [status] else [] := by
  rw [TermState.consumedBy, TermState.give, List.filter_append, List.map_append, characters_append,
    ← TermState.consumedBy]
  congr 1
  split
  · rename_i own
    simp [own]
  · rename_i other
    simp [other, characters]

/-- The loop of `TermDriver` cuts a text into lines as it comes in. -/
theorem assembles_receive {t : TermState δ} {d : TermDriver} {lines : List Message} {status : TermStatus}
    (before : assembled t d.number = ⟨lines, d.currLine⟩) :
    assembled (t.give d status device) d.number = (d.receive status).assembly lines := by
  rw [assembled, consumedBy_give, if_pos rfl]
  rw [assembled] at before
  unfold TermDriver.receive
  by_cases busy : status.recvStatus = .busy
  · rw [if_pos busy]
    have single : characters [status] = [status.recvChar] := by simp [characters, busy]
    rw [single, LineAssembly.assemble_concat, before]
    dsimp only
    by_cases ends : status.recvChar = newline ∨ (d.currLine ++ [status.recvChar]).length = maxLine
    · rw [LineAssembly.push_ends ends, if_pos ends]
      rfl
    · rw [LineAssembly.push_goesOn ends, if_neg ends]
      rfl
  · have nothing : characters [status] = [] := by simp [characters, busy]
    rw [if_neg busy, nothing, List.append_nil, before]
    rfl

theorem assembles_start :
    Assembles drivers i (startTerminals device drivers arg).shared (startTerminals device drivers arg).task := by
  rw [Assembles, startTerminals_at]
  rfl

theorem assembles_work (assembles : Assembles drivers i s.shared s.task) (bound : Bound drivers arg s.shared s.task)
    {a : ClientAct TermCall (TermUnit × TermStatus)} {shared : TermState δ} {task : Pid → TermTask}
    (work : Work W s a shared task) : Assembles drivers i shared task := by
  -- the driver is not the process that moves
  have elsewhere : ∀ {q place} {t : TermState δ}, drivers i ≠ q → t.consumedBy i = s.shared.consumedBy i →
      t.completed i = s.shared.completed i → Assembles drivers i t (Function.update s.task q place) := by
    intro q place t other consumed completed
    rw [Assembles, assembled, consumed, completed, Function.update_of_ne other]
    exact assembles
  cases work with
  | stays shared task | arrives shared task =>
    subst shared task
    exact assembles
  | refuses _ _ driver shared task | begins _ _ driver shared task | writes driver _ shared task =>
    subst shared task
    exact elsewhere (bound.driver_ne driver) rfl rfl
  | awaits at_ _ shared task | reads at_ shared task =>
    subst shared task
    exact elsewhere (bound.driver_ne (by rw [at_]; rfl)) rfl rfl
  | @sends p d r at_ shared task =>
    subst shared task
    by_cases own : d.number = i
    · subst own
      obtain rfl : drivers d.number = p := (bound.own p d (by rw [at_]; rfl)).1
      rw [Assembles, at_] at assembles
      rw [Assembles, Function.update_self]
      change assembled s.shared d.number = _
      rw [assembles]
      simp [TermDriver.sent, TermTask.assembly]
    · refine elsewhere (bound.other_driver (by rw [at_]; rfl) own) rfl ?_
      exact Function.update_of_ne (Ne.symm own) _ _
  | @receives p d status device at_ _ shared task =>
    subst shared task
    by_cases own : d.number = i
    · subst own
      obtain rfl : drivers d.number = p := (bound.own p d (by rw [at_]; rfl)).1
      rw [Assembles, at_] at assembles
      rw [Assembles, Function.update_self]
      exact assembles_receive assembles
    · refine elsewhere (bound.other_driver (by rw [at_]; rfl) own) ?_ rfl
      rw [consumedBy_give, if_neg own, List.append_nil]

theorem inFlight_wake (place : TermTask) (proc : Proc) : place.inFlight proc.wake = place.inFlight proc := by
  cases place <;> cases proc <;> rfl

theorem inFlight_none {place : TermTask} {proc : Proc} (away : ∀ k, proc ≠ .unblocking k) :
    place.inFlight proc = [] := by
  cases place <;> cases proc <;> first | rfl | exact absurd rfl (away _)

theorem keptLines_of_procs (tasks : s'.task (drivers i) = s.task (drivers i))
    (procs : s'.sys.proc (drivers i) = s.sys.proc (drivers i) ∨
      s'.sys.proc (drivers i) = (s.sys.proc (drivers i)).wake)
    (completed : s'.shared.completed i = s.shared.completed i) : keptLines drivers i s' = keptLines drivers i s := by
  rw [keptLines, keptLines, tasks, completed]
  rcases procs with same | woken
  · rw [same]
  · rw [woken, inFlight_wake]

theorem LineBox.after (box : LineBox W drivers arg i s) (keeps : s'.Keeps (terminals W) (lineReadyMbox (arg i)))
    (numSlots : (s'.sys.globals.mailboxes (lineReadyMbox (arg i))).numSlots = maxLinesBuffered)
    (slotSize : (s'.sys.globals.mailboxes (lineReadyMbox (arg i))).slotSize = maxLine + 1)
    (producers : s'.sys.globals.blockedProducers (lineReadyMbox (arg i)) = [])
    (tasks : ∀ q, q ≠ p → s'.task q = s.task q)
    (procs : ∀ q, q ≠ p → s'.sys.proc q = s.sys.proc q ∨ s'.sys.proc q = (s.sys.proc q).wake)
    (own : ∀ call, s'.task p = .reading (arg i) call → ∀ k, s'.sys.proc p ≠ .unblocking k)
    (buffered : ∃ read rest, keptLines drivers i s' = read ++ rest ∧
      List.Forall₂ Read.Delivers read (s'.shared.reads (arg i)) ∧
      s'.sys.globals.queued (lineReadyMbox (arg i)) = rest.map lineMessage) : LineBox W drivers arg i s' where
  keeps := keeps
  numSlots := numSlots
  slotSize := slotSize
  producers := producers
  taking q call at_ k := by
    by_cases self : q = p
    · subst self
      exact own call at_ k
    · rw [tasks q self] at at_
      rcases procs q self with same | woken
      · rw [same]
        exact box.taking q call at_ k
      · intro inside
        rw [woken] at inside
        refine box.taking q call at_ k ?_
        cases before : s.sys.proc q <;> rw [before] at inside <;> cases inside
        rfl
  buffered := buffered

/-- A step that leaves the mailbox alone. -/
theorem LineBox.frame (box : LineBox W drivers arg i s) (keeps : s'.Keeps (terminals W) (lineReadyMbox (arg i)))
    (same : s.sys.globals.SameBox (lineReadyMbox (arg i)) s'.sys.globals)
    (tasks : ∀ q, q ≠ p → s'.task q = s.task q)
    (procs : ∀ q, q ≠ p → s'.sys.proc q = s.sys.proc q ∨ s'.sys.proc q = (s.sys.proc q).wake)
    (own : ∀ call, s'.task p = .reading (arg i) call → ∀ k, s'.sys.proc p ≠ .unblocking k)
    (kept : keptLines drivers i s' = keptLines drivers i s)
    (reads : s'.shared.reads (arg i) = s.shared.reads (arg i)) : LineBox W drivers arg i s' :=
  box.after keeps (by rw [same.mbox, box.numSlots]) (by rw [same.mbox, box.slotSize])
    (by rw [same.producers, box.producers]) tasks procs own (by rw [kept, reads, same.queued]; exact box.buffered)

/-- A process comes to another place outside the mailbox code. -/
theorem LineBox.enters (box : LineBox W drivers arg i s) (out : s.sys.proc p = .outside)
    {next : TermState δ × TermTask} (completed : next.1.completed i = s.shared.completed i)
    (reads : next.1.reads = s.shared.reads) :
    LineBox W drivers arg i (Client.enter (terminals W) { s with sys.cpu := some p } p next) := by
  have keeps : (Client.enter (terminals W) { s with sys.cpu := some p } p next).Keeps (terminals W)
      (lineReadyMbox (arg i)) := box.keeps.enter next rfl out fun _ _ => .inl rfl
  have sys := Client.enter_sys { s with sys.cpu := some p } p (terminals_blocks W next.2)
  refine box.frame (p := p) keeps ?_ (fun q other => Function.update_of_ne other _ _) (fun q _ => .inl (by rw [sys]))
    ?_ ?_ (by rw [Client.enter_shared, reads])
  · rw [sys]
    exact .refl _ _
  · intro _ _ k inside
    rw [sys] at inside
    cases out.symm.trans inside
  · rw [keptLines, keptLines, Client.enter_shared, completed, sys, Client.enter_task]
    by_cases self : drivers i = p
    · rw [self, inFlight_none (by simp [out]), inFlight_none (by simp [out])]
    · rw [Function.update_of_ne self]

theorem unreleasing_terminals (m : MboxId) : Client.Unreleasing (terminals W) m := by
  intro place c next at_
  cases place with
  | outside | waiting => cases at_
  | sending | reading => cases at_; simp [lineSend]
  | writing place =>
    obtain ⟨⟨unit, rfl | rfl⟩, _⟩ := writing_call at_ <;> simp

theorem bytesAt_line (line : Message) :
    (lineMessage line).buf = bytesAt (some (line ++ [0])) ((strlen (line ++ [0]) + 1 : Nat) : Int).toNat := by
  have bound := text_length_le line
  rw [Int.toNat_natCast, strlen, text_terminated, bytesAt_take _ (by simpa using bound), take_terminated]
  rfl

theorem lineReadyMbox_injective {unit unit' : TermUnit} (same : lineReadyMbox unit = lineReadyMbox unit') :
    unit = unit' := by
  have value := congrArg Fin.val same
  simp only [lineReadyMbox] at value
  exact Fin.ext (by omega)

theorem addresses_lineReadyMbox {unit unit' : TermUnit} (other : unit' ≠ unit) (line : Message) (buffer : Buffer) :
    (lineSend unit' line).fn.addresses (lineReadyMbox unit) = false ∧
      (Call.recv (lineReadyMbox unit').val buffer).fn.addresses (lineReadyMbox unit) = false := by
  have apart : ((lineReadyMbox unit').val : Int) ≠ (lineReadyMbox unit).val := by
    intro same
    exact other (lineReadyMbox_injective (Fin.ext (by exact_mod_cast same)))
  exact ⟨decide_eq_false apart, decide_eq_false apart⟩

/-- The lines that are sent are short enough for a slot. -/
theorem Assembles.short (assembles : Assembles drivers i s.shared s.task) {line : Message}
    (member : line ∈ ((s.task (drivers i)).assembly ((s.shared.completed i).map Line.currLine)).lines) :
    line.length ≤ maxLine := by
  rw [← assembles] at member
  exact (LineAssembly.assemble_lines (by decide) _ line member).short

theorem Assembles.kept_short (assembles : Assembles drivers i s.shared s.task) {line : Message}
    (member : line ∈ keptLines drivers i s) : line.length ≤ maxLine := by
  refine assembles.short ?_
  rw [keptLines, List.mem_append, List.mem_map] at member
  rcases member with ⟨sent, member, rfl⟩ | flying
  · have listed : sent.currLine ∈ (s.shared.completed i).map Line.currLine :=
      List.mem_map_of_mem (List.mem_of_mem_filter member)
    cases s.task (drivers i) with
    | sending => exact List.mem_append_left _ listed
    | outside | waiting | reading | writing => exact listed
  · cases at_ : s.task (drivers i) with
    | outside | waiting | reading | writing =>
      rw [at_] at flying
      cases flying
    | sending d =>
      rw [at_] at flying
      cases inside : s.sys.proc (drivers i) with
      | unblocking =>
        rw [inside] at flying
        exact List.mem_append_right _ flying
      | outside | blocked | woken | asleep =>
        rw [inside] at flying
        cases flying

section

variable (box : LineBox W drivers arg i s) {pt : Point} {c : Call}
  {next : Result → TermState δ → TermState δ × TermTask}
  (here : (s.sys.proc p).At pt) (place : (terminals W).op (s.task p) = .call c next) (runs : c.Runs pt)
include box

/-- A line that does not get through has found no slot or no room. -/
theorem LineBox.unsent {line : Message} (short : line.length ≤ maxLine)
    (refused : ¬ (lineSend (arg i) line).Admitted s.sys.globals) :
    s.sys.globals.freeSlotCount = 0 ∨
      maxLinesBuffered ≤ (s.sys.globals.mailboxSlotQueues (lineReadyMbox (arg i))).count := by
  by_contra supplied
  simp only [not_or, not_le] at supplied
  have bound := text_length_le line
  have size : strlen (line ++ [0]) + 1 ≤ maxLine + 1 := by
    rw [strlen, text_terminated]
    omega
  have accepted : s.sys.globals.accepts (lineReadyMbox (arg i)) (some (line ++ [0]))
      (strlen (line ++ [0]) + 1 : Nat) = true := by
    simp only [Globals.accepts, box.slotSize, Option.isNone_some, Bool.and_false, Bool.not_false, Bool.and_true,
      Bool.not_eq_true', Bool.or_eq_false_iff, decide_eq_false_iff_not, not_lt]
    exact ⟨Int.natCast_nonneg _, by exact_mod_cast size⟩
  exact refused ⟨_, Globals.activeMbox_eq_some.mpr ⟨rfl, box.keeps.active⟩, accepted, supplied.1,
    by rw [box.numSlots]; exact supplied.2⟩

theorem LineBox.slotted : (s.sys.globals.mailboxes (lineReadyMbox (arg i))).numSlots ≠ 0 := by
  rw [box.numSlots]
  decide

include here

theorem LineBox.sending {line : Message} (runs : (lineSend (arg i) line).Runs pt) :
    Sending s.sys.globals (lineReadyMbox (arg i)) (lineSend (arg i) line) (lineMessage line).buf pt
      (pt.exec s.sys.globals p) :=
  (Point.exec_path s.sys.globals p pt).sending box.keeps.sound box.keeps.active box.slotted here (box.keeps.fits p)
    runs (.condSend (bytesAt_line line))

include place runs

/-- `TermDriver` in its `MboxCondSend`. -/
theorem LineBox.sends (bound : Bound drivers arg s.shared s.task) {d : TermDriver} (task : s.task p = .sending d)
    (number : d.number = i) : LineBox W drivers arg i (s.advance (terminals W) p pt next) := by
  have keeps := box.keeps.advance (unreleasing_terminals _) place here runs
  have numSlots := ((s.sys.run_transfer p pt).status box.keeps.active
    ((unreleasing_terminals _).point place runs)).2
  have advanced := Client.advanced (R := terminals W) s p pt next
  have tasks : ∀ q, q ≠ p → (s.advance (terminals W) p pt next).task q = s.task q := fun q other =>
    Client.advance_task_of_ne s other pt next
  have procs : ∀ q, q ≠ p → (s.advance (terminals W) p pt next).sys.proc q = s.sys.proc q ∨
      (s.advance (terminals W) p pt next).sys.proc q = (s.sys.proc q).wake := Client.advance_other
  have path := Point.exec_path s.sys.globals p pt
  obtain ⟨rfl, unit⟩ := bound.own p d (by rw [task]; rfl)
  rw [← Client.advance_globals (R := terminals W) s _ pt next, box.numSlots] at numSlots
  obtain ⟨number', unit', line⟩ := d
  dsimp only at number unit
  subst number unit
  rw [task] at place
  cases place
  have table := path.table box.slotted here (box.keeps.fits _) (.inr (.inl runs.fn))
  obtain ⟨producers, _⟩ := path.unproduced (.inl runs.fn) box.producers
  have sending := box.sending here runs
  have waits := fun w => path.waits_blocks runs (w := w)
  obtain ⟨read, rest, kept, delivered, queued⟩ := box.buffered
  rw [keptLines, task] at kept
  -- nothing is in flight before the line is stored
  have before : (∀ k, pt ≠ .afterUnblock k) →
      ((s.shared.completed number').filter Line.kept).map Line.currLine = read ++ rest := by
    intro awake
    rw [inFlight_none, List.append_nil] at kept
    · exact kept
    · rintro k inside
      rw [inside] at here
      cases here
      exact awake k rfl
  -- after its send the driver waits again
  have ended : ∀ {s' : Client (TermState δ) TermTask} (r : Result),
      s'.shared = (TermDriver.sent ⟨number', arg number', line⟩ r s.shared).1 →
      s'.task (drivers number') = .waiting ⟨number', arg number', []⟩ →
      keptLines drivers number' s' = ((s.shared.completed number').filter Line.kept).map Line.currLine ++
        (if 0 ≤ r.ret then [line] else []) := by
    intro s' r shared task'
    rw [keptLines, shared, task', TermDriver.sent]
    simp only [Function.update_self, List.filter_append, List.map_append, TermTask.inFlight, List.append_nil]
    congr 1
    split <;> simp_all
  generalize s.advance (terminals W) (drivers number') pt _ = s' at *
  generalize pt.exec s.sys.globals (drivers number') = seg at *
  cases sending with
  | @refused code start refused negative =>
    cases advanced with
    | returns globals shared task' _ =>
      refine box.after keeps numSlots (by rw [globals, box.slotSize]) (by rw [globals, box.producers]) tasks procs
        (fun _ at_ => by rw [task'] at at_; cases at_) ⟨read, rest, ?_, ?_, by rw [globals, queued]⟩
      · rw [ended _ shared task', if_neg (not_le.mpr negative), List.append_nil]
        exact before (by simp [start])
      · rw [shared]
        exact delivered
  | waits => exact absurd (waits _ rfl) Call.condSend_waits
  | @stored g o queued' _ awake ends =>
    have appended : g.queued (lineReadyMbox (arg number')) = (rest ++ [line]).map lineMessage := by
      rw [queued', queued, List.map_append]
      rfl
    rcases ends with rfl | ⟨_, pid, k, rfl⟩
    · cases advanced with
      | returns globals shared task' _ =>
        refine box.after keeps numSlots (by rw [globals, table, box.slotSize]) (by rw [globals, producers]) tasks procs
          (fun _ at_ => by rw [task'] at at_; cases at_) ⟨read, rest ++ [line], ?_, ?_, by rw [globals, appended]⟩
        · rw [ended _ shared task', if_pos le_rfl, before awake, List.append_assoc]
        · rw [shared]
          exact delivered
    · cases advanced with
      | unblocks globals shared task' proc =>
        refine box.after keeps numSlots (by rw [globals, table, box.slotSize]) (by rw [globals, producers]) tasks procs
          (fun _ at_ => by rw [task', task] at at_; cases at_)
          ⟨read, rest ++ [line], ?_, ?_, by rw [globals, appended]⟩
        · rw [keptLines, shared, task', task, proc, before awake, ← List.append_assoc]
          rfl
        · rw [shared]
          exact delivered
  | @returned k at_ =>
    subst at_
    rw [here.unblocking_eq] at kept
    cases advanced with
    | returns globals shared task' _ =>
      refine box.after keeps numSlots (by rw [globals, box.slotSize]) (by rw [globals, box.producers]) tasks procs
        (fun _ at_ => by rw [task'] at at_; cases at_) ⟨read, rest, ?_, ?_, by rw [globals, queued]⟩
      · rw [ended _ shared task', if_pos le_rfl]
        exact kept
      · rw [shared]
        exact delivered
  | faults =>
    cases advanced with
    | faults globals shared task' proc =>
      refine box.after keeps numSlots (by rw [globals, box.slotSize]) (by rw [globals, box.producers]) tasks procs
        (fun _ at_ => by rw [task', task] at at_; cases at_) ⟨read, rest, ?_, ?_, by rw [globals, queued]⟩
      · rw [keptLines, shared, task', task, proc]
        exact kept
      · rw [shared]
        exact delivered

/-- `sys_term_read` in its `MboxRecv`. -/
theorem LineBox.receives (bound : Bound drivers arg s.shared s.task) (assembles : Assembles drivers i s.shared s.task)
    {call : ReadCall} (task : s.task p = .reading (arg i) call)
    (legible : ∀ line, (keptLines drivers i s)[(s.shared.reads (arg i)).length]? = some line →
      0 ∉ line.take call.userBufSize.toNat)
    (found : ∀ w, pt = .afterBlock w → (s.sys.globals.mailboxSlotQueues (lineReadyMbox (arg i))).count ≠ 0) :
    LineBox W drivers arg i (s.advance (terminals W) p pt next) := by
  have keeps := box.keeps.advance (unreleasing_terminals _) place here runs
  have numSlots := ((s.sys.run_transfer p pt).status box.keeps.active ((unreleasing_terminals _).point place runs)).2
  have advanced := Client.advanced (R := terminals W) s p pt next
  have tasks : ∀ q, q ≠ p → (s.advance (terminals W) p pt next).task q = s.task q := fun q other =>
    Client.advance_task_of_ne s other pt next
  have procs : ∀ q, q ≠ p → (s.advance (terminals W) p pt next).sys.proc q = s.sys.proc q ∨
      (s.advance (terminals W) p pt next).sys.proc q = (s.sys.proc q).wake := Client.advance_other
  have path := Point.exec_path s.sys.globals p pt
  have other : drivers i ≠ p := bound.driver_ne (by rw [task]; rfl)
  have awake : ∀ k, pt ≠ .afterUnblock k := by
    rintro k rfl
    exact box.taking p call task k here.unblocking_eq
  rw [← Client.advance_globals (R := terminals W) s _ pt next, box.numSlots] at numSlots
  have at_ := task
  rw [task] at place
  cases place
  have slotSize := path.slotSize runs.fn
  rw [box.slotSize] at slotSize
  obtain ⟨producers, alone⟩ := path.unproduced (.inr runs.fn) box.producers
  have alone := alone runs.fn
  have taking := path.taking box.keeps.sound box.keeps.active box.slotted here (box.keeps.fits _) runs .recv
  obtain ⟨read, rest, kept, delivered, queued⟩ := box.buffered
  have count : (s.sys.globals.mailboxSlotQueues (lineReadyMbox (arg i))).count = rest.length := by
    rw [← Globals.queued_length box.keeps.sound box.keeps.active, queued, List.length_map]
  have still : ∀ {s' : Client (TermState δ) TermTask}, s'.task (drivers i) = s.task (drivers i) →
      (s'.sys.proc (drivers i) = s.sys.proc (drivers i) ∨ s'.sys.proc (drivers i) = (s.sys.proc (drivers i)).wake) →
      s'.shared.completed i = s.shared.completed i → keptLines drivers i s' = read ++ rest :=
    fun tasks procs completed => (keptLines_of_procs tasks procs completed).trans kept
  -- the oldest message is the oldest line that was not read
  have oldest : ∀ {r others}, s.sys.globals.queued (lineReadyMbox (arg i)) = r :: others →
      ∃ line rest', rest = line :: rest' ∧ r = lineMessage line ∧ others = rest'.map lineMessage := by
    intro r others first
    rw [queued] at first
    obtain ⟨line, rest', rfl, same, others⟩ := List.map_eq_cons_iff.mp first
    exact ⟨line, rest', rfl, same.symm, others.symm⟩
  generalize s.advance (terminals W) p pt _ = s' at *
  generalize pt.exec s.sys.globals p = seg at *
  have kept' : s'.shared.completed i = s.shared.completed i → keptLines drivers i s' = read ++ rest :=
    still (tasks _ other) (procs _ other)
  cases taking with
  | refused _ refused =>
    exact absurd ⟨_, Globals.activeMbox_eq_some.mpr ⟨rfl, box.keeps.active⟩, Int.natCast_nonneg _⟩ refused
  | waits start same nothing =>
    cases advanced with
    | blocks globals shared task' proc =>
      refine box.after keeps numSlots (by rw [globals, slotSize]) (by rw [globals, producers]) tasks procs
        (fun _ _ k inside => by rw [proc] at inside; cases inside)
        ⟨read, rest, kept' (by rw [shared]), by rw [shared]; exact delivered, by rw [globals, same, queued]⟩
  | missed back _ nothing =>
    refine absurd ?_ (found _ back)
    rw [count]
    rw [queued, List.map_eq_nil_iff] at nothing
    rw [nothing, List.length_nil]
  | @rejected g r first small =>
    obtain ⟨line, rest', rfl, rfl, _⟩ := oldest first
    have bound := text_length_le line
    have short : line.length ≤ maxLine := assembles.kept_short (by rw [kept]; simp)
    simp only [lineMessage, List.length_append, List.length_singleton] at small
    omega
  | @taken g r o first _ _ ends =>
    obtain ⟨line, rest', rfl, rfl, queued'⟩ := oldest first
    have length := delivered.length_eq
    have copies := copyLine_lineMessage (legible line (by rw [kept, ← length]; simp))
    rcases ends with rfl | ⟨pid, k, rfl, _⟩
    · cases advanced with
      | returns globals shared task' proc =>
        refine box.after keeps numSlots (by rw [globals, slotSize]) (by rw [globals, producers]) tasks procs
          (fun _ there => by rw [task'] at there; cases there)
          ⟨read ++ [line], rest', ?_, ?_, by rw [globals, queued']⟩
        · rw [kept' (by rw [shared]; rfl), List.append_assoc]
          rfl
        · rw [shared, TermState.copied, copies]
          simp only [Function.update_self]
          exact List.rel_append delivered (.cons ⟨rfl, rfl⟩ .nil)
    · exact absurd rfl (alone pid k)
  | returned at_ => exact absurd at_ (awake _)
  | faults =>
    cases advanced with
    | faults globals shared task' proc =>
      refine box.after keeps numSlots (by rw [globals, box.slotSize]) (by rw [globals, box.producers]) tasks procs
        (fun size there k => ?_) ⟨read, rest, kept' (by rw [shared]), by rw [shared]; exact delivered,
          by rw [globals, queued]⟩
      rw [proc]
      exact box.taking p call at_ k

/-- A call on the mailbox of another unit. -/
theorem LineBox.elsewhere (other : drivers i ≠ p) (away : c.fn.addresses (lineReadyMbox (arg i)) = false)
    (lands : ∀ r, (next r s.shared).1.completed i = s.shared.completed i ∧
      (next r s.shared).1.reads (arg i) = s.shared.reads (arg i) ∧
      ∀ call, (next r s.shared).2 ≠ .reading (arg i) call)
    (unread : ∀ call, s.task p ≠ .reading (arg i) call) :
    LineBox W drivers arg i (s.advance (terminals W) p pt next) := by
  have shared : (s.advance (terminals W) p pt next).shared.completed i = s.shared.completed i ∧
      (s.advance (terminals W) p pt next).shared.reads (arg i) = s.shared.reads (arg i) ∧
      ∀ call, (s.advance (terminals W) p pt next).task p ≠ .reading (arg i) call := by
    rcases Client.advance_cases (R := terminals W) s p pt next with ⟨r, _, same⟩ | ⟨_, same⟩ <;> rw [same]
    · rw [Client.enter_shared, Client.enter_task, Function.update_self]
      exact lands r
    · exact ⟨rfl, rfl, unread⟩
  obtain ⟨completed, reads, unread'⟩ := shared
  refine box.frame (p := p) (box.keeps.advance (unreleasing_terminals _) place here runs)
    (box.keeps.advance_sameBox runs away) (fun q other => Client.advance_task_of_ne s other ..)
    (fun q other => Client.advance_other q other) (fun size at_ => absurd at_ (unread' size)) ?_ reads
  exact keptLines_of_procs (Client.advance_task_of_ne s other ..) (Client.advance_other _ other) completed

/-- One stretch of code of a mailbox call. -/
theorem LineBox.advance (bound : Bound drivers arg s.shared s.task) (assembles : Assembles drivers i s.shared s.task)
    (single : ∀ j, arg j = arg i → j = i) {a : ClientAct TermCall (TermUnit × TermStatus)}
    (orderly : Orderly drivers arg i s a) (acts : a = .run p ∨ a = .resume p)
    (resumes : ∀ w, pt = .afterBlock w → a = .resume p) :
    LineBox W drivers arg i (s.advance (terminals W) p pt next) := by
  cases task : s.task p with
  | outside | waiting =>
    rw [task] at place
    cases place
  | sending d =>
    by_cases number : d.number = i
    · exact box.sends here place runs bound task number
    · have unit : d.unit ≠ arg i := by
        intro same
        rw [(bound.own p d (by rw [task]; rfl)).2] at same
        exact number (single _ same)
      have other : drivers i ≠ p := bound.other_driver (by rw [task]; rfl) number
      have place' := place
      rw [task] at place'
      cases place'
      exact box.elsewhere here place runs other (addresses_lineReadyMbox unit _ ⟨true, 0⟩).1
        (fun r => ⟨Function.update_of_ne (Ne.symm number) _ _, rfl, by simp [TermDriver.sent]⟩) (by simp [task])
  | reading unit call =>
    by_cases same : unit = arg i
    · subst same
      refine box.receives here place runs bound assembles task (fun line => orderly.legible p _ line task acts) ?_
      rintro w rfl
      exact orderly.found p call w task here.woken_eq (resumes w rfl)
    · have other : drivers i ≠ p := bound.driver_ne (by rw [task]; rfl)
      have place' := place
      rw [task] at place'
      cases place'
      exact box.elsewhere here place runs other (addresses_lineReadyMbox same [] _).2
        (fun r => ⟨rfl, Function.update_of_ne (Ne.symm same) _ _, by simp⟩) (by simp [task, same])
  | writing writer =>
    have other : drivers i ≠ p := bound.driver_ne (by rw [task]; rfl)
    have place' := place
    rw [task] at place'
    obtain ⟨⟨unit, locks⟩, leaves⟩ := writing_call place'
    have away : c.fn.addresses (lineReadyMbox (arg i)) = false := by
      have apart : ((mutexMbox unit).val : Int) ≠ (lineReadyMbox (arg i)).val := by
        simp only [mutexMbox, lineReadyMbox]
        omega
      rcases locks with rfl | rfl <;> exact decide_eq_false apart
    refine box.elsewhere here place runs other away (fun r => ?_) (by simp [task])
    obtain ⟨writer', terminals, same⟩ := leaves r s.shared
    rw [same]
    exact ⟨rfl, rfl, ofWriter_reading writer' (arg i)⟩

omit place in
/-- A send that is refused has found the mailbox full. -/
theorem LineBox.refused_full (bound : Bound drivers arg s.shared s.task)
    (assembles : Assembles drivers i s.shared s.task) {a : ClientAct TermCall (TermUnit × TermStatus)}
    (orderly : Orderly drivers arg i s a) {d : TermDriver} (task : s.task p = .sending d) (number : d.number = i)
    (call : c = lineSend d.unit d.currLine) (first : ∀ c', pt = .start c' → a = .run p) {r : Result}
    (ends : (pt.exec s.sys.globals p).2 = .returns r) (negative : r.ret < 0) :
    (s.sys.globals.queued (lineReadyMbox (arg i))).length = maxLinesBuffered := by
  obtain ⟨rfl, unit⟩ := bound.own p d (by rw [task]; rfl)
  obtain ⟨number', unit', line⟩ := d
  dsimp only at number unit call
  subst number unit call
  have sending := box.sending here runs
  generalize pt.exec s.sys.globals (drivers number') = seg at *
  cases sending with
  | refused start refused =>
    have short : line.length ≤ maxLine :=
      assembles.short (by rw [task]; exact List.mem_append_right _ (List.mem_singleton_self _))
    have room := box.keeps.sound.count_le box.keeps.active
    rw [Globals.queued_length box.keeps.sound box.keeps.active]
    rw [box.numSlots] at room
    by_contra other
    have less := lt_of_le_of_ne room other
    rcases box.unsent short refused with none | full
    · exact orderly.stocked _ task (first _ start) less none
    · exact absurd full (not_le.mpr less)
  | waits | faults => cases ends
  | stored _ _ _ outcome =>
    rcases outcome with rfl | ⟨_, _, _, rfl⟩
    · cases ends
      exact absurd negative (lt_irrefl _)
    · cases ends
  | returned =>
    cases ends
    exact absurd negative (lt_irrefl _)

theorem LineBox.dropped_full (bound : Bound drivers arg s.shared s.task)
    (assembles : Assembles drivers i s.shared s.task) {a : ClientAct TermCall (TermUnit × TermStatus)}
    (orderly : Orderly drivers arg i s a) (first : ∀ c', pt = .start c' → a = .run p) {line : Line}
    (completed : (s.advance (terminals W) p pt next).shared.completed i = s.shared.completed i ++ [line])
    (dropped : line.kept = false) :
    (s.sys.globals.queued (lineReadyMbox (arg i))).length = maxLinesBuffered := by
  rcases Client.advance_cases (R := terminals W) s p pt next with ⟨r, ends, same⟩ | ⟨_, same⟩ <;>
    rw [same] at completed
  · rw [Client.enter_shared] at completed
    cases task : s.task p with
    | outside | waiting =>
      rw [task] at place
      cases place
    | reading unit call =>
      rw [task] at place
      cases place
      exact absurd completed (by simp [TermState.copied])
    | writing writer =>
      rw [task] at place
      obtain ⟨_, terminals, same⟩ := (writing_call place).2 r s.shared
      exact absurd completed (by simp [same])
    | sending d =>
      rw [task] at place
      cases place
      by_cases number : d.number = i
      · refine box.refused_full here runs bound assembles orderly task number rfl first ends ?_
        subst number
        simp only [TermDriver.sent, Function.update_self, List.append_cancel_left_eq, List.cons.injEq, and_true]
          at completed
        subst completed
        simpa using dropped
      · simp [TermDriver.sent, Function.update_of_ne (Ne.symm number)] at completed
  · exact absurd completed (by simp)

end

theorem begin_frame (call : TermCall) (t : TermState δ) :
    (call.begin t).1.completed = t.completed ∧ (call.begin t).1.reads = t.reads := by
  cases call with
  | read args =>
    simp only [TermCall.begin, sys_term_read]
    split <;> exact ⟨rfl, rfl⟩
  | write args => exact ⟨rfl, rfl⟩

theorem go_frame {place : TermTask} {next : TermState δ → Option (TermState δ × TermTask)} {t : TermState δ}
    {result : TermState δ × TermTask} (at_ : (terminals W).op place = .go next) (went : next t = some result) :
    result.1.completed = t.completed ∧ result.1.reads = t.reads := by
  cases place with
  | outside | sending | reading => cases at_
  | waiting d =>
    cases at_
    obtain ⟨_, _, rfl⟩ := Option.map_eq_some_iff.mp went
    exact ⟨rfl, rfl⟩
  | writing writer =>
    cases writer with
    | outside | locking | unlocking => cases at_
    | putting =>
      cases at_
      obtain rfl := Option.some.inj went
      exact ⟨rfl, rfl⟩
    | waiting =>
      cases at_
      obtain ⟨_, _, rfl⟩ := Option.map_eq_some_iff.mp went
      exact ⟨rfl, rfl⟩

theorem LineBox.step (box : LineBox W drivers arg i s) (bound : Bound drivers arg s.shared s.task)
    (assembles : Assembles drivers i s.shared s.task) (single : ∀ j, arg j = arg i → j = i)
    {a : ClientAct TermCall (TermUnit × TermStatus)} (orderly : Orderly drivers arg i s a)
    (moves : s.Move (terminals W) a s') : LineBox W drivers arg i s' := by
  cases moves with
  | @user act sys may moved =>
    obtain ⟨same, keeps⟩ := box.keeps.user may (fun p c same => orderly.apart p c (by rw [same])) moved
    have idle : (terminals W).op (s.task act.pid) = .idle := by
      rcases box.keeps.user_place may moved with idle | ⟨⟨next, blocks⟩, _⟩
      · exact idle
      · exact absurd blocks (terminals_runs.1 _)
    obtain ⟨driver, unread⟩ := idle_driver idle
    have other : drivers i ≠ act.pid := bound.driver_ne driver
    exact box.frame (p := act.pid) keeps same (fun _ _ => rfl) (Client.user_other moved)
      (fun call at_ => absurd at_ (unread _ call)) (keptLines_of_procs rfl (Client.user_other moved _ other) rfl) rfl
  | @invokes p call next place may out invoked =>
    obtain rfl := Option.some.inj invoked
    exact box.enters out (by rw [(begin_frame call _).1]) (begin_frame call _).2
  | calls place may out =>
    exact box.advance (out ▸ .start) place .start bound assembles single orderly (.inl rfl) (by rintro w ⟨⟩)
  | resumes place may here resumes =>
    exact box.advance here place (Client.runs_of_placed box.keeps.placed place here resumes) bound assembles single
      orderly (.inr rfl) fun _ _ => rfl
  | wakes place => exact absurd place (terminals_runs.2 _ _)
  | returns place => exact absurd place (terminals_runs.1 _)
  | goes place may out went =>
    obtain ⟨completed, reads⟩ := go_frame place went
    exact box.enters out (by rw [completed]) reads
  | yields | event =>
    exact ⟨⟨box.keeps.sound, box.keeps.active, box.keeps.fits, box.keeps.placed⟩, box.numSlots, box.slotSize,
      box.producers, box.taking, box.buffered⟩

theorem lineBox_start : LineBox W drivers arg i (startTerminals device drivers arg) where
  keeps := start_keeps _ _ _ (initSys_lineReadyMbox (arg i))
  numSlots := (initSys_lineReadyMbox (arg i)).numSlots
  slotSize := (initSys_lineReadyMbox (arg i)).slotSize
  producers := (initSys_lineReadyMbox (arg i)).blockedProducers
  taking p _ _ k inside := by cases (initSys_outside p).symm.trans inside
  buffered := by
    refine ⟨[], [], ?_, .nil, (initSys_lineReadyMbox (arg i)).queued⟩
    rw [keptLines, startTerminals_at]
    rfl

theorem assembles_of_run {guard : Client (TermState δ) TermTask → ClientAct TermCall (TermUnit × TermStatus) → Prop}
    (run : Transition.Run (Client.step (terminals W)) guard (startTerminals device drivers arg) s) :
    Assembles drivers i s.shared s.task :=
  run.invariant_above (fun _ run => bound_of_run run) (fun s => Assembles drivers i s.shared s.task) assembles_start
    fun _ _ _ bound assembles _ moves => assembles_work assembles bound (work_of_move (Client.step_move moves))

theorem lineBox_of_run (single : ∀ j, arg j = arg i → j = i)
    (run : Transition.Run (Client.step (terminals W)) (Orderly drivers arg i) (startTerminals device drivers arg) s) :
    LineBox W drivers arg i s :=
  run.invariant_above (fun _ run => And.intro (bound_of_run run) (assembles_of_run (i := i) run))
    (LineBox W drivers arg i) lineBox_start fun _ _ _ known box orderly moves =>
      box.step known.1 known.2 single orderly (Client.step_move moves)

/-- A line is dropped only when the mailbox holds as many as it can. -/
theorem LineBox.dropped (box : LineBox W drivers arg i s) (bound : Bound drivers arg s.shared s.task)
    (assembles : Assembles drivers i s.shared s.task) {a : ClientAct TermCall (TermUnit × TermStatus)}
    (orderly : Orderly drivers arg i s a) (moves : s.Move (terminals W) a s') {line : Line}
    (completed : s'.shared.completed i = s.shared.completed i ++ [line]) (dropped : line.kept = false) :
    (s.sys.globals.queued (lineReadyMbox (arg i))).length = maxLinesBuffered := by
  cases moves with
  | user | yields | event => exact absurd completed (by simp [terminals])
  | @invokes p call next _ _ _ invoked =>
    obtain rfl := Option.some.inj invoked
    rw [Client.enter_shared, (begin_frame call _).1] at completed
    exact absurd completed (by simp)
  | calls place may out =>
    exact box.dropped_full (out ▸ .start) place .start bound assembles orderly (fun _ _ => rfl) completed dropped
  | resumes place may here resumes =>
    exact box.dropped_full here place (Client.runs_of_placed box.keeps.placed place here resumes) bound assembles
      orderly (fun c' start => absurd start (resumes c')) completed dropped
  | wakes place => exact absurd place (terminals_runs.2 _ _)
  | returns place => exact absurd place (terminals_runs.1 _)
  | goes place _ _ went =>
    rw [Client.enter_shared, (go_frame place went).1] at completed
    exact absurd completed (by simp)

theorem LineBox.delivers (box : LineBox W drivers arg i s) {k : Nat} {r : Read}
    (at_ : (s.shared.reads (arg i))[k]? = some r) :
    ∃ line, (keptLines drivers i s)[k]? = some line ∧ r.Delivers line := by
  obtain ⟨read, rest, kept, delivered, _⟩ := box.buffered
  obtain ⟨inside, rfl⟩ := List.getElem?_eq_some_iff.mp at_
  have inside' : k < read.length := by rwa [delivered.length_eq]
  refine ⟨read[k], ?_, (List.forall₂_iff_get.mp delivered).2 k inside' inside⟩
  rw [kept, List.getElem?_append_left inside', List.getElem?_eq_getElem inside']

theorem Assembles.lines (assembles : Assembles drivers i s.shared s.task) :
    (s.shared.completed i).map Line.currLine <+: (assembled s.shared i).lines := by
  rw [Assembles] at assembles
  rw [assembles]
  cases s.task (drivers i) with
  | sending => exact List.prefix_append ..
  | outside | waiting | reading | writing => exact List.prefix_rfl

end

/-- The terminal of a driver that has it alone, whatever `waitDevice` gives: the
characters that the driver gets are cut into lines, the reads give the lines
that have got through, one line to each call and as much of it as the call has
asked for, and a line gets lost only where the mailbox is full. -/
theorem term_reads_deliver_lines {W : WaitDevice δ} {device : δ} {drivers : Fin maxTerms ↪ Pid}
    {arg : Fin maxTerms → TermUnit} {i : Fin maxTerms} (single : ∀ j, arg j = arg i → j = i)
    {s : Calling (TermState δ) TermTask TermCall}
    (run : Transition.Run (Calling.step (terminals W)) (fun s => Orderly drivers arg i s.client)
      (.start (startTerminals device drivers arg)) s) :
    (s.client.shared.completed i).map Line.currLine <+: (assembled s.client.shared i).lines ∧
    ((s.client.shared.reads (arg i)).map fun r => r.call.number).Nodup ∧
    (∀ (k : Nat) (r : Read), (s.client.shared.reads (arg i))[k]? = some r →
      ∃ line p args, (keptLines drivers i s.client)[k]? = some line ∧
        (readCalls s.calls)[r.call.number]? = some (p, args) ∧ args.unit = (arg i).val ∧
        r.userBuf = line.take args.userBufSize.toNat ∧ r.ret = ⟨some (min line.length args.userBufSize), 0⟩) ∧
    ∀ a c, Orderly drivers arg i s.client a → Client.step (terminals W) s.client a = some c →
      ∀ line : Line, c.shared.completed i = s.client.shared.completed i ++ [line] → line.kept = false →
        (s.client.sys.globals.queued (lineReadyMbox (arg i))).length = maxLinesBuffered := by
  have ran : Transition.Run (Client.step (terminals W)) (Orderly drivers arg i) (startTerminals device drivers arg)
      s.client := Calling.client_run run
  have bound := bound_of_run ran
  have assembles := assembles_of_run (i := i) ran
  have box := lineBox_of_run single ran
  have recorded := readsRecorded_of_run run
  refine ⟨assembles.lines, recorded.once (arg i), fun k r at_ => ?_, fun a c orderly moves line =>
    box.dropped bound assembles orderly (Client.step_move moves)⟩
  obtain ⟨line, kept, userBuf, ret⟩ := box.delivers at_
  obtain ⟨p, args, called, unit, size⟩ := recorded.ended (arg i) r (List.mem_of_getElem? at_)
  exact ⟨line, p, args, kept, called, unit, by rw [size, userBuf], by rw [size, ret]⟩

/-- Each driver with a unit of its own. -/
def ownArg : Fin maxTerms → TermUnit := fun i => i

/-- A line comes in on the first terminal, and process 20 reads it with a buffer of ten. -/
def lineIsRead (line : Message) : List (ClientAct TermCall (TermUnit × TermStatus)) :=
  line.map (fun c => .event (typed (0, c))) ++ List.replicate (line.length + 1) (.run 3) ++
    [.yield 3, .invoke 20 (.read ⟨some [], 10, 0⟩), .run 20]

theorem term_reads_deliver_lines_run : ∃ s,
    Transition.Run (Calling.step (terminals queues)) (fun s => Orderly termPids ownArg 0 s.client)
      (.start (startTerminals (fun _ => []) termPids ownArg)) s ∧
    s.client.shared.reads 0 = [⟨⟨0, 10⟩, [65, 10], ⟨some 2, 0⟩⟩] ∧
    (s.client.shared.completed 0).map Line.currLine <+: (assembled s.client.shared 0).lines := by
  obtain ⟨s, run, read⟩ : ∃ s,
      Transition.Run (Calling.step (terminals queues)) (fun s => Orderly termPids ownArg 0 s.client)
        (.start (startTerminals (fun _ => []) termPids ownArg)) s ∧
      decide (s.client.shared.reads 0 = [⟨⟨0, 10⟩, [65, 10], ⟨some 2, 0⟩⟩]) = true := by
    refine Transition.exists_run _ _ (lineIsRead [65, 10]) (fun s a => Client.isApart (lineReadyMbox 0) a &&
      s.client.sys.globals.freeSlotCount ≠ 0 &&
      (keptLines termPids 0 s.client).all (fun line => (0 : UInt8) ∉ line) && !(a matches .resume _))
      (fun s a passes => ?_) _ (by decide +kernel)
    simp only [Bool.and_eq_true, decide_eq_true_eq, List.all_eq_true, Bool.not_eq_true'] at passes
    obtain ⟨⟨⟨apart, free⟩, legible⟩, fresh⟩ := passes
    refine ⟨.of_test apart, fun _ _ _ _ => free, fun p call line _ _ at_ zero => ?_, fun p call w _ _ resumes => ?_⟩
    · exact legible line (List.mem_of_getElem? at_) (List.mem_of_mem_take zero)
    · subst resumes
      cases fresh
  exact ⟨s, run, of_decide_eq_true read, (term_reads_deliver_lines (fun _ same => same) run).1⟩

/-- A NUL within the line: the rest of it does not come through. -/
theorem line_cut_at_nul : ∃ s,
    Transition.Run (Calling.step (terminals queues)) (fun s => Client.Apart (lineReadyMbox 0) s.client)
      (.start (startTerminals (fun _ => []) termPids ownArg)) s ∧
    s.client.shared.completed 0 = [⟨lineReadyMbox 0, [65, 0, 66, 10], true⟩] ∧
    readCalls s.calls = [(20, ⟨some [], 10, 0⟩)] ∧ s.client.shared.reads 0 = [⟨⟨0, 10⟩, [65], ⟨some 1, 0⟩⟩] ∧
    ([65] : Message) ≠ ([65, 0, 66, 10] : Message).take 10 := by
  obtain ⟨s, run, read⟩ : ∃ s,
      Transition.Run (Calling.step (terminals queues)) (fun s => Client.Apart (lineReadyMbox 0) s.client)
        (.start (startTerminals (fun _ => []) termPids ownArg)) s ∧
      decide (s.client.shared.completed 0 = [⟨lineReadyMbox 0, [65, 0, 66, 10], true⟩] ∧
        readCalls s.calls = [(20, ⟨some [], 10, 0⟩)] ∧
        s.client.shared.reads 0 = [⟨⟨0, 10⟩, [65], ⟨some 1, 0⟩⟩]) = true :=
    Transition.exists_run _ _ (lineIsRead [65, 0, 66, 10]) (fun _ a => Client.isApart (lineReadyMbox 0) a)
      (fun _ _ passes => .of_test passes) _ (by decide +kernel)
  obtain ⟨completed, calls, reads⟩ := of_decide_eq_true read
  exact ⟨s, run, completed, calls, reads, by decide⟩

end Phase4a

end UslossKernel
