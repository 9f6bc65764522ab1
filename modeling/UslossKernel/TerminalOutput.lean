import UslossKernel.ServiceCalls
import UslossKernel.TerminalWrites

namespace UslossKernel

namespace Phase4a

/-- What a call has sent stands in one piece in the output. -/
def Block (output : List (Nat × UInt8)) (number : Nat) (chars : Message) : Prop :=
  ∃ before after, output = before ++ chars.map (Prod.mk number) ++ after ∧ (∀ e ∈ before, e.1 ≠ number) ∧
    ∀ e ∈ after, e.1 ≠ number

/-- Inside the `for` loop. -/
def Writer.inLoop : Writer → Bool
  | .putting .. | .waiting .. => true
  | _ => false

/-- The loop index has not passed the end of the buffer. -/
def Writer.Bounded : Writer → Prop
  | .putting w i | .waiting w i => i < w.userBuf.length
  | _ => True

/-- What the terminal has got, and from which call. -/
structure Blocks (unit : TermUnit) (s : Client Terminals Writer) : Prop where
  numbers : ∀ (i : Nat) (w : Write), s.shared.writes[i]? = some w → w.number = i
  listed : ∀ p w, (s.task p).write = some w → w ∈ s.shared.writes
  single : ∀ p q w, (s.task p).write = some w → (s.task q).write = some w → p = q
  bounded : ∀ p, (s.task p).Bounded
  fresh : ∀ e ∈ s.shared.output unit, e.1 < s.shared.writes.length
  sent : ∀ w ∈ s.shared.writes, w.unit = unit → ∃ k, Block (s.shared.output unit) w.number (w.userBuf.take k) ∧
    (∀ p, (s.task p).write = some w → k = (s.task p).sent) ∧
    ((∀ p, (s.task p).write ≠ some w) → k = w.userBuf.length)
  last : ∀ p w, (s.task p).write = some w → w.unit = unit → (s.task p).inLoop = true →
    ∃ before, s.shared.output unit = before ++ (w.userBuf.take (s.task p).sent).map (Prod.mk w.number) ∧
      ∀ e ∈ before, e.1 ≠ w.number

section

variable {unit : TermUnit} {s s' : Client Terminals Writer}

theorem loop_sent {w : Write} {i : Nat} (within : i ≤ w.userBuf.length) : (Writer.loop w i).sent = i := by
  unfold Writer.loop
  split
  · rfl
  · simp only [Writer.sent]
    omega

theorem loop_bounded (w : Write) (i : Nat) : (Writer.loop w i).Bounded := by
  unfold Writer.loop
  split
  · assumption
  · trivial

theorem Blocks.number_lt (blocks : Blocks unit s) {w : Write} (member : w ∈ s.shared.writes) :
    w.number < s.shared.writes.length := by
  obtain ⟨i, at_⟩ := List.mem_iff_getElem?.mp member
  rw [blocks.numbers i w at_]
  exact (List.getElem?_eq_some_iff.mp at_).1

theorem Blocks.number_eq (blocks : Blocks unit s) {w w' : Write} (member : w ∈ s.shared.writes)
    (member' : w' ∈ s.shared.writes) (same : w.number = w'.number) : w = w' := by
  obtain ⟨i, at_⟩ := List.mem_iff_getElem?.mp member
  obtain ⟨j, at_'⟩ := List.mem_iff_getElem?.mp member'
  have first := blocks.numbers i w at_
  have second := blocks.numbers j w' at_'
  have index : i = j := by omega
  rw [index] at at_
  exact Option.some.inj (at_.symm.trans at_')

theorem Block.append {output : List (Nat × UInt8)} {number : Nat} {chars : Message} (block : Block output number chars)
    {e : Nat × UInt8} (other : e.1 ≠ number) : Block (output ++ [e]) number chars := by
  obtain ⟨before, after, same, clear, clear'⟩ := block
  refine ⟨before, after ++ [e], by rw [same]; simp, clear, ?_⟩
  intro e' member
  rcases List.mem_append.mp member with old | new
  · exact clear' e' old
  · rw [List.mem_singleton.mp new]
    exact other

/-- A process goes on in its call without sending anything to the terminal. -/
theorem Blocks.goes (blocks : Blocks unit s) {p : Pid} {w : Write} {place : Writer} (write : (s.task p).write = some w)
    (still : place.write = some w) (bounded : place.Bounded)
    (sent : w.unit = unit → place.sent = (s.task p).sent)
    (first : w.unit = unit → place.inLoop = true → (s.task p).inLoop = true ∨ (s.task p).sent = 0)
    (tasks : s'.task = Function.update s.task p place) (output : s'.shared.output unit = s.shared.output unit)
    (writes : s'.shared.writes = s.shared.writes) : Blocks unit s' := by
  have mine : s'.task p = place := by rw [tasks, Function.update_self]
  have others : ∀ q, q ≠ p → s'.task q = s.task q := fun q other => by rw [tasks, Function.update_of_ne other]
  have same : ∀ q, (s'.task q).write = (s.task q).write := by
    intro q
    by_cases own : q = p
    · rw [own, mine, still, write]
    · rw [others q own]
  have reached : ∀ q v, (s.task q).write = some v → v.unit = unit → (s'.task q).sent = (s.task q).sent := by
    intro q v write' onUnit
    by_cases own : q = p
    · subst own
      rw [write] at write'
      cases write'
      rw [mine]
      exact sent onUnit
    · rw [others q own]
  refine ⟨by rw [writes]; exact blocks.numbers, fun q v => ?_, fun q r v => ?_, fun q => ?_,
    by rw [writes, output]; exact blocks.fresh, fun v member onUnit => ?_, fun q v => ?_⟩
  · rw [writes, same]
    exact blocks.listed q v
  · rw [same, same]
    exact blocks.single q r v
  · by_cases own : q = p
    · rw [own, mine]
      exact bounded
    · rw [others q own]
      exact blocks.bounded q
  · rw [writes] at member
    obtain ⟨k, block, progress, finished⟩ := blocks.sent v member onUnit
    refine ⟨k, by rw [output]; exact block, fun q write' => ?_, fun none => finished fun q => ?_⟩
    · rw [same] at write'
      rw [reached q v write' onUnit]
      exact progress q write'
    · rw [← same]
      exact none q
  · rw [same, output]
    intro write' onUnit inLoop
    rw [reached q v write' onUnit]
    by_cases own : q = p
    · subst own
      rw [mine] at inLoop
      rw [write] at write'
      cases write'
      rcases first onUnit inLoop with before | none
      · exact blocks.last q w write onUnit before
      · obtain ⟨k, ⟨before, after, output, clear, clear'⟩, progress, _⟩ :=
          blocks.sent w (blocks.listed q w write) onUnit
        have zero := progress q write
        rw [none] at zero ⊢
        subst zero
        refine ⟨before ++ after, by rw [output]; simp, fun e member => ?_⟩
        rcases List.mem_append.mp member with old | old
        · exact clear e old
        · exact clear' e old
    · rw [others q own] at inLoop
      exact blocks.last q v write' onUnit inLoop

/-- Nobody comes to another place. -/
theorem Blocks.congr (blocks : Blocks unit s) (tasks : s'.task = s.task) (shared : s'.shared = s.shared) :
    Blocks unit s' := by
  obtain ⟨numbers, listed, single, bounded, fresh, sent, last⟩ := blocks
  refine ⟨?_, ?_, ?_, ?_, ?_, ?_, ?_⟩ <;> simp only [tasks, shared] <;> assumption

/-- `sys_term_write` refuses the arguments. -/
theorem Blocks.refuses (blocks : Blocks unit s) {returned : List Sysreturn} (tasks : s'.task = s.task)
    (shared : s'.shared = { s.shared with returned := returned }) : Blocks unit s' := by
  obtain ⟨numbers, listed, single, bounded, fresh, sent, last⟩ := blocks
  refine ⟨?_, ?_, ?_, ?_, ?_, ?_, ?_⟩ <;> simp only [tasks, shared] <;> assumption

/-- A call begins. -/
theorem Blocks.begins (blocks : Blocks unit s) {p : Pid} {w : Write} (outside : s.task p = .outside)
    (number : w.number = s.shared.writes.length) (tasks : s'.task = Function.update s.task p (.locking w))
    (shared : s'.shared = { s.shared with writes := s.shared.writes ++ [w] }) : Blocks unit s' := by
  have mine : s'.task p = .locking w := by rw [tasks, Function.update_self]
  have others : ∀ q, q ≠ p → s'.task q = s.task q := fun q other => by rw [tasks, Function.update_of_ne other]
  have unlisted : w ∉ s.shared.writes := by
    intro member
    have bound := blocks.number_lt member
    omega
  have new : ∀ q, (s.task q).write ≠ some w := fun q write => unlisted (blocks.listed q w write)
  refine ⟨fun i v at_ => ?_, fun q v write => ?_, fun q r v write write' => ?_, fun q => ?_, fun e member => ?_,
    fun v member own => ?_, fun q v write own inLoop => ?_⟩
  · rw [shared, List.getElem?_append] at at_
    split at at_
    · exact blocks.numbers i v at_
    · rename_i past
      obtain ⟨only, rfl⟩ := List.getElem?_eq_some_iff.mp at_
      simp only [List.length_singleton] at only
      simp only [List.getElem_singleton, number]
      omega
  · rw [shared]
    by_cases self : q = p
    · subst self
      rw [mine] at write
      cases write
      simp
    · rw [others q self] at write
      exact List.mem_append_left _ (blocks.listed q v write)
  · by_cases self : q = p
    · by_cases self' : r = p
      · rw [self, self']
      · rw [self, mine] at write
        rw [others r self'] at write'
        cases write
        exact absurd write' (new r)
    · rw [others q self] at write
      by_cases self' : r = p
      · rw [self', mine] at write'
        cases write'
        exact absurd write (new q)
      · rw [others r self'] at write'
        exact blocks.single q r v write write'
  · by_cases self : q = p
    · rw [self, mine]
      trivial
    · rw [others q self]
      exact blocks.bounded q
  · rw [shared] at member ⊢
    have bound := blocks.fresh e member
    simp only [List.length_append, List.length_singleton]
    omega
  · rw [shared] at member ⊢
    rcases List.mem_append.mp member with old | added
    · obtain ⟨k, block, reached, finished⟩ := blocks.sent v old own
      refine ⟨k, block, fun q write => ?_, fun none => finished fun q write => ?_⟩
      · by_cases self : q = p
        · rw [self, mine] at write
          cases write
          exact absurd old unlisted
        · rw [others q self] at write ⊢
          exact reached q write
      · have self : q ≠ p := by
          rintro rfl
          rw [outside] at write
          cases write
        exact none q (by rw [others q self]; exact write)
    · obtain rfl := List.mem_singleton.mp added
      refine ⟨0, ⟨s.shared.output unit, [], by simp, fun e member => ?_, by simp⟩, fun q write => ?_, fun none => ?_⟩
      · have bound := blocks.fresh e member
        omega
      · by_cases self : q = p
        · rw [self, mine]
          rfl
        · rw [others q self] at write
          exact absurd write (new q)
      · exact absurd (by rw [mine]; rfl) (none p)
  · have self : q ≠ p := by
      rintro rfl
      rw [mine] at inLoop
      cases inLoop
    rw [others q self] at write inLoop ⊢
    rw [shared]
    exact blocks.last q v write own inLoop

/-- A call ends, after its loop. -/
theorem Blocks.ends (blocks : Blocks unit s) {p : Pid} {w : Write} {returned : List Sysreturn}
    (unlocking : s.task p = .unlocking w) (tasks : s'.task = Function.update s.task p .outside)
    (shared : s'.shared = { s.shared with returned := returned }) : Blocks unit s' := by
  have mine : s'.task p = .outside := by rw [tasks, Function.update_self]
  have others : ∀ q, q ≠ p → s'.task q = s.task q := fun q other => by rw [tasks, Function.update_of_ne other]
  have inside : ∀ q v, (s'.task q).write = some v → q ≠ p ∧ (s.task q).write = some v ∧ s'.task q = s.task q := by
    intro q v write
    have self : q ≠ p := by
      rintro rfl
      rw [mine] at write
      cases write
    rw [others q self] at write
    exact ⟨self, write, others q self⟩
  refine ⟨by rw [shared]; exact blocks.numbers, fun q v write => ?_, fun q r v write write' => ?_, fun q => ?_,
    by rw [shared]; exact blocks.fresh, fun v member own => ?_, fun q v write own inLoop => ?_⟩
  · rw [shared]
    exact blocks.listed q v (inside q v write).2.1
  · exact blocks.single q r v (inside q v write).2.1 (inside r v write').2.1
  · by_cases self : q = p
    · rw [self, mine]
      trivial
    · rw [others q self]
      exact blocks.bounded q
  · rw [shared] at member ⊢
    obtain ⟨k, block, reached, finished⟩ := blocks.sent v member own
    refine ⟨k, block, fun q write => ?_, fun none => ?_⟩
    · obtain ⟨_, before, same⟩ := inside q v write
      rw [same]
      exact reached q before
    · by_cases ending : v = w
      · subst ending
        have all := reached p (by rw [unlocking]; rfl)
        rwa [unlocking] at all
      · refine finished fun q write => ?_
        have self : q ≠ p := by
          rintro rfl
          rw [unlocking] at write
          cases write
          exact ending rfl
        exact none q (by rw [others q self]; exact write)
  · obtain ⟨_, before, same⟩ := inside q v write
    rw [same] at inLoop ⊢
    rw [shared]
    exact blocks.last q v before own inLoop

/-- The holder of the lock sends its next character. -/
theorem Blocks.puts (blocks : Blocks unit s) (exclusive : Exclusive unit s) {p : Pid} {w : Write} {i : Nat}
    (putting : s.task p = .putting w i) (own : w.unit = unit)
    (tasks : s'.task = Function.update s.task p (.waiting w i)) (shared : s'.shared = s.shared.deviceOutput w i) :
    Blocks unit s' := by
  have write : (s.task p).write = some w := by rw [putting]; rfl
  have listed := blocks.listed p w write
  have bounded : i < w.userBuf.length := by
    have bound := blocks.bounded p
    rwa [putting] at bound
  have mine : s'.task p = .waiting w i := by rw [tasks, Function.update_self]
  have others : ∀ q, q ≠ p → s'.task q = s.task q := fun q other => by rw [tasks, Function.update_of_ne other]
  have same : ∀ q, (s'.task q).write = (s.task q).write := by
    intro q
    by_cases self : q = p
    · rw [self, mine, putting]
      rfl
    · rw [others q self]
  have output : s'.shared.output unit = s.shared.output unit ++ [(w.number, w.userBuf.getD i 0)] := by
    rw [shared, ← own]
    exact Function.update_self ..
  have writes : s'.shared.writes = s.shared.writes := by rw [shared]; rfl
  -- the block of the holder is the last one, and grows by one character
  have grown : ∃ before, s'.shared.output unit =
      before ++ (w.userBuf.take (i + 1)).map (Prod.mk w.number) ∧ ∀ e ∈ before, e.1 ≠ w.number := by
    obtain ⟨before, whole, clear⟩ := blocks.last p w write own (by rw [putting]; rfl)
    refine ⟨before, ?_, clear⟩
    have next : w.userBuf.take (i + 1) = w.userBuf.take i ++ [w.userBuf.getD i 0] := by
      rw [List.take_add_one, List.getD_eq_getElem?_getD, List.getElem?_eq_getElem bounded]
      rfl
    rw [output, whole, putting, next]
    simp [Writer.sent]
  refine ⟨by rw [writes]; exact blocks.numbers, fun q v => ?_, fun q r v => ?_, fun q => ?_, fun e member => ?_,
    fun v member onUnit => ?_, fun q v write' onUnit inLoop => ?_⟩
  · rw [writes, same]
    exact blocks.listed q v
  · rw [same, same]
    exact blocks.single q r v
  · by_cases self : q = p
    · rw [self, mine]
      exact bounded
    · rw [others q self]
      exact blocks.bounded q
  · rw [writes]
    rw [output] at member
    rcases List.mem_append.mp member with old | new
    · exact blocks.fresh e old
    · rw [List.mem_singleton.mp new]
      exact blocks.number_lt listed
  · rw [writes] at member
    by_cases holder : v = w
    · subst holder
      obtain ⟨before, whole, clear⟩ := grown
      refine ⟨i + 1, ⟨before, [], by rw [whole]; simp, clear, by simp⟩, fun q write' => ?_, fun none => ?_⟩
      · rw [same] at write'
        rw [blocks.single q p v write' write, mine]
        rfl
      · exact absurd ((same p).trans write) (none p)
    · obtain ⟨k, block, progress, finished⟩ := blocks.sent v member onUnit
      have number : w.number ≠ v.number := fun equal => holder (blocks.number_eq listed member equal).symm
      refine ⟨k, by rw [output]; exact block.append number, fun q write' => ?_, fun none => finished fun q => ?_⟩
      · rw [same] at write'
        have self : q ≠ p := by
          rintro rfl
          rw [write] at write'
          cases write'
          exact holder rfl
        rw [others q self]
        exact progress q write'
      · rw [← same]
        exact none q
  · by_cases self : q = p
    · subst self
      rw [mine] at write' ⊢
      cases write'
      exact grown
    · rw [others q self] at write' inLoop
      have holds : (s.task q).Holds unit (s.sys.proc q) := by
        cases at_ : s.task q <;> rw [at_] at write' inLoop <;> cases inLoop <;> cases write' <;> exact onUnit
      have holds' : (s.task p).Holds unit (s.sys.proc p) := by
        rw [putting]
        exact own
      exact absurd (exclusive.alone q p holds holds') self

theorem Blocks.advance (blocks : Blocks unit s) {p : Pid} {pt : Point} {c : Call}
    {next : Result → Terminals → Terminals × Writer} (place : writing.op (s.task p) = .call c next) :
    Blocks unit (s.advance writing p pt next) := by
  rcases Client.advance_cases (R := writing) s p pt next with ⟨r, _, same⟩ | ⟨_, same⟩ <;> rw [same]
  · cases task : s.task p with
    | outside | putting w i | waiting w i =>
      rw [task] at place
      cases place
    | locking w =>
      rw [task] at place
      cases place
      refine blocks.goes (p := p) (w := w) (by rw [task]; rfl) (loop_write w 0) (loop_bounded w 0) ?_ ?_ rfl rfl rfl
      · intro _
        rw [loop_sent (Nat.zero_le _), task]
        rfl
      · intro _ _
        rw [task]
        exact .inr rfl
    | unlocking w =>
      rw [task] at place
      cases place
      exact blocks.ends task rfl rfl
  · exact blocks.congr rfl rfl

theorem Blocks.step {a : ClientAct TermArgs Empty} (blocks : Blocks unit s) (exclusive : Exclusive unit s)
    (moves : s.Move writing a s') : Blocks unit s' := by
  cases moves with
  | user => exact blocks.congr rfl rfl
  | @invokes p args next idle may out invoked =>
    have outside := idle_outside idle
    obtain rfl := Option.some.inj invoked
    unfold sys_term_write
    cases checked : args.check with
    | none =>
      refine blocks.refuses ?_ rfl
      rw [Client.enter_task, ← outside, Function.update_eq_self]
    | some u => exact blocks.begins outside rfl rfl rfl
  | calls place | resumes place => exact blocks.advance place
  | @wakes p _ _ place | @returns p _ place => cases task : s.task p <;> rw [task] at place <;> cases place
  | @goes p next result place may out went =>
    cases task : s.task p with
    | outside | locking w | unlocking w =>
      rw [task] at place
      cases place
    | putting w i =>
      rw [task] at place
      cases place
      obtain rfl := Option.some.inj went
      by_cases own : w.unit = unit
      · exact blocks.puts exclusive task own rfl rfl
      · have bounded := blocks.bounded p
        rw [task] at bounded
        have still : (Writer.waiting w i).write = some w := rfl
        refine blocks.goes (p := p) (w := w) (by rw [task]; rfl) still bounded (fun same => absurd same own)
          (fun same => absurd same own) rfl ?_ rfl
        exact Function.update_of_ne (Ne.symm own) _ _
    | waiting w i =>
      rw [task] at place
      cases place
      obtain rfl := Option.some.inj went
      have bounded := blocks.bounded p
      rw [task] at bounded
      refine blocks.goes (p := p) (w := w) (by rw [task]; rfl) (loop_write w _) (loop_bounded w _) ?_ ?_ rfl rfl rfl
      · intro _
        rw [loop_sent bounded, task]
        rfl
      · intro _ _
        rw [task]
        exact .inl rfl
  | yields => exact blocks.congr rfl rfl
  | @event e => exact e.elim

theorem unreleasing_writing (m : MboxId) : Client.Unreleasing writing m := by
  intro place c next at_
  cases place <;> cases at_ <;> simp

theorem blocks_of_run (run : Transition.Run (Client.step writing) (LockStocked unit) startWriting s) :
    Blocks unit s := by
  have initial : startWriting.Keeps writing (mutexMbox unit) := start_keeps writing _ _ (initSys_mutexMbox unit)
  have keeps : ∀ s, Transition.Run (Client.step writing) (LockStocked unit) startWriting s →
      s.Keeps writing (mutexMbox unit) := fun s run =>
    Client.keeps_of_run run (fun _ _ stocked => stocked.1) (unreleasing_writing _) initial
  have exclusive : ∀ s, Transition.Run (Client.step writing) (LockStocked unit) startWriting s → Exclusive unit s := by
    intro s run
    refine run.invariant_above keeps (Exclusive unit) ?_ fun _ _ _ keeps exclusive stocked moves =>
      exclusive.step keeps stocked (Client.step_move moves)
    have fresh := initSys_mutexMbox unit
    refine ⟨⟨fresh.numSlots, fresh.consumers, fresh.allocated, ?_⟩, ?_, ?_, ?_, ?_⟩
    · intro r member
      have empty : startWriting.sys.globals.queued (mutexMbox unit) = [] := fresh.queued
      rw [empty] at member
      cases member
    · intro p w k at_
      cases at_
    · intro p w at_
      cases at_
    · exact fun p holds => holds.elim
    · exact fun p q holds => holds.elim
  refine run.invariant_above exclusive (Blocks unit) ?_ fun _ _ _ exclusive blocks _ moves =>
    blocks.step exclusive (Client.step_move moves)
  refine ⟨?_, ?_, ?_, fun _ => trivial, ?_, ?_, ?_⟩
  · intro i w at_
    cases at_
  · intro p w write
    cases write
  · intro p q w write
    cases write
  · intro e member
    cases member
  · intro w member
    cases member
  · intro p w write
    cases write

/-- What a call has sent to its terminal stands there in one piece, and once it
is over this is its whole buffer. -/
theorem write_in_block (run : Transition.Run (Client.step writing) (LockStocked unit) startWriting s)
    {w : Write} (begun : w ∈ s.shared.writes) (own : w.unit = unit) :
    ∃ k, Block (s.shared.output unit) w.number (w.userBuf.take k) ∧
      ((∀ p, (s.task p).write ≠ some w) → w.userBuf.take k = w.userBuf) := by
  obtain ⟨k, block, _, finished⟩ := (blocks_of_run run).sent w begun own
  exact ⟨k, block, fun ended => by rw [finished ended, List.take_length]⟩

end

/-- The bytes from `userBuf[0]` to `userBuf[userBufSize - 1]`. -/
def TermArgs.bytes (args : TermArgs) : Message :=
  bytesAt args.userBuf args.userBufSize.toNat

/-- The record of the `i`-th call that passes the checks. -/
def TermArgs.record (i : Nat) (args : TermArgs) : Option Write :=
  args.check.map fun unit => ⟨i, unit, args.bytes⟩

/-- Each call that has passed the checks has its record, with what it was
called with, and a process is in a call that it has made. -/
structure Recorded (s : Calling Terminals Writer TermArgs) : Prop where
  writes : s.client.shared.writes.map some = (accepted s.calls).mapIdx fun i call => call.2.record i
  caller : ∀ p w, (s.client.task p).write = some w → ∃ args, (accepted s.calls)[w.number]? = some (p, args)

/-- Only a call that begins makes a record, and a process stays in its call or
leaves it. -/
theorem writes_of_move {s s' : Client Terminals Writer} {a : ClientAct TermArgs Empty} (moves : s.Move writing a s') :
    (∃ p args, a = .invoke p args ∧ s'.shared = (sys_term_write s.shared args).1 ∧
      s'.task = Function.update s.task p (sys_term_write s.shared args).2) ∨
    (∀ p args, a ≠ .invoke p args) ∧ s'.shared.writes = s.shared.writes ∧
      ∀ p w, (s'.task p).write = some w → (s.task p).write = some w := by
  -- one process comes to another place of its call, or to the end of it
  have goes : ∀ {p : Pid} {place : Writer}, (∀ w, place.write = some w → (s.task p).write = some w) →
      ∀ q w, (Function.update s.task p place q).write = some w → (s.task q).write = some w := by
    intro p place still q w write
    by_cases own : q = p
    · subst own
      rw [Function.update_self] at write
      exact still w write
    · rwa [Function.update_of_ne own] at write
  have advance : ∀ {p pt c} {next : Result → Terminals → Terminals × Writer}, writing.op (s.task p) = .call c next →
      (s.advance writing p pt next).shared.writes = s.shared.writes ∧
        ∀ q w, ((s.advance writing p pt next).task q).write = some w → (s.task q).write = some w := by
    intro p pt c next place
    rcases Client.advance_cases (R := writing) s p pt next with ⟨r, _, same⟩ | ⟨_, same⟩ <;> rw [same]
    · cases task : s.task p with
      | outside | putting w i | waiting w i =>
        rw [task] at place
        cases place
      | locking w =>
        rw [task] at place
        cases place
        refine ⟨rfl, goes fun w' write => ?_⟩
        rw [task]
        exact (loop_write w 0).symm.trans write
      | unlocking w =>
        rw [task] at place
        cases place
        exact ⟨rfl, goes fun w' write => by cases write⟩
    · exact ⟨rfl, fun _ _ => id⟩
  cases moves with
  | user | yields => exact .inr ⟨by simp, rfl, fun _ _ => id⟩
  | @invokes p args next _ _ _ invoked =>
    obtain rfl := Option.some.inj invoked
    exact .inl ⟨p, args, rfl, rfl, rfl⟩
  | calls place | resumes place => exact .inr ⟨by simp, advance place⟩
  | @wakes p _ _ place | @returns p _ place => cases task : s.task p <;> rw [task] at place <;> cases place
  | @goes p next result place _ _ went =>
    refine .inr ⟨by simp, ?_⟩
    cases task : s.task p with
    | outside | locking w | unlocking w =>
      rw [task] at place
      cases place
    | putting w i =>
      rw [task] at place
      cases place
      obtain rfl := Option.some.inj went
      exact ⟨rfl, goes fun w' write => by rw [task]; exact write⟩
    | waiting w i =>
      rw [task] at place
      cases place
      obtain rfl := Option.some.inj went
      refine ⟨rfl, goes fun w' write => ?_⟩
      rw [task]
      exact (loop_write w _).symm.trans write
  | @event e => exact e.elim

section

variable {unit : TermUnit} {s s' : Calling Terminals Writer TermArgs}

theorem Recorded.length (recorded : Recorded s) : s.client.shared.writes.length = (accepted s.calls).length := by
  simpa using congrArg List.length recorded.writes

theorem Recorded.write (recorded : Recorded s) {i : Nat} {p : Pid} {args : TermArgs}
    (called : (accepted s.calls)[i]? = some (p, args)) :
    s.client.shared.writes[i]? = args.record i ∧ args.check.isSome = true := by
  have passes : args.check.isSome = true := (List.mem_filter.mp (List.mem_of_getElem? called)).2
  have at_ := congrArg (fun records => records[i]?) recorded.writes
  simp only [List.getElem?_map, List.getElem?_mapIdx, called, Option.map_some] at at_
  obtain ⟨unit, checked⟩ := Option.isSome_iff_exists.mp passes
  rw [TermArgs.record, checked, Option.map_some] at at_ ⊢
  refine ⟨?_, rfl⟩
  obtain ⟨w, here, same⟩ := Option.map_eq_some_iff.mp at_
  rw [here, same]

theorem Recorded.begins (recorded : Recorded s) {p : Pid} {args : TermArgs}
    (calls : s'.calls = s.calls ++ [(p, args)]) (shared : s'.client.shared = (sys_term_write s.client.shared args).1)
    (task : s'.client.task = Function.update s.client.task p (sys_term_write s.client.shared args).2) :
    Recorded s' := by
  have length := recorded.length
  have mine : s'.client.task p = (sys_term_write s.client.shared args).2 := by rw [task, Function.update_self]
  have others : ∀ q, q ≠ p → s'.client.task q = s.client.task q := fun q other => by
    rw [task, Function.update_of_ne other]
  cases checked : args.check with
  | none =>
    have same : accepted s'.calls = accepted s.calls := by
      rw [calls, accepted, List.filter_append]
      simp [accepted, checked]
    rw [sys_term_write, checked] at shared mine
    refine ⟨by rw [shared, same]; exact recorded.writes, fun q w write => ?_⟩
    have other : q ≠ p := by
      rintro rfl
      rw [mine] at write
      cases write
    rw [others q other] at write
    rw [same]
    exact recorded.caller q w write
  | some unit =>
    have grown : accepted s'.calls = accepted s.calls ++ [(p, args)] := by
      rw [calls, accepted, List.filter_append]
      simp [accepted, checked]
    rw [sys_term_write, checked] at shared mine
    refine ⟨?_, fun q w write => ?_⟩
    · rw [shared, grown, List.mapIdx_concat, List.map_append, recorded.writes, ← length]
      simp [TermArgs.record, TermArgs.bytes, checked]
    · rw [grown]
      by_cases own : q = p
      · subst own
        rw [mine] at write
        cases write
        exact ⟨args, by rw [length]; exact List.getElem?_concat_length ..⟩
      · rw [others q own] at write
        obtain ⟨args', at_⟩ := recorded.caller q w write
        exact ⟨args', by rw [List.getElem?_append_left (List.getElem?_eq_some_iff.mp at_).1, at_]⟩

theorem Recorded.step {a : ClientAct TermArgs Empty} (recorded : Recorded s) (moves : s.step writing a = some s') :
    Recorded s' := by
  obtain ⟨moved, calls⟩ := Calling.step_eq_some.mp moves
  rcases writes_of_move (Client.step_move moved) with ⟨p, args, rfl, shared, task⟩ | ⟨begins, writes, stays⟩
  · exact recorded.begins calls shared task
  · have same : s'.calls = s.calls := by
      cases a <;> first | exact absurd rfl (begins _ _) | simpa [ClientAct.begins] using calls
    refine ⟨by rw [writes, same]; exact recorded.writes, fun q w write => ?_⟩
    rw [same]
    exact recorded.caller q w (stays q w write)

theorem recorded_of_run {guard : Calling Terminals Writer TermArgs → ClientAct TermArgs Empty → Prop}
    (run : Transition.Run (Calling.step writing) guard (.start startWriting) s) : Recorded s :=
  run.invariant Recorded ⟨rfl, by rintro _ _ ⟨⟩⟩ fun _ _ _ recorded _ moves => recorded.step moves

/-- As long as the sends on its lock find a free slot, what the `i`-th call
sends to a terminal stands there in one piece, and when its process has left it
this is the whole buffer that it was called with. -/
theorem term_writes_in_blocks
    (run : Transition.Run (Calling.step writing) (fun s => LockStocked unit s.client) (.start startWriting) s)
    {i : Nat} {p : Pid} {args : TermArgs} (called : (accepted s.calls)[i]? = some (p, args))
    (own : args.unit = unit.val) : ∃ k, Block (s.client.shared.output unit) i (args.bytes.take k) ∧
      ((∀ w, (s.client.task p).write = some w → w.number ≠ i) → args.bytes.take k = args.bytes) := by
  have recorded := recorded_of_run run
  obtain ⟨at_, passes⟩ := recorded.write called
  obtain ⟨unit', checked⟩ := Option.isSome_iff_exists.mp passes
  obtain rfl : unit' = unit := Fin.ext (by exact_mod_cast (TermArgs.check_eq_some.mp checked).1.symm.trans own)
  rw [TermArgs.record, checked, Option.map_some] at at_
  obtain ⟨k, block, whole⟩ := write_in_block (Calling.client_run run) (List.mem_of_getElem? at_) rfl
  refine ⟨k, block, fun left => whole fun q write => ?_⟩
  -- whoever is in the call is the process that has made it
  obtain ⟨args', caller⟩ := recorded.caller q _ write
  cases caller.symm.trans called
  exact left _ write rfl

end

/-- Process 3 writes `AB` to unit 0 and is preempted after the first character;
process 4, which writes `X`, then waits for the lock. -/
def twoWriters : List (ClientAct TermArgs Empty) :=
  [.invoke 3 ⟨some [65, 66], 2, 0⟩, .run 3, .run 3, .yield 3, .invoke 4 ⟨some [88], 1, 0⟩, .run 4, .run 3, .run 3,
    .run 3, .run 3, .resume 3, .user (.yield 3), .resume 4, .run 4]

theorem term_writes_in_blocks_run : ∃ s,
    Transition.Run (Calling.step writing) (fun s => LockStocked 0 s.client) (.start startWriting) s ∧
    s.client.shared.output 0 = [(0, 65), (0, 66), (1, 88)] ∧
    ∃ k, Block (s.client.shared.output 0) 0 (([65, 66] : Message).take k) := by
  obtain ⟨s, run, passes⟩ := @Transition.exists_run _ _ (fun s => LockStocked 0 s.client) (Calling.step writing)
    (.start startWriting) twoWriters
    (fun s a => Client.isApart (mutexMbox 0) a && s.client.sys.globals.freeSlotCount != 0)
    (fun s a passes => by
      simp only [Bool.and_eq_true, bne_iff_ne] at passes
      exact ⟨.of_test passes.1, fun _ _ _ _ => ⟨fun _ => passes.2, fun _ _ => passes.2⟩⟩)
    (fun s => s.client.shared.output 0 = [(0, 65), (0, 66), (1, 88)] &&
      (accepted s.calls)[0]? = some (3, ⟨some [65, 66], 2, 0⟩))
    (by decide +kernel)
  simp only [Bool.and_eq_true, decide_eq_true_eq] at passes
  obtain ⟨k, block, _⟩ := term_writes_in_blocks run passes.2 rfl
  exact ⟨s, run, passes.1, k, block⟩

section

variable {s : Client Terminals Writer} {p : Pid}

/-- Without a free slot, a call sends its first character whoever holds the
lock. -/
theorem Drained.writes (drained : Drained s.sys) (free : s.sys.cpu = none) (outside : s.task p = .outside)
    (args : TermArgs) (w : Write) {unit : TermUnit} (checked : args.check = some unit)
    (same : w = ⟨s.shared.writes.length, unit, bytesAt args.userBuf args.userBufSize.toNat⟩)
    (nonempty : 0 < w.userBuf.length) (m : MboxId) : ∃ s', Transition.Run (Client.step writing) (Client.Apart m) s s' ∧
      Drained s'.sys ∧ s'.sys.cpu = none ∧ s'.task = Function.update s.task p (.waiting w 0) ∧
      s'.shared = Terminals.deviceOutput { s.shared with writes := s.shared.writes ++ [w] } w 0 := by
  have may : s.sys.mayRun p = true := by simp [Sys.mayRun, drained.lives, free]
  have next : Writer.loop w 0 = .putting w 0 := if_pos nonempty
  -- the call begins
  let sys₁ : Sys := { s.sys with cpu := some p }
  let begun : Terminals := { s.shared with writes := s.shared.writes ++ [w] }
  let s₁ : Client Terminals Writer := ⟨sys₁, begun, Function.update s.task p (.locking w)⟩
  have begins : s.step writing (.invoke p args) = some s₁ := by
    have invoked : writing.invoke p s.shared args = some (begun, .locking w) := by
      simp [writing, sys_term_write, checked, ← same, begun]
    have idle : writing.op (s.task p) = .idle := by
      rw [outside]
      rfl
    exact (Client.Move.invokes idle may (drained.out p) invoked).step
  have drained₁ : Drained sys₁ := ⟨drained.lives, drained.out, drained.slots, drained.boxes⟩
  have may₁ : sys₁.mayRun p = true := by simp [Sys.mayRun, sys₁, drained.lives]
  -- its `MboxSend` finds no slot
  let pt : Point := .start (.send (mutexMbox w.unit).val none 0)
  have accepted : sys₁.globals.accepts (mutexMbox w.unit) none 0 = true := by simp [Globals.accepts]
  have refuses := drained₁.send (initSys_mutexMbox w.unit) (mutexMbox_ne w.unit) one_ne_zero accepted p
  obtain ⟨sys₂, ran, drained₂, cpu₂⟩ : ∃ sys₂, sys₁.run p pt = sys₂ ∧ Drained sys₂ ∧ sys₂.cpu = some p :=
    ⟨_, rfl, drained₁.run refuses⟩
  have may₂ : sys₂.mayRun p = true := by simp [Sys.mayRun, drained₂.lives, cpu₂]
  let s₂ : Client Terminals Writer := ⟨sys₂, begun, Function.update s.task p (.putting w 0)⟩
  have sends : s₁.step writing (.run p) = some s₂ := by
    have place : writing.op (s₁.task p) = .call (.send (mutexMbox w.unit).val none 0) fun _ t => (t, .loop w 0) := by
      simp only [s₁, Function.update_self]
      rfl
    rw [(Client.Move.calls place may₁ (drained₁.out p)).step, Client.advance_eq (r := ⟨-2, []⟩) (by rw [refuses]; rfl),
      Client.enter_eq (by simp only [next]; rfl)]
    simp only [s₁, s₂, next, Function.update_idem, ← ran, pt]
  -- the character is sent, and `waitDevice` gives up the CPU
  let s₃ : Client Terminals Writer :=
    ⟨{ sys₂ with cpu := some p }, begun.deviceOutput w 0, Function.update s.task p (.waiting w 0)⟩
  have puts : s₂.step writing (.run p) = some s₃ := by
    have place : writing.op (s₂.task p) = .go fun t => some (t.deviceOutput w 0, .waiting w 0) := by
      simp only [s₂, Function.update_self]
      rfl
    rw [(Client.Move.goes place may₂ (drained₂.out p) rfl).step, Client.enter_eq rfl]
    simp only [s₂, s₃, Function.update_idem]
  have may₃ : s₃.sys.mayRun p = true := by simp [Sys.mayRun, s₃, drained₂.lives]
  have yields : s₃.step writing (.yield p) = some { s₃ with sys.cpu := none } :=
    (Client.Move.yields (by simp only [s₃, Function.update_self]; rfl) may₃ (drained₂.out p)).step
  refine ⟨{ s₃ with sys.cpu := none }, ?_, ⟨drained₂.lives, drained₂.out, drained₂.slots, drained₂.boxes⟩, rfl, rfl,
    rfl⟩
  have invoked : Transition.Run (Client.step writing) (Client.Apart m) s s₁ :=
    .single ⟨_, by rintro _ _ ⟨⟩, begins⟩
  exact ((invoked.next (by rintro _ _ ⟨⟩) sends).next (by rintro _ _ ⟨⟩) puts).next (by rintro _ _ ⟨⟩) yields

/-- The next character of a call that runs on. -/
theorem writes_on (may : s.sys.mayRun p = true) (out : s.sys.proc p = .outside) {w : Write} {i : Nat}
    (waiting : s.task p = .waiting w i) (more : i + 1 < w.userBuf.length) (m : MboxId) :
    ∃ s', Transition.Run (Client.step writing) (Client.Apart m) s s' ∧
      s'.shared = s.shared.deviceOutput w (i + 1) := by
  have next : Writer.loop w (i + 1) = .putting w (i + 1) := if_pos more
  let s₁ : Client Terminals Writer :=
    ⟨{ s.sys with cpu := some p }, s.shared, Function.update s.task p (.putting w (i + 1))⟩
  have returns : s.step writing (.run p) = some s₁ := by
    have place : writing.op (s.task p) = .go fun t => some (t, .loop w (i + 1)) := by
      rw [waiting]
      rfl
    rw [(Client.Move.goes place may out rfl).step, Client.enter_eq (by simp only [next]; rfl), next]
  have may₁ : s₁.sys.mayRun p = true := by
    simp only [Sys.mayRun, Bool.and_eq_true] at may
    simp [Sys.mayRun, s₁, may.1]
  have place : writing.op (s₁.task p) = .go fun t => some (t.deviceOutput w (i + 1), .waiting w (i + 1)) := by
    simp only [s₁, Function.update_self]
    rfl
  have puts := (Client.Move.goes (α := TermArgs) (ε := Empty) place may₁ out rfl).step
  have ran : Transition.Run (Client.step writing) (Client.Apart m) s s₁ := .single ⟨_, by rintro _ _ ⟨⟩, returns⟩
  exact ⟨_, ran.next (by rintro _ _ ⟨⟩) puts, rfl⟩

end

/-- When the pool is used up, process 3 writes `AB` and process 4 `X`. -/
theorem drained_interleaves : ∃ s,
    Transition.Run (Client.step writing) (Client.Apart (mutexMbox 0)) startWriting s ∧
    s.shared.output 0 = [(0, 65), (1, 88), (0, 66)] ∧ s.shared.writes = [⟨0, 0, [65, 66]⟩, ⟨1, 0, [88]⟩] := by
  obtain ⟨sys, drained, free, emptied⟩ := start_drained writing startWriting.shared startWriting.task rfl
  have start : Transition.Run (Client.step writing) (Client.Apart (mutexMbox 0)) startWriting ⟨sys, _, _⟩ :=
    emptied.mono fun _ _ member => draining_apart (mutexMbox_ne 0) member
  let first : Write := ⟨0, 0, [65, 66]⟩
  let second : Write := ⟨1, 0, [88]⟩
  obtain ⟨s₁, ran₁, drained₁, free₁, task₁, shared₁⟩ := drained.writes
    (s := ⟨sys, startWriting.shared, startWriting.task⟩) (p := 3) free rfl ⟨some [65, 66], 2, 0⟩ first rfl rfl
    (by decide) (mutexMbox 0)
  obtain ⟨s₂, ran₂, drained₂, free₂, task₂, shared₂⟩ := drained₁.writes (p := 4) free₁ (by rw [task₁]; rfl)
    ⟨some [88], 1, 0⟩ second rfl (by rw [shared₁]; rfl) (by decide) (mutexMbox 0)
  have at₂ : s₂.task 3 = .waiting first 0 := by
    rw [task₂, Function.update_of_ne (by decide), task₁, Function.update_self]
  have may₂ : s₂.sys.mayRun 3 = true := by simp [Sys.mayRun, drained₂.lives, free₂]
  obtain ⟨s₃, ran₃, shared₃⟩ := writes_on may₂ (drained₂.out 3) at₂ (by decide) (mutexMbox 0)
  refine ⟨s₃, ((start.trans ran₁).trans ran₂).trans ran₃, ?_, ?_⟩ <;>
  · rw [shared₃, shared₂, shared₁]
    rfl

theorem not_block : ¬ ∃ k, Block [(0, 65), (1, 88), (0, 66)] 0 (([65, 66] : Message).take k) := by
  rintro ⟨k, before, after, whole, clear, clear'⟩
  cases before with
  | cons e before =>
    obtain ⟨rfl, _⟩ := List.cons.inj whole
    exact clear _ (List.mem_cons_self ..) rfl
  | nil =>
    -- the block starts with the first character, and the third is not in `after`
    have last : ((0, 66) : Nat × UInt8) ∉ after := fun member => clear' _ member rfl
    rcases k with _ | _ | k
    · obtain rfl := whole
      exact last (by simp)
    · obtain ⟨_, rfl⟩ := List.cons.inj whole
      exact last (by simp)
    · simp at whole

/-- The characters of the first call then do not stand in one piece. -/
theorem term_writes_interleave : ∃ s,
    Transition.Run (Calling.step writing) (fun s => Client.Apart (mutexMbox 0) s.client) (.start startWriting) s ∧
    ∃ i p args, (accepted s.calls)[i]? = some (p, args) ∧ args.unit = 0 ∧
      ¬ ∃ k, Block (s.client.shared.output 0) i (args.bytes.take k) := by
  obtain ⟨c, ran, output, writes⟩ := drained_interleaves
  obtain ⟨s, run, rfl⟩ := Calling.exists_run (s := .start startWriting) ran
  have recorded := recorded_of_run run
  have length : (accepted s.calls).length = 2 := by rw [← recorded.length, writes]; rfl
  obtain ⟨⟨p, args⟩, called⟩ : ∃ call, (accepted s.calls)[0]? = some call :=
    ⟨_, List.getElem?_eq_getElem (by rw [length]; decide)⟩
  obtain ⟨at_, passes⟩ := recorded.write called
  obtain ⟨unit, checked⟩ := Option.isSome_iff_exists.mp passes
  rw [TermArgs.record, checked, writes] at at_
  have own : unit = 0 := (congrArg Write.unit (Option.some.inj at_)).symm
  have bytes : args.bytes = [65, 66] := (congrArg Write.userBuf (Option.some.inj at_)).symm
  refine ⟨s, run, 0, p, args, called, ?_, ?_⟩
  · rw [(TermArgs.check_eq_some.mp checked).1, own]
    rfl
  · rw [output, bytes]
    exact not_block

end Phase4a

end UslossKernel
