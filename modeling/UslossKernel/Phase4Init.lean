import UslossKernel.Clients
import UslossKernel.SlotPool

namespace UslossKernel

namespace Phase4a

/-- `MAX_TERMS` -/
def maxTerms : Nat := 4

/-- `MAXLINE` -/
def maxLine : Nat := 80

/-- `MAX_LINES_BUFFERED` -/
def maxLinesBuffered : Nat := 10

abbrev TermUnit := Fin maxTerms

instance : NeZero maxTerms := ⟨by decide⟩

/-- The mailboxes that `phase3_init`, `phase4_init` and
`phase4_start_service_processes` create, in this order. -/
def initActions : List Act :=
  [.call 1 (.create 0 0 true)] ++
    (List.range maxTerms).flatMap (fun _ => [.call 1 (.create 1 0 true),
      .call 1 (.create maxLinesBuffered (maxLine + 1 : Nat) true)]) ++
    [.call 1 (.create 100 8 true), .yield 1]

/-- The mailbox layer when the service processes start. -/
@[irreducible] def initSys : Sys :=
  (Transition.execute Sys.step (fun _ _ => true) Sys.boot initActions).getD Sys.boot

/-- `termBuffers[unit].mutexMbox` -/
def mutexMbox (unit : TermUnit) : MboxId :=
  ⟨8 + 2 * unit, by have := unit.isLt; unfold maxTerms maxMbox at *; omega⟩

/-- `termBuffers[unit].lineReadyMbox` -/
def lineReadyMbox (unit : TermUnit) : MboxId :=
  ⟨9 + 2 * unit, by have := unit.isLt; unfold maxTerms maxMbox at *; omega⟩

/-- `clockMbox` -/
def clockMbox : MboxId := 16

/-- A mailbox as `MboxCreate` leaves it. -/
structure Fresh (g : Globals) (m : MboxId) (numSlots slotSize : Nat) : Prop where
  active : (g.mailboxes m).isActive = true
  numSlots : (g.mailboxes m).numSlots = numSlots
  slotSize : (g.mailboxes m).slotSize = slotSize
  consumers : (g.mailboxes m).consumers = none
  allocated : (g.mailboxSlotQueues m).queue ≠ none
  count : (g.mailboxSlotQueues m).count = 0
  blockedProducers : g.blockedProducers m = []
  blockedConsumers : g.blockedConsumers m = []

/-- A test for it. -/
def isFresh (g : Globals) (m : MboxId) (numSlots slotSize : Nat) : Bool :=
  (g.mailboxes m).isActive && (g.mailboxes m).numSlots = numSlots && (g.mailboxes m).slotSize = slotSize &&
    (g.mailboxes m).consumers.isNone && (g.mailboxSlotQueues m).queue.isSome && (g.mailboxSlotQueues m).count = 0 &&
    (g.blockedProducers m).isEmpty && (g.blockedConsumers m).isEmpty

theorem Fresh.of_test {g : Globals} {m : MboxId} {numSlots slotSize : Nat}
    (passes : isFresh g m numSlots slotSize = true) : Fresh g m numSlots slotSize := by
  simp only [isFresh, Bool.and_eq_true, decide_eq_true_eq, Option.isNone_iff_eq_none, List.isEmpty_iff] at passes
  obtain ⟨⟨⟨⟨⟨⟨⟨active, slots⟩, size⟩, consumers⟩, allocated⟩, count⟩, producers⟩, receivers⟩ := passes
  exact ⟨active, slots, size, consumers, Option.isSome_iff_ne_none.mp allocated, count, producers, receivers⟩

theorem initSys_reaches : Sys.Reaches initActions initSys := by
  have runs : (Transition.execute Sys.step (fun _ _ => true) Sys.boot initActions).isSome = true := by decide +kernel
  obtain ⟨s, executed⟩ := Option.isSome_iff_exists.mp runs
  unfold initSys Sys.Reaches
  rw [executed, Option.getD_some]

theorem initSys_test (test : Sys → Bool)
    (passes : (Transition.execute Sys.step (fun _ _ => true) Sys.boot initActions).any test = true) :
    test initSys = true := by
  rw [initSys_reaches, Option.any_some] at passes
  exact passes

theorem initSys_sound : initSys.globals.Sound :=
  Sys.sound_of_run (Transition.Run.of_executed initSys_reaches)

theorem initSys_outside (p : Pid) : initSys.proc p = .outside := by
  have acting := initSys_test (fun s => initActions.all fun a => s.proc a.pid = .outside) (by decide +kernel)
  have outside := initSys_reaches.within.forall (fun proc => proc = .outside) rfl acting p
  exact of_decide_eq_true outside

theorem initSys_mutexMbox (unit : TermUnit) : Fresh initSys.globals (mutexMbox unit) 1 0 := by
  have fresh := initSys_test (fun s => (List.finRange maxTerms).all fun u => isFresh s.globals (mutexMbox u) 1 0)
    (by decide +kernel)
  exact .of_test (List.all_eq_true.mp fresh unit (List.mem_finRange unit))

theorem initSys_lineReadyMbox (unit : TermUnit) :
    Fresh initSys.globals (lineReadyMbox unit) maxLinesBuffered (maxLine + 1) := by
  have fresh := initSys_test (fun s => (List.finRange maxTerms).all fun u =>
    isFresh s.globals (lineReadyMbox u) maxLinesBuffered (maxLine + 1)) (by decide +kernel)
  exact .of_test (List.all_eq_true.mp fresh unit (List.mem_finRange unit))

theorem initSys_clockMbox : Fresh initSys.globals clockMbox 100 8 :=
  .of_test (initSys_test (fun s => isFresh s.globals clockMbox 100 8) (by decide +kernel))

/-- The ids are those that the `MboxCreate` calls have returned. -/
example : (Transition.execute Sys.step (fun _ _ => true) Sys.boot initActions).any (fun s =>
    (s.returned .create).map (fun entry => entry.2.ret) = 7 :: ((List.finRange maxTerms).flatMap fun u =>
      [((mutexMbox u).val : Int), ((lineReadyMbox u).val : Int)]) ++ [(clockMbox.val : Int)]) = true := by
  decide +kernel

/-- The processes of a service when it starts. -/
def start {σ τ : Type} (shared : σ) (task : Pid → τ) : Client σ τ :=
  ⟨initSys, shared, task⟩

theorem start_keeps {σ τ α ε : Type} (R : Routines σ τ α ε) {m : MboxId} {numSlots slotSize : Nat} (shared : σ)
    (task : Pid → τ) (fresh : Fresh initSys.globals m numSlots slotSize) : (start shared task).Keeps R m where
  sound := initSys_sound
  active := fresh.active
  fits p := by
    simp only [start, initSys_outside]
    trivial
  placed p := by
    simp only [start, initSys_outside]
    exact .outside m _

theorem Fresh.queued {g : Globals} {m : MboxId} {numSlots slotSize : Nat} (fresh : Fresh g m numSlots slotSize) :
    g.queued m = [] := by
  rw [Globals.queued, SlotQueue.window_of_count fresh.count, List.map_nil]

/-- Process 9 makes a mailbox and sends it as many messages as there are slots. -/
def draining : List Act :=
  [.call 9 (.create 2500 50 true)] ++ Sys.fills 9 17 2500 ++ [.yield 9]

/-- No slot is free, and no process is in a call. -/
structure Drained (s : Sys) : Prop where
  lives : s.fault = none
  out : ∀ p, s.proc p = .outside
  slots : s.globals.freeSlotCount = 0
  boxes : ∀ m, m ≠ 17 → (initSys.globals.mailboxes m).isActive = true → initSys.globals.SameBox m s.globals

theorem draining_away {m : MboxId} (other : m ≠ 17) {p : Pid} {c : Call} (member : Act.call p c ∈ draining) :
    c.fn.addresses m = false := by
  simp only [draining, Sys.fills, List.mem_append, List.mem_singleton, List.mem_replicate] at member
  rcases member with (same | ⟨_, same⟩) | same <;> cases same
  · rfl
  · have named : ¬ ((17 : MboxId).val : Int) = m.val := fun same => other (Fin.ext (by exact_mod_cast same.symm))
    simpa [Call.fn, Fn.addresses] using named

/-- The other mailboxes are left alone. -/
theorem draining_sameBox {m : MboxId} (other : m ≠ 17) (active : (initSys.globals.mailboxes m).isActive = true)
    {s : Sys} (executed : Transition.execute Sys.step (fun _ _ => true) initSys draining = some s) :
    initSys.globals.SameBox m s.globals := by
  refine ((Transition.Run.of_executed executed).invariant
    (fun s => s.globals.Sound ∧ initSys.globals.SameBox m s.globals) ⟨initSys_sound, .refl m _⟩ ?_).2
  rintro before a after ⟨sound, same⟩ ⟨_, member⟩ moves
  have active' : (before.globals.mailboxes m).isActive = true := by rw [same.mbox, active]
  cases a with
  | call p c =>
    simp only [Sys.step, Option.ite_none_right_eq_some, Option.some.injEq] at moves
    obtain ⟨_, rfl⟩ := moves
    exact ⟨(before.run_transfer p _).sound sound,
      same.trans (Sys.run_sameBox sound active' (draining_away other member))⟩
  | yield p =>
    simp only [Sys.step, Option.ite_none_right_eq_some, Option.some.injEq] at moves
    obtain ⟨_, rfl⟩ := moves
    exact ⟨sound, same⟩
  | resume | sleep | rouse =>
    simp only [draining, Sys.fills, List.mem_append, List.mem_singleton, List.mem_replicate] at member
    rcases member with (same | ⟨_, same⟩) | same <;> cases same

theorem initSys_drained : ∃ s, Transition.execute Sys.step (fun _ _ => true) initSys draining = some s ∧
    Drained s ∧ s.cpu = none := by
  have ready := initSys_test (fun s => (s.step (.call 9 (.create 2500 50 true))).any fun s =>
    s.mayRun 9 && s.proc 9 = .outside && (s.globals.mailboxes 17).isActive && 0 < (s.globals.mailboxes 17).slotSize &&
      (s.globals.mailboxes 17).numSlots = maxSlots && (s.globals.mailboxes 17).consumers = none &&
      (s.globals.mailboxSlotQueues 17).queue.isSome && (s.globals.mailboxSlotQueues 17).capacity ≠ 0 &&
      s.globals.freeSlotCount = 2500 && (s.globals.mailboxSlotQueues 17).count = 0) (by decide +kernel)
  obtain ⟨s₁, created, ready⟩ := (Option.any_eq_true _ _).mp ready
  simp only [Bool.and_eq_true, decide_eq_true_eq] at ready
  obtain ⟨⟨⟨⟨⟨⟨⟨⟨⟨may, out⟩, active⟩, size⟩, slots⟩, alone⟩, allocated⟩, capacity⟩, free⟩, room⟩ := ready
  have filling : s₁.Filling 9 17 2500 :=
    ⟨may, out, active, size, slots, alone, Option.isSome_iff_ne_none.mp allocated, capacity, free.ge,
      by rw [room]; decide⟩
  obtain ⟨s₂, sent, may₂, proc, mailboxes, _, count⟩ := filling.filled
  have outs : ∀ p, s₁.proc p = .outside := by
    simp only [Sys.step, Option.ite_none_right_eq_some, Option.some.injEq] at created
    obtain ⟨_, rfl⟩ := created
    intro p
    by_cases own : p = 9
    · rw [own, out]
    · rcases Sys.run_other own with same | ⟨woken, _⟩
      · rw [same, initSys_outside]
      · rw [woken, initSys_outside]
        rfl
  have out₂ : s₂.proc 9 = .outside := by rw [proc, out]
  have yields : s₂.step (.yield 9) = some { s₂ with cpu := none } := if_pos ⟨may₂, out₂⟩
  have executed : Transition.execute Sys.step (fun _ _ => true) initSys draining = some { s₂ with cpu := none } := by
    refine Transition.execute_concat.mpr ⟨s₂, Transition.execute_append.mpr ⟨s₁, ?_, sent⟩, yields⟩
    simp [Transition.execute, created]
  refine ⟨{ s₂ with cpu := none }, executed, ⟨?_, fun p => ?_, ?_, fun m other active => ?_⟩, rfl⟩
  · simp only [Sys.mayRun, Bool.and_eq_true, Option.isNone_iff_eq_none] at may₂
    exact may₂.1
  · simp only [proc, outs]
  · simp only [count, free]
  · exact draining_sameBox other active executed

theorem mutexMbox_ne (unit : TermUnit) : mutexMbox unit ≠ 17 := by
  intro equal
  have bound : unit.val < 4 := unit.isLt
  have values : 8 + 2 * unit.val = 17 := congrArg Fin.val equal
  omega

section

variable {s : Sys} {m : MboxId} {numSlots slotSize : Nat}

/-- `MboxSend` then gives up at once. -/
theorem Drained.send (drained : Drained s) (fresh : Fresh initSys.globals m numSlots slotSize) (other : m ≠ 17)
    (slots : numSlots ≠ 0) {msg_ptr : Option Message} {msg_size : Int}
    (accepted : s.globals.accepts m msg_ptr msg_size = true) (p : Pid) :
    (Point.start (.send (m : Nat) msg_ptr msg_size)).exec s.globals p = returnCode s.globals (-2) := by
  have same := (drained.boxes m other fresh.active).mbox
  have active : s.globals.activeMbox (m : Nat) = some m :=
    Globals.activeMbox_eq_some.mpr ⟨rfl, by rw [same, fresh.active]⟩
  simp [Point.exec, Call.start, mboxSend, active, accepted, same, fresh.numSlots, slots, drained.slots]

/-- A call that returns at once changes nothing else. -/
theorem Drained.run (drained : Drained s) {p : Pid} {pt : Point} {code : Int}
    (returns : pt.exec s.globals p = returnCode s.globals code) :
    Drained (s.run p pt) ∧ (s.run p pt).cpu = some p := by
  have run : s.run p pt = s.after p pt (returnCode s.globals code) := by rw [Sys.run, returns]
  have lives := drained.lives
  have slots := drained.slots
  have boxes := drained.boxes
  rw [run]
  cases pt <;> refine ⟨⟨lives, fun q => ?_, slots, boxes⟩, rfl⟩ <;> by_cases own : q = p
  all_goals simp [Sys.after, Sys.settle, returnCode, Sys.enter, own, drained.out]

end

/-- The services start, and the pool is used up. -/
theorem start_drained {σ τ α ε : Type} (R : Routines σ τ α ε) (shared : σ) (task : Pid → τ)
    (idle : R.op (task 9) = .idle) : ∃ sys, Drained sys ∧ sys.cpu = none ∧
      Transition.Run (Client.step R) (fun _ a => a ∈ draining.map ClientAct.user) (start shared task)
        ⟨sys, shared, task⟩ := by
  obtain ⟨sys, executed, drained, idleCpu⟩ := initSys_drained
  have acting : ∀ a ∈ draining, a.pid = 9 := by
    intro a member
    simp only [draining, Sys.fills, List.mem_append, List.mem_singleton, List.mem_replicate] at member
    rcases member with (rfl | ⟨_, rfl⟩) | rfl <;> rfl
  have executed' := Client.execute_user (R := R) (s := start shared task)
    (fun a member => by rw [acting a member]; exact idle) executed
  exact ⟨sys, drained, idleCpu, (Transition.Run.of_executed executed').mono fun _ _ both => both.2⟩

/-- It does nothing with the mailboxes of the services. -/
theorem draining_apart {σ τ α ε : Type} {m : MboxId} (other : m ≠ 17) {s : Client σ τ} {a : ClientAct α ε}
    (member : a ∈ draining.map ClientAct.user) : Client.Apart m s a := by
  rintro p c rfl
  obtain ⟨b, listed, same⟩ := List.mem_map.mp member
  cases same
  exact draining_away other listed

end Phase4a

end UslossKernel
