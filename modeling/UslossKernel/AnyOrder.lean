import UslossKernel.EntryChanges
import UslossKernel.Library.History

namespace UslossKernel.Phase1b

/-- A live process makes a call, or runs on from where it stands. -/
inductive Turn
  | call (p : Slot) (c : Call)
  | resume (p : Slot)
deriving DecidableEq, Repr

def Turn.process : Turn → Slot
  | .call p _ | .resume p => p

/-- The turn in which `p` runs on from a point. -/
def Point.turn (p : Slot) : Point → Turn
  | .call c => .call p c
  | .resume _ => .resume p

namespace Machine

/-- The entry is taken and its process neither blocked nor terminated. -/
def live (m : Machine) (p : Slot) : Bool :=
  m.kernel.occupied p && m.kernel.status p = .runnable

/-- `p` has the CPU. -/
def give (m : Machine) (p : Slot) : Machine :=
  { m with kernel := { m.kernel with running_process := some p } }

/-- `settle`, where `dispatcher` may go on with any process. -/
def yieldOrSettle (m : Machine) (p : Slot) (fn : Fn) (seg : Segment) : Machine :=
  match seg.2 with
  | .dispatches inside => m.switch p inside seg.1
  | _ => m.settle p fn seg

def runOn (m : Machine) (p : Slot) (pt : Point) : Machine :=
  (m.enter p pt).yieldOrSettle p pt.fn (pt.exec m.kernel p)

/-- The next turn may be that of any live process. -/
def turn (m : Machine) (t : Turn) : Option Machine :=
  if m.stopped.isSome || !m.live t.process then none
  else match t with
  | .call p c => if m.place p = .user then some ((m.give p).runOn p (.call c)) else none
  | .resume p => match m.place p with
    | .fresh =>
      if (m.kernel.process_table p).startFunc then
        some { m.give p with place := Function.update m.place p .user }
      else some (m.stop (.halted 1))
    | .inside inside =>
      if (m.kernel.process_table p).stack then some ((m.give p).runOn p (.resume inside))
      else some (m.stop .crashed)
    | .user => none

/-- The states of the runs in which the live processes take their turns in any order. -/
abbrev Ordered (m : Machine) : Prop :=
  Transition.Run turn (fun _ _ => True) boot m

/-- The process `p` runs on from this point. -/
structure Ready (m : Machine) (p : Slot) (pt : Point) : Prop where
  goesOn : m.stopped = none
  occupied : m.kernel.occupied p = true
  runnable : m.kernel.status p = .runnable
  place : (∃ c, pt = .call c ∧ m.place p = .user) ∨ ∃ inside, pt = .resume inside ∧ m.place p = .inside inside

section give
variable {m : Machine} {p i : Slot} {k : Kernel}

@[simp] theorem give_table : (m.give p).kernel.process_table = m.kernel.process_table := rfl
@[simp] theorem give_next_pid : (m.give p).kernel.next_pid = m.kernel.next_pid := rfl
@[simp] theorem give_running : (m.give p).kernel.running_process = some p := rfl
@[simp] theorem give_place : (m.give p).place = m.place := rfl
@[simp] theorem give_stopped : (m.give p).stopped = m.stopped := rfl
@[simp] theorem give_log : (m.give p).log = m.log := rfl
@[simp] theorem give_pid : (m.give p).pid = m.pid := rfl
@[simp] theorem give_occupied : (m.give p).kernel.occupied = m.kernel.occupied := rfl
@[simp] theorem give_status : (m.give p).kernel.status = m.kernel.status := rfl
@[simp] theorem give_sibling : (m.give p).kernel.sibling = m.kernel.sibling := rfl
@[simp] theorem give_unlinked : (m.give p).kernel.unlinked = m.kernel.unlinked := rfl
@[simp] theorem give_contexts : (m.give p).contexts k = m.contexts k := rfl

end give

/-- What a turn can do. -/
inductive Taken (m : Machine) : Turn → Machine → Prop
  | begins {p : Slot} : m.stopped = none → m.live p = true → m.place p = .fresh →
      Taken m (.resume p) { m.give p with place := Function.update m.place p .user }
  | returns {p : Slot} {pt : Point} {k : Kernel} {value status} : m.Ready p pt →
      pt.exec (m.give p).kernel p = (k, .returns value status) →
      Taken m (pt.turn p) (((m.give p).enter p pt).back p pt.fn k value status)
  | yields {p : Slot} {pt : Point} {k : Kernel} {inside} : m.Ready p pt →
      pt.exec (m.give p).kernel p = (k, .dispatches inside) →
      Taken m (pt.turn p) (((m.give p).enter p pt).switch p inside k)
  | halts {t reason} : Taken m t (m.stop reason)
  | stops {p : Slot} {pt : Point} {reason} : m.Ready p pt →
      Taken m (pt.turn p) (((m.give p).enter p pt).stop reason)

theorem Ready.path {m : Machine} {p : Slot} {pt : Point} {seg : Segment} (_ready : m.Ready p pt)
    (goes : pt.exec (m.give p).kernel p = seg) : Path (m.give p).kernel p pt seg := by
  subst goes
  exact Point.exec_path give_running

theorem runOn_taken {m : Machine} {p : Slot} {pt : Point} (ready : m.Ready p pt) :
    Taken m (pt.turn p) ((m.give p).runOn p pt) := by
  unfold runOn yieldOrSettle settle
  cases ends : (pt.exec (m.give p).kernel p).2 with
  | returns value status => exact .returns ready (Prod.ext rfl ends)
  | dispatches inside => exact .yields ready (Prod.ext rfl ends)
  | halts code => exact .stops ready
  | hangs walk => exact .stops ready
  | crashes => exact .stops ready

theorem turn_taken {m m' : Machine} {t : Turn} (moves : m.turn t = some m') : Taken m t m' := by
  unfold turn at moves
  split at moves
  · cases moves
  rename_i mayRun
  simp only [Bool.or_eq_true, Bool.not_eq_true', not_or, Bool.not_eq_true, Bool.not_eq_false] at mayRun
  obtain ⟨goesOn, live⟩ := mayRun
  have goesOn : m.stopped = none := by simpa using goesOn
  have taken := live
  simp only [Machine.live, Bool.and_eq_true, decide_eq_true_eq] at taken
  obtain ⟨occupied, runnable⟩ := taken
  cases t with
  | call p c =>
    simp only at moves
    split at moves
    · rename_i place
      cases moves
      exact runOn_taken ⟨goesOn, occupied, runnable, .inl ⟨c, rfl, place⟩⟩
    · cases moves
  | resume p =>
    simp only at moves
    split at moves
    · rename_i place
      split at moves
      · cases moves
        exact .begins goesOn live place
      · cases moves
        exact .halts
    · rename_i inside place
      split at moves
      · cases moves
        exact runOn_taken ⟨goesOn, occupied, runnable, .inr ⟨inside, rfl, place⟩⟩
      · cases moves
        exact .halts
    · cases moves

theorem turn_live {m m' : Machine} {t : Turn} (moves : m.turn t = some m') :
    m.stopped = none ∧ m.kernel.occupied t.process = true ∧ m.kernel.status t.process = .runnable := by
  unfold turn at moves
  split at moves
  · cases moves
  rename_i mayRun
  simpa [Machine.live] using mayRun

theorem turn_call {m m' : Machine} {p : Slot} {c : Call} (moves : m.turn (.call p c) = some m') :
    m.Ready p (.call c) ∧ m' = (m.give p).runOn p (.call c) := by
  obtain ⟨goesOn, occupied, runnable⟩ := turn_live moves
  unfold turn at moves
  split at moves
  · cases moves
  simp only at moves
  split at moves
  · rename_i place
    cases moves
    exact ⟨⟨goesOn, occupied, runnable, .inl ⟨c, rfl, place⟩⟩, rfl⟩
  · cases moves

theorem turn_resume {m m' : Machine} {p : Slot} {inside : Inside} (place : m.place p = .inside inside)
    (moves : m.turn (.resume p) = some m') :
    m.Ready p (.resume inside) ∧ (m' = (m.give p).runOn p (.resume inside) ∨ m' = m.stop .crashed) := by
  obtain ⟨goesOn, occupied, runnable⟩ := turn_live moves
  refine ⟨⟨goesOn, occupied, runnable, .inr ⟨inside, rfl, place⟩⟩, ?_⟩
  unfold turn at moves
  split at moves
  · cases moves
  simp only [place] at moves
  split at moves
  · cases moves
    exact .inl rfl
  · cases moves
    exact .inr rfl

/-- A process that may run on does so if its stack is there. -/
theorem Ready.turn {m : Machine} {p : Slot} {pt : Point} (ready : m.Ready p pt)
    (stack : (m.kernel.process_table p).stack = true) : m.turn (pt.turn p) = some ((m.give p).runOn p pt) := by
  have live : m.live p = true := by simp [Machine.live, ready.occupied, ready.runnable]
  rcases ready.place with ⟨c, rfl, place⟩ | ⟨inside, rfl, place⟩
  · simp [Machine.turn, Point.turn, Turn.process, ready.goesOn, live, place]
  · simp [Machine.turn, Point.turn, Turn.process, ready.goesOn, live, place, stack]

theorem exists_ordered (turns : List Turn) (test : Machine → Bool)
    (passes : (Transition.execute turn (fun _ _ => true) boot turns).any test = true) :
    ∃ m, Ordered m ∧ test m = true :=
  Transition.exists_run turn boot turns (fun _ _ => true) (fun _ _ _ => trivial) test passes

end Machine

end UslossKernel.Phase1b
