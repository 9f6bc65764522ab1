import UslossKernel.Messages
import UslossKernel.Library.Turns

namespace UslossKernel

/-- The message that a send is called with. -/
def Call.message : Call → Message
  | .send _ msg_ptr msg_size | .condSend _ msg_ptr msg_size => bytesAt msg_ptr msg_size.toNat
  | _ => []

/-- The message that the code running on from this point is to store. -/
def Point.message : Point → Message
  | .start c => c.message
  | .afterBlock (.sendFull _ msg) => msg
  | _ => []

/-- The code running on from this point has its turn of this kind still to come. -/
def Point.queues (kind : Wait → Bool) (fn : Fn) : Point → Bool
  | .start c => c.fn = fn
  | .afterBlock w => kind w
  | .afterUnblock _ => false

def Outcome.waitsIn (kind : Wait → Bool) : Outcome → Bool
  | .blocks w => kind w
  | _ => false

theorem Proc.wake_waitsIn (proc : Proc) (kind : Wait → Bool) : proc.wake.waitsIn kind = proc.waitsIn kind := by
  cases proc <;> rfl

namespace Sys

/-- The number of the call in which `q` waits, if it does. -/
def turn (s : Sys) (kind : Wait → Bool) (q : Pid) : Option Nat :=
  if (s.proc q).waitsIn kind then some (s.ordinal q) else none

/-- The number of the call that `p` runs on in. -/
def ownTurn (s : Sys) (p : Pid) (pt : Point) : Nat :=
  (s.enter p pt).ordinal p

variable {s : Sys} {p : Pid} {pt : Point} {seg : Segment} {kind : Wait → Bool} {fn : Fn} {served : Nat}

theorem enter_ordinal {q : Pid} (other : q ≠ p) : (s.enter p pt).ordinal q = s.ordinal q := by
  cases pt with
  | start => exact Function.update_of_ne other _ _
  | afterBlock | afterUnblock => rfl

theorem after_ordinal : (s.after p pt seg).ordinal = (s.enter p pt).ordinal := by
  obtain ⟨g, outcome⟩ := seg
  cases outcome <;> rfl

theorem after_calls : (s.after p pt seg).calls = (s.enter p pt).calls := by
  obtain ⟨g, outcome⟩ := seg
  cases outcome <;> rfl

/-- A stretch of code only settles the turn of the process that ran it. -/
theorem turn_after (lives : ∀ f, seg.2 ≠ .faults f) : (s.after p pt seg).turn kind =
    Function.update (s.turn kind) p (if seg.2.waitsIn kind then some (s.ownTurn p pt) else none) := by
  funext q
  unfold turn
  rw [after_ordinal]
  obtain ⟨g, outcome⟩ := seg
  by_cases self : q = p
  · subst self
    rw [Function.update_self]
    cases outcome with
    | returns => simp [after, settle, Outcome.waitsIn, Proc.waitsIn]
    | blocks w => cases holds : kind w <;> simp [after, settle, Outcome.waitsIn, Proc.waitsIn, ownTurn, holds]
    | unblocks pid k => simp [unblocks_self, Outcome.waitsIn, Proc.waitsIn]
    | faults f => exact absurd rfl (lives f)
  · rw [Function.update_of_ne self, enter_ordinal self]
    have same : ((s.after p pt (g, outcome)).proc q).waitsIn kind = (s.proc q).waitsIn kind := by
      cases outcome with
      | returns | blocks => simp [after, settle, Function.update_of_ne self]
      | unblocks pid k =>
        simp only [after, settle, enter_proc]
        by_cases named : q = pid
        · subst named
          rw [Function.update_self, Proc.wake_waitsIn, Function.update_of_ne self]
        · rw [Function.update_of_ne named, Function.update_of_ne self]
      | faults f => exact absurd rfl (lives f)
    rw [same]

theorem turn_own (here : (s.proc p).At pt) :
    s.turn kind p = if pt.resumesIn kind then some (s.ordinal p) else none := by
  unfold turn
  generalize s.proc p = proc at here
  cases here <;> rfl

/-- A call that has its turn still to come holds a number from its start. -/
theorem turns_enter (turns : Turns (s.turn kind) served (s.calls fn).length) (here : (s.proc p).At pt)
    (queues : pt.queues kind fn = true) :
    Turns (Function.update (s.turn kind) p (some (s.ownTurn p pt))) served ((s.enter p pt).calls fn).length := by
  have own : s.turn kind p = _ := turn_own here
  cases pt with
  | start c =>
    obtain rfl : c.fn = fn := by simpa [Point.queues] using queues
    have next := turns.enter (p := p) (by rw [own]; rfl)
    simpa [ownTurn, enter] using next
  | afterBlock w =>
    have same : Function.update (s.turn kind) p (some (s.ordinal p)) = s.turn kind := by
      have holds : kind w = true := queues
      rw [← Function.update_eq_self p (s.turn kind), Function.update_idem, own]
      simp [Point.resumesIn, holds]
    simpa [ownTurn, enter, same] using turns
  | afterUnblock => cases queues

theorem turns_waits (turns : Turns (s.turn kind) served (s.calls fn).length) (here : (s.proc p).At pt)
    (queues : pt.queues kind fn = true) (waits : seg.2.waitsIn kind = true) :
    Turns ((s.after p pt seg).turn kind) served ((s.after p pt seg).calls fn).length := by
  have lives : ∀ f, seg.2 ≠ .faults f := by
    intro f ends
    rw [ends] at waits
    cases waits
  rw [turn_after lives, if_pos waits, after_calls]
  exact turns_enter turns here queues

/-- The call with the lowest number is served. -/
theorem turns_served (turns : Turns (s.turn kind) served (s.calls fn).length) (here : (s.proc p).At pt)
    (lives : ∀ f, seg.2 ≠ .faults f) (queues : pt.queues kind fn = true) (done : seg.2.waitsIn kind = false)
    (first : ∀ q, q ≠ p → ∀ j, s.turn kind q = some j → s.ownTurn p pt < j) :
    s.ownTurn p pt = served ∧
      Turns ((s.after p pt seg).turn kind) (served + 1) ((s.after p pt seg).calls fn).length := by
  have entered := turns_enter turns here queues
  have result := entered.serve (p := p) (Function.update_self ..) fun q other j held => by
    rw [Function.update_of_ne other] at held
    exact first q other j held
  rw [Function.update_idem] at result
  rwa [turn_after lives, if_neg (by simp [done]), after_calls]

/-- Other code settles no turn. -/
theorem turns_apart (turns : Turns (s.turn kind) served (s.calls fn).length) (here : (s.proc p).At pt)
    (lives : ∀ f, seg.2 ≠ .faults f) (queues : pt.queues kind fn = false) (done : seg.2.waitsIn kind = false) :
    Turns ((s.after p pt seg).turn kind) served ((s.after p pt seg).calls fn).length := by
  have own : s.turn kind p = none := by
    rw [turn_own here]
    cases pt with
    | start | afterUnblock => rfl
    | afterBlock w =>
      have other : kind w = false := queues
      simp [Point.resumesIn, other]
  have calls : (s.enter p pt).calls fn = s.calls fn := by
    cases pt with
    | start c =>
      have other : fn ≠ c.fn := by
        rintro rfl
        simp [Point.queues] at queues
      exact Function.update_of_ne other _ _
    | afterBlock | afterUnblock => rfl
  rw [turn_after lives, if_neg (by simp [done]), after_calls, calls, ← own, Function.update_eq_self]
  exact turns

end Sys

end UslossKernel
