import UslossKernel.Waiting

namespace UslossKernel

/-- The receiver has got the message: its bytes are in the buffer and their
number is returned. -/
def Transferred (msg : Message) (r : Result) : Prop :=
  r.ret = msg.length ∧ r.buf = msg

namespace Sys

/-- The call of the operation that a process made last. -/
def lastCall (s : Sys) (fn : Fn) (p : Pid) : Option Call :=
  (s.calls fn)[s.ordinal p]?

/-- The later of the two calls by which a sender of `msg` and the receiver `p`
meet on the mailbox `m`, which has no slots. -/
inductive Matched (m : MboxId) (p : Pid) (msg : Message) (s s' : Sys) : Prop
  | senderFirst {q rest msg_ptr msg_size buffer} : (s.globals.mailboxes m).isActive = true →
      (s.globals.mailboxes m).numSlots = 0 → s.globals.blockedProducers m = q :: rest →
      s.proc q = .blocked (.sendZero m) → s.lastCall (.send (m : Nat)) q = some (.send (m : Nat) msg_ptr msg_size) →
      msg = bytesAt msg_ptr msg_size.toNat → 0 ≤ buffer.msg_max_size →
      s.step (.call p (.recv (m : Nat) buffer)) = some s' → Matched m p msg s s'
  | receiverFirst {q entry msg_ptr msg_size} : (s.globals.mailboxes m).isActive = true →
      (s.globals.mailboxes m).numSlots = 0 → (s.globals.mailboxes m).consumers = some entry →
      s.globals.shadowProcesses entry = p → s.proc p = .blocked (.recvZero m) →
      s.globals.accepts m msg_ptr msg_size = true → msg = bytesAt msg_ptr msg_size.toNat →
      s.step (.call q (.send (m : Nat) msg_ptr msg_size)) = some s' → Matched m p msg s s'

variable {s s' : Sys} {a : Act} {p : Pid} {m : MboxId} {msg : Message}

/-- A process that `unblockProc` does not move stays where it is until it acts. -/
theorem step_resting (other : p ≠ a.pid) (awake : (s.proc p).wake = s.proc p) (moves : s.step a = some s') :
    s'.proc p = s.proc p := by
  cases step_move moves with
  | segment _ _ =>
    rw [Point.act_pid] at other
    exact after_other other awake
  | idle => exact Function.update_of_ne other _ _

theorem run_resting {proc : Proc} (others : Transition.Run Sys.step (fun _ a => a.pid ≠ p) s s')
    (at_ : s.proc p = proc) (awake : proc.wake = proc) : s'.proc p = proc := by
  refine others.invariant (fun s => s.proc p = proc) at_ fun before a after here other moves => ?_
  rw [step_resting other.symm (by rw [here, awake]) moves, here]

/-- Where the receiver stands once it is matched. -/
theorem Matched.placed (matched : Matched m p msg s s') :
    s'.proc p = .unblocking (.recvMatched m) ∨ s'.proc p = .woken (.recvZero m) := by
  cases matched with
  | @senderFirst q rest _ _ buffer active zero recorded suspended _ _ size moves =>
    left
    simp only [step, Option.ite_none_right_eq_some, Option.some.injEq] at moves
    obtain ⟨⟨_, out⟩, rfl⟩ := moves
    have found := Globals.activeMbox_eq_some.mpr ⟨rfl, active⟩
    have apart : p ≠ q := by
      rintro rfl
      rw [out] at suspended
      cases suspended
    have seg : mboxRecv s.globals p (m : Nat) buffer =
        (s.globals.setBlockedProducers m rest, .unblocks q (.recvMatched m)) := by
      unfold mboxRecv
      rw [found]
      simp only [if_neg (not_lt.mpr size), if_pos zero, recorded]
    simp only [run, Point.exec, Call.start, seg, after, settle, enter_proc]
    rw [Function.update_of_ne apart, Function.update_self]
  | @receiverFirst q entry msg_ptr msg_size active zero pointed named suspended accepted _ moves =>
    right
    simp only [step, Option.ite_none_right_eq_some, Option.some.injEq] at moves
    obtain ⟨⟨_, out⟩, rfl⟩ := moves
    have found := Globals.activeMbox_eq_some.mpr ⟨rfl, active⟩
    have apart : p ≠ q := by
      rintro rfl
      rw [out] at suspended
      cases suspended
    have seg : mboxSend s.globals q (m : Nat) msg_ptr msg_size = (s.globals, .unblocks p (.sendMatched m)) := by
      unfold mboxSend
      rw [found]
      simp only [accepted, if_neg (show ¬ true = false by simp), if_pos zero, pointed, named]
    simp only [run, Point.exec, Call.start, seg, after, settle, enter_proc]
    rw [Function.update_self, Function.update_of_ne apart, suspended]
    rfl

/-- What the receive returns when its process runs on: nothing is copied. -/
theorem matched_returns (placed : s.proc p = .unblocking (.recvMatched m) ∨ s.proc p = .woken (.recvZero m))
    (resumes : s.step (.resume p) = some s') : ∃ r : Result, r.buf = [] ∧
      s'.returned (.recv (m : Nat)) = s.returned (.recv (m : Nat)) ++ [(s.ordinal p, r)] ∧
      (r.ret = 0 ↔ (s.proc p = .woken (.recvZero m) → (s.globals.mailboxes m).isActive = true)) := by
  simp only [step, Option.ite_none_right_eq_some] at resumes
  obtain ⟨_, resumes⟩ := resumes
  have returns : ∀ {pt : Point} {g : Globals} {r : Result}, pt.fn = .recv (m : Nat) →
      pt.exec s.globals p = (g, .returns r) → (s.enter p pt).ordinal p = s.ordinal p →
      (s.run p pt).returned (.recv (m : Nat)) = s.returned (.recv (m : Nat)) ++ [(s.ordinal p, r)] := by
    intro pt g r fn ends same
    rw [run, ends, returned_returns, fn, Function.update_self, same]
  rcases placed with at_ | at_ <;> rw [at_] at resumes <;> obtain rfl := Option.some.inj resumes
  · exact ⟨⟨0, []⟩, rfl, returns rfl rfl rfl, by simp [at_]⟩
  · cases status : (s.globals.mailboxes m).isActive with
    | false =>
      have ends : Point.exec s.globals p (.afterBlock (.recvZero m)) = (s.globals, .returns ⟨-1, []⟩) := by
        simp [Point.exec, Wait.resume, status, returnCode]
      exact ⟨⟨-1, []⟩, rfl, returns rfl ends rfl, by simp [at_]⟩
    | true =>
      have ends : Point.exec s.globals p (.afterBlock (.recvZero m)) = (s.globals, .returns ⟨0, []⟩) := by
        simp [Point.exec, Wait.resume, status, returnCode]
      exact ⟨⟨0, []⟩, rfl, returns rfl ends rfl, by simp⟩

/-- Whichever side comes first and whatever happens before the receiver runs
on, it has got the message exactly where that is empty and, if it had to wait,
it finds the mailbox still active. -/
theorem zeroSlot_transfers_iff {s₀ s₁ s₂ s₃ : Sys} (matched : Matched m p msg s₀ s₁)
    (others : Transition.Run Sys.step (fun _ a => a.pid ≠ p) s₁ s₂) (resumes : s₂.step (.resume p) = some s₃) :
    (∃ r, s₃.returned (.recv (m : Nat)) = s₂.returned (.recv (m : Nat)) ++ [(s₂.ordinal p, r)] ∧
        Transferred msg r) ↔
      msg = [] ∧ (s₂.proc p = .woken (.recvZero m) → (s₂.globals.mailboxes m).isActive = true) := by
  have placed : s₂.proc p = .unblocking (.recvMatched m) ∨ s₂.proc p = .woken (.recvZero m) :=
    matched.placed.imp (fun at_ => run_resting others at_ rfl) fun at_ => run_resting others at_ rfl
  obtain ⟨r, copied, returned, success⟩ := matched_returns placed resumes
  rw [← success]
  constructor
  · rintro ⟨r', returned', length, bytes⟩
    rw [returned] at returned'
    obtain rfl : r = r' := by simpa using returned'
    have empty : msg = [] := bytes.symm.trans copied
    exact ⟨empty, by rw [length, empty]; rfl⟩
  · rintro ⟨rfl, code⟩
    exact ⟨r, returned, code, copied⟩

/-- A receiver waits on a mailbox without slots that takes messages of up to
four bytes. -/
def fourByteReceiver : List Act :=
  [.call 1 (.create 0 4 true), .call 1 (.recv 7 ⟨true, 4⟩)]

/-- The message is sent and the receiver runs on. -/
def sentThen (msg : Message) (test : Sys → Bool) (s : Sys) : Bool :=
  (s.step (.call 2 (.send 7 (some msg) msg.length))).any fun s₁ =>
    (Transition.execute Sys.step (fun _ a => a.pid ≠ 1) s₁ [.resume 2, .yield 2]).any fun s₂ =>
      (s₂.globals.mailboxes 7).isActive && (s₂.step (.resume 1)).any test

/-- A message of up to four bytes meets the waiting receiver. -/
theorem exists_sent {msg : Message} {test : Sys → Bool} (short : msg.length ≤ 4)
    (passes : (Transition.execute Sys.step (fun _ _ => true) boot fourByteReceiver).any (sentThen msg test) = true) :
    ∃ s₀ s₁ s₂ s₃, Reaches fourByteReceiver s₀ ∧ Matched 7 1 msg s₀ s₁ ∧
      Transition.Run Sys.step (fun _ a => a.pid ≠ 1) s₁ s₂ ∧ (s₂.globals.mailboxes 7).isActive = true ∧
      s₂.step (.resume 1) = some s₃ ∧ test s₃ = true := by
  obtain ⟨s₀, reaches, sent⟩ := exists_reaches fourByteReceiver (sentThen msg test) passes
  obtain ⟨s, reaches', done⟩ := exists_reaches fourByteReceiver
    (fun s => (s.globals.mailboxes 7).isActive && (s.globals.mailboxes 7).numSlots = 0 &&
      (s.globals.mailboxes 7).slotSize = 4 && (s.globals.mailboxes 7).consumers = some 1 &&
      s.globals.shadowProcesses 1 = 1 && s.proc 1 = .blocked (.recvZero 7)) (by decide +kernel)
  obtain rfl := Option.some.inj (reaches.symm.trans reaches')
  simp only [Bool.and_eq_true, decide_eq_true_eq] at done
  obtain ⟨⟨⟨⟨⟨active, zero⟩, size⟩, pointed⟩, named⟩, suspended⟩ := done
  simp only [sentThen, Option.any_eq_true, Bool.and_eq_true] at sent
  obtain ⟨s₁, moves, s₂, executed, still, s₃, resumes, holds⟩ := sent
  have others : Transition.Run Sys.step (fun _ a => a.pid ≠ 1) s₁ s₂ :=
    (Transition.Run.of_executed executed).mono fun _ _ both => of_decide_eq_true both.1
  have accepted : s₀.globals.accepts 7 (some msg) msg.length = true := by
    simp only [Globals.accepts, size]
    simp
    omega
  have whole : msg = bytesAt (some msg) ((msg.length : Int)).toNat := by
    rw [Int.toNat_natCast, bytesAt_take msg le_rfl, List.take_length]
  exact ⟨s₀, s₁, s₂, s₃, reaches, .receiverFirst active zero pointed named suspended accepted whole moves, others,
    still, resumes, holds⟩

theorem zeroSlot_transfers_run : ∃ s₂ s₃ : Sys, ∃ r,
    s₃.returned (.recv 7) = s₂.returned (.recv 7) ++ [(s₂.ordinal 1, r)] ∧ Transferred [] r := by
  obtain ⟨s₀, s₁, s₂, s₃, _, matched, others, active, resumes, _⟩ :=
    @exists_sent [] (fun _ => true) (by simp) (by decide +kernel)
  obtain ⟨r, returned, transferred⟩ := (zeroSlot_transfers_iff matched others resumes).mpr ⟨rfl, fun _ => active⟩
  exact ⟨s₂, s₃, r, returned, transferred⟩

/-- One byte is sent to a receiver with room for four, which returns 0 and has
got nothing. -/
theorem zeroSlot_loses_byte : ∃ s₀ s₁ s₂ s₃, Reaches fourByteReceiver s₀ ∧ Matched 7 1 [65] s₀ s₁ ∧
    Transition.Run Sys.step (fun _ a => a.pid ≠ 1) s₁ s₂ ∧ s₂.step (.resume 1) = some s₃ ∧
    s₃.returned (.recv 7) = [(0, ⟨0, []⟩)] ∧ ¬ Transferred [65] ⟨0, []⟩ := by
  obtain ⟨s₀, s₁, s₂, s₃, reaches, matched, others, _, resumes, returned⟩ :=
    @exists_sent [65] (fun s => s.returned (.recv 7) = [(0, ⟨0, []⟩)]) (by simp) (by decide +kernel)
  refine ⟨s₀, s₁, s₂, s₃, reaches, matched, others, resumes, of_decide_eq_true returned, ?_⟩
  rintro ⟨length, _⟩
  simp at length

end Sys

end UslossKernel
