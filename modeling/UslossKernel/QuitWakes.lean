import UslossKernel.ExitStatus

namespace UslossKernel.Phase1b

open LinkedList Kernel

/-- Whom a blocked process waits for has not terminated. -/
structure Awaited (m : Machine) : Prop where
  joiner : ∀ p, m.kernel.status p = .blocked → m.place p = .inside .join →
    ∀ i, m.kernel.childOf i p → m.kernel.status i ≠ .terminated
  zapper : ∀ p pid, m.kernel.status p = .blocked → m.place p = .inside (.zap pid) →
    ∃ target, (m.kernel.process_table p).zap_target = some target ∧ m.pid target = pid ∧
      m.kernel.status target ≠ .terminated

variable {k k' : Kernel} {p q : Slot} {pt : Point} {seg : Segment} {ending : Ending}

/-- Nobody but the process that runs comes to be blocked. -/
theorem Path.blocked_before (path : Path k p pt seg) (other : q ≠ p) (blocked : seg.1.status q = .blocked) :
    seg.1.unlinked q = k.unlinked q := by
  have change := path.change q
  have atStatus : (seg.1.unlinked q).status = .blocked := blocked
  generalize seg.1.unlinked q = e at change atStatus
  cases change with
  | same => rfl
  | created _ _ status => cases atStatus.symm.trans status
  | blocks here => exact absurd here other
  | collected dead => cases atStatus.symm.trans dead
  | died | parentWoken | zapperWoken | unblocked => cases atStatus

/-- A child that another process waits for has not terminated in the meantime. -/
theorem Effect.joiner (effect : Effect k p pt (k', ending)) (running : k.running_process = some p) (other : q ≠ p)
    (blocked : k'.status q = .blocked) (before : ∀ i, k.childOf i q → k.status i ≠ .terminated) :
    ∀ i, k'.childOf i q → k'.status i ≠ .terminated := by
  intro i child
  cases effect with
  | quiet same =>
    rw [kin_childOf same.kin] at child
    rw [ne_eq, same.ended]
    exact before i child
  | @sporks _ slot _ _ _ sporked =>
    rcases (sporked.childOf_iff running i q).mp child with ⟨_, rfl⟩ | old
    · exact absurd rfl other
    · rw [sporked.status_of_ne (sporked.apart old.1)]
      exact before i old
  | collects =>
    rw [collect_status]
    exact before i ((collect_childOf i q).mp child).2
  | quits _ _ died =>
    rw [kin_childOf died.kin] at child
    rw [ne_eq, died.ended]
    rintro (rfl | dead)
    · exact died.wakes q (.inl child.2) blocked
    · exact before i child dead

/-- Nor has the process that it has zapped. -/
theorem Effect.target (effect : Effect k p pt (k', ending)) (family : Family k) {target : Slot}
    (blocked : k'.status q = .blocked) (zapped : (k.process_table q).zap_target = some target)
    (before : k.status target ≠ .terminated) :
    (k'.process_table target).pid = (k.process_table target).pid ∧ k'.status target ≠ .terminated := by
  cases effect with
  | quiet same =>
    rw [ne_eq, same.ended]
    exact ⟨kin_pid same.kin target, before⟩
  | @sporks _ slot _ _ _ sporked =>
    have apart : target ≠ slot := by
      rintro rfl
      exact before (family.free _ sporked.free)
    rw [sporked.pid_of_ne apart, sporked.status_of_ne apart]
    exact ⟨rfl, before⟩
  | @collects _ _ child _ found =>
    have apart : target ≠ child := by
      rintro rfl
      exact before (family.found found).2
    rw [collect_pid_of_ne apart, collect_status]
    exact ⟨rfl, before⟩
  | quits _ _ died =>
    rw [ne_eq, died.ended]
    refine ⟨kin_pid died.kin target, ?_⟩
    rintro (rfl | dead)
    · exact died.wakes q (.inr zapped) blocked
    · exact before dead

/-- The process that goes to sleep itself. -/
theorem Path.sleeper {inside : Inside} (path : Path k p pt (k', .dispatches inside)) (family : Family k) :
    (inside = .join → ∀ i, k'.childOf i p → k'.status i ≠ .terminated) ∧
      ∀ pid, inside = .zap pid → ∃ target, (k'.process_table p).zap_target = some target ∧
        (k'.process_table target).pid = pid ∧ k'.status target ≠ .terminated := by
  cases path with
  | yields => exact ⟨by rintro ⟨⟩, by rintro _ ⟨⟩⟩
  | sporks _ _ ending => rcases ending with ⟨⟨⟩⟩ | ⟨⟨⟩⟩; exact ⟨by rintro ⟨⟩, by rintro _ ⟨⟩⟩
  | quits | blocks | unblocks => exact ⟨by rintro ⟨⟩, by rintro _ ⟨⟩⟩
  | waits _ absent =>
    refine ⟨fun _ i child => ?_, by rintro _ ⟨⟩⟩
    by_cases here : i = p
    · rw [here, status_modify_self]
      simp
    · rw [status_modify_of_ne here]
      refine family.absent absent i ?_
      have kin : ∀ j, ((k.modify p fun e => { e with status := .blocked }).process_table j).kin =
          (k.process_table j).kin := modify_field Process.kin (fun _ => by rfl)
      rwa [kin_childOf kin] at child
  | @zaps pid target named alive =>
    refine ⟨by rintro ⟨⟩, ?_⟩
    rintro _ ⟨⟩
    refine ⟨target, by rw [modify_self], ?_, ?_⟩
    · rw [← named]
      exact modify_field Process.pid (fun _ => by rfl) target
    · by_cases here : target = p
      · rw [here, status_modify_self]
        simp
      · rwa [status_modify_of_ne here]

open Machine

/-- What the stretch of code of a process leaves of the waiting of the others. -/
theorem Awaited.others {m m' : Machine} (awaited : Awaited m) (ledger : Ledger m) (ready : m.Ready p pt)
    (path : Path (m.give p).kernel p pt (k, ending)) (kernel : m'.kernel = k)
    (places : ∀ q inside, q ≠ p → m'.place q = .inside inside → m.place q = .inside inside)
    (joiner : m'.place p = .inside .join → ∀ i, k.childOf i p → k.status i ≠ .terminated)
    (zapper : ∀ pid, m'.place p = .inside (.zap pid) → ∃ target, (k.process_table p).zap_target = some target ∧
      (k.process_table target).pid = pid ∧ k.status target ≠ .terminated) : Awaited m' := by
  have effect : Effect (m.give p).kernel p pt (k, ending) := by
    refine path.effect ?_
    rw [give_status, ready.runnable]
    decide
  subst kernel
  refine ⟨fun q blocked place => ?_, fun q pid blocked place => ?_⟩
  · by_cases here : q = p
    · subst here
      exact joiner place
    · have before := path.blocked_before here blocked
      have asleep : m.kernel.status q = .blocked := (status_congr before).symm.trans blocked
      exact effect.joiner give_running here blocked (awaited.joiner q asleep (places q _ here place))
  · by_cases here : q = p
    · subst here
      exact zapper pid place
    · have before := path.blocked_before here blocked
      have asleep : m.kernel.status q = .blocked := (status_congr before).symm.trans blocked
      obtain ⟨target, zapped, named, alive⟩ := awaited.zapper q pid asleep (places q _ here place)
      obtain ⟨same, alive'⟩ := effect.target (ledger.give p).family blocked zapped alive
      exact ⟨target, (target_congr before).trans zapped, same.trans named, alive'⟩

theorem Awaited.turn {m m' : Machine} {t : Turn} (awaited : Awaited m) (ledger : Ledger m) (taken : Taken m t m') :
    Awaited m' := by
  cases taken with
  | @begins p goesOn live place =>
    refine ⟨fun q blocked at_ => awaited.joiner q blocked ?_, fun q pid blocked at_ => awaited.zapper q pid blocked ?_⟩
    all_goals
      have here : q ≠ p := by
        rintro rfl
        simp at at_
      simpa [here] using at_
  | @returns p pt k value status ready goes =>
    refine awaited.others ledger ready (ready.path goes) rfl (fun q inside other at_ => ?_) ?_ ?_
    · rw [back_place_of_ne other] at at_
      exact (contexts_inside at_).1
    · rw [back_place_self]
      rintro ⟨⟩
    · rw [back_place_self]
      rintro _ ⟨⟩
  | @yields p pt k inside ready goes =>
    obtain ⟨joins, zaps⟩ := (ready.path goes).sleeper (ledger.give p).family
    refine awaited.others ledger ready (ready.path goes) rfl (fun q inside other at_ => ?_) ?_ ?_
    · rw [switch_place_of_ne other] at at_
      exact (contexts_inside at_).1
    · rw [switch_place_self]
      exact fun same => joins (Place.inside.inj same)
    · rw [switch_place_self]
      exact fun pid same => zaps pid (Place.inside.inj same)
  | halts => exact ⟨awaited.joiner, awaited.zapper⟩
  | @stops p pt reason ready => cases pt <;> exact ⟨awaited.joiner, awaited.zapper⟩

theorem boot_awaited : Awaited boot := by
  have nobody : ∀ p, boot.kernel.status p ≠ .blocked := by decide
  exact ⟨fun p blocked => absurd blocked (nobody p), fun p _ blocked => absurd blocked (nobody p)⟩

/-- No process sleeps in `join` with a terminated child, or in `zap` after the
end of the process it has zapped. -/
theorem quit_loses_no_wakeup {m : Machine} (ordered : Ordered m) :
    (∀ p, m.kernel.status p = .blocked → m.place p = .inside .join →
      ∀ i, m.kernel.childOf i p → m.kernel.status i ≠ .terminated) ∧
    ∀ p pid, m.kernel.status p = .blocked → m.place p = .inside (.zap pid) →
      ∃ target, (m.kernel.process_table p).zap_target = some target ∧ m.kernel.occupied target = true ∧
        m.pid target = pid ∧ m.kernel.status target ≠ .terminated := by
  have awaited : Awaited m :=
    Transition.Run.invariant_above ordered (fun _ earlier => Ordered.ledger earlier) Awaited boot_awaited
      fun _ _ _ ledger before _ moves => before.turn ledger (turn_taken moves)
  refine ⟨awaited.joiner, fun p pid blocked place => ?_⟩
  obtain ⟨target, zapped, named, alive⟩ := awaited.zapper p pid blocked place
  have family := ordered.ledger.family
  have occupied : m.kernel.occupied target = true := by
    by_contra free
    exact alive (family.free target (by simpa using free))
  exact ⟨target, zapped, occupied, named, alive⟩

/-- `init` waits for its children, and one of these for the end of the other. -/
def waitingFamily : List Turn :=
  [.resume initSlot, .call initSlot (sporks 3), .resume testcaseSlot, .resume initSlot, .call initSlot (sporks 3),
    .call testcaseSlot (.zap 3), .resume initSlot, .call initSlot (.join true)]

theorem quit_loses_no_wakeup_waiting : ∃ m, Ordered m ∧
    (m.kernel.status initSlot = .blocked ∧ m.place initSlot = .inside .join ∧
      m.kernel.status testcaseSlot = .blocked ∧ m.place testcaseSlot = .inside (.zap 3)) ∧
    (∀ p, m.kernel.status p = .blocked → m.place p = .inside .join →
      ∀ i, m.kernel.childOf i p → m.kernel.status i ≠ .terminated) ∧
    ∀ p pid, m.kernel.status p = .blocked → m.place p = .inside (.zap pid) →
      ∃ target, (m.kernel.process_table p).zap_target = some target ∧ m.kernel.occupied target = true ∧
        m.pid target = pid ∧ m.kernel.status target ≠ .terminated := by
  obtain ⟨m, ordered, waits⟩ := exists_ordered waitingFamily
    (fun m => decide (m.kernel.status initSlot = .blocked ∧ m.place initSlot = .inside .join ∧
      m.kernel.status testcaseSlot = .blocked ∧ m.place testcaseSlot = .inside (.zap 3))) (by decide +kernel)
  exact ⟨m, ordered, of_decide_eq_true waits, quit_loses_no_wakeup ordered⟩

end UslossKernel.Phase1b
