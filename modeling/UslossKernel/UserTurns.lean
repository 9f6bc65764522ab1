import UslossKernel.UserCalls

namespace UslossKernel.Phase3

open LinkedList Phase1b Kernel Machine Users

/-- What a turn of `p` leaves of the table and the history. -/
structure Turned (m : Machine) (p : Slot) (m' : Machine) : Prop where
  here : m.kernel.occupied p = true
  log : ∃ newer, m'.log = newer ++ m.log ∧ ∀ e ∈ newer, e.caller = m.pid p
  self : m'.kernel.occupied p = true ∧ m'.pid p = m.pid p
  entry : ∀ i, m'.kernel.occupied i = true → m.kernel.occupied i = true ∧ m'.pid i = m.pid i ∨
    m.kernel.occupied i = false ∧ (m.kernel.next_pid : Int) ≤ m'.pid i ∧ m'.place i = .fresh
  one : ∀ i j, taken m m' i = true → taken m m' j = true → i = j
  childOf : ∀ i q, m'.kernel.childOf i q → m.kernel.childOf i q ∨ taken m m' i = true ∧ q = p
  place : ∀ q, q ≠ p → m.kernel.occupied q = true → m'.place q = m.place q
  ran : m'.place p ≠ .fresh
  counts : m.kernel.next_pid ≤ m'.kernel.next_pid

variable {m m' : Machine} {p q i : Slot} {pt : Phase1b.Point} {k : Kernel} {ending : Ending} {t : Turn}

/-- The entries after a stretch of code: those that were there, and one that has been taken. -/
theorem entries_after (ledger : Ledger m) (ready : m.Ready p pt)
    (goes : pt.exec (m.give p).kernel p = (k, ending)) :
    (k.occupied p = true ∧ (k.process_table p).pid = m.pid p) ∧
    (∀ i, k.occupied i = true → m.kernel.occupied i = true ∧ (k.process_table i).pid = m.pid i ∨
      m.kernel.occupied i = false ∧ (m.kernel.next_pid : Int) ≤ (k.process_table i).pid) ∧
    (∃ slot, ∀ i, m.kernel.occupied i = false → k.occupied i = true → i = slot) ∧
    ∀ i q, k.childOf i q → m.kernel.childOf i q ∨ (m.kernel.occupied i = false ∧ k.occupied i = true) ∧ q = p := by
  have alive : (m.give p).kernel.status p ≠ .terminated := by
    rw [give_status, ready.runnable]
    decide
  have effect := (ready.path goes).effect alive
  have occupied : (m.give p).kernel.occupied p = true := ready.occupied
  have same : ∀ {k' : Kernel}, (∀ j, (k'.process_table j).kin = (m.kernel.process_table j).kin) →
      (k'.occupied p = true ∧ (k'.process_table p).pid = m.pid p) ∧
      (∀ i, k'.occupied i = true → m.kernel.occupied i = true ∧ (k'.process_table i).pid = m.pid i ∨
        m.kernel.occupied i = false ∧ (m.kernel.next_pid : Int) ≤ (k'.process_table i).pid) ∧
      (∃ slot, ∀ i, m.kernel.occupied i = false → k'.occupied i = true → i = slot) ∧
      ∀ i q, k'.childOf i q → m.kernel.childOf i q ∨ (m.kernel.occupied i = false ∧ k'.occupied i = true) ∧ q = p := by
    intro k' kin
    rw [kin_occupied kin, kin_childOf kin]
    refine ⟨⟨occupied, kin_pid kin p⟩, fun i taken => .inl ⟨taken, kin_pid kin i⟩, ⟨p, fun i free taken => ?_⟩,
      fun i q child => .inl child⟩
    exact absurd (free.symm.trans taken) (by decide)
  cases effect with
  | quiet quiet => exact same quiet.kin
  | @sporks _ slot _ _ _ sporked =>
    have apart := sporked.apart occupied
    have first := (drawPid_first m.kernel.next_pid).1
    refine ⟨⟨(sporked.occupied_of_ne apart).trans occupied, sporked.pid_of_ne apart⟩, fun i taken => ?_,
      ⟨slot, fun i free taken => ?_⟩, fun i q child => ?_⟩
    · by_cases new : i = slot
      · subst new
        have named : (k.process_table i).pid = drawPid m.kernel.next_pid := sporked.created.1
        exact .inr ⟨sporked.free, by omega⟩
      · exact .inl ⟨(sporked.occupied_of_ne new).symm.trans taken, sporked.pid_of_ne new⟩
    · by_contra new
      exact absurd (((sporked.occupied_of_ne new).symm.trans taken).symm.trans free) (by decide)
    · rcases (sporked.childOf_iff give_running i q).mp child with ⟨rfl, rfl⟩ | old
      · exact .inr ⟨⟨sporked.free, child.1⟩, rfl⟩
      · exact .inl old
  | @collects _ before child _ found =>
    have dead := ((ledger.give p).family.found found).2
    have apart : p ≠ child := by
      rintro rfl
      exact alive dead
    refine ⟨⟨(collect_occupied_of_ne apart).trans occupied, collect_pid_of_ne apart⟩, fun i taken => .inl ?_,
      ⟨p, fun i free taken => ?_⟩, fun i q isChild => .inl ((collect_childOf i q).mp isChild).2⟩
    · obtain ⟨other, occupied⟩ := collect_taken taken
      exact ⟨occupied, collect_pid_of_ne other⟩
    · exact absurd ((collect_taken taken).2.symm.trans free) (by decide)
  | quits _ _ died => exact same died.kin

/-- An entry that was taken keeps its place in the code. -/
theorem Turned.of_taken (ledger : Ledger m) (taken : Taken m t m') (goesOn : m'.stopped = none) :
    Turned m t.process m' := by
  -- a stretch of code of `p`, after which the other processes are where they were
  have stretch : ∀ {p pt k ending}, m.Ready p pt → pt.exec (m.give p).kernel p = (k, ending) → m'.kernel = k →
      (∀ q, q ≠ p → m'.place q = m.contexts k q) → m'.place p ≠ .fresh →
      (∃ newer, m'.log = newer ++ m.log ∧ ∀ e ∈ newer, e.caller = m.pid p) → Turned m p m' := by
    rintro p pt k ending ready goes rfl places ran log
    obtain ⟨self, entries, ⟨slot, one⟩, children⟩ := entries_after ledger ready goes
    refine ⟨ready.occupied, log, self, fun i occupied => ?_, fun i j takenI takenJ => ?_, fun i q child => ?_,
      fun q other occupied => ?_, ran, (ready.path goes).next_pid_le⟩
    · rcases entries i occupied with old | ⟨free, bound⟩
      · exact .inl old
      · have other : i ≠ p := by
          rintro rfl
          exact absurd (ready.occupied.symm.trans free) (by decide)
        exact .inr ⟨free, bound, (places i other).trans (EntryTable.renewed_new free occupied)⟩
    · simp only [Users.taken, Bool.and_eq_true, Bool.not_eq_true'] at takenI takenJ
      exact (one i takenI.1 takenI.2).trans (one j takenJ.1 takenJ.2).symm
    · refine (children i q child).imp_right fun new => ⟨?_, new.2⟩
      simp [Users.taken, new.1]
    · rw [places q other, show m.contexts m'.kernel q = m.place q from EntryTable.renewed_of_taken occupied]
  cases taken with
  | @begins p goesOn live place =>
    have occupied : m.kernel.occupied p = true := by
      simp only [Machine.live, Bool.and_eq_true] at live
      exact live.1
    refine ⟨occupied, ⟨[], rfl, by simp⟩, ⟨occupied, rfl⟩, fun i taken => .inl ⟨taken, rfl⟩, fun i j taken => ?_,
      fun i q child => .inl child, fun q other _ => Function.update_of_ne other .., ?_, le_rfl⟩
    · simp [Users.taken] at taken
    · show Function.update m.place p Place.user p ≠ .fresh
      simp
  | @returns p pt k value status ready goes =>
    obtain ⟨entered, grown, calls⟩ := enter_log (m.give p) p pt
    rw [turn_process]
    refine stretch ready goes rfl (fun q other => back_place_of_ne other) (by simp [Machine.back])
      ⟨.returned (m.pid p) pt.fn value status :: entered, by simp [Machine.back, grown], fun e member => ?_⟩
    rcases List.mem_cons.mp member with rfl | call
    · rfl
    · obtain ⟨fn, rfl⟩ := calls e call
      rfl
  | @yields p pt k inside ready goes =>
    obtain ⟨entered, grown, calls⟩ := enter_log (m.give p) p pt
    rw [turn_process]
    refine stretch ready goes rfl (fun q other => switch_place_of_ne other) (by simp [Machine.switch])
      ⟨entered, grown, fun e member => ?_⟩
    obtain ⟨fn, rfl⟩ := calls e member
    rfl
  | halts => cases goesOn
  | stops => cases goesOn

/-- A stretch of code takes no entry, or is a call of `spork` that takes one. -/
theorem entries_taken (ready : m.Ready p pt)
    (goes : pt.exec (m.give p).kernel p = (k, ending)) :
    ((∀ i, k.occupied i = true → m.kernel.occupied i = true) ∧ ∀ i, ending ≠ .dispatches (.spork i)) ∨
      ∃ call slot, pt = .call call ∧ Sporked (m.give p).kernel slot k ∧
        ∀ i, ending = .dispatches (.spork i) → i = slot := by
  have alive : (m.give p).kernel.status p ≠ .terminated := by
    rw [give_status, ready.runnable]
    decide
  have effect := (ready.path goes).effect alive
  cases effect with
  | quiet quiet named =>
    refine .inl ⟨fun i occupied => kin_occupied quiet.kin ▸ occupied, ?_⟩
    rintro i rfl
    obtain ⟨fn, notSpork, _⟩ := named _ rfl
    exact notSpork fn.symm
  | @sporks call slot _ _ _ sporked ends =>
    refine .inr ⟨call, slot, rfl, sporked, ?_⟩
    rintro i rfl
    rcases ends with impossible | same
    · cases impossible
    · cases same
      rfl
  | collects _ found => exact .inl ⟨fun i occupied => (collect_taken occupied).2, by rintro _ ⟨⟩⟩
  | quits _ _ died => exact .inl ⟨fun i occupied => kin_occupied died.kin ▸ occupied, by rintro _ ⟨⟩⟩

/-- How the code of `p` comes to an end, and what it returns. -/
theorem runOn_cases (p : Slot) (pt : Phase1b.Point) :
    (∃ k value status, pt.exec (m.give p).kernel p = (k, .returns value status) ∧
      (m.give p).runOn p pt = ((m.give p).enter p pt).back p pt.fn k value status) ∨
    (∃ k inside, pt.exec (m.give p).kernel p = (k, .dispatches inside) ∧
      (m.give p).runOn p pt = ((m.give p).enter p pt).switch p inside k) ∨
    ∃ reason, (m.give p).runOn p pt = ((m.give p).enter p pt).stop reason := by
  unfold runOn yieldOrSettle settle
  cases ends : (pt.exec (m.give p).kernel p).2 with
  | returns value status => exact .inl ⟨_, value, status, Prod.ext rfl ends, rfl⟩
  | dispatches inside => exact .inr (.inl ⟨_, inside, Prod.ext rfl ends, rfl⟩)
  | halts code => exact .inr (.inr ⟨_, rfl⟩)
  | hangs walk => exact .inr (.inr ⟨_, rfl⟩)
  | crashes => exact .inr (.inr ⟨_, rfl⟩)

theorem reply_back {fn : Phase1b.Fn} {value : Int} {status : Option Int} :
    reply m (((m.give p).enter p pt).back p fn k value status) = some (value, status) := by
  cases pt <;> simp +arith [reply, Machine.back, Machine.enter]

theorem reply_switch {inside : Phase1b.Inside} : reply m (((m.give p).enter p pt).switch p inside k) = none := by
  cases pt <;> simp +arith [reply, Machine.switch, Machine.enter]

theorem reply_stop {reason : Stop} : reply m (((m.give p).enter p pt).stop reason) = none := by
  cases pt <;> simp +arith [reply, Machine.stop, Machine.enter]

end UslossKernel.Phase3
