import UslossKernel.SemaphoreMachine

namespace UslossKernel

/-- The semaphores with the calls of the kernel. -/
abbrev KernSems := SemMachine SemCall

namespace KernSems

abbrev step : KernSems → SemAct SemCall SemCreation → Option KernSems := SemMachine.step

/-- When the calls on a semaphore keep the law: `kernSemV` is called while one
process is suspended in `kernSemP`, `kernSemP` only while nobody is suspended in
`sys_semp`, the system calls only while nobody is suspended in `kernSemP`, and
nobody goes through on what `kernSemV` has added. -/
def Admits (s : KernSems) (i : SemId) : SemCall → Prop
  | .kernSemV => ∃ q, s.place q = .suspended .kernSemP i ∧ ∀ r, s.place r = .suspended .kernSemP i → r = q
  | .kernSemP => 0 ≤ (s.sems i).value ∧ (0 < (s.sems i).value → s.started .kernSemV i < (s.sems i).value)
  | .sys .semp => (∀ q, s.place q ≠ .suspended .kernSemP i) ∧
      (0 < (s.sems i).value → s.started .kernSemV i < (s.sems i).value)
  | .sys .semv => ∀ q, s.place q ≠ .suspended .kernSemP i

/-- The mailboxes are ideal, and the calls on this semaphore keep the law. -/
def Guard (i : SemId) (s : KernSems) (a : SemAct SemCall SemCreation) : Prop :=
  s.IdealMailbox a ∧
    ∀ p call index meeting, a = .call p call index meeting → s.sems.inUse index = some i → Admits s i call

/-- It is in a `P` that goes on. -/
def passes (i : SemId) : CallPlace SemCall → Bool
  | .runnable (.sys .semp) j | .runnable .kernSemP j => j = i
  | _ => false

theorem passes_of_not_on {i : SemId} {here : CallPlace SemCall} (away : here.on i = false) :
    passes i here = false := by
  unfold passes
  split
  · simpa [CallPlace.on] using away
  · simpa [CallPlace.on] using away
  · rfl

theorem suspended_of_not_on {i : SemId} (call : SemCall) : ∀ here : CallPlace SemCall, here.on i = false →
    decide (here = .suspended call i) = false :=
  CallPlace.ne_of_not_on (by simp [CallPlace.on])

variable {s s' : KernSems} {i : SemId} {p : Pid} {a : SemAct SemCall SemCreation}

/-- The semaphore with so many processes suspended in `sys_semp` and in
`kernSemP`, and so many on their way out of either. -/
structure Lawful (s : KernSems) (i : SemId) (down kern passing : Nat) : Prop where
  downs : Counts s.place (fun here => decide (here = .suspended (.sys .semp) i)) down
  kerns : Counts s.place (fun here => decide (here = .suspended .kernSemP i)) kern
  passings : Counts s.place (passes i) passing
  ups : ∀ q, s.place q ≠ .suspended (.sys .semv) i ∧ s.place q ≠ .suspended .kernSemV i
  blocked : (s.sems i).blocked = down
  negative : (down : Int) = max 0 (-(s.sems i).value)
  excess : (s.started .kernSemV i : Int) ≤ max 0 (s.sems i).value
  zero : 0 < kern → (s.sems i).value = 0
  balance : ((s.returned (.sys .semp) i + s.returned .kernSemP i + passing : Nat) : Int) + (s.sems i).value + down =
    s.initial i + s.started (.sys .semv) i + 2 * s.started .kernSemV i

/-- The numbers of processes and the counters of a semaphore that is left alone. -/
theorem Lawful.congr {down kern passing : Nat} (lawful : Lawful s i down kern passing)
    (untouched : s.Untouched s' i) : Lawful s' i down kern passing := by
  obtain ⟨sem, initial, started, returned, places⟩ := untouched
  have noUps : ∀ call, (∀ q, s.place q ≠ .suspended call i) → ∀ q, s'.place q ≠ .suspended call i := by
    intro call none q here
    have counted : Counts s.place (fun here => decide (here = .suspended call i)) 0 :=
      Counts.zero_iff.mpr fun q => decide_eq_false (none q)
    exact absurd here (of_decide_eq_false (Counts.zero_iff.mp (places _ (suspended_of_not_on call) 0 counted) q))
  refine ⟨places _ (suspended_of_not_on _) _ lawful.downs, places _ (suspended_of_not_on _) _ lawful.kerns,
    places _ (fun _ => passes_of_not_on) _ lawful.passings,
    fun q => ⟨noUps _ (fun q => (lawful.ups q).1) q, noUps _ (fun q => (lawful.ups q).2) q⟩, ?_, ?_, ?_, ?_, ?_⟩
  · rw [sem]
    exact lawful.blocked
  · rw [sem]
    exact lawful.negative
  · rw [sem, started]
    exact lawful.excess
  · rw [sem]
    exact lawful.zero
  · rw [sem, started, started, returned, returned, initial]
    exact lawful.balance

/-- Some numbers of processes are those of the semaphore. -/
def Law (s : KernSems) (i : SemId) : Prop := ∃ down kern passing, s.Lawful i down kern passing

theorem Lawful.no_kern {down kern passing : Nat} (lawful : s.Lawful i down kern passing)
    (none : ∀ q, s.place q ≠ .suspended .kernSemP i) : kern = 0 := by
  have zero : Counts s.place (fun here => decide (here = .suspended .kernSemP i)) 0 :=
    Counts.zero_iff.mpr fun q => decide_eq_false (none q)
  exact lawful.kerns.unique zero

/-- Whom a send finds suspended in a receive. -/
theorem Lawful.receiver {down kern passing : Nat} (lawful : s.Lawful i down kern passing) {q : Pid} {other : SemCall}
    (here : s.place q = .suspended other i) (receives : other.sends = false) : other = .sys .semp := by
  cases other with
  | sys op =>
    cases op with
    | semp => rfl
    | semv => cases receives
  | kernSemP => cases receives
  | kernSemV => exact absurd here (lawful.ups q).2

/-- Whom a receive finds suspended in a send. -/
theorem Lawful.sender {down kern passing : Nat} (lawful : s.Lawful i down kern passing) {q : Pid} {other : SemCall}
    (here : s.place q = .suspended other i) (sends : other.sends = true) : other = .kernSemP := by
  cases other with
  | sys op =>
    cases op with
    | semp => cases sends
    | semv => exact absurd here (lawful.ups q).1
  | kernSemP => rfl
  | kernSemV => cases sends

theorem Lawful.semp {down kern passing : Nat} (lawful : s.Lawful i down kern passing) (out : s.place p = .outside)
    (admits : s.Admits i (.sys .semp)) (called : s.Called p (.sys .semp) i s') : s'.Law i := by
  obtain ⟨nobody, excess⟩ := admits
  have noKern := lawful.no_kern nobody
  have negative := lawful.negative
  have bound := lawful.excess
  have balance := lawful.balance
  cases called with
  | passes meets =>
    rw [SemInterface.call_semCall] at meets
    have positive : ¬ (s.sems i).value - 1 < 0 := by
      intro below
      simp [SemCall.entry, below] at meets
    have entry : (SemCall.sys .semp).entry (s.sems i) =
        ({ s.sems i with value := (s.sems i).value - 1 }, false) := if_neg positive
    have more := excess (by omega)
    refine ⟨down, kern, passing, lawful.downs, lawful.kerns, lawful.passings, lawful.ups, ?_, ?_, ?_, ?_, ?_⟩
    all_goals simp only [SemInterface.call_semCall, entry, Function.update_self, countCall_apply]
    · exact lawful.blocked
    · omega
    · simp
      omega
    · omega
    · simp
      omega
  | waits meets alone =>
    rw [SemInterface.call_semCall] at meets
    have low : (s.sems i).value - 1 < 0 := by
      by_contra high
      rw [SemCall.entry, if_neg high] at meets
      cases meets
    have entry : (SemCall.sys .semp).entry (s.sems i) =
        ({ s.sems i with value := (s.sems i).value - 1, blocked := (s.sems i).blocked + 1 }, true) := if_pos low
    have blocked := lawful.blocked
    refine ⟨down + 1, kern, passing, ?_, ?_, ?_, fun q => ?_, ?_, ?_, ?_, ?_, ?_⟩
    · simpa using SemMachine.counts_enter lawful.downs out (by simp) (.suspended (.sys .semp) i)
    · simpa using SemMachine.counts_enter lawful.kerns out (by simp) (.suspended (.sys .semp) i)
    · simpa [passes] using SemMachine.counts_enter lawful.passings out rfl (.suspended (.sys .semp) i)
    · simp only [Function.update_apply]
      split
      · simp
      · exact lawful.ups q
    all_goals simp only [SemInterface.call_semCall, entry, Function.update_self, countCall_apply]
    · omega
    · omega
    · simp
      omega
    · omega
    · simp
      omega
  | wakes meets here opposite =>
    rw [SemInterface.call_semCall] at meets
    have sends := lawful.sender here (by simpa [SemCall.sends] using opposite)
    subst sends
    exact absurd here (nobody _)

theorem Lawful.semv {down kern passing : Nat} (lawful : s.Lawful i down kern passing) (out : s.place p = .outside)
    (nobody : s.Admits i (.sys .semv)) (called : s.Called p (.sys .semv) i s') : s'.Law i := by
  have noKern := lawful.no_kern nobody
  have blocked := lawful.blocked
  have negative := lawful.negative
  have bound := lawful.excess
  have balance := lawful.balance
  cases called with
  | passes meets =>
    rw [SemInterface.call_semCall] at meets
    have high : ¬ ((s.sems i).value + 1 ≤ 0 ∧ (s.sems i).blocked > 0) := by
      intro low
      rw [SemCall.entry, if_pos low] at meets
      cases meets
    have entry : (SemCall.sys .semv).entry (s.sems i) =
        ({ s.sems i with value := (s.sems i).value + 1 }, false) := if_neg high
    refine ⟨down, kern, passing, lawful.downs, lawful.kerns, lawful.passings, lawful.ups, ?_, ?_, ?_, ?_, ?_⟩
    all_goals simp only [SemInterface.call_semCall, entry, Function.update_self, countCall_apply]
    · exact lawful.blocked
    · omega
    · simp
      omega
    · omega
    · simp
      omega
  | waits meets alone =>
    rw [SemInterface.call_semCall] at meets
    -- the send finds one of those that wait
    have low : (s.sems i).value + 1 ≤ 0 ∧ (s.sems i).blocked > 0 := by
      by_contra high
      rw [SemCall.entry, if_neg high] at meets
      cases meets
    obtain ⟨q, here⟩ := lawful.downs.exists_of_pos (by omega)
    exact absurd (alone q _ (of_decide_eq_true here)) (by decide)
  | @wakes q other meets here opposite =>
    rw [SemInterface.call_semCall] at meets
    obtain rfl := lawful.receiver here (by simpa [SemCall.sends] using opposite)
    have low : (s.sems i).value + 1 ≤ 0 ∧ (s.sems i).blocked > 0 := by
      by_contra high
      rw [SemCall.entry, if_neg high] at meets
      cases meets
    have entry : (SemCall.sys .semv).entry (s.sems i) =
        ({ s.sems i with value := (s.sems i).value + 1, blocked := (s.sems i).blocked - 1 }, true) := if_pos low
    refine ⟨down - 1, kern, passing + 1, ?_, ?_, ?_, fun r => ?_, ?_, ?_, ?_, ?_, ?_⟩
    · simpa using
        SemMachine.counts_wake lawful.downs out (by simp) here (.runnable (.sys .semv) i) (.runnable (.sys .semp) i)
    · simpa using
        SemMachine.counts_wake lawful.kerns out (by simp) here (.runnable (.sys .semv) i) (.runnable (.sys .semp) i)
    · simpa [passes] using
        SemMachine.counts_wake lawful.passings out rfl here (.runnable (.sys .semv) i) (.runnable (.sys .semp) i)
    · simp only [Function.update_apply]
      split
      · simp
      · split
        · simp
        · exact lawful.ups r
    all_goals simp only [SemInterface.call_semCall, entry, Function.update_self, countCall_apply]
    · omega
    · omega
    · simp
      omega
    · omega
    · simp
      omega

theorem Lawful.kernSemP {down kern passing : Nat} (lawful : s.Lawful i down kern passing) (out : s.place p = .outside)
    (admits : s.Admits i .kernSemP) (called : s.Called p .kernSemP i s') : s'.Law i := by
  obtain ⟨nonneg, excess⟩ := admits
  have negative := lawful.negative
  have bound := lawful.excess
  have zero := lawful.zero
  have balance := lawful.balance
  cases called with
  | passes meets =>
    rw [SemInterface.call_semCall] at meets
    have positive : (s.sems i).value ≠ 0 := by
      intro isZero
      simp [SemCall.entry, isZero] at meets
    have entry : SemCall.kernSemP.entry (s.sems i) =
        ({ s.sems i with value := (s.sems i).value - 1 }, false) := if_neg positive
    have more := excess (by omega)
    have noKern : kern = 0 := by omega
    refine ⟨down, kern, passing, lawful.downs, lawful.kerns, lawful.passings, lawful.ups, ?_, ?_, ?_, ?_, ?_⟩
    all_goals simp only [SemInterface.call_semCall, entry, Function.update_self, countCall_apply]
    · exact lawful.blocked
    · omega
    · simp
      omega
    · omega
    · simp
      omega
  | waits meets alone =>
    rw [SemInterface.call_semCall] at meets
    have isZero : (s.sems i).value = 0 := by
      by_contra other
      simp [SemCall.entry, other] at meets
    have entry : SemCall.kernSemP.entry (s.sems i) = (s.sems i, true) := if_pos isZero
    refine ⟨down, kern + 1, passing, ?_, ?_, ?_, fun q => ?_, ?_, ?_, ?_, ?_, ?_⟩
    · simpa using SemMachine.counts_enter lawful.downs out (by simp) (.suspended .kernSemP i)
    · simpa using SemMachine.counts_enter lawful.kerns out (by simp) (.suspended .kernSemP i)
    · simpa [passes] using SemMachine.counts_enter lawful.passings out rfl (.suspended .kernSemP i)
    · simp only [Function.update_apply]
      split
      · simp
      · exact lawful.ups q
    all_goals simp only [SemInterface.call_semCall, entry, Function.update_self, countCall_apply]
    · exact lawful.blocked
    · omega
    · simp
      omega
    · omega
    · simp
      omega
  | wakes meets here opposite =>
    rw [SemInterface.call_semCall] at meets
    have isZero : (s.sems i).value = 0 := by
      by_contra other
      simp [SemCall.entry, other] at meets
    obtain rfl := lawful.receiver here (by simpa [SemCall.sends] using opposite)
    have waits := lawful.downs.pos (decide_eq_true here)
    omega

theorem Lawful.kernSemV {down kern passing : Nat} (lawful : s.Lawful i down kern passing) (out : s.place p = .outside)
    (admits : s.Admits i .kernSemV) (called : s.Called p .kernSemV i s') : s'.Law i := by
  obtain ⟨single, waits, only⟩ := admits
  have negative := lawful.negative
  have bound := lawful.excess
  have zero := lawful.zero (lawful.kerns.pos (decide_eq_true waits))
  have balance := lawful.balance
  cases called with
  | passes meets => cases meets
  | waits _ alone => exact absurd (alone single .kernSemP waits) (by decide)
  | @wakes q other meets here opposite =>
    rw [SemInterface.call_semCall] at meets
    obtain rfl := lawful.sender here (by simpa [SemCall.sends] using opposite)
    obtain rfl := only q here
    refine ⟨down, 0, passing + 1, ?_, ?_, ?_, fun r => ?_, ?_, ?_, ?_, ?_, ?_⟩
    · simpa using
        SemMachine.counts_wake lawful.downs out (by simp) here (.runnable .kernSemV i) (.runnable .kernSemP i)
    · refine Counts.zero_iff.mpr fun r => decide_eq_false ?_
      simp only [Function.update_apply]
      split
      · simp
      · rename_i other
        split
        · simp
        · exact fun here' => other (only r here')
    · simpa [passes] using
        SemMachine.counts_wake lawful.passings out rfl here (.runnable .kernSemV i) (.runnable .kernSemP i)
    · simp only [Function.update_apply]
      split
      · simp
      · split
        · simp
        · exact lawful.ups r
    all_goals simp only [SemInterface.call_semCall, SemCall.entry, Function.update_self, countCall_apply]
    · exact lawful.blocked
    · omega
    · simp
      omega
    · omega
    · simp
      omega

/-- A call on the semaphore that is admitted. -/
theorem Law.called {call : SemCall} (law : s.Law i) (out : s.place p = .outside) (admits : s.Admits i call)
    (called : s.Called p call i s') : s'.Law i := by
  obtain ⟨down, kern, passing, lawful⟩ := law
  cases call with
  | sys op =>
    cases op with
    | semp => exact lawful.semp out admits called
    | semv => exact lawful.semv out admits called
  | kernSemP => exact lawful.kernSemP out admits called
  | kernSemV => exact lawful.kernSemV out admits called

/-- A call that has been woken, or has woken another, returns. -/
theorem Law.resume {call : SemCall} (law : s.Law i) (here : s.place p = .runnable call i) :
    Law { s with place := Function.update s.place p .outside, returned := countCall s.returned call i } i := by
  obtain ⟨down, kern, passing, lawful⟩ := law
  have balance := lawful.balance
  have downs := lawful.downs.update p .outside
  have kerns := lawful.kerns.update p .outside
  have passings := lawful.passings.update p .outside
  rw [here] at downs kerns passings
  refine ⟨down, kern, passing - (if passes i (.runnable call i) then 1 else 0), by simpa using downs,
    by simpa using kerns, by simpa [passes] using passings, fun q => ?_, lawful.blocked, lawful.negative,
    lawful.excess, lawful.zero, ?_⟩
  · simp only [Function.update_apply]
    split
    · simp
    · exact lawful.ups q
  · have woken : passes i (.runnable call i) = true → 0 < passing := fun passes =>
      lawful.passings.pos (i := p) (by rw [here]; exact passes)
    simp only [countCall_apply]
    cases call with
    | sys op =>
      cases op with
      | semp =>
        have positive := woken (by simp [passes])
        simp [passes]
        omega
      | semv =>
        simp [passes]
        omega
    | kernSemP =>
      have positive := woken (by simp [passes])
      simp [passes]
      omega
    | kernSemV =>
      simp [passes]
      omega

/-- A new semaphore. -/
theorem law_create {value : Int} (tidy : s.Tidy) (free : (s.sems i).in_use = false) (nonneg : 0 ≤ value)
    (mboxID : Int) : Law (s.create i value mboxID) i := by
  obtain ⟨blocked, counts, nobody⟩ := tidy.unused i free
  have sem : (s.create i value mboxID).sems i = { s.sems i with value, mboxID, in_use := true } :=
    Sems.sysSemcreate_self ..
  have initial : (s.create i value mboxID).initial i = value := Function.update_self ..
  have noUps : ∀ call q, s.place q ≠ .suspended call i := by
    intro call q here
    have away := nobody q
    rw [here] at away
    simp [CallPlace.on] at away
  refine ⟨0, 0, 0, tidy.nobody free (suspended_of_not_on _), tidy.nobody free (suspended_of_not_on _),
    tidy.nobody free fun _ => passes_of_not_on, fun q => ⟨noUps _ q, noUps _ q⟩, ?_, ?_, ?_, ?_, ?_⟩
  · rw [sem]
    exact blocked
  · rw [sem]
    show (0 : Int) = max 0 (-value)
    omega
  · rw [sem]
    show (s.started .kernSemV i : Int) ≤ max 0 value
    rw [(counts _).1]
    omega
  · simp
  · rw [sem, initial]
    simp [SemMachine.create, counts]

/-- The semaphore keeps the law once it is made with a value that is not negative. -/
structure Kept (s : KernSems) (i : SemId) : Prop where
  tidy : s.Tidy
  law : (s.sems i).in_use = true → 0 ≤ s.initial i → Law s i

theorem Kept.step (kept : Kept s i) (guard : Guard i s a) (moves : s.step a = some s') : Kept s' i := by
  obtain ⟨ideal, admits⟩ := guard
  have stepped := kept.tidy.stepped ideal moves
  refine ⟨kept.tidy.step stepped, fun used nonneg => ?_⟩
  cases stepped.at i with
  | untouched untouched =>
    obtain ⟨down, kern, passing, lawful⟩ :=
      kept.law (untouched.sem ▸ used) (untouched.initial ▸ nonneg)
    exact ⟨down, kern, passing, lawful.congr untouched⟩
  | @creates p creation mboxID found =>
    have initial : (s.create i creation.value mboxID).initial i = creation.value := Function.update_self ..
    exact law_create kept.tidy (creation.entry_unused found) (initial ▸ nonneg) mboxID
  | @calls p call index meeting _ found out called =>
    have law := kept.law (Sems.inUse_spec found).2 (called.initial ▸ nonneg)
    exact law.called out (admits p call index meeting rfl found) called
  | resumes here => exact (kept.law used nonneg).resume here

theorem Kept.boot : Kept .boot i := by
  refine ⟨.boot, ?_⟩
  rintro ⟨⟩

section runs

end runs

end KernSems

end UslossKernel
