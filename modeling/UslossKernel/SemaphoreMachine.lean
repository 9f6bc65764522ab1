import UslossKernel.Library.Population
import UslossKernel.Library.Transition
import UslossKernel.Semaphores

namespace UslossKernel

/-- Some of the calls, with the functions that make a semaphore where they are made. -/
class SemInterface (Op : Type) (Creation : outParam Type) where
  call : Op → SemCall
  creation : Creation → SemCreation

/-- The system calls; `SemCreate` gives the initial value. -/
instance : SemInterface SemOp Int := ⟨.sys, .sys_semcreate⟩

/-- All calls. -/
instance : SemInterface SemCall SemCreation := ⟨fun call => call, fun creation => creation⟩

@[simp] theorem SemInterface.call_semCall (call : SemCall) : SemInterface.call call = call := rfl

/-- Where a process is: in no call on a semaphore, or in the mailbox call of
one, suspended or able to run on. -/
inductive CallPlace (Op : Type)
  | outside
  | suspended (op : Op) (i : SemId)
  | runnable (op : Op) (i : SemId)
deriving DecidableEq, Repr

/-- The semaphores over mailboxes of which only the matching of partners is
known. The last three fields are history: the value each semaphore was made
with, and how many calls on it have started and returned. -/
structure SemMachine (Op : Type) where
  sems : Sems
  place : Pid → CallPlace Op
  initial : SemId → Int
  started : Op → SemId → Nat
  returned : Op → SemId → Nat

/-- What a mailbox call does: suspend its caller, or wake a partner. -/
inductive Meeting
  | suspends
  | wakes (q : Pid)
deriving DecidableEq, Repr

/-- What can happen next. `create` names the id that `MboxCreate` returns and
`call` what the mailbox call does, where there is one. -/
inductive SemAct (Op Creation : Type)
  | create (p : Pid) (creation : Creation) (mboxID : Int)
  | call (p : Pid) (op : Op) (index : Int) (meeting : Meeting)
  | resume (p : Pid)
deriving DecidableEq, Repr

/-- The process is in a call on this semaphore. -/
def CallPlace.on {Op : Type} (i : SemId) : CallPlace Op → Bool
  | .outside => false
  | .suspended _ j | .runnable _ j => j = i

section machine

variable {Op Creation : Type}

namespace SemMachine

def boot : SemMachine Op where
  sems := .init
  place _ := .outside
  initial _ := 0
  started _ _ := 0
  returned _ _ := 0

def create (s : SemMachine Op) (i : SemId) (value mboxID : Int) : SemMachine Op :=
  { s with
    sems := s.sems.sysSemcreate i value mboxID
    initial := Function.update s.initial i value }

/-- No semaphore in use has this mailbox. -/
def Fresh (s : SemMachine Op) (mboxID : Int) : Prop :=
  ∀ i, (s.sems i).in_use = true → (s.sems i).mboxID ≠ mboxID

/-- Nothing has happened to a semaphore that is not in use, and each has a mailbox of its own. -/
structure Tidy (s : SemMachine Op) : Prop where
  unused : ∀ i, (s.sems i).in_use = false → (s.sems i).blocked = 0 ∧
    (∀ op, s.started op i = 0 ∧ s.returned op i = 0) ∧ ∀ q, (s.place q).on i = false
  distinct : ∀ i j, (s.sems i).in_use = true → (s.sems j).in_use = true →
    (s.sems i).mboxID = (s.sems j).mboxID → i = j

/-- Nothing has happened to this semaphore: also as many processes are in each
call on it. -/
structure Untouched (s s' : SemMachine Op) (i : SemId) : Prop where
  sem : s'.sems i = s.sems i
  initial : s'.initial i = s.initial i
  started : ∀ op, s'.started op i = s.started op i
  returned : ∀ op, s'.returned op i = s.returned op i
  places : ∀ kind : CallPlace Op → Bool, (∀ here, here.on i = false → kind here = false) →
    ∀ n, Counts s.place kind n → Counts s'.place kind n

variable {s s' : SemMachine Op} {i j : SemId} {p : Pid} {op : Op}

theorem Untouched.refl (s : SemMachine Op) (i : SemId) : s.Untouched s i :=
  ⟨rfl, rfl, fun _ => rfl, fun _ => rfl, fun _ _ _ => id⟩

theorem Untouched.of_create {value mboxID : Int} (other : j ≠ i) : s.Untouched (s.create i value mboxID) j :=
  ⟨Sems.sysSemcreate_of_ne other .., Function.update_of_ne other .., fun _ => rfl, fun _ => rfl, fun _ _ _ => id⟩

theorem Tidy.nobody (tidy : s.Tidy) (unused : (s.sems i).in_use = false) {kind : CallPlace Op → Bool}
    (blind : ∀ here, here.on i = false → kind here = false) : Counts s.place kind 0 :=
  Counts.zero_iff.mpr fun q => blind _ ((tidy.unused i unused).2.2 q)

theorem Tidy.in_use_of_on (tidy : s.Tidy) {q : Pid} (here : (s.place q).on i = true) : (s.sems i).in_use = true := by
  by_contra unused
  have away := (tidy.unused i (by simpa using unused)).2.2 q
  rw [here] at away
  cases away

theorem Tidy.congr (tidy : s.Tidy)
    (status : ∀ j, (s'.sems j).in_use = (s.sems j).in_use ∧ (s'.sems j).mboxID = (s.sems j).mboxID)
    (untouched : ∀ j, (s.sems j).in_use = false → s.Untouched s' j) : s'.Tidy := by
  refine ⟨fun j unused => ?_, fun j k usedJ usedK same => ?_⟩
  · rw [(status j).1] at unused
    obtain ⟨blocked, counts, nobody⟩ := tidy.unused j unused
    obtain ⟨sem, _, started, returned, places⟩ := untouched j unused
    refine ⟨by rw [sem, blocked], fun op => ⟨(started op).trans (counts op).1, (returned op).trans (counts op).2⟩, ?_⟩
    exact Counts.zero_iff.mp (places _ (fun _ => id) 0 (tidy.nobody unused fun _ => id))
  · rw [(status j).1] at usedJ
    rw [(status k).1] at usedK
    rw [(status j).2, (status k).2] at same
    exact tidy.distinct j k usedJ usedK same

theorem Tidy.create {value mboxID : Int} (tidy : s.Tidy) (fresh : s.Fresh mboxID) :
    Tidy (s.create i value mboxID) := by
  refine ⟨fun j unused => ?_, fun j k usedJ usedK same => ?_⟩
  · simp only [SemMachine.create] at unused ⊢
    have other : j ≠ i := by
      rintro rfl
      rw [Sems.sysSemcreate_self] at unused
      cases unused
    rw [Sems.sysSemcreate_of_ne other] at unused ⊢
    exact tidy.unused j unused
  · simp only [SemMachine.create] at usedJ usedK same
    by_cases first : j = i <;> by_cases second : k = i
    · exact first.trans second.symm
    · rw [first, Sems.sysSemcreate_self, Sems.sysSemcreate_of_ne second] at same
      rw [Sems.sysSemcreate_of_ne second] at usedK
      exact absurd same.symm (fresh k usedK)
    · rw [second, Sems.sysSemcreate_self, Sems.sysSemcreate_of_ne first] at same
      rw [Sems.sysSemcreate_of_ne first] at usedJ
      exact absurd same (fresh j usedJ)
    · rw [Sems.sysSemcreate_of_ne first] at usedJ same
      rw [Sems.sysSemcreate_of_ne second] at usedK same
      exact tidy.distinct j k usedJ usedK same

theorem fresh_boot (mboxID : Int) : Fresh (boot : SemMachine Op) mboxID := by
  rintro _ ⟨⟩

theorem Tidy.boot : Tidy (boot : SemMachine Op) := by
  refine ⟨fun _ _ => ⟨rfl, fun _ => ⟨rfl, rfl⟩, fun _ => rfl⟩, ?_⟩
  rintro _ _ ⟨⟩

section counts
variable {kind : CallPlace Op → Bool} {n : Nat} {q : Pid} {other : Op}

theorem counts_enter (counted : Counts s.place kind n) (out : s.place p = .outside) (away : kind .outside = false)
    (here : CallPlace Op) : Counts (Function.update s.place p here) kind (n + if kind here then 1 else 0) := by
  have moved := counted.update p here
  rwa [out, away, if_neg Bool.false_ne_true, Nat.sub_zero] at moved

theorem counts_wake (counted : Counts s.place kind n) (out : s.place p = .outside) (away : kind .outside = false)
    (there : s.place q = .suspended other i) (here here' : CallPlace Op) :
    Counts (Function.update (Function.update s.place p here) q here') kind
      (n + (if kind here then 1 else 0) + (if kind here' then 1 else 0) -
        if kind (.suspended other i) then 1 else 0) := by
  have different : q ≠ p := by
    rintro rfl
    rw [out] at there
    cases there
  have moved := (counts_enter counted out away here).update q here'
  rwa [Function.update_of_ne different, there] at moved

end counts

variable [SemInterface Op Creation]

/-- Whether the mailbox call of a call is `MboxSend`. -/
def sends (op : Op) : Bool := (SemInterface.call op).sends

@[simp] theorem sends_semCall (call : SemCall) : sends call = call.sends := rfl

/-- What is assumed of the mailboxes: a new one has an id of its own, and a send
or receive suspends its caller only while nobody is suspended in the other on
the same one. -/
structure IdealMailbox (s : SemMachine Op) (a : SemAct Op Creation) : Prop where
  fresh : ∀ p creation mboxID, a = .create p creation mboxID → s.Fresh mboxID
  suspends : ∀ p op index i, a = .call p op index .suspends →
    ((SemInterface.call op).start s.sems index).2 = .calls i →
    ∀ q other j, s.place q = .suspended other j → sends other ≠ sends op → (s.sems j).mboxID ≠ (s.sems i).mboxID

theorem IdealMailbox.of_create {creation : Creation} {mboxID : Int} (fresh : s.Fresh mboxID) :
    s.IdealMailbox (.create p creation mboxID) := by
  refine ⟨?_, ?_⟩
  · rintro _ _ _ ⟨⟩
    exact fresh
  · rintro _ _ _ _ ⟨⟩

theorem IdealMailbox.of_wakes (s : SemMachine Op) (p : Pid) (op : Op) (index : Int) (q : Pid) :
    s.IdealMailbox (.call p op index (.wakes q)) :=
  ⟨by rintro _ _ _ ⟨⟩, by rintro _ _ _ _ ⟨⟩⟩

theorem IdealMailbox.of_resume (s : SemMachine Op) (p : Pid) : s.IdealMailbox (.resume p) :=
  ⟨by rintro _ _ _ ⟨⟩, by rintro _ _ _ _ ⟨⟩⟩

/-- While nobody is in a call, any call may suspend. -/
theorem IdealMailbox.of_nobody (nobody : ∀ q, s.place q = .outside) (p : Pid) (op : Op) (index : Int) :
    s.IdealMailbox (.call p op index .suspends) := by
  refine ⟨?_, fun _ _ _ _ _ _ q other j here => ?_⟩
  · rintro _ _ _ ⟨⟩
  · rw [nobody q] at here
    cases here

end SemMachine

variable [DecidableEq Op]

theorem CallPlace.ne_of_not_on {i : SemId} {place : CallPlace Op} (within : place.on i = true) (here : CallPlace Op)
    (away : here.on i = false) : decide (here = place) = false := by
  refine decide_eq_false ?_
  rintro rfl
  rw [within] at away
  cases away

/-- One more call of this kind on this semaphore. -/
def countCall (counts : Op → SemId → Nat) (op : Op) (i : SemId) : Op → SemId → Nat :=
  Function.update counts op (Function.update (counts op) i (counts op i + 1))

theorem countCall_apply (counts : Op → SemId → Nat) (op other : Op) (i j : SemId) :
    countCall counts op i other j = counts other j + if other = op ∧ j = i then 1 else 0 := by
  unfold countCall
  by_cases sameOp : other = op
  · subst sameOp
    by_cases same : j = i
    · subst same
      simp
    · simp [same]
  · simp [sameOp]

namespace SemMachine

variable [SemInterface Op Creation]

def step (s : SemMachine Op) : SemAct Op Creation → Option (SemMachine Op)
  | .create p creation mboxID =>
    if s.place p = .outside then
      match (SemInterface.creation Op creation).entry s.sems with
      | none => some s
      | some i => some (s.create i (SemInterface.creation Op creation).value mboxID)
    else none
  | .call p op index meeting =>
    if s.place p = .outside then
      match (SemInterface.call op).start s.sems index with
      | (_, .refused) => some s
      | (sems, .returns i) =>
        some { s with sems, started := countCall s.started op i, returned := countCall s.returned op i }
      | (sems, .calls i) =>
        match meeting with
        | .suspends =>
          some { s with
            sems
            started := countCall s.started op i
            place := Function.update s.place p (.suspended op i) }
        | .wakes q =>
          match s.place q with
          | .suspended other j =>
            if sends other ≠ sends op ∧ (sems j).mboxID = (sems i).mboxID then
              some { s with
                sems
                started := countCall s.started op i
                place := Function.update (Function.update s.place p (.runnable op i)) q (.runnable other j) }
            else none
          | _ => none
    else none
  | .resume p =>
    match s.place p with
    | .runnable op i =>
      some { s with place := Function.update s.place p .outside, returned := countCall s.returned op i }
    | _ => none

/-- What a call on the semaphore `i` of a process outside leads to. -/
inductive Called (s : SemMachine Op) (p : Pid) (op : Op) (i : SemId) : SemMachine Op → Prop
  | passes : ((SemInterface.call op).entry (s.sems i)).2 = false → Called s p op i { s with
      sems := Function.update s.sems i ((SemInterface.call op).entry (s.sems i)).1
      started := countCall s.started op i
      returned := countCall s.returned op i }
  | waits : ((SemInterface.call op).entry (s.sems i)).2 = true →
      (∀ q other, s.place q = .suspended other i → sends other = sends op) → Called s p op i { s with
        sems := Function.update s.sems i ((SemInterface.call op).entry (s.sems i)).1
        started := countCall s.started op i
        place := Function.update s.place p (.suspended op i) }
  | wakes {q other} : ((SemInterface.call op).entry (s.sems i)).2 = true → s.place q = .suspended other i →
      sends other ≠ sends op → Called s p op i { s with
        sems := Function.update s.sems i ((SemInterface.call op).entry (s.sems i)).1
        started := countCall s.started op i
        place := Function.update (Function.update s.place p (.runnable op i)) q (.runnable other i) }

/-- What a step of tidy semaphores over ideal mailboxes is. -/
inductive Stepped (s : SemMachine Op) : SemAct Op Creation → SemMachine Op → Prop
  | idle {a} : Stepped s a s
  | creates {p creation mboxID i} : (SemInterface.creation Op creation).entry s.sems = some i → s.Fresh mboxID →
      Stepped s (.create p creation mboxID) (s.create i (SemInterface.creation Op creation).value mboxID)
  | calls {p op index meeting i s'} : s.sems.inUse index = some i → s.place p = .outside → Called s p op i s' →
      Stepped s (.call p op index meeting) s'
  | resumes {p op i} : s.place p = .runnable op i → Stepped s (.resume p)
      { s with place := Function.update s.place p .outside, returned := countCall s.returned op i }

/-- What a step is for one semaphore. -/
inductive SteppedAt (s : SemMachine Op) (i : SemId) : SemAct Op Creation → SemMachine Op → Prop
  | untouched {a s'} : s.Untouched s' i → SteppedAt s i a s'
  | creates {p creation mboxID} : (SemInterface.creation Op creation).entry s.sems = some i →
      SteppedAt s i (.create p creation mboxID) (s.create i (SemInterface.creation Op creation).value mboxID)
  | calls {p op index meeting s'} : s.sems.inUse index = some i → s.place p = .outside → Called s p op i s' →
      SteppedAt s i (.call p op index meeting) s'
  | resumes {p op} : s.place p = .runnable op i → SteppedAt s i (.resume p)
      { s with place := Function.update s.place p .outside, returned := countCall s.returned op i }

variable {s s' : SemMachine Op} {i j : SemId} {p : Pid} {op : Op}

theorem Tidy.called (tidy : s.Tidy) {index : Int} {meeting : Meeting}
    (ideal : s.IdealMailbox (.call p op index meeting)) (found : s.sems.inUse index = some i)
    (moves : s.step (.call p op index meeting) = some s') : s.place p = .outside ∧ Called s p op i s' := by
  have used := (Sems.inUse_spec found).2
  simp only [step, Option.ite_none_right_eq_some] at moves
  obtain ⟨out, moves⟩ := moves
  refine ⟨out, ?_⟩
  rw [SemCall.start_eq _ found] at moves
  cases meets : ((SemInterface.call op).entry (s.sems i)).2 with
  | false =>
    rw [meets, if_neg Bool.false_ne_true] at moves
    cases moves
    exact .passes meets
  | true =>
    rw [meets, if_pos rfl] at moves
    have calls : ((SemInterface.call op).start s.sems index).2 = .calls i := by
      rw [SemCall.start_eq _ found, meets, if_pos rfl]
    cases meeting with
    | suspends =>
      cases moves
      refine .waits meets fun q other here => ?_
      by_contra opposite
      exact ideal.suspends p op index i rfl calls q other i here opposite rfl
    | wakes q =>
      simp only at moves
      split at moves
      · rename_i other j here
        split at moves
        · rename_i matched
          obtain ⟨opposite, sameMbox⟩ := matched
          cases moves
          have usedJ : (s.sems j).in_use = true := tidy.in_use_of_on (q := q) (by rw [here]; simp [CallPlace.on])
          obtain rfl : j = i := by
            by_contra different
            rw [Function.update_of_ne different, Function.update_self, SemCall.entry_mboxID] at sameMbox
            exact different (tidy.distinct j i usedJ used sameMbox)
          exact .wakes meets here opposite
        · cases moves
      · cases moves

theorem Tidy.stepped {a : SemAct Op Creation} (tidy : s.Tidy) (ideal : s.IdealMailbox a)
    (moves : s.step a = some s') : s.Stepped a s' := by
  cases a with
  | create p creation mboxID =>
    simp only [step, Option.ite_none_right_eq_some] at moves
    obtain ⟨_, moves⟩ := moves
    split at moves
    · cases moves
      exact .idle
    · rename_i i found
      cases moves
      exact .creates found (ideal.fresh p creation mboxID rfl)
  | call p op index meeting =>
    cases found : s.sems.inUse index with
    | none =>
      simp only [step, Option.ite_none_right_eq_some] at moves
      rw [SemCall.start_refused _ found] at moves
      cases moves.2
      exact .idle
    | some i =>
      obtain ⟨out, called⟩ := tidy.called ideal found moves
      exact .calls found out called
  | resume p =>
    simp only [step] at moves
    split at moves
    · rename_i op i here
      cases moves
      exact .resumes here
    · cases moves

namespace Called

variable (called : s.Called p op i s')

include called

theorem sems_self : s'.sems i = ((SemInterface.call op).entry (s.sems i)).1 := by
  cases called <;> exact Function.update_self ..

theorem initial : s'.initial = s.initial := by
  cases called <;> rfl

theorem started : s'.started = countCall s.started op i := by
  cases called <;> rfl

/-- A call on another semaphore moves nobody on this one. -/
theorem untouched (out : s.place p = .outside) (other : j ≠ i) : s.Untouched s' j := by
  have sem : s'.sems j = s.sems j := by cases called <;> exact Function.update_of_ne other ..
  have started : ∀ op', s'.started op' j = s.started op' j := fun op' => by
    rw [called.started, countCall_apply, if_neg fun both => other both.2]
    rfl
  have away : ∀ kind : CallPlace Op → Bool, (∀ here, here.on j = false → kind here = false) →
      ∀ here, CallPlace.on i here = true → kind here = false := by
    intro kind blind here at_
    refine blind here ?_
    cases here <;> simp_all [CallPlace.on, Ne.symm other]
  refine ⟨sem, by rw [called.initial], started, fun op' => ?_, fun kind blind n counted => ?_⟩
  · cases called with
    | passes => simp [countCall_apply, other]
    | waits | wakes => rfl
  · cases called with
    | passes => exact counted
    | waits =>
      have unseen := away kind blind (.suspended op i) (by simp [CallPlace.on])
      simpa [unseen] using counts_enter counted out (blind _ rfl) (.suspended op i)
    | @wakes q op' meets here =>
      have unseen := away kind blind (.runnable op i) (by simp [CallPlace.on])
      have unseen' := away kind blind (.runnable op' i) (by simp [CallPlace.on])
      have unseen'' := away kind blind (.suspended op' i) (by simp [CallPlace.on])
      simpa [unseen, unseen', unseen''] using
        counts_wake counted out (blind _ rfl) here (.runnable op i) (.runnable op' i)

/-- A call changes neither which semaphores are in use nor their mailboxes. -/
theorem status (out : s.place p = .outside) (j : SemId) :
    (s'.sems j).in_use = (s.sems j).in_use ∧ (s'.sems j).mboxID = (s.sems j).mboxID := by
  by_cases same : j = i
  · subst same
    rw [called.sems_self]
    exact ⟨SemCall.entry_in_use _, SemCall.entry_mboxID _⟩
  · rw [(called.untouched out same).sem]
    exact ⟨rfl, rfl⟩

end Called

/-- A call on another semaphore that comes to its end. -/
theorem Untouched.of_resume (here : s.place p = .runnable op i) (other : j ≠ i) : s.Untouched
    { s with place := Function.update s.place p .outside, returned := countCall s.returned op i } j := by
  refine ⟨rfl, rfl, fun _ => rfl, fun op' => ?_, fun kind blind n counted => ?_⟩
  · simp [countCall_apply, other]
  · have unseen := blind (.runnable op i) (by simp [CallPlace.on, Ne.symm other])
    simpa [here, unseen, blind .outside rfl] using counted.update p .outside

theorem Stepped.at {a : SemAct Op Creation} (stepped : s.Stepped a s') (i : SemId) : s.SteppedAt i a s' := by
  cases stepped with
  | idle => exact .untouched (.refl s i)
  | @creates p creation mboxID j found =>
    by_cases same : i = j
    · subst same
      exact .creates found
    · exact .untouched (.of_create same)
  | @calls p op index meeting j _ found out called =>
    by_cases same : i = j
    · subst same
      exact .calls found out called
    · exact .untouched (called.untouched out same)
  | @resumes p op j here =>
    by_cases same : i = j
    · subst same
      exact .resumes here
    · exact .untouched (.of_resume here same)

theorem Tidy.step {a : SemAct Op Creation} (tidy : s.Tidy) (stepped : s.Stepped a s') : s'.Tidy := by
  cases stepped with
  | idle => exact tidy
  | creates _ fresh => exact tidy.create fresh
  | @calls p op index meeting i _ found out called =>
    refine tidy.congr (called.status out) fun j unused => called.untouched out ?_
    rintro rfl
    rw [(Sems.inUse_spec found).2] at unused
    cases unused
  | @resumes p op i here =>
    refine tidy.congr (fun _ => ⟨rfl, rfl⟩) fun j unused => .of_resume here ?_
    rintro rfl
    rw [tidy.in_use_of_on (q := p) (by rw [here]; simp [CallPlace.on])] at unused
    cases unused

theorem tidy_of_run (run : Transition.Run (step : SemMachine Op → SemAct Op Creation → Option (SemMachine Op))
    IdealMailbox boot s) : s.Tidy :=
  run.invariant Tidy .boot fun _ _ _ tidy ideal moves => tidy.step (tidy.stepped ideal moves)

end SemMachine

end machine

end UslossKernel
