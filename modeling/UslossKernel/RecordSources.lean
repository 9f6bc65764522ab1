import UslossKernel.WaiterRecords

namespace UslossKernel

/-- The record from which a pid is passed to `unblockProc`: the first entry of
an array, which is taken out, an entry that a release has come to, or the
process that the pointer leads to. -/
inductive Source
  | first (ρ : Role)
  | entry (ρ : Role) (i : Nat)
  | pointer

/-- The role of the processes it is a record of. -/
def Source.role : Source → Role
  | .first ρ | .entry ρ _ => ρ
  | .pointer => .consumer

/-- The stretch of code takes the pid from this record of `m`, and leaves the
tables `g'`. -/
inductive Follows (g : Globals) (pt : Point) (m : MboxId) (g' : Globals) : Source → Pid → Prop
  | first {ρ : Role} {pid rest} : (∀ k, pt ≠ .afterUnblock k) → (g.mailboxes m).isActive = true →
      (ρ = .consumer → Storable g m) → ρ.array g m = pid :: rest → ρ.array g' = Function.update (ρ.array g) m rest →
      ρ.other.array g' = ρ.other.array g → Follows g pt m g' (.first ρ) pid
  | entry {ρ : Role} {i pid} : ReleaseAt g pt g' m (ρ.stage i) → (ρ.array g m)[i]? = some pid →
      Follows g pt m g' (.entry ρ i) pid
  | matched {entry} : (∀ k, pt ≠ .afterUnblock k) → (g.mailboxes m).isActive = true → (g.mailboxes m).numSlots = 0 →
      (g.mailboxes m).consumers = some entry → g' = g → Follows g pt m g' .pointer (g.shadowProcesses entry)
  | released {entry} : ReleaseAt g pt g' m .pointer → (g.mailboxes m).consumers = some entry →
      Follows g pt m g' .pointer (g.shadowProcesses entry)

variable {g g₀ g' : Globals} {p pid : Pid} {pt : Point} {m n : MboxId} {seg : Segment} {ρ : Role}
  {source : Source} {k : Cont}

/-- Until a release follows the pointer it leaves it alone. -/
theorem ReleaseAt.at_pointer (at_ : ReleaseAt g pt g₀ m .pointer) :
    (g₀.mailboxes m).consumers = (g.mailboxes m).consumers ∧ g₀.shadowProcesses = g.shadowProcesses := by
  generalize atStage : Stage.pointer = stage at at_
  cases at_ with
  | start | nextProducer | nextConsumer | pointerWoken | consumersDone | pointerNull => cases atStage
  | producersDone at_ =>
    clear atStage
    generalize atStage : Stage.producers _ = stage at at_
    cases at_ with
    | start => simp [Globals.deactivate]
    | nextProducer => exact ⟨rfl, rfl⟩
    | nextConsumer | pointerWoken | consumersDone | pointerNull => cases atStage
    | producersDone => split at atStage <;> cases atStage

theorem Path.follows (path : Path g p pt (g', .unblocks pid k)) : ∃ source, Follows g pt k.mbox g' source pid := by
  have stored : ∀ {n msg}, StorePoint g pt n msg k → (∀ k, pt ≠ .afterUnblock k) ∧ k.mbox = n := by
    intro n msg at_
    cases at_ <;> exact ⟨by rintro _ ⟨⟩, rfl⟩
  have taken : ∀ {g₀ n buffer} {k : Result → Cont}, TakePoint g pt g₀ n buffer k →
      (∀ k, pt ≠ .afterUnblock k) ∧ (∀ r, (k r).mbox = n) ∧
        g₀.blockedProducers = g.blockedProducers ∧ g₀.blockedConsumers = g.blockedConsumers := by
    intro g₀ n buffer k at_
    cases at_ <;> exact ⟨by rintro _ ⟨⟩, fun _ => rfl, rfl, rfl⟩
  cases path with
  | sendMatches active _ zero pointed => exact ⟨_, .matched (by rintro _ ⟨⟩) active zero pointed rfl⟩
  | storesAndWakes at_ storable _ recorded =>
    obtain ⟨within, mbox⟩ := stored at_
    rw [mbox]
    exact ⟨_, .first (ρ := .consumer) within at_.active (fun _ => storable) recorded rfl rfl⟩
  | recvMatches active _ _ recorded =>
    exact ⟨_, .first (ρ := .producer) (by rintro _ ⟨⟩) active (by rintro ⟨⟩) recorded rfl rfl⟩
  | takesAndWakes at_ _ _ recorded =>
    obtain ⟨within, mbox, producers, consumers⟩ := taken at_
    rw [mbox]
    refine ⟨_, .first (ρ := .producer) within at_.active (by rintro ⟨⟩) recorded ?_ consumers⟩
    simp only [Role.array, Globals.setBlockedProducers_blockedProducers, Globals.freeSlot_blockedProducers,
      Globals.dequeueSlot_blockedProducers, producers]
  | @releaseWakesProducer _ _ n j _ at_ recorded =>
    have kept : g'.blockedProducers n = g.blockedProducers n := (ReleaseAt.at_loop (ρ := .producer) at_).1
    exact ⟨_, .entry (ρ := .producer) at_ ((congrArg (·[j]?) kept).symm.trans recorded)⟩
  | @releaseWakesConsumer _ _ n j _ at_ recorded =>
    have kept : g'.blockedConsumers n = g.blockedConsumers n := (ReleaseAt.at_loop (ρ := .consumer) at_).1
    exact ⟨_, .entry (ρ := .consumer) at_ ((congrArg (·[j]?) kept).symm.trans recorded)⟩
  | releaseWakesPointer at_ pointed =>
    obtain ⟨kept, shadow⟩ := at_.at_pointer
    rw [shadow]
    exact ⟨_, .released at_ (kept.symm.trans pointed)⟩

theorem Path.release_at (path : Path g p pt (g', .unblocks pid k)) (releases : k.releases m = true) :
    ∃ stage, ReleaseAt g pt g' m stage := by
  cases path with
  | releaseWakesProducer at_ | releaseWakesConsumer at_ | releaseWakesPointer at_ =>
    simp only [Cont.releases, decide_eq_true_eq] at releases
    exact ⟨_, releases ▸ at_⟩
  | sendMatches | recvMatches => cases releases
  | storesAndWakes at_ | takesAndWakes at_ => cases at_ <;> cases releases

/-- A stretch of code that takes a pid from a record of `n` leaves the arrays of the others. -/
theorem Follows.array_away (follows : Follows g pt n g' source pid) (away : m ≠ n) :
    ρ.array g' m = ρ.array g m := by
  cases follows with
  | first _ _ _ _ array other => exact Role.array_away array other fun same => away same.2
  | entry at_ | released at_ =>
    obtain ⟨_, producers, consumers, _⟩ := at_.frame away
    cases ρ
    · exact producers
    · exact consumers
  | matched _ _ _ _ same => rw [same]

/-- What becomes of the array for the other role. -/
theorem Follows.array_other (follows : Follows g pt m g' source pid) (other : source.role ≠ ρ) :
    ρ.array g' m = ρ.array g m ∨ ρ.array g' m = [] := by
  cases follows with
  | @first own _ _ _ _ _ _ _ array =>
    have same : ρ = own.other := by cases ρ <;> cases own <;> simp_all [Source.role, Role.other]
    exact .inl (by rw [same, array])
  | entry at_ | released at_ => exact (at_.loop_over ρ).imp id And.left
  | matched _ _ _ _ same => exact .inl (by rw [same])

/-- Only a release that is under way takes pids from the records of an inactive mailbox. -/
theorem Follows.releases (follows : Follows g pt m g' source pid) :
    (g.mailboxes m).isActive = true ∨ ∃ k, k.releases m = true ∧ pt = .afterUnblock k := by
  have begins : ∀ {stage}, ReleaseAt g pt g' m stage →
      (g.mailboxes m).isActive = true ∨ ∃ k, k.releases m = true ∧ pt = .afterUnblock k := by
    intro stage at_
    exact at_.sameMail.imp (fun start => start.2.1) And.left
  cases follows with
  | first _ active | matched _ active => exact .inl active
  | entry at_ | released at_ => exact begins at_

/-- The consumer pointer of `m` is as it was, or null, or `MboxRecv` has been
suspended on `m`. -/
inductive Points (g : Globals) (m : MboxId) (seg : Segment) : Prop
  | null : (seg.1.mailboxes m).consumers = none → Points g m seg
  | same : (seg.1.mailboxes m).consumers = (g.mailboxes m).consumers →
      ((seg.1.mailboxes m).isActive = true → (g.mailboxes m).isActive = true) → Points g m seg
  | set {w} : seg.2 = .blocks w → Wait.receivesFrom m w = true → (g.mailboxes m).isActive = true → Points g m seg

theorem Points.of_mailbox {outcome : Outcome} (same : g'.mailboxes m = g.mailboxes m) : Points g m (g', outcome) :=
  .same (by rw [same]) fun active => same ▸ active

theorem Points.cleared (n : MboxId) {outcome : Outcome} (cleared : g'.mailboxes = (g.clearConsumers n).mailboxes) :
    Points g m (g', outcome) := by
  by_cases here : m = n
  · subst here
    refine .null ?_
    rw [cleared, Globals.clearConsumers_mailboxes, Function.update_self]
  · refine .of_mailbox ?_
    rw [cleared, Globals.clearConsumers_mailboxes, Function.update_of_ne here]

theorem ReleaseAt.points {stage : Stage} (at_ : ReleaseAt g pt g₀ n stage) (outcome : Outcome) :
    Points g m (g₀, outcome) := by
  induction at_ with
  | @start n =>
    by_cases here : m = n
    · subst here
      exact .same (by simp [Globals.deactivate]) (by simp [Globals.deactivate])
    · exact .of_mailbox (Function.update_of_ne here _ _)
  | nextProducer | nextConsumer => exact .of_mailbox rfl
  | @pointerWoken n => exact .cleared n rfl
  | producersDone _ _ ih | consumersDone _ _ ih | pointerNull _ _ ih =>
    cases ih with
    | null null => exact .null null
    | same same active => exact .same same active
    | set blocks receives active => exact .set blocks receives active

theorem Path.points (path : Path g p pt seg) : Points g m seg := by
  have taken : ∀ {g₀ g' : Globals} {n buffer k outcome}, TakePoint g pt g₀ n buffer k →
      g'.mailboxes = g₀.mailboxes → Points g m (g', outcome) := by
    intro g₀ g' n buffer k outcome at_ same
    cases at_ with
    | recv | condRecv => exact .of_mailbox (congrFun same m)
    | resumed => exact .cleared n same
  cases path with
  | refused | storeFaults | stores | storesAndWakes | recvMatches | resumedInactive | resumedZero | sendStoredReturns
  | recvTakenReturns | sendMatches => exact .of_mailbox rfl
  | @created n numSlots slotSize found =>
    by_cases here : m = n
    · subst here
      exact .null (by simp [returnCode])
    · exact .of_mailbox (Function.update_of_ne here _ _)
  | @createFails n numSlots slotSize found =>
    by_cases here : m = n
    · subst here
      exact .null (by simp [returnCode])
    · exact .of_mailbox (Function.update_of_ne here _ _)
  | @sendZeroBlocks n =>
    by_cases here : m = n
    · subst here
      exact .same (by simp [awaitReceiver]) (by simp [awaitReceiver])
    · exact .of_mailbox (Function.update_of_ne here _ _)
  | sendFullBlocks | resumedFullBlocks =>
    refine .of_mailbox ?_
    unfold recordSender
    split <;> rfl
  | @recvZeroBlocks n buffer active | @recvEmptyBlocks n buffer active =>
    by_cases here : m = n
    · subst here
      exact .set rfl (by simp [Wait.receivesFrom]) active
    · exact .of_mailbox (Function.update_of_ne here _ _)
  | @resumedEmpty n | @sendMatchedReturns n => exact .cleared n rfl
  | takeFaults at_ | takeRejects at_ | takes at_ | takesAndWakes at_ => exact taken at_ rfl
  | releaseWakesProducer at_ | releaseWakesConsumer at_ | releaseWakesPointer at_ => exact at_.points _
  | @releaseReturns _ g₀ _ at_ =>
    cases at_.points (m := m) (.returns ⟨0, []⟩) with
    | null null => exact .null null
    | same same active => exact .same same active
    | set blocks => cases blocks

end UslossKernel
