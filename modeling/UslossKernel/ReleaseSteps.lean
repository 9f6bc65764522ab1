import UslossKernel.Lifetime

namespace UslossKernel

/-- The code running on from this point is that of a release of `m`. -/
def Point.Releases (m : MboxId) (pt : Point) : Prop :=
  pt = .start (.release (m : Nat)) ∨ ∃ k, k.releases m = true ∧ pt = .afterUnblock k

/-- Who waits in this way has set a pointer of the mailbox to its shadow entry. -/
def Wait.setsPointer : Wait → Bool
  | .sendFull .. => false
  | _ => true

/-- The part of the release that follows an `unblockProc`. -/
def Cont.stage : Cont → Stage
  | .releaseProducers _ i => .producers i
  | .releaseConsumers _ i => .consumers i
  | _ => .rest

def Point.stage : Point → Stage
  | .afterUnblock k => k.stage
  | _ => .producers 0

/-- The record of waiting receivers that `MboxRelease` goes by has `q`. -/
def Globals.Lists (g : Globals) (m : MboxId) (q : Pid) : Prop :=
  if (g.mailboxes m).numSlots = 0 then q ∈ g.blockedConsumers m
  else ∃ entry, (g.mailboxes m).consumers = some entry ∧ g.shadowProcesses entry = q

/-- From this part on, the release wakes all that are still suspended on `m`. -/
def Stage.Covers (m : MboxId) (g : Globals) (proc : Pid → Proc) : Stage → Prop
  | .producers i => (∀ q, (proc q).blockedIn (Wait.sendsTo m) = true → q ∈ (g.blockedProducers m).drop i) ∧
      ∀ q, (proc q).blockedIn (Wait.receivesFrom m) = true → g.Lists m q
  | .consumers i => (∀ q, (proc q).blockedIn (Wait.sendsTo m) = false) ∧
      ∀ q, (proc q).blockedIn (Wait.receivesFrom m) = true → q ∈ (g.blockedConsumers m).drop i
  | .pointer => (g.mailboxes m).numSlots ≠ 0 ∧ (∀ q, (proc q).blockedIn (Wait.sendsTo m) = false) ∧
      ∀ q, (proc q).blockedIn (Wait.receivesFrom m) = true → g.Lists m q
  | .rest => (∀ q, (proc q).blockedIn (Wait.sendsTo m) = false) ∧
      ∀ q, (proc q).blockedIn (Wait.receivesFrom m) = false

variable {g g₀ : Globals} {m : MboxId} {pt : Point} {stage : Stage} {proc proc' : Pid → Proc}

/-- Fewer are suspended, and the records are the same. -/
theorem Stage.Covers.mono {g' : Globals} (covers : stage.Covers m g proc)
    (senders : ∀ q, (proc' q).blockedIn (Wait.sendsTo m) = true → (proc q).blockedIn (Wait.sendsTo m) = true)
    (receivers : ∀ q, (proc' q).blockedIn (Wait.receivesFrom m) = true →
      (proc q).blockedIn (Wait.receivesFrom m) = true)
    (producers : g'.blockedProducers m = g.blockedProducers m)
    (consumers : g'.blockedConsumers m = g.blockedConsumers m)
    (numSlots : (g'.mailboxes m).numSlots = (g.mailboxes m).numSlots)
    (pointer : (g.mailboxes m).numSlots ≠ 0 → ∀ entry, (g.mailboxes m).consumers = some entry →
      (g'.mailboxes m).consumers = some entry ∧ g'.shadowProcesses entry = g.shadowProcesses entry) :
    stage.Covers m g' proc' := by
  have lists : ∀ q, g.Lists m q → g'.Lists m q := by
    intro q listed
    unfold Globals.Lists at listed ⊢
    rw [numSlots, consumers]
    by_cases zero : (g.mailboxes m).numSlots = 0
    · rwa [if_pos zero] at listed ⊢
    · rw [if_neg zero] at listed ⊢
      obtain ⟨entry, pointed, named⟩ := listed
      obtain ⟨still, same⟩ := pointer zero entry pointed
      exact ⟨entry, still, same.trans named⟩
  have noSender : (∀ q, (proc q).blockedIn (Wait.sendsTo m) = false) →
      ∀ q, (proc' q).blockedIn (Wait.sendsTo m) = false := by
    intro none q
    by_contra sender
    have before := senders q (by simpa using sender)
    rw [none q] at before
    cases before
  cases stage with
  | producers i =>
    exact ⟨fun q sender => producers ▸ covers.1 q (senders q sender),
      fun q receiver => lists q (covers.2 q (receivers q receiver))⟩
  | consumers i =>
    exact ⟨noSender covers.1, fun q receiver => consumers ▸ covers.2 q (receivers q receiver)⟩
  | pointer =>
    exact ⟨numSlots ▸ covers.1, noSender covers.2.1, fun q receiver => lists q (covers.2.2 q (receivers q receiver))⟩
  | rest =>
    refine ⟨noSender covers.1, fun q => ?_⟩
    by_contra receiver
    have before := receivers q (by simpa using receiver)
    rw [covers.2 q] at before
    cases before

/-- A release has all it comes to covered if it has at the point it runs on from. -/
theorem ReleaseAt.covers (at_ : ReleaseAt g pt g₀ m stage) (covers : pt.stage.Covers m g proc) :
    stage.Covers m g₀ proc := by
  induction at_ with
  | start =>
    obtain ⟨senders, receivers⟩ := covers
    refine ⟨senders, fun q receiver => ?_⟩
    have lists := receivers q receiver
    unfold Globals.Lists at lists ⊢
    simpa using lists
  | nextProducer | nextConsumer | pointerWoken => exact covers
  | @producersDone pt g₀ m i at_ past ih =>
    obtain ⟨senders, receivers⟩ := ih covers
    have none : ∀ q, (proc q).blockedIn (Wait.sendsTo m) = false := by
      intro q
      by_contra sender
      have member := senders q (by simpa using sender)
      rw [List.drop_eq_nil_of_le past] at member
      cases member
    by_cases zero : (g₀.mailboxes m).numSlots = 0
    · rw [if_pos zero]
      refine ⟨none, fun q receiver => ?_⟩
      have lists := receivers q receiver
      rw [Globals.Lists, if_pos zero] at lists
      exact lists
    · rw [if_neg zero]
      exact ⟨zero, none, receivers⟩
  | consumersDone at_ past ih =>
    obtain ⟨senders, receivers⟩ := ih covers
    refine ⟨senders, fun q => ?_⟩
    by_contra receiver
    have member := receivers q (by simpa using receiver)
    rw [List.drop_eq_nil_of_le past] at member
    cases member
  | pointerNull at_ null ih =>
    obtain ⟨slots, senders, receivers⟩ := ih covers
    refine ⟨senders, fun q => ?_⟩
    by_contra receiver
    have listed := receivers q (by simpa using receiver)
    rw [Globals.Lists, if_neg slots] at listed
    obtain ⟨entry, pointed, _⟩ := listed
    rw [null] at pointed
    cases pointed

theorem Cont.releases_unique {k : Cont} {n : MboxId} (first : k.releases m = true) (second : k.releases n = true) :
    n = m := by
  cases k <;> simp_all [Cont.releases]

/-- A release only goes through its own mailbox. -/
theorem ReleaseAt.mbox {n : MboxId} (at_ : ReleaseAt g pt g₀ n stage) (begins : pt.Releases m) : n = m := by
  rcases at_.sameMail with ⟨start, _⟩ | ⟨⟨k, releases, back⟩, _⟩ <;>
    rcases begins with begin | ⟨k', releases', back'⟩
  · rw [start] at begin
    simp only [Point.start.injEq, Call.release.injEq] at begin
    exact Fin.ext (by exact_mod_cast begin)
  · cases start.symm.trans back'
  · cases back.symm.trans begin
  · cases back.symm.trans back'
    exact Cont.releases_unique releases' releases

theorem Point.Releases.fn (begins : pt.Releases m) : pt.fn = .release (m : Nat) := by
  rcases begins with rfl | ⟨k, releases, rfl⟩
  · rfl
  · cases k <;> simp_all [Cont.releases, Point.fn, Cont.fn]

/-- A stretch of code that is not of a release of the inactive mailbox `m`
leaves all that such a release reads, but for the pointer, which a sender that
has woken its receiver clears, and for the shadow entry of who then waits. -/
structure Leaves (g : Globals) (p : Pid) (pt : Point) (m : MboxId) (seg : Segment) : Prop where
  mailbox : seg.1.mailboxes m = g.mailboxes m ∨
    pt = .afterUnblock (.sendMatched m) ∧ seg.1.mailboxes m = (g.clearConsumers m).mailboxes m
  producers : seg.1.blockedProducers m = g.blockedProducers m
  consumers : seg.1.blockedConsumers m = g.blockedConsumers m
  waits : ∀ w, seg.2 = .blocks w → w.mbox ≠ m
  wakes : ∀ pid k, seg.2 = .unblocks pid k → k.releases m = false ∧ k ≠ .sendMatched m
  shadow : ∀ entry, seg.1.shadowProcesses entry = g.shadowProcesses entry ∨
    Globals.shadowIndex p = entry ∧ seg.1.shadowProcesses entry = p ∧ ∃ w, seg.2 = .blocks w ∧ w.setsPointer = true

theorem Leaves.quiet {p : Pid} {seg : Segment} (mailbox : seg.1.mailboxes m = g.mailboxes m)
    (producers : seg.1.blockedProducers m = g.blockedProducers m)
    (consumers : seg.1.blockedConsumers m = g.blockedConsumers m)
    (shadow : seg.1.shadowProcesses = g.shadowProcesses) (waits : ∀ w, seg.2 = .blocks w → w.mbox ≠ m)
    (wakes : ∀ pid k, seg.2 = .unblocks pid k → k.mbox ≠ m) : Leaves g p pt m seg := by
  refine ⟨.inl mailbox, producers, consumers, waits, fun pid k names => ?_, fun entry => .inl (by rw [shadow])⟩
  have other := wakes pid k names
  cases k <;> simp_all [Cont.releases, Cont.mbox]

theorem ReleaseAt.frame {n : MboxId} (at_ : ReleaseAt g pt g₀ n stage) (away : m ≠ n) :
    g₀.mailboxes m = g.mailboxes m ∧ g₀.blockedProducers m = g.blockedProducers m ∧
      g₀.blockedConsumers m = g.blockedConsumers m ∧ g₀.shadowProcesses = g.shadowProcesses := by
  induction at_ with
  | start => exact ⟨Function.update_of_ne away _ _, rfl, rfl, rfl⟩
  | nextProducer | nextConsumer => exact ⟨rfl, rfl, rfl, rfl⟩
  | pointerWoken => exact ⟨Function.update_of_ne away _ _, rfl, rfl, rfl⟩
  | producersDone _ _ ih =>
    obtain ⟨mailbox, producers, consumers, shadow⟩ := ih away
    exact ⟨mailbox, (Function.update_of_ne away _ _).trans producers, consumers, shadow⟩
  | consumersDone _ _ ih =>
    obtain ⟨mailbox, producers, consumers, shadow⟩ := ih away
    exact ⟨mailbox, producers, (Function.update_of_ne away _ _).trans consumers, shadow⟩
  | pointerNull _ _ ih => exact ih away

/-- Outside releases only active mailboxes are touched, and new ones. -/
theorem Path.leaves {p : Pid} {seg : Segment} (path : Path g p pt seg) (inactive : (g.mailboxes m).isActive = false)
    (fresh : pt.fn = .create → g.firstInactive ≠ some m) (apart : ∀ k, pt = .afterUnblock k → k.releases m = false) :
    Leaves g p pt m seg := by
  have away : ∀ n, (g.mailboxes n).isActive = true → m ≠ n := by
    rintro n active rfl
    rw [inactive] at active
    cases active
  have other : ∀ {g₀ n stage}, ReleaseAt g pt g₀ n stage → m ≠ n := by
    rintro g₀ n stage at_ rfl
    rcases at_.sameMail with ⟨_, active, _⟩ | ⟨⟨k, releases, back⟩, _⟩
    · exact away m active rfl
    · rw [apart k back] at releases
      cases releases
  have taken : ∀ {g₀ n buffer k}, TakePoint g pt g₀ n buffer k → m ≠ n ∧ (∀ r, (k r).mbox = n) ∧
      g₀.mailboxes m = g.mailboxes m ∧ g₀.blockedProducers = g.blockedProducers ∧
      g₀.blockedConsumers = g.blockedConsumers ∧ g₀.shadowProcesses = g.shadowProcesses := by
    intro g₀ n buffer k at_
    have off := away n at_.active
    cases at_
    · exact ⟨off, fun _ => rfl, rfl, rfl, rfl, rfl⟩
    · exact ⟨off, fun _ => rfl, Function.update_of_ne off _ _, rfl, rfl, rfl⟩
    · exact ⟨off, fun _ => rfl, rfl, rfl, rfl, rfl⟩
  have recorded : ∀ n, m ≠ n → (recordSender g p n).mailboxes m = g.mailboxes m ∧
      (recordSender g p n).blockedProducers m = g.blockedProducers m ∧
      (recordSender g p n).blockedConsumers m = g.blockedConsumers m ∧
      (recordSender g p n).shadowProcesses = g.shadowProcesses := by
    intro n off
    unfold recordSender
    split
    · exact ⟨rfl, rfl, rfl, rfl⟩
    · exact ⟨rfl, Function.update_of_ne off _ _, rfl, rfl⟩
  cases path with
  | refused | resumedInactive | resumedZero | sendStoredReturns | recvTakenReturns =>
    exact .quiet rfl rfl rfl rfl (by rintro _ ⟨⟩) (by rintro _ _ ⟨⟩)
  | @created n _ _ found | @createFails n _ _ found =>
    have off : m ≠ n := by
      rintro rfl
      exact fresh rfl found
    exact .quiet (Function.update_of_ne off _ _) rfl rfl rfl (by rintro _ ⟨⟩) (by rintro _ _ ⟨⟩)
  | sendMatches active =>
    have off := away _ active
    exact .quiet rfl rfl rfl rfl (by rintro _ ⟨⟩) (by rintro _ _ ⟨⟩; exact off.symm)
  | sendZeroBlocks active =>
    have off := away _ active
    refine ⟨.inl (Function.update_of_ne off _ _), Function.update_of_ne off _ _, rfl, ?_, by rintro _ _ ⟨⟩,
      fun entry => ?_⟩
    · rintro _ ⟨⟩
      exact off.symm
    · by_cases own : entry = Globals.shadowIndex p
      · subst own
        exact .inr ⟨rfl, Function.update_self .., _, rfl, rfl⟩
      · exact .inl (Function.update_of_ne own _ _)
  | recvZeroBlocks active | recvEmptyBlocks active =>
    have off := away _ active
    refine ⟨.inl (Function.update_of_ne off _ _), rfl, Function.update_of_ne off _ _, ?_, by rintro _ _ ⟨⟩,
      fun entry => ?_⟩
    · rintro _ ⟨⟩
      exact off.symm
    · by_cases own : entry = Globals.shadowIndex p
      · subst own
        exact .inr ⟨rfl, Function.update_self .., _, rfl, rfl⟩
      · exact .inl (Function.update_of_ne own _ _)
  | sendFullBlocks active | resumedFullBlocks active =>
    have off := away _ active
    obtain ⟨mailbox, producers, consumers, shadow⟩ := recorded _ off
    exact .quiet mailbox producers consumers shadow (by rintro _ ⟨⟩; exact off.symm) (by rintro _ _ ⟨⟩)
  | storeFaults at_ | stores at_ => exact .quiet rfl rfl rfl rfl (by rintro _ ⟨⟩) (by rintro _ _ ⟨⟩)
  | storesAndWakes at_ =>
    have off := away _ at_.active
    refine .quiet rfl rfl (Function.update_of_ne off _ _) rfl (by rintro _ ⟨⟩) ?_
    rintro _ _ ⟨⟩
    cases at_ <;> exact off.symm
  | recvMatches active =>
    have off := away _ active
    exact .quiet rfl (Function.update_of_ne off _ _) rfl rfl (by rintro _ ⟨⟩) (by rintro _ _ ⟨⟩; exact off.symm)
  | resumedEmpty active =>
    exact .quiet (Function.update_of_ne (away _ active) _ _) rfl rfl rfl (by rintro _ ⟨⟩) (by rintro _ _ ⟨⟩)
  | takeFaults at_ | takeRejects at_ | takes at_ =>
    obtain ⟨off, _, mailbox, producers, consumers, shadow⟩ := taken at_
    exact .quiet mailbox (congrFun producers m) (congrFun consumers m) shadow (by rintro _ ⟨⟩) (by rintro _ _ ⟨⟩)
  | takesAndWakes at_ =>
    obtain ⟨off, mbox, mailbox, producers, consumers, shadow⟩ := taken at_
    refine .quiet mailbox ((Function.update_of_ne off _ _).trans (congrFun producers m)) (congrFun consumers m)
      shadow (by rintro _ ⟨⟩) ?_
    rintro _ _ ⟨⟩
    rw [mbox]
    exact off.symm
  | @sendMatchedReturns n =>
    by_cases off : m = n
    · subst off
      exact ⟨.inr ⟨rfl, rfl⟩, rfl, rfl, by rintro _ ⟨⟩, by rintro _ _ ⟨⟩, fun _ => .inl rfl⟩
    · exact .quiet (Function.update_of_ne off _ _) rfl rfl rfl (by rintro _ ⟨⟩) (by rintro _ _ ⟨⟩)
  | releaseWakesProducer at_ | releaseWakesConsumer at_ | releaseWakesPointer at_ =>
    obtain ⟨mailbox, producers, consumers, shadow⟩ := at_.frame (other at_)
    have off := other at_
    exact .quiet mailbox producers consumers shadow (by rintro _ ⟨⟩) (by rintro _ _ ⟨⟩; exact off.symm)
  | releaseReturns at_ =>
    obtain ⟨mailbox, producers, consumers, shadow⟩ := at_.frame (other at_)
    exact .quiet mailbox producers consumers shadow (by rintro _ ⟨⟩) (by rintro _ _ ⟨⟩)

/-- How a stretch of a release of `m` ends. -/
inductive ReleaseEnds (g : Globals) (pt : Point) (m : MboxId) : Segment → Prop
  | wakesProducer {g₀ : Globals} {i pid} : ReleaseAt g pt g₀ m (.producers i) →
      (g₀.blockedProducers m)[i]? = some pid → ReleaseEnds g pt m (g₀, .unblocks pid (.releaseProducers m (i + 1)))
  | wakesConsumer {g₀ : Globals} {i pid} : ReleaseAt g pt g₀ m (.consumers i) →
      (g₀.blockedConsumers m)[i]? = some pid → ReleaseEnds g pt m (g₀, .unblocks pid (.releaseConsumers m (i + 1)))
  | wakesPointer {g₀ : Globals} {entry} : ReleaseAt g pt g₀ m .pointer → (g₀.mailboxes m).consumers = some entry →
      ReleaseEnds g pt m (g₀, .unblocks (g₀.shadowProcesses entry) (.releasePointer m))
  | returns {g₀ : Globals} : ReleaseAt g pt g₀ m .rest → ReleaseEnds g pt m (returnCode (g₀.freeQueue m) 0)

theorem Path.release_ends {p : Pid} {seg : Segment} (path : Path g p pt seg) (begins : pt.Releases m)
    (active : pt = .start (.release (m : Nat)) → (g.mailboxes m).isActive = true) : ReleaseEnds g pt m seg := by
  have fn := begins.fn
  cases path with
  | releaseWakesProducer at_ recorded =>
    obtain rfl := at_.mbox begins
    exact .wakesProducer at_ recorded
  | releaseWakesConsumer at_ recorded =>
    obtain rfl := at_.mbox begins
    exact .wakesConsumer at_ recorded
  | releaseWakesPointer at_ pointed =>
    obtain rfl := at_.mbox begins
    exact .wakesPointer at_ pointed
  | releaseReturns at_ =>
    obtain rfl := at_.mbox begins
    exact .returns at_
  | refused unadmitted =>
    rcases begins with begin | ⟨k, _, back⟩
    · obtain rfl := Point.start.inj begin
      have found : g.activeMbox (m : Nat) = some m := Globals.activeMbox_eq_some.mpr ⟨rfl, active rfl⟩
      exact absurd (by simp [Call.Admitted, found]) unadmitted
    · cases back
  | storeFaults at_ | stores at_ | storesAndWakes at_ =>
    rcases at_.fn with other | other <;> rw [fn] at other <;> cases other
  | takeFaults at_ | takeRejects at_ | takes at_ | takesAndWakes at_ =>
    rcases at_.fn with other | other <;> rw [fn] at other <;> cases other
  | resumedInactive | resumedZero => rcases begins with begin | ⟨k, _, back⟩ <;> contradiction
  | sendStoredReturns kind => rcases kind with rfl | rfl | rfl <;> cases fn
  | recvTakenReturns kind => rcases kind with rfl | rfl <;> cases fn
  | created | createFails | sendMatches | sendZeroBlocks | sendFullBlocks | resumedFullBlocks | recvMatches
  | recvZeroBlocks | recvEmptyBlocks | resumedEmpty | sendMatchedReturns => cases fn

/-- Once a release has begun its mailbox is inactive, and has the slots it had. -/
theorem ReleaseEnds.status {seg : Segment} (ends : ReleaseEnds g pt m seg)
    (inactive : (∃ k, pt = .afterUnblock k) → (g.mailboxes m).isActive = false) :
    (seg.1.mailboxes m).isActive = false ∧ (seg.1.mailboxes m).numSlots = (g.mailboxes m).numSlots := by
  have reached : ∀ {g₀ stage}, ReleaseAt g pt g₀ m stage →
      (g₀.mailboxes m).isActive = false ∧ (g₀.mailboxes m).numSlots = (g.mailboxes m).numSlots := by
    intro g₀ stage at_
    rcases at_.sameMail with ⟨_, _, same⟩ | ⟨⟨k, _, back⟩, same⟩
    · rw [same.active, same.numSlots]
      simp
    · rw [same.active, same.numSlots]
      exact ⟨inactive ⟨k, back⟩, rfl⟩
  cases ends with
  | wakesProducer at_ | wakesConsumer at_ | wakesPointer at_ => exact reached at_
  | returns at_ => exact (reached at_ :)

namespace Sys

variable {s : Sys} {p : Pid} {seg : Segment}

theorem blocked_unblocks {kind : Wait → Bool} {pid q : Pid} {k : Cont}
    (blocked : ((s.after p pt (g, .unblocks pid k)).proc q).blockedIn kind = true) :
    (s.proc q).blockedIn kind = true ∧ q ≠ pid := by
  rcases blocked_after blocked with before | ⟨_, w, ends, _⟩
  · refine ⟨before, ?_⟩
    rintro rfl
    simp only [after, settle, Function.update_self, Proc.wake_blockedIn, Bool.false_eq_true] at blocked
  · cases ends

/-- The entries after the one just woken. -/
theorem mem_later {waiting : List Pid} {i : Nat} {pid q : Pid} (recorded : waiting[i]? = some pid) (other : q ≠ pid)
    (member : q ∈ waiting.drop i) : q ∈ waiting.drop (i + 1) := by
  obtain ⟨bound, atI⟩ := List.getElem?_eq_some_iff.mp recorded
  rw [List.drop_eq_getElem_cons bound, atI] at member
  exact (List.mem_cons.mp member).resolve_left other

/-- After a stretch of a release that had all who wait covered, those still
suspended are covered, or the release has returned and nobody is. -/
theorem covers_after (ends : ReleaseEnds s.globals pt m seg) (covers : pt.stage.Covers m s.globals s.proc) :
    (∃ k, (s.after p pt seg).proc p = .unblocking k ∧ k.releases m = true ∧
      k.stage.Covers m (s.after p pt seg).globals (s.after p pt seg).proc) ∨
    (s.after p pt seg).proc p = .outside ∧
      Stage.rest.Covers m (s.after p pt seg).globals (s.after p pt seg).proc := by
  have unwoken : ∀ {g₀ pid k} {kind : Wait → Bool}, (∀ q, (s.proc q).blockedIn kind = false) →
      ∀ q, ((s.after p pt (g₀, .unblocks pid k)).proc q).blockedIn kind = false := by
    intro g₀ pid k kind none q
    by_contra blocked
    have before := (blocked_unblocks (by simpa using blocked)).1
    rw [none q] at before
    cases before
  cases ends with
  | wakesProducer at_ recorded =>
    obtain ⟨senders, receivers⟩ := at_.covers covers
    refine .inl ⟨_, unblocks_self .., by simp [Cont.releases], fun q sender => ?_, fun q receiver => ?_⟩
    · obtain ⟨before, other⟩ := blocked_unblocks sender
      exact mem_later recorded other (senders q before)
    · exact receivers q (blocked_unblocks receiver).1
  | wakesConsumer at_ recorded =>
    obtain ⟨senders, receivers⟩ := at_.covers covers
    refine .inl ⟨_, unblocks_self .., by simp [Cont.releases], unwoken senders, fun q receiver => ?_⟩
    obtain ⟨before, other⟩ := blocked_unblocks receiver
    exact mem_later recorded other (receivers q before)
  | wakesPointer at_ pointed =>
    obtain ⟨slots, senders, receivers⟩ := at_.covers covers
    refine .inl ⟨_, unblocks_self .., by simp [Cont.releases], unwoken senders, fun q => ?_⟩
    by_contra receiver
    obtain ⟨before, other⟩ := blocked_unblocks (by simpa using receiver)
    have listed := receivers q before
    rw [Globals.Lists, if_neg slots] at listed
    obtain ⟨entry, pointed', named⟩ := listed
    cases pointed.symm.trans pointed'
    exact other named.symm
  | returns at_ =>
    obtain ⟨senders, receivers⟩ := at_.covers covers
    have silent : ∀ {g₁ : Globals} {kind : Wait → Bool}, (∀ q, (s.proc q).blockedIn kind = false) →
        ∀ q, ((s.after p pt (returnCode g₁ 0)).proc q).blockedIn kind = false := by
      intro g₁ kind none q
      by_contra blocked
      rcases blocked_after (by simpa using blocked) with before | ⟨_, w, ends, _⟩
      · rw [none q] at before
        cases before
      · cases ends
    exact .inr ⟨by simp only [after, settle, returnCode, Function.update_self], silent senders, silent receivers⟩

end Sys

end UslossKernel
