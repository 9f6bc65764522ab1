import UslossKernel.ReleaseSteps
import UslossKernel.SlotOwnership
import UslossKernel.SuspensionTimes
import UslossKernel.ZeroSlotLists

namespace UslossKernel

/-- The two kinds of waiting processes, each with its array. -/
inductive Role
  | producer
  | consumer
deriving DecidableEq

namespace Role

/-- Suspended in this role on `m`. -/
def waits (m : MboxId) : Role → Wait → Bool
  | .producer => Wait.sendsTo m
  | .consumer => Wait.receivesFrom m

def other : Role → Role
  | .producer => .consumer
  | .consumer => .producer

/-- The used part of the array, for each mailbox. -/
def array (g : Globals) : Role → MboxId → List Pid
  | .producer => g.blockedProducers
  | .consumer => g.blockedConsumers

def limit : Role → Nat
  | .producer => maxBlockedProducers
  | .consumer => maxBlockedConsumers

/-- Inside the loop of `MboxRelease` over the array. -/
def loop (m : MboxId) (i : Nat) : Role → Cont
  | .producer => .releaseProducers m i
  | .consumer => .releaseConsumers m i

def stage (i : Nat) : Role → Stage
  | .producer => .producers i
  | .consumer => .consumers i

end Role

/-- The release of `m` that runs on from this point looks at the array from
this entry on: when it comes to the loop, at all of it. -/
inductive Point.LoopsFrom (ρ : Role) (m : MboxId) : Nat → Point → Prop
  | begins : Point.LoopsFrom ρ m 0 (.start (.release (m : Nat)))
  | within {i} : Point.LoopsFrom ρ m i (.afterUnblock (ρ.loop m i))
  | follows {σ : Role} {i} : Point.LoopsFrom ρ m 0 (.afterUnblock (σ.loop m i))

/-- What a stretch of code does to the pids recorded for `m`. -/
inductive Requeue (ρ : Role) (m : MboxId) (g : Globals) (p : Pid) (pt : Point) (outcome : Outcome) :
    List Pid → Prop
  | keeps : (∀ w, outcome = .blocks w → ρ.waits m w = false) →
      Requeue ρ m g p pt outcome (ρ.array g m)
  | joins {w waiting'} : outcome = .blocks w → ρ.waits m w = true → (g.mailboxes m).isActive = true →
      waiting' = ρ.array g m ∨ waiting' = ρ.array g m ++ [p] →
      (p ∉ ρ.array g m → (ρ.array g m).length < ρ.limit → waiting' = ρ.array g m ++ [p]) →
      Requeue ρ m g p pt outcome waiting'
  | pops {pid rest k} : ρ.array g m = pid :: rest → outcome = .unblocks pid k →
      (g.mailboxes m).isActive = true → Requeue ρ m g p pt outcome rest
  | empties {i} : pt.LoopsFrom ρ m i → (ρ.array g m).length ≤ i → (∀ w, outcome ≠ .blocks w) →
      Requeue ρ m g p pt outcome []

variable {g g₀ : Globals} {p : Pid} {pt : Point} {m n : MboxId} {stage : Stage} {seg : Segment} {ρ : Role}

theorem ReleaseAt.consumers_kept (at_ : ReleaseAt g pt g₀ m stage) (before : stage ≠ .rest) :
    g₀.blockedConsumers = g.blockedConsumers := by
  induction at_ with
  | start | nextProducer | nextConsumer => rfl
  | pointerWoken | consumersDone | pointerNull => exact absurd rfl before
  | producersDone _ _ ih => exact ih (by rintro ⟨⟩)

theorem ReleaseAt.at_producers (at_ : ReleaseAt g pt g₀ m stage) {i : Nat} (loop : stage = .producers i) :
    g₀.blockedProducers = g.blockedProducers ∧
      (i = 0 ∧ pt = .start (.release (m : Nat)) ∨ pt = .afterUnblock (.releaseProducers m i)) := by
  cases at_ with
  | start => cases loop; exact ⟨rfl, .inl ⟨rfl, rfl⟩⟩
  | nextProducer => cases loop; exact ⟨rfl, .inr rfl⟩
  | nextConsumer | pointerWoken | consumersDone | pointerNull => cases loop
  | producersDone => split at loop <;> cases loop

/-- At the loop over an array it is as it was. -/
theorem ReleaseAt.at_loop {i : Nat} (at_ : ReleaseAt g pt g₀ m (ρ.stage i)) :
    ρ.array g₀ m = ρ.array g m ∧ pt.LoopsFrom ρ m i := by
  cases ρ with
  | producer =>
    obtain ⟨kept, ⟨rfl, rfl⟩ | rfl⟩ := at_.at_producers rfl
    · exact ⟨congrFun kept m, .begins⟩
    · exact ⟨congrFun kept m, .within⟩
  | consumer =>
    have kept := at_.consumers_kept (by rintro ⟨⟩)
    refine ⟨congrFun kept m, ?_⟩
    generalize atStage : Role.stage i .consumer = stage at at_
    cases at_ with
    | start | nextProducer | pointerWoken | consumersDone | pointerNull => cases atStage
    | nextConsumer => cases atStage; exact .within (ρ := .consumer)
    | producersDone at_ =>
      simp only [Role.stage] at atStage
      split at atStage <;> cases atStage
      obtain ⟨_, ⟨_, rfl⟩ | rfl⟩ := at_.at_producers rfl
      · exact .begins
      · exact .follows (σ := .producer)

/-- A release leaves an array alone until its loop is over. -/
theorem ReleaseAt.loop_over (at_ : ReleaseAt g pt g₀ m stage) (ρ : Role) :
    ρ.array g₀ m = ρ.array g m ∨
      ρ.array g₀ m = [] ∧ ∃ i, pt.LoopsFrom ρ m i ∧ (ρ.array g m).length ≤ i := by
  induction at_ with
  | start | nextProducer | nextConsumer | pointerWoken => cases ρ <;> exact .inl rfl
  | pointerNull _ _ ih => exact ih
  | @producersDone _ _ _ i at_ past ih =>
    cases ρ with
    | producer =>
      obtain ⟨kept, loops⟩ := ReleaseAt.at_loop (ρ := .producer) at_
      exact .inr ⟨Function.update_self .., i, loops, kept ▸ past⟩
    | consumer => exact ih
  | @consumersDone _ _ _ i at_ past ih =>
    cases ρ with
    | producer => exact ih
    | consumer =>
      obtain ⟨kept, loops⟩ := ReleaseAt.at_loop (ρ := .consumer) at_
      exact .inr ⟨Function.update_self .., i, loops, kept ▸ past⟩

theorem Role.waits_unique {σ : Role} {w : Wait} (first : σ.waits n w = true) (second : ρ.waits m w = true) :
    ρ = σ ∧ m = n := by
  cases w <;> cases σ <;> cases ρ <;> simp_all [Role.waits, Wait.sendsTo, Wait.receivesFrom]

theorem Requeue.same {outcome : Outcome} {waiting : List Pid} (same : waiting = ρ.array g m)
    (apart : ∀ w, outcome = .blocks w → ρ.waits m w = false) : Requeue ρ m g p pt outcome waiting :=
  same ▸ .keeps apart

/-- Only the array of `σ` has changed, and only at `n`. -/
theorem Role.array_away {g' : Globals} {σ : Role} {waiting : List Pid}
    (array : σ.array g' = Function.update (σ.array g) n waiting)
    (other : σ.other.array g' = σ.other.array g) (away : ¬ (ρ = σ ∧ m = n)) :
    ρ.array g' m = ρ.array g m := by
  by_cases same : ρ = σ
  · subst same
    rw [array, Function.update_of_ne fun here => away ⟨rfl, here⟩]
  · have others : ρ = σ.other := by cases ρ <;> cases σ <;> trivial
    rw [others, other]

/-- Suspended in a role on `n`, with the pid put at the end of the array if there is room. -/
theorem Requeue.pushed {g' : Globals} {w : Wait} {σ : Role} {waiting : List Pid} (waits : σ.waits n w = true)
    (active : (g.mailboxes n).isActive = true) (array : σ.array g' = Function.update (σ.array g) n waiting)
    (other : σ.other.array g' = σ.other.array g)
    (pushed : waiting = σ.array g n ∨ waiting = σ.array g n ++ [p])
    (longer : p ∉ σ.array g n → (σ.array g n).length < σ.limit → waiting = σ.array g n ++ [p]) :
    Requeue ρ m g p pt (.blocks w) (ρ.array g' m) := by
  by_cases here : ρ = σ ∧ m = n
  · obtain ⟨rfl, rfl⟩ := here
    rw [array, Function.update_self]
    exact .joins rfl waits active pushed longer
  · refine .same (Role.array_away array other here) ?_
    rintro _ ⟨⟩
    by_contra waits'
    exact here (Role.waits_unique waits (by simpa using waits'))

/-- The first pid of the array of `n` is taken out and woken. -/
theorem Requeue.popped {g' : Globals} {σ : Role} {pid : Pid} {rest : List Pid} {k : Cont}
    (active : (g.mailboxes n).isActive = true) (first : σ.array g n = pid :: rest)
    (array : σ.array g' = Function.update (σ.array g) n rest)
    (other : σ.other.array g' = σ.other.array g) :
    Requeue ρ m g p pt (.unblocks pid k) (ρ.array g' m) := by
  by_cases here : ρ = σ ∧ m = n
  · obtain ⟨rfl, rfl⟩ := here
    rw [array, Function.update_self]
    exact .pops first rfl active
  · exact .same (Role.array_away array other here) (by rintro _ ⟨⟩)

theorem recordSender_joins (g : Globals) (p : Pid) (n : MboxId) :
    ∃ waiting, (recordSender g p n).blockedProducers = Function.update g.blockedProducers n waiting ∧
      (recordSender g p n).blockedConsumers = g.blockedConsumers ∧
      (waiting = g.blockedProducers n ∨ waiting = g.blockedProducers n ++ [p]) ∧
      (p ∉ g.blockedProducers n → (g.blockedProducers n).length < maxBlockedProducers →
        waiting = g.blockedProducers n ++ [p]) := by
  unfold recordSender
  split
  · rename_i recorded
    exact ⟨_, (Function.update_eq_self n _).symm, rfl, .inl rfl, fun absent => absurd recorded absent⟩
  · exact ⟨_, rfl, rfl, Globals.pushWaiter_cases .., fun _ room => if_pos room⟩

theorem ReleaseAt.requeue (outcome : Outcome) (at_ : ReleaseAt g pt g₀ n stage) (wakes : ∀ w, outcome ≠ .blocks w) :
    Requeue ρ m g p pt outcome (ρ.array g₀ m) := by
  by_cases here : m = n
  · subst here
    rcases at_.loop_over ρ with kept | ⟨emptied, i, loops, past⟩
    · exact .same kept fun w blocks => (wakes w blocks).elim
    · exact emptied ▸ .empties loops past wakes
  · obtain ⟨_, producers, consumers, _⟩ := at_.frame here
    refine .same ?_ fun w blocks => (wakes w blocks).elim
    cases ρ
    · exact producers
    · exact consumers

theorem Path.requeue (path : Path g p pt seg) (lives : ∀ f, seg.2 ≠ .faults f) :
    Requeue ρ m g p pt seg.2 (ρ.array seg.1 m) := by
  have quiet : ∀ {g' outcome}, g'.blockedProducers = g.blockedProducers →
      g'.blockedConsumers = g.blockedConsumers → (∀ w, outcome ≠ .blocks w) →
      Requeue ρ m g p pt outcome (ρ.array g' m) := by
    intro g' outcome producers consumers wakes
    refine .same ?_ fun w blocks => (wakes w blocks).elim
    cases ρ
    · exact congrFun producers m
    · exact congrFun consumers m
  have taken : ∀ {g₀ n buffer k}, TakePoint g pt g₀ n buffer k →
      g₀.blockedProducers = g.blockedProducers ∧ g₀.blockedConsumers = g.blockedConsumers := by
    intro g₀ n buffer k at_
    cases at_ <;> exact ⟨rfl, rfl⟩
  have pushed : ∀ {limit : Nat} {waiting : List Pid}, waiting.length < limit →
      Globals.pushWaiter limit waiting p = waiting ++ [p] := fun room => if_pos room
  cases path with
  | refused | created | createFails | stores | resumedEmpty | resumedInactive | resumedZero
  | sendMatchedReturns | sendStoredReturns | recvTakenReturns | sendMatches =>
    exact quiet rfl rfl (by rintro _ ⟨⟩)
  | takeRejects at_ | takes at_ =>
    obtain ⟨producers, consumers⟩ := taken at_
    exact quiet producers consumers (by rintro _ ⟨⟩)
  | storeFaults | takeFaults => exact absurd rfl (lives _)
  | sendZeroBlocks active =>
    exact .pushed (σ := .producer) (by simp [Role.waits, Wait.sendsTo]) active rfl rfl
      (Globals.pushWaiter_cases ..) fun _ room => pushed room
  | sendFullBlocks active | resumedFullBlocks active =>
    obtain ⟨waiting, producers, consumers, pushed, longer⟩ := recordSender_joins g p _
    exact .pushed (σ := .producer) (by simp [Role.waits, Wait.sendsTo]) active producers consumers pushed longer
  | recvZeroBlocks active | recvEmptyBlocks active =>
    exact .pushed (σ := .consumer) (by simp [Role.waits, Wait.receivesFrom]) active rfl rfl
      (Globals.pushWaiter_cases ..) fun _ room => pushed room
  | storesAndWakes at_ _ _ recorded => exact .popped (σ := .consumer) at_.active recorded rfl rfl
  | recvMatches active _ _ recorded => exact .popped (σ := .producer) active recorded rfl rfl
  | takesAndWakes at_ _ _ recorded =>
    obtain ⟨producers, consumers⟩ := taken at_
    refine .popped (σ := .producer) at_.active recorded ?_ consumers
    simp only [Role.array, Globals.setBlockedProducers_blockedProducers, Globals.freeSlot_blockedProducers,
      Globals.dequeueSlot_blockedProducers, producers]
  | releaseWakesProducer at_ | releaseWakesConsumer at_ | releaseWakesPointer at_ =>
    exact at_.requeue _ (by rintro _ ⟨⟩)
  | releaseReturns at_ => exact at_.requeue (.returns ⟨0, []⟩) (by rintro _ ⟨⟩)

/-- A release that wakes an entry of an array stood at its loop, one entry before. -/
theorem Path.loops {g' : Globals} {pid : Pid} {i : Nat} (path : Path g p pt (g', .unblocks pid (ρ.loop m i))) :
    ∃ j, i = j + 1 ∧ ReleaseAt g pt g' m (ρ.stage j) ∧ (ρ.array g m)[j]? = some pid := by
  cases ρ with
  | producer =>
    generalize atLoop : Role.loop m i .producer = k at path
    cases path with
    | @releaseWakesProducer _ _ _ j _ at_ recorded =>
      cases atLoop
      have kept : g'.blockedProducers m = g.blockedProducers m := (ReleaseAt.at_loop (ρ := .producer) at_).1
      exact ⟨j, rfl, at_, (congrArg (·[j]?) kept).symm.trans recorded⟩
    | sendMatches | recvMatches | releaseWakesConsumer | releaseWakesPointer => cases atLoop
    | storesAndWakes at_ | takesAndWakes at_ => cases at_ <;> cases atLoop
  | consumer =>
    generalize atLoop : Role.loop m i .consumer = k at path
    cases path with
    | @releaseWakesConsumer _ _ _ j _ at_ recorded =>
      cases atLoop
      have kept : g'.blockedConsumers m = g.blockedConsumers m := (ReleaseAt.at_loop (ρ := .consumer) at_).1
      exact ⟨j, rfl, at_, (congrArg (·[j]?) kept).symm.trans recorded⟩
    | sendMatches | recvMatches | releaseWakesProducer | releaseWakesPointer => cases atLoop
    | storesAndWakes at_ | takesAndWakes at_ => cases at_ <;> cases atLoop

namespace Timed

/-- Those who wait are all in the list, once and in the order in which they
began to. -/
structure InOrder (waits : Pid → Prop) (since : Pid → Nat) (waiting : List Pid) : Prop where
  nodup : waiting.Nodup
  member : ∀ q, waits q → q ∈ waiting
  ordered : waiting.Pairwise fun a b => waits a → waits b → since a < since b

namespace InOrder

variable {waits waits' : Pid → Prop} {since since' : Pid → Nat} {waiting rest : List Pid} {q : Pid}

theorem mono (inOrder : InOrder waits since waiting)
    (fewer : ∀ q, waits' q → waits q ∧ since' q = since q) : InOrder waits' since' waiting where
  nodup := inOrder.nodup
  member q still := inOrder.member q (fewer q still).1
  ordered := inOrder.ordered.imp fun before first second => by
    rw [(fewer _ first).2, (fewer _ second).2]
    exact before (fewer _ first).1 (fewer _ second).1

theorem push (inOrder : InOrder waits since waiting) (absent : q ∉ waiting) (last : ∀ r ∈ waiting, since r < since q) :
    InOrder (fun r => waits r ∨ r = q) since (waiting ++ [q]) where
  nodup := List.nodup_append.mpr ⟨inOrder.nodup, List.nodup_singleton q, fun r member s single same =>
    absent (by rwa [← List.mem_singleton.mp single, ← same])⟩
  member r := by
    rintro (before | rfl)
    · exact List.mem_append_left _ (inOrder.member r before)
    · exact List.mem_append_right _ (List.mem_singleton_self r)
  ordered := by
    refine List.pairwise_append.mpr ⟨?_, List.pairwise_singleton .., fun r member s single _ _ => ?_⟩
    · refine inOrder.ordered.imp_of_mem fun inA inB before first second => before ?_ ?_
      · exact first.resolve_right fun same => absent (same ▸ inA)
      · exact second.resolve_right fun same => absent (same ▸ inB)
    · rw [List.mem_singleton.mp single]
      exact last r member

theorem tail (inOrder : InOrder waits since (q :: rest)) (woken : ¬ waits q) : InOrder waits since rest where
  nodup := inOrder.nodup.of_cons
  member r still := (List.mem_cons.mp (inOrder.member r still)).resolve_left fun same => woken (same ▸ still)
  ordered := inOrder.ordered.of_cons

theorem nil (nobody : ∀ q, ¬ waits q) : InOrder waits since [] :=
  ⟨List.nodup_nil, fun q still => (nobody q still).elim, .nil⟩

end InOrder

/-- Suspended in the role on `m` and not yet woken. -/
def Suspended (m : MboxId) (ρ : Role) (t : Timed) (q : Pid) : Prop :=
  (t.sys.proc q).blockedIn (ρ.waits m) = true

/-- A process is suspended in one role, on one mailbox. -/
theorem Suspended.unique {t : Timed} {σ : Role} {q : Pid} (waits : t.Suspended m ρ q) (also : t.Suspended n σ q) :
    ρ = σ ∧ m = n := by
  obtain ⟨w, atQ, first⟩ := Proc.blockedIn_iff.mp waits
  obtain ⟨w', atQ', second⟩ := Proc.blockedIn_iff.mp also
  cases atQ.symm.trans atQ'
  exact Role.waits_unique second first

/-- The processes suspended in the role on `m` are on record. -/
def Listed (m : MboxId) (ρ : Role) (t : Timed) : Prop :=
  InOrder (t.Suspended m ρ) t.since (ρ.array t.sys.globals m)

/-- A release that stands in the loop over the array has still to come to all
suspended processes, unless the id has been handed out since it began. -/
def Covered (m : MboxId) (ρ : Role) (t : Timed) : Prop :=
  ∀ r i, t.sys.proc r = .unblocking (ρ.loop m i) → t.created m ≤ t.began r →
    (t.sys.globals.mailboxes m).isActive = false ∧
      ∀ q, t.Suspended m ρ q → q ∈ (ρ.array t.sys.globals m).drop i

/-- Who is suspended on `m` finds room in the array and no older entry of its
own, and a release of an earlier mailbox with the id empties the array only
while nobody is suspended on `m`. -/
structure KeepsRecords (m : MboxId) (t : Timed) (a : Act) : Prop where
  room : ∀ (ρ : Role) pt w, t.sys.RunsFrom a pt → (pt.exec t.sys.globals a.pid).2 = .blocks w →
    ρ.waits m w = true →
    a.pid ∉ ρ.array t.sys.globals m ∧ (ρ.array t.sys.globals m).length < ρ.limit
  release : ∀ (ρ : Role) i, t.sys.RunsFrom a (.afterUnblock (ρ.loop m i)) →
    (ρ.array t.sys.globals m).length ≤ i → t.began a.pid < t.created m →
    ∀ q, ¬ t.Suspended m ρ q

variable {t : Timed} {i : Nat}

/-- When the loop over the array is over nobody is suspended. -/
theorem nobody_left (listed : t.Listed m ρ) (covered : t.Covered m ρ) (keeps : t.KeepsRecords m (pt.act p))
    (here : (t.sys.proc p).At pt) (loops : pt.LoopsFrom ρ m i) (past : (ρ.array t.sys.globals m).length ≤ i)
    (q : Pid) : ¬ t.Suspended m ρ q := by
  intro suspended
  have empty : i ≠ 0 := by
    rintro rfl
    have member := listed.member q suspended
    rw [List.length_eq_zero_iff.mp (Nat.le_zero.mp past)] at member
    cases member
  cases loops with
  | begins | follows => exact empty rfl
  | within =>
    by_cases again : t.began p < t.created m
    · refine keeps.release ρ i ⟨p, rfl, here⟩ past ?_ q suspended
      rwa [Point.act_pid]
    · have member := (covered p i here.unblocking_eq (Nat.not_lt.mp again)).2 q suspended
      rw [List.drop_eq_nil_of_le past] at member
      cases member

theorem since_after {q : Pid} (other : q ≠ p) : (t.after p pt seg).since q = t.since q := by
  simp only [after, stamp, Point.act_pid]
  split
  · exact Function.update_of_ne other _ _
  · rfl

theorem since_blocks {g' : Globals} {w : Wait} : (t.after p pt (g', .blocks w)).since p = t.now + 1 := by
  simp [after, stamp, Sys.after, Sys.settle]

theorem awake {q : Pid} (here : (t.sys.proc p).At pt) (suspended : t.Suspended m ρ q) : q ≠ p := by
  rintro rfl
  rw [Suspended, here.blockedIn] at suspended
  cases suspended

/-- Who is suspended after a stretch of code was so before, for as long,
unless it is the process that ran it. -/
theorem suspended_after {q : Pid} (here : (t.sys.proc p).At pt) (suspended : (t.after p pt seg).Suspended m ρ q) :
    t.Suspended m ρ q ∧ (t.after p pt seg).since q = t.since q ∨
      q = p ∧ ∃ w, seg.2 = .blocks w ∧ ρ.waits m w = true := by
  exact (Sys.blocked_after suspended).imp (fun before => ⟨before, since_after (awake here before)⟩) id

theorem Listed.after (listed : t.Listed m ρ) (past : t.Past) (here : (t.sys.proc p).At pt)
    (path : Path t.sys.globals p pt seg) (lives : ∀ f, seg.2 ≠ .faults f)
    (room : ∀ w, seg.2 = .blocks w → ρ.waits m w = true →
      p ∉ ρ.array t.sys.globals m ∧ (ρ.array t.sys.globals m).length < ρ.limit)
    (nobody : ∀ i, pt.LoopsFrom ρ m i → (ρ.array t.sys.globals m).length ≤ i →
      ∀ q, ¬ t.Suspended m ρ q) : (t.after p pt seg).Listed m ρ := by
  have fewer : (∀ w, seg.2 = .blocks w → ρ.waits m w = false) → ∀ q, (t.after p pt seg).Suspended m ρ q →
      t.Suspended m ρ q ∧ (t.after p pt seg).since q = t.since q := by
    intro apart q suspended
    rcases suspended_after here suspended with before | ⟨_, w, blocks, waits⟩
    · exact before
    · rw [apart w blocks] at waits
      cases waits
  have requeue := path.requeue lives (ρ := ρ) (m := m)
  unfold Listed at listed ⊢
  rw [after_sys, Sys.after_globals lives]
  generalize ρ.array seg.1 m = waiting' at requeue
  cases requeue with
  | keeps apart => exact listed.mono (fewer apart)
  | @joins w _ blocks waits _ _ longer =>
    obtain ⟨absent, free⟩ := room w blocks waits
    rw [longer absent free]
    have since : (t.after p pt seg).since p = t.now + 1 := by
      obtain ⟨g', _⟩ := seg
      obtain rfl := blocks
      exact since_blocks
    have before : InOrder (t.Suspended m ρ) (t.after p pt seg).since (ρ.array t.sys.globals m) :=
      listed.mono fun q suspended => ⟨suspended, since_after (awake here suspended)⟩
    refine (before.push absent fun r member => ?_).mono fun q suspended =>
      ⟨(suspended_after here suspended).imp And.left And.left, rfl⟩
    have other : r ≠ p := by
      rintro rfl
      exact absent member
    rw [since, since_after other]
    exact Nat.lt_succ_of_le (past.since r)
  | @pops pid rest k first wakes =>
    have apart : ∀ w, seg.2 = .blocks w → ρ.waits m w = false := by
      rw [wakes]
      rintro _ ⟨⟩
    rw [first] at listed
    refine (listed.mono (fewer apart)).tail fun suspended => ?_
    obtain ⟨g', _⟩ := seg
    obtain rfl := wakes
    exact (Sys.blocked_unblocks suspended).2 rfl
  | empties loops past wakes =>
    exact .nil fun q suspended => nobody _ loops past q (fewer (fun w blocks => (wakes w blocks).elim) q suspended).1

theorem unblocking_self {k : Cont} (lives : ∀ f, seg.2 ≠ .faults f)
    (inside : (t.after p pt seg).sys.proc p = .unblocking k) : ∃ g' pid, seg = (g', .unblocks pid k) := by
  obtain ⟨g', outcome⟩ := seg
  cases outcome with
  | returns | blocks => simp [Sys.after, Sys.settle] at inside
  | unblocks pid k' =>
    rw [after_sys, Sys.unblocks_self] at inside
    cases inside
    exact ⟨g', pid, rfl⟩
  | faults f => exact absurd rfl (lives f)

theorem unblocking_other {r : Pid} {k : Cont} (other : r ≠ p)
    (inside : (t.after p pt seg).sys.proc r = .unblocking k) : t.sys.proc r = .unblocking k := by
  have kind : ((t.after p pt seg).sys.proc r).unblockingIn (fun k' => decide (k' = k)) = true := by
    rw [inside]
    simp
  rcases Sys.unblockingIn_after kind with before | ⟨same, _⟩
  · cases atR : t.sys.proc r <;> simp_all
  · exact absurd same other

theorem created_kept (handed : handsOut t.sys (t.after p pt seg).sys m = false) :
    (t.after p pt seg).created m = t.created m := by
  simp only [Timed.after, stamp]
  rw [Timed.after, stamp_sys] at handed
  simp [handed]

/-- An id that was handed out before a call began is not handed out now. -/
theorem created_before (past : t.Past) {q : Pid} (undisturbed : (t.after p pt seg).created m ≤ t.began q) :
    handsOut t.sys (t.after p pt seg).sys m = false ∧ t.created m ≤ t.began q := by
  have began := past.began q
  cases handed : handsOut t.sys (t.after p pt seg).sys m with
  | false => exact ⟨rfl, created_kept handed ▸ undisturbed⟩
  | true =>
    rw [Timed.after, stamp_sys] at handed
    simp only [Timed.after, stamp, handed, if_true] at undisturbed
    omega

theorem stays_inactive (lives : ∀ f, seg.2 ≠ .faults f) (handed : handsOut t.sys (t.after p pt seg).sys m = false)
    (inactive : (t.sys.globals.mailboxes m).isActive = false) : (seg.1.mailboxes m).isActive = false := by
  rw [handsOut, after_sys, Sys.after_globals lives, inactive] at handed
  simpa using handed

theorem began_after {q : Pid} (within : ∀ c, q = p → pt ≠ .start c) : (t.after p pt seg).began q = t.began q := by
  cases pt with
  | start c => exact Function.update_of_ne (fun same => within c same rfl) _ _
  | afterBlock | afterUnblock => rfl

theorem Covered.after (listed : t.Listed m ρ) (covered : ∀ ρ, t.Covered m ρ) (past : t.Past)
    (here : (t.sys.proc p).At pt) (path : Path t.sys.globals p pt seg) (lives : ∀ f, seg.2 ≠ .faults f)
    (nobody : ∀ i, pt.LoopsFrom ρ m i → (ρ.array t.sys.globals m).length ≤ i →
      ∀ q, ¬ t.Suspended m ρ q) : (t.after p pt seg).Covered m ρ := by
  intro r i atR undisturbed
  by_cases own : r = p
  · subst own
    obtain ⟨g', pid, rfl⟩ := unblocking_self lives atR
    obtain ⟨j, rfl, at_, recorded⟩ := path.loops
    obtain ⟨kept, loops⟩ := at_.at_loop
    have before : (∀ c, pt ≠ .start c) → t.created m ≤ t.began r := by
      intro within
      rw [began_after fun c _ => within c] at undisturbed
      exact (created_before past undisturbed).2
    have covers : ((∃ k, pt = .afterUnblock k) → (t.sys.globals.mailboxes m).isActive = false) ∧
        ∀ q, t.Suspended m ρ q → q ∈ (ρ.array t.sys.globals m).drop j := by
      cases loops with
      | begins => exact ⟨by rintro ⟨_, ⟨⟩⟩, listed.member⟩
      | within =>
        obtain ⟨inactive, left⟩ := covered ρ r j here.unblocking_eq (before (by rintro _ ⟨⟩))
        exact ⟨fun _ => inactive, left⟩
      | @follows own j =>
        obtain ⟨inactive, _⟩ := covered own r j here.unblocking_eq (before (by rintro _ ⟨⟩))
        exact ⟨fun _ => inactive, listed.member⟩
    refine ⟨?_, fun q suspended => ?_⟩
    · rcases at_.sameMail with ⟨_, _, same⟩ | ⟨⟨k, _, back⟩, same⟩
      · exact (same.active m).trans (by simp)
      · exact (same.active m).trans (covers.1 ⟨k, back⟩)
    · obtain ⟨before, other⟩ := Sys.blocked_unblocks suspended
      have later := Sys.mem_later recorded other (covers.2 q before)
      rwa [← kept] at later
  · rw [began_after fun c same => (own same).elim] at undisturbed
    obtain ⟨handed, created⟩ := created_before past undisturbed
    obtain ⟨inactive, left⟩ := covered ρ r i (unblocking_other own atR) created
    have globals : (t.after p pt seg).sys.globals = seg.1 := Sys.after_globals lives
    refine ⟨globals ▸ stays_inactive lives handed inactive, fun q suspended => ?_⟩
    have requeue := path.requeue lives (ρ := ρ) (m := m)
    rw [globals]
    generalize ρ.array seg.1 m = waiting' at requeue
    have before : (∀ w, seg.2 = .blocks w → ρ.waits m w = false) → t.Suspended m ρ q := by
      intro apart
      rcases suspended_after here suspended with before | ⟨_, w, blocks, waits⟩
      · exact before.1
      · rw [apart w blocks] at waits
        cases waits
    cases requeue with
    | keeps apart => exact left q (before apart)
    | joins _ _ active _ | pops _ _ active =>
      rw [inactive] at active
      cases active
    | empties loops beyond wakes =>
      exact absurd (before fun w blocks => (wakes w blocks).elim) (nobody _ loops beyond q)

/-- The processes suspended on `m` are on record, and a release under way has
them all still before it. -/
structure Recorded (m : MboxId) (t : Timed) : Prop where
  listed : ∀ ρ, t.Listed m ρ
  covered : ∀ ρ, t.Covered m ρ

theorem Recorded.after (recorded : t.Recorded m) (past : t.Past) (keeps : t.KeepsRecords m (pt.act p))
    (here : (t.sys.proc p).At pt) (path : Path t.sys.globals p pt seg) (ran : seg = pt.exec t.sys.globals p)
    (lives : ∀ f, seg.2 ≠ .faults f) : (t.after p pt seg).Recorded m := by
  have nobody : ∀ (ρ : Role) i, pt.LoopsFrom ρ m i → (ρ.array t.sys.globals m).length ≤ i →
      ∀ q, ¬ t.Suspended m ρ q :=
    fun ρ _ => nobody_left (recorded.listed ρ) (recorded.covered ρ) keeps here
  have room : ∀ (ρ : Role) w, seg.2 = .blocks w → ρ.waits m w = true →
      p ∉ ρ.array t.sys.globals m ∧ (ρ.array t.sys.globals m).length < ρ.limit := by
    intro ρ w blocks waits
    have kept := keeps.room ρ pt w ⟨p, rfl, here⟩ (by rw [Point.act_pid, ← ran, blocks]) waits
    rwa [Point.act_pid] at kept
  exact ⟨fun ρ => (recorded.listed ρ).after past here path lives (room ρ) (nobody ρ),
    fun ρ => Covered.after (recorded.listed ρ) recorded.covered past here path lives (nobody ρ)⟩

theorem Recorded.unmoved {a : Act} {s' : Sys} (recorded : t.Recorded m) (unmoved : t.Unmoved a s') :
    (t.stamp a s').Recorded m := by
  have suspended : ∀ ρ q, (t.stamp a s').Suspended m ρ q ↔ t.Suspended m ρ q := by
    intro ρ q
    rw [Suspended, Suspended, stamp_sys, unmoved.blocked]
  refine ⟨fun ρ => ?_, fun ρ r i atR undisturbed => ?_⟩
  · unfold Listed
    rw [unmoved.since, stamp_sys, unmoved.globals]
    exact (recorded.listed ρ).mono fun q still => ⟨(suspended ρ q).mp still, rfl⟩
  · have before := unmoved.inside r _ atR
    rw [unmoved.created, unmoved.began before] at undisturbed
    obtain ⟨inactive, left⟩ := recorded.covered ρ r i before undisturbed
    rw [stamp_sys, unmoved.globals]
    exact ⟨inactive, fun q still => left q ((suspended ρ q).mp still)⟩

theorem boot_array (ρ : Role) (m : MboxId) : ρ.array boot.sys.globals m = [] := by
  rw [boot, Sys.boot, phase2Init_eq]
  cases ρ <;> rfl

theorem boot_recorded (m : MboxId) : boot.Recorded m := by
  refine ⟨fun ρ => ?_, fun ρ => by rintro _ _ ⟨⟩⟩
  rw [Listed, boot_array]
  exact .nil fun q => by rintro ⟨⟩

theorem recorded_of_run (run : Transition.Run step (KeepsRecords m) boot t) : t.Recorded m := by
  have past : ∀ t, Transition.Run step (KeepsRecords m) boot t → t.Past := fun _ => past_of_run
  refine invariant run past (Recorded m) (boot_recorded m) ?_ ?_
  · intro t p pt seg past recorded keeps here path ran lives
    exact recorded.after past keeps here path ran lives
  · intro t a s' _ recorded unmoved
    exact recorded.unmoved unmoved

theorem Recorded.once (recorded : t.Recorded m) {q : Pid} (suspended : t.Suspended m ρ q) :
    (ρ.array t.sys.globals m).count q = 1 :=
  List.count_eq_one_of_mem (recorded.listed ρ).nodup ((recorded.listed ρ).member q suspended)

/-- While each that is suspended finds room and no array is emptied under it,
every waiter is on record once, and the records are in the order of suspension. -/
theorem waiters_recorded (run : Transition.Run step (KeepsRecords m) boot t) :
    (∀ q, t.sys.SuspendedSend m q → (t.sys.globals.blockedProducers m).count q = 1) ∧
      (∀ q, t.sys.SuspendedRecv m q → (t.sys.globals.blockedConsumers m).count q = 1) ∧
      ((t.sys.globals.blockedProducers m).Pairwise fun a b =>
        t.sys.SuspendedSend m a → t.sys.SuspendedSend m b → t.since a < t.since b) ∧
      ((t.sys.globals.blockedConsumers m).Pairwise fun a b =>
        t.sys.SuspendedRecv m a → t.sys.SuspendedRecv m b → t.since a < t.since b) := by
  have recorded := recorded_of_run run
  exact ⟨fun q suspended => recorded.once (ρ := .producer) suspended,
    fun q suspended => recorded.once (ρ := .consumer) suspended,
    (recorded.listed .producer).ordered, (recorded.listed .consumer).ordered⟩

/-- If this stretch of code suspends the process on `m`, the array has room for it. -/
def findsRoom (m : MboxId) (t : Timed) (p : Pid) (pt : Point) : Bool :=
  match (pt.exec t.sys.globals p).2 with
  | .blocks w => [Role.producer, .consumer].all fun ρ => !ρ.waits m w ||
      (decide (p ∉ ρ.array t.sys.globals m) && decide ((ρ.array t.sys.globals m).length < ρ.limit))
  | _ => true

theorem findsRoom_spec {w : Wait} (finds : t.findsRoom m p pt = true)
    (blocks : (pt.exec t.sys.globals p).2 = .blocks w) (waits : ρ.waits m w = true) :
    p ∉ ρ.array t.sys.globals m ∧ (ρ.array t.sys.globals m).length < ρ.limit := by
  rw [findsRoom, blocks] at finds
  have member : ρ ∈ [Role.producer, .consumer] := by cases ρ <;> simp
  have found := List.all_eq_true.mp finds ρ member
  simpa [waits] using found

/-- A test for `KeepsRecords` at a step that is none of a release. -/
def testKeepsRecords (m : MboxId) (t : Timed) : Act → Bool
  | .call p c => t.findsRoom m p (.start c)
  | .resume p => match t.sys.proc p with
    | .woken w => t.findsRoom m p (.afterBlock w)
    | _ => false
  | _ => true

theorem KeepsRecords.of_test {a : Act} (passes : t.testKeepsRecords m a = true) : t.KeepsRecords m a := by
  have runs : ∀ pt, t.sys.RunsFrom a pt → t.findsRoom m a.pid pt = true ∧ ∀ k, pt ≠ .afterUnblock k := by
    intro pt runs
    cases a with
    | call p c =>
      obtain rfl := runs.of_call
      exact ⟨passes, by rintro _ ⟨⟩⟩
    | resume p =>
      rcases runs.of_resume with ⟨w, atW, rfl⟩ | ⟨k, atK, rfl⟩
      · simp only [testKeepsRecords, atW] at passes
        exact ⟨passes, by rintro _ ⟨⟩⟩
      · simp [testKeepsRecords, atK] at passes
    | yield | sleep | rouse =>
      obtain ⟨_, same, _⟩ := runs
      cases pt <;> cases same
  refine ⟨fun ρ pt w point => findsRoom_spec (runs pt point).1, fun ρ i point => ?_⟩
  exact ((runs _ point).2 _ rfl).elim

/-- Two receivers wait. -/
def twoReceivers : List Act :=
  [.call 1 (.create 1 50 true), .call 1 (.recv 7 ⟨true, 50⟩), .call 2 (.recv 7 ⟨true, 50⟩)]

theorem waiters_recorded_run : ∃ t : Timed, t.sys.SuspendedRecv 7 1 ∧ t.sys.SuspendedRecv 7 2 ∧
    (t.sys.globals.blockedConsumers 7).count 1 = 1 ∧ (t.sys.globals.blockedConsumers 7).count 2 = 1 := by
  obtain ⟨t, run, holds⟩ := Transition.exists_run step boot twoReceivers (testKeepsRecords 7)
    (fun _ _ => KeepsRecords.of_test (m := 7))
    (fun t => (t.sys.proc 1).blockedIn (Wait.receivesFrom 7) && (t.sys.proc 2).blockedIn (Wait.receivesFrom 7))
    (by decide +kernel)
  simp only [Bool.and_eq_true] at holds
  obtain ⟨_, receivers, _⟩ := waiters_recorded run
  exact ⟨t, holds.1, holds.2, receivers 1 holds.1, receivers 2 holds.2⟩

/-- Eleven processes receive from an empty mailbox. -/
def elevenReceivers : List Act :=
  .call 1 (.create 5 50 true) :: (List.range 11).map fun i => .call (i + 1) (.recv 7 ⟨true, 50⟩)

/-- The eleventh is suspended, and in no array. -/
theorem waiter_unrecorded : ∃ t, Reaches elevenReceivers t ∧ t.sys.SuspendedRecv 7 11 ∧
    (t.sys.globals.blockedConsumers 7).count 11 = 0 := by
  obtain ⟨t, reaches, holds⟩ := exists_reaches elevenReceivers
    (fun t => (t.sys.proc 11).blockedIn (Wait.receivesFrom 7) && (t.sys.globals.blockedConsumers 7).count 11 = 0)
    (by decide +kernel)
  simp only [Bool.and_eq_true, decide_eq_true_eq] at holds
  exact ⟨t, reaches, holds⟩

end Timed

end UslossKernel
