import UslossKernel.Lifetime

namespace UslossKernel

/-- What a stretch of code outside `MboxRelease` does to the recorded pids,
and whom it wakes. -/
inductive Queueing (g : Globals) (p : Pid) (pt : Point) : Segment → Prop
  | returns {g' r} : g'.blockedProducers = g.blockedProducers → g'.blockedConsumers = g.blockedConsumers →
      Queueing g p pt (g', .returns r)
  | blocksSender {g' w waiting} : w.sendsTo w.mbox = true →
      g'.blockedProducers = Function.update g.blockedProducers w.mbox waiting →
      g'.blockedConsumers = g.blockedConsumers →
      waiting = g.blockedProducers w.mbox ∨ waiting = g.blockedProducers w.mbox ++ [p] →
      Queueing g p pt (g', .blocks w)
  | blocksReceiver {g' w waiting} : w.receivesFrom w.mbox = true →
      g'.blockedProducers = g.blockedProducers →
      g'.blockedConsumers = Function.update g.blockedConsumers w.mbox waiting →
      waiting = g.blockedConsumers w.mbox ∨ waiting = g.blockedConsumers w.mbox ++ [p] →
      Queueing g p pt (g', .blocks w)
  | followsPointer {m : MboxId} {msg_ptr msg_size entry} : pt = .start (.send (m : Nat) msg_ptr msg_size) →
      (g.mailboxes m).isActive = true → g.accepts m msg_ptr msg_size = true → (g.mailboxes m).numSlots = 0 →
      (g.mailboxes m).consumers = some entry →
      Queueing g p pt (g, .unblocks (g.shadowProcesses entry) (.sendMatched m))
  | popsProducer {g' m pid rest k} : g.blockedProducers m = pid :: rest →
      g'.blockedProducers = Function.update g.blockedProducers m rest →
      g'.blockedConsumers = g.blockedConsumers → k.mbox = m → Queueing g p pt (g', .unblocks pid k)
  | popsConsumer {g' m pid rest k} : g.blockedConsumers m = pid :: rest →
      g'.blockedProducers = g.blockedProducers →
      g'.blockedConsumers = Function.update g.blockedConsumers m rest → k.mbox = m →
      k = .sendStored m ∨ k = .condSendStored m →
      Queueing g p pt (g', .unblocks pid k)

theorem Globals.pushWaiter_cases (limit : Nat) (waiting : List Pid) (pid : Pid) :
    pushWaiter limit waiting pid = waiting ∨ pushWaiter limit waiting pid = waiting ++ [pid] := by
  unfold pushWaiter
  split
  · exact .inr rfl
  · exact .inl rfl

theorem recordSender_lists (g : Globals) (p : Pid) (m : MboxId) :
    ∃ waiting, (recordSender g p m).blockedProducers = Function.update g.blockedProducers m waiting ∧
      (recordSender g p m).blockedConsumers = g.blockedConsumers ∧
      (waiting = g.blockedProducers m ∨ waiting = g.blockedProducers m ++ [p]) := by
  unfold recordSender
  split
  · exact ⟨_, (Function.update_eq_self m _).symm, rfl, .inl rfl⟩
  · exact ⟨_, rfl, rfl, Globals.pushWaiter_cases ..⟩

theorem Path.queueing {g : Globals} {p : Pid} {pt : Point} {seg : Segment} (path : Path g p pt seg)
    (lives : ∀ f, seg.2 ≠ .faults f) (unreleased : ∀ g₀ m stage, ¬ ReleaseAt g pt g₀ m stage) :
    Queueing g p pt seg := by
  have taken : ∀ {g₀ m buffer k}, TakePoint g pt g₀ m buffer k →
      g₀.blockedProducers = g.blockedProducers ∧ g₀.blockedConsumers = g.blockedConsumers := by
    intro g₀ m buffer k at_
    cases at_ <;> exact ⟨rfl, rfl⟩
  cases path with
  | refused | created | createFails | stores | resumedEmpty | resumedInactive | resumedZero
  | sendMatchedReturns | sendStoredReturns | recvTakenReturns => exact .returns rfl rfl
  | takeRejects at_ | takes at_ =>
    obtain ⟨producers, consumers⟩ := taken at_
    exact .returns producers consumers
  | storeFaults | takeFaults => exact absurd rfl (lives _)
  | sendMatches active accepted zero pointed => exact .followsPointer rfl active accepted zero pointed
  | sendZeroBlocks =>
    exact .blocksSender (by simp [Wait.sendsTo, Wait.mbox]) rfl rfl (Globals.pushWaiter_cases ..)
  | sendFullBlocks | resumedFullBlocks =>
    obtain ⟨waiting, producers, consumers, pushed⟩ := recordSender_lists g p _
    exact .blocksSender (by simp [Wait.sendsTo, Wait.mbox]) producers consumers pushed
  | recvZeroBlocks | recvEmptyBlocks =>
    exact .blocksReceiver (by simp [Wait.receivesFrom, Wait.mbox]) rfl rfl (Globals.pushWaiter_cases ..)
  | storesAndWakes at_ _ _ recorded =>
    refine .popsConsumer recorded rfl rfl ?_ ?_ <;> cases at_ <;> simp [Cont.mbox]
  | recvMatches _ _ _ recorded => exact .popsProducer recorded rfl rfl rfl
  | takesAndWakes at_ _ _ recorded =>
    obtain ⟨producers, consumers⟩ := taken at_
    refine .popsProducer recorded ?_ consumers ?_
    · simp only [Globals.setBlockedProducers_blockedProducers, Globals.freeSlot_blockedProducers,
        Globals.dequeueSlot_blockedProducers, producers]
    · cases at_ <;> rfl
  | releaseWakesProducer at_ | releaseWakesConsumer at_ | releaseWakesPointer at_ | releaseReturns at_ =>
    exact (unreleased _ _ _ at_).elim

namespace Sys

/-- The pids in the list are those of different suspended processes. -/
structure Recorded (s : Sys) (kind : Wait → Bool) (waiting : List Pid) : Prop where
  nodup : waiting.Nodup
  suspended : ∀ q ∈ waiting, (s.proc q).blockedIn kind = true

variable {s : Sys} {p : Pid} {pt : Point} {kind : Wait → Bool} {waiting : List Pid}

theorem Recorded.not_mem (recorded : s.Recorded kind waiting) (here : (s.proc p).At pt) : p ∉ waiting := by
  intro member
  have suspended := recorded.suspended p member
  rw [here.blockedIn] at suspended
  cases suspended

/-- A suspended process stays so until its pid is named. -/
theorem blocked_stays {seg : Segment} {q : Pid} (here : (s.proc p).At pt)
    (suspended : (s.proc q).blockedIn kind = true) (unnamed : ∀ k, seg.2 ≠ .unblocks q k) :
    ((s.after p pt seg).proc q).blockedIn kind = true := by
  have other : q ≠ p := by
    rintro rfl
    rw [here.blockedIn] at suspended
    cases suspended
  obtain ⟨g, outcome⟩ := seg
  cases outcome with
  | returns | blocks => simpa [after, settle, Function.update_of_ne other] using suspended
  | unblocks pid k =>
    have away : q ≠ pid := fun same => unnamed k (by rw [same])
    simpa [after, settle, Function.update_of_ne other, Function.update_of_ne away] using suspended
  | faults => simpa [after, settle] using suspended

theorem Recorded.after {seg : Segment} (recorded : s.Recorded kind waiting) (here : (s.proc p).At pt)
    (unnamed : ∀ pid k, seg.2 = .unblocks pid k → pid ∉ waiting) : (s.after p pt seg).Recorded kind waiting where
  nodup := recorded.nodup
  suspended q member :=
    blocked_stays here (recorded.suspended q member) fun k names => unnamed q k names member

/-- The process that blocks can be added. -/
theorem Recorded.push {g : Globals} {w : Wait} {longer : List Pid} (recorded : s.Recorded kind waiting)
    (here : (s.proc p).At pt) (blocks : kind w = true) (pushed : longer = waiting ∨ longer = waiting ++ [p]) :
    (s.after p pt (g, .blocks w)).Recorded kind longer := by
  have still : (s.after p pt (g, .blocks w)).Recorded kind waiting := recorded.after here (by rintro _ _ ⟨⟩)
  rcases pushed with rfl | rfl
  · exact still
  · refine ⟨?_, fun q member => ?_⟩
    · rw [List.nodup_append]
      refine ⟨recorded.nodup, List.nodup_singleton p, ?_⟩
      rintro q member _ last rfl
      rw [List.mem_singleton.mp last] at member
      exact recorded.not_mem here member
    · rcases List.mem_append.mp member with earlier | last
      · exact still.suspended q earlier
      · obtain rfl := List.mem_singleton.mp last
        simpa [Sys.after, settle] using blocks

/-- The first process can be woken. -/
theorem Recorded.pop {g : Globals} {pid : Pid} {rest : List Pid} {k : Cont}
    (recorded : s.Recorded kind (pid :: rest)) (here : (s.proc p).At pt) :
    (s.after p pt (g, .unblocks pid k)).Recorded kind rest := by
  obtain ⟨absent, nodup⟩ := List.nodup_cons.mp recorded.nodup
  have shorter : s.Recorded kind rest :=
    ⟨nodup, fun q member => recorded.suspended q (List.mem_cons_of_mem _ member)⟩
  refine shorter.after here ?_
  rintro _ _ ⟨⟩
  exact absent

theorem Recorded.congr {s' : Sys} (recorded : s.Recorded kind waiting) (same : s'.proc = s.proc) :
    s'.Recorded kind waiting :=
  ⟨recorded.nodup, fun q member => by rw [same]; exact recorded.suspended q member⟩

theorem Recorded.idle {s' : Sys} {q : Pid} {proc : Proc} (recorded : s.Recorded kind waiting)
    (moved : s'.proc = Function.update s.proc q proc) (was : (s.proc q).idle = true) :
    s'.Recorded kind waiting := by
  refine ⟨recorded.nodup, fun r member => ?_⟩
  have suspended := recorded.suspended r member
  have other : r ≠ q := by
    rintro rfl
    obtain ⟨w, atW, _⟩ := Proc.blockedIn_iff.mp suspended
    rw [atW] at was
    cases was
  rwa [moved, Function.update_of_ne other]

/-- A process suspended in another way is not in the list. -/
theorem Recorded.disjoint {other : Wait → Bool} {q : Pid} (recorded : s.Recorded kind waiting)
    (suspended : (s.proc q).blockedIn other = true) (apart : ∀ w, other w = true → kind w = false) :
    q ∉ waiting := by
  intro member
  have isKind := recorded.suspended q member
  rw [Proc.blockedIn_apart suspended apart] at isKind
  cases isKind

end Sys

end UslossKernel
