import UslossKernel.MailQueues
import UslossKernel.ReleaseSteps
import UslossKernel.Library.BoundedQueue

namespace UslossKernel

/-- A message as a receiver with room for it gets it. -/
def Message.whole (msg : Message) : Result :=
  ⟨msg.length, msg⟩

/-- What the receiver gets of the message taken out for it. -/
def Delivery.Hands (delivery : Delivery) (item : Result) : Prop :=
  delivery.result = if delivery.maxSize < item.ret then ⟨-1, []⟩ else item

theorem Delivery.hands_of_le {maxSize : Int} {item : Result} (fits : item.ret ≤ maxSize) :
    Delivery.Hands ⟨maxSize, item⟩ item :=
  (if_neg (not_lt.mpr fits)).symm

/-- What the mailbox is for: a queue of messages, there while it is active. -/
def Globals.box (g : Globals) (m : MboxId) : Option (BoundedQueue Result) :=
  if (g.mailboxes m).isActive then some ⟨(g.mailboxes m).numSlots, g.queued m⟩ else none

/-- The code running on from this point does the act on the queue of `m`, for
the call that it belongs to, and ends as it does because of the act. -/
inductive Performs (g : Globals) (m : MboxId) (pt : Point) : Outcome → BoundedQueue.Act Result → Prop
  | creates {numSlots slotSize : Int} : pt = .start (.create numSlots slotSize true) →
      Performs g m pt (.returns ⟨(m : Nat), []⟩) (.make numSlots.toNat)
  | sends {msg k} : StorePoint g pt m msg k → Performs g m pt (.returns ⟨0, []⟩) (.put msg.whole)
  | sendsAndWakes {msg k pid} : StorePoint g pt m msg k → Performs g m pt (.unblocks pid k) (.put msg.whole)
  | rejects {g₀ buffer k} : TakePoint g pt g₀ m buffer k → buffer.msg_max_size < (g.received m).ret →
      Performs g m pt (.returns ⟨-1, []⟩) (.take (g.received m))
  | receives {g₀ buffer k} : TakePoint g pt g₀ m buffer k → (g.received m).ret ≤ buffer.msg_max_size →
      Performs g m pt (.returns (g.received m)) (.take (g.received m))
  | receivesAndWakes {g₀ buffer k pid} : TakePoint g pt g₀ m buffer k →
      (g.received m).ret ≤ buffer.msg_max_size →
      Performs g m pt (.unblocks pid (k (g.received m))) (.take (g.received m))
  | releases {outcome} : pt = .start (.release (m : Nat)) → Performs g m pt outcome (.close (g.queued m))

namespace Globals

/-- Nothing is done on the queue of `m`. -/
structure SameQueue (m : MboxId) (g g' : Globals) : Prop where
  box : g'.box m = g.box m
  stored : g'.stored m = g.stored m
  taken : g'.taken m = g.taken m

/-- The act is done on the queue of `m`, and goes into the logs. -/
structure Acted (m : MboxId) (act : BoundedQueue.Act Result) (g g' : Globals) : Prop where
  does : BoundedQueue.Does act (g.box m) (g'.box m)
  stored : (g'.stored m).map Message.whole = (g.stored m).map Message.whole ++ act.puts
  taken : ∃ handed, g'.taken m = g.taken m ++ handed ∧ List.Forall₂ Delivery.Hands handed act.takes

variable {g g' g₁ g₂ : Globals} {m n : MboxId} {act : BoundedQueue.Act Result}

theorem box_of_active (active : (g.mailboxes m).isActive = true) :
    g.box m = some ⟨(g.mailboxes m).numSlots, g.queued m⟩ :=
  if_pos active

theorem box_of_inactive (inactive : (g.mailboxes m).isActive = false) : g.box m = none :=
  if_neg (by simp [inactive])

theorem SameMail.sameQueue (same : g.SameMail g') : SameQueue m g g' where
  box := by
    unfold box
    rw [same.active, same.numSlots, same.queued_eq]
  stored := by rw [same.stored]
  taken := by rw [same.taken]

theorem SameBox.sameQueue (same : g.SameBox m g') (stored : g'.stored m = g.stored m)
    (taken : g'.taken m = g.taken m) : SameQueue m g g' where
  box := by
    unfold box
    rw [same.mbox, same.queued]
  stored := stored
  taken := taken

theorem SameQueue.trans (first : SameQueue m g g₁) (second : SameQueue m g₁ g₂) : SameQueue m g g₂ where
  box := second.box.trans first.box
  stored := second.stored.trans first.stored
  taken := second.taken.trans first.taken

theorem Acted.after (acted : Acted m act g₁ g') (before : SameQueue m g g₁) : Acted m act g g' where
  does := before.box ▸ acted.does
  stored := before.stored ▸ acted.stored
  taken := before.taken ▸ acted.taken

theorem Acted.before (acted : Acted m act g g₁) (after : SameQueue m g₁ g') : Acted m act g g' where
  does := after.box ▸ acted.does
  stored := after.stored ▸ acted.stored
  taken := after.taken ▸ acted.taken

/-- Nothing is put in or taken out. -/
theorem Acted.quiet (does : BoundedQueue.Does act (g.box m) (g'.box m)) (puts : act.puts = [])
    (takes : act.takes = []) (stored : g'.stored m = g.stored m) (taken : g'.taken m = g.taken m) :
    Acted m act g g' where
  does := does
  stored := by rw [stored, puts, List.append_nil]
  taken := ⟨[], by rw [taken, List.append_nil], by rw [takes]; exact .nil⟩

theorem createMailbox_acted (inactive : (g.mailboxes m).isActive = false) (numSlots slotSize : Nat) :
    Acted m (.make numSlots) g (g.createMailbox m numSlots slotSize) := by
  have empty : (g.createMailbox m numSlots slotSize).queued m = [] := by
    unfold queued
    rw [createMailbox_mailboxSlotQueues, Function.update_self, SlotQueue.window_of_count rfl]
    rfl
  have made : (g.createMailbox m numSlots slotSize).box m = some ⟨numSlots, []⟩ := by
    rw [box_of_active (by simp), empty]
    simp
  refine .quiet ?_ rfl rfl rfl rfl
  rw [box_of_inactive inactive, made]
  exact .make numSlots

theorem closed_acted (active : (g.mailboxes m).isActive = true) (inactive : (g'.mailboxes m).isActive = false)
    (stored : g'.stored m = g.stored m) (taken : g'.taken m = g.taken m) :
    Acted m (.close (g.queued m)) g g' := by
  refine .quiet ?_ rfl rfl stored taken
  rw [box_of_active active, box_of_inactive inactive]
  exact .close

theorem storeMessage_acted (sound : g.Sound) (active : (g.mailboxes m).isActive = true) (storable : Storable g m)
    (room : (g.mailboxSlotQueues m).count < (g.mailboxSlotQueues m).capacity) (msg : Message) :
    Acted m (.put msg.whole) g (g.storeMessage m msg) where
  does := by
    have after : (g.storeMessage m msg).box m = some ⟨(g.mailboxes m).numSlots, g.queued m ++ [msg.whole]⟩ := by
      rw [box_of_active (g := g.storeMessage m msg) active, queued_storeMessage sound storable room]
      rfl
    rw [box_of_active active, after]
    refine .put _ ?_
    rw [queued_length sound active, ← sound.capacity m active]
    exact room
  stored := by
    rw [storeMessage_stored, Function.update_self, List.map_append]
    rfl
  taken := ⟨[], (List.append_nil _).symm, .nil⟩

theorem dequeueSlot_acted (sound : g.Sound) (active : (g.mailboxes m).isActive = true)
    (allocated : (g.mailboxSlotQueues m).queue ≠ none) (occupied : 0 < (g.mailboxSlotQueues m).count)
    {delivery : Delivery} (hands : delivery.Hands (g.received m)) :
    Acted m (.take (g.received m)) g (g.dequeueSlot m delivery) where
  does := by
    rw [box_of_active active, box_of_active (g := g.dequeueSlot m delivery) active,
      queued_dequeueSlot sound allocated occupied delivery]
    exact .take
  stored := (List.append_nil _).symm
  taken := by
    refine ⟨[delivery], ?_, .cons hands .nil⟩
    rw [dequeueSlot_taken, Function.update_self]

end Globals

open Globals

variable {g g₀ g' : Globals} {p : Pid} {pt : Point} {m n : MboxId} {seg : Segment} {outcome : Outcome}

/-- What the code from this point does on the queue of `m`. -/
def OneAct (g : Globals) (m : MboxId) (pt : Point) (outcome : Outcome) (g' : Globals) : Prop :=
  g.SameQueue m g' ∨ ∃ act, Performs g m pt outcome act ∧ g.Acted m act g'

theorem OneAct.before {g₁ : Globals} (one : OneAct g m pt outcome g₁) (after : g₁.SameQueue m g') :
    OneAct g m pt outcome g' :=
  one.imp (fun same => same.trans after) fun ⟨act, performs, acted⟩ => ⟨act, performs, acted.before after⟩

theorem StorePoint.oneAct {msg : Message} {k : Cont} (at_ : StorePoint g pt n msg k) (sound : g.Sound)
    (storable : Storable g n) (performs : Performs g n pt outcome (.put msg.whole)) :
    OneAct g m pt outcome (g.storeMessage n msg) := by
  by_cases here : m = n
  · subst here
    exact .inr ⟨_, performs, storeMessage_acted sound at_.active storable (at_.room sound storable) msg⟩
  · exact .inl ((storeMessage_sameBox sound storable here msg).sameQueue (by simp [here]) rfl)

theorem TakePoint.oneAct {buffer : Buffer} {k : Result → Cont} (at_ : TakePoint g pt g₀ n buffer k) (sound : g.Sound)
    (allocated : (g.mailboxSlotQueues n).queue ≠ none) {delivery : Delivery} (hands : delivery.Hands (g.received n))
    (performs : Performs g n pt outcome (.take (g.received n))) :
    OneAct g m pt outcome (g₀.dequeueSlot n delivery) := by
  have same : (g.dequeueSlot n delivery).SameMail (g₀.dequeueSlot n delivery) := at_.sameMail.dequeueSlot n delivery
  refine OneAct.before ?_ same.sameQueue
  by_cases here : m = n
  · subst here
    exact .inr ⟨_, performs, dequeueSlot_acted sound at_.active allocated at_.occupied hands⟩
  · exact .inl ((dequeueSlot_sameBox here _).sameQueue rfl (by simp [here]))

/-- Whatever follows in the release, the queue is closed where it begins. -/
theorem ReleaseAt.oneAct {stage : Stage} (at_ : ReleaseAt g pt g₀ n stage)
    (safe : ∀ k, pt = .afterUnblock k → k.releases m = true → (g.mailboxes m).isActive = false)
    (rest : g' = g₀ ∨ g' = g₀.freeQueue n) : OneAct g m pt outcome g' := by
  have logs : g'.stored = g₀.stored ∧ g'.taken = g₀.taken ∧ g'.mailboxes = g₀.mailboxes := by
    rcases rest with rfl | rfl <;> exact ⟨rfl, rfl, rfl⟩
  obtain ⟨stored, taken, mailboxes⟩ := logs
  by_cases here : m = n
  · subst here
    rcases at_.sameMail with ⟨begins, active, same⟩ | ⟨⟨k, releases, back⟩, same⟩
    · have closed : (g'.mailboxes m).isActive = false := by
        rw [mailboxes, same.active]
        simp
      refine .inr ⟨_, .releases begins, closed_acted active closed ?_ ?_⟩
      · rw [stored, same.stored]
        rfl
      · rw [taken, same.taken]
        rfl
    · have before := safe k back releases
      have closed : (g'.mailboxes m).isActive = false := by rw [mailboxes, same.active, before]
      refine .inl ⟨?_, ?_, ?_⟩
      · rw [box_of_inactive before, box_of_inactive closed]
      · rw [stored, same.stored]
      · rw [taken, same.taken]
  · have same : g.SameQueue m g₀ := by
      refine (at_.sameBox here).sameQueue ?_ ?_ <;>
        rcases at_.sameMail with ⟨_, _, same⟩ | ⟨_, same⟩
      · rw [same.stored]
        rfl
      · rw [same.stored]
      · rw [same.taken]
        rfl
      · rw [same.taken]
    rcases rest with rfl | rfl
    · exact .inl same
    · exact .inl (same.trans ((freeQueue_sameBox here).sameQueue rfl rfl))

/-- A stretch of code does at most one act on the queue of a mailbox. -/
theorem Path.oneAct (path : Path g p pt seg) (sound : g.Sound) (lives : ∀ f, seg.2 ≠ .faults f)
    (safe : ∀ k, pt = .afterUnblock k → k.releases m = true → (g.mailboxes m).isActive = false) :
    OneAct g m pt seg.2 seg.1 := by
  cases path with
  | refused | sendMatches | resumedInactive | resumedZero | sendStoredReturns | recvTakenReturns =>
    exact .inl (SameMail.refl g).sameQueue
  | @created n numSlots slotSize found =>
    by_cases here : m = n
    · subst here
      exact .inr ⟨_, .creates rfl, createMailbox_acted (firstInactive_spec found) _ _⟩
    · exact .inl ((createMailbox_sameBox here _ _).sameQueue rfl rfl)
  | @createFails n _ _ found =>
    by_cases here : m = n
    · subst here
      refine .inl ⟨?_, rfl, rfl⟩
      rw [box_of_inactive (firstInactive_spec found)]
      exact box_of_inactive (by simp [returnCode])
    · exact .inl ((loseMailbox_sameBox here _ _).sameQueue rfl rfl)
  | sendZeroBlocks => exact .inl (awaitReceiver_sameMail ..).sameQueue
  | sendFullBlocks | resumedFullBlocks => exact .inl (recordSender_sameMail ..).sameQueue
  | storeFaults | takeFaults => exact absurd rfl (lives _)
  | stores at_ storable => exact at_.oneAct sound storable (.sends at_)
  | storesAndWakes at_ storable =>
    exact (at_.oneAct sound storable (.sendsAndWakes at_)).before (setBlockedConsumers_sameMail ..).sameQueue
  | recvMatches => exact .inl (setBlockedProducers_sameMail ..).sameQueue
  | recvZeroBlocks | recvEmptyBlocks => exact .inl (awaitMessage_sameMail ..).sameQueue
  | resumedEmpty | sendMatchedReturns => exact .inl (clearConsumers_sameMail ..).sameQueue
  | takeRejects at_ allocated small =>
    exact at_.oneAct sound allocated (if_pos small).symm (.rejects at_ small)
  | takes at_ allocated fits =>
    exact (at_.oneAct sound allocated (Delivery.hands_of_le fits) (.receives at_ fits)).before
      ((freeSlot_sameBox _).sameQueue rfl rfl)
  | takesAndWakes at_ allocated fits =>
    exact ((at_.oneAct sound allocated (Delivery.hands_of_le fits) (.receivesAndWakes at_ fits)).before
      ((freeSlot_sameBox _).sameQueue rfl rfl)).before (setBlockedProducers_sameMail ..).sameQueue
  | releaseWakesProducer at_ | releaseWakesConsumer at_ | releaseWakesPointer at_ => exact at_.oneAct safe (.inl rfl)
  | releaseReturns at_ => exact at_.oneAct safe (.inr rfl)

/-- These acts have brought the queue of `m` to what it is, and the logs of `m` are theirs. -/
structure Globals.Realizes (g : Globals) (m : MboxId) (acts : List (BoundedQueue.Act Result)) : Prop where
  run : BoundedQueue.Run (phase2Init.box m) acts (g.box m)
  stored : BoundedQueue.puts acts = (g.stored m).map Message.whole
  taken : List.Forall₂ Delivery.Hands (g.taken m) (BoundedQueue.takes acts)

theorem Globals.Realizes.same {acts : List (BoundedQueue.Act Result)} (realizes : g.Realizes m acts)
    (same : g.SameQueue m g') : g'.Realizes m acts where
  run := same.box ▸ realizes.run
  stored := same.stored ▸ realizes.stored
  taken := same.taken ▸ realizes.taken

theorem Globals.Realizes.oneAct {acts : List (BoundedQueue.Act Result)} (realizes : g.Realizes m acts)
    (one : OneAct g m pt outcome g') : ∃ acts, g'.Realizes m acts := by
  rcases one with same | ⟨act, _, does, stored, handed, taken, hands⟩
  · exact ⟨acts, realizes.same same⟩
  · refine ⟨act :: acts, realizes.run.step does, ?_, ?_⟩
    · rw [BoundedQueue.puts_cons, realizes.stored, stored]
    · rw [BoundedQueue.takes_cons, taken]
      exact List.rel_append realizes.taken hands

namespace Sys

/-- A release of `m` that runs on finds that the id has not been given out again. -/
def NotReused (m : MboxId) (s : Sys) (a : Act) : Prop :=
  ∀ k, s.RunsFrom a (.afterUnblock k) → k.releases m = true → (s.globals.mailboxes m).isActive = false

theorem step_oneAct {s s' : Sys} {a : Act} (sound : s.globals.Sound) (safe : NotReused m s a)
    (moves : s.step a = some s') : s.globals.SameQueue m s'.globals ∨
      ∃ pt, s.RunsFrom a pt ∧ OneAct s.globals m pt (pt.exec s.globals a.pid).2 s'.globals := by
  cases step_move moves with
  | idle => exact .inl (SameMail.refl _).sameQueue
  | @segment p pt _ here =>
    have path := Point.exec_path s.globals p pt
    have runs : s.RunsFrom (pt.act p) pt := ⟨p, rfl, here⟩
    have same : (pt.act p).pid = p := by cases pt <;> rfl
    unfold run
    generalize ran : pt.exec s.globals p = seg at path
    by_cases lives : ∀ f, seg.2 ≠ .faults f
    · rw [after_globals lives]
      refine .inr ⟨pt, runs, ?_⟩
      rw [same, ran]
      exact path.oneAct sound lives fun k back releases => safe k (back ▸ runs) releases
    · push Not at lives
      obtain ⟨f, faults⟩ := lives
      rw [after, faults, settle, enter_globals]
      exact .inl (SameMail.refl _).sameQueue

theorem boot_realizes (m : MboxId) : boot.globals.Realizes m [] := by
  refine ⟨.start, ?_, ?_⟩ <;> rw [boot, phase2Init_eq]
  · rfl
  · exact .nil

theorem boot_contents (m : MboxId) : BoundedQueue.contents (boot.globals.box m) = [] := by
  have empty : boot.globals.queued m = [] := by
    unfold queued
    rw [boot, phase2Init_window]
    rfl
  unfold box
  split <;> simp [BoundedQueue.contents, empty]

theorem boot_fits {q : BoundedQueue Result} (there : boot.globals.box m = some q) : q.items.length ≤ q.room := by
  have empty := boot_contents m
  rw [there] at empty
  rw [show q.items = [] from empty]
  exact Nat.zero_le _

/-- One message is received, one lost with the mailbox, one is in the next mailbox. -/
def receivedLostKept : List Act :=
  [.call 1 (.create 2 50 true), .call 1 (.send 7 (some [65, 66]) 2), .call 1 (.condSend 7 (some [67]) 1),
    .call 1 (.recv 7 ⟨true, 50⟩), .call 1 (.release 7), .call 1 (.create 1 50 true),
    .call 1 (.send 7 (some [68]) 1)]

/-- A test for `NotReused`, of actions that are calls. -/
def testNotReused (_ : Sys) : Act → Bool
  | .call .. => true
  | _ => false

theorem NotReused.of_test {m : MboxId} {s : Sys} {a : Act} (admitted : s.testNotReused a = true) :
    NotReused m s a := by
  cases a with
  | call =>
    intro k runs
    cases runs.of_call
  | resume | yield | sleep | rouse => cases admitted

/-- The queue of a mailbox is changed by calls on that mailbox alone, each time
in one step of the call, and what the call returns is what that step has done. -/
theorem calls_act_on_queue {s s' : Sys} {a : Act} (run : Transition.Run Sys.step (NotReused m) boot s)
    (safe : NotReused m s a) (moves : s.step a = some s') : s'.globals.box m = s.globals.box m ∨
      ∃ act pt, BoundedQueue.Does act (s.globals.box m) (s'.globals.box m) ∧ s.RunsFrom a pt ∧
        Performs s.globals m pt (pt.exec s.globals a.pid).2 act := by
  rcases step_oneAct (sound_of_run run) safe moves with same | ⟨pt, runs, same | ⟨act, performs, acted⟩⟩
  · exact .inl same.box
  · exact .inl same.box
  · exact .inr ⟨act, pt, acted.does, runs, performs⟩

theorem calls_act_on_queue_run : ∃ s s', Transition.Run Sys.step (NotReused 7) boot s ∧
    s.step (.call 1 (.recv 7 ⟨true, 50⟩)) = some s' ∧ s.globals.box 7 = some ⟨1, [⟨1, [68]⟩]⟩ ∧
    s'.globals.box 7 = some ⟨1, []⟩ ∧ ∃ act pt, BoundedQueue.Does act (s.globals.box 7) (s'.globals.box 7) ∧
      s.RunsFrom (.call 1 (.recv 7 ⟨true, 50⟩)) pt ∧ Performs s.globals 7 pt (pt.exec s.globals 1).2 act := by
  obtain ⟨s, reaches, done⟩ := exists_reaches receivedLostKept
    (fun s => (s.globals.mailboxes 7).isActive && (s.globals.mailboxes 7).numSlots = 1 &&
      s.globals.queued 7 = [⟨1, [68]⟩] && (s.step (.call 1 (.recv 7 ⟨true, 50⟩))).any fun s' =>
        (s'.globals.mailboxes 7).isActive && (s'.globals.mailboxes 7).numSlots = 1 && s'.globals.queued 7 = [])
    (by decide +kernel)
  have run : Transition.Run Sys.step (NotReused 7) boot s :=
    reaches.run testNotReused (fun _ _ _ => .of_test) (by decide +kernel)
  simp only [Bool.and_eq_true, decide_eq_true_eq, Option.any_eq_true] at done
  obtain ⟨⟨⟨active, room⟩, queue⟩, s', moves, ⟨active', room'⟩, queue'⟩ := done
  have before : s.globals.box 7 = some ⟨1, [⟨1, [68]⟩]⟩ := by rw [box_of_active active, room, queue]
  have after : s'.globals.box 7 = some ⟨1, []⟩ := by rw [box_of_active active', room', queue']
  refine ⟨s, s', run, moves, before, after, ?_⟩
  refine (calls_act_on_queue run (.of_test rfl) moves).resolve_left fun same => ?_
  rw [before, after] at same
  cases same

/-- Through all its creations and releases a mailbox is a queue with room for
`numSlots` messages: every receive takes out the oldest, a release loses what
is left, and nothing is ever left over for the next mailbox with the id. -/
theorem mailbox_refines_queue {m : MboxId} {s : Sys} (run : Transition.Run Sys.step (NotReused m) boot s) :
    ∃ acts, s.globals.Realizes m acts ∧
      (s.globals.stored m).map Message.whole = BoundedQueue.outs acts ++ BoundedQueue.contents (s.globals.box m) ∧
      (BoundedQueue.takes acts).Sublist (BoundedQueue.outs acts) ∧
      ∀ q, s.globals.box m = some q → q.items.length ≤ q.room := by
  have realized : ∃ acts, s.globals.Realizes m acts := by
    refine run.invariant_above (fun _ => sound_of_run) (fun s => ∃ acts, s.globals.Realizes m acts)
      ⟨[], boot_realizes m⟩ ?_
    rintro before a after sound ⟨acts, realizes⟩ safe moves
    rcases step_oneAct sound safe moves with same | ⟨_, _, one⟩
    · exact ⟨acts, realizes.same same⟩
    · exact realizes.oneAct one
  obtain ⟨acts, realizes⟩ := realized
  refine ⟨acts, realizes, ?_, BoundedQueue.takes_sublist acts, fun q there => ?_⟩
  · rw [← realizes.stored]
    exact realizes.run.fifo (boot_contents m)
  · exact realizes.run.bounded (fun _ => boot_fits) there

theorem mailbox_refines_queue_run : ∃ s acts, Transition.Run Sys.step (NotReused 7) boot s ∧
    s.globals.stored 7 = [[65, 66], [67], [68]] ∧ (s.globals.taken 7).map Delivery.result = [⟨2, [65, 66]⟩] ∧
    s.globals.box 7 = some ⟨1, [⟨1, [68]⟩]⟩ ∧ s.globals.Realizes 7 acts ∧
    BoundedQueue.outs acts = [⟨2, [65, 66]⟩, ⟨1, [67]⟩] := by
  obtain ⟨s, reaches, done⟩ := exists_reaches receivedLostKept
    (fun s => (s.globals.mailboxes 7).isActive && (s.globals.mailboxes 7).numSlots = 1 &&
      s.globals.queued 7 = [⟨1, [68]⟩] && s.globals.stored 7 = [[65, 66], [67], [68]] &&
      (s.globals.taken 7).map Delivery.result = [⟨2, [65, 66]⟩]) (by decide +kernel)
  have run : Transition.Run Sys.step (NotReused 7) boot s :=
    reaches.run testNotReused (fun _ _ _ => .of_test) (by decide +kernel)
  simp only [Bool.and_eq_true, decide_eq_true_eq] at done
  obtain ⟨⟨⟨⟨active, room⟩, queue⟩, stored⟩, taken⟩ := done
  have there : s.globals.box 7 = some ⟨1, [⟨1, [68]⟩]⟩ := by rw [box_of_active active, room, queue]
  obtain ⟨acts, realizes, left, _⟩ := mailbox_refines_queue run
  refine ⟨s, acts, run, stored, taken, there, realizes, ?_⟩
  rw [there, stored] at left
  have whole : BoundedQueue.outs acts ++ [⟨1, [68]⟩] = [⟨2, [65, 66]⟩, ⟨1, [67]⟩] ++ [⟨1, [68]⟩] := left.symm
  exact List.append_cancel_right whole

end Sys

end UslossKernel
