import UslossKernel.SlotOwnership
import UslossKernel.Waiting

namespace UslossKernel

def Wait.zeroSlot : Wait → Bool
  | .sendZero _ | .recvZero _ => true
  | .sendFull .. | .recvEmpty .. => false

theorem Wait.mbox_of_sendsTo {w : Wait} {m : MboxId} (kind : w.sendsTo m = true) : w.mbox = m := by
  cases w <;> simp_all [Wait.sendsTo, Wait.mbox]

theorem Wait.mbox_of_receivesFrom {w : Wait} {m : MboxId} (kind : w.receivesFrom m = true) : w.mbox = m := by
  cases w <;> simp_all [Wait.receivesFrom, Wait.mbox]

/-- The mailbox of a suspended call is still the one it was made on. -/
def Wait.Fits (g : Globals) (w : Wait) : Prop :=
  (g.mailboxes w.mbox).isActive = true ∧ (w.zeroSlot = true ↔ (g.mailboxes w.mbox).numSlots = 0)

/-- The same for a call inside `unblockProc`; a release is none of them. -/
def Cont.Fits (g : Globals) : Cont → Prop
  | .sendMatched m | .recvMatched m => (g.mailboxes m).isActive = true ∧ (g.mailboxes m).numSlots = 0
  | .sendStored m | .recvTaken m _ | .condSendStored m | .condRecvTaken m _ =>
    (g.mailboxes m).isActive = true ∧ (g.mailboxes m).numSlots ≠ 0
  | .releaseProducers .. | .releaseConsumers .. | .releasePointer _ => False

def Proc.FitsAt (g : Globals) (m : MboxId) : Proc → Prop
  | .blocked w | .woken w => w.mbox = m → w.Fits g
  | .unblocking k => k.mbox = m → k.Fits g
  | .outside | .asleep => True

def Outcome.FitsAt (g : Globals) (m : MboxId) : Outcome → Prop
  | .blocks w => w.mbox = m → w.Fits g
  | .unblocks _ k => k.mbox = m → k.Fits g
  | .returns _ | .faults _ => True

theorem Proc.FitsAt.wake {g : Globals} {m : MboxId} {proc : Proc} (fits : proc.FitsAt g m) :
    proc.wake.FitsAt g m := by
  cases proc <;> exact fits

theorem Proc.At.wait_fits {g : Globals} {m : MboxId} {proc : Proc} {w : Wait} (here : proc.At (.afterBlock w))
    (fits : proc.FitsAt g m) (mbox : w.mbox = m) : w.Fits g := by
  cases here
  exact fits mbox

theorem Proc.At.cont_fits {g : Globals} {m : MboxId} {proc : Proc} {k : Cont} (here : proc.At (.afterUnblock k))
    (fits : proc.FitsAt g m) (mbox : k.mbox = m) : k.Fits g := by
  cases here
  exact fits mbox

theorem Cont.Fits.active {g : Globals} {k : Cont} (fits : k.Fits g) : (g.mailboxes k.mbox).isActive = true := by
  cases k <;> first | exact fits.1 | exact fits.elim

theorem Cont.Fits.not_releases {g : Globals} {k : Cont} {m : MboxId} (fits : k.mbox = m → k.Fits g) :
    k.releases m = false := by
  cases k <;> simp_all [Cont.releases, Cont.Fits, Cont.mbox]

/-- An active mailbox keeps its status unless a release of it begins. -/
theorem Transfer.status {g g' : Globals} {pt : Point} {m : MboxId} (transfer : Transfer g pt g')
    (active : (g.mailboxes m).isActive = true) (unreleased : pt ≠ .start (.release (m : Nat))) :
    (g'.mailboxes m).isActive = true ∧ (g'.mailboxes m).numSlots = (g.mailboxes m).numSlots := by
  have other : ∀ n, g.firstInactive = some n → m ≠ n := by
    rintro n found rfl
    exact absurd (active.symm.trans (Globals.firstInactive_spec found)) (by simp)
  cases transfer with
  | keeps same | stores _ _ same | rejects _ _ _ same | takes _ _ _ same | frees _ same =>
    exact ⟨(same.active m).trans active, same.numSlots m⟩
  | creates found _ same | createFails found same =>
    rw [same.active, same.numSlots]
    simp only [Globals.createMailbox_mailboxes, Globals.loseMailbox_mailboxes, Function.update_of_ne (other _ found)]
    exact ⟨active, trivial⟩
  | deactivates _ same | releases _ _ same =>
    have away := fun here : m = _ => unreleased (by rw [here])
    rw [same.active, same.numSlots]
    simp only [Globals.freeQueue_mailboxes, Globals.deactivate_mailboxes, Function.update_of_ne away]
    exact ⟨active, trivial⟩

theorem Proc.FitsAt.transfer {g g' : Globals} {m : MboxId} {proc : Proc} (fits : proc.FitsAt g m)
    (status : (g.mailboxes m).isActive = true →
      (g'.mailboxes m).isActive = true ∧ (g'.mailboxes m).numSlots = (g.mailboxes m).numSlots) :
    proc.FitsAt g' m := by
  cases proc with
  | outside | asleep => trivial
  | blocked w | woken w =>
    rintro rfl
    obtain ⟨active, kind⟩ := fits rfl
    obtain ⟨still, same⟩ := status active
    exact ⟨still, same ▸ kind⟩
  | unblocking k =>
    rintro rfl
    obtain ⟨still, same⟩ := status (fits rfl).active
    have before := fits rfl
    cases k <;>
      first | exact ⟨still, same.trans before.2⟩ | exact ⟨still, same.trans_ne before.2⟩ | exact before.elim

/-- Without a release of `m` no code belongs to one. -/
theorem ReleaseAt.away {g g₀ : Globals} {pt : Point} {m n : MboxId} {stage : Stage} {proc : Proc}
    (at_ : ReleaseAt g pt g₀ n stage) (here : proc.At pt) (before : proc.FitsAt g m)
    (unreleased : pt ≠ .start (.release (m : Nat))) : n ≠ m := by
  rintro rfl
  rcases at_.sameMail with ⟨start, _⟩ | ⟨⟨k, releases, rfl⟩, _⟩
  · exact unreleased start
  · cases here
    rw [Cont.Fits.not_releases before] at releases
    cases releases

/-- Messages are only stored in, and taken from, mailboxes with slots. -/
theorem StorePoint.slots {g : Globals} {pt : Point} {n : MboxId} {msg : Message} {k : Cont} {proc : Proc}
    (at_ : StorePoint g pt n msg k) (here : proc.At pt) (before : proc.FitsAt g n) :
    (g.mailboxes n).numSlots ≠ 0 := by
  cases at_ with
  | send _ _ slots => exact slots
  | resumed =>
    intro zero
    have kind := (here.wait_fits before rfl).2.mpr zero
    cases kind
  | condSend _ _ _ room => omega

theorem TakePoint.slots {g g₀ : Globals} {pt : Point} {n : MboxId} {buffer : Buffer} {k : Result → Cont}
    {proc : Proc} (at_ : TakePoint g pt g₀ n buffer k) (here : proc.At pt) (before : proc.FitsAt g n)
    (sound : g.Sound) : (g.mailboxes n).numSlots ≠ 0 := by
  cases at_ with
  | recv _ _ slots => exact slots
  | resumed =>
    intro zero
    have kind := (here.wait_fits before rfl).2.mpr zero
    cases kind
  | condRecv active _ occupied =>
    have bound := sound.count_le active
    omega

/-- What the code leaves its caller in is a call on a mailbox of that kind. -/
theorem Path.fits {g : Globals} {p : Pid} {pt : Point} {seg : Segment} {m : MboxId} (path : Path g p pt seg)
    {proc : Proc} (here : proc.At pt) (before : proc.FitsAt g m) (sound : g.Sound)
    (unreleased : pt ≠ .start (.release (m : Nat))) : seg.2.FitsAt g m := by
  have stored : ∀ {n msg k}, StorePoint g pt n msg k → k.mbox = m → k.Fits g := by
    intro n msg k at_ mbox
    have same : k.mbox = n := by cases at_ <;> rfl
    obtain rfl : n = m := same.symm.trans mbox
    have slots := at_.slots here before
    have active := at_.active
    cases at_ <;> exact ⟨active, slots⟩
  have taken : ∀ {g₀ n buffer k r}, TakePoint g pt g₀ n buffer k → (k r).mbox = m → (k r).Fits g := by
    intro g₀ n buffer k r at_ mbox
    have same : (k r).mbox = n := by cases at_ <;> rfl
    obtain rfl : n = m := same.symm.trans mbox
    have slots := at_.slots here before sound
    have active := at_.active
    cases at_ <;> exact ⟨active, slots⟩
  cases path with
  | refused | created | createFails | stores | resumedEmpty | takeRejects | takes | resumedInactive
  | resumedZero | sendMatchedReturns | sendStoredReturns | recvTakenReturns | releaseReturns
  | storeFaults | takeFaults => trivial
  | sendMatches active _ zero => exact fun _ => ⟨active, zero⟩
  | sendZeroBlocks active _ zero => exact fun _ => ⟨active, iff_of_true rfl zero⟩
  | sendFullBlocks active _ slots => exact fun _ => ⟨active, iff_of_false Bool.false_ne_true slots⟩
  | resumedFullBlocks active slots => exact fun _ => ⟨active, iff_of_false Bool.false_ne_true slots⟩
  | storesAndWakes at_ => exact stored at_
  | recvMatches active _ zero => exact fun _ => ⟨active, zero⟩
  | recvZeroBlocks active _ zero => exact fun _ => ⟨active, iff_of_true rfl zero⟩
  | recvEmptyBlocks active _ slots => exact fun _ => ⟨active, iff_of_false Bool.false_ne_true slots⟩
  | takesAndWakes at_ => exact taken at_
  | releaseWakesProducer at_ | releaseWakesConsumer at_ | releaseWakesPointer at_ =>
    exact fun same => (at_.away here before unreleased same).elim

namespace Sys

/-- The action is not a release of `m`. -/
def Unreleased (m : MboxId) (_ : Sys) (a : Act) : Prop :=
  ∀ p, a ≠ .call p (.release (m : Nat))

/-- While `m` is not released, the calls inside it are calls on it as it is. -/
def Lasting (m : MboxId) (s : Sys) : Prop :=
  s.globals.Sound ∧ ∀ q, (s.proc q).FitsAt s.globals m

theorem Unreleased.point {m : MboxId} {s : Sys} {p : Pid} {pt : Point} (unreleased : Unreleased m s (pt.act p)) :
    pt ≠ .start (.release (m : Nat)) := by
  rintro rfl
  exact unreleased p rfl

theorem after_fits {m : MboxId} {s : Sys} {p : Pid} {pt : Point} {seg : Segment}
    (fits : ∀ q, (s.proc q).FitsAt s.globals m) (ends : seg.2.FitsAt s.globals m)
    (status : (s.globals.mailboxes m).isActive = true → ((s.after p pt seg).globals.mailboxes m).isActive = true ∧
      ((s.after p pt seg).globals.mailboxes m).numSlots = (s.globals.mailboxes m).numSlots) (q : Pid) :
    ((s.after p pt seg).proc q).FitsAt (s.after p pt seg).globals m := by
  refine Proc.FitsAt.transfer ?_ status
  obtain ⟨g, outcome⟩ := seg
  cases outcome with
  | returns r =>
    simp only [after, settle, enter_proc, Function.update_apply]
    split
    · trivial
    · exact fits q
  | blocks w =>
    simp only [after, settle, enter_proc, Function.update_apply]
    split
    · exact ends
    · exact fits q
  | unblocks pid k =>
    have first : ∀ r, (Function.update s.proc p (.unblocking k) r).FitsAt s.globals m := by
      intro r
      rw [Function.update_apply]
      split
      · exact ends
      · exact fits r
    simp only [after, settle, enter_proc]
    rw [Function.update_apply]
    split
    · exact (first pid).wake
    · exact first q
  | faults => simpa only [after, settle, enter_proc] using fits q

theorem lasting_of_run {m : MboxId} {s : Sys} (run : Transition.Run Sys.step (Unreleased m) boot s) :
    s.Lasting m := by
  refine ⟨sound_of_run run, ?_⟩
  refine invariant run (fun _ => sound_of_run) (fun s => ∀ q, (s.proc q).FitsAt s.globals m) ?_ ?_ ?_ ?_
  · intro q
    trivial
  · intro s p pt seg sound fits unreleased here path _
    have point := unreleased.point
    exact after_fits fits (path.fits here (fits p) sound point) fun active =>
      (after_transfer path).status active point
  · intro s p pt f fits q
    rw [enter_proc, enter_globals]
    exact fits q
  · intro s q proc cpu fits _ becomes r
    simp only [Function.update_apply]
    split
    · cases proc <;> trivial
    · exact fits r

end Sys

end UslossKernel
