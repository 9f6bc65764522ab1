import UslossKernel.UserSteps

namespace UslossKernel.Phase3

open LinkedList Phase1b Kernel Machine Users

/-- `Spawn` has returned the pid of a child to its parent. -/
def Spawned (log : List UserEvent) (parent child : Int) : Prop :=
  0 < child ∧ ∃ f pid ret, UserEvent.spawned parent f pid ret ∈ log ∧ pid.toInt = child

/-- A `Wait` has returned the child, or its parent has reaped it in `Terminate`. -/
def Gone (log : List UserEvent) (child : Int) : Prop :=
  (∃ parent pid status, UserEvent.waited parent pid status 0 ∈ log ∧ pid.toInt = child) ∨
    ∃ parent, UserEvent.reaped parent child ∈ log

/-- The process has called `Terminate`, or its function has returned. -/
def Ended (log : List UserEvent) (pid : Int) (status : BitVec 32) : Prop :=
  UserEvent.ended pid status ∈ log

/-- What a return of `Wait` says: a child of the caller that has ended with this
status and has not been returned before, or that no child is left. And
`Terminate` reaps children of its caller that have ended. -/
def UserLaw : UserEvent → List UserEvent → Prop
  | .waited parent pid status ret, older =>
    ret = 0 ∧ Spawned older parent pid.toInt ∧ Ended older pid.toInt status ∧ ¬ Gone older pid.toInt ∨
      ret = -2 ∧ pid = -2 ∧ status = 0 ∧ ∀ child, Spawned older parent child → Gone older child
  | .reaped parent child, older =>
    Spawned older parent child ∧ (∃ status, Ended older child status) ∧ ¬ Gone older child
  | _, _ => True

section log
variable {log older newer : List UserEvent} {parent child : Int} {status : BitVec 32}

theorem Spawned.mono (told : Spawned older parent child) (grows : ∀ e ∈ older, e ∈ log) :
    Spawned log parent child := by
  obtain ⟨positive, f, pid, ret, member, named⟩ := told
  exact ⟨positive, f, pid, ret, grows _ member, named⟩

theorem Gone.mono (gone : Gone older child) (grows : ∀ e ∈ older, e ∈ log) : Gone log child := by
  rcases gone with ⟨parent, pid, status, member, named⟩ | ⟨parent, member⟩
  · exact .inl ⟨parent, pid, status, grows _ member, named⟩
  · exact .inr ⟨parent, grows _ member⟩

end log

/-- What the user processes have been told is what the kernel has done for them. -/
structure Told (s : Users) : Prop where
  spawned : ∀ p, s.machine.kernel.occupied p = true → s.user p = true → ∀ child,
    SporkedBy s.machine.log (s.machine.pid p) child → Spawned s.log (s.machine.pid p) child
  gone : ∀ p, s.machine.kernel.occupied p = true → s.user p = true → ∀ child status,
    Event.returned (s.machine.pid p) .join child (some status) ∈ s.machine.log → Gone s.log child
  ended : ∀ p, s.machine.kernel.occupied p = true → s.user p = true → ∀ exit,
    HasQuit s.machine.log (s.machine.pid p) exit →
      ∃ status : BitVec 32, status.toInt = exit ∧ Ended s.log (s.machine.pid p) status
  spawnedBack : ∀ parent child, Spawned s.log parent child → SporkedBy s.machine.log parent child
  goneBack : ∀ child, Gone s.log child → Collected s.machine.log child
  children : ∀ i p, s.machine.kernel.childOf i p → s.user p = true → s.user i = true
  stands : ∀ p, s.machine.kernel.occupied p = true → s.user p = true → Stands (s.call p) (s.machine.place p)
  ending : ∀ p, s.machine.kernel.occupied p = true → s.user p = true → ∀ args retval,
    s.call p = some (.terminate args retval) → Ended s.log (s.machine.pid p) (int args.arg1)

/-- The caller of a `join` that has returned a child. -/
theorem join_caller {m : Machine} {caller child status : Int} (ledger : Ledger m)
    (laws : History.Justified JoinLaw m.log) (member : Event.returned caller .join child (some status) ∈ m.log) :
    caller < m.kernel.next_pid := by
  obtain ⟨newer, older, split⟩ := List.append_of_mem member
  have law := laws newer _ older split
  rcases law with ⟨impossible, _⟩ | ⟨_, _, told, _⟩
  · cases impossible
  · have earlier : SporkedBy m.log caller child := by
      refine ⟨told.1, ?_⟩
      rw [split]
      exact List.mem_append_right _ (List.mem_cons_of_mem _ told.2)
    exact (ledger.sporkBelow caller child earlier).1

/-- What a turn of `p` adds to the two histories. -/
structure TurnTold (s : Users) (p : Slot) (s' : Users) : Prop extends TurnFrame s p s' where
  spawned : s.user p = true → ∀ child, SporkedBy s'.machine.log (s.machine.pid p) child →
    SporkedBy s.machine.log (s.machine.pid p) child ∨ Spawned s'.log (s.machine.pid p) child
  gone : s.user p = true → ∀ child status,
    Event.returned (s.machine.pid p) .join child (some status) ∈ s'.machine.log →
      Event.returned (s.machine.pid p) .join child (some status) ∈ s.machine.log ∨ Gone s'.log child
  ended : s.user p = true → ∀ exit, HasQuit s'.machine.log (s.machine.pid p) exit →
    HasQuit s.machine.log (s.machine.pid p) exit ∨
      ∃ status : BitVec 32, status.toInt = exit ∧ Ended s'.log (s.machine.pid p) status
  spawnedBack : ∀ parent child, Spawned s'.log parent child →
    Spawned s.log parent child ∨ SporkedBy s'.machine.log parent child
  goneBack : ∀ child, Gone s'.log child → Gone s.log child ∨ Collected s'.machine.log child
  stands : s.user p = true → Stands (s'.call p) (s'.machine.place p)
  ending : s.user p = true → ∀ args retval, s'.call p = some (.terminate args retval) →
    Ended s'.log (s.machine.pid p) (int args.arg1)

variable {s s' : Users} {p q i : Slot}

/-- After a turn an entry is one that was taken before, or one that has been taken now. -/
theorem TurnFrame.cases (frame : TurnFrame s p s') (occupied : s'.machine.kernel.occupied i = true) :
    (taken s.machine s'.machine i = false ∧ s.machine.kernel.occupied i = true ∧
      s'.machine.pid i = s.machine.pid i) ∨
    taken s.machine s'.machine i = true ∧ i ≠ p ∧ (s.machine.kernel.next_pid : Int) ≤ s'.machine.pid i ∧
      s'.machine.place i = .fresh ∧ s'.call i = none := by
  rcases frame.turned.entry i occupied with ⟨before, same⟩ | ⟨free, bound, fresh⟩
  · exact .inl ⟨by simp [taken, before], before, same⟩
  · have new : taken s.machine s'.machine i = true := by simp [taken, free, occupied]
    have other : i ≠ p := by
      rintro rfl
      exact absurd (frame.turned.here.symm.trans free) (by decide)
    exact .inr ⟨new, other, bound, fresh, frame.fresh i other new⟩

namespace TurnFrame

theorem kept (frame : TurnFrame s p s') : ∀ e ∈ s.machine.log, e ∈ s'.machine.log := by
  obtain ⟨newer, log, _⟩ := frame.turned.log
  intro e member
  rw [log]
  exact List.mem_append_right _ member

/-- What the kernel has newly recorded is of `p`. -/
theorem old {e : Event} (frame : TurnFrame s p s') (member : e ∈ s'.machine.log) (other : e.caller ≠ s.machine.pid p) :
    e ∈ s.machine.log := by
  obtain ⟨newer, log, own⟩ := frame.turned.log
  rw [log] at member
  rcases List.mem_append.mp member with new | old
  · exact absurd (own e new) other
  · exact old

theorem user_of_kept (frame : TurnFrame s p s') (kept : taken s.machine s'.machine i = false) :
    s'.user i = s.user i := by
  by_cases self : i = p
  · rw [self]
    exact frame.userSelf
  · exact frame.user i self kept

/-- What is known of every user process after a turn of `p`: a process that was there
keeps what was known of it, of a new one nothing has been recorded, and `p` brings
what is known of its own turn. -/
theorem each {ι : Type} (Fact : List Event → Int → ι → Prop) (Known : List UserEvent → Int → ι → Prop)
    (frame : TurnFrame s p s') (ledger : Ledger s.machine)
    (old : ∀ pid x, pid ≠ s.machine.pid p → Fact s'.machine.log pid x → Fact s.machine.log pid x)
    (below : ∀ pid x, Fact s.machine.log pid x → pid < s.machine.kernel.next_pid)
    (grows : ∀ pid x, Known s.log pid x → Known s'.log pid x)
    (before : ∀ q, s.machine.kernel.occupied q = true → s.user q = true → ∀ x,
      Fact s.machine.log (s.machine.pid q) x → Known s.log (s.machine.pid q) x)
    (now : s.user p = true → ∀ x, Fact s'.machine.log (s.machine.pid p) x →
      Fact s.machine.log (s.machine.pid p) x ∨ Known s'.log (s.machine.pid p) x)
    (q : Slot) (occupied : s'.machine.kernel.occupied q = true) (user : s'.user q = true) (x : ι)
    (fact : Fact s'.machine.log (s'.machine.pid q) x) : Known s'.log (s'.machine.pid q) x := by
  rcases frame.cases occupied with ⟨kept, wasHere, same⟩ | ⟨_, _, bound, _⟩
  · rw [same] at fact ⊢
    have wasUser : s.user q = true := (frame.user_of_kept kept).symm.trans user
    by_cases self : q = p
    · subst self
      rcases now wasUser x fact with earlier | known
      · exact grows _ x (before q wasHere wasUser x earlier)
      · exact known
    · have distinct : s.machine.pid q ≠ s.machine.pid p := fun named => self (ledger.family.distinct q p wasHere named)
      exact grows _ x (before q wasHere wasUser x (old _ x distinct fact))
  · have least : s.machine.pid p < s.machine.kernel.next_pid := ledger.family.below p
    have less := below _ x (old _ x (by omega) fact)
    omega

end TurnFrame

namespace TurnTold

/-- A child of a user process is one, be it an old child or the one just created. -/
theorem children (after : TurnTold s p s') (ledger : Ledger s.machine) (told : Told s)
    (child : s'.machine.kernel.childOf i q) (user : s'.user q = true) : s'.user i = true := by
  have userBefore : s.machine.kernel.occupied q = true → s.user q = true := fun before =>
    (after.user_of_kept (by simp [taken, before])).symm.trans user
  rcases after.turned.childOf i q child with earlier | ⟨new, rfl⟩
  · have wasUser := told.children i q earlier (userBefore (ledger.family.parent_alive earlier).1)
    exact (after.user_of_kept (by simp [taken, earlier.1])).trans wasUser
  · exact after.child i new (userBefore after.turned.here)

/-- Where a user process stands in its system call. -/
theorem standing (after : TurnTold s p s') (told : Told s) (occupied : s'.machine.kernel.occupied q = true)
    (user : s'.user q = true) : Stands (s'.call q) (s'.machine.place q) := by
  rcases after.cases occupied with ⟨kept, before, _⟩ | ⟨_, _, _, fresh, none⟩
  · have wasUser : s.user q = true := (after.user_of_kept kept).symm.trans user
    by_cases self : q = p
    · subst self
      exact after.stands wasUser
    · rw [after.call q self kept, after.turned.place q self before]
      exact told.stands q before wasUser
  · rw [none, fresh]
    exact .inl rfl

/-- A `Terminate` that is under way has been recorded. -/
theorem terminating {args : Sysargs} {retval} (after : TurnTold s p s') (told : Told s)
    (occupied : s'.machine.kernel.occupied q = true) (user : s'.user q = true)
    (call : s'.call q = some (.terminate args retval)) : Ended s'.log (s'.machine.pid q) (int args.arg1) := by
  rcases after.cases occupied with ⟨kept, before, same⟩ | ⟨_, _, _, _, none⟩
  · have wasUser : s.user q = true := (after.user_of_kept kept).symm.trans user
    rw [same]
    by_cases self : q = p
    · subst self
      exact after.ending wasUser args retval call
    · have was : s.call q = some (.terminate args retval) := (after.call q self kept).symm.trans call
      exact after.grows _ (told.ending q before wasUser args retval was)
  · exact absurd (none.symm.trans call) (by simp)

end TurnTold

/-- The invariant after a turn. -/
theorem Told.turn (told : Told s) (ledger : Ledger s.machine) (laws : History.Justified JoinLaw s.machine.log)
    (after : TurnTold s p s') : Told s' where
  spawned := by
    refine after.each SporkedBy Spawned ledger (fun pid child other sporked => ⟨sporked.1, after.old sporked.2 other⟩)
      (fun pid child sporked => (ledger.sporkBelow pid child sporked).1)
      (fun pid child known => known.mono after.grows) told.spawned after.spawned
  gone q occupied user child status member := by
    refine after.each (fun log pid (x : Int × Int) => Event.returned pid .join x.1 (some x.2) ∈ log)
      (fun log _ x => Gone log x.1) ledger (fun pid x other fact => after.old fact other)
      (fun pid x => join_caller ledger laws) (fun pid x known => known.mono after.grows)
      (fun q here wasUser x => told.gone q here wasUser x.1 x.2)
      (fun wasUser x => after.gone wasUser x.1 x.2) q occupied user (child, status) member
  ended := by
    refine after.each HasQuit (fun log pid exit => ∃ status : BitVec 32, status.toInt = exit ∧ Ended log pid status)
      ledger (fun pid exit other quits => after.old quits other) ledger.quitBelow ?_ told.ended after.ended
    rintro pid exit ⟨status, same, ended⟩
    exact ⟨status, same, after.grows _ ended⟩
  spawnedBack parent child spawned := by
    rcases after.spawnedBack parent child spawned with earlier | now
    · have before := told.spawnedBack parent child earlier
      exact ⟨before.1, after.kept _ before.2⟩
    · exact now
  goneBack child gone := by
    rcases after.goneBack child gone with earlier | now
    · obtain ⟨parent, status, before⟩ := told.goneBack child earlier
      exact ⟨parent, status, after.kept _ before⟩
    · exact now
  children i q child user := after.children ledger told child user
  stands q occupied user := after.standing told occupied user
  ending q occupied user args retval call := after.terminating told occupied user call

end UslossKernel.Phase3
