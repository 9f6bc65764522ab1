import Mathlib.Data.List.FinRange
import Mathlib.Logic.Function.Basic
import Mathlib.Tactic.Simps.Basic
import UslossKernel.Library.RingBuffer

namespace UslossKernel

/-- `MAXMBOX` -/
def maxMbox : Nat := 2000

/-- `MAXSLOTS` -/
def maxSlots : Nat := 2500

/-- `MAX_MESSAGE` -/
def maxMessage : Nat := 150

/-- `MAXPROC` -/
def maxProc : Nat := 50

/-- `MAX_BLOCKED_PRODUCERS` -/
def maxBlockedProducers : Nat := 10

/-- `MAX_BLOCKED_CONSUMERS` -/
def maxBlockedConsumers : Nat := 10

instance : NeZero maxMbox := ⟨by decide⟩

abbrev MboxId := Fin maxMbox
abbrev Pid := Int
abbrev Message := List UInt8

/-- `struct Mailbox`. The two pointers lead into `shadowProcesses`, so they
are indices of that table; `none` is `NULL`. -/
structure Mbox where
  id : Nat
  numSlots : Nat
  slotSize : Nat
  isActive : Bool
  producers : Option Nat
  consumers : Option Nat

/-- `struct MailSlot`, without the fields no function touches. -/
structure MailSlot where
  mailboxID : Nat
  messageLength : Nat
  inUse : Bool
  message : List UInt8

/-- `SlotQueue`; `queue` is `none` for a `NULL` array. -/
structure SlotQueue where
  queue : Option (Nat → Nat)
  capacity : Nat
  head : Nat
  tail : Nat
  count : Nat

/-- What a call hands back: its value, and the bytes it copied out. -/
structure Result where
  ret : Int
  buf : Message
deriving DecidableEq, Repr

/-- One message leaving a ring: the size of the buffer it met and the result
the receiver gets for it. -/
structure Delivery where
  maxSize : Int
  result : Result
deriving DecidableEq, Repr

/-- The file-scope tables of `phase2.c`. The lists of waiting pids are the
used prefixes of the two arrays. `stored` and `taken` are history: what each
mailbox was given and gave back so far. No function reads them. -/
structure Globals where
  mailboxes : MboxId → Mbox
  mailSlots : Nat → MailSlot
  freeSlotQueue : Nat → Nat
  freeSlotCount : Nat
  mailboxSlotQueues : MboxId → SlotQueue
  shadowProcesses : Nat → Pid
  blockedProducers : MboxId → List Pid
  blockedConsumers : MboxId → List Pid
  stored : MboxId → List Message
  taken : MboxId → List Delivery

/-- `memcpy` of all of `src` to the start of `dst`. -/
def memcpy (dst src : List UInt8) : List UInt8 :=
  src ++ dst.drop src.length

/-- The first `n` bytes behind a pointer. -/
def bytesAt (pointer : Option Message) (n : Nat) : Message :=
  (List.range n).map fun i => (pointer.getD []).getD i 0

@[simp] theorem bytesAt_length (pointer : Option Message) (n : Nat) : (bytesAt pointer n).length = n := by
  simp [bytesAt]

theorem bytesAt_take (bytes : Message) {n : Nat} (enough : n ≤ bytes.length) :
    bytesAt (some bytes) n = bytes.take n := by
  refine List.ext_getElem (by simp [enough]) fun i bound _ => ?_
  have inside : i < bytes.length := lt_of_lt_of_le (by simpa using bound) enough
  simp [bytesAt, List.getD_eq_getElem?_getD, List.getElem?_eq_getElem inside]

/-- The bytes of the message a slot holds. -/
def MailSlot.contents (slot : MailSlot) : Message :=
  slot.message.take slot.messageLength

namespace SlotQueue

def ring (sq : SlotQueue) : RingBuffer Nat :=
  ⟨sq.queue.getD (fun _ => 0), sq.capacity, sq.head, sq.tail, sq.count⟩

/-- The slot indices in the ring, oldest first; none while there is no array. -/
def window (sq : SlotQueue) : List Nat :=
  if sq.queue.isNone then [] else sq.ring.window

/-- `queue[tail] = slotIndex; tail = (tail + 1) % capacity; count++` -/
def enqueue (sq : SlotQueue) (slotIndex : Nat) : SlotQueue :=
  { sq with
    queue := sq.queue.map fun cells => Function.update cells sq.tail slotIndex
    tail := (sq.tail + 1) % sq.capacity
    count := sq.count + 1 }

/-- `head = (head + 1) % capacity; count--` -/
def dequeue (sq : SlotQueue) : SlotQueue :=
  { sq with head := (sq.head + 1) % sq.capacity, count := sq.count - 1 }

theorem ring_enqueue {sq : SlotQueue} (allocated : sq.queue ≠ none) (slotIndex : Nat) :
    (sq.enqueue slotIndex).ring = sq.ring.push slotIndex := by
  obtain ⟨cells, atCells⟩ := Option.ne_none_iff_exists'.mp allocated
  simp [ring, enqueue, RingBuffer.push, atCells]

theorem ring_dequeue (sq : SlotQueue) : sq.dequeue.ring = sq.ring.pop := rfl

theorem window_of_allocated {sq : SlotQueue} (allocated : sq.queue ≠ none) : sq.window = sq.ring.window := by
  rw [window, if_neg (by simpa using allocated)]

theorem window_of_count {sq : SlotQueue} (empty : sq.count = 0) : sq.window = [] := by
  unfold window
  split
  · rfl
  · exact RingBuffer.window_eq_nil.mpr empty

theorem window_enqueue {sq : SlotQueue} (valid : sq.ring.WellFormed) (allocated : sq.queue ≠ none)
    (room : sq.count < sq.capacity) (slotIndex : Nat) :
    (sq.enqueue slotIndex).window = sq.window ++ [slotIndex] := by
  have still : (sq.enqueue slotIndex).queue ≠ none := by simpa [enqueue] using allocated
  rw [window_of_allocated still, window_of_allocated allocated, ring_enqueue allocated]
  exact valid.window_push room slotIndex

theorem window_dequeue {sq : SlotQueue} (valid : sq.ring.WellFormed) (allocated : sq.queue ≠ none)
    (occupied : 0 < sq.count) : sq.window = sq.ring.cells sq.head :: sq.dequeue.window := by
  have still : sq.dequeue.queue ≠ none := allocated
  rw [window_of_allocated still, window_of_allocated allocated]
  exact valid.window_pop occupied

end SlotQueue

namespace Globals

/-- Pids are put at the end while the array has room, else dropped. -/
def pushWaiter (limit : Nat) (waiting : List Pid) (pid : Pid) : List Pid :=
  if waiting.length < limit then waiting ++ [pid] else waiting

def firstInactive (g : Globals) : Option MboxId :=
  (List.finRange maxMbox).find? fun m => !(g.mailboxes m).isActive

/-- `mbox_id < 0 || mbox_id >= MAXMBOX || !mailboxes[mbox_id].isActive`
fails: the mailbox that all calls but `MboxCreate` check for first. -/
def activeMbox (g : Globals) (mbox_id : Int) : Option MboxId :=
  if bounds : 0 ≤ mbox_id ∧ mbox_id < maxMbox then
    if (g.mailboxes ⟨mbox_id.toNat, by omega⟩).isActive then some ⟨mbox_id.toNat, by omega⟩ else none
  else none

/-- The message checks that both sends make next. -/
def accepts (g : Globals) (m : MboxId) (msg_ptr : Option Message) (msg_size : Int) : Bool :=
  !(msg_size < 0 || msg_size > (g.mailboxes m).slotSize) && !(msg_size > 0 && msg_ptr.isNone)

/-- `MboxCreate` fills in the mailbox and a ring of its own. -/
@[simps -fullyApplied] def createMailbox (g : Globals) (m : MboxId) (numSlots slotSize : Nat) : Globals :=
  { g with
    mailboxes := Function.update g.mailboxes m
      { id := m, numSlots, slotSize, isActive := true, producers := none, consumers := none }
    mailboxSlotQueues := Function.update g.mailboxSlotQueues m
      { queue := some fun _ => 0, capacity := numSlots, head := 0, tail := 0, count := 0 } }

/-- `MboxCreate` gives the mailbox up again because `malloc` returned `NULL`. -/
@[simps -fullyApplied] def loseMailbox (g : Globals) (m : MboxId) (numSlots slotSize : Nat) : Globals :=
  { g with
    mailboxes := Function.update g.mailboxes m
      { id := m, numSlots, slotSize, isActive := false, producers := none, consumers := none }
    mailboxSlotQueues := Function.update g.mailboxSlotQueues m { g.mailboxSlotQueues m with queue := none } }

/-- `mailboxes[m].isActive = 0` -/
@[simps -fullyApplied] def deactivate (g : Globals) (m : MboxId) : Globals :=
  { g with mailboxes := Function.update g.mailboxes m { g.mailboxes m with isActive := false } }

@[simps -fullyApplied] def setBlockedProducers (g : Globals) (m : MboxId) (waiting : List Pid) : Globals :=
  { g with blockedProducers := Function.update g.blockedProducers m waiting }

@[simps -fullyApplied] def setBlockedConsumers (g : Globals) (m : MboxId) (waiting : List Pid) : Globals :=
  { g with blockedConsumers := Function.update g.blockedConsumers m waiting }

/-- The entry `shadowProcesses[pid % MAXPROC]`. -/
def shadowIndex (pid : Pid) : Nat := (pid % maxProc).toNat

/-- `mbox->producers = &shadowProcesses[pid % MAXPROC]; mbox->producers->pid = pid` -/
@[simps -fullyApplied] def pointProducers (g : Globals) (m : MboxId) (pid : Pid) : Globals :=
  { g with
    mailboxes := Function.update g.mailboxes m { g.mailboxes m with producers := some (shadowIndex pid) }
    shadowProcesses := Function.update g.shadowProcesses (shadowIndex pid) pid }

/-- `mbox->consumers = &shadowProcesses[pid % MAXPROC]; mbox->consumers->pid = pid` -/
@[simps -fullyApplied] def pointConsumers (g : Globals) (m : MboxId) (pid : Pid) : Globals :=
  { g with
    mailboxes := Function.update g.mailboxes m { g.mailboxes m with consumers := some (shadowIndex pid) }
    shadowProcesses := Function.update g.shadowProcesses (shadowIndex pid) pid }

/-- `mbox->consumers = NULL` -/
@[simps -fullyApplied] def clearConsumers (g : Globals) (m : MboxId) : Globals :=
  { g with mailboxes := Function.update g.mailboxes m { g.mailboxes m with consumers := none } }

/-- Take the top free slot, fill it and put it into the ring of `m`. -/
@[simps -fullyApplied] def storeMessage (g : Globals) (m : MboxId) (msg : Message) : Globals :=
  let slotIndex := g.freeSlotQueue (g.freeSlotCount - 1)
  { g with
    freeSlotCount := g.freeSlotCount - 1
    mailSlots := Function.update g.mailSlots slotIndex
      { inUse := true, mailboxID := m, messageLength := msg.length,
        message := memcpy (g.mailSlots slotIndex).message msg }
    mailboxSlotQueues := Function.update g.mailboxSlotQueues m ((g.mailboxSlotQueues m).enqueue slotIndex)
    stored := Function.update g.stored m (g.stored m ++ [msg]) }

/-- Take the oldest index out of the ring of `m`. -/
@[simps -fullyApplied] def dequeueSlot (g : Globals) (m : MboxId) (delivery : Delivery) : Globals :=
  { g with
    mailboxSlotQueues := Function.update g.mailboxSlotQueues m (g.mailboxSlotQueues m).dequeue
    taken := Function.update g.taken m (g.taken m ++ [delivery]) }

/-- `mailSlots[slotIndex].inUse = 0; freeSlotQueue[freeSlotCount++] = slotIndex` -/
@[simps -fullyApplied] def freeSlot (g : Globals) (slotIndex : Nat) : Globals :=
  { g with
    mailSlots := Function.update g.mailSlots slotIndex { g.mailSlots slotIndex with inUse := false }
    freeSlotQueue := Function.update g.freeSlotQueue g.freeSlotCount slotIndex
    freeSlotCount := g.freeSlotCount + 1 }

/-- `free(queue); queue = NULL; count = 0; head = 0; tail = 0` -/
@[simps -fullyApplied] def freeQueue (g : Globals) (m : MboxId) : Globals :=
  { g with
    mailboxSlotQueues := Function.update g.mailboxSlotQueues m
      { g.mailboxSlotQueues m with queue := none, count := 0, head := 0, tail := 0 } }

theorem activeMbox_eq_some {g : Globals} {mbox_id : Int} {m : MboxId} :
    g.activeMbox mbox_id = some m ↔ mbox_id = (m : Nat) ∧ (g.mailboxes m).isActive = true := by
  unfold activeMbox
  constructor
  · intro found
    split at found
    · rename_i bounds
      split at found
      · obtain rfl := Option.some.inj found
        exact ⟨(Int.toNat_of_nonneg bounds.1).symm, by assumption⟩
      · cases found
    · cases found
  · rintro ⟨rfl, active⟩
    have bounds : (0 : Int) ≤ (m : Nat) ∧ ((m : Nat) : Int) < maxMbox := ⟨by omega, by exact_mod_cast m.isLt⟩
    simp [bounds.2, active]

theorem firstInactive_spec {g : Globals} {m : MboxId} (found : g.firstInactive = some m) :
    (g.mailboxes m).isActive = false := by
  simpa using List.find?_some found

end Globals

end UslossKernel
