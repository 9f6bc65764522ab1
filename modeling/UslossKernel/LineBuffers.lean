import UslossKernel.LineReads

namespace UslossKernel

namespace Phase4a

/-- What `TermDriver` has at the end of a line: the first `currLen` characters
of `currLine`, and the size of the message it offers to `MboxCondSend`. -/
structure Flush where
  line : Message
  msg_size : Nat
deriving DecidableEq, Repr

/-- The array `currLine` of `TermDriver` and `currLen`. The other fields are
history: the indices written so far and the lines that have come to an end. -/
structure LineBuffer where
  currLine : Nat → UInt8
  currLen : Nat
  written : List Nat
  flushed : List Flush

namespace LineBuffer

/-- `currLine[index] = byte` -/
def write (b : LineBuffer) (index : Nat) (byte : UInt8) : LineBuffer :=
  { b with currLine := Function.update b.currLine index byte, written := b.written ++ [index] }

/-- `currLine[currLen++] = byte` -/
def put (b : LineBuffer) (byte : UInt8) : LineBuffer :=
  { b.write b.currLen byte with currLen := b.currLen + 1 }

/-- The first `n` bytes of `currLine`. -/
def bytes (b : LineBuffer) (n : Nat) : Message :=
  (List.range n).map b.currLine

/-- The end of a line: `currLine[currLen] = '\0'`, the `MboxCondSend` of
`strlen(currLine) + 1` bytes, and `currLen = 0`. -/
def flush (b : LineBuffer) : LineBuffer :=
  let b := b.write b.currLen 0
  { b with flushed := b.flushed ++ [⟨b.bytes b.currLen, strlen (b.bytes (maxLine + 1)) + 1⟩], currLen := 0 }

/-- The body of the loop of `TermDriver`, with what `waitDevice` gave. -/
def receive (b : LineBuffer) (status : TermStatus) : LineBuffer :=
  if status.recvStatus = .busy then
    let b := b.put status.recvChar
    if status.recvChar = newline ∨ b.currLen = maxLine then b.flush else b
  else b

/-- `currLine` is not initialised. -/
def start (currLine : Nat → UInt8) : LineBuffer where
  currLine := currLine
  currLen := 0
  written := []
  flushed := []

/-- The buffer after these statuses. -/
def receiveAll (currLine : Nat → UInt8) (statuses : List TermStatus) : LineBuffer :=
  statuses.foldl receive (start currLine)

variable {b : LineBuffer} {status : TermStatus} {currLine : Nat → UInt8} {statuses : List TermStatus}

theorem bytes_write (index n : Nat) (byte : UInt8) (past : n ≤ index) : (b.write index byte).bytes n = b.bytes n := by
  refine List.map_congr_left fun i member => ?_
  exact Function.update_of_ne (by have := List.mem_range.mp member; omega) _ _

theorem bytes_write_next (byte : UInt8) :
    (b.write b.currLen byte).bytes (b.currLen + 1) = b.bytes b.currLen ++ [byte] := by
  rw [bytes, List.range_succ, List.map_append]
  congr 1
  · exact bytes_write b.currLen b.currLen byte le_rfl
  · simp [write]

theorem put_bytes (byte : UInt8) : (b.put byte).bytes (b.put byte).currLen = b.bytes b.currLen ++ [byte] :=
  bytes_write_next byte

/-- `strlen` stops at the terminator at the latest. -/
theorem strlen_terminated (short : b.currLen ≤ maxLine) :
    strlen ((b.write b.currLen 0).bytes (maxLine + 1)) = strlen (b.bytes b.currLen ++ [0]) := by
  have split : (b.write b.currLen 0).bytes (maxLine + 1) = b.bytes b.currLen ++
      0 :: (List.range (maxLine - b.currLen)).map fun i => (b.write b.currLen 0).currLine (b.currLen + 1 + i) := by
    have whole : maxLine + 1 = b.currLen + 1 + (maxLine - b.currLen) := by omega
    rw [bytes, whole, List.range_add, List.map_append, List.map_map]
    change (b.write b.currLen 0).bytes (b.currLen + 1) ++ _ = _
    rw [bytes_write_next, List.append_assoc]
    rfl
  rw [strlen, strlen, split, text_append_zero, text_terminated]

theorem flush_flushed (short : b.currLen ≤ maxLine) : b.flush.flushed =
    b.flushed ++ [⟨b.bytes b.currLen, strlen (b.bytes b.currLen ++ [0]) + 1⟩] := by
  rw [← strlen_terminated short, ← bytes_write b.currLen b.currLen 0 le_rfl]
  rfl

/-- What the loop keeps: the lines are those of the characters so far, the
partial line is in the buffer, and nothing was written outside it. -/
structure Assembled (b : LineBuffer) (received : List UInt8) : Prop where
  lines : b.flushed.map Flush.line = (LineAssembly.assemble newline maxLine received).lines
  pending : b.bytes b.currLen = (LineAssembly.assemble newline maxLine received).current
  within : ∀ index ∈ b.written, index ≤ maxLine
  sized : ∀ f ∈ b.flushed, f.msg_size = strlen (f.line ++ [0]) + 1

theorem Assembled.short {received : List UInt8} (assembled : b.Assembled received) : b.currLen < maxLine := by
  have room := (@LineAssembly.assemble_current _ _ newline maxLine (by decide) received).2
  rw [← assembled.pending, bytes, List.length_map, List.length_range] at room
  exact room

theorem Assembled.receive {received : List UInt8} (assembled : b.Assembled received) (status : TermStatus) :
    (b.receive status).Assembled (received ++ characters [status]) := by
  have short := assembled.short
  unfold LineBuffer.receive
  split
  · rename_i busy
    have taken : characters [status] = [status.recvChar] := by simp [characters, busy]
    generalize status.recvChar = c at *
    have next : (b.put c).bytes (b.put c).currLen = b.bytes b.currLen ++ [c] := put_bytes c
    have length : (b.bytes b.currLen ++ [c]).length = (b.put c).currLen := by simp [bytes, put]
    have within : ∀ index ∈ (b.put c).written, index ≤ maxLine := by
      intro index member
      rcases List.mem_append.mp member with old | new
      · exact assembled.within index old
      · rw [List.mem_singleton.mp new]
        exact short.le
    rw [taken]
    by_cases ends : c = newline ∨ (b.put c).currLen = maxLine
    · have ended := @LineAssembly.push_ends _ _ newline maxLine (LineAssembly.assemble newline maxLine received) c
        (by rwa [← assembled.pending, length])
      have room : (b.put c).currLen ≤ maxLine := short
      rw [← LineAssembly.assemble_concat, ← assembled.pending, ← assembled.lines, ← next] at ended
      simp only [if_pos ends]
      refine ⟨?_, by rw [ended]; rfl, ?_, ?_⟩
      · rw [flush_flushed room, ended, List.map_append]
        rfl
      · intro index member
        rcases List.mem_append.mp member with old | new
        · exact within index old
        · rw [List.mem_singleton.mp new]
          exact room
      · rw [flush_flushed room]
        intro f member
        rcases List.mem_append.mp member with old | new
        · exact assembled.sized f old
        · rw [List.mem_singleton.mp new]
    · have goesOn := @LineAssembly.push_goesOn _ _ newline maxLine (LineAssembly.assemble newline maxLine received) c
        (by rwa [← assembled.pending, length])
      rw [← LineAssembly.assemble_concat, ← assembled.pending, ← assembled.lines, ← next] at goesOn
      simp only [if_neg ends]
      exact ⟨by rw [goesOn]; rfl, by rw [goesOn], within, assembled.sized⟩
  · rename_i other
    have none : characters [status] = [] := by simp [characters, other]
    rw [none, List.append_nil]
    exact assembled

theorem receiveAll_assembled (currLine : Nat → UInt8) (statuses : List TermStatus) :
    (receiveAll currLine statuses).Assembled (characters statuses) := by
  induction statuses using List.reverseRecOn with
  | nil => exact ⟨rfl, rfl, nofun, nofun⟩
  | append_singleton statuses status ih =>
    have next := ih.receive status
    rw [receiveAll, List.foldl_append, characters, List.filter_append, List.map_append]
    exact next

/-- Nothing of what a driver receives is lost: the lines it has flushed and the
one it is at are the characters so far. Each line has a character and at most
`MAXLINE`, ends at a newline or at its full length and has no other newline.
Nothing is written outside `currLine`, and every message fits the mailbox. -/
theorem lines_assembled (unit : TermUnit) (currLine : Nat → UInt8) (statuses : List TermStatus) :
    ((receiveAll currLine statuses).flushed.map Flush.line).flatten ++
        (receiveAll currLine statuses).bytes (receiveAll currLine statuses).currLen = characters statuses ∧
    (∀ f ∈ (receiveAll currLine statuses).flushed, 1 ≤ f.line.length ∧ f.line.length ≤ maxLine ∧
      newline ∉ f.line.dropLast ∧ (f.line.getLast? = some newline ∨ f.line.length = maxLine)) ∧
    (∀ index ∈ (receiveAll currLine statuses).written, index ≤ maxLine) ∧
    ∀ f ∈ (receiveAll currLine statuses).flushed,
      f.msg_size ≤ (initSys.globals.mailboxes (lineReadyMbox unit)).slotSize := by
  have assembled := receiveAll_assembled currLine statuses
  have lines : ∀ f ∈ (receiveAll currLine statuses).flushed, LineAssembly.IsLine newline maxLine f.line := by
    intro f member
    refine LineAssembly.assemble_lines (by decide) (characters statuses) f.line ?_
    rw [← assembled.lines]
    exact List.mem_map_of_mem member
  refine ⟨?_, fun f member => ?_, assembled.within, fun f member => ?_⟩
  · rw [assembled.lines, assembled.pending]
    exact LineAssembly.assemble_flatten _
  · have line := lines f member
    exact ⟨List.length_pos_of_ne_nil line.nonempty, line.short, line.inner, line.ended⟩
  · rw [assembled.sized f member, (initSys_lineReadyMbox unit).slotSize, strlen, text_terminated]
    have short := (lines f member).short
    have within := text_length_le f.line
    omega

end LineBuffer

/-- The driver with its line as a list does what the code does with the array. -/
theorem TermDriver.receive_refines {d : TermDriver} {b : LineBuffer} {status : TermStatus}
    (same : d.currLine = b.bytes b.currLen) (short : b.currLen < maxLine) :
    ((b.receive status).flushed = b.flushed ∧ ∃ d', d.receive status = .waiting d' ∧
        d'.currLine = (b.receive status).bytes (b.receive status).currLen) ∨
      ∃ d' f, d.receive status = .sending d' ∧ (b.receive status).flushed = b.flushed ++ [f] ∧
        d'.currLine = f.line ∧ (b.receive status).currLen = 0 ∧ lineSend d'.unit d'.currLine =
          .condSend (lineReadyMbox d'.unit).val (some (f.line ++ [0])) (f.msg_size : Nat) := by
  unfold TermDriver.receive LineBuffer.receive
  split
  · have next : (b.put status.recvChar).bytes (b.put status.recvChar).currLen = d.currLine ++ [status.recvChar] := by
      rw [LineBuffer.put_bytes, same]
    have length : (d.currLine ++ [status.recvChar]).length = (b.put status.recvChar).currLen := by
      rw [← next]
      simp [LineBuffer.bytes]
    simp only [length]
    split
    · refine .inr ⟨_, _, rfl, LineBuffer.flush_flushed short, next.symm, rfl, ?_⟩
      rw [next]
      rfl
    · exact .inl ⟨rfl, _, rfl, next.symm⟩
  · exact .inl ⟨rfl, _, rfl, same⟩

end Phase4a

end UslossKernel
