import Spore.Lib.Run
import Spore.Ipc.Calls

/-!
# A pipe is a stream of bytes

The record of a run says what was accepted by writes and what was returned by reads since a
slot became a pipe. Every step keeps the equation between the two and the buffer: what was
returned, followed by what is buffered, is what was accepted.
-/

namespace Spore.Ipc

open Spore.Lib Machine List

variable {pos target id f domain buf len mm a b listener freePages : Nat} {event : Event}
  {start ring : RingBuffer UInt8} {cfg : Config} {s : Machine} {pipe : PipeObj} {bytes : List UInt8}
  {log : List Event}

/-! ## The record -/

/-- Bytes accepted by writes since the slot became a pipe, in order. -/
def accepted (id : Nat) : List Event → List UInt8
  | [] => []
  | .created pipe :: older => if pipe = id then [] else accepted id older
  | .wrote pipe _ bytes :: older =>
    if pipe = id then accepted id older ++ bytes else accepted id older
  | .returned _ _ :: older => accepted id older

/-- Bytes returned by reads since the slot became a pipe, in order. -/
def returned (id : Nat) : List Event → List UInt8
  | [] => []
  | .created pipe :: older => if pipe = id then [] else returned id older
  | .wrote _ _ _ :: older => returned id older
  | .returned pipe bytes :: older =>
    if pipe = id then returned id older ++ bytes else returned id older

/-- A write of at most `PIPE_BUF` bytes was accepted whole. -/
def Event.Whole : Event → Prop
  | .wrote _ len bytes => len ≤ pipeBuf → bytes.length = len
  | _ => True

/-- The pipe holds what was accepted and not yet returned. -/
structure Flowing (log : List Event) (id : Nat) (pipe : PipeObj) : Prop where
  /-- Each accepted byte has been returned or is buffered, in order. -/
  stream : returned id log ++ pipe.ring.contents pipeCap = accepted id log
  /-- `len` is `write_offset - read_offset`. -/
  offsets : pipe.ring.len = (pipe.writeOffset - pipe.readOffset).toNat
  /-- `len` is at most `PIPE_CAP`. -/
  bounded : pipe.ring.len ≤ pipeCap
  /-- `head` is a position of the buffer. -/
  head : pipe.ring.head < pipeCap

/-- Every pipe is a stream, and small writes were accepted whole. -/
structure Flows (s : Machine) : Prop where
  /-- Each pipe holds what is left to read. -/
  pipes : ∀ id pipe, s.pipes id = some pipe → Flowing s.log id pipe
  /-- Small writes are accepted whole. -/
  whole : ∀ event ∈ s.log, event.Whole

/-! ## The copying loops -/

/-- A chunk is no longer than what is left. -/
theorem chunkAt_le (pos rest : Nat) : chunkAt pos rest ≤ rest := Nat.min_le_right _ _

/-- A chunk does not pass the end of the buffer. -/
theorem chunkAt_run (rest : Nat) (inside : pos < pipeCap) : pos + chunkAt pos rest ≤ pipeCap := by
  unfold chunkAt
  omega

/-- A chunk is not empty while something is left. -/
theorem chunkAt_pos {rest : Nat} (inside : pos < pipeCap) (more : 0 < rest) :
    0 < chunkAt pos rest := by
  have page : pos % pageSize < pageSize := Nat.mod_lt _ (by decide)
  unfold chunkAt
  omega

/-- The bytes of a user buffer. -/
def userBytes (memory : UserMemory) (mm buf n : Nat) : List UInt8 :=
  (List.range n).map fun k => memory.load mm (buf + k)

/-- A user buffer in two parts. -/
theorem userBytes_add (memory : UserMemory) :
    userBytes memory mm buf (a + b) =
      userBytes memory mm buf a ++ userBytes memory mm (buf + a) b := by
  unfold userBytes
  rw [range_add, map_append, map_map]
  simp only [Function.comp_def, Nat.add_assoc]

/-- From a readable buffer the loop moves `target` bytes to the end of the ring. -/
theorem writeLoop_spec {mm buf : Nat} {memory : UserMemory}
    (ready : memory.Ready mm buf target .read) (fits : start.len + target ≤ pipeCap)
    (last : buf + target - 1 < 2 ^ 64) (rounds : Nat) : ∀ now : Moved,
    now.ok → now.memory = memory → now.ring.contents pipeCap = start.contents pipeCap ++ now.bytes →
    now.ring.head = start.head → now.bytes = userBytes memory mm buf now.bytes.length →
    now.bytes.length ≤ target → target ≤ now.bytes.length + rounds →
    ∃ ring, writeLoop mm buf target rounds now =
        ⟨true, ring, memory, userBytes memory mm buf target⟩ ∧
      ring.contents pipeCap = start.contents pipeCap ++ userBytes memory mm buf target ∧
      ring.head = start.head := by
  induction rounds with
  | zero =>
    intro now ok memory_eq contents head bytes low high
    rw [Nat.le_antisymm low high] at bytes
    refine ⟨now.ring, ?_, by rw [contents, bytes], head⟩
    rw [writeLoop, ← bytes, ← memory_eq, ← ok]
  | succ rounds ih =>
    intro now ok memory_eq contents head bytes low high
    rw [writeLoop]
    split
    · rename_i all
      rw [Nat.le_antisymm low all] at bytes
      refine ⟨now.ring, ?_, by rw [contents, bytes], head⟩
      rw [← bytes, ← memory_eq, ← ok]
    rename_i more
    have inside : now.ring.tail pipeCap < pipeCap := Nat.mod_lt _ (by decide)
    have small := chunkAt_le (now.ring.tail pipeCap) (target - now.bytes.length)
    have some_bytes := chunkAt_pos inside (Nat.sub_pos_of_lt (Nat.lt_of_not_le more))
    have run := chunkAt_run (target - now.bytes.length) inside
    generalize chunkAt (now.ring.tail pipeCap) (target - now.bytes.length) = chunk at *
    have part : memory.Ready mm (buf + now.bytes.length) chunk .read := ready.part (by omega)
    dsimp only
    rw [memory_eq, UserMemory.vmmCopyFromUser,
      if_pos (UserMemory.accessible_of_ready part (by omega))]
    have len : now.ring.len = start.len + now.bytes.length := by
      have := congrArg length contents
      simpa using this
    have piece_length : (userBytes memory mm (buf + now.bytes.length) chunk).length = chunk := by
      simp [userBytes]
    have next := ih { now with
        ring := now.ring.put pipeCap (userBytes memory mm (buf + now.bytes.length) chunk)
        bytes := now.bytes ++ userBytes memory mm (buf + now.bytes.length) chunk }
      ok memory_eq
      (by rw [RingBuffer.contents_put (by omega) (by omega), contents, append_assoc])
      head
      (by
        rw [length_append, piece_length, userBytes_add, ← bytes])
      (by rw [length_append, piece_length]; omega)
      (by rw [length_append, piece_length]; omega)
    rw [memory_eq] at next
    exact next

/-- Into a writable buffer the loop moves `target` bytes from the front of the ring. -/
theorem readLoop_spec {mm buf : Nat}
    (enough : target ≤ start.len) (last : buf + target - 1 < 2 ^ 64) (rounds : Nat) : ∀ now : Moved,
    now.ok → now.memory.Ready mm buf target .write →
    start.contents pipeCap = now.bytes ++ now.ring.contents pipeCap → now.ring.head < pipeCap →
    now.bytes.length ≤ target → target ≤ now.bytes.length + rounds →
    ∃ ring memory bytes, readLoop mm buf target rounds now = ⟨true, ring, memory, bytes⟩ ∧
      start.contents pipeCap = bytes ++ ring.contents pipeCap ∧ bytes.length = target ∧
      ring.head < pipeCap := by
  induction rounds with
  | zero =>
    intro now ok ready contents head low high
    refine ⟨now.ring, now.memory, now.bytes, ?_, contents, by omega, head⟩
    rw [readLoop, ← ok]
  | succ rounds ih =>
    intro now ok ready contents head low high
    rw [readLoop]
    split
    · refine ⟨now.ring, now.memory, now.bytes, ?_, contents, by omega, head⟩
      rw [← ok]
    rename_i more
    have small := chunkAt_le now.ring.head (target - now.bytes.length)
    have some_bytes := chunkAt_pos head (Nat.sub_pos_of_lt (Nat.lt_of_not_le more))
    have run := chunkAt_run (target - now.bytes.length) head
    generalize chunkAt now.ring.head (target - now.bytes.length) = chunk at *
    have len : start.len = now.bytes.length + now.ring.len := by
      have := congrArg length contents
      simpa using this
    have part : now.memory.Ready mm (buf + now.bytes.length) (now.ring.front chunk).length
        .write := by
      rw [RingBuffer.length_front]
      exact ready.part (by omega)
    obtain ⟨copied, keeps⟩ := UserMemory.copyTo_of_ready part
      (by rw [RingBuffer.length_front]; omega)
    rw [if_pos copied]
    apply ih
    · exact ok
    · exact ready.keeps keeps
    · rw [contents, RingBuffer.contents_drop (n := chunk) (by omega) run, append_assoc]
    · exact Nat.mod_lt _ (by decide)
    all_goals
      rw [length_append, RingBuffer.length_front]
      omega

/-! ## Steps on pipes -/

/-- A new record for another pipe says nothing about this one. -/
theorem Flowing.other (flowing : Flowing log id pipe)
    (accepted_eq : accepted id (event :: log) = accepted id log)
    (returned_eq : returned id (event :: log) = returned id log) :
    Flowing (event :: log) id pipe := by
  obtain ⟨stream, offsets, bounded, head⟩ := flowing
  exact ⟨by rw [accepted_eq, returned_eq, stream], offsets, bounded, head⟩

/-- A new pipe is an empty stream. -/
theorem flowing_fresh (log : List Event) (id fifoIno : Nat) :
    Flowing (.created id :: log) id (PipeObj.fresh fifoIno) := by
  constructor <;> simp [accepted, returned, PipeObj.fresh, RingBuffer.contents, pipeCap]

/-- A pipe found by its id is in its slot. -/
theorem pipes_of_pipeForId (found : s.pipeForId id = some pipe) : s.pipes id = some pipe := by
  unfold pipeForId at found
  split at found
  · exact found
  · cases found

section

variable (flows : Flows s)

include flows

/-- Counts may change without the stream noticing. -/
theorem Flows.setEnds {changed : PipeObj}
    (found : s.pipes id = some pipe) (ring : changed.ring = pipe.ring)
    (write : changed.writeOffset = pipe.writeOffset) (read : changed.readOffset = pipe.readOffset) :
    Flows (s.setPipe id (some changed)) := by
  refine ⟨fun other live found_other => ?_, flows.whole⟩
  rcases found_setPipe found_other with ⟨rfl, here⟩ | ⟨_, old⟩
  · obtain rfl : changed = live := Option.some.inj here
    obtain ⟨stream, offsets, bounded, head⟩ := flows.pipes other pipe found
    exact ⟨by rw [ring]; exact stream, by rw [ring, write, read]; exact offsets,
      by rw [ring]; exact bounded, by rw [ring]; exact head⟩
  · exact flows.pipes other live old

/-- A slot is cleared. -/
theorem Flows.setNone (id : Nat) : Flows (s.setPipe id none) := by
  refine ⟨fun other live found => ?_, flows.whole⟩
  rcases found_setPipe found with ⟨_, here⟩ | ⟨_, old⟩
  · cases here
  · exact flows.pipes other live old

/-- A pipe is destroyed. -/
theorem Flows.destroy (id : Nat) : Flows (s.pipeDestroy id) := by
  unfold pipeDestroy
  split
  · exact flows
  · exact ⟨(flows.setNone id).pipes, flows.whole⟩

/-- A pipe is freed with its pages. -/
theorem Flows.free (id : Nat) : Flows (s.cellPipeFree id) := by
  unfold cellPipeFree
  split
  · exact flows.destroy id
  · exact flows

/-- A pipe written and recorded among the others. -/
theorem Flows.moved (here : Flowing (event :: s.log) id pipe) (whole : event.Whole)
    (others : ∀ other, other ≠ id → accepted other (event :: s.log) = accepted other s.log ∧
      returned other (event :: s.log) = returned other s.log) :
    Flows { s.setPipe id (some pipe) with log := event :: s.log } := by
  refine ⟨fun other live found => ?_, fun past member => ?_⟩
  · rcases found_setPipe (s := s) found with ⟨rfl, same⟩ | ⟨apart, old⟩
    · rw [← Option.some.inj same]
      exact here
    · exact (flows.pipes other live old).other (others other apart).1 (others other apart).2
  · rcases mem_cons.mp member with rfl | member
    · exact whole
    · exact flows.whole past member

/-- A new pipe is an empty stream, because its creation is on the record. -/
theorem Flows.alloc (fifoIno : Nat) : Flows (s.cellAllocPipeObj fifoIno).2 := by
  unfold cellAllocPipeObj
  split
  · exact flows
  rename_i id _
  split
  · exact flows
  have moved := flows.moved (flowing_fresh s.log id fifoIno) trivial
    (fun other apart => ⟨by rw [accepted, if_neg (Ne.symm apart)],
      by rw [returned, if_neg (Ne.symm apart)]⟩)
  exact ⟨moved.pipes, moved.whole⟩

/-- Readers have no part in the stream. -/
theorem Flows.addReader (id : Nat) : Flows (s.cellPipeAddReader id) := by
  unfold cellPipeAddReader
  split
  · exact flows
  · rename_i found
    exact flows.setEnds (pipes_of_pipeForId found) rfl rfl rfl

/-- Nor have writers. -/
theorem Flows.addWriter (id : Nat) : Flows (s.cellPipeAddWriter id) := by
  unfold cellPipeAddWriter
  split
  · exact flows
  · rename_i found
    exact flows.setEnds (pipes_of_pipeForId found) rfl rfl rfl

end

/-- The pipe stays with its new counts, or goes with its last end. -/
theorem Flows.putEnds (flows : Flows (s.setPipe id (some pipe))) : Flows (s.putEnds id pipe) := by
  unfold Machine.putEnds
  split
  · exact flows.destroy id
  · exact flows

/-- A reading end less. -/
theorem Flows.dropReader (flows : Flows s) (id : Nat) : Flows (s.cellPipeDropReader id) := by
  unfold cellPipeDropReader
  split
  · exact flows
  · rename_i found
    exact .putEnds (flows.setEnds (pipes_of_pipeForId found) rfl rfl rfl)

/-- A writing end less. -/
theorem Flows.dropWriter (flows : Flows s) (id : Nat) : Flows (s.cellPipeDropWriter id) := by
  unfold cellPipeDropWriter
  split
  · exact flows
  · rename_i found
    exact .putEnds (flows.setEnds (pipes_of_pipeForId found) rfl rfl rfl)

/-! ## Transfers -/

/-- Bytes appended to the ring and recorded as accepted. -/
theorem Flowing.wrote (flowing : Flowing log id pipe) (len : Nat)
    (contents : ring.contents pipeCap = pipe.ring.contents pipeCap ++ bytes)
    (head : ring.head = pipe.ring.head) (fits : pipe.ring.len + bytes.length ≤ pipeCap) :
    Flowing (.wrote id len bytes :: log) id
      { pipe with
        ring := ring, writeOffset := pipe.writeOffset + BitVec.ofNat 64 bytes.length } := by
  have longer : ring.len = pipe.ring.len + bytes.length := by
    have := congrArg length contents
    simpa using this
  obtain ⟨stream, offsets, bounded, inside⟩ := flowing
  constructor
  · rw [accepted, if_pos rfl, returned, ← stream, append_assoc, ← contents]
  · have room : pipe.ring.len + bytes.length < 2 ^ 64 := Nat.lt_of_le_of_lt fits (by decide)
    have sum : pipe.writeOffset + BitVec.ofNat 64 bytes.length - pipe.readOffset =
        pipe.writeOffset - pipe.readOffset + BitVec.ofNat 64 bytes.length := by
      bv_omega
    rw [longer, sum, BitVec.toNat_add, ← offsets, BitVec.toNat_ofNat]
    omega
  · rw [longer]
    exact fits
  · rw [head]
    exact inside

/-- Bytes removed from the ring and recorded as returned. -/
theorem Flowing.returned (flowing : Flowing log id pipe)
    (contents : pipe.ring.contents pipeCap = bytes ++ ring.contents pipeCap)
    (head : ring.head < pipeCap) :
    Flowing (.returned id bytes :: log) id
      { pipe with
        ring := ring, readOffset := pipe.readOffset + BitVec.ofNat 64 bytes.length } := by
  have shorter : pipe.ring.len = bytes.length + ring.len := by
    have := congrArg length contents
    simpa using this
  obtain ⟨stream, offsets, bounded, _⟩ := flowing
  have small : bytes.length < 2 ^ 64 := by
    omega
  constructor
  · rw [accepted, Ipc.returned, if_pos rfl, ← stream, contents, append_assoc]
  · dsimp only
    have bytes_eq : (BitVec.ofNat 64 bytes.length).toNat = bytes.length := by
      rw [BitVec.toNat_ofNat, Nat.mod_eq_of_lt small]
    have difference : pipe.writeOffset - (pipe.readOffset + BitVec.ofNat 64 bytes.length) =
        pipe.writeOffset - pipe.readOffset - BitVec.ofNat 64 bytes.length := by
      bv_omega
    rw [difference, BitVec.toNat_sub, ← offsets, bytes_eq]
    omega
  · dsimp only
    omega
  · exact head

/-- The state after a write was accepted, before anybody is woken. -/
def accepts (s : Machine) (memory : UserMemory) (id len : Nat) (pipe : PipeObj)
    (ring : RingBuffer UInt8) (bytes : List UInt8) : Machine :=
  { s.setPipe id (some
      { pipe with
        ring := ring
        writeOffset := pipe.writeOffset + BitVec.ofNat 64 bytes.length }) with
    memory := memory
    log := .wrote id len bytes :: s.log }

/-- The state after a read returned bytes, before anybody is woken. -/
def returns (s : Machine) (memory : UserMemory) (id : Nat) (pipe : PipeObj)
    (ring : RingBuffer UInt8) (bytes : List UInt8) : Machine :=
  { s.setPipe id (some
      { pipe with
        ring := ring
        readOffset := pipe.readOffset + BitVec.ofNat 64 bytes.length }) with
    memory := memory
    log := .returned id bytes :: s.log }

/-- A write has no room: the buffer is full, or too full for a write that must not be split. -/
def NoRoom (pipe : PipeObj) (len : Nat) : Prop :=
  pipeCap - pipe.ring.len = 0 ∨ len ≤ pipeBuf ∧ pipeCap - pipe.ring.len < len

/-- All that a write can do. -/
inductive WriteOutcome (notify : Machine → Machine) (s : Machine) (id len : Nat) :
    Int × Machine → Prop where
  | nothing (empty : len = 0) : WriteOutcome notify s id len (0, s)
  | gone (found : s.pipeForId id = none) : WriteOutcome notify s id len (-eBadf, s)
  | broken (pipe : PipeObj) (found : s.pipeForId id = some pipe) (readers : pipe.readers = 0) :
    WriteOutcome notify s id len (-ePipe, s)
  | full (pipe : PipeObj) (found : s.pipeForId id = some pipe) (readers : pipe.readers ≠ 0)
    (bytes : len ≠ 0) (full : NoRoom pipe len) : WriteOutcome notify s id len (-eAgain, s)
  | fault (pipe : PipeObj) (memory : UserMemory) (found : s.pipeForId id = some pipe)
    (room : ¬ NoRoom pipe len) :
    WriteOutcome notify s id len (-eFault, { s with memory := memory })
  | moved (pipe : PipeObj) (memory : UserMemory) (ring : RingBuffer UInt8) (bytes : List UInt8)
    (found : s.pipeForId id = some pipe) (room : ¬ NoRoom pipe len)
    (contents : ring.contents pipeCap = pipe.ring.contents pipeCap ++ bytes)
    (head : ring.head = pipe.ring.head)
    (length : bytes.length = min len (pipeCap - pipe.ring.len)) (some_bytes : bytes.length ≠ 0) :
    WriteOutcome notify s id len (bytes.length, notify (accepts s memory id len pipe ring bytes))

/-- A read of an empty pipe blocks: there is a writer, or it is a FIFO that never had one. -/
def NoEnd (pipe : PipeObj) : Prop :=
  ¬ (pipe.writers = 0 ∧ (pipe.fifoIno = 0 ∨ pipe.hadWriter = true))

/-- All that a read can do. -/
inductive ReadOutcome (notify : Machine → Machine) (s : Machine) (id len : Nat) :
    Int × Machine → Prop where
  | nothing (empty : len = 0) : ReadOutcome notify s id len (0, s)
  | gone (found : s.pipeForId id = none) : ReadOutcome notify s id len (-eBadf, s)
  | atEnd (pipe : PipeObj) (found : s.pipeForId id = some pipe) (at_end : ¬ NoEnd pipe) :
    ReadOutcome notify s id len (0, s)
  | empty (pipe : PipeObj) (found : s.pipeForId id = some pipe) (some_bytes : len ≠ 0)
    (empty : pipe.ring.len = 0) (no_end : NoEnd pipe) :
    ReadOutcome notify s id len (-eAgain, s)
  | fault (pipe : PipeObj) (memory : UserMemory) (found : s.pipeForId id = some pipe)
    (filled : pipe.ring.len ≠ 0) :
    ReadOutcome notify s id len (-eFault, { s with memory := memory })
  | moved (pipe : PipeObj) (memory : UserMemory) (ring : RingBuffer UInt8) (bytes : List UInt8)
    (found : s.pipeForId id = some pipe) (filled : pipe.ring.len ≠ 0)
    (contents : pipe.ring.contents pipeCap = bytes ++ ring.contents pipeCap)
    (head : ring.head < pipeCap) (length : bytes.length = min len pipe.ring.len)
    (some_bytes : bytes.length ≠ 0) :
    ReadOutcome notify s id len (bytes.length, notify (returns s memory id pipe ring bytes))

/-- Either the buffer cannot be read, or as much as fits is accepted: a copy never fails after
the range was ensured. -/
theorem acceptBytes_cases (domain id buf len : Nat) (pipe : PipeObj) (some_bytes : len ≠ 0)
    (room : pipeCap - pipe.ring.len ≠ 0) :
    (∃ memory, s.acceptBytes domain id buf len pipe =
      (.error (-eFault), { s with memory := memory })) ∨
    ∃ memory ring bytes, s.acceptBytes domain id buf len pipe =
        (.ok bytes, accepts s memory id len pipe ring bytes) ∧
      ring.contents pipeCap = pipe.ring.contents pipeCap ++ bytes ∧
      ring.head = pipe.ring.head ∧ bytes.length = min len (pipeCap - pipe.ring.len) := by
  have target : min len (pipeCap - pipe.ring.len) ≠ 0 := by omega
  have fits : pipe.ring.len + min len (pipeCap - pipe.ring.len) ≤ pipeCap := by omega
  unfold acceptBytes
  generalize min len (pipeCap - pipe.ring.len) = target_len at *
  dsimp only
  cases good : (s.memory.cellDomainEnsureUserRange domain buf target_len .read).1 with
  | false => exact .inl ⟨_, by rfl⟩
  | true =>
    obtain ⟨mm, space, last, ready⟩ := UserMemory.ensure_ready target good
    rw [if_neg (by decide), UserMemory.keeps_ensure.spaces, space]
    obtain ⟨ring, moved, contents, head⟩ := writeLoop_spec ready fits last target_len
      ⟨true, pipe.ring, _, []⟩ rfl rfl (by simp) rfl (by rfl) (by simp) (by simp)
    have length : (userBytes (s.memory.cellDomainEnsureUserRange domain buf target_len .read).2 mm
        buf target_len).length = target_len := by simp [userBytes]
    dsimp only
    rw [moved, if_neg (by simp), if_neg (by rw [length]; exact target)]
    exact .inr ⟨_, ring, _, by rfl, contents, head, length⟩

/-- Either the buffer cannot be written, or as much as asked for is returned. -/
theorem returnBytes_cases (domain id buf len : Nat) (pipe : PipeObj) (some_bytes : len ≠ 0)
    (filled : pipe.ring.len ≠ 0) (inside : pipe.ring.head < pipeCap) :
    (∃ memory, s.returnBytes domain id buf len pipe =
      (.error (-eFault), { s with memory := memory })) ∨
    ∃ memory ring bytes, s.returnBytes domain id buf len pipe =
        (.ok bytes, returns s memory id pipe ring bytes) ∧
      pipe.ring.contents pipeCap = bytes ++ ring.contents pipeCap ∧
      ring.head < pipeCap ∧ bytes.length = min len pipe.ring.len := by
  have target : min len pipe.ring.len ≠ 0 := by omega
  have enough : min len pipe.ring.len ≤ pipe.ring.len := Nat.min_le_right _ _
  unfold returnBytes
  generalize min len pipe.ring.len = target_len at *
  dsimp only
  cases good : (s.memory.cellDomainEnsureUserRange domain buf target_len .write).1 with
  | false => exact .inl ⟨_, by rfl⟩
  | true =>
    obtain ⟨mm, space, last, ready⟩ := UserMemory.ensure_ready target good
    rw [if_neg (by decide), UserMemory.keeps_ensure.spaces, space]
    obtain ⟨ring, memory, bytes, moved, contents, length, head⟩ := readLoop_spec enough last
      target_len ⟨true, pipe.ring, _, []⟩ rfl ready (by simp) inside (by simp) (by simp)
    dsimp only
    rw [moved, if_neg (by simp)]
    exact .inr ⟨_, ring, _, by rfl, contents, head, length⟩

/-- A write does one of the things listed. -/
theorem writeIdWith_outcome (notify : Machine → Machine) (domain id buf len : Nat) :
    WriteOutcome notify s id len (writeIdWith notify s domain id buf len) := by
  unfold writeIdWith
  split
  · rename_i empty
    exact .nothing empty
  rename_i some_bytes
  split
  · rename_i found
    exact .gone found
  rename_i pipe found
  split
  · rename_i readers
    exact .broken pipe found readers
  rename_i readers
  split
  · rename_i full
    exact .full pipe found readers some_bytes full
  rename_i room
  have space : pipeCap - pipe.ring.len ≠ 0 := fun none => room (.inl none)
  rcases acceptBytes_cases (s := s) domain id buf len pipe some_bytes space with
    ⟨memory, fault⟩ | ⟨memory, ring, bytes, moved, contents, head, length⟩
  · rw [fault]
    exact .fault pipe memory found room
  · rw [moved]
    exact .moved pipe memory ring bytes found room contents head length (by omega)

/-- A read of a pipe whose head is in range does one of the things listed. -/
theorem readIdWith_outcome (notify : Machine → Machine) (domain id buf len : Nat)
    (inside : ∀ pipe, s.pipeForId id = some pipe → pipe.ring.head < pipeCap) :
    ReadOutcome notify s id len (readIdWith notify s domain id buf len) := by
  unfold readIdWith
  split
  · rename_i empty
    exact .nothing empty
  rename_i some_bytes
  split
  · rename_i found
    exact .gone found
  rename_i pipe found
  split
  · rename_i nothing
    have empty : pipe.ring.len = 0 := by omega
    split
    · rename_i at_end
      exact .atEnd pipe found (fun no_end => no_end at_end)
    · rename_i no_end
      exact .empty pipe found some_bytes empty no_end
  · rename_i something
    have filled : pipe.ring.len ≠ 0 := by omega
    rcases returnBytes_cases (s := s) domain id buf len pipe some_bytes filled
      (inside pipe found) with
      ⟨memory, fault⟩ | ⟨memory, ring, bytes, moved, contents, head, length⟩
    · rw [fault]
      exact .fault pipe memory found filled
    · rw [moved]
      exact .moved pipe memory ring bytes found filled contents head length (by omega)

section

variable (flows : Flows s) (memory : UserMemory)

include flows memory

/-- A write appends to the stream what the record says it accepted. -/
theorem Flows.accepts {len : Nat} (found : s.pipeForId id = some pipe) (room : ¬ NoRoom pipe len)
    (contents : ring.contents pipeCap = pipe.ring.contents pipeCap ++ bytes)
    (head : ring.head = pipe.ring.head)
    (length : bytes.length = min len (pipeCap - pipe.ring.len)) :
    Flows (accepts s memory id len pipe ring bytes) := by
  have flowing := flows.pipes id pipe (pipes_of_pipeForId found)
  have bounded := flowing.bounded
  have whole : (Event.wrote id len bytes).Whole := by
    intro small
    have fits : ¬ pipeCap - pipe.ring.len < len := fun short => room (.inr ⟨small, short⟩)
    omega
  have moved := flows.moved (flowing.wrote len contents head (by omega)) whole
    (fun other apart => ⟨by rw [accepted, if_neg (Ne.symm apart)], by rw [returned]⟩)
  exact ⟨moved.pipes, moved.whole⟩

/-- A read takes from the head of the stream what the record says it returned. -/
theorem Flows.returns (found : s.pipeForId id = some pipe)
    (contents : pipe.ring.contents pipeCap = bytes ++ ring.contents pipeCap)
    (head : ring.head < pipeCap) : Flows (returns s memory id pipe ring bytes) := by
  have flowing := flows.pipes id pipe (pipes_of_pipeForId found)
  have moved := flows.moved (flowing.returned contents head) trivial
    (fun other apart => ⟨by rw [accepted], by rw [returned, if_neg (Ne.symm apart)]⟩)
  exact ⟨moved.pipes, moved.whole⟩

/-- User memory is outside the pipes. -/
theorem Flows.remap : Flows { s with memory := memory } := ⟨flows.pipes, flows.whole⟩

end

/-- The head of a stream lies in its buffer. -/
theorem Flows.head_lt (flows : Flows s) (id : Nat) :
    ∀ pipe, s.pipeForId id = some pipe → pipe.ring.head < pipeCap :=
  fun pipe found => (flows.pipes id pipe (pipes_of_pipeForId found)).head

section Notify

variable {notify : Machine → Machine} (kept : ∀ s, Flows s → Flows (notify s))

include kept

section

variable (flows : Flows s)

include flows

/-- A write to a pipe, with a waking that keeps streams. -/
theorem Flows.writeId (id : Nat) : Flows (writeIdWith notify s domain id buf len).2 := by
  have outcome := writeIdWith_outcome (s := s) notify domain id buf len
  generalize writeIdWith notify s domain id buf len = out at outcome
  cases outcome with
  | nothing | gone | broken | full => exact flows
  | fault _ memory => exact flows.remap memory
  | moved pipe memory ring bytes found room contents head length =>
    exact kept _ (flows.accepts memory found room contents head length)

/-- A read of a pipe, with such a waking. -/
theorem Flows.readId (id : Nat) : Flows (readIdWith notify s domain id buf len).2 := by
  have outcome := readIdWith_outcome (s := s) notify domain id buf len (flows.head_lt id)
  generalize readIdWith notify s domain id buf len = out at outcome
  cases outcome with
  | nothing | gone | atEnd | empty => exact flows
  | fault _ memory => exact flows.remap memory
  | moved pipe memory ring bytes found _ contents head =>
    exact kept _ (flows.returns memory found contents head)

/-- A write to the end of a pipe or of a socket. -/
theorem Flows.writeFile (domain : Nat) (file : OpenFile) (buf len : Nat) :
    Flows (writeFileWith notify s domain file buf len).2 := by
  unfold writeFileWith
  split
  · exact flows
  · exact flows.writeId kept file.pipeId

/-- A read of the end of a pipe or of a socket. -/
theorem Flows.readFile (file : OpenFile) : Flows (readFileWith notify s domain file buf len).2 := by
  unfold readFileWith
  split
  · exact flows
  · exact flows.readId kept file.pipeId

end

end Notify

section

variable (flows : Flows s)

include flows

/-- The operation of a waiter is tried again. -/
theorem Flows.retry (domain : Nat) (t : Proc.Thread) : Flows (s.retry domain t).2 := by
  have quiet : ∀ s, Flows s → Flows (id s) := fun _ flows => flows
  unfold Machine.retry
  split
  · exact flows
  dsimp only
  split
  · split
    · exact flows.writeId quiet _
    · exact flows.readId quiet _
  · split
    · exact flows.writeFile quiet _ _ _ _
    · exact flows.readFile quiet _

/-- Threads hold no bytes. -/
theorem Flows.setThread (thread : Nat) (t : Proc.Thread) :
    Flows (s.setThread thread t) := ⟨flows.pipes, flows.whole⟩

/-- One thread is looked at, and its operation completed. -/
theorem Flows.wakeStep (thread : Nat) : Flows (s.wakeStep thread) := by
  unfold Machine.wakeStep
  split
  · exact flows
  split
  · dsimp only
    split
    · exact flows.retry _ _
    · exact (flows.retry _ _).setThread _ _
  · exact flows

/-- A pass over all waiters keeps every stream. -/
theorem Flows.notify : Flows (cellPipeNotify cfg s) :=
  foldlRecOn _ _ flows fun _ flows thread _ => flows.wakeStep thread

/-! ## Calls -/

/-- Open files hold no bytes. -/
theorem Flows.setFile (f : Nat) (file : OpenFile) : Flows (s.setFile f file) :=
  ⟨flows.pipes, flows.whole⟩

/-- Descriptors hold no bytes. -/
theorem Flows.setFd (domain fd : Nat) (file : Option Nat) :
    Flows (s.setFd domain fd file) := ⟨flows.pipes, flows.whole⟩

/-- Connections that wait hold no bytes. -/
theorem Flows.setPending (slot : Nat) (conn : Option PendingConn) :
    Flows (s.setPending slot conn) := ⟨flows.pipes, flows.whole⟩

/-- The waiters on a socket are woken. -/
theorem Flows.wakeFile : Flows (cellSocketWakeFile cfg s f) := by
  refine foldlRecOn _ _ flows fun s flows thread _ => ?_
  unfold wakeSocketStep
  split
  · exact flows
  · split
    · exact flows.setThread _ _
    · exact flows

/-- An end of a pipe is given up. -/
theorem Flows.releasePipe (file : OpenFile) : Flows (s.cellPipeReleaseFile cfg file) := by
  unfold cellPipeReleaseFile
  split
  · exact flows
  apply Flows.notify
  split
  · exact flows.dropWriter _
  · exact flows.dropReader _

end

section Release

variable {release : Machine → Nat → Machine} (kept : ∀ s f, Flows s → Flows (release s f))

include kept

/-- The connections that wait at a listener are released. -/
theorem Flows.releaseListener (flows : Flows s) :
    Flows (cellSocketReleaseListener release s listener) := by
  refine foldlRecOn _ _ flows fun s flows slot _ => ?_
  unfold releasePendingStep
  split
  · exact flows
  · split
    · exact (kept _ _ flows).setPending _ _
    · exact flows

/-- The ends of a file are given up. -/
theorem Flows.releaseEnds (flows : Flows s) (f : Nat) :
    Flows (Machine.releaseEnds cfg release s f) := by
  unfold Machine.releaseEnds
  dsimp only
  split
  · exact flows.releasePipe _
  · split
    · exact ((flows.dropReader _).dropWriter _).notify.wakeFile
    · exact flows
  · exact flows.releaseListener kept
  · exact flows

/-- One level of a release. -/
theorem Flows.releaseFile (flows : Flows s) (f : Nat) :
    Flows (releaseOpenFile cfg release s f) := by
  unfold releaseOpenFile
  split
  · exact flows
  · split
    · exact flows.setFile _ _
    · exact ((flows.setFile _ _).releaseEnds kept f).setFile _ _

end Release

section

variable (flows : Flows s)

include flows

/-- `cell_release_open_file`. -/
theorem Flows.release (f : Nat) : Flows (s.cellReleaseOpenFile cfg f) :=
  flows.releaseFile (fun _ f flows => flows.releaseFile (fun _ _ flows => flows) f) f

/-- There may be no file to release. -/
theorem Flows.releaseOptional (f : Option Nat) : Flows (s.releaseOptional cfg f) := by
  cases f with
  | none => exact flows
  | some f => exact flows.release f

/-- A reference more. -/
theorem Flows.retain (f : Option Nat) : Flows (s.cellRetainOpenFile f) := by
  cases f with
  | none => exact flows
  | some f => exact flows.setFile _ _

/-- The pipe of a FIFO is found or made. -/
theorem Flows.fifo (ino : Nat) : Flows (s.cellFifoPipeForIno ino).2 := by
  unfold cellFifoPipeForIno
  split
  · exact flows
  · split
    · exact flows
    · exact flows.alloc ino

end

section

variable (flows : Flows s)

include flows

/-- Two numbers are stored for the user. -/
theorem Flows.storeFds (domain addr first second : Nat) :
    Flows (s.storeFds domain addr first second).2 := by
  unfold Machine.storeFds
  split
  · exact flows
  · exact flows.remap _

/-- The two pipes of a connection. -/
theorem Flows.allocTwoPipes : Flows s.allocTwoPipes.2 := by
  unfold Machine.allocTwoPipes
  have second := (flows.alloc 0).alloc 0
  dsimp only
  split
  · exact second
  · exact second.free _
  · exact second.free _
  · exact second

/-- Both ends of both pipes are counted. -/
theorem Flows.addEnds (first second : Nat) : Flows (s.addEnds first second) :=
  (((flows.addReader first).addWriter first).addReader second).addWriter second

/-- Two sockets are joined by two pipes. -/
theorem Flows.pairEnds (a b a2b b2a : Nat) (nonblock : Bool) :
    Flows (s.pairEnds a b a2b b2a nonblock) := by
  have ends := flows.addEnds a2b b2a
  exact ⟨ends.pipes, ends.whole⟩

/-- A client is joined with a server end. -/
theorem Flows.joinEnds (client server c2s s2c : Nat) (path : String) :
    Flows (s.joinEnds client server c2s s2c path) := by
  have ends := flows.addEnds c2s s2c
  exact ⟨ends.pipes, ends.whole⟩

end

/-! ## The stream property -/

/-- What a pipe's user can rely on. -/
structure Stream (s : Machine) : Prop where
  /-- Reads have returned, and the buffer holds, exactly what writes put in, in order. -/
  bytes : ∀ id pipe, s.pipes id = some pipe →
    returned id s.log ++ pipe.ring.contents pipeCap = accepted id s.log
  /-- `len` is `write_offset - read_offset`, and at most `PIPE_CAP`. -/
  length : ∀ id pipe, s.pipes id = some pipe →
    pipe.ring.len = (pipe.writeOffset - pipe.readOffset).toNat ∧ pipe.ring.len ≤ pipeCap
  /-- A write of at most `PIPE_BUF` bytes that was accepted was accepted whole. -/
  whole : ∀ id len bytes, Event.wrote id len bytes ∈ s.log → len ≤ pipeBuf → bytes.length = len

/-- What the record says of the pipes, as it is claimed of them. -/
theorem Flows.toStream (flows : Flows s) : Stream s where
  bytes id pipe found := (flows.pipes id pipe found).stream
  length id pipe found := ⟨(flows.pipes id pipe found).offsets, (flows.pipes id pipe found).bounded⟩
  whole _ _ _ member := flows.whole _ member

end Spore.Ipc
