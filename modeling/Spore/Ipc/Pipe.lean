import Spore.Proc.Kernel
import Spore.Ipc.UserMemory
import Spore.Lib.Ring

/-!
# Pipes and the threads that wait on them (`proc/pipe.c`)

Pipe objects, the open files and descriptor tables that refer to them, and the threads. A
pointer into a table is an index of it. The machine also keeps a record of the bytes that moved
through pipes and numbers the connections of sockets; no function reads either.
-/

namespace Spore.Ipc

open Spore.Lib Function

/-- `EBADF`. -/
def eBadf : Int := 9

/-- `EAGAIN`. -/
def eAgain : Int := 11

/-- `EFAULT`. -/
def eFault : Int := 14

/-- `EPIPE`. -/
def ePipe : Int := 32

/-- `PIPE_BUF`: a write of so many bytes is accepted whole. -/
def pipeBuf : Nat := 4096

/-- `PIPE_CAP`, the size of the buffer. -/
def pipeCap : Nat := 65536

/-- The pages of the buffer. -/
def pipePages : Nat := pipeCap / pageSize

/-- Number of slots of `pipes`. -/
def pipeSlots : Nat := 16

/-- The descriptors of a domain. -/
def maxFds : Nat := 64

/-- Number of slots of `unix_pending`. -/
def unixPendingSlots : Nat := 16

/-- `struct pipe_obj` of a slot in use. A slot that is not in use is zeroed. -/
structure PipeObj where
  /-- Whether it ever had a writer. -/
  hadWriter : Bool
  /-- The open reading ends. -/
  readers : Nat
  /-- The open writing ends. -/
  writers : Nat
  /-- The inode of a FIFO. -/
  fifoIno : Nat
  /-- `pages`, `head` and `len`. -/
  ring : RingBuffer UInt8
  /-- The bytes read so far. -/
  readOffset : BitVec 64
  /-- The bytes written so far. -/
  writeOffset : BitVec 64

/-- What `cell_alloc_pipe_obj` puts in a slot. -/
def PipeObj.fresh (fifoIno : Nat) : PipeObj where
  hadWriter := fifoIno == 0
  readers := 0
  writers := 0
  fifoIno := fifoIno
  ring := ⟨fun _ => 0, 0, 0⟩
  readOffset := 0
  writeOffset := 0

/-- `enum open_file_type`; the types that the code below does not tell apart are one. -/
inductive OpenFileType where
  | pipe
  | unixStream
  | unixListener
  | other
  deriving Repr, DecidableEq

/-- `struct open_file`. -/
structure OpenFile where
  /-- Whether the slot is taken. -/
  used : Bool
  /-- The references to it. -/
  refcount : Nat
  /-- What it is. -/
  type : OpenFileType
  /-- `flags & CELL_O_NONBLOCK`. -/
  nonblock : Bool
  /-- The pipe of an end. -/
  pipeId : Nat
  /-- Which end it is. -/
  pipeWriteEnd : Bool
  /-- Whether a socket has a peer. -/
  unixConnected : Bool
  /-- The pipe it reads. -/
  unixRxPipe : Nat
  /-- The pipe it writes. -/
  unixTxPipe : Nat
  /-- The bound path. -/
  unixPath : String
  /-- The connect or socketpair call that made the end. -/
  channel : Nat
  deriving Repr, DecidableEq

/-- The zeroed slot. -/
def OpenFile.zero : OpenFile := ⟨false, 0, .other, false, 0, false, false, 0, 0, "", 0⟩

/-- `struct domain`, as far as descriptors go. -/
structure Domain where
  /-- Whether the slot is taken. -/
  used : Bool
  /-- The open file of each descriptor. -/
  fds : Nat → Option Nat

/-- `struct unix_pending_conn` of a slot in use. -/
structure PendingConn where
  /-- The listening file. -/
  listener : Nat
  /-- The end that is to be accepted. -/
  serverEnd : Nat
  deriving Repr, DecidableEq

/-- Bytes that moved through a pipe. -/
inductive Event where
  /-- The slot became a pipe. -/
  | created (pipe : Nat)
  /-- A write of `len` bytes was accepted as far as `bytes`. -/
  | wrote (pipe len : Nat) (bytes : List UInt8)
  /-- A read returned `bytes`. -/
  | returned (pipe : Nat) (bytes : List UInt8)
  deriving Repr, DecidableEq

/-- Sizes of the tables that are allocated when the kernel starts. -/
structure Config where
  /-- `cell_open_file_capacity`. -/
  openFiles : Nat
  /-- `cell_domain_capacity`. -/
  domains : Nat
  /-- `cell_thread_capacity`. -/
  threads : Nat

/-- The state. -/
structure Machine where
  /-- The pipes. -/
  pipes : Nat → Option PipeObj
  /-- The open files. -/
  files : Nat → OpenFile
  /-- The domains. -/
  domains : Nat → Domain
  /-- The threads. -/
  threads : Nat → Proc.Thread
  /-- Connections to accept. -/
  pending : Nat → Option PendingConn
  /-- The memory of the programs. -/
  memory : UserMemory
  /-- Pages that the allocator can still give. -/
  freePages : Nat
  /-- Record of the bytes moved, newest first. -/
  log : List Event
  /-- Number of connections made so far. -/
  channels : Nat

namespace Machine

/-- Write a pipe slot. -/
def setPipe (s : Machine) (id : Nat) (pipe : Option PipeObj) : Machine :=
  { s with pipes := Function.update s.pipes id pipe }

/-- Write an open file. -/
def setFile (s : Machine) (file : Nat) (value : OpenFile) : Machine :=
  { s with files := Function.update s.files file value }

/-- Write a thread. -/
def setThread (s : Machine) (thread : Nat) (value : Proc.Thread) : Machine :=
  { s with threads := Function.update s.threads thread value }

/-- `domain->fds[fd] = file`. -/
def setFd (s : Machine) (domain fd : Nat) (file : Option Nat) : Machine :=
  { s with
    domains := Function.update s.domains domain
      { (s.domains domain) with fds := Function.update (s.domains domain).fds fd file } }

/-- Write a slot of the pending table. -/
def setPending (s : Machine) (slot : Nat) (conn : Option PendingConn) : Machine :=
  { s with pending := Function.update s.pending slot conn }

/-- One pipe is replaced. -/
@[simp] theorem setPipe_pipes (s : Machine) (id : Nat) (pipe : Option PipeObj) :
    (s.setPipe id pipe).pipes = update s.pipes id pipe := rfl

/-- One file is replaced. -/
@[simp] theorem setFile_files (s : Machine) (file : Nat) (value : OpenFile) :
    (s.setFile file value).files = update s.files file value := rfl

/-- One thread is replaced. -/
@[simp] theorem setThread_threads (s : Machine) (thread : Nat) (value : Proc.Thread) :
    (s.setThread thread value).threads = update s.threads thread value := rfl

/-- One waiting connection is replaced. -/
@[simp] theorem setPending_pending (s : Machine) (slot : Nat) (conn : Option PendingConn) :
    (s.setPending slot conn).pending = update s.pending slot conn := rfl

/-- A pipe found after a slot was written is the one written, or was there before. -/
theorem found_setPipe {s : Machine} {id other : Nat} {pipe : Option PipeObj} {live : PipeObj}
    (found : (s.setPipe id pipe).pipes other = some live) :
    other = id ∧ pipe = some live ∨ other ≠ id ∧ s.pipes other = some live := by
  rw [setPipe_pipes] at found
  by_cases same : other = id
  · rw [same, update_self] at found
    exact .inl ⟨same, found⟩
  · rw [update_of_ne same] at found
    exact .inr ⟨same, found⟩

/-- The file of a descriptor, when the descriptor is in range and open. -/
def fileAt (s : Machine) (domain : Nat) (fd : Int) : Option Nat :=
  if 0 ≤ fd ∧ fd < maxFds then (s.domains domain).fds fd.toNat else none

/-! ## Pipe objects -/

/-- The pipe object in a slot, if it is in use. -/
def pipeForId (s : Machine) (id : Nat) : Option PipeObj :=
  if id < pipeSlots then s.pipes id else none

/-- `pipe_destroy`; no descriptors travel through the sockets of this model. -/
def pipeDestroy (s : Machine) (id : Nat) : Machine :=
  match s.pipes id with
  | none => s
  | some _ => { s.setPipe id none with freePages := s.freePages + pipePages }

/-- `cell_alloc_pipe_obj`; none for -1. -/
def cellAllocPipeObj (s : Machine) (fifoIno : Nat) : Option Nat × Machine :=
  match (List.range pipeSlots).find? fun id => (s.pipes id).isNone with
  | none => (none, s)
  | some id =>
    -- `pipe_alloc_storage` frees what it got when it cannot get every page.
    if s.freePages < pipePages then (none, s)
    else
      (some id, { s.setPipe id (some (PipeObj.fresh fifoIno)) with
        freePages := s.freePages - pipePages
        log := .created id :: s.log })

/-- The pages and the object are given back. -/
def cellPipeFree (s : Machine) (id : Nat) : Machine :=
  if id < pipeSlots then s.pipeDestroy id else s

/-- `cell_fifo_pipe_for_ino` with `create` set. -/
def cellFifoPipeForIno (s : Machine) (ino : Nat) : Option Nat × Machine :=
  if ino = 0 then (none, s)
  else
    match (List.range pipeSlots).find? fun id =>
      (s.pipes id).any fun pipe => pipe.fifoIno == ino with
    | some id => (some id, s)
    | none => s.cellAllocPipeObj ino

/-- `readers` is incremented. -/
def cellPipeAddReader (s : Machine) (id : Nat) : Machine :=
  match s.pipeForId id with
  | none => s
  | some pipe => s.setPipe id (some { pipe with readers := pipe.readers + 1 })

/-- `writers` is incremented. -/
def cellPipeAddWriter (s : Machine) (id : Nat) : Machine :=
  match s.pipeForId id with
  | none => s
  | some pipe => s.setPipe id (some { pipe with writers := pipe.writers + 1, hadWriter := true })

/-- `if (pipe->readers == 0 && pipe->writers == 0) { pipe_destroy(pipe); }` after the counts of
a pipe have changed. -/
def putEnds (s : Machine) (id : Nat) (pipe : PipeObj) : Machine :=
  let s := s.setPipe id (some pipe)
  if pipe.readers = 0 ∧ pipe.writers = 0 then s.pipeDestroy id else s

/-- The last end takes the pipe along. -/
def cellPipeDropReader (s : Machine) (id : Nat) : Machine :=
  match s.pipeForId id with
  | none => s
  | some pipe => s.putEnds id { pipe with readers := pipe.readers - 1 }

/-- The last end takes the pipe along. -/
def cellPipeDropWriter (s : Machine) (id : Nat) : Machine :=
  match s.pipeForId id with
  | none => s
  | some pipe => s.putEnds id { pipe with writers := pipe.writers - 1 }

/-! ## Moving bytes -/

/-- Length of the next piece at a position of the ring: it stays in one page. -/
def chunkAt (pos rest : Nat) : Nat :=
  min (min (pipeCap - pos) (pageSize - pos % pageSize)) rest

/-- Where a copying loop has come to. -/
structure Moved where
  /-- No copy has failed. -/
  ok : Bool
  /-- The ring afterwards. -/
  ring : RingBuffer UInt8
  /-- The memory afterwards. -/
  memory : UserMemory
  /-- The bytes moved; `done` is their number. -/
  bytes : List UInt8

/-- The loop of `cell_pipe_write_id_from_domain`. Every round moves a byte, so `target` rounds
are enough. -/
def writeLoop (mm buf target : Nat) : (rounds : Nat) → Moved → Moved
  | 0, now => now
  | rounds + 1, now =>
    if target ≤ now.bytes.length then now
    else
      let chunk := chunkAt (now.ring.tail pipeCap) (target - now.bytes.length)
      match now.memory.vmmCopyFromUser mm (buf + now.bytes.length) chunk with
      | none => { now with ok := false }
      | some bytes =>
        writeLoop mm buf target rounds
          { now with ring := now.ring.put pipeCap bytes, bytes := now.bytes ++ bytes }

/-- The loop of `cell_pipe_read_id_to_domain`. -/
def readLoop (mm buf target : Nat) : (rounds : Nat) → Moved → Moved
  | 0, now => now
  | rounds + 1, now =>
    if target ≤ now.bytes.length then now
    else
      let chunk := chunkAt now.ring.head (target - now.bytes.length)
      let bytes := now.ring.front chunk
      let copied := now.memory.vmmCopyToUser mm (buf + now.bytes.length) bytes
      if copied.1 then
        readLoop mm buf target rounds
          { now with
            ring := now.ring.drop pipeCap chunk
            memory := copied.2
            bytes := now.bytes ++ bytes }
      else { now with ok := false, memory := copied.2 }

/-- What `cell_pipe_write_id_from_domain` does before it wakes anybody: the bytes accepted, or a
result without any. -/
def acceptBytes (s : Machine) (domain id buf len : Nat) (pipe : PipeObj) :
    Except Int (List UInt8) × Machine :=
  let target := min len (pipeCap - pipe.ring.len)
  let ensured := s.memory.cellDomainEnsureUserRange domain buf target .read
  let s := { s with memory := ensured.2 }
  if ensured.1 = false then (.error (-eFault), s)
  else
    match s.memory.mm domain with
    | none => (.error (-eFault), s)
    | some mm =>
      let moved := writeLoop mm buf target target ⟨true, pipe.ring, s.memory, []⟩
      let s := { s with memory := moved.memory }
      if moved.ok = false then
        (.error (-eFault), s.setPipe id (some { pipe with ring := moved.ring }))
      else if moved.bytes.length = 0 then
        (.error (-eAgain), s.setPipe id (some { pipe with ring := moved.ring }))
      else
        (.ok moved.bytes,
          { s.setPipe id (some
              { pipe with
                ring := moved.ring
                writeOffset := pipe.writeOffset + BitVec.ofNat 64 moved.bytes.length }) with
            log := .wrote id len moved.bytes :: s.log })

/-- `cell_pipe_write_id_from_domain`; `notify` stands for `cell_pipe_notify`, which does nothing
here while it is itself retrying calls (`pipe_waking`). -/
def writeIdWith (notify : Machine → Machine) (s : Machine) (domain id buf len : Nat) :
    Int × Machine :=
  if len = 0 then (0, s)
  else
    match s.pipeForId id with
    | none => (-eBadf, s)
    | some pipe =>
      if pipe.readers = 0 then (-ePipe, s)
      else if pipeCap - pipe.ring.len = 0 ∨ len ≤ pipeBuf ∧ pipeCap - pipe.ring.len < len then
        (-eAgain, s)
      else
        match s.acceptBytes domain id buf len pipe with
        | (.error result, s) => (result, s)
        | (.ok bytes, s) => (bytes.length, notify s)

/-- What `cell_pipe_read_id_to_domain` does before it wakes anybody. -/
def returnBytes (s : Machine) (domain id buf len : Nat) (pipe : PipeObj) :
    Except Int (List UInt8) × Machine :=
  let target := min len pipe.ring.len
  let ensured := s.memory.cellDomainEnsureUserRange domain buf target .write
  let s := { s with memory := ensured.2 }
  if ensured.1 = false then (.error (-eFault), s)
  else
    match s.memory.mm domain with
    | none => (.error (-eFault), s)
    | some mm =>
      let moved := readLoop mm buf target target ⟨true, pipe.ring, s.memory, []⟩
      let s := { s with memory := moved.memory }
      if moved.ok = false then
        (.error (-eFault), s.setPipe id (some { pipe with ring := moved.ring }))
      else
        (.ok moved.bytes,
          { s.setPipe id (some
              { pipe with
                ring := moved.ring
                readOffset := pipe.readOffset + BitVec.ofNat 64 moved.bytes.length }) with
            log := .returned id moved.bytes :: s.log })

/-- `cell_pipe_read_id_to_domain`. -/
def readIdWith (notify : Machine → Machine) (s : Machine) (domain id buf len : Nat) :
    Int × Machine :=
  if len = 0 then (0, s)
  else
    match s.pipeForId id with
    | none => (-eBadf, s)
    | some pipe =>
      if min len pipe.ring.len = 0 then
        (if pipe.writers = 0 ∧ (pipe.fifoIno = 0 ∨ pipe.hadWriter = true) then 0 else -eAgain, s)
      else
        match s.returnBytes domain id buf len pipe with
        | (.error result, s) => (result, s)
        | (.ok bytes, s) => (bytes.length, notify s)

/-- `cell_pipe_write_from_domain`. -/
def writeFileWith (notify : Machine → Machine) (s : Machine) (domain : Nat) (file : OpenFile)
    (buf len : Nat) : Int × Machine :=
  if file.type ≠ .pipe ∨ file.pipeWriteEnd = false then (-eBadf, s)
  else writeIdWith notify s domain file.pipeId buf len

/-- `cell_pipe_read_to_domain`. -/
def readFileWith (notify : Machine → Machine) (s : Machine) (domain : Nat) (file : OpenFile)
    (buf len : Nat) : Int × Machine :=
  if file.type ≠ .pipe ∨ file.pipeWriteEnd = true then (-eBadf, s)
  else readIdWith notify s domain file.pipeId buf len

/-! ## Threads that wait -/

/-- The thread is blocked in a pipe operation of the domain. -/
def WaitsOnPipe (t : Proc.Thread) (domain : Nat) : Prop :=
  t.state = .blocked ∧ t.waitReason = .pipe ∧ t.domain = some domain

instance (t : Proc.Thread) (domain : Nat) : Decidable (WaitsOnPipe t domain) :=
  inferInstanceAs (Decidable (_ ∧ _ ∧ _))

/-- The call that `wake_pipe_waiters` makes again for a thread. -/
def retry (s : Machine) (domain : Nat) (t : Proc.Thread) : Int × Machine :=
  match s.fileAt domain t.waitTarget with
  | none => (-eBadf, s)
  | some f =>
    let file := s.files f
    let buf := t.wait.pipeBuf.toNat
    let len := t.wait.pipeLen.toNat
    if file.type = .unixStream then
      if t.wait.pipeWrite then writeIdWith id s domain file.unixTxPipe buf len
      else readIdWith id s domain file.unixRxPipe buf len
    else if t.wait.pipeWrite then writeFileWith id s domain file buf len
    else readFileWith id s domain file buf len

/-- The fields of a wait on a pipe are cleared. -/
def clearPipeWait (t : Proc.Thread) : Proc.Thread :=
  { t with
    waitTarget := -1
    wait := { t.wait with
      pipeBuf := 0, pipeLen := 0, socketAddr := 0, socketAddrlen := 0, socketAcceptFlags := 0,
      socketWrite := false, socketMsg := false, socketMsgAddr := 0, socketIov := 0,
      socketIovlen := 0, socketFlags := 0, socketHasDeadline := false, socketDeadlineTick := 0,
      pipeWrite := false } }

/-- The thread after a retried call returned. -/
def wokenWith (t : Proc.Thread) (result : Int) : Proc.Thread :=
  clearPipeWait
    { t with
      tf := t.tf.setX Proc.regX0 (BitVec.ofInt 64 result), state := .runnable, waitReason := .none }

/-- One round of `wake_pipe_waiters`. -/
def wakeStep (s : Machine) (thread : Nat) : Machine :=
  match (s.threads thread).domain with
  | none => s
  | some domain =>
    if WaitsOnPipe (s.threads thread) domain then
      let tried := s.retry domain (s.threads thread)
      if tried.1 = -eAgain then tried.2
      else tried.2.setThread thread (wokenWith (s.threads thread) tried.1)
    else s

/-- Every thread in slot order; each may change the pipe for the next. -/
def wakePipeWaiters (cfg : Config) (s : Machine) : Machine :=
  (List.range cfg.threads).foldl wakeStep s

/-- `cell_pipe_notify`; threads that poll are not part of this model. -/
def cellPipeNotify (cfg : Config) (s : Machine) : Machine := s.wakePipeWaiters cfg

/-- `cell_pipe_write_id_from_domain` outside of a wakeup. -/
def cellPipeWriteIdFromDomain (cfg : Config) (s : Machine) (domain id buf len : Nat) :
    Int × Machine :=
  writeIdWith (cellPipeNotify cfg) s domain id buf len

/-- `cell_pipe_read_id_to_domain` outside of a wakeup. -/
def cellPipeReadIdToDomain (cfg : Config) (s : Machine) (domain id buf len : Nat) :
    Int × Machine :=
  readIdWith (cellPipeNotify cfg) s domain id buf len

/-- `cell_pipe_write_from_domain` outside of a wakeup. -/
def cellPipeWriteFromDomain (cfg : Config) (s : Machine) (domain : Nat) (file : OpenFile)
    (buf len : Nat) : Int × Machine :=
  writeFileWith (cellPipeNotify cfg) s domain file buf len

/-- `cell_pipe_read_to_domain` outside of a wakeup. -/
def cellPipeReadToDomain (cfg : Config) (s : Machine) (domain : Nat) (file : OpenFile)
    (buf len : Nat) : Int × Machine :=
  readFileWith (cellPipeNotify cfg) s domain file buf len

/-- `cell_pipe_release_file` of a pipe file whose pipe is live, the wakeup that follows
included. -/
def cellPipeReleaseFile (cfg : Config) (s : Machine) (file : OpenFile) : Machine :=
  match s.pipeForId file.pipeId with
  | none => s
  | some _ =>
    cellPipeNotify cfg
      (if file.pipeWriteEnd then s.cellPipeDropWriter file.pipeId
        else s.cellPipeDropReader file.pipeId)

end Machine

end Spore.Ipc
