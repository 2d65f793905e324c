import Spore.Ipc.Pipe

/-!
# Descriptor and Unix socket calls (`proc/fd.c`, `proc/io.c`, `proc/socket.c`)

The calls that make, use and release the ends of pipes, as far as pipes and Unix stream sockets
go. A call is made by a thread, its domain is the thread's. Flag words come as the flags the
code tests. What a call learns from another subsystem (whether a socket's path is taken, whether
the node can be made) is an argument.
-/

namespace Spore.Ipc

open Spore.Lib

namespace Machine

/-- What a call returns whose thread was switched away. -/
def cellSwitched : Int := -0x40000000

/-- `ENXIO`. -/
def eNxio : Int := 6

/-- `ENOMEM`. -/
def eNomem : Int := 12

/-- `EINVAL`. -/
def eInval : Int := 22

/-- `ENFILE`. -/
def eNfile : Int := 23

/-- `EMFILE`. -/
def eMfile : Int := 24

/-- `EADDRINUSE`. -/
def eAddrInUse : Int := 98

/-- `ENOTCONN`. -/
def eNotConn : Int := 107

/-- `ECONNREFUSED`. -/
def eConnRefused : Int := 111

/-! ## Open files -/

/-- The first free descriptor from a number on. -/
def cellFindFreeFd (s : Machine) (domain start : Nat) : Option Nat :=
  (List.range' start (maxFds - start)).find? fun fd => ((s.domains domain).fds fd).isNone

/-- The first file that is not in use, taken with one reference. -/
def cellAllocOpenFile (cfg : Config) (s : Machine) : Option Nat × Machine :=
  match (List.range cfg.openFiles).find? fun f => !(s.files f).used with
  | none => (none, s)
  | some f => (some f, s.setFile f { OpenFile.zero with used := true, refcount := 1 })

/-- `cell_retain_open_file`; nothing for no file. -/
def cellRetainOpenFile (s : Machine) : Option Nat → Machine
  | none => s
  -- The counter has 16 bits.
  | some f => s.setFile f { s.files f with refcount := ((s.files f).refcount + 1) % 2 ^ 16 }

/-- The thread after `wake_socket_waiters` made it runnable. -/
def clearSocketWait (t : Proc.Thread) : Proc.Thread :=
  { t with
    state := .runnable
    waitReason := .none
    waitTarget := -1
    wait := { t.wait with
      pipeBuf := 0, pipeLen := 0, socketAddr := 0, socketAddrlen := 0, socketAcceptFlags := 0,
      socketWrite := false, socketMsg := false, socketMsgAddr := 0, socketIov := 0,
      socketIovlen := 0, socketFlags := 0, socketHasDeadline := false, socketDeadlineTick := 0 } }

/-- The thread is blocked on a socket of the domain. -/
def WaitsOnSocket (t : Proc.Thread) (domain : Nat) : Prop :=
  t.state = .blocked ∧ t.waitReason = .socket ∧ t.domain = some domain

instance (t : Proc.Thread) (domain : Nat) : Decidable (WaitsOnSocket t domain) :=
  inferInstanceAs (Decidable (_ ∧ _ ∧ _))

/-- One round of `wake_socket_waiters` for a Unix socket. -/
def wakeSocketStep (file : Nat) (s : Machine) (thread : Nat) : Machine :=
  match (s.threads thread).domain with
  | none => s
  | some domain =>
    if WaitsOnSocket (s.threads thread) domain ∧
        s.fileAt domain (s.threads thread).waitTarget = some file then
      s.setThread thread (clearSocketWait (s.threads thread))
    else s

/-- The threads that wait on the file are woken. -/
def cellSocketWakeFile (cfg : Config) (s : Machine) (file : Nat) : Machine :=
  (List.range cfg.threads).foldl (wakeSocketStep file) s

/-- One round of `cell_socket_release_listener`; `release` is `cell_release_open_file`. -/
def releasePendingStep (release : Machine → Nat → Machine) (listener : Nat) (s : Machine)
    (slot : Nat) : Machine :=
  match s.pending slot with
  | none => s
  | some conn =>
    if conn.listener = listener then (release s conn.serverEnd).setPending slot none else s

/-- The connections that wait at the listener are dropped, each with its server end. -/
def cellSocketReleaseListener (release : Machine → Nat → Machine) (s : Machine) (listener : Nat) :
    Machine :=
  (List.range unixPendingSlots).foldl (releasePendingStep release listener) s

/-- What `cell_release_open_file` does for the type of a file without references. -/
def releaseEnds (cfg : Config) (release : Machine → Nat → Machine) (s : Machine) (f : Nat) :
    Machine :=
  let file := s.files f
  match file.type with
  | .pipe => s.cellPipeReleaseFile cfg file
  | .unixStream =>
    if file.unixConnected then
      cellSocketWakeFile cfg
        (cellPipeNotify cfg
          ((s.cellPipeDropReader file.unixRxPipe).cellPipeDropWriter file.unixTxPipe)) f
    else s
  | .unixListener => cellSocketReleaseListener release s f
  | .other => s

/-- `file->used = false`. -/
def markUnused (s : Machine) (f : Nat) : Machine := s.setFile f { s.files f with used := false }

/-- `--file->refcount`. -/
def dropReference (s : Machine) (f : Nat) : Machine :=
  s.setFile f { s.files f with refcount := (s.files f).refcount - 1 }

/-- `cell_release_open_file`, whose calls of itself go to `release`. -/
def releaseOpenFile (cfg : Config) (release : Machine → Nat → Machine) (s : Machine) (f : Nat) :
    Machine :=
  if (s.files f).refcount = 0 then s
  else if (s.files f).refcount - 1 ≠ 0 then s.dropReference f
  else (releaseEnds cfg release (s.dropReference f) f).markUnused f

/-- `cell_release_open_file`. A listener releases the server ends that wait for it; those are
streams, so the calls nest no deeper. -/
def cellReleaseOpenFile (cfg : Config) (s : Machine) (f : Nat) : Machine :=
  releaseOpenFile cfg (releaseOpenFile cfg fun s _ => s) s f

/-- `cell_release_open_file` of a pointer that may be null. -/
def releaseOptional (cfg : Config) (s : Machine) : Option Nat → Machine
  | none => s
  | some f => s.cellReleaseOpenFile cfg f

/-! ## Reading and writing -/

/-- The thread is blocked with its call, to be tried again. -/
def cellBlockCurrentOnPipe (s : Machine) (thread : Nat) (fd : Int) (buf len : BitVec 64)
    (write : Bool) : Int × Machine :=
  let t := s.threads thread
  (cellSwitched, s.setThread thread
    { t with
      runningCpu := -1, state := .blocked, waitReason := .pipe, waitTarget := fd
      wait := { t.wait with pipeBuf := buf, pipeLen := len, pipeWrite := write } })

/-- The end of a read or write: a blocking call that would return `-EAGAIN` blocks. -/
def orBlock (thread : Nat) (fd : Int) (buf len : BitVec 64) (write nonblock : Bool)
    (done : Int × Machine) : Int × Machine :=
  if done.1 ≠ -eAgain ∨ nonblock = true then done
  else done.2.cellBlockCurrentOnPipe thread fd buf len write

/-- `cell_fd_write` on pipes and Unix sockets. -/
def cellFdWrite (cfg : Config) (s : Machine) (thread domain : Nat) (fd : Int)
    (buf len : BitVec 64) : Int × Machine :=
  match s.fileAt domain fd with
  | none => (-eBadf, s)
  | some f =>
    let file := s.files f
    if len = 0 then (0, s)
    else
      match file.type with
      | .pipe =>
        orBlock thread fd buf len true file.nonblock
          (s.cellPipeWriteFromDomain cfg domain file buf.toNat len.toNat)
      | .unixStream =>
        if file.unixConnected then
          orBlock thread fd buf len true file.nonblock
            (s.cellPipeWriteIdFromDomain cfg domain file.unixTxPipe buf.toNat len.toNat)
        else (-eNotConn, s)
      | _ => (-eInval, s)

/-- The part of `cell_fd_read` and `cell_fd_socket_recv` for Unix streams. -/
def readStream (cfg : Config) (s : Machine) (thread domain : Nat) (fd : Int) (file : OpenFile)
    (buf len : BitVec 64) (nonblock : Bool) : Int × Machine :=
  if file.unixConnected then
    orBlock thread fd buf len false nonblock
      (s.cellPipeReadIdToDomain cfg domain file.unixRxPipe buf.toNat len.toNat)
  else (-eNotConn, s)

/-- `cell_fd_read` on pipes and Unix sockets. -/
def cellFdRead (cfg : Config) (s : Machine) (thread domain : Nat) (fd : Int)
    (buf len : BitVec 64) : Int × Machine :=
  match s.fileAt domain fd with
  | none => (-eBadf, s)
  | some f =>
    let file := s.files f
    match file.type with
    | .pipe =>
      orBlock thread fd buf len false file.nonblock
        (s.cellPipeReadToDomain cfg domain file buf.toNat len.toNat)
    | .unixStream => s.readStream cfg thread domain fd file buf len file.nonblock
    | _ => (-eInval, s)

/-- `cell_fd_socket_recv` on Unix sockets. -/
def cellFdSocketRecv (cfg : Config) (s : Machine) (thread domain : Nat) (fd : Int)
    (buf len : BitVec 64) (dontwait : Bool) : Int × Machine :=
  match s.fileAt domain fd with
  | none => (-eBadf, s)
  | some f =>
    let file := s.files f
    match file.type with
    | .unixStream =>
      s.readStream cfg thread domain fd file buf len (dontwait || file.nonblock)
    | _ => (-eBadf, s)

/-! ## Descriptors -/

/-- The file is released before the descriptor is cleared. -/
def cellFdClose (cfg : Config) (s : Machine) (domain : Nat) (fd : Int) : Int × Machine :=
  match s.fileAt domain fd with
  | none => (-eBadf, s)
  | some f => (0, (s.cellReleaseOpenFile cfg f).setFd domain fd.toNat none)

/-- The lowest free descriptor from `minfd` on gets the file. -/
def cellFdDup (s : Machine) (domain : Nat) (oldfd : Int) (minfd : Nat) : Int × Machine :=
  match s.fileAt domain oldfd with
  | none => (-eBadf, s)
  | some f =>
    if maxFds ≤ minfd then (-eBadf, s)
    else
      match s.cellFindFreeFd domain minfd with
      | none => (-eMfile, s)
      | some fd => (fd, (s.setFd domain fd (some f)).cellRetainOpenFile (some f))

/-- The file of `newfd`, if it has one, is released first. -/
def cellFdDup3 (cfg : Config) (s : Machine) (domain : Nat) (oldfd newfd : Int) : Int × Machine :=
  match s.fileAt domain oldfd with
  | none => (-eBadf, s)
  | some f =>
    if newfd < 0 ∨ maxFds ≤ newfd then (-eBadf, s)
    else if oldfd = newfd then (-eInval, s)
    else
      let s := s.cellRetainOpenFile (some f)
      (newfd, (s.releaseOptional cfg (s.fileAt domain newfd)).setFd domain newfd.toNat (some f))

/-- The file that one end of a pipe becomes. -/
def pipeEnd (file : OpenFile) (id : Nat) (write nonblock : Bool) : OpenFile :=
  { file with type := .pipe, nonblock := nonblock, pipeId := id, pipeWriteEnd := write }

/-- `cell_fd_open_node`: on a FIFO, or on a node that this model does not look into. -/
def cellFdOpenNode (cfg : Config) (s : Machine) (domain : Nat) (fifo : Option Nat)
    (write nonblock : Bool) : Int × Machine :=
  match fifo with
  | some ino =>
    match s.cellFifoPipeForIno ino with
    | (none, s) => (-eNfile, s)
    | (some id, s) =>
      if nonblock = true ∧ write = true ∧
          (s.pipeForId id).any (fun pipe => pipe.readers != 0) = false then (-eNxio, s)
      else
        match s.cellFindFreeFd domain 0 with
        | none => (-eMfile, s)
        | some fd =>
          match s.cellAllocOpenFile cfg with
          | (none, s) => (-eNomem, s)
          | (some f, s) =>
            let s := s.setFile f (pipeEnd (s.files f) id write nonblock)
            let s := if write then s.cellPipeAddWriter id else s.cellPipeAddReader id
            (fd, cellPipeNotify cfg (s.setFd domain fd (some f)))
  | none =>
    match s.cellFindFreeFd domain 0 with
    | none => (-eMfile, s)
    | some fd =>
      match s.cellAllocOpenFile cfg with
      | (none, s) => (-eNomem, s)
      | (some f, s) => (fd, s.setFd domain fd (some f))

/-- The bytes of the two descriptors that `pipe2` and `socketpair` store. -/
def fdBytes (first second : Nat) : List UInt8 :=
  [UInt8.ofNat first, 0, 0, 0, UInt8.ofNat second, 0, 0, 0]

/-- `vmm_copy_to_user` of the two descriptors. -/
def storeFds (s : Machine) (domain addr first second : Nat) : Bool × Machine :=
  match s.memory.mm domain with
  | none => (false, s)
  | some mm =>
    let copied := s.memory.vmmCopyToUser mm addr (fdBytes first second)
    (copied.1, { s with memory := copied.2 })

/-- Two open files, or what `pipe2` and `socketpair` do when they cannot get both. -/
def allocTwoFiles (cfg : Config) (s : Machine) : Option (Nat × Nat) × Machine :=
  match s.cellAllocOpenFile cfg with
  | (first, s) =>
    match s.cellAllocOpenFile cfg with
    | (second, s) =>
      match first, second with
      | some first, some second => (some (first, second), s)
      | _, _ => (none, (s.releaseOptional cfg first).releaseOptional cfg second)

/-- The end of `pipe2` and `socketpair`: the two files get their descriptors, or are released
when the descriptors cannot be stored. -/
def installTwo (cfg : Config) (s : Machine) (domain addr fd0 fd1 first second : Nat) :
    Int × Machine :=
  match s.storeFds domain addr fd0 fd1 with
  | (false, s) => (-eFault, (s.cellReleaseOpenFile cfg first).cellReleaseOpenFile cfg second)
  | (true, s) => (0, (s.setFd domain fd0 (some first)).setFd domain fd1 (some second))

/-- Two ends of a new pipe; what was taken is given back when a later step fails. -/
def cellFdPipe2 (cfg : Config) (s : Machine) (domain addr : Nat) (nonblock : Bool) :
    Int × Machine :=
  match s.cellFindFreeFd domain 0 with
  | none => (-eMfile, s)
  | some readFd =>
    match s.cellFindFreeFd domain (readFd + 1) with
    | none => (-eMfile, s)
    | some writeFd =>
      match s.cellAllocPipeObj 0 with
      | (none, s) => (-eNfile, s)
      | (some id, s) =>
        match s.allocTwoFiles cfg with
        | (none, s) => (-eNomem, s)
        | (some (reader, writer), s) =>
          let s := (s.cellPipeAddReader id).cellPipeAddWriter id
          let s := s.setFile reader (pipeEnd (s.files reader) id false nonblock)
          let s := s.setFile writer (pipeEnd (s.files writer) id true nonblock)
          s.installTwo cfg domain addr readFd writeFd reader writer

/-! ## Unix sockets -/

/-- The file that one end of a connection becomes. -/
def streamEnd (file : OpenFile) (rx tx channel : Nat) : OpenFile :=
  { file with
    type := .unixStream, unixConnected := true, unixRxPipe := rx, unixTxPipe := tx
    channel := channel }

/-- A stream socket that is not connected. -/
def cellFdSocketUnix (cfg : Config) (s : Machine) (domain : Nat) : Int × Machine :=
  match s.cellFindFreeFd domain 0 with
  | none => (-eMfile, s)
  | some fd =>
    match s.cellAllocOpenFile cfg with
    | (none, s) => (-eNomem, s)
    | (some f, s) =>
      (fd, (s.setFile f { s.files f with type := .unixStream }).setFd domain fd (some f))

/-- Two pipe objects, or what `connect` and `socketpair` do when they cannot get both. -/
def allocTwoPipes (s : Machine) : Option (Nat × Nat) × Machine :=
  match s.cellAllocPipeObj 0 with
  | (first, s) =>
    match s.cellAllocPipeObj 0 with
    | (second, s) =>
      match first, second with
      | some first, some second => (some (first, second), s)
      | some first, none => (none, s.cellPipeFree first)
      | none, some second => (none, s.cellPipeFree second)
      | none, none => (none, s)

/-- A reader and a writer for each of two pipes. -/
def addEnds (s : Machine) (first second : Nat) : Machine :=
  (((s.cellPipeAddReader first).cellPipeAddWriter first).cellPipeAddReader
    second).cellPipeAddWriter second

/-- The part of `cell_fd_socketpair_unix` that fills in the two ends. -/
def pairEnds (s : Machine) (a b a2b b2a : Nat) (nonblock : Bool) : Machine :=
  let s := s.addEnds a2b b2a
  let s := s.setFile a { streamEnd (s.files a) b2a a2b s.channels with nonblock := nonblock }
  let s := s.setFile b { streamEnd (s.files b) a2b b2a s.channels with nonblock := nonblock }
  { s with channels := s.channels + 1 }

/-- Two sockets with two pipes between them. -/
def cellFdSocketpairUnix (cfg : Config) (s : Machine) (domain addr : Nat) (nonblock : Bool) :
    Int × Machine :=
  match s.cellFindFreeFd domain 0 with
  | none => (-eMfile, s)
  | some fd0 =>
    match s.cellFindFreeFd domain (fd0 + 1) with
    | none => (-eMfile, s)
    | some fd1 =>
      match s.allocTwoPipes with
      | (none, s) => (-eNfile, s)
      | (some (a2b, b2a), s) =>
        match s.allocTwoFiles cfg with
        | (none, s) => (-eNomem, (s.cellPipeFree a2b).cellPipeFree b2a)
        | (some (a, b), s) =>
          (s.pairEnds a b a2b b2a nonblock).installTwo cfg domain addr fd0 fd1 a b

/-- The UNIX socket that a descriptor refers to. -/
def unixFileForFd (s : Machine) (domain : Nat) (fd : Int) : Option Nat :=
  (s.fileAt domain fd).filter fun f =>
    (s.files f).type = .unixStream ∨ (s.files f).type = .unixListener

/-- The file is a listener bound to the path. -/
def isListener (s : Machine) (path : String) (f : Nat) : Bool :=
  (s.files f).type == .unixListener && (s.files f).unixPath == path

/-- The socket that listens at a path. -/
def unixListenerForPath (cfg : Config) (s : Machine) (path : String) : Option Nat :=
  (List.range cfg.domains).findSome? fun d =>
    if (s.domains d).used then
      (List.range maxFds).findSome? fun fd =>
        ((s.domains d).fds fd).filter (s.isListener path)
    else none

/-- `cell_fd_unix_bind`, given what the file system answers. -/
def cellFdUnixBind (s : Machine) (domain : Nat) (fd : Int) (path : String) (taken made : Bool) :
    Int × Machine :=
  match s.unixFileForFd domain fd with
  | none => (-eInval, s)
  | some f =>
    if (s.files f).type ≠ .unixStream ∨ path = "" then (-eInval, s)
    else if taken then (-eAddrInUse, s)
    else if made = false then (-eInval, s)
    else (0, s.setFile f { s.files f with unixPath := path })

/-- The socket has to be bound. -/
def cellFdUnixListen (s : Machine) (domain : Nat) (fd : Int) : Int × Machine :=
  match s.unixFileForFd domain fd with
  | none => (-eInval, s)
  | some f =>
    if (s.files f).type ≠ .unixStream ∨ (s.files f).unixPath = "" then (-eInval, s)
    else (0, s.setFile f { s.files f with type := .unixListener })

/-- `socket_apply_accept_flags`, as far as the open file goes. -/
def acceptFlags (s : Machine) (f : Nat) (nonblock : Bool) : Machine :=
  if nonblock then s.setFile f { s.files f with nonblock := true } else s

/-- A connection that waits gets a descriptor; `-EAGAIN` or a wait if there is none. -/
def cellSocketTakePendingUnix (s : Machine) (domain listener : Nat) (nonblock : Bool) :
    Int × Machine :=
  match s.cellFindFreeFd domain 0 with
  | none => (-eMfile, s)
  | some fd =>
    match (List.range unixPendingSlots).find? fun slot =>
      (s.pending slot).any fun conn => conn.listener == listener with
    | none => (-eAgain, s)
    | some slot =>
      match s.pending slot with
      | none => (-eAgain, s)
      | some conn =>
        (fd, ((s.setFd domain fd (some conn.serverEnd)).acceptFlags conn.serverEnd
          nonblock).setPending slot none)

/-- The thread after `accept` was retried for it. -/
def acceptedWith (t : Proc.Thread) (result : Int) : Proc.Thread :=
  { t with
    tf := t.tf.setX Proc.regX0 (BitVec.ofInt 64 result)
    state := .runnable
    waitReason := .none
    waitTarget := -1
    wait := { t.wait with socketAcceptFlags := 0 } }

/-- The flag that `accept` keeps for a thread that waits: `CELL_O_NONBLOCK` is bit 11. -/
def keptNonblock (t : Proc.Thread) : Bool := t.wait.socketAcceptFlags.toNat.testBit 11

/-- One round of `cell_socket_wake_unix_accept_waiters`. -/
def wakeAcceptStep (listener : Nat) (s : Machine) (thread : Nat) : Machine :=
  match (s.threads thread).domain with
  | none => s
  | some domain =>
    if WaitsOnSocket (s.threads thread) domain ∧
        s.fileAt domain (s.threads thread).waitTarget = some listener then
      let taken := s.cellSocketTakePendingUnix domain listener (keptNonblock (s.threads thread))
      if taken.1 = -eAgain then taken.2
      else taken.2.setThread thread (acceptedWith (s.threads thread) taken.1)
    else s

/-- Each thread that waits to accept is given a connection while there is one. -/
def cellSocketWakeUnixAcceptWaiters (cfg : Config) (s : Machine) (listener : Nat) : Machine :=
  (List.range cfg.threads).foldl (wakeAcceptStep listener) s

/-- `cell_block_current_on_socket` for a thread that accepts. -/
def blockOnAccept (s : Machine) (thread : Nat) (fd : Int) (nonblock : Bool) : Int × Machine :=
  let t := s.threads thread
  (cellSwitched, s.setThread thread
    { t with
      runningCpu := -1, state := .blocked, waitReason := .socket, waitTarget := fd
      wait := { t.wait with
        pipeBuf := 0, pipeLen := 0, socketAddr := 0, socketAddrlen := 0
        socketAcceptFlags := if nonblock then 0x800 else 0 } })

/-- `accept`, or the thread is blocked. -/
def cellFdUnixAccept (s : Machine) (thread domain : Nat) (fd : Int) (nonblock : Bool) :
    Int × Machine :=
  match s.unixFileForFd domain fd with
  | none => (-eBadf, s)
  | some listener =>
    if (s.files listener).type ≠ .unixListener then (-eBadf, s)
    else
      match s.cellSocketTakePendingUnix domain listener nonblock with
      | (result, s) =>
        if result ≠ -eAgain then (result, s)
        else if (s.files listener).nonblock then (-eAgain, s)
        else s.blockOnAccept thread fd nonblock

/-- The part of `cell_fd_unix_connect` that fills in the two ends. -/
def joinEnds (s : Machine) (client server c2s s2c : Nat) (path : String) : Machine :=
  let s := s.addEnds c2s s2c
  let s := s.setFile client
    { streamEnd (s.files client) s2c c2s s.channels with unixPath := path }
  let s := s.setFile server
    { streamEnd (s.files server) c2s s2c s.channels with unixPath := path }
  { s with channels := s.channels + 1 }

/-- Two pipes are made, and the server end waits at the listener. -/
def cellFdUnixConnect (cfg : Config) (s : Machine) (domain : Nat) (fd : Int) (path : String) :
    Int × Machine :=
  match s.unixFileForFd domain fd with
  | none => (-eBadf, s)
  | some client =>
    if (s.files client).type ≠ .unixStream then (-eBadf, s)
    else
      match s.unixListenerForPath cfg path with
      | none => (-eConnRefused, s)
      | some listener =>
        match s.allocTwoPipes with
        | (none, s) => (-eNfile, s)
        | (some (c2s, s2c), s) =>
          match s.cellAllocOpenFile cfg with
          | (none, s) => (-eNomem, (s.cellPipeFree c2s).cellPipeFree s2c)
          | (some server, s) =>
            let s := s.joinEnds client server c2s s2c path
            match (List.range unixPendingSlots).find? fun slot => (s.pending slot).isNone with
            | some slot =>
              (0, cellSocketWakeUnixAcceptWaiters cfg
                (s.setPending slot (some ⟨listener, server⟩)) listener)
            | none =>
              (-eAgain, ((s.cellReleaseOpenFile cfg server).cellPipeFree c2s).cellPipeFree s2c)

/-! ## Processes -/

/-- One round of `cell_close_all_fds`. -/
def closeStep (cfg : Config) (domain : Nat) (s : Machine) (fd : Nat) : Machine :=
  (s.releaseOptional cfg ((s.domains domain).fds fd)).setFd domain fd none

/-- All descriptors of the domain, from the first. -/
def cellCloseAllFds (cfg : Config) (s : Machine) (domain : Nat) : Machine :=
  (List.range maxFds).foldl (closeStep cfg domain) s

/-- The end of a domain: `cell_exit_group_current`, or a signal that terminates it, and
`cell_destroy_domain`. In between the domain is a zombie, which has neither descriptors nor
threads that wait. -/
def endDomain (cfg : Config) (s : Machine) (domain : Nat) : Machine :=
  let s := s.cellCloseAllFds cfg domain
  { s with
    threads := fun thread =>
      if (s.threads thread).domain = some domain then
        { s.threads thread with state := .unused, runningCpu := -1, domain := none }
      else s.threads thread
    domains := Function.update s.domains domain { s.domains domain with used := false } }

/-- One round of `cell_copy_fd_table`. -/
def copyFdStep (child parent : Nat) (s : Machine) (fd : Nat) : Machine :=
  (s.setFd child fd ((s.domains parent).fds fd)).cellRetainOpenFile ((s.domains parent).fds fd)

/-- The child gets every descriptor of its parent. -/
def cellCopyFdTable (s : Machine) (child parent : Nat) : Machine :=
  (List.range maxFds).foldl (copyFdStep child parent) s

/-- The zeroed slot that `cell_alloc_domain` hands out. -/
def allocDomain (s : Machine) (child : Nat) : Machine :=
  { s with domains := Function.update s.domains child ⟨true, fun _ => none⟩ }

/-- The new domain has no descriptor, the others stay. -/
@[simp] theorem allocDomain_domains (s : Machine) (child : Nat) :
    (s.allocDomain child).domains = Function.update s.domains child ⟨true, fun _ => none⟩ := rfl

/-- The descriptors and the threads of `cell_fork_current`: a free domain slot gets a copy of the
parent's table, and a free thread slot a thread. -/
def forkDomain (cfg : Config) (s : Machine) (parent : Nat) : Machine :=
  match (List.range cfg.domains).find? fun d => !(s.domains d).used with
  | none => s
  | some child =>
    match (List.range cfg.threads).find? fun t => (s.threads t).state == .unused with
    | none => s
    | some thread =>
      ((s.allocDomain child).cellCopyFdTable child parent).setThread thread
        { Proc.Thread.zero with domain := some child, state := .runnable, waitTarget := -1 }

/-- `cell_clone_thread` and the like: another thread of the domain. -/
def startThread (cfg : Config) (s : Machine) (domain : Nat) : Machine :=
  match (List.range cfg.threads).find? fun t => (s.threads t).state == .unused with
  | none => s
  | some thread =>
    s.setThread thread
      { Proc.Thread.zero with domain := some domain, state := .runnable, waitTarget := -1 }

/-- A signal ends the wait of a thread. -/
def interrupt (s : Machine) (thread : Nat) : Machine :=
  if (s.threads thread).state = .blocked then
    s.setThread thread { s.threads thread with state := .runnable, waitReason := .none }
  else s

end Machine

/-! ## The machine -/

/-- A step: a call of a thread, or something that happens to it. -/
inductive Op where
  | read (thread : Nat) (fd : Int) (buf len : BitVec 64)
  | write (thread : Nat) (fd : Int) (buf len : BitVec 64)
  | recv (thread : Nat) (fd : Int) (buf len : BitVec 64) (dontwait : Bool)
  | close (thread : Nat) (fd : Int)
  | dup (thread : Nat) (oldfd : Int) (minfd : Nat)
  | dup3 (thread : Nat) (oldfd newfd : Int)
  | open (thread : Nat) (fifo : Option Nat) (write nonblock : Bool)
  | pipe2 (thread : Nat) (addr : BitVec 64) (nonblock : Bool)
  | socket (thread : Nat)
  | socketpair (thread : Nat) (addr : BitVec 64) (nonblock : Bool)
  | bind (thread : Nat) (fd : Int) (path : String) (taken made : Bool)
  | listen (thread : Nat) (fd : Int)
  | connect (thread : Nat) (fd : Int) (path : String)
  | accept (thread : Nat) (fd : Int) (nonblock : Bool)
  | fork (thread : Nat)
  | start (thread : Nat)
  | exit (thread : Nat)
  | interrupt (thread : Nat)
  /-- Memory is mapped, unmapped, written by its threads, or taken from the allocator. -/
  | remap (memory : UserMemory) (freePages : Nat)

namespace Machine

/-- Domain of a thread that runs. -/
def running (s : Machine) (thread : Nat) : Option Nat :=
  if (s.threads thread).state = .runnable then (s.threads thread).domain else none

/-- A call of a thread; a thread that does not run makes none. -/
def call (s : Machine) (thread : Nat) (body : Nat → Int × Machine) : Int × Machine :=
  match s.running thread with
  | none => (-eNomem, s)
  | some domain => body domain

/-- One step, with the result that the caller's register gets. -/
def perform (cfg : Config) (s : Machine) : Op → Int × Machine
  | .read thread fd buf len => s.call thread fun d => s.cellFdRead cfg thread d fd buf len
  | .write thread fd buf len => s.call thread fun d => s.cellFdWrite cfg thread d fd buf len
  | .recv thread fd buf len dontwait =>
    s.call thread fun d => s.cellFdSocketRecv cfg thread d fd buf len dontwait
  | .close thread fd => s.call thread fun d => s.cellFdClose cfg d fd
  | .dup thread oldfd minfd => s.call thread fun d => s.cellFdDup d oldfd minfd
  | .dup3 thread oldfd newfd => s.call thread fun d => s.cellFdDup3 cfg d oldfd newfd
  | .open thread fifo write nonblock =>
    s.call thread fun d => s.cellFdOpenNode cfg d fifo write nonblock
  | .pipe2 thread addr nonblock => s.call thread fun d => s.cellFdPipe2 cfg d addr.toNat nonblock
  | .socket thread => s.call thread fun d => s.cellFdSocketUnix cfg d
  | .socketpair thread addr nonblock =>
    s.call thread fun d => s.cellFdSocketpairUnix cfg d addr.toNat nonblock
  | .bind thread fd path taken made =>
    s.call thread fun d => s.cellFdUnixBind d fd path taken made
  | .listen thread fd => s.call thread fun d => s.cellFdUnixListen d fd
  | .connect thread fd path => s.call thread fun d => s.cellFdUnixConnect cfg d fd path
  | .accept thread fd nonblock => s.call thread fun d => s.cellFdUnixAccept thread d fd nonblock
  | .fork thread => s.call thread fun d => (0, s.forkDomain cfg d)
  | .start thread => s.call thread fun d => (0, s.startThread cfg d)
  | .exit thread => s.call thread fun d => (0, s.endDomain cfg d)
  | .interrupt thread => (0, s.interrupt thread)
  | .remap memory freePages => (0, { s with memory := memory, freePages := freePages })

/-- The state after one step. -/
def next (cfg : Config) (s : Machine) (op : Op) : Machine := (s.perform cfg op).2

/-- The machine when the first domain starts: one thread, no pipe, and the descriptors of
`cell_init_stdio`, which are no pipes. -/
def boot (memory : UserMemory) (freePages : Nat) : Machine where
  pipes _ := none
  files f := if f < 3 then { OpenFile.zero with used := true, refcount := 1 } else OpenFile.zero
  domains d := if d = 0 then ⟨true, fun fd => if fd < 3 then some fd else none⟩
    else ⟨false, fun _ => none⟩
  threads t := if t = 0 then { Proc.Thread.zero with domain := some 0, state := .runnable }
    else Proc.Thread.zero
  pending _ := none
  memory := memory
  freePages := freePages
  log := []
  channels := 0

end Machine

end Spore.Ipc
