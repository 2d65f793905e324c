import Spore.Ipc.Wakeups

/-!
# What every call keeps

References stay counted, pipes stay streams and, if a call spares the blocked threads, each of
them waits for something afterwards. Each call is followed once for all three.
-/

namespace Spore.Ipc

open Spore.Lib Machine

variable {cfg : Config} {s t : Machine} {counted spared : Prop}
  {domain f thread listener freePages : Nat} {file : OpenFile} {pipe : PipeObj}
  {hand more : Multiset Nat} {value : Proc.Thread} {buf len : BitVec 64} {nonblock : Bool}

/-- References are counted, those in hand included, if the counters had room; pipes are streams;
and no blocked thread missed its wakeup if all were spared. -/
structure Whole (cfg : Config) (counted spared : Prop) (s : Machine) (hand : Multiset Nat) :
    Prop where
  /-- References are counted. -/
  refs : counted → Refs s hand
  /-- Pipes are streams. -/
  flows : Flows s
  /-- Blocked threads wait for something. -/
  settled : spared → Settled cfg s none
  /-- Wakeups are followed only where references are counted. -/
  implied : spared → counted

/-! ## Single updates -/

/-- A descriptor that no thread waits on gets another file. -/
theorem Fine.swapFd (fine : Fine cfg s none) {fd : Nat} (free : FdFree cfg s domain fd)
    (old file : Option Nat) :
    Settled cfg ((s.releaseOptional cfg old).setFd domain fd file) none := by
  obtain ⟨released, tame⟩ := (keeps_releaseOptional old : Keeps cfg none s _) fine
  exact released.settled.quiet (quiet_setFd (free.tame tame) file)

section Updates

variable (whole : Whole cfg counted spared s hand)

include whole

/-- A quiet step, with the references and the streams after it. -/
theorem Whole.quiet (refs : counted → Refs t more) (flows : Flows t)
    (quiet : spared → Quiet cfg s t) : Whole cfg counted spared t more :=
  ⟨refs, flows, fun p => (whole.settled p).quiet (quiet p), whole.implied⟩

/-- Where waiters are spared, references are counted. -/
theorem Whole.sparedRefs (p : spared) : Refs s hand := whole.refs (whole.implied p)

/-- And the waiters are as they should be. -/
theorem Whole.fine (p : spared) : Fine cfg s none := ⟨whole.flows, whole.settled p⟩

/-- Pipes change and the threads are woken. -/
theorem Whole.notify (refs : counted → Refs t more) (flows : Flows t)
    (tame : spared → Tame cfg s t) : Whole cfg counted spared (cellPipeNotify cfg t) more :=
  ⟨fun c => (refs c).tables tables_notify, flows.notify,
    fun p => (notify_settles flows ((whole.settled p).exclusive.tame (tame p))).1, whole.implied⟩

/-- Nobody waits on a descriptor that is closed. -/
theorem Whole.fdFree {fd : Nat} (closed : (s.domains domain).fds fd = none) (p : spared) :
    FdFree cfg s domain fd := (whole.settled p).fdFree closed

/-- A change of a file outside its count. -/
theorem Whole.setFile (count : file.refcount = (s.files f).refcount)
    (used : file.used = (s.files f).used) (quiet : spared → Quiet cfg s (s.setFile f file)) :
    Whole cfg counted spared (s.setFile f file) hand :=
  whole.quiet (fun c => (whole.refs c).setFile count used) (whole.flows.setFile f file) quiet

/-- A file is taken. -/
theorem Whole.fresh (unused : (s.files f).used = false) :
    Whole cfg counted spared (s.setFile f freshFile) (f ::ₘ hand) :=
  whole.quiet (fun c => (whole.refs c).fresh unused rfl rfl) (whole.flows.setFile f _)
    fun p => quiet_setFile ((whole.sparedRefs p).fileFree unused) _

/-- A file that is not in use is cleared. -/
theorem Whole.zeroed (unused : (s.files f).used = false) :
    Whole cfg counted spared (s.setFile f OpenFile.zero) hand :=
  whole.quiet
    (fun c => (whole.refs c).setFile ((whole.refs c).held.zero_of_unused unused).symm unused.symm)
    (whole.flows.setFile f _) fun p => quiet_setFile ((whole.sparedRefs p).fileFree unused) _

/-- A reference is taken, where there is room for one more. -/
theorem Whole.retain (used : counted → (s.files f).used)
    (fits : counted → (s.files f).refcount + 1 < 2 ^ 16) :
    Whole cfg counted spared (s.cellRetainOpenFile (some f)) (f ::ₘ hand) :=
  whole.quiet (fun c => (whole.refs c).retain (used c) (fits c)) (whole.flows.retain (some f))
    fun _ => quiet_retain

/-- A descriptor on which nobody waits is closed. -/
theorem Whole.closeFd {fd : Nat} (free : spared → FdFree cfg s domain fd) :
    Whole cfg counted spared
      ((s.releaseOptional cfg ((s.domains domain).fds fd)).setFd domain fd none) hand :=
  ⟨fun c => (whole.refs c).closeFd cfg domain fd,
    (whole.flows.releaseOptional _).setFd domain fd none,
    fun p => (whole.fine p).swapFd (free p) _ none, whole.implied⟩

/-- A change of the waiting connections, with the references after it. -/
theorem Whole.setPending {slot : Nat} {conn : Option PendingConn}
    (refs : counted → Refs (s.setPending slot conn) more) :
    Whole cfg counted spared (s.setPending slot conn) more :=
  whole.quiet refs (whole.flows.setPending slot conn) fun _ => quiet_setPending conn

/-- A thread that does not wait afterwards changes within its domain. -/
theorem Whole.setThread (home : value.domain = (s.threads thread).domain)
    (awake : ∀ domain, ¬ WaitsOnPipe value domain) :
    Whole cfg counted spared (s.setThread thread value) hand :=
  whole.quiet (fun c => (whole.refs c).tables (tables_setThread home))
    (whole.flows.setThread thread value)
    fun _ => quiet_setThread awake

/-- User memory changes. -/
theorem Whole.memory (memory : UserMemory) :
    Whole cfg counted spared { s with memory := memory } hand :=
  whole.quiet (fun c => (whole.refs c).tables ⟨rfl, rfl, rfl, fun _ => rfl⟩)
    (whole.flows.remap memory)
    fun _ => quiet_memory memory

/-- Two pipe objects are taken. -/
theorem Whole.allocTwoPipes : Whole cfg counted spared s.allocTwoPipes.2 hand :=
  whole.quiet (fun c => (whole.refs c).tables still_allocTwoPipes.tables) whole.flows.allocTwoPipes
    fun p => (whole.settled p).allocTwo

/-- Two pipes for which nobody waits are given back. -/
theorem Whole.freeTwo {first second : Nat}
    (free : spared → PipeFree cfg s first ∧ PipeFree cfg s second) :
    Whole cfg counted spared ((s.cellPipeFree first).cellPipeFree second) hand :=
  whole.quiet (fun c => (whole.refs c).tables ((still_free first).trans (still_free second)).tables)
    ((whole.flows.free first).free second) fun p =>
      (quiet_free (free p).1).trans (quiet_free ((free p).2.tame (quiet_free (free p).1).1))

end Updates

section Given

variable (whole : Whole cfg counted spared s (f ::ₘ hand))

include whole

/-- The reference in hand becomes that of a descriptor. -/
theorem Whole.install {fd : Nat} (free : spared → FdFree cfg s domain fd) :
    Whole cfg counted spared (s.setFd domain fd (some f)) hand :=
  whole.quiet (fun c => (whole.refs c).install domain fd) (whole.flows.setFd domain fd _)
    fun p => quiet_setFd (free p) _

/-- The reference in hand is released. -/
theorem Whole.release : Whole cfg counted spared (s.cellReleaseOpenFile cfg f) hand :=
  ⟨fun c => ⟨well_release.held s f _ hand (whole.refs c).held,
      releases_release.housed (whole.refs c)⟩,
    whole.flows.release f, fun p => (keeps_release f (whole.fine p)).1.settled, whole.implied⟩

/-- The reference in hand replaces that of a descriptor. -/
theorem Whole.swapFd {fd : Nat} (free : spared → FdFree cfg s domain fd) :
    Whole cfg counted spared
      ((s.releaseOptional cfg ((s.domains domain).fds fd)).setFd domain fd (some f)) hand :=
  ⟨fun c => (whole.refs c).swapFd cfg domain fd,
    (whole.flows.releaseOptional _).setFd domain fd _,
    fun p => (whole.fine p).swapFd (free p) _ _, whole.implied⟩

end Given

/-! ## Reading and writing -/

/-- A thread may block on a call that would block again. -/
theorem Settled.block (settled : Settled cfg s none)
    (home : value.domain = some domain) (idle : Idle s domain value) :
    Settled cfg (s.setThread thread value) none := by
  intro i bound other waits
  by_cases here : i = thread
  · rw [here, setThread_threads, Function.update_self] at waits ⊢
    obtain rfl : domain = other := Option.some.inj (home.symm.trans waits.2.2)
    exact .inl idle
  · rw [setThread_threads, Function.update_of_ne here] at waits ⊢
    exact settled i bound other waits

section Transfer

variable {thread domain target f : Nat} {fd : Int}

/-- A call that has its result does not block. -/
theorem Whole.done {write : Bool} {result : Int} (whole : Whole cfg counted spared t hand)
    (done : result ≠ -eAgain) :
    Whole cfg counted spared (orBlock thread fd buf len write nonblock (result, t)).2 hand := by
  unfold orBlock
  rw [if_pos (.inl done)]
  exact whole

section

variable (whole : Whole cfg counted spared s hand) (home : (s.threads thread).domain = some domain)
  (found : s.fileAt domain fd = some f)

include whole home found

/-- A call that would block does block, unless the file says otherwise. -/
theorem Whole.wouldBlock {write : Bool} {len : BitVec 64}
    (at_pipe : (s.files f).pipeFor write = some target)
    (found_pipe : s.pipeForId target = some pipe) (blocks : Blocks pipe write len.toNat) :
    Whole cfg counted spared (orBlock thread fd buf len write nonblock (-eAgain, s)).2 hand := by
  unfold orBlock
  split
  · exact whole
  refine ⟨fun c => (whole.refs c).tables (tables_setThread rfl), whole.flows.setThread _ _,
    fun p => ?_, whole.implied⟩
  refine (whole.settled p).block (by exact home) ⟨target, pipe, ?_, found_pipe, blocks⟩
  unfold pipeAt
  rw [found]
  exact at_pipe

/-- A write, and the wait when it would block. -/
theorem Whole.write (at_pipe : (s.files f).pipeFor true = some target)
    (buf len : BitVec 64) (nonblock : Bool) :
    Whole cfg counted spared (orBlock thread fd buf len true nonblock
      (writeIdWith (cellPipeNotify cfg) s domain target buf.toNat len.toNat)).2 hand := by
  have outcome := writeIdWith_outcome (s := s) (cellPipeNotify cfg) domain target buf.toNat
    len.toNat
  generalize writeIdWith (cellPipeNotify cfg) s domain target buf.toNat len.toNat = out at outcome
  cases outcome with
  | nothing | gone | broken =>
    exact whole.done (by decide)
  | full pipe found_pipe readers bytes full =>
    exact whole.wouldBlock home found at_pipe found_pipe ⟨bytes, readers, full⟩
  | fault _ memory =>
    exact (whole.memory memory).done (by decide)
  | moved pipe memory ring bytes found_pipe room contents head length =>
    have still : Still s (accepts s memory target len.toNat pipe ring bytes) := ⟨rfl, rfl, rfl, rfl⟩
    exact whole.notify (fun c => (whole.refs c).tables still.tables)
      (whole.flows.accepts memory found_pipe room contents head length) fun _ => still.tame

/-- A read, and the wait when it would block. -/
theorem Whole.read (at_pipe : (s.files f).pipeFor false = some target)
    (buf len : BitVec 64) (nonblock : Bool) :
    Whole cfg counted spared (orBlock thread fd buf len false nonblock
      (readIdWith (cellPipeNotify cfg) s domain target buf.toNat len.toNat)).2 hand := by
  have outcome := readIdWith_outcome (s := s) (cellPipeNotify cfg) domain target buf.toNat
    len.toNat (whole.flows.head_lt target)
  generalize readIdWith (cellPipeNotify cfg) s domain target buf.toNat len.toNat = out at outcome
  cases outcome with
  | nothing | gone | atEnd =>
    exact whole.done (by decide)
  | empty pipe found_pipe bytes empty no_end =>
    exact whole.wouldBlock home found at_pipe found_pipe ⟨bytes, empty, no_end⟩
  | fault _ memory =>
    exact (whole.memory memory).done (by decide)
  | moved pipe memory ring bytes found_pipe filled contents head =>
    have still : Still s (returns s memory target pipe ring bytes) := ⟨rfl, rfl, rfl, rfl⟩
    exact whole.notify (fun c => (whole.refs c).tables still.tables)
      (whole.flows.returns memory found_pipe contents head) fun _ => still.tame

end

/-- A stream socket reads from one pipe and writes to the other. -/
theorem pipeFor_stream {file : OpenFile} (stream : file.type = .unixStream) (write : Bool) :
    file.pipeFor write = some (if write then file.unixTxPipe else file.unixRxPipe) := by
  unfold OpenFile.pipeFor
  rw [if_pos stream]

/-- The end of a pipe has that pipe. -/
theorem pipeFor_pipe {file : OpenFile} {write : Bool} (pipe : file.type = .pipe)
    (side : file.pipeWriteEnd = write) : file.pipeFor write = some file.pipeId := by
  unfold OpenFile.pipeFor
  rw [if_neg (by rw [pipe]; decide), if_pos ⟨pipe, side⟩]

section

variable (whole : Whole cfg counted spared s hand) (home : (s.threads thread).domain = some domain)

include whole home

/-- `write` to any descriptor. -/
theorem Whole.fdWrite :
    Whole cfg counted spared (s.cellFdWrite cfg thread domain fd buf len).2 hand := by
  unfold cellFdWrite
  split
  · exact whole
  rename_i f found
  dsimp only
  split
  · exact whole
  split
  · rename_i pipe
    unfold cellPipeWriteFromDomain writeFileWith
    split
    · exact whole.done (by decide)
    rename_i side
    have side : (s.files f).pipeWriteEnd := Bool.of_not_eq_false fun reads => side (.inr reads)
    exact whole.write home found (pipeFor_pipe pipe side) buf len _
  · rename_i stream
    split
    · exact whole.write home found (pipeFor_stream stream true) buf len _
    · exact whole
  · exact whole

/-- The read of a stream socket, which returns or blocks. -/
theorem Whole.readStream
    (found : s.fileAt domain fd = some f) (stream : (s.files f).type = .unixStream)
    (buf len : BitVec 64) (nonblock : Bool) :
    Whole cfg counted spared
      (s.readStream cfg thread domain fd (s.files f) buf len nonblock).2 hand := by
  unfold Machine.readStream
  split
  · exact whole.read home found (pipeFor_stream stream false) buf len _
  · exact whole

/-- `read` of any descriptor. -/
theorem Whole.fdRead :
    Whole cfg counted spared (s.cellFdRead cfg thread domain fd buf len).2 hand := by
  unfold cellFdRead
  split
  · exact whole
  rename_i f found
  dsimp only
  split
  · rename_i pipe
    unfold cellPipeReadToDomain readFileWith
    split
    · exact whole.done (by decide)
    rename_i side
    have side := Bool.of_not_eq_true fun writes => side (.inr writes)
    exact whole.read home found (pipeFor_pipe pipe side) buf len _
  · rename_i stream
    exact whole.readStream home found stream buf len _
  · exact whole

/-- `recv` on a stream socket. -/
theorem Whole.recv (buf len : BitVec 64) (dontwait : Bool) :
    Whole cfg counted spared (s.cellFdSocketRecv cfg thread domain fd buf len dontwait).2 hand := by
  unfold cellFdSocketRecv
  split
  · exact whole
  rename_i f found
  dsimp only
  split
  · rename_i stream
    exact whole.readStream home found stream buf len _
  · exact whole

end

end Transfer

/-! ## What has to be spared -/

instance (domain : Nat) (fd : Int) : Decidable (FdFree cfg s domain fd) :=
  inferInstanceAs (Decidable (∀ i, i < cfg.threads → _))

/-- The domain of a thread that waits is its own. -/
theorem fileFree_iff : FileFree cfg s f ↔ ∀ i, i < cfg.threads →
    ∀ domain ∈ (s.threads i).domain, WaitsOnPipe (s.threads i) domain →
      s.fileAt domain (s.threads i).waitTarget ≠ some f := by
  constructor
  · exact fun free i bound domain _ waits => free i bound domain waits
  · exact fun free i bound domain waits => free i bound domain waits.2.2 waits

instance (f : Nat) : Decidable (FileFree cfg s f) := decidable_of_iff _ fileFree_iff.symm

/-- No thread waits on the descriptor that a `close` or `dup3` takes away, or on the socket that a
`connect` or `listen` makes another one of. -/
def Spared (cfg : Config) (s : Machine) : Op → Prop
  | .close thread fd => ∀ domain ∈ s.running thread, FdFree cfg s domain fd
  | .dup3 thread _ newfd => ∀ domain ∈ s.running thread, FdFree cfg s domain newfd
  | .connect thread fd _ => ∀ domain ∈ s.running thread, ∀ f ∈ s.fileAt domain fd, FileFree cfg s f
  | .listen thread fd => ∀ domain ∈ s.running thread, ∀ f ∈ s.fileAt domain fd, FileFree cfg s f
  | _ => True

instance : ∀ op : Op, Decidable (Spared cfg s op)
  | .close .. | .dup3 .. => inferInstanceAs (Decidable (∀ domain ∈ s.running _, FdFree ..))
  | .connect .. | .listen .. =>
    inferInstanceAs (Decidable (∀ domain ∈ s.running _, ∀ f ∈ s.fileAt .., FileFree ..))
  | .read .. | .write .. | .recv .. | .dup .. | .open .. | .pipe2 .. | .socket .. | .socketpair ..
  | .bind .. | .accept .. | .fork .. | .start .. | .exit .. | .interrupt .. | .remap .. =>
    .isTrue trivial

/-- The counters of open files can count the references that a `dup`, a `dup3` or a `fork` adds. -/
def CountsFit (s : Machine) : Op → Prop
  | .dup thread fd _ | .dup3 thread fd _ => ∀ domain ∈ s.running thread,
      ∀ f ∈ s.fileAt domain fd, (s.files f).refcount + 1 < 2 ^ 16
  | .fork thread => ∀ domain ∈ s.running thread, ∀ fd < maxFds,
      ∀ f ∈ (s.domains domain).fds fd,
        (s.files f).refcount + fdsOf s domain (List.range maxFds) f < 2 ^ 16
  | _ => True

instance : ∀ op : Op, Decidable (CountsFit s op)
  | .dup .. | .dup3 .. =>
    inferInstanceAs (Decidable (∀ domain ∈ s.running _, ∀ f ∈ s.fileAt .., _ < 2 ^ 16))
  | .fork _ =>
    inferInstanceAs (Decidable (∀ domain ∈ s.running _, ∀ fd < maxFds, ∀ f ∈ _, _ < 2 ^ 16))
  | .read .. | .write .. | .recv .. | .close .. | .open .. | .pipe2 .. | .socket .. | .socketpair ..
  | .bind .. | .listen .. | .connect .. | .accept .. | .start .. | .exit .. | .interrupt ..
  | .remap .. => .isTrue trivial

/-- A thread that is blocked in a pipe operation would block again. -/
def NoLostWakeup (cfg : Config) (s : Machine) : Prop :=
  ∀ thread, thread < cfg.threads → ∀ domain, WaitsOnPipe (s.threads thread) domain →
    (s.retry domain (s.threads thread)).1 = -eAgain

/-- Where all waiters are idle no wake-up is lost. -/
theorem Fine.noLostWakeup (fine : Fine cfg s none) : NoLostWakeup cfg s := by
  intro thread bound domain waits
  rw [retry_again_iff fine.flows]
  rcases fine.settled thread bound domain waits with idle | ⟨out, _⟩
  · exact idle
  · cases out

/-- A running thread is in its domain. -/
theorem domain_of_running (running : s.running thread = some domain) :
    (s.threads thread).domain = some domain := by
  unfold Machine.running at running
  split at running
  · exact running
  · cases running

/-- A descriptor of the domain that is ending is closed. -/
theorem Fine.closeStep (fine : Fine cfg s (some domain)) (fd : Nat) :
    Fine cfg (Machine.closeStep cfg domain s fd) (some domain) := by
  have released := (keeps_releaseOptional ((s.domains domain).fds fd) fine).1
  unfold Machine.closeStep
  generalize s.releaseOptional cfg ((s.domains domain).fds fd) = t at released
  refine ⟨released.flows.setFd _ _ _, fun i bound other waits => ?_⟩
  by_cases here : other = domain ∧ (t.threads i).waitTarget = fd
  · -- The thread waits on the descriptor that is closed: it has no pipe any more.
    obtain ⟨rfl, same⟩ := here
    refine .inr ⟨rfl, ?_⟩
    have gone : (t.setFd other fd none).fileAt other (t.threads i).waitTarget = none := by
      unfold fileAt
      split
      · rw [same]
        simp [Machine.setFd]
      · rfl
    change ((t.setFd other fd none).fileAt other (t.threads i).waitTarget).bind _ = none
    rw [gone]
    rfl
  · have at_same : pipeAt (t.setFd domain fd none) other (t.threads i) =
        pipeAt t other (t.threads i) := by
      unfold pipeAt
      rw [fileAt_setFd_ne here]
      rfl
    rcases released.settled i bound other waits with
      ⟨id, pipe, at_pipe, found, blocks⟩ | ⟨out, none⟩
    · exact .inl ⟨id, pipe, at_same.trans at_pipe, found, blocks⟩
    · exact .inr ⟨out, at_same.trans none⟩

/-- When a domain ends its threads no longer wait, and others are woken as files are released. -/
theorem Fine.exit (fine : Fine cfg s none) (domain : Nat) :
    Fine cfg (s.endDomain cfg domain) none := by
  have started : Fine cfg s (some domain) := by
    refine ⟨fine.flows, fun i bound other waits => ?_⟩
    rcases fine.settled i bound other waits with idle | ⟨out, _⟩
    · exact .inl idle
    · cases out
  have closed : Fine cfg (s.cellCloseAllFds cfg domain) (some domain) := by
    exact List.foldlRecOn (motive := fun u => Fine cfg u (some domain)) _ _ started
      fun _ fine fd _ => fine.closeStep fd
  unfold endDomain
  generalize s.cellCloseAllFds cfg domain = t at closed
  refine ⟨⟨closed.flows.pipes, closed.flows.whole⟩, fun i bound other waits => ?_⟩
  dsimp only at waits ⊢
  split at waits
  · cases waits.1
  rename_i elsewhere
  rw [if_neg elsewhere]
  have apart : other ≠ domain := by
    rintro rfl
    exact elsewhere waits.2.2
  rcases closed.settled i bound other waits with ⟨id, pipe, at_pipe, found, blocks⟩ | ⟨out, _⟩
  · refine .inl ⟨id, pipe, ?_, found, blocks⟩
    rw [← at_pipe]
    unfold pipeAt fileAt
    dsimp only
    rw [Function.update_of_ne apart]
  · exact absurd (Option.some.inj out).symm apart

/-! ## Descriptors -/

section Calls

variable (whole : Whole cfg counted spared s hand)
variable {fd : Int}

include whole

/-- `close`. -/
theorem Whole.close (free : spared → FdFree cfg s domain fd) :
    Whole cfg counted spared (s.cellFdClose cfg domain fd).2 hand := by
  unfold cellFdClose
  split
  · exact whole
  rename_i f found
  have inside : 0 ≤ fd := by
    unfold fileAt at found
    split at found
    · omega
    · cases found
  have closed := whole.closeFd fun p => (free p).toNat inside
  rw [fds_of_fileAt found] at closed
  exact closed

/-- `dup`, with room for the new reference. -/
theorem Whole.dup (domain : Nat) (oldfd : Int) (minfd : Nat)
    (fits : counted → ∀ f, s.fileAt domain oldfd = some f → (s.files f).refcount + 1 < 2 ^ 16) :
    Whole cfg counted spared (s.cellFdDup domain oldfd minfd).2 hand := by
  unfold cellFdDup
  split
  · exact whole
  rename_i f found
  split
  · exact whole
  split
  · exact whole
  rename_i fd closed
  have kept := whole.retain (fun c => (whole.refs c).used_of_fd (fds_of_fileAt found))
    fun c => fits c f found
  exact kept.install (kept.fdFree (freeFd_closed closed))

/-- `dup3`, which may close a descriptor. -/
theorem Whole.dup3 {oldfd newfd : Int} (free : spared → FdFree cfg s domain newfd)
    (fits : counted → ∀ f, s.fileAt domain oldfd = some f → (s.files f).refcount + 1 < 2 ^ 16) :
    Whole cfg counted spared (s.cellFdDup3 cfg domain oldfd newfd).2 hand := by
  unfold cellFdDup3
  split
  · exact whole
  rename_i f found
  split
  · exact whole
  rename_i inside
  split
  · exact whole
  have kept := whole.retain (fun c => (whole.refs c).used_of_fd (fds_of_fileAt found))
    fun c => fits c f found
  have swapped := kept.swapFd fun p => ((free p).tame quiet_retain.1).toNat (by omega)
  have entry : (s.cellRetainOpenFile (some f)).fileAt domain newfd =
      ((s.cellRetainOpenFile (some f)).domains domain).fds newfd.toNat := by
    unfold fileAt
    rw [if_pos (by omega)]
  dsimp only
  rw [entry]
  exact swapped

/-! ## New files and pipes -/

/-- Opening a node; a FIFO gets an end of its pipe. -/
theorem Whole.openNode (fifo : Option Nat) (write : Bool) :
    Whole cfg counted spared (s.cellFdOpenNode cfg domain fifo write nonblock).2 hand := by
  unfold cellFdOpenNode
  split
  · rename_i ino
    have found : Whole cfg counted spared (s.cellFifoPipeForIno ino).2 hand :=
      whole.quiet (fun c => (whole.refs c).tables tables_fifo) (whole.flows.fifo ino)
        fun p => (whole.settled p).fifo ino
    split <;> rename_i middle answer <;> rw [answer] at found
    · exact found
    rename_i id
    split
    · exact found
    split
    · exact found
    rename_i fd closed
    rcases allocOpenFile_cases cfg middle with none | ⟨f, unused, got⟩
    · rw [none]
      exact found
    rw [got]
    dsimp only
    have ended : Whole cfg counted spared ((middle.setFile f freshFile).setFile f
        (pipeEnd ((middle.setFile f freshFile).files f) id write nonblock)) (f ::ₘ hand) := by
      refine .setFile (found.fresh unused) ?_ ?_ fun p => ?_
      · rfl
      · rfl
      · exact quiet_setFile (((found.sparedRefs p).fileFree unused).setFile f freshFile) _
    have free := ended.fdFree (freeFd_closed closed)
    have noted {t : Machine} (same : Still _ t) (flows : Flows t) :=
      ended.notify (fun c => ((ended.refs c).tables same.tables).install domain fd)
        (flows.setFd domain fd _) fun p =>
          same.tame.trans (quiet_setFd ((free p).tame same.tame) _).1
    split
    · exact noted (still_addWriter id) (ended.flows.addWriter id)
    · exact noted (still_addReader id) (ended.flows.addReader id)
  · split
    · exact whole
    rename_i fd closed
    rcases allocOpenFile_cases cfg s with none | ⟨f, unused, got⟩
    · rw [none]
      exact whole
    rw [got]
    have opened := whole.fresh unused
    exact opened.install (opened.fdFree (freeFd_closed closed))

omit whole in
/-- The two files get descriptors that no thread waits on. -/
theorem Whole.installTwo {f g fd0 fd1 : Nat} (whole : Whole cfg counted spared s (f ::ₘ g ::ₘ hand))
    (free : spared → FdFree cfg s domain fd0) (also : spared → FdFree cfg s domain fd1)
    (addr : Nat) : Whole cfg counted spared (s.installTwo cfg domain addr fd0 fd1 f g).2 hand := by
  unfold Machine.installTwo
  have quiet : Quiet cfg s (s.storeFds domain addr fd0 fd1).2 := quiet_storeFds
  have stored := whole.quiet (fun c => (whole.refs c).tables tables_storeFds)
    (whole.flows.storeFds domain addr fd0 fd1) fun _ => quiet
  split <;> rename_i after answer <;> rw [answer] at quiet stored
  · exact stored.release.release
  have free p := (free p).tame quiet.1
  have one := stored.install free
  exact one.install fun p => ((also p).tame quiet.1).tame (quiet_setFd (free p) _).1

/-- `pipe2`, with every failure on the way. -/
theorem Whole.pipe2 (domain addr : Nat) (nonblock : Bool) :
    Whole cfg counted spared (s.cellFdPipe2 cfg domain addr nonblock).2 hand := by
  unfold cellFdPipe2
  split
  · exact whole
  rename_i fd0 closed
  split
  · exact whole
  rename_i fd1 also_closed
  have free := whole.fdFree (freeFd_closed closed)
  have also := whole.fdFree (freeFd_closed also_closed)
  have quiet p := (whole.settled p).alloc 0
  have still := whole.quiet (fun c => (whole.refs c).tables (still_alloc 0).tables)
    (whole.flows.alloc 0) quiet
  rcases allocPipe_cases s 0 with none | ⟨id, _, unused_pipe, made⟩
  · rw [none]
    exact whole
  rw [made] at quiet still ⊢
  have idle p := ((whole.settled p).pipeFree unused_pipe).tame (quiet p).1
  dsimp only at quiet still idle ⊢
  generalize ({ s.setPipe id (some (PipeObj.fresh 0)) with
    freePages := s.freePages - pipePages, log := .created id :: s.log } : Machine) =
    middle at quiet still idle ⊢
  rcases allocTwoFiles_cases cfg middle with
    none | ⟨f, unused, zeroed⟩ | ⟨f, g, apart, unused, unused_too, got⟩
  · rw [none]
    exact still
  · rw [zeroed]
    exact still.zeroed unused
  rw [got]
  have free_f (p : spared) : FileFree cfg middle f := (still.sparedRefs p).fileFree unused
  have free_g (p : spared) : FileFree cfg middle g := (still.sparedRefs p).fileFree unused_too
  have opened p := quiet_freshTwo (free_f p) (free_g p)
  have same (u : Machine) : Still u ((u.cellPipeAddReader id).cellPipeAddWriter id) :=
    (still_addReader id).trans (still_addWriter id)
  have ends c := ((still.refs c).freshTwo apart unused unused_too).tables (same _).tables
  have flows := (((still.flows.setFile f freshFile).setFile g freshFile).addReader id).addWriter id
  have ended (p : spared) := by
    have idle := (idle p).tame (opened p).1
    have reader := (opened p).trans (quiet_addReader idle)
    have both := reader.trans (quiet_addWriter (idle.tame (quiet_addReader idle).1))
    exact quiet_setEnds (free_f p) (free_g p) both (same _).domains (same _).threads
  refine .installTwo (still.quiet (fun c => .setFile (.setFile (ends c) ?_ ?_) ?_ ?_)
    ((flows.setFile f _).setFile g _) fun p => ended p _ _)
    (fun p => ((free p).tame (quiet p).1).tame (ended p _ _).1)
    (fun p => ((also p).tame (quiet p).1).tame (ended p _ _).1) addr <;> rfl

/-- `socket` for a UNIX stream. -/
theorem Whole.socket (domain : Nat) :
    Whole cfg counted spared (s.cellFdSocketUnix cfg domain).2 hand := by
  unfold cellFdSocketUnix
  split
  · exact whole
  rename_i fd closed
  rcases allocOpenFile_cases cfg s with none | ⟨f, unused, got⟩
  · rw [none]
    exact whole
  rw [got]
  have opened : Whole cfg counted spared ((s.setFile f freshFile).setFile f
      { (s.setFile f freshFile).files f with type := .unixStream }) (f ::ₘ hand) := by
    refine .setFile (whole.fresh unused) ?_ ?_ fun p => ?_
    · rfl
    · rfl
    · exact quiet_setFile (((whole.sparedRefs p).fileFree unused).setFile f freshFile) _
  exact opened.install (opened.fdFree (freeFd_closed closed))

/-! ## Unix sockets -/

/-- `socketpair`, with every failure on the way. -/
theorem Whole.socketpair (domain addr : Nat) (nonblock : Bool) :
    Whole cfg counted spared (s.cellFdSocketpairUnix cfg domain addr nonblock).2 hand := by
  unfold cellFdSocketpairUnix
  split
  · exact whole
  rename_i fd0 closed
  split
  · exact whole
  rename_i fd1 also_closed
  have free := whole.fdFree (freeFd_closed closed)
  have also := whole.fdFree (freeFd_closed also_closed)
  have quiet p := (whole.settled p).allocTwo
  have pipes := whole.allocTwoPipes
  split <;> rename_i middle answer
  · rw [answer] at pipes
    exact pipes
  rename_i a2b b2a
  have idle p := (whole.settled p).allocTwo_free answer
  rw [answer] at pipes quiet
  rcases allocTwoFiles_cases cfg middle with
    none | ⟨f, unused, zeroed⟩ | ⟨f, g, apart, unused, unused_too, got⟩
  · rw [none]
    exact pipes.freeTwo idle
  · rw [zeroed]
    have zero (p : spared) : Quiet cfg middle (middle.setFile f .zero) :=
      quiet_setFile ((pipes.sparedRefs p).fileFree unused) _
    exact (pipes.zeroed unused).freeTwo fun p =>
      ⟨(idle p).1.tame (zero p).1, (idle p).2.tame (zero p).1⟩
  rw [got]
  have free_f (p : spared) : FileFree cfg middle f := (pipes.sparedRefs p).fileFree unused
  have free_g (p : spared) : FileFree cfg middle g := (pipes.sparedRefs p).fileFree unused_too
  have opened p := quiet_freshTwo (free_f p) (free_g p)
  have ended (p : spared) := (opened p).trans (quiet_pairEnds
    (((free_f p).setFile f _).setFile g _) (((free_g p).setFile f _).setFile g _)
    ((idle p).1.tame (opened p).1) ((idle p).2.tame (opened p).1) nonblock)
  exact .installTwo (pipes.quiet
    (fun c => ((pipes.refs c).freshTwo apart unused unused_too).pairEnds f g a2b b2a nonblock)
    (((pipes.flows.setFile _ _).setFile _ _).pairEnds f g a2b b2a nonblock) ended)
    (fun p => ((free p).tame (quiet p).1).tame (ended p).1)
    (fun p => ((also p).tame (quiet p).1).tame (ended p).1) addr

/-- `bind` to a path. -/
theorem Whole.bind (domain : Nat) (fd : Int) (path : String) (taken made : Bool) :
    Whole cfg counted spared (s.cellFdUnixBind domain fd path taken made).2 hand := by
  unfold cellFdUnixBind
  repeat' split
  all_goals first
    | exact whole
    | exact whole.setFile rfl rfl fun _ => quiet_setFile_view rfl

/-- `listen`, on a socket on which nobody waits. -/
theorem Whole.listen (free : spared → ∀ f, s.fileAt domain fd = some f → FileFree cfg s f) :
    Whole cfg counted spared (s.cellFdUnixListen domain fd).2 hand := by
  unfold cellFdUnixListen
  split
  · exact whole
  rename_i f found
  split
  · exact whole
  · refine whole.setFile ?_ ?_ fun p => ?_
    · rfl
    · rfl
    · exact quiet_setFile (free p f (fileAt_of_unixFile found)) _

/-- A connection that waits is taken: its reference becomes a descriptor. -/
theorem Whole.takePending (domain listener : Nat) (nonblock : Bool) :
    Whole cfg counted spared (s.cellSocketTakePendingUnix domain listener nonblock).2 hand := by
  unfold cellSocketTakePendingUnix acceptFlags
  split
  · exact whole
  rename_i fd closed
  split
  · exact whole
  rename_i slot _
  split
  · exact whole
  rename_i conn found
  have taken := whole.setPending fun c => (whole.refs c).takeConn found
  have installed := taken.install (taken.fdFree (freeFd_closed closed))
  split
  · refine installed.setFile ?_ ?_ fun _ => quiet_setFile_view ?_ <;> rfl
  · exact installed

/-- The threads that wait to accept are woken with their descriptors. -/
theorem Whole.wakeAccept :
    Whole cfg counted spared (cellSocketWakeUnixAcceptWaiters cfg s listener) hand := by
  refine List.foldlRecOn (motive := fun u => Whole cfg counted spared u hand) _ _ whole
    fun s whole thread _ => ?_
  unfold wakeAcceptStep
  split
  · exact whole
  split
  · dsimp only
    split
    · exact whole.takePending _ _ _
    apply Whole.setThread (whole.takePending _ _ _)
    · unfold cellSocketTakePendingUnix acceptFlags
      repeat' split
      all_goals rfl
    · intro domain waits
      cases waits.1
  · exact whole

/-- `accept` returns a connection or blocks. -/
theorem Whole.accept (thread domain : Nat) (fd : Int) (nonblock : Bool) :
    Whole cfg counted spared (s.cellFdUnixAccept thread domain fd nonblock).2 hand := by
  unfold cellFdUnixAccept
  split
  · exact whole
  split
  · exact whole
  rename_i listener _ _
  have taken := whole.takePending domain listener nonblock
  dsimp only
  split
  · exact taken
  split
  · exact taken
  apply taken.setThread
  · rfl
  · intro domain waits
    cases waits.2.1

/-- `connect`, from a socket on which nobody waits. -/
theorem Whole.connect
    (free : spared → ∀ f, s.fileAt domain fd = some f → FileFree cfg s f) (path : String) :
    Whole cfg counted spared (s.cellFdUnixConnect cfg domain fd path).2 hand := by
  unfold cellFdUnixConnect
  split
  · exact whole
  rename_i client found
  split
  · exact whole
  split
  · exact whole
  rename_i listener _
  have pipes := whole.allocTwoPipes
  have free_client p := (free p client (fileAt_of_unixFile found)).same
    (still_allocTwoPipes (s := s)).domains still_allocTwoPipes.threads
  split <;> rename_i middle answer
  · rw [answer] at pipes
    exact pipes
  rename_i c2s s2c
  have idle p := (whole.settled p).allocTwo_free answer
  rw [answer] at pipes free_client
  rcases allocOpenFile_cases cfg middle with none | ⟨server, unused, got⟩
  · rw [none]
    exact pipes.freeTwo idle
  rw [got]
  have free_server (p : spared) : FileFree cfg middle server :=
    (pipes.sparedRefs p).fileFree unused
  have opened p : Quiet cfg middle (middle.setFile server freshFile) :=
    quiet_setFile (free_server p) _
  have join (p : spared) := (opened p).trans (quiet_joinEnds
    ((free_client p).setFile server freshFile) ((free_server p).setFile server freshFile)
    ((idle p).1.tame (opened p).1) ((idle p).2.tame (opened p).1) path)
  have joined := pipes.quiet
    (fun c => ((pipes.refs c).fresh unused rfl rfl).joinEnds client server c2s s2c path)
    ((pipes.flows.setFile server freshFile).joinEnds client server c2s s2c path) join
  dsimp only
  split
  · exact (joined.setPending fun c => (joined.refs c).addConn).wakeAccept
  · have tame (p : spared) := (keeps_release server (joined.fine p)).2
    exact joined.release.freeTwo fun p => ⟨((idle p).1.tame (join p).1).tame (tame p),
      ((idle p).2.tame (join p).1).tame (tame p)⟩

/-! ## Processes -/

/-- `fork`, if no count of a file passes its maximum. -/
theorem Whole.fork (parent : Nat)
    (fits : counted → ∀ f, fdsOf s parent (List.range maxFds) f ≠ 0 →
      (s.files f).refcount + fdsOf s parent (List.range maxFds) f < 2 ^ 16) :
    Whole cfg counted spared (s.forkDomain cfg parent) hand := by
  unfold forkDomain
  split
  · exact whole
  rename_i child found
  split
  · exact whole
  rename_i thread _
  have unused := List.find?_some found
  refine whole.quiet (fun c => ?_) ?_ fun p => ?_
  · have room (f : Nat) (some_left : fdsOf (s.allocDomain child) parent (List.range maxFds) f ≠ 0) :
        (s.files f).refcount +
          fdsOf (s.allocDomain child) parent (List.range maxFds) f < 2 ^ 16 := by
      -- The slot of the child is empty, so the parent is another domain.
      unfold fdsOf at some_left ⊢
      rw [allocDomain_domains] at some_left ⊢
      by_cases here : parent = child
      · simp [here] at some_left
      · rw [Function.update_of_ne here] at some_left ⊢
        exact fits c f some_left
    obtain ⟨copied, used⟩ := ((whole.refs c).allocDomain child).copyTable room
    refine copied.newThread rfl ?_
    rw [used, allocDomain_domains, Function.update_self]
  · apply Flows.setThread
    refine List.foldlRecOn _ _ ⟨whole.flows.pipes, whole.flows.whole⟩ fun s flows fd _ => ?_
    exact (flows.setFd _ _ _).retain _
  · have vacant : Vacant s child := (whole.sparedRefs p).vacant (by simpa using unused)
    have still : Vacant (s.allocDomain child) child := vacant
    exact ((quiet_allocDomain vacant).trans (quiet_copyTable still)).trans quiet_newThread

/-- A thread is started in a domain in use. -/
theorem Whole.start (used : counted → (s.domains domain).used) :
    Whole cfg counted spared (s.startThread cfg domain) hand := by
  unfold startThread
  split
  · exact whole
  · exact whole.quiet (fun c => (whole.refs c).newThread rfl (used c)) (whole.flows.setThread _ _)
      fun _ => quiet_newThread

/-- A signal ends the call that a thread is blocked in. -/
theorem Whole.interrupt (thread : Nat) : Whole cfg counted spared (s.interrupt thread) hand := by
  unfold Machine.interrupt
  split
  · apply whole.setThread
    · rfl
    · intro domain waits
      cases waits.1
  · exact whole

/-- A domain ends. -/
theorem Whole.exit (domain : Nat) : Whole cfg counted spared (s.endDomain cfg domain) hand := by
  refine ⟨fun c => (whole.refs c).exit domain, ?_,
    fun p => ((whole.fine p).exit domain).settled, whole.implied⟩
  have closed : Flows (s.cellCloseAllFds cfg domain) :=
    List.foldlRecOn _ _ whole.flows fun _ flows fd _ =>
      (flows.releaseOptional _).setFd domain fd none
  exact ⟨closed.pipes, closed.whole⟩

/-! ## Runs -/

/-- A call is made by a thread that runs, and its result is stored. -/
theorem Whole.call {body : Nat → Int × Machine}
    (kept : ∀ domain, s.running thread = some domain →
      Whole cfg counted spared (body domain).2 hand) :
    Whole cfg counted spared (s.call thread body).2 hand := by
  unfold Machine.call
  split
  · exact whole
  · rename_i domain running
    exact kept domain running

/-- Every step keeps references counted and pipes streams, and a step that spares the blocked
threads leaves each of them waiting for something. -/
theorem Whole.next {op : Op} (fits : counted → CountsFit s op) (free : spared → Spared cfg s op) :
    Whole cfg counted spared (s.next cfg op) hand := by
  cases op with
  | read thread fd buf len =>
    exact whole.call fun d running => whole.fdRead (domain_of_running running)
  | write thread fd buf len =>
    exact whole.call fun d running => whole.fdWrite (domain_of_running running)
  | recv thread fd buf len dontwait =>
    exact whole.call fun d running => whole.recv (domain_of_running running) buf len dontwait
  | close thread fd => exact whole.call fun d running => whole.close fun p => free p d running
  | dup thread oldfd minfd =>
    exact whole.call fun d running => whole.dup d oldfd minfd fun c => fits c d running
  | dup3 thread oldfd newfd =>
    exact whole.call fun d running =>
      whole.dup3 (fun p => free p d running) fun c => fits c d running
  | «open» thread fifo write nonblock =>
    exact whole.call fun d _ => whole.openNode fifo write
  | pipe2 thread addr nonblock => exact whole.call fun d _ => whole.pipe2 d addr.toNat nonblock
  | socket thread => exact whole.call fun d _ => whole.socket d
  | socketpair thread addr nonblock =>
    exact whole.call fun d _ => whole.socketpair d addr.toNat nonblock
  | bind thread fd path taken made =>
    exact whole.call fun d _ => whole.bind d fd path taken made
  | listen thread fd => exact whole.call fun d running => whole.listen fun p => free p d running
  | connect thread fd path =>
    exact whole.call fun d running => whole.connect (fun p => free p d running) path
  | accept thread fd nonblock => exact whole.call fun d _ => whole.accept thread d fd nonblock
  | fork thread =>
    refine whole.call fun d running => whole.fork d fun c f some_left => ?_
    obtain ⟨fd, inside, refers⟩ := List.countP_pos_iff.mp (Nat.pos_of_ne_zero some_left)
    exact fits c d running fd (List.mem_range.mp inside) f (of_decide_eq_true refers)
  | start thread =>
    exact whole.call fun d running =>
      whole.start fun c => (whole.refs c).housed thread d (domain_of_running running)
  | exit thread => exact whole.call fun d _ => whole.exit d
  | interrupt thread => exact whole.interrupt thread
  | remap memory freePages =>
    exact whole.quiet (fun c => (whole.refs c).tables ⟨rfl, rfl, rfl, fun _ => rfl⟩)
      ⟨whole.flows.pipes, whole.flows.whole⟩ fun _ => quiet_of_view rfl rfl rfl fun _ => rfl

end Calls

/-- After boot nobody waits and nothing is open. -/
theorem whole_boot (memory : UserMemory) (implied : spared → counted) :
    Whole cfg counted spared (boot memory freePages) 0 := by
  refine ⟨fun _ => refs_boot memory,
    ⟨fun _ _ found => (by cases found), fun _ member => (by cases member)⟩,
    fun _ i _ domain waits => ?_, implied⟩
  simp only [boot] at waits
  split at waits
  · cases waits.1
  · cases waits.1

/-- A domain whose memory is not mapped. -/
def unmapped : UserMemory where
  ram _ _ := 0
  space _ _ := ⟨none, fun _ => none⟩
  mm _ := none

/-- In every state of every run whose counters of open files do not overflow, the count of an open
file is not below the number of descriptors and waiting connections that refer to it, and a counted
file is in use: no descriptor dangles. -/
theorem open_files_counted (cfg : Config) (memory : UserMemory) (freePages : Nat) (ops : List Op)
    (fits : EveryInput (next cfg) CountsFit (boot memory freePages) ops) :
    EveryState (next cfg) (fun s => ∀ f, {owner | refers s owner f}.encard ≤ (s.files f).refcount ∧
      ((s.files f).refcount ≠ 0 → (s.files f).used = true)) (boot memory freePages) ops := by
  have every : EveryState (next cfg) (Whole cfg True False · 0) (boot memory freePages) ops :=
    everyState_of_everyInput (fun _ _ whole fits => whole.next (fun _ => fits) False.elim)
      (whole_boot memory fun _ => trivial) fits
  refine every.mono fun s whole f => ⟨?_, (whole.refs trivial).held.opened f⟩
  simpa using (whole.refs trivial).held.counted f

/-- A FIFO is opened, its descriptor doubled, the table copied to a child and taken apart again. -/
theorem open_files_counted_fork :
    let ops := [.open 0 (some 7) false false, .dup 0 3 0, .fork 0, .close 0 3, .exit 1, .close 0 4]
    EveryInput (next ⟨8, 2, 2⟩) CountsFit (boot unmapped 64) ops ∧
      EveryState (next ⟨8, 2, 2⟩)
        (fun s => ∀ f, {owner | refers s owner f}.encard ≤ (s.files f).refcount ∧
          ((s.files f).refcount ≠ 0 → (s.files f).used = true)) (boot unmapped 64) ops := by
  intro ops
  have fits : EveryInput (next ⟨8, 2, 2⟩) CountsFit (boot unmapped 64) ops := by decide +kernel
  exact ⟨fits, open_files_counted ⟨8, 2, 2⟩ unmapped 64 ops fits⟩

/-- In every run whose steps spare the blocked threads and overflow no counter of an open file,
every thread that is blocked in a pipe operation would block again, in every state of the run. -/
theorem no_lost_wakeup (cfg : Config) (memory : UserMemory) (freePages : Nat) (ops : List Op)
    (spared : EveryInput (next cfg) (fun s op => Spared cfg s op ∧ CountsFit s op)
      (boot memory freePages) ops) :
    EveryState (next cfg) (NoLostWakeup cfg) (boot memory freePages) ops := by
  have every : EveryState (next cfg) (Whole cfg True True · 0) (boot memory freePages) ops :=
    everyState_of_everyInput
      (fun _ _ whole good => whole.next (fun _ => good.2) fun _ => good.1)
      (whole_boot memory id) spared
  exact every.mono fun _ whole => (whole.fine trivial).noLostWakeup

/-- A FIFO is opened at both ends, and a second thread blocks reading it. -/
def blockedReader : List Op :=
  [.open 0 (some 7) false false, .open 0 (some 7) true false, .start 0, .read 1 3 0 1]

/-- The condition leaves room for a thread that blocks, for more references to both ends and for
the close of the other end. -/
theorem no_lost_wakeup_write_end_closed :
    let ops := blockedReader ++ [.dup 0 3 0, .dup3 0 4 6, .close 0 6, .close 0 4]
    EveryInput (next ⟨8, 2, 2⟩) (fun s op => Spared ⟨8, 2, 2⟩ s op ∧ CountsFit s op)
        (boot unmapped 64) ops ∧
      EveryState (next ⟨8, 2, 2⟩) (NoLostWakeup ⟨8, 2, 2⟩) (boot unmapped 64) ops := by
  intro ops
  have spared : EveryInput (next ⟨8, 2, 2⟩) (fun s op => Spared ⟨8, 2, 2⟩ s op ∧ CountsFit s op)
      (boot unmapped 64) ops := by decide +kernel
  exact ⟨spared, no_lost_wakeup ⟨8, 2, 2⟩ unmapped 64 ops spared⟩

/-- `cell_fd_close` wakes the threads while the descriptor is still in the table: a thread that
waits on it is left blocked in a call that would fail with `-EBADF`. -/
theorem close_loses_wakeup :
    ¬ EveryState (next ⟨8, 2, 2⟩) (NoLostWakeup ⟨8, 2, 2⟩) (boot unmapped 64)
      (blockedReader ++ [.close 0 3]) := by
  intro every
  have waits : WaitsOnPipe (((blockedReader ++ [Op.close 0 3]).foldl (next ⟨8, 2, 2⟩)
      (boot unmapped 64)).threads 1) 0 := by decide +kernel
  have again := every.last 1 (by decide) 0 waits
  revert again
  decide +kernel

end Spore.Ipc
