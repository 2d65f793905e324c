import Spore.Ipc.References
import Spore.Ipc.Streams

/-!
# No pipe wakeup is lost

A thread blocked in a pipe operation waits for a change of its pipe. `wake_pipe_waiters` goes
over the threads once, and a retried call may itself change a pipe that an earlier thread waits
for. That does no harm because a pipe never has both blocked readers and blocked writers: a
blocked reader means that the buffer is empty, and then every write has room.
-/

namespace Spore.Ipc

open Function Spore.Lib Machine Option

variable {cfg : Config} {s t u : Machine}
  {domain f thread listener parent first second slot addr other a b child : Nat} {pipe : PipeObj}
  {waiter value : Proc.Thread} {ending : Option Nat} {file : OpenFile} {out : Int × Machine}
  {hand : Multiset Nat} {fd : Int}

/-! ## What a blocked thread waits for -/

/-- The pipe that a read or write of the file goes to. -/
def OpenFile.pipeFor (file : OpenFile) (write : Bool) : Option Nat :=
  if file.type = .unixStream then some (if write then file.unixTxPipe else file.unixRxPipe)
  else if file.type = .pipe ∧ file.pipeWriteEnd = write then some file.pipeId
  else none

/-- The pipe depends on which end the file is, and on nothing else. -/
theorem pipeFor_of_view {a b : OpenFile} (same : a.view = b.view) (write : Bool) :
    a.pipeFor write = b.pipeFor write := by
  simp only [OpenFile.view, Prod.mk.injEq] at same
  obtain ⟨type, id, writeEnd, _, rx, tx, _⟩ := same
  simp only [OpenFile.pipeFor, type, id, writeEnd, rx, tx]

/-- The pipe that a thread's call on a descriptor goes to. -/
def pipeAt (s : Machine) (domain : Nat) (waiter : Proc.Thread) : Option Nat :=
  (s.fileAt domain waiter.waitTarget).bind fun f => (s.files f).pipeFor waiter.wait.pipeWrite

/-- A read or write of the pipe blocks. -/
def Blocks (pipe : PipeObj) (write : Bool) (len : Nat) : Prop :=
  len ≠ 0 ∧ if write then pipe.readers ≠ 0 ∧ NoRoom pipe len else pipe.ring.len = 0 ∧ NoEnd pipe

/-- The call of a blocked thread would block again. -/
def Idle (s : Machine) (domain : Nat) (waiter : Proc.Thread) : Prop :=
  ∃ id pipe, pipeAt s domain waiter = some id ∧ s.pipeForId id = some pipe ∧
    Blocks pipe waiter.wait.pipeWrite waiter.wait.pipeLen.toNat

/-- The call that is made again, by the pipe it goes to. -/
theorem retry_eq :
    s.retry domain waiter =
      match pipeAt s domain waiter with
      | none => (-eBadf, s)
      | some pipe =>
        if waiter.wait.pipeWrite then
          writeIdWith id s domain pipe waiter.wait.pipeBuf.toNat waiter.wait.pipeLen.toNat
        else
          readIdWith id s domain pipe waiter.wait.pipeBuf.toNat waiter.wait.pipeLen.toNat := by
  unfold retry pipeAt
  cases s.fileAt domain waiter.waitTarget with
  | none => rfl
  | some f =>
    simp only [bind_some, OpenFile.pipeFor]
    by_cases stream : (s.files f).type = .unixStream
    · simp only [if_pos stream]
      cases waiter.wait.pipeWrite <;> rfl
    simp only [if_neg stream]
    unfold writeFileWith readFileWith
    by_cases pipe : (s.files f).type = .pipe
    · cases waiter.wait.pipeWrite <;> cases (s.files f).pipeWriteEnd <;> simp [pipe]
    · cases waiter.wait.pipeWrite <;> simp [pipe]

/-- What a retried call does: it blocks again, or changes no pipe, or moves bytes. -/
inductive Retried (s : Machine) (domain : Nat) (waiter : Proc.Thread) : Int × Machine → Prop where
  | again (idle : Idle s domain waiter) : Retried s domain waiter (-eAgain, s)
  | done (result : Int) (memory : UserMemory) (other : result ≠ -eAgain) :
    Retried s domain waiter (result, { s with memory := memory })
  | wrote (id : Nat) (pipe : PipeObj) (memory : UserMemory) (ring : RingBuffer UInt8)
    (bytes : List UInt8) (at_pipe : pipeAt s domain waiter = some id)
    (write : waiter.wait.pipeWrite = true) (found : s.pipeForId id = some pipe)
    (longer : pipe.ring.len ≤ ring.len) :
    Retried s domain waiter
      (bytes.length, accepts s memory id waiter.wait.pipeLen.toNat pipe ring bytes)
  | read (id : Nat) (pipe : PipeObj) (memory : UserMemory) (ring : RingBuffer UInt8)
    (bytes : List UInt8) (at_pipe : pipeAt s domain waiter = some id)
    (read : waiter.wait.pipeWrite = false) (found : s.pipeForId id = some pipe)
    (filled : pipe.ring.len ≠ 0) :
    Retried s domain waiter (bytes.length, returns s memory id pipe ring bytes)

/-- No count of bytes is taken for an error. -/
theorem length_ne_again (bytes : List UInt8) : (bytes.length : Int) ≠ -eAgain := by
  unfold eAgain
  omega

/-- Every retry has one of these outcomes. -/
theorem retried (flows : Flows s) (domain : Nat) (waiter : Proc.Thread) :
    Retried s domain waiter (s.retry domain waiter) := by
  rw [retry_eq]
  split
  · exact .done _ s.memory (by decide)
  rename_i target at_pipe
  split
  · rename_i write
    have outcome := writeIdWith_outcome (s := s) id domain target waiter.wait.pipeBuf.toNat
      waiter.wait.pipeLen.toNat
    generalize writeIdWith id s domain target _ _ = out at outcome
    cases outcome with
    | nothing | gone | broken => exact .done _ s.memory (by decide)
    | full pipe found readers bytes full =>
      exact .again ⟨target, pipe, at_pipe, found, bytes, by rw [write]; exact ⟨readers, full⟩⟩
    | fault _ memory => exact .done _ memory (by decide)
    | moved pipe memory ring bytes found _ contents _ _ _ =>
      have longer : pipe.ring.len ≤ ring.len := by
        have := congrArg List.length contents
        simp only [RingBuffer.length_contents, List.length_append] at this
        omega
      exact .wrote target pipe memory ring bytes at_pipe write found longer
  · rename_i read
    have read : waiter.wait.pipeWrite = false := by simpa using read
    have outcome := readIdWith_outcome (s := s) id domain target waiter.wait.pipeBuf.toNat
      waiter.wait.pipeLen.toNat (flows.head_lt target)
    generalize readIdWith id s domain target _ _ = out at outcome
    cases outcome with
    | nothing | gone | atEnd => exact .done _ s.memory (by decide)
    | empty pipe found bytes empty no_end =>
      exact .again ⟨target, pipe, at_pipe, found, bytes, by rw [read]; exact ⟨empty, no_end⟩⟩
    | fault _ memory => exact .done _ memory (by decide)
    | moved pipe memory ring bytes found filled =>
      exact .read target pipe memory ring bytes at_pipe read found filled

/-- A retry that asks to come again has changed nothing. -/
theorem Retried.idle {out : Int × Machine} (outcome : Retried s domain waiter out)
    (again : out.1 = -eAgain) : Idle s domain waiter ∧ out.2 = s := by
  cases outcome with
  | again idle => exact ⟨idle, rfl⟩
  | done _ _ other => exact absurd again other
  | wrote _ _ _ _ bytes | read _ _ _ _ bytes => exact absurd again (length_ne_again bytes)

/-- A thread's call would block again exactly when it is idle. -/
theorem retry_again_iff (flows : Flows s) :
    (s.retry domain waiter).1 = -eAgain ↔ Idle s domain waiter := by
  refine ⟨fun again => ((retried flows domain waiter).idle again).1, ?_⟩
  rintro ⟨target, pipe, at_pipe, found, bytes, blocks⟩
  rw [retry_eq, at_pipe]
  dsimp only
  cases write : waiter.wait.pipeWrite with
  | true =>
    rw [write] at blocks
    rw [if_pos rfl]
    unfold writeIdWith
    rw [if_neg bytes, found]
    dsimp only
    have full : pipeCap - pipe.ring.len = 0 ∨ waiter.wait.pipeLen.toNat ≤ pipeBuf ∧
      pipeCap - pipe.ring.len < waiter.wait.pipeLen.toNat := blocks.2
    rw [if_neg blocks.1, if_pos full]
  | false =>
    rw [write] at blocks
    rw [if_neg (by decide)]
    unfold readIdWith
    rw [if_neg bytes, found]
    dsimp only
    have empty : min waiter.wait.pipeLen.toNat pipe.ring.len = 0 := by
      have := blocks.1
      omega
    rw [if_pos empty, if_neg blocks.2]

/-! ## Readers and writers do not wait at once -/

/-- No pipe has blocked readers and blocked writers. -/
theorem blocks_exclusive {a b : Bool} {m n : Nat} (first : Blocks pipe a m)
    (second : Blocks pipe b n) : a = b := by
  have clash : ∀ {m n}, Blocks pipe true m → Blocks pipe false n → False := by
    intro m n ⟨_, _, full⟩ ⟨_, empty, _⟩
    unfold NoRoom pipeCap pipeBuf at full
    omega
  cases a <;> cases b
  · rfl
  · exact (clash second first).elim
  · exact (clash first second).elim
  · rfl

/-- The threads that wait for one pipe all read or all write. -/
def Exclusive (cfg : Config) (s : Machine) : Prop :=
  ∀ i j, i < cfg.threads → j < cfg.threads → ∀ di dj, WaitsOnPipe (s.threads i) di →
    WaitsOnPipe (s.threads j) dj → ∀ id, pipeAt s di (s.threads i) = some id →
    pipeAt s dj (s.threads j) = some id →
    (s.threads i).wait.pipeWrite = (s.threads j).wait.pipeWrite

/-- Every blocked thread is idle, but for threads of a domain that is ending whose descriptor is
closed already. -/
def Settled (cfg : Config) (s : Machine) (ending : Option Nat) : Prop :=
  ∀ i, i < cfg.threads → ∀ domain, WaitsOnPipe (s.threads i) domain →
    Idle s domain (s.threads i) ∨ ending = some domain ∧ pipeAt s domain (s.threads i) = none

/-- A thread that waits for a pipe is kept waiting by it. -/
theorem Settled.idle_of_pipe (settled : Settled cfg s ending) {i id : Nat}
    (bound : i < cfg.threads) (waits : WaitsOnPipe (s.threads i) domain)
    (at_pipe : pipeAt s domain (s.threads i) = some id) :
    ∃ pipe, s.pipeForId id = some pipe ∧
      Blocks pipe (s.threads i).wait.pipeWrite (s.threads i).wait.pipeLen.toNat := by
  rcases settled i bound domain waits with ⟨target, pipe, at_target, found, blocks⟩ | ⟨_, none⟩
  · obtain rfl : target = id := some.inj (at_target.symm.trans at_pipe)
    exact ⟨pipe, found, blocks⟩
  · rw [none] at at_pipe
    cases at_pipe

/-- Readers and writers do not wait for one pipe: it cannot be empty and full at once. -/
theorem Settled.exclusive (settled : Settled cfg s ending) : Exclusive cfg s := by
  intro i j bi bj di dj wi wj id at_i at_j
  obtain ⟨pipe, found, blocks_i⟩ := settled.idle_of_pipe bi wi at_i
  obtain ⟨same, found_j, blocks_j⟩ := settled.idle_of_pipe bj wj at_j
  obtain rfl : same = pipe := some.inj (found_j.symm.trans found)
  exact blocks_exclusive blocks_i blocks_j

/-- The threads that still wait are the same, and wait for the same pipes. -/
def Tame (cfg : Config) (s t : Machine) : Prop :=
  ∀ i, i < cfg.threads → ∀ domain, WaitsOnPipe (t.threads i) domain →
    t.threads i = s.threads i ∧ pipeAt t domain (t.threads i) = pipeAt s domain (s.threads i)

/-- Nothing happens to the threads that wait. -/
theorem Tame.rfl : Tame cfg s s := fun _ _ _ _ => ⟨by rfl, by rfl⟩

/-- Two steps that disturb no waiter. -/
theorem Tame.trans (first : Tame cfg s t) (second : Tame cfg t u) : Tame cfg s u := by
  intro i bound domain waits
  obtain ⟨same, at_pipe⟩ := second i bound domain waits
  rw [same] at waits
  obtain ⟨before, at_before⟩ := first i bound domain waits
  exact ⟨same.trans before, at_pipe.trans at_before⟩

/-- Threads that go on waiting wait for what they waited for. -/
theorem Exclusive.tame (exclusive : Exclusive cfg s) (tame : Tame cfg s t) : Exclusive cfg t := by
  intro i j bi bj di dj wi wj id at_i at_j
  obtain ⟨same_i, pipe_i⟩ := tame i bi di wi
  obtain ⟨same_j, pipe_j⟩ := tame j bj dj wj
  rw [pipe_i] at at_i
  rw [pipe_j] at at_j
  rw [same_i] at wi ⊢
  rw [same_j] at wj ⊢
  exact exclusive i j bi bj di dj wi wj id at_i at_j

/-- The threads that still wait are the same, and so are the pipes they wait for. -/
def Quiet (cfg : Config) (s t : Machine) : Prop :=
  Tame cfg s t ∧ ∀ i, i < cfg.threads → ∀ domain, WaitsOnPipe (t.threads i) domain → ∀ id,
    pipeAt s domain (s.threads i) = some id → t.pipeForId id = s.pipeForId id

/-- Nothing happens to the threads that wait, nor to their pipes. -/
theorem Quiet.rfl : Quiet cfg s s := ⟨.rfl, fun _ _ _ _ _ _ => by rfl⟩

/-- Two quiet steps. -/
theorem Quiet.trans (first : Quiet cfg s t) (second : Quiet cfg t u) : Quiet cfg s u := by
  refine ⟨first.1.trans second.1, fun i bound domain waits id at_pipe => ?_⟩
  obtain ⟨same, _⟩ := second.1 i bound domain waits
  have still : WaitsOnPipe (t.threads i) domain := by rwa [same] at waits
  obtain ⟨_, at_middle⟩ := first.1 i bound domain still
  rw [second.2 i bound domain waits id (at_middle.trans at_pipe),
    first.2 i bound domain still id at_pipe]

/-- A quiet step gives no waiter anything to do. -/
theorem Settled.quiet (settled : Settled cfg s ending) (quiet : Quiet cfg s t) :
    Settled cfg t ending := by
  intro i bound domain waits
  obtain ⟨same, at_pipe⟩ := quiet.1 i bound domain waits
  have before : WaitsOnPipe (s.threads i) domain := by rwa [same] at waits
  rcases settled i bound domain before with ⟨id, pipe, at_id, found, blocks⟩ | ⟨out, none⟩
  · refine .inl ⟨id, pipe, at_pipe.trans at_id, ?_, by rw [same]; exact blocks⟩
    rw [quiet.2 i bound domain waits id at_id]
    exact found
  · exact .inr ⟨out, at_pipe.trans none⟩

/-! ## One round over the threads -/

/-- A thread that was woken does not wait. -/
theorem not_waits_woken (result : Int) (domain : Nat) :
    ¬ WaitsOnPipe (wokenWith waiter result) domain := by
  intro waits
  cases waits.1

/-- Other pipes stay. -/
theorem pipeForId_setPipe_ne {id : Nat} {pipe : Option PipeObj} (apart : other ≠ id) :
    (s.setPipe id pipe).pipeForId other = s.pipeForId other := by
  unfold pipeForId
  rw [setPipe_pipes, update_of_ne apart]

/-- The pipe that was stored is found. -/
theorem pipeForId_setPipe_self {id : Nat} {old : PipeObj} (found : s.pipeForId id = some old) :
    (s.setPipe id (some pipe)).pipeForId id = some pipe := by
  unfold pipeForId at found ⊢
  split at found
  · rename_i inside
    rw [if_pos inside, setPipe_pipes, update_self]
  · cases found

/-- A full pipe stays full when it gets fuller. -/
theorem Blocks.longer {ring : RingBuffer UInt8} {len : Nat} {writeOffset : BitVec 64}
    (blocks : Blocks pipe true len) (longer : pipe.ring.len ≤ ring.len) :
    Blocks { pipe with ring := ring, writeOffset := writeOffset } true len := by
  obtain ⟨bytes, readers, full⟩ := blocks
  refine ⟨bytes, readers, ?_⟩
  unfold NoRoom at full ⊢
  dsimp only
  omega

/-- A thread that is idle stays idle when another one's call is made again. -/
theorem Idle.retried {waiter another : Proc.Thread}
    (idle : Idle s domain waiter) (outcome : Retried s other another out)
    (exclusive : ∀ id, pipeAt s domain waiter = some id → pipeAt s other another = some id →
      waiter.wait.pipeWrite = another.wait.pipeWrite) : Idle out.2 domain waiter := by
  obtain ⟨id, pipe, at_pipe, found, blocks⟩ := idle
  cases outcome with
  | again | done => exact ⟨id, pipe, at_pipe, found, blocks⟩
  | wrote target its_pipe memory ring bytes at_target write found_target longer =>
    by_cases same : id = target
    · subst same
      obtain rfl : its_pipe = pipe := some.inj (found_target.symm.trans found)
      rw [exclusive id at_pipe at_target, write] at blocks
      refine ⟨id, _, at_pipe, pipeForId_setPipe_self found, ?_⟩
      rw [exclusive id at_pipe at_target, write]
      exact blocks.longer longer
    · exact ⟨id, pipe, at_pipe, (pipeForId_setPipe_ne same).trans found, blocks⟩
  | read target its_pipe memory ring bytes at_target read found_target filled =>
    by_cases same : id = target
    · subst same
      obtain rfl : its_pipe = pipe := some.inj (found_target.symm.trans found)
      rw [exclusive id at_pipe at_target, read] at blocks
      exact absurd blocks.2.1 filled
    · exact ⟨id, pipe, at_pipe, (pipeForId_setPipe_ne same).trans found, blocks⟩

/-- A retry changes no thread; the caller stores the result. -/
theorem Retried.threads {waiter : Proc.Thread}
    (outcome : Retried s domain waiter out) : out.2.threads = s.threads := by
  cases outcome <;> rfl

/-- A thread that does not wait afterwards may change in any way. -/
theorem tame_setThread (awake : ∀ domain, ¬ WaitsOnPipe value domain) :
    Tame cfg s (s.setThread thread value) := by
  intro i _ domain waits
  by_cases here : i = thread
  · rw [here, setThread_threads, update_self] at waits
    exact absurd waits (awake domain)
  · rw [setThread_threads, update_of_ne here]
    exact ⟨by rfl, by rfl⟩

/-- A step on pipes moves no waiter. -/
theorem Still.tame (still : Still s t) : Tame cfg s t := by
  intro i _ domain _
  rw [still.threads]
  refine ⟨by rfl, ?_⟩
  rw [pipeAt, pipeAt, fileAt, fileAt, still.files, still.domains]

/-- The round for one thread: that thread and those before it are idle or awake. -/
theorem wakeStep_settles (flows : Flows s) (exclusive : Exclusive cfg s) {k : Nat}
    (bound : k < cfg.threads)
    (before : ∀ i, i < k → ∀ domain, WaitsOnPipe (s.threads i) domain →
      Idle s domain (s.threads i)) :
    Tame cfg s (s.wakeStep k) ∧ ∀ i, i < k + 1 → ∀ domain,
      WaitsOnPipe ((s.wakeStep k).threads i) domain →
      Idle (s.wakeStep k) domain ((s.wakeStep k).threads i) := by
  unfold Machine.wakeStep
  split
  · rename_i homeless
    refine ⟨.rfl, fun i low domain waits => ?_⟩
    by_cases last : i = k
    · rw [last] at waits
      rw [waits.2.2] at homeless
      cases homeless
    · exact before i (by omega) domain waits
  rename_i home_domain home
  split
  · rename_i waits_k
    have outcome := Ipc.retried flows home_domain (s.threads k)
    have tables : SameTables s (s.retry home_domain (s.threads k)).2 := tables_retry _ _
    have same_threads := outcome.threads
    dsimp only
    generalize s.retry home_domain (s.threads k) = out at outcome tables same_threads
    have tame : Tame cfg s out.2 :=
      Still.tame ⟨tables.files, tables.domains, tables.pending, same_threads⟩
    have rest : ∀ i, i < k → ∀ domain, WaitsOnPipe (s.threads i) domain →
        Idle out.2 domain (s.threads i) := by
      intro i low domain waits
      apply (before i low domain waits).retried outcome
      intro id at_i at_k
      exact exclusive i k (by omega) bound domain home_domain waits waits_k id at_i at_k
    split
    · rename_i again
      refine ⟨tame, fun i low domain waits => ?_⟩
      rw [same_threads] at waits ⊢
      by_cases last : i = k
      · subst last
        obtain rfl : domain = home_domain := some.inj (waits.2.2.symm.trans home)
        obtain ⟨idle, same⟩ := outcome.idle again
        exact same ▸ idle
      · exact rest i (by omega) domain waits
    · refine ⟨tame.trans (tame_setThread (not_waits_woken _)), fun i low domain waits => ?_⟩
      by_cases last : i = k
      · rw [last, setThread_threads, update_self] at waits
        exact absurd waits (not_waits_woken _ domain)
      · rw [setThread_threads, update_of_ne last, same_threads] at waits ⊢
        exact rest i (by omega) domain waits
  · rename_i awake
    refine ⟨.rfl, fun i low domain waits => ?_⟩
    by_cases last : i = k
    · subst last
      obtain rfl : domain = home_domain := some.inj (waits.2.2.symm.trans home)
      exact absurd waits awake
    · exact before i (by omega) domain waits

/-- After `wake_pipe_waiters` every thread that still waits is idle. -/
theorem notify_settles (flows : Flows s) (exclusive : Exclusive cfg s) :
    Settled cfg (cellPipeNotify cfg s) ending ∧ Tame cfg s (cellPipeNotify cfg s) := by
  have all : Flows (cellPipeNotify cfg s) ∧ Tame cfg s (cellPipeNotify cfg s) ∧
      ∀ i, i < cfg.threads → ∀ domain, WaitsOnPipe ((cellPipeNotify cfg s).threads i) domain →
        Idle (cellPipeNotify cfg s) domain ((cellPipeNotify cfg s).threads i) := by
    apply foldl_range_moves (fun k (u : Machine) => Flows u ∧ Tame cfg s u ∧
      ∀ i, i < k → ∀ domain, WaitsOnPipe (u.threads i) domain → Idle u domain (u.threads i))
    · exact ⟨flows, .rfl, fun i low => absurd low (Nat.not_lt_zero i)⟩
    · rintro k u bound ⟨flows, tame, before⟩
      obtain ⟨step, after⟩ := wakeStep_settles flows (exclusive.tame tame) bound before
      exact ⟨flows.wakeStep k, tame.trans step, after⟩
  exact ⟨fun i bound domain waits => .inl (all.2.2 i bound domain waits), all.2.1⟩

/-! ## Steps that no blocked thread notices -/

/-- A step after which threads, descriptors, pipes and the ends of files are the same. -/
theorem quiet_of_view (pipes : t.pipes = s.pipes) (threads : t.threads = s.threads)
    (domains : t.domains = s.domains) (view : ∀ f, (t.files f).view = (s.files f).view) :
    Quiet cfg s t := by
  refine ⟨fun i _ domain _ => ?_, fun _ _ _ _ id _ => by unfold pipeForId; rw [pipes]⟩
  rw [threads]
  refine ⟨by rfl, ?_⟩
  unfold pipeAt fileAt
  rw [domains]
  congr 1
  funext f
  exact pipeFor_of_view (view f) _

/-- Every file is the same end, if the one that is stored is. -/
theorem view_setFile (view : file.view = (s.files f).view) (g : Nat) :
    ((s.setFile f file).files g).view = (s.files g).view := by
  by_cases here : g = f
  · rw [here, setFile_files, update_self, view]
  · rw [setFile_files, update_of_ne here]

/-- A file that stays the same end keeps its waiters. -/
theorem quiet_setFile_view (view : file.view = (s.files f).view) : Quiet cfg s (s.setFile f file) :=
  quiet_of_view rfl rfl rfl (view_setFile view)

/-- No waiter notices a thread that does not wait afterwards. -/
theorem quiet_setThread (awake : ∀ domain, ¬ WaitsOnPipe value domain) :
    Quiet cfg s (s.setThread thread value) :=
  ⟨tame_setThread awake, fun _ _ _ _ _ _ => rfl⟩

/-- Waiting connections have no part in reads and writes. -/
theorem quiet_setPending (conn : Option PendingConn) :
    Quiet cfg s (s.setPending slot conn) := quiet_of_view rfl rfl rfl fun _ => rfl

/-- User memory has no part in what a pipe allows. -/
theorem quiet_memory (memory : UserMemory) : Quiet cfg s { s with memory := memory } :=
  quiet_of_view rfl rfl rfl fun _ => rfl

/-- No thread waits on the file. -/
def FileFree (cfg : Config) (s : Machine) (f : Nat) : Prop :=
  ∀ i, i < cfg.threads → ∀ domain, WaitsOnPipe (s.threads i) domain →
    s.fileAt domain (s.threads i).waitTarget ≠ some f

/-- No thread waits on the descriptor. -/
def FdFree (cfg : Config) (s : Machine) (domain : Nat) (fd : Int) : Prop :=
  ∀ i, i < cfg.threads → WaitsOnPipe (s.threads i) domain → (s.threads i).waitTarget ≠ fd

/-- A file that nobody waits on may become another end. -/
theorem quiet_setFile (free : FileFree cfg s f) (file : OpenFile) :
    Quiet cfg s (s.setFile f file) := by
  refine ⟨fun i bound domain waits => ⟨by rfl, ?_⟩, fun _ _ _ _ _ _ => rfl⟩
  have other := free i bound domain waits
  have same_fd : (s.setFile f file).fileAt domain (s.threads i).waitTarget =
      s.fileAt domain (s.threads i).waitTarget := rfl
  change ((s.setFile f file).fileAt domain (s.threads i).waitTarget).bind _ = _
  unfold pipeAt
  rw [same_fd]
  cases found : s.fileAt domain (s.threads i).waitTarget with
  | none => rfl
  | some g =>
    have apart : g ≠ f := by
      rintro rfl
      exact other found
    simp only [bind_some, setFile_files, update_of_ne apart]
    rfl

/-- Other descriptors lead to the files they led to. -/
theorem fileAt_setFd_ne {fd : Nat} {file : Option Nat} {number : Int}
    (apart : ¬ (other = domain ∧ number = fd)) :
    (s.setFd domain fd file).fileAt other number = s.fileAt other number := by
  unfold fileAt
  split
  · rename_i inside
    unfold setFd
    by_cases here : other = domain
    · subst here
      have differ : number.toNat ≠ fd := by
        intro same
        apply apart
        exact ⟨rfl, by omega⟩
      simp only [update_self, update_of_ne differ]
    · simp only [update_of_ne here]
  · rfl

/-- A descriptor that nobody waits on may be stored. -/
theorem quiet_setFd {fd : Nat} (free : FdFree cfg s domain fd) (file : Option Nat) :
    Quiet cfg s (s.setFd domain fd file) := by
  refine ⟨fun i bound other waits => ⟨by rfl, ?_⟩, fun _ _ _ _ _ _ => rfl⟩
  have apart : ¬ (other = domain ∧ (s.threads i).waitTarget = fd) := by
    rintro ⟨rfl, same⟩
    exact free i bound waits same
  change ((s.setFd domain fd file).fileAt other (s.threads i).waitTarget).bind _ = _
  rw [fileAt_setFd_ne apart]
  rfl

/-- No thread waits on a descriptor that is not open. -/
theorem Settled.fdFree (settled : Settled cfg s none) {fd : Nat}
    (closed : (s.domains domain).fds fd = none) : FdFree cfg s domain fd := by
  intro i bound waits same
  rcases settled i bound domain waits with ⟨id, pipe, at_pipe, _⟩ | ⟨out, _⟩
  · unfold pipeAt fileAt at at_pipe
    rw [same] at at_pipe
    split at at_pipe
    · rw [Int.toNat_natCast, closed] at at_pipe
      cases at_pipe
    · cases at_pipe
  · cases out

/-- No thread waits on a file that is not in use. -/
theorem Refs.fileFree (refs : Refs s hand)
    (unused : (s.files f).used = false) : FileFree cfg s f := by
  intro i bound domain waits found
  rw [refs.used_of_fd (fds_of_fileAt found)] at unused
  cases unused

/-- No thread waits for the pipe. -/
def PipeFree (cfg : Config) (s : Machine) (id : Nat) : Prop :=
  ∀ i, i < cfg.threads → ∀ domain, WaitsOnPipe (s.threads i) domain →
    pipeAt s domain (s.threads i) ≠ some id

/-- A pipe that nobody waits for may change. -/
theorem quiet_setPipe {id : Nat} (free : PipeFree cfg s id) (pipe : Option PipeObj) :
    Quiet cfg s (s.setPipe id pipe) := by
  refine ⟨Still.tame ⟨rfl, rfl, rfl, rfl⟩, fun i bound domain waits other at_pipe => ?_⟩
  apply pipeForId_setPipe_ne
  rintro rfl
  exact free i bound domain waits at_pipe

/-- No new waiter appears at it. -/
theorem PipeFree.tame {id : Nat} (free : PipeFree cfg s id) (tame : Tame cfg s t) :
    PipeFree cfg t id := by
  intro i bound domain waits
  obtain ⟨same, at_pipe⟩ := tame i bound domain waits
  rw [at_pipe]
  rw [same] at waits
  exact free i bound domain waits

/-- No thread waits for a slot that is no pipe. -/
theorem Settled.pipeFree (settled : Settled cfg s ending) {id : Nat}
    (unused : s.pipes id = none) : PipeFree cfg s id := by
  intro i bound domain waits at_pipe
  obtain ⟨pipe, found, _⟩ := settled.idle_of_pipe bound waits at_pipe
  rw [pipes_of_pipeForId found] at unused
  cases unused

section

variable {id : Nat} (free : PipeFree cfg s id)
include free

/-- Destroying a pipe that nobody waits for. -/
theorem quiet_destroy : Quiet cfg s (s.pipeDestroy id) := by
  unfold pipeDestroy
  split
  · exact .rfl
  · exact (quiet_setPipe free none).trans (quiet_of_view rfl rfl rfl fun _ => rfl)

/-- Freeing one. -/
theorem quiet_free : Quiet cfg s (s.cellPipeFree id) := by
  unfold cellPipeFree
  split
  · exact quiet_destroy free
  · exact .rfl

/-- Opening it for reading. -/
theorem quiet_addReader : Quiet cfg s (s.cellPipeAddReader id) := by
  unfold cellPipeAddReader
  split
  · exact .rfl
  · exact quiet_setPipe free _

/-- Opening it for writing. -/
theorem quiet_addWriter : Quiet cfg s (s.cellPipeAddWriter id) := by
  unfold cellPipeAddWriter
  split
  · exact .rfl
  · exact quiet_setPipe free _

end

/-- Counting both ends of a new pipe. -/
theorem quiet_addEnds {first second : Nat} (free : PipeFree cfg s first)
    (also : PipeFree cfg s second) : Quiet cfg s (s.addEnds first second) := by
  have one := quiet_addReader free
  have two := one.trans (quiet_addWriter (free.tame one.1))
  have three := two.trans (quiet_addReader (also.tame two.1))
  exact three.trans (quiet_addWriter (also.tame three.1))

/-- A new pipe object was in no use, so nobody waits for it. -/
theorem Settled.alloc (settled : Settled cfg s ending) (fifoIno : Nat) :
    Quiet cfg s (s.cellAllocPipeObj fifoIno).2 := by
  rcases allocPipe_cases s fifoIno with none | ⟨id, _, unused, got⟩
  · rw [none]
    exact .rfl
  · rw [got]
    exact (quiet_setPipe (settled.pipeFree unused) _).trans (quiet_of_view rfl rfl rfl fun _ => rfl)

/-! ## Releasing a file -/

/-- A wake-up takes threads out of their waiting and gives them nothing else to wait for. -/
theorem quiet_wakeFile : Quiet cfg s (cellSocketWakeFile cfg s f) := by
  refine List.foldlRecOn (motive := fun u => Quiet cfg s u) _ _ .rfl
    fun u quiet thread _ => quiet.trans ?_
  unfold wakeSocketStep
  split
  · exact .rfl
  split
  · apply quiet_setThread
    intro domain waits
    cases waits.1
  · exact .rfl

/-- The blocked threads are as they should be, and the pipes are streams. -/
structure Fine (cfg : Config) (s : Machine) (ending : Option Nat) : Prop where
  /-- Bytes flow in order. -/
  flows : Flows s
  /-- No wait is overdue. -/
  settled : Settled cfg s ending

/-- A function keeps the blocked threads as they should be, and wakes some of them at most. -/
def Keeps (cfg : Config) (ending : Option Nat) (s t : Machine) : Prop :=
  Fine cfg s ending → Fine cfg t ending ∧ Tame cfg s t

/-- A step that does nothing. -/
theorem Keeps.rfl : Keeps cfg ending s s := fun fine => ⟨fine, .rfl⟩

/-- Two steps that keep the waiters right. -/
theorem Keeps.trans (first : Keeps cfg ending s t) (second : Keeps cfg ending t u) :
    Keeps cfg ending s u := by
  intro fine
  obtain ⟨middle, tame⟩ := first fine
  obtain ⟨final, more⟩ := second middle
  exact ⟨final, tame.trans more⟩

/-- A quiet step on streams keeps the waiters right. -/
theorem Quiet.keeps (quiet : Quiet cfg s t) (flows : Flows s → Flows t) : Keeps cfg ending s t :=
  fun fine => ⟨⟨flows fine.flows, fine.settled.quiet quiet⟩, quiet.1⟩

/-- Pipes change and the threads are woken. -/
theorem keeps_notify (tame : Tame cfg s t) (flows : Flows s → Flows t) :
    Keeps cfg ending s (cellPipeNotify cfg t) := by
  intro fine
  have changed := flows fine.flows
  obtain ⟨settled, more⟩ := notify_settles changed (fine.settled.exclusive.tame tame)
  exact ⟨⟨changed.notify, settled⟩, tame.trans more⟩

/-- Giving up an end wakes whoever has something to do then. -/
theorem keeps_releasePipe (file : OpenFile) :
    Keeps cfg ending s (s.cellPipeReleaseFile cfg file) := by
  unfold cellPipeReleaseFile
  split
  · exact .rfl
  · split
    · exact keeps_notify (still_dropWriter _).tame fun flows => flows.dropWriter _
    · exact keeps_notify (still_dropReader _).tame fun flows => flows.dropReader _

section Release

variable {release : Machine → Nat → Machine} (kept : ∀ s f, Keeps cfg ending s (release s f))

include kept

/-- The connections of a listener are released one by one. -/
theorem keeps_listener : Keeps cfg ending s (cellSocketReleaseListener release s listener) := by
  refine List.foldlRecOn (motive := fun u => Keeps cfg ending s u) _ _ .rfl
    fun u before slot _ => before.trans ?_
  unfold releasePendingStep
  split
  · exact .rfl
  · split
    · exact (kept _ _).trans ((quiet_setPending none).keeps fun flows => flows.setPending _ _)
    · exact .rfl

/-- The ends of a file are given up, its pipes notified. -/
theorem keeps_ends : Keeps cfg ending s (releaseEnds cfg release s f) := by
  unfold releaseEnds
  dsimp only
  split
  · exact keeps_releasePipe _
  · split
    · have dropped : Keeps cfg ending s (cellPipeNotify cfg
          ((s.cellPipeDropReader (s.files f).unixRxPipe).cellPipeDropWriter
            (s.files f).unixTxPipe)) :=
        keeps_notify ((still_dropReader _).trans (still_dropWriter _)).tame
          fun flows => (flows.dropReader _).dropWriter _
      exact dropped.trans (quiet_wakeFile.keeps fun flows => flows.wakeFile)
    · exact .rfl
  · exact keeps_listener kept
  · exact .rfl

/-- One level of a release, from the level inside it. -/
theorem keeps_openFile : Keeps cfg ending s (releaseOpenFile cfg release s f) := by
  have dropped : Keeps cfg ending s (s.dropReference f) :=
    Quiet.keeps (quiet_setFile_view rfl) fun flows => flows.setFile _ _
  unfold releaseOpenFile
  split
  · exact .rfl
  split
  · exact dropped
  · have unused : ∀ t : Machine, Keeps cfg ending t (t.markUnused f) := fun t =>
      Quiet.keeps (quiet_setFile_view rfl) fun flows => flows.setFile _ _
    exact (dropped.trans (keeps_ends kept)).trans (unused _)

end Release

/-- `cell_release_open_file` keeps the waiters right. -/
theorem keeps_release (f : Nat) : Keeps cfg ending s (s.cellReleaseOpenFile cfg f) :=
  keeps_openFile (fun _ _ => keeps_openFile (fun _ _ => .rfl))

/-- There may be no file to release. -/
theorem keeps_releaseOptional (f : Option Nat) : Keeps cfg ending s (s.releaseOptional cfg f) := by
  cases f with
  | none => exact .rfl
  | some f => exact keeps_release f

/-! ## New descriptors, files and pipes -/

/-- No new waiter appears on the descriptor. -/
theorem FdFree.tame (free : FdFree cfg s domain fd) (tame : Tame cfg s t) :
    FdFree cfg t domain fd := by
  intro i bound waits
  obtain ⟨same, _⟩ := tame i bound domain waits
  rw [same] at waits ⊢
  exact free i bound waits

/-- A descriptor that is not negative, as a number. -/
theorem FdFree.toNat (free : FdFree cfg s domain fd) (inside : 0 ≤ fd) :
    FdFree cfg s domain (fd.toNat : Int) := by
  rw [Int.toNat_of_nonneg inside]
  exact free

/-- A free descriptor has no file. -/
theorem freeFd_closed {start fd : Nat} (found : s.cellFindFreeFd domain start = some fd) :
    (s.domains domain).fds fd = none := by
  have free := List.find?_some found
  simpa using free

/-- One reference more is no reason to wake anybody. -/
theorem quiet_retain : Quiet cfg s (s.cellRetainOpenFile (some f)) :=
  quiet_setFile_view rfl

/-- Files and waiters are found by descriptors and threads alone. -/
theorem FileFree.same (free : FileFree cfg s f) (domains : t.domains = s.domains)
    (threads : t.threads = s.threads) : FileFree cfg t f := by
  unfold FileFree fileAt at free ⊢
  rw [domains, threads]
  exact free

/-- Contents of files do not matter for who waits on them. -/
theorem FileFree.setFile (free : FileFree cfg s f) (g : Nat) (file : OpenFile) :
    FileFree cfg (s.setFile g file) f := free

/-- Storing two numbers for the user. -/
theorem quiet_storeFds : Quiet cfg s (s.storeFds domain addr first second).2 := by
  unfold storeFds
  split
  · exact .rfl
  · exact quiet_memory _

/-- Two files that are taken together, on which nobody waits. -/
theorem quiet_freshTwo {g : Nat} (first : FileFree cfg s f) (second : FileFree cfg s g) :
    Quiet cfg s ((s.setFile f freshFile).setFile g freshFile) :=
  (quiet_setFile first _).trans (quiet_setFile (second.setFile f freshFile) _)

/-- Two files that no thread waits on are written, after pipes that no thread waits for. -/
theorem quiet_setEnds (first : FileFree cfg s a) (second : FileFree cfg s b)
    (quiet : Quiet cfg s t) (domains : t.domains = s.domains) (threads : t.threads = s.threads)
    (one two : OpenFile) : Quiet cfg s ((t.setFile a one).setFile b two) := by
  have written := quiet.trans (quiet_setFile (first.same domains threads) one)
  exact written.trans (quiet_setFile ((second.same domains threads).setFile a one) two)

section

variable (settled : Settled cfg s ending)

include settled

/-- The pipe of a FIFO is found, or is a new one. -/
theorem Settled.fifo (ino : Nat) :
    Quiet cfg s (s.cellFifoPipeForIno ino).2 := by
  unfold cellFifoPipeForIno
  split
  · exact .rfl
  · split
    · exact .rfl
    · exact settled.alloc ino

/-- Two new pipe objects. -/
theorem Settled.allocTwo : Quiet cfg s s.allocTwoPipes.2 := by
  rcases allocTwoPipes_cases s with ⟨t, none, pipes⟩ |
    ⟨first, second, freePages, log, _, _, _, unused, also, got⟩
  · have still := still_allocTwoPipes (s := s)
    rw [none] at still ⊢
    exact quiet_of_view pipes still.threads still.domains fun f => by rw [still.files]
  rw [got]
  have one : Quiet cfg s (s.setPipe first (some (.fresh 0))) :=
    quiet_setPipe (settled.pipeFree unused) _
  have two := one.trans (quiet_setPipe ((settled.pipeFree also).tame one.1) (some (.fresh 0)))
  exact two.trans (quiet_of_view rfl rfl rfl fun _ => rfl)

/-- Nobody waits for either. -/
theorem Settled.allocTwo_free {first second : Nat}
    (got : s.allocTwoPipes = (some (first, second), t)) :
    PipeFree cfg t first ∧ PipeFree cfg t second := by
  have quiet := settled.allocTwo
  rcases allocTwoPipes_cases s with ⟨_, none, _⟩ |
    ⟨one, two, freePages, log, _, _, _, unused, also, both⟩
  · rw [none] at got
    cases got
  rw [got] at both quiet
  obtain ⟨rfl, rfl⟩ : first = one ∧ second = two := by
    simp only [Prod.mk.injEq, some.injEq] at both
    exact both.1
  exact ⟨(settled.pipeFree unused).tame quiet.1, (settled.pipeFree also).tame quiet.1⟩

end

/-- Two new files become the ends of two new pipes. -/
theorem quiet_pairEnds {a2b b2a : Nat} (free_a : FileFree cfg s a) (free_b : FileFree cfg s b)
    (one : PipeFree cfg s a2b) (two : PipeFree cfg s b2a) (nonblock : Bool) :
    Quiet cfg s (s.pairEnds a b a2b b2a nonblock) := by
  have ends := quiet_setEnds free_a free_b (quiet_addEnds one two)
    (still_addEnds a2b b2a).domains (still_addEnds a2b b2a).threads
  exact (ends _ _).trans (quiet_of_view rfl rfl rfl fun _ => rfl)

/-- A client and a server end on which nobody waits are joined. -/
theorem quiet_joinEnds {client server c2s s2c : Nat} (free_client : FileFree cfg s client)
    (free_server : FileFree cfg s server) (one : PipeFree cfg s c2s) (two : PipeFree cfg s s2c)
    (path : String) : Quiet cfg s (s.joinEnds client server c2s s2c path) := by
  have ends := quiet_setEnds free_client free_server (quiet_addEnds one two)
    (still_addEnds c2s s2c).domains (still_addEnds c2s s2c).threads
  exact (ends _ _).trans (quiet_of_view rfl rfl rfl fun _ => rfl)

/-- A UNIX socket is found by its descriptor. -/
theorem fileAt_of_unixFile (found : s.unixFileForFd domain fd = some f) :
    s.fileAt domain fd = some f := by
  exact (filter_eq_some_iff.mp found).1

/-! ## New domains and threads -/

/-- No thread belongs to the domain. -/
def Vacant (s : Machine) (domain : Nat) : Prop := ∀ i, (s.threads i).domain ≠ some domain

/-- No thread is in the domain that comes into use. -/
theorem quiet_allocDomain (vacant : Vacant s child) : Quiet cfg s (s.allocDomain child) := by
  refine ⟨fun i _ domain waits => ⟨by rfl, ?_⟩, fun _ _ _ _ _ _ => rfl⟩
  have apart : domain ≠ child := by
    rintro rfl
    exact vacant i waits.2.2
  unfold pipeAt fileAt
  rw [allocDomain_domains, update_of_ne apart]
  rfl

/-- Its descriptors may be copied, as no thread of it waits. -/
theorem quiet_copyTable (vacant : Vacant s child) :
    Quiet cfg s (s.cellCopyFdTable child parent) := by
  have all : Quiet cfg s (s.cellCopyFdTable child parent) ∧
      Vacant (s.cellCopyFdTable child parent) child := by
    refine List.foldlRecOn (motive := fun u => Quiet cfg s u ∧ Vacant u child) _ _
      ⟨.rfl, vacant⟩ fun u both fd _ => ?_
    obtain ⟨quiet, vacant⟩ := both
    have copied : ∀ file, Quiet cfg u (u.setFd child fd file) :=
      fun _ => quiet_setFd (fun i _ waits => absurd waits.2.2 (vacant i)) _
    unfold copyFdStep
    cases (u.domains parent).fds fd with
    | none => exact ⟨quiet.trans (copied none), vacant⟩
    | some f => exact ⟨(quiet.trans (copied (some f))).trans quiet_retain, vacant⟩
  exact all.1

/-- A domain that is not in use has no thread. -/
theorem Refs.vacant (refs : Refs s hand)
    (unused : (s.domains child).used = false) : Vacant s child := by
  intro i home
  rw [refs.housed i child home] at unused
  cases unused

/-- A new thread does not wait. -/
theorem quiet_newThread :
    Quiet cfg s (s.setThread thread
      { Proc.Thread.zero with domain := some domain, state := .runnable, waitTarget := -1 }) := by
  apply quiet_setThread
  intro domain waits
  cases waits.1

end Spore.Ipc
