import Spore.Lib.RefCount
import Spore.Lib.Run
import Spore.Ipc.Calls

/-!
# References to open files

Descriptors and connections that wait to be accepted refer to open files, and the reference
count of a file is never below their number. So the file of a descriptor stays the same file:
its slot cannot be given out again. A call that is about to release a file holds one reference
itself; the descriptor or connection it came from no longer counts.
-/

namespace Spore.Ipc

open Function Spore.Lib Machine

variable {cfg : Config} {s t u : Machine}
  {domain thread child parent addr first second f buf len fd freePages listener slot ino : Nat}
  {file : OpenFile} {conn : PendingConn} {value : Proc.Thread}

/-- What refers to open files. -/
inductive Owner where
  | descriptor (domain fd : Nat)
  | waiting (slot : Nat)
  deriving DecidableEq

/-- The owner refers to the file. -/
def refers (s : Machine) : Owner → Nat → Prop
  | .descriptor domain fd, f => (s.domains domain).fds fd = some f
  | .waiting slot, f => ∃ conn, s.pending slot = some conn ∧ conn.serverEnd = f

/-- Every reference is counted, those of the owners in `gone` excepted and those in hand
included, and a file with references is open. -/
structure Held (s : Machine) (gone : Owner → Prop) (hand : Multiset Nat) : Prop where
  /-- Counters cover the references. -/
  counted : Counted (fun owner f => refers s owner f ∧ ¬ gone owner) hand
    fun f => (s.files f).refcount
  /-- A counted file is in use. -/
  opened : ∀ f, (s.files f).refcount ≠ 0 → (s.files f).used = true
  /-- A connection that is leaving the table has lost its listener. -/
  leaving : ∀ slot conn, gone (.waiting slot) → s.pending slot = some conn →
    (s.files conn.listener).refcount = 0

/-! ## Steps that leave the tables alone -/

/-- Files, descriptors and waiting connections are the same, and threads keep their domains. -/
structure SameTables (s t : Machine) : Prop where
  /-- Open files stay. -/
  files : t.files = s.files
  /-- Descriptors stay. -/
  domains : t.domains = s.domains
  /-- Pending connections stay. -/
  pending : t.pending = s.pending
  /-- The domains of threads. -/
  homes : ∀ thread, (t.threads thread).domain = (s.threads thread).domain

/-- A step that does nothing. -/
theorem SameTables.rfl : SameTables s s := ⟨by rfl, by rfl, by rfl, fun _ => by rfl⟩

/-- Two such steps. -/
theorem SameTables.trans (first : SameTables s t) (second : SameTables t u) : SameTables s u :=
  ⟨second.files.trans first.files, second.domains.trans first.domains,
    second.pending.trans first.pending,
    fun thread => (second.homes thread).trans (first.homes thread)⟩

/-- The counts stay right, because nothing that refers or is counted has changed. -/
theorem Held.tables {gone : Owner → Prop} {hand : Multiset Nat} (held : Held s gone hand)
    (same : SameTables s t) : Held t gone hand := by
  have refs : refers t = refers s := by
    funext owner f
    cases owner with
    | descriptor domain fd => simp only [refers, same.domains]
    | waiting slot => simp only [refers, same.pending]
  refine ⟨?_, ?_, ?_⟩
  · rw [refs, same.files]
    exact held.counted
  · rw [same.files]
    exact held.opened
  · rw [same.files, same.pending]
    exact held.leaving

/-- Only pipes have changed, and what they are made of. -/
structure Still (s t : Machine) : Prop where
  /-- Open files stay. -/
  files : t.files = s.files
  /-- Descriptors stay. -/
  domains : t.domains = s.domains
  /-- Pending connections stay. -/
  pending : t.pending = s.pending
  /-- Threads stay. -/
  threads : t.threads = s.threads

/-- A step that does nothing. -/
theorem Still.rfl : Still s s := ⟨by rfl, by rfl, by rfl, by rfl⟩

/-- Two steps on pipes. -/
theorem Still.trans (first : Still s t) (second : Still t u) : Still s u :=
  ⟨second.files.trans first.files, second.domains.trans first.domains,
    second.pending.trans first.pending, second.threads.trans first.threads⟩

/-- Pipes are no part of the tables. -/
theorem Still.tables (still : Still s t) : SameTables s t :=
  ⟨still.files, still.domains, still.pending, fun thread => by rw [still.threads]⟩

/-- A pipe object is cleared. -/
theorem still_destroy (id : Nat) : Still s (s.pipeDestroy id) := by
  unfold pipeDestroy
  split
  · exact .rfl
  · exact ⟨rfl, rfl, rfl, rfl⟩

/-- The pages of a pipe are given back and its object is cleared. -/
theorem still_free (id : Nat) : Still s (s.cellPipeFree id) := by
  unfold cellPipeFree
  split
  · exact still_destroy id
  · exact .rfl

/-- A pipe object is taken, with a page for its bytes. -/
theorem still_alloc (fifoIno : Nat) : Still s (s.cellAllocPipeObj fifoIno).2 := by
  unfold cellAllocPipeObj
  split
  · exact .rfl
  · split
    · exact .rfl
    · exact ⟨rfl, rfl, rfl, rfl⟩

/-- A reading end more. -/
theorem still_addReader (id : Nat) : Still s (s.cellPipeAddReader id) := by
  unfold cellPipeAddReader
  split
  · exact .rfl
  · exact ⟨rfl, rfl, rfl, rfl⟩

/-- A writing end more. -/
theorem still_addWriter (id : Nat) : Still s (s.cellPipeAddWriter id) := by
  unfold cellPipeAddWriter
  split
  · exact .rfl
  · exact ⟨rfl, rfl, rfl, rfl⟩

/-- The counts of the ends are stored, or the pipe goes. -/
theorem still_putEnds (id : Nat) (pipe : PipeObj) : Still s (s.putEnds id pipe) := by
  have written : Still s (s.setPipe id (some pipe)) := ⟨rfl, rfl, rfl, rfl⟩
  unfold putEnds
  split
  · exact written.trans (still_destroy id)
  · exact written

/-- A reading end less. -/
theorem still_dropReader (id : Nat) : Still s (s.cellPipeDropReader id) := by
  unfold cellPipeDropReader
  split
  · exact .rfl
  · exact still_putEnds _ _

/-- A writing end less. -/
theorem still_dropWriter (id : Nat) : Still s (s.cellPipeDropWriter id) := by
  unfold cellPipeDropWriter
  split
  · exact .rfl
  · exact still_putEnds _ _

/-- A write moves bytes from the user into the pipe. -/
theorem tables_acceptBytes (domain id buf len : Nat) (pipe : PipeObj) :
    SameTables s (s.acceptBytes domain id buf len pipe).2 := by
  unfold acceptBytes
  dsimp only
  repeat' split
  all_goals exact ⟨rfl, rfl, rfl, fun _ => rfl⟩

/-- A read moves bytes from the pipe to the user. -/
theorem tables_returnBytes (domain id buf len : Nat) (pipe : PipeObj) :
    SameTables s (s.returnBytes domain id buf len pipe).2 := by
  unfold returnBytes
  dsimp only
  repeat' split
  all_goals exact ⟨rfl, rfl, rfl, fun _ => rfl⟩

section Notify

variable {notify : Machine → Machine} (same : ∀ s, SameTables s (notify s))

include same

/-- A write to a pipe, whatever the waking does within the tables. -/
theorem tables_writeId (id : Nat) : SameTables s (writeIdWith notify s domain id buf len).2 := by
  unfold writeIdWith
  split
  · exact .rfl
  split
  · exact .rfl
  rename_i pipe _
  split
  · exact .rfl
  split
  · exact .rfl
  have accepted := tables_acceptBytes (s := s) domain id buf len pipe
  split <;> rename_i after answer <;> rw [answer] at accepted
  · exact accepted
  · exact accepted.trans (same _)

/-- A read of a pipe, likewise. -/
theorem tables_readId (id : Nat) : SameTables s (readIdWith notify s domain id buf len).2 := by
  unfold readIdWith
  split
  · exact .rfl
  split
  · exact .rfl
  rename_i pipe _
  split
  · exact .rfl
  have returned := tables_returnBytes (s := s) domain id buf len pipe
  split <;> rename_i after answer <;> rw [answer] at returned
  · exact returned
  · exact returned.trans (same _)

/-- A write to an end of a pipe or of a socket. -/
theorem tables_writeFile : SameTables s (writeFileWith notify s domain file buf len).2 := by
  unfold writeFileWith
  split
  · exact .rfl
  · exact tables_writeId same _

/-- A read of an end of a pipe or of a socket. -/
theorem tables_readFile : SameTables s (readFileWith notify s domain file buf len).2 := by
  unfold readFileWith
  split
  · exact .rfl
  · exact tables_readId same _

end Notify

/-- A waiter's operation is tried again. -/
theorem tables_retry (domain : Nat) (waiter : Proc.Thread) :
    SameTables s (s.retry domain waiter).2 := by
  have quiet : ∀ s : Machine, SameTables s (id s) := fun _ => .rfl
  unfold retry
  split
  · exact .rfl
  dsimp only
  split
  · split
    · exact tables_writeId quiet _
    · exact tables_readId quiet _
  · split
    · exact tables_writeFile quiet
    · exact tables_readFile quiet

/-- A thread may change, as long as it stays in its domain. -/
theorem tables_setThread (home : value.domain = (s.threads thread).domain) :
    SameTables s (s.setThread thread value) := by
  refine ⟨rfl, rfl, rfl, fun other => ?_⟩
  by_cases here : other = thread
  · rw [here, setThread_threads, update_self, home]
  · rw [setThread_threads, update_of_ne here]

/-- One thread is looked at, and perhaps woken with its result. -/
theorem tables_wakeStep : SameTables s (s.wakeStep thread) := by
  unfold wakeStep
  split
  · exact .rfl
  rename_i domain _
  split
  · dsimp only
    split
    · exact tables_retry _ _
    · have tried := tables_retry (s := s) domain (s.threads thread)
      exact tried.trans (tables_setThread (tried.homes thread).symm)
  · exact .rfl

/-- A pass over all waiters. -/
theorem tables_notify : SameTables s (cellPipeNotify cfg s) := by
  exact List.foldlRecOn _ _ .rfl fun _ same thread _ => same.trans tables_wakeStep

/-- The waiters on a socket are woken. -/
theorem tables_wakeFile : SameTables s (cellSocketWakeFile cfg s f) := by
  refine List.foldlRecOn _ _ .rfl fun u same thread _ => same.trans ?_
  unfold wakeSocketStep
  split
  · exact .rfl
  · split
    · exact tables_setThread rfl
    · exact .rfl

/-- An end of a pipe is given up and the waiters are told. -/
theorem tables_releasePipe : SameTables s (s.cellPipeReleaseFile cfg file) := by
  unfold cellPipeReleaseFile
  split
  · exact .rfl
  refine .trans ?_ tables_notify
  split
  · exact (still_dropWriter _).tables
  · exact (still_dropReader _).tables

/-- Both ends of a pipe are counted. -/
theorem still_addEnds (first second : Nat) : Still s (s.addEnds first second) :=
  (((still_addReader first).trans (still_addWriter first)).trans
    (still_addReader second)).trans (still_addWriter second)

/-- The two pipes of a connection are taken. -/
theorem still_allocTwoPipes : Still s s.allocTwoPipes.2 := by
  have both : Still s ((s.cellAllocPipeObj 0).2.cellAllocPipeObj 0).2 :=
    (still_alloc 0).trans (still_alloc 0)
  unfold allocTwoPipes
  dsimp only
  split
  · exact both
  · exact both.trans (still_free _)
  · exact both.trans (still_free _)
  · exact both

/-- What allocating a pipe object does: nothing, or a slot that was no pipe becomes one. -/
theorem allocPipe_cases (s : Machine) (fifoIno : Nat) :
    s.cellAllocPipeObj fifoIno = (none, s) ∨ ∃ id, id < pipeSlots ∧ s.pipes id = none ∧
      s.cellAllocPipeObj fifoIno = (some id, { s.setPipe id (some (PipeObj.fresh fifoIno)) with
        freePages := s.freePages - pipePages, log := .created id :: s.log }) := by
  unfold cellAllocPipeObj
  split
  · exact .inl rfl
  rename_i id found
  split
  · exact .inl rfl
  · have free := List.find?_some found
    have inside := List.mem_of_find?_eq_some found
    exact .inr ⟨id, List.mem_range.mp inside, by simpa using free, rfl⟩

/-- What allocating two pipe objects does: nothing to the pipes, or two slots that were no pipes
become pipes. -/
theorem allocTwoPipes_cases (s : Machine) : (∃ t, s.allocTwoPipes = (none, t) ∧ t.pipes = s.pipes) ∨
    ∃ first second freePages log, first ≠ second ∧ first < pipeSlots ∧ second < pipeSlots ∧
      s.pipes first = none ∧ s.pipes second = none ∧
      s.allocTwoPipes = (some (first, second),
        { (s.setPipe first (some (PipeObj.fresh 0))).setPipe second (some (PipeObj.fresh 0)) with
          freePages := freePages, log := log }) := by
  unfold allocTwoPipes
  rcases allocPipe_cases s 0 with none | ⟨first, inside, unused, got⟩
  · rw [none]
    dsimp only
    rw [none]
    exact .inl ⟨s, rfl, rfl⟩
  rw [got]
  dsimp only
  rcases allocPipe_cases { s.setPipe first (some (.fresh 0)) with
      freePages := s.freePages - pipePages, log := .created first :: s.log } 0 with
    none | ⟨second, also, free, both⟩
  · rw [none]
    refine .inl ⟨_, rfl, ?_⟩
    unfold cellPipeFree pipeDestroy
    simp [inside, unused]
  · rw [both]
    have apart : second ≠ first := by
      rintro rfl
      simp at free
    simp only [setPipe_pipes, update_of_ne apart] at free
    exact .inr ⟨first, second, _, _, apart.symm, inside, also, unused, free, rfl⟩

/-! ## Releasing a file -/

/-- The parts of an open file that say which end of which pipes it is. -/
def OpenFile.view (file : OpenFile) : OpenFileType × Nat × Bool × Bool × Nat × Nat × Nat :=
  (file.type, file.pipeId, file.pipeWriteEnd, file.unixConnected, file.unixRxPipe,
    file.unixTxPipe, file.channel)

/-- All that releasing a file does to the tables. -/
structure Releases (s t : Machine) : Prop where
  /-- Descriptors stay. -/
  domains : t.domains = s.domains
  /-- Connections that wait may be dropped. -/
  pending : ∀ slot, t.pending slot = s.pending slot ∨ t.pending slot = none
  /-- Counts only fall. -/
  fewer : ∀ f, (t.files f).refcount ≤ (s.files f).refcount
  /-- Files may be closed but not opened. -/
  used : ∀ f, (t.files f).used = true → (s.files f).used = true
  /-- The ends of pipes that files are do not change. -/
  view : ∀ f, (t.files f).view = (s.files f).view
  /-- Threads keep their domains. -/
  homes : ∀ thread, (t.threads thread).domain = (s.threads thread).domain

/-- Nothing is released. -/
theorem Releases.rfl : Releases s s :=
  ⟨by rfl, fun _ => .inl (by rfl), fun _ => Nat.le_refl _, fun _ used => used, fun _ => by rfl,
    fun _ => by rfl⟩

/-- Releasing may be done in several steps. -/
theorem Releases.trans (first : Releases s t) (second : Releases t u) : Releases s u where
  domains := second.domains.trans first.domains
  pending slot := by
    rcases second.pending slot with same | none
    · rw [same]
      exact first.pending slot
    · exact .inr none
  fewer f := (second.fewer f).trans (first.fewer f)
  used f used := first.used f (second.used f used)
  view f := (second.view f).trans (first.view f)
  homes thread := (second.homes thread).trans (first.homes thread)

/-- A step that leaves the tables alone releases nothing. -/
theorem SameTables.releases (same : SameTables s t) : Releases s t where
  domains := same.domains
  pending slot := .inl (by rw [same.pending])
  fewer f := by rw [same.files]
  used f used := by rwa [same.files] at used
  view f := by rw [same.files]
  homes := same.homes

/-- What holds of the written file and of the others holds of all. -/
theorem forall_setFile {P : Nat → OpenFile → Prop} (here : P f file)
    (others : ∀ g, g ≠ f → P g (s.files g)) (g : Nat) : P g ((s.setFile f file).files g) :=
  (forall_update_iff s.files P).mpr ⟨here, others⟩ g

/-- A file with fewer references, closed or not, that is the same end. -/
theorem releases_setFile (fewer : file.refcount ≤ (s.files f).refcount)
    (used : file.used → (s.files f).used) (view : file.view = (s.files f).view) :
    Releases s (s.setFile f file) where
  domains := rfl
  pending _ := .inl rfl
  fewer := forall_setFile (P := fun g file => file.refcount ≤ (s.files g).refcount) fewer
    fun _ _ => Nat.le_refl _
  used := forall_setFile (P := fun g file => file.used → (s.files g).used) used fun _ _ => id
  view := forall_setFile (P := fun g file => file.view = (s.files g).view) view fun _ _ => rfl
  homes _ := rfl

/-- One reference less. -/
theorem releases_dropReference (f : Nat) : Releases s (s.dropReference f) :=
  releases_setFile (Nat.sub_le _ _) id rfl

/-- A waiting connection leaves the table. -/
theorem releases_setPending (slot : Nat) : Releases s (s.setPending slot none) := by
  refine ⟨rfl, fun other => ?_, fun _ => Nat.le_refl _, fun _ used => used, fun _ => rfl,
    fun _ => rfl⟩
  by_cases here : other = slot
  · rw [here, setPending_pending, update_self]
    exact .inr rfl
  · rw [setPending_pending, update_of_ne here]
    exact .inl rfl

section Release

variable {release : Machine → Nat → Machine} (inner : ∀ s f, Releases s (release s f))

include inner

/-- The connections that wait at a listener go, each with its file. -/
theorem releases_listener : Releases s (cellSocketReleaseListener release s listener) := by
  refine List.foldlRecOn _ _ .rfl fun u before slot _ => before.trans ?_
  unfold releasePendingStep
  split
  · exact .rfl
  · split
    · exact (inner _ _).trans (releases_setPending slot)
    · exact .rfl

/-- What a file is an end of is given up. -/
theorem releases_ends : Releases s (releaseEnds cfg release s f) := by
  unfold releaseEnds
  dsimp only
  split
  · exact tables_releasePipe.releases
  · split
    · exact ((((still_dropReader _).trans (still_dropWriter _)).tables.trans
        tables_notify).trans tables_wakeFile).releases
    · exact .rfl
  · exact releases_listener inner
  · exact .rfl

/-- `cell_release_open_file`, with the releases that it causes inside. -/
theorem releases_openFile : Releases s (releaseOpenFile cfg release s f) := by
  unfold releaseOpenFile
  split
  · exact .rfl
  split
  · exact releases_dropReference f
  · exact ((releases_dropReference f).trans (releases_ends inner)).trans
      (releases_setFile (Nat.le_refl _) (by simp) rfl)

end Release

/-- `cell_release_open_file` to the depth at which it is run. -/
theorem releases_release : Releases s (s.cellReleaseOpenFile cfg f) :=
  releases_openFile (fun _ _ => releases_openFile (fun _ _ => .rfl))

/-! ## Counting references -/

section Held

variable {gone : Owner → Prop} {hand : Multiset Nat} {f : Nat}

/-- A file is written without touching its count. -/
theorem Held.setFile (held : Held s gone hand) (count : file.refcount = (s.files f).refcount)
    (used : file.refcount ≠ 0 → file.used) : Held (s.setFile f file) gone hand := by
  have counts := forall_setFile (P := fun g file => file.refcount = (s.files g).refcount) count
    fun _ _ => rfl
  refine ⟨held.counted.mono (fun _ _ held => held) le_rfl fun g => Nat.le_of_eq (counts g).symm,
    forall_setFile (P := fun _ file => file.refcount ≠ 0 → file.used) used
      fun g _ => held.opened g, fun slot conn out found => ?_⟩
  rw [counts]
  exact held.leaving slot conn out found

/-- A reference in hand is taken off its counter. -/
theorem Held.dropReference (held : Held s gone (f ::ₘ hand)) :
    Held (s.dropReference f) gone hand := by
  have fewer := (releases_dropReference (s := s) f).fewer
  refine ⟨?_, ?_, ?_⟩
  · apply held.counted.give
    · simp only [Machine.dropReference, setFile_files, update_self]
      omega
    · intro g apart
      simp only [Machine.dropReference, setFile_files, update_of_ne apart]
      exact Nat.le_refl _
  · refine forall_setFile (P := fun _ file => file.refcount ≠ 0 → file.used)
      (fun counted => held.opened f fun zero => counted ?_) fun g _ => held.opened g
    rw [zero]
  · intro slot conn out found
    have := held.leaving slot conn out found
    have := fewer conn.listener
    omega

/-- A file with a reference in hand is counted. -/
theorem Held.pos (held : Held s gone (f ::ₘ hand)) : (s.files f).refcount ≠ 0 :=
  Nat.ne_of_gt (held.counted.pos_of_hand (Multiset.mem_cons_self f hand))

/-- A connection leaves the table of those that wait, and its server end is in hand. -/
theorem Held.leave {slot : Nat} (held : Held s gone hand)
    (found : s.pending slot = some conn) (counted : ¬ gone (.waiting slot))
    (lost : (s.files conn.listener).refcount = 0) :
    Held s (fun owner => gone owner ∨ owner = .waiting slot) (conn.serverEnd ::ₘ hand) := by
  refine ⟨?_, held.opened, ?_⟩
  · have here : refers s (.waiting slot) conn.serverEnd ∧ ¬ gone (.waiting slot) :=
      ⟨⟨conn, found, rfl⟩, counted⟩
    apply held.counted.unlink here
    intro owner g refs
    exact ⟨⟨refs.1, fun out => refs.2 (.inl out)⟩, fun same => refs.2 (.inr same.1)⟩
  · intro other waiting out found_other
    rcases out with out | same
    · exact held.leaving other waiting out found_other
    · obtain rfl : other = slot := Owner.waiting.inj same
      obtain rfl : waiting = conn := Option.some.inj (found_other.symm.trans found)
      exact lost

/-- The slot of a connection that has left is cleared. -/
theorem Held.clear {slot : Nat}
    (held : Held s (fun owner => gone owner ∨ owner = .waiting slot) hand) :
    Held (s.setPending slot none) gone hand := by
  have still : ∀ other conn, (s.setPending slot none).pending other = some conn →
      other ≠ slot ∧ s.pending other = some conn := by
    intro other conn found
    by_cases here : other = slot
    · rw [here, setPending_pending, update_self] at found
      cases found
    · rw [setPending_pending, update_of_ne here] at found
      exact ⟨here, found⟩
  refine ⟨?_, held.opened, ?_⟩
  · apply held.counted.forget
    intro owner g refs
    cases owner with
    | descriptor domain fd =>
      exact ⟨refs.1, fun out => out.elim refs.2 (by simp)⟩
    | waiting other =>
      obtain ⟨⟨conn, found, server⟩, counted⟩ := refs
      obtain ⟨apart, found⟩ := still other conn found
      exact ⟨⟨conn, found, server⟩,
        fun out => out.elim counted fun same => apart (Owner.waiting.inj same)⟩
  · intro other conn out found
    obtain ⟨_, found⟩ := still other conn found
    exact held.leaving other conn (.inl out) found

/-- A function that releases a file uses up a reference in hand. -/
structure ReleasesWell (release : Machine → Nat → Machine) : Prop where
  /-- It does nothing else to the tables. -/
  tables : ∀ s f, Releases s (release s f)
  /-- The reference is gone. -/
  held : ∀ s f gone hand, Held s gone (f ::ₘ hand) → Held (release s f) gone hand

section Well

variable {release : Machine → Nat → Machine} (well : ReleasesWell release)

include well

/-- What holds while a listener without references drops the connections that wait for it. -/
theorem held_listener {listener : Nat} (held : Held s gone hand)
    (lost : (s.files listener).refcount = 0)
    (apart : ∀ slot conn, gone (.waiting slot) → s.pending slot = some conn →
      conn.listener ≠ listener) :
    Held (cellSocketReleaseListener release s listener) gone hand ∧
      ((cellSocketReleaseListener release s listener).files listener).refcount = 0 := by
  let kept : Machine → Prop := fun u => Held u gone hand ∧ (u.files listener).refcount = 0 ∧
    ∀ slot conn, gone (.waiting slot) → u.pending slot = some conn → conn.listener ≠ listener
  have all : kept (cellSocketReleaseListener release s listener) := by
    refine List.foldlRecOn (motive := kept) _ _ ⟨held, lost, apart⟩ fun u before slot _ => ?_
    obtain ⟨held, lost, apart⟩ := before
    unfold releasePendingStep
    split
    · exact ⟨held, lost, apart⟩
    rename_i conn found
    split
    · rename_i ours
      have counted : ¬ gone (.waiting slot) := fun out => apart slot conn out found ours
      have inner := well.tables u conn.serverEnd
      refine ⟨?_, ?_, ?_⟩
      · exact (well.held _ _ _ _ (held.leave found counted (by rw [ours]; exact lost))).clear
      · have := inner.fewer listener
        exact Nat.le_zero.mp (by rw [← lost]; exact this)
      intro other waiting out found_other
      have both := (inner.trans (releases_setPending slot)).pending other
      rw [found_other] at both
      rcases both with same | none
      · exact apart other waiting out same.symm
      · cases none
    · exact ⟨held, lost, apart⟩
  exact ⟨all.1, all.2.1⟩

/-- A release uses up its reference if those inside it do. -/
theorem well_openFile : ReleasesWell (releaseOpenFile cfg release) := by
  refine ⟨fun s f => releases_openFile well.tables, fun s f gone hand held => ?_⟩
  have apart : ∀ slot conn, gone (.waiting slot) → s.pending slot = some conn →
      conn.listener ≠ f := by
    intro slot conn out found same
    have := held.leaving slot conn out found
    rw [same] at this
    exact held.pos this
  unfold releaseOpenFile
  split
  · rename_i zero
    exact absurd zero held.pos
  split
  · exact held.dropReference
  have dropped := held.dropReference
  have zero : ((s.dropReference f).files f).refcount = 0 := by
    simp only [dropReference, setFile_files, update_self]
    omega
  have ends : Held (releaseEnds cfg release (s.dropReference f) f) gone hand := by
    unfold releaseEnds
    dsimp only
    split
    · exact dropped.tables tables_releasePipe
    · split
      · exact dropped.tables ((((still_dropReader _).trans (still_dropWriter _)).tables.trans
          tables_notify).trans tables_wakeFile)
      · exact dropped
    · exact (held_listener well dropped zero apart).1
    · exact dropped
  have still : ((releaseEnds cfg release (s.dropReference f) f).files f).refcount = 0 := by
    have ended : Releases (s.dropReference f) (releaseEnds cfg release (s.dropReference f) f) :=
      releases_ends well.tables
    have := ended.fewer f
    omega
  exact ends.setFile rfl fun counted => absurd still counted

end Well

/-- So does `cell_release_open_file`. -/
theorem well_release : ReleasesWell (cellReleaseOpenFile cfg) :=
  well_openFile (well_openFile ⟨fun _ _ => .rfl, fun _ _ _ _ held =>
    ⟨held.counted.drop, held.opened, held.leaving⟩⟩)

end Held

/-! ## Calls -/

/-- Every reference is counted, with those in hand, and threads are in domains that exist. -/
structure Refs (s : Machine) (hand : Multiset Nat) : Prop where
  /-- Counters cover the references. -/
  held : Held s (fun _ => False) hand
  /-- Threads are in used domains. -/
  housed : ∀ thread domain, (s.threads thread).domain = some domain → (s.domains domain).used = true

section Refs

variable {hand : Multiset Nat} {f : Nat}

/-- A descriptor that is found has a file. -/
theorem fds_of_fileAt {fd : Int} (found : s.fileAt domain fd = some f) :
    (s.domains domain).fds fd.toNat = some f := by
  unfold fileAt at found
  split at found
  · exact found
  · cases found

/-- The file that allocation hands out. -/
def freshFile : OpenFile := { OpenFile.zero with used := true, refcount := 1 }

/-- A file that is not in use has no references. -/
theorem Held.zero_of_unused {gone : Owner → Prop} (held : Held s gone hand)
    (unused : (s.files f).used = false) : (s.files f).refcount = 0 := by
  by_contra counted
  rw [held.opened f counted] at unused
  cases unused

/-- Descriptors do not decide whether a domain is in use. -/
theorem setFd_used (domain fd : Nat) (file : Option Nat) (other : Nat) :
    ((s.setFd domain fd file).domains other).used = (s.domains other).used := by
  unfold setFd
  by_cases here : other = domain
  · simp [here]
  · simp [update_of_ne here]

/-- What a descriptor refers to after one was written. -/
theorem fds_setFd {fd other number : Nat} {file : Option Nat}
    (found : ((s.setFd domain fd file).domains other).fds number = some f) :
    other = domain ∧ number = fd ∧ file = some f ∨
      ¬ (other = domain ∧ number = fd) ∧ (s.domains other).fds number = some f := by
  unfold setFd at found
  by_cases here : other = domain
  · subst here
    simp only [update_self] at found
    by_cases same : number = fd
    · subst same
      rw [update_self] at found
      exact .inl ⟨rfl, rfl, found⟩
    · rw [update_of_ne same] at found
      exact .inr ⟨fun both => same both.2, found⟩
  · simp only [update_of_ne here] at found
    exact .inr ⟨fun both => here both.1, found⟩

/-- Storing a descriptor leaves every thread in a domain in use. -/
theorem housed_setFd
    (housed : ∀ thread other, (s.threads thread).domain = some other → (s.domains other).used)
    (domain fd : Nat) (file : Option Nat) :
    ∀ thread other, ((s.setFd domain fd file).threads thread).domain = some other →
      ((s.setFd domain fd file).domains other).used := by
  intro thread other home
  rw [setFd_used]
  exact housed thread other home

/-- A reference in hand goes into a descriptor. -/
theorem Refs.install (refs : Refs s (f ::ₘ hand)) (domain fd : Nat) :
    Refs (s.setFd domain fd (some f)) hand := by
  refine ⟨⟨?_, refs.held.opened, fun _ _ out => out.elim⟩,
    housed_setFd refs.housed domain fd (some f)⟩
  apply refs.held.counted.link (.descriptor domain fd)
  intro owner g refers_to
  cases owner with
  | descriptor other number =>
    rcases fds_setFd refers_to.1 with ⟨rfl, rfl, same⟩ | ⟨_, old⟩
    · exact .inr ⟨rfl, (Option.some.inj same).symm⟩
    · exact .inl ⟨old, id⟩
  | waiting slot => exact .inl refers_to

/-- A release does too. -/
theorem Releases.housed (released : Releases s t) (refs : Refs s hand) :
    ∀ thread domain, (t.threads thread).domain = some domain → (t.domains domain).used := by
  intro thread domain home
  rw [released.homes] at home
  rw [released.domains]
  exact refs.housed thread domain home

/-- A connection waits to be accepted. -/
theorem Refs.addConn {listener : Nat} (refs : Refs s (f ::ₘ hand)) :
    Refs (s.setPending slot (some ⟨listener, f⟩)) hand := by
  refine ⟨⟨?_, refs.held.opened, fun _ _ out => out.elim⟩, refs.housed⟩
  apply refs.held.counted.link (.waiting slot)
  intro owner g held
  cases owner with
  | descriptor domain fd => exact .inl held
  | waiting other =>
    obtain ⟨⟨conn, found, server⟩, counted⟩ := held
    by_cases same : other = slot
    · subst same
      rw [setPending_pending, update_self] at found
      rw [← Option.some.inj found] at server
      exact .inr ⟨rfl, server.symm⟩
    · rw [setPending_pending, update_of_ne same] at found
      exact .inl ⟨⟨conn, found, server⟩, counted⟩

section

variable (refs : Refs s hand)

include refs

/-- The counts depend on the tables. -/
theorem Refs.tables (same : SameTables s t) : Refs t hand := by
  refine ⟨refs.held.tables same, fun thread domain home => ?_⟩
  rw [same.homes] at home
  rw [same.domains]
  exact refs.housed thread domain home

/-- The file of a descriptor is in use. -/
theorem Refs.used_of_fd {fd : Nat}
    (found : (s.domains domain).fds fd = some f) : (s.files f).used := by
  have owned : refers s (.descriptor domain fd) f ∧ ¬ False := ⟨found, id⟩
  exact refs.held.opened f (Nat.ne_of_gt (refs.held.counted.pos_of_owner owned))

/-- A change of a file outside its count. -/
theorem Refs.setFile (count : file.refcount = (s.files f).refcount)
    (used : file.used = (s.files f).used) : Refs (s.setFile f file) hand :=
  ⟨refs.held.setFile count (fun counted => by
    rw [used]
    exact refs.held.opened f (by rwa [← count])), refs.housed⟩

/-- A file that is taken has one reference, which is in hand. -/
theorem Refs.fresh (unused : (s.files f).used = false)
    (one : file.refcount = 1) (used : file.used) : Refs (s.setFile f file) (f ::ₘ hand) := by
  have zero := refs.held.zero_of_unused unused
  refine ⟨⟨?_, forall_setFile (P := fun _ file => file.refcount ≠ 0 → file.used) (fun _ => used)
    fun g _ => refs.held.opened g, fun _ _ out => out.elim⟩, refs.housed⟩
  apply refs.held.counted.take f
  · rw [setFile_files, update_self, one, zero]
  · intro g apart
    rw [setFile_files, update_of_ne apart]

/-- Another reference to a file that a descriptor has, while the counter can count it. -/
theorem Refs.retain (used : (s.files f).used) (fits : (s.files f).refcount + 1 < 2 ^ 16) :
    Refs (s.cellRetainOpenFile (some f)) (f ::ₘ hand) := by
  refine ⟨⟨?_, forall_setFile (P := fun _ file => file.refcount ≠ 0 → file.used) (fun _ => used)
    fun g _ => refs.held.opened g, fun _ _ out => out.elim⟩, refs.housed⟩
  apply refs.held.counted.take f
  · simp only [cellRetainOpenFile, setFile_files, update_self]
    omega
  · intro g apart
    simp [cellRetainOpenFile, update_of_ne apart]

/-- What a descriptor refers to is released. In the source the descriptor still refers to the
file while that happens. -/
theorem Refs.vacate :
    Held (s.releaseOptional cfg ((s.domains domain).fds fd)) (· = .descriptor domain fd) hand ∧
      Releases s (s.releaseOptional cfg ((s.domains domain).fds fd)) := by
  cases found : (s.domains domain).fds fd with
  | none =>
    refine ⟨⟨?_, refs.held.opened, fun _ _ out => by cases out⟩, .rfl⟩
    exact refs.held.counted.forget fun owner g held => ⟨held.1, id⟩
  | some f =>
    have here : refers s (.descriptor domain fd) f ∧ ¬ False := ⟨found, id⟩
    have taken : Held s (· = .descriptor domain fd) (f ::ₘ hand) := by
      refine ⟨?_, refs.held.opened, fun _ _ out => by cases out⟩
      apply refs.held.counted.unlink here
      intro owner g held
      exact ⟨⟨held.1, id⟩, fun same => held.2 same.1⟩
    exact ⟨well_release.held s f _ hand taken, releases_release⟩

/-- A connection that waits is accepted: its server end is in hand. -/
theorem Refs.takeConn {slot : Nat} (found : s.pending slot = some conn) :
    Refs (s.setPending slot none) (conn.serverEnd ::ₘ hand) := by
  refine ⟨⟨?_, refs.held.opened, fun _ _ out => out.elim⟩, refs.housed⟩
  have here : refers s (.waiting slot) conn.serverEnd ∧ ¬ False := ⟨⟨conn, found, rfl⟩, id⟩
  apply refs.held.counted.unlink here
  intro owner g held
  cases owner with
  | descriptor domain fd => exact ⟨held, fun same => by cases same.1⟩
  | waiting other =>
    obtain ⟨⟨still, found_other, server⟩, counted⟩ := held
    by_cases same : other = slot
    · rw [same, setPending_pending, update_self] at found_other
      cases found_other
    · rw [setPending_pending, update_of_ne same] at found_other
      exact ⟨⟨⟨still, found_other, server⟩, counted⟩, fun both => same (Owner.waiting.inj both.1)⟩

/-- Two files that are taken together. -/
theorem Refs.freshTwo {g : Nat} (apart : f ≠ g)
    (free : (s.files f).used = false) (unused : (s.files g).used = false) :
    Refs ((s.setFile f freshFile).setFile g freshFile) (f ::ₘ g ::ₘ hand) := by
  have first : Refs (s.setFile f freshFile) (f ::ₘ hand) := refs.fresh free rfl rfl
  rw [Multiset.cons_swap]
  apply first.fresh _ rfl rfl
  rw [setFile_files, update_of_ne apart.symm]
  exact unused

end

/-- The file that allocation finds was not in use. -/
theorem allocOpenFile_cases (cfg : Config) (s : Machine) :
    s.cellAllocOpenFile cfg = (none, s) ∨ ∃ f, (s.files f).used = false ∧
      s.cellAllocOpenFile cfg = (some f, s.setFile f freshFile) := by
  unfold cellAllocOpenFile
  split
  · exact .inl rfl
  · rename_i f found
    have free := List.find?_some found
    exact .inr ⟨f, by simpa using free, rfl⟩

/-- A descriptor is closed: its reference goes with it. -/
theorem Refs.closeFd (cfg : Config) (refs : Refs s hand) (domain fd : Nat) :
    Refs ((s.releaseOptional cfg ((s.domains domain).fds fd)).setFd domain fd none) hand := by
  obtain ⟨held, released⟩ := refs.vacate
  refine ⟨⟨?_, held.opened, fun _ _ out => out.elim⟩,
    housed_setFd (released.housed refs) domain fd none⟩
  apply held.counted.forget
  intro owner g refs
  cases owner with
  | descriptor other number =>
    rcases fds_setFd refs.1 with ⟨_, _, same⟩ | ⟨apart, old⟩
    · cases same
    · exact ⟨old, fun same => apart (by cases same; exact ⟨rfl, rfl⟩)⟩
  | waiting slot => exact ⟨refs.1, by simp⟩

/-- A descriptor is replaced: the old reference is released, the new one was in hand. -/
theorem Refs.swapFd (cfg : Config) (refs : Refs s (f ::ₘ hand)) (domain fd : Nat) :
    Refs ((s.releaseOptional cfg ((s.domains domain).fds fd)).setFd domain fd (some f)) hand := by
  have closed := (refs.closeFd cfg domain fd).install domain fd
  simpa [setFd] using closed

/-- What asking for two open files does: nothing, or a slot that was not in use is zeroed, or two
slots that were not in use become files. -/
theorem allocTwoFiles_cases (cfg : Config) (s : Machine) : s.allocTwoFiles cfg = (none, s) ∨
    (∃ f, (s.files f).used = false ∧ s.allocTwoFiles cfg = (none, s.setFile f OpenFile.zero)) ∨
    ∃ f g, f ≠ g ∧ (s.files f).used = false ∧ (s.files g).used = false ∧
      s.allocTwoFiles cfg = (some (f, g), (s.setFile f freshFile).setFile g freshFile) := by
  unfold allocTwoFiles
  rcases allocOpenFile_cases cfg s with first | ⟨f, unused, first⟩
  · rw [first]
    dsimp only
    rw [first]
    exact .inl rfl
  rw [first]
  dsimp only
  rcases allocOpenFile_cases cfg (s.setFile f freshFile) with second | ⟨g, free, second⟩
  · rw [second]
    refine .inr (.inl ⟨f, unused, ?_⟩)
    simp [releaseOptional, cellReleaseOpenFile, releaseOpenFile, releaseEnds,
      dropReference, markUnused, setFile, freshFile, OpenFile.zero]
  rw [second]
  have apart : g ≠ f := by
    rintro rfl
    rw [setFile_files, update_self] at free
    cases free
  rw [setFile_files, update_of_ne apart] at free
  exact .inr (.inr ⟨f, g, apart.symm, unused, free, rfl⟩)

end Refs

/-- The pipe of a FIFO is found or made. -/
theorem tables_fifo : SameTables s (s.cellFifoPipeForIno ino).2 := by
  unfold cellFifoPipeForIno
  split
  · exact .rfl
  · split
    · exact .rfl
    · exact (still_alloc ino).tables

/-- Two numbers are stored for the user. -/
theorem tables_storeFds : SameTables s (s.storeFds domain addr first second).2 := by
  unfold storeFds
  split
  · exact .rfl
  · exact ⟨rfl, rfl, rfl, fun _ => rfl⟩

section Domains

variable {hand : Multiset Nat}

/-- Copying a descriptor does not start or end a domain. -/
theorem copyFd_used :
    ((copyFdStep child parent s fd).domains domain).used = (s.domains domain).used := by
  have same := setFd_used (s := s) child fd ((s.domains parent).fds fd) domain
  unfold copyFdStep cellRetainOpenFile
  split
  · exact same
  · exact same

/-- `cell_close_all_fds`, one descriptor after the other. -/
theorem Refs.closeAll (cfg : Config) (refs : Refs s hand) (domain : Nat) :
    Refs (s.cellCloseAllFds cfg domain) hand := by
  exact List.foldlRecOn (motive := fun u => Refs u hand) _ _ refs
    fun _ refs fd _ => refs.closeFd cfg domain fd

section

variable (refs : Refs s hand)

include refs

/-- Counting the ends of pipes is no reference to a file. -/
theorem Refs.addEnds (first second : Nat) :
    Refs (s.addEnds first second) hand := refs.tables (still_addEnds first second).tables

/-- Two sockets become the ends of two pipes. -/
theorem Refs.pairEnds (a b a2b b2a : Nat) (nonblock : Bool) :
    Refs (s.pairEnds a b a2b b2a nonblock) hand := by
  refine .tables (.setFile (.setFile (refs.addEnds a2b b2a) ?_ ?_) ?_ ?_)
    ⟨rfl, rfl, rfl, fun _ => rfl⟩ <;> rfl

/-- A client and a server end are joined. -/
theorem Refs.joinEnds (client server c2s s2c : Nat) (path : String) :
    Refs (s.joinEnds client server c2s s2c path) hand := by
  refine .tables (.setFile (.setFile (refs.addEnds c2s s2c) ?_ ?_) ?_ ?_)
    ⟨rfl, rfl, rfl, fun _ => rfl⟩ <;> rfl

/-- The child's descriptor is one more reference, for which there is room. -/
theorem Refs.copyFd (fits : ∀ f, (s.domains parent).fds fd = some f →
      (s.files f).refcount + 1 < 2 ^ 16) : Refs (copyFdStep child parent s fd) hand := by
  unfold copyFdStep
  cases found : (s.domains parent).fds fd with
  | none =>
    refine ⟨⟨?_, refs.held.opened, fun _ _ out => out.elim⟩, housed_setFd refs.housed child fd none⟩
    apply refs.held.counted.forget
    intro owner g held
    cases owner with
    | descriptor domain number =>
      rcases fds_setFd held.1 with ⟨_, _, same⟩ | ⟨_, old⟩
      · cases same
      · exact ⟨old, id⟩
    | waiting slot => exact held
  | some f => exact (refs.retain (refs.used_of_fd found) (fits f found)).install child fd

/-- A domain without descriptors comes into use. -/
theorem Refs.allocDomain (child : Nat) : Refs (s.allocDomain child) hand := by
  refine ⟨⟨?_, refs.held.opened, fun _ _ out => out.elim⟩, ?_⟩
  · apply refs.held.counted.forget
    intro owner g held
    cases owner with
    | descriptor domain fd =>
      have found : ((s.allocDomain child).domains domain).fds fd = some g := held.1
      rw [allocDomain_domains] at found
      by_cases here : domain = child
      · rw [here, update_self] at found
        cases found
      · rw [update_of_ne here] at found
        exact ⟨found, id⟩
    | waiting slot => exact held
  · intro other domain home
    rw [allocDomain_domains]
    by_cases here : domain = child
    · rw [here, update_self]
    · rw [update_of_ne here]
      exact refs.housed other domain home

/-- A thread appears in a domain that exists. -/
theorem Refs.newThread (home : value.domain = some domain) (used : (s.domains domain).used) :
    Refs (s.setThread thread value) hand := by
  refine ⟨⟨refs.held.counted, refs.held.opened, refs.held.leaving⟩, ?_⟩
  intro other its_domain its_home
  by_cases here : other = thread
  · rw [here, setThread_threads, update_self, home] at its_home
    rw [← Option.some.inj its_home]
    exact used
  · rw [setThread_threads, update_of_ne here] at its_home
    exact refs.housed other its_domain its_home

omit refs in
/-- Copying to a child leaves the table of the parent as it is. -/
theorem copyFd_parent :
    ((copyFdStep child parent s fd).domains parent).fds = (s.domains parent).fds := by
  have same : ((s.setFd child fd ((s.domains parent).fds fd)).domains parent).fds =
      (s.domains parent).fds := by
    by_cases here : parent = child
    · subst here
      simp [setFd]
    · simp [setFd, update_of_ne here]
  unfold copyFdStep cellRetainOpenFile
  split <;> exact same

omit refs in
/-- A file gets one reference more where the descriptor refers to it. -/
theorem copyFd_count (fits : ∀ f, (s.domains parent).fds fd = some f →
    (s.files f).refcount + 1 < 2 ^ 16) (f : Nat) :
    ((copyFdStep child parent s fd).files f).refcount =
      (s.files f).refcount + if (s.domains parent).fds fd = some f then 1 else 0 := by
  unfold copyFdStep cellRetainOpenFile
  cases found : (s.domains parent).fds fd with
  | none => rfl
  | some g =>
    by_cases same : g = f
    · subst same
      have room := fits g found
      simp only [setFile_files, update_self, if_true]
      change ((s.files g).refcount + 1) % 2 ^ 16 = (s.files g).refcount + 1
      omega
    · simp only [setFile_files, update_of_ne (Ne.symm same), Option.some.injEq, same, if_false]
      rfl

/-- The descriptors of the list that refer to a file. -/
def fdsOf (s : Machine) (domain : Nat) (fds : List Nat) (f : Nat) : Nat :=
  fds.countP fun fd => decide ((s.domains domain).fds fd = some f)

/-- `cell_copy_fd_table`, if every file has room for as many references as the parent has. -/
theorem Refs.copyTable (fits : ∀ f, fdsOf s parent (List.range maxFds) f ≠ 0 →
      (s.files f).refcount + fdsOf s parent (List.range maxFds) f < 2 ^ 16) :
    Refs (s.cellCopyFdTable child parent) hand ∧
      ∀ domain, ((s.cellCopyFdTable child parent).domains domain).used =
        (s.domains domain).used := by
  unfold cellCopyFdTable
  -- What is still to be copied fits on top of the counters.
  generalize List.range maxFds = fds at fits
  induction fds generalizing s with
  | nil => exact ⟨refs, fun _ => rfl⟩
  | cons fd rest ih =>
    have first (f : Nat) (found : (s.domains parent).fds fd = some f) :
        (s.files f).refcount + 1 < 2 ^ 16 := by
      have total := fits f (by simp [fdsOf, found])
      simp only [fdsOf, List.countP_cons, found, decide_true, if_true] at total
      omega
    have copied := ih (refs.copyFd first) fun f some_left => by
      have same : fdsOf (copyFdStep child parent s fd) parent rest f = fdsOf s parent rest f := by
        unfold fdsOf
        rw [copyFd_parent]
      rw [same] at some_left ⊢
      have total := fits f (by simp only [fdsOf, List.countP_cons] at some_left ⊢; omega)
      rw [copyFd_count first f]
      simp only [fdsOf, List.countP_cons, decide_eq_true_eq] at total ⊢
      omega
    exact ⟨copied.1, fun domain => (copied.2 domain).trans copyFd_used⟩

/-- A domain ends, and its threads leave it. -/
theorem Refs.exit (domain : Nat) : Refs (s.endDomain cfg domain) hand := by
  have closed := refs.closeAll cfg domain
  unfold endDomain
  generalize s.cellCloseAllFds cfg domain = t at closed
  refine ⟨⟨?_, closed.held.opened, fun _ _ out => out.elim⟩, ?_⟩
  · apply closed.held.counted.forget
    intro owner g held
    cases owner with
    | descriptor other fd =>
      refine ⟨?_, id⟩
      have found := held.1
      simp only [refers] at found ⊢
      by_cases here : other = domain
      · rw [here, update_self] at found
        rw [here]
        exact found
      · rw [update_of_ne here] at found
        exact found
    | waiting slot => exact held
  · intro thread other home
    dsimp only at home ⊢
    split at home
    · cases home
    rename_i apart
    have here : other ≠ domain := by
      rintro rfl
      exact apart home
    rw [update_of_ne here]
    exact closed.housed thread other home

end

end Domains

/-- After boot there is no reference. -/
theorem refs_boot (memory : UserMemory) : Refs (boot memory freePages) 0 := by
  have only : ∀ owner f, refers (boot memory freePages) owner f →
      owner = .descriptor 0 f ∧ f < 3 := by
    intro owner f held
    cases owner with
    | descriptor domain fd =>
      simp only [refers, boot] at held
      split at held
      · rename_i zero
        simp only [zero] at held ⊢
        split at held
        · rename_i low
          cases held
          exact ⟨rfl, low⟩
        · cases held
      · cases held
    | waiting slot =>
      obtain ⟨conn, found, _⟩ := held
      cases found
  refine ⟨⟨fun f => ?_, fun f counted => ?_, fun _ _ out => out.elim⟩, fun thread domain home => ?_⟩
  · rw [Multiset.count_zero, Nat.cast_zero, add_zero]
    by_cases low : f < 3
    · have single : {owner | refers (boot memory freePages) owner f ∧ ¬ False} ⊆
          {.descriptor 0 f} := fun owner held => (only owner f held.1).1
      refine (Set.encard_le_encard single).trans ?_
      simp [boot, low]
    · have empty : {owner | refers (boot memory freePages) owner f ∧ ¬ False} = ∅ :=
        Set.eq_empty_of_forall_notMem fun owner held => low (only owner f held.1).2
      rw [empty, Set.encard_empty]
      exact zero_le
  · simp only [boot] at counted ⊢
    split at counted
    · rename_i low
      rw [if_pos low]
    · exact absurd rfl counted
  · simp only [boot] at home ⊢
    split at home
    · rw [← Option.some.inj home]
      rfl
    · cases home

end Spore.Ipc
