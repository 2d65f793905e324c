import Spore.Ramfs.Contents

/-!
# Reads along every run

A `Traced` file system carries the arrays its calls have written. In every run whose writes
fit, `ramfs_read` returns the bytes of the arrays. A write of several pages that is refused a
later one has already changed the earlier ones, so the condition cannot be dropped.
-/

namespace Spore.Ramfs

open Spore.Lib

namespace Fs

variable {fs : Fs}

/-! ## The files of the first tree -/

/-- The contents the texts of the nodes give. -/
def textFiles (fs : Fs) (ino : Nat) : FileBytes :=
  match fs.nodes.find? fun node => node.used && decide (node.ino = ino) with
  | some node => ⟨node.size, fun k => node.roData.getD k 0⟩
  | none => .empty

/-- The tables show some contents, and no writable file has a byte. -/
def Texts (fs : Fs) : Prop :=
  ∃ files, fs.Holds True files ∧ ∀ {i}, (fs.node i).used = true → (fs.node i).writable = true →
    (fs.node i).size = 0 ∧ (fs.node i).roData = []

section

variable (texts : fs.Texts)

include texts

/-- A new node has no text. -/
theorem Texts.addNode (parent : Option Nat) (name : List Char)
    (isDir writable : Bool) : (fs.addNode parent name isDir writable).2.Texts := by
  obtain ⟨files, holds, empty⟩ := texts
  have adding := holds.addNode parent name isDir writable
  refine ⟨files, adding.holds, fun {i} used writable => ?_⟩
  rcases adding.old used with made | usedBefore
  · have blank := (adding.added made).1
    exact ⟨blank.size, blank.roData⟩
  have info := (adding.stays usedBefore).2
  simp only [MemNode.info, Prod.mk.injEq] at info
  rw [info.2.2.1] at writable
  rw [info.2.1, info.2.2.2]
  exact empty usedBefore writable

/-- A change of a node outside its contents. -/
theorem Texts.setNode (i : Nat) {change : MemNode → MemNode}
    (used : (change (fs.node i)).used = (fs.node i).used)
    (head : (change (fs.node i)).firstPage = (fs.node i).firstPage)
    (info : (change (fs.node i)).info = (fs.node i).info) : (fs.setNode i change).Texts := by
  obtain ⟨files, holds, empty⟩ := texts
  refine ⟨files, holds.setNode i used head info, fun {j} usedJ writable => ?_⟩
  have same : ((fs.setNode i change).node j).used = (fs.node j).used ∧
      ((fs.setNode i change).node j).info = (fs.node j).info := by
    rw [node_setNode]
    split
    · rename_i here
      rw [here.1]
      exact ⟨used, info⟩
    · exact ⟨rfl, rfl⟩
  simp only [MemNode.info, Prod.mk.injEq] at same
  rw [same.1] at usedJ
  rw [same.2.2.2.1] at writable
  rw [same.2.2.1, same.2.2.2.2]
  exact empty usedJ writable

/-- A mount point is a directory. -/
theorem Texts.addMount (name : List Char) (mount : RamfsMount) :
    (fs.addMount name mount).Texts := by
  have added := texts.addNode (some 0) name true true
  unfold Fs.addMount setMount
  split
  rename_i index after made
  rw [made] at added
  cases index with
  | none => exact added
  | some index => exact added.setNode index rfl rfl rfl

/-- A device has no text. -/
theorem Texts.addDevice (path : List Char) (device : RamfsDevice) :
    (fs.addDevice path device).Texts := by
  unfold Fs.addDevice
  split
  · exact texts
  rename_i parent name _
  have added := texts.addNode (some parent) name false false
  split <;> rename_i made <;> rw [made] at added
  · exact added
  · exact added.setNode _ rfl rfl rfl

/-- A directory may be made. -/
theorem Texts.ensureChildDir (parent : Option Nat) (name : List Char) :
    (fs.ensureChildDir parent name).2.Texts := by
  unfold Fs.ensureChildDir
  split
  · exact texts
  · exact texts.addNode parent name true true

end

/-- The directories of a boot path are made. -/
theorem Texts.walkBootPath (fuel : Nat) : ∀ {fs : Fs} (parent : Nat) (path : List Char),
    fs.Texts → (fs.walkBootPath parent fuel path).2.Texts := by
  induction fuel with
  | zero => exact fun _ _ texts => texts
  | succ fuel ih =>
    intro fs parent path texts
    unfold Fs.walkBootPath
    dsimp only
    split
    · exact texts
    split
    · exact texts
    have entered := texts.ensureChildDir (some parent) (path.takeWhile (· ≠ '/'))
    split <;> rename_i answer <;> rw [answer] at entered
    · exact entered
    · exact ih _ _ entered

/-- A text is zero beyond its length. -/
theorem trim_text (data : List UInt8) : FileBytes.Trim ⟨data.length, fun k => data.getD k 0⟩ := by
  intro k beyond
  have outside : data.length ≤ k := beyond
  show data.getD k 0 = 0
  rw [List.getD_eq_getElem?_getD, List.getElem?_eq_none outside]
  rfl

/-- A boot file: its bytes are its text. -/
theorem Texts.fillText {index : Nat} {files : Nat → FileBytes} (holds : fs.Holds True files)
    (empty : ∀ {i}, (fs.node i).used → (fs.node i).writable →
      (fs.node i).size = 0 ∧ (fs.node i).roData = [])
    (used : (fs.node index).used) (readOnly : (fs.node index).writable = false)
    (data : List UInt8) (mode : BitVec 16) :
    (fs.setNode index fun node =>
      { node with roData := data, size := data.length, mode := mode }).Texts := by
  have but : (fs.setNode index fun node =>
      { node with roData := data, size := data.length, mode := mode }).HoldsBut True files
      (some index) := (holds.but index).setNode index rfl rfl rfl fun _ same => absurd rfl same
  have seen := node_setNode fs index fun node =>
    { node with roData := data, size := data.length, mode := mode }
  generalize (fs.setNode index fun node =>
    { node with roData := data, size := data.length, mode := mode }) = after at but seen ⊢
  have here := seen index
  rw [if_pos ⟨rfl, lt_of_used used⟩] at here
  have flag : (after.node index).writable = false := by
    rw [here]
    exact readOnly
  have shown : after.Shows index ⟨data.length, fun k => data.getD k 0⟩ := by
    refine ⟨?_, fun writable => ?_, fun _ => ?_⟩
    · rw [here]
    · rw [flag] at writable
      cases writable
    · rw [here]
      exact ⟨rfl, fun _ => rfl⟩
  refine ⟨_, but.complete (by rw [here]; exact used) (trim_text data) fun _ => shown,
    fun {i} usedI writable => ?_⟩
  by_cases same : i = index
  · rw [same, flag] at writable
    cases writable
  · rw [seen, if_neg fun both => same both.1] at usedI writable ⊢
    exact empty usedI writable

/-- A boot file has its bytes as its text. -/
theorem Texts.addRoFile (texts : fs.Texts) (path : List Char) (data : List UInt8) :
    (fs.addRoFile path data).Texts := by
  unfold Fs.addRoFile
  split
  · rename_i rest
    have walked := Texts.walkBootPath rest.length 0 rest texts
    split <;> rename_i answer <;> rw [answer] at walked
    · exact walked
    rename_i parent name dirs
    have added := walked.addNode (some parent) name false false
    obtain ⟨files, holds, _⟩ := walked
    have adding := holds.addNode (some parent) name false false
    split <;> rename_i made <;> rw [made] at added adding
    · exact added
    · obtain ⟨blank, -, readOnly, -⟩ := adding.added rfl
      obtain ⟨files', holds', empty⟩ := added
      exact .fillText holds' empty blank.used readOnly data 0o444
  · exact texts

/-- The files of a processor are devices. -/
theorem Texts.addCpu (texts : fs.Texts) (cpuRoot cpu : Nat) : (Fs.addCpu cpuRoot fs cpu).Texts := by
  have entered := texts.ensureChildDir (some cpuRoot) ("cpu".toList ++ decDigits cpu)
  unfold Fs.addCpu
  dsimp only
  split <;> rename_i answer <;> rw [answer] at entered
  · exact entered
  · exact entered.addDevice _ _

/-- Boot does one thing after another. -/
theorem Texts.foldl {α : Type} {add : Fs → α → Fs} (kept : ∀ fs x, fs.Texts → (add fs x).Texts)
    (list : List α) : ∀ {fs : Fs}, fs.Texts → (list.foldl add fs).Texts := by
  induction list with
  | nil => exact fun texts => texts
  | cons x rest ih => exact fun texts => ih (kept _ x texts)

/-- The files of all processors. -/
theorem Texts.addSysCpuTopology (texts : fs.Texts) (cpus : Nat) :
    (fs.addSysCpuTopology cpus).Texts := by
  unfold Fs.addSysCpuTopology
  dsimp only
  split
  · exact texts
  rename_i sys _
  have devices := texts.ensureChildDir (some sys) "devices".toList
  have system := devices.ensureChildDir (fs.ensureChildDir (some sys) "devices".toList).1
    "system".toList
  have cpuDir := system.ensureChildDir ((fs.ensureChildDir (some sys)
    "devices".toList).2.ensureChildDir (fs.ensureChildDir (some sys) "devices".toList).1
    "system".toList).1 "cpu".toList
  split
  · exact cpuDir
  · exact .foldl (fun fs cpu texts => texts.addCpu _ cpu) _
      (((cpuDir.addDevice _ _).addDevice _ _).addDevice _ _)

/-- A table without a node in use shows anything. -/
theorem texts_initRoot : blank.initRoot.Texts := by
  have unused : ∀ {i}, (blank.node i).used → False := by
    intro i used
    rw [blank_node.1] at used
    cases used
  have stored : blank.Stored := by
    refine ⟨fun _ => [], [], ⟨fun used => (unused used).elim, fun used => (unused used).elim,
      fun used => (unused used).elim⟩, ⟨rfl, fun member => ?_, fun inside => ?_, List.nodup_nil,
      rfl, ?_⟩⟩
    · cases member
    · cases inside
    · exact Nat.zero_le _
  have holds : blank.Holds True fun _ => .empty :=
    ⟨stored, fun used => (unused used).elim, fun used => (unused used).elim, fun _ => rfl,
      fun _ => FileBytes.trim_empty, fun _ _ _ used => (unused used).elim⟩
  unfold initRoot
  rcases allocNode_cases blank with full | ⟨index, inside, _, taken⟩
  · rw [full]
    exact ⟨_, holds, fun used => (unused used).elim⟩
  rw [taken]
  obtain ⟨holds', blankNode, _⟩ := holds.takeNode inside
  have texts : (blank.takeNode index).Texts := by
    refine ⟨_, holds', fun {i} used _ => ?_⟩
    by_cases here : i = index
    · rw [here]
      exact ⟨blankNode.size, blankNode.roData⟩
    · rw [node_takeNode inside, if_neg here] at used
      exact (unused used).elim
  exact texts.setNode index rfl rfl rfl

/-- After `ramfs_init` all contents are texts. -/
theorem boot_texts (cpus : Nat) (modules : List (List Char × List UInt8)) :
    (boot cpus modules).Texts := by
  have addDir : ∀ {fs : Fs} (parent name), fs.Texts → (fs.addDir parent name).Texts :=
    fun parent name texts => texts.addNode _ name true true
  have mounts := ((((texts_initRoot.addMount "dev".toList .dev).addMount "proc".toList
    .proc).addMount "sys".toList .sys).addMount "tmp".toList .tmp).addMount "run".toList .run
  have dirs : blank.initRoot.bootDirs.Texts :=
    addDir _ _ (addDir _ _ (addDir _ _ (addDir _ _ (addDir _ _ (addDir _ _ mounts)))))
  have devices := Texts.foldl (fun fs device texts => texts.addDevice device.1 device.2) bootDevices
    (dirs.addSysCpuTopology cpus)
  exact .foldl (fun fs file texts => texts.addRoFile file.1 file.2) modules devices

/-- The text of a number is that of a node in use. -/
theorem textFiles_cases (fs : Fs) (ino : Nat) :
    (∃ j, (fs.node j).used ∧ (fs.node j).ino = ino ∧
      fs.textFiles ino = ⟨(fs.node j).size, fun k => (fs.node j).roData.getD k 0⟩) ∨
    ((∀ j, (fs.node j).used → (fs.node j).ino ≠ ino) ∧ fs.textFiles ino = .empty) := by
  unfold textFiles
  cases found : fs.nodes.find? fun node => node.used && decide (node.ino = ino) with
  | some entry =>
    have fields := List.find?_some found
    obtain ⟨j, here⟩ := List.mem_iff_getElem?.mp (List.mem_of_find?_eq_some found)
    have same : fs.node j = entry := by rw [node, List.getD_eq_getElem?_getD, here]; rfl
    simp only [Bool.and_eq_true, decide_eq_true_eq] at fields
    exact .inl ⟨j, by rw [same]; exact fields.1, by rw [same]; exact fields.2, by rw [same]⟩
  | none =>
    refine .inr ⟨fun j used same => ?_, rfl⟩
    have missed := List.find?_eq_none.mp found _ (node_mem used)
    simp [used, same] at missed

/-- The texts are the contents that the tables show. -/
theorem Texts.holds (texts : fs.Texts) {told : Prop} : fs.Holds told fs.textFiles := by
  obtain ⟨files, holds, empty⟩ := texts
  refine ⟨holds.stored, holds.known, holds.one, fun {ino} beyond => ?_, fun ino => ?_,
    fun _ {i} _ used => ?_⟩
  · rcases textFiles_cases fs ino with ⟨j, used, same, -⟩ | ⟨-, nothing⟩
    · have known := holds.known used
      omega
    · exact nothing
  · rcases textFiles_cases fs ino with ⟨j, used, -, text⟩ | ⟨-, nothing⟩
    · rw [text]
      cases kind : (fs.node j).writable with
      | true =>
        rw [(empty used kind).1, (empty used kind).2]
        exact trim_text []
      | false =>
        rw [← ((holds.shows trivial (Option.some_ne_none j).symm used).text kind).1]
        exact trim_text _
    · rw [nothing]
      exact FileBytes.trim_empty
  · have shows := holds.shows trivial (Option.some_ne_none i).symm used
    rcases textFiles_cases fs (fs.node i).ino with ⟨j, usedJ, same, text⟩ | ⟨absent, -⟩
    · obtain rfl := holds.one usedJ used same
      rw [text]
      refine ⟨rfl, fun writable => ?_, fun readOnly => ⟨(shows.text readOnly).1, fun _ => rfl⟩⟩
      obtain ⟨small, bytes⟩ := shows.bytes writable
      refine ⟨small, fun {x} near => ?_⟩
      have zero := holds.trim (fs.node j).ino x (by
        rw [shows.size, (empty used writable).1]
        exact Nat.zero_le x)
      rw [bytes near, zero, (empty used writable).2]
      rfl
    · exact absurd rfl (absent i used)

end Fs

/-! ## Runs -/

/-- A file system with the contents its calls have given the files. -/
structure Traced where
  /-- The file system. -/
  fs : Fs
  /-- What the files should hold. -/
  files : Nat → FileBytes

namespace Traced

/-- The contents after a call: a successful write, truncate or link has its effect, any other
call none. -/
def filesAfter (s : Traced) : RamOp → Nat → FileBytes
  | .write index off src answers =>
    if ((s.fs.withAnswers answers).ramfsWrite index off src).1.isSome then
      Function.update s.files (s.fs.node index).ino ((s.files (s.fs.node index).ino).write off src)
    else s.files
  | .truncate index size =>
    if (s.fs.ramfsTruncate index size).1 then
      Function.update s.files (s.fs.node index).ino ((s.files (s.fs.node index).ino).truncate size)
    else s.files
  | .link oldPath newPath answers =>
    match s.fs.lookupIndex oldPath with
    | none => s.files
    | some src =>
      if ((s.fs.withAnswers answers).ramfsLink oldPath newPath).1 then
        Function.update s.files s.fs.nextIno (s.files (s.fs.node src).ino)
      else s.files
  | _ => s.files

/-- One call. -/
def step (s : Traced) (op : RamOp) : Traced := ⟨s.fs.step op, s.filesAfter op⟩

/-- The state after `ramfs_init`: a boot module holds its text. -/
def boot (cpus : Nat) (modules : List (List Char × List UInt8)) : Traced :=
  ⟨Fs.boot cpus modules, (Fs.boot cpus modules).textFiles⟩

/-- The condition on a call: a write does not run out of pages behind its first one. -/
def Fits (s : Traced) : RamOp → Prop
  | .write index off src answers => s.fs.WriteFits index off src answers
  | _ => True

/-- Every read of a file returns the bytes of its array. -/
def ReadsTrue (s : Traced) : Prop :=
  ∀ index, s.fs.plainFile index = true → ∀ off len,
    s.fs.ramfsRead index off len = (s.files (s.fs.node index).ino).read off len

/-- The tables stay in order, and they go on showing the contents when the call fits. -/
theorem holds_step {told : Prop} (s : Traced) (op : RamOp) (holds : s.fs.Holds told s.files)
    (fits : told → s.Fits op) : (s.step op).fs.Holds told (s.step op).files := by
  have edited (edits : op.Edits) : (s.fs.step op).Holds told s.files := by
    rcases s.fs.step_edits edits with same | ⟨i, change, same, kept⟩
    · rw [same]
      exact holds
    · rw [same]
      obtain ⟨_, _, _, _, _, _, node⟩ := kept (s.fs.node i)
      apply holds.setNode i <;> rw [node]
      rfl
  cases op with
  | create path => exact holds.ramfsCreate path
  | mkdir path mode => exact holds.ramfsMkdir path mode
  | mkfifo path mode | mksock path mode => exact holds.makeSpecial _ path mode
  | link oldPath newPath answers =>
    obtain ⟨failed, linked⟩ := (holds.withAnswers answers).ramfsLink oldPath newPath
    simp only [step, filesAfter, Fs.step]
    cases found : s.fs.lookupIndex oldPath with
    | none =>
      have refused : ((s.fs.withAnswers answers).ramfsLink oldPath newPath).1 = false := by
        unfold Fs.ramfsLink
        rw [Fs.lookupIndex_withAnswers, found]
      exact failed refused
    | some src =>
      dsimp only
      split
      · rename_i done
        exact linked src (by rw [Fs.lookupIndex_withAnswers, found]) done
      · rename_i stopped
        exact failed (by simpa using stopped)
  | rename oldPath newPath => exact holds.ramfsRename oldPath newPath
  | unlink path => exact holds.ramfsUnlink path
  | retain index =>
    simp only [step, filesAfter, Fs.step, Fs.ramfsRetainNode]
    split
    · exact holds.setNode index rfl rfl rfl
    · exact holds
  | release index => exact holds.ramfsReleaseNode index
  | chmod | chown | setSealable | addSeals | noteMapping => exact edited trivial
  | write index off src answers =>
    have ready : told → (s.fs.withAnswers answers).WriteFits index off src answers :=
      fun tells => .withAnswers (fits tells) answers
    obtain ⟨failed, written⟩ := (holds.withAnswers answers).ramfsWrite ready
    simp only [step, filesAfter, Fs.step]
    split
    · rename_i done
      exact written done
    · rename_i stopped
      exact failed (by simpa using stopped)
  | truncate index size =>
    obtain ⟨failed, truncated⟩ := holds.ramfsTruncate index size
    simp only [step, filesAfter, Fs.step]
    split
    · rename_i done
      exact truncated done
    · rename_i stopped
      exact failed (by simpa using stopped)

/-- In every run whose writes fit, every read returns the bytes of an array that only successful
calls have changed, zero wherever none was stored since the size last excluded the place. -/
theorem ramfs_reads_true (cpus : Nat) (modules : List (List Char × List UInt8))
    (ops : List RamOp) (fits : EveryInput step Fits (boot cpus modules) ops) :
    EveryState step ReadsTrue (boot cpus modules) ops := by
  have kept (s : Traced) (op : RamOp) (shown : s.fs.Holds True s.files) (fit : s.Fits op) :
      (s.step op).fs.Holds True (s.step op).files := s.holds_step op shown fun _ => fit
  have holds := everyState_of_everyInput kept (Fs.boot_texts cpus modules).holds fits
  refine holds.mono fun s shown index plain off len => ?_
  have used := Fs.used_of_plainFile plain
  exact (shown.shows trivial (Option.some_ne_none index).symm used).read plain off len

/-- In every run, torn writes included, the slots of the files are chains without a slot in
common, the unused slots are one more and the count of used slots is right, and no two nodes have
one inode number. -/
theorem ramfs_slots_kept (cpus : Nat) (modules : List (List Char × List UInt8))
    (ops : List RamOp) :
    EveryState step (fun s => s.fs.Stored ∧ ∀ i j, (s.fs.node i).used = true →
      (s.fs.node j).used = true → (s.fs.node i).ino = (s.fs.node j).ino → i = j)
      (boot cpus modules) ops := by
  -- the order of the tables does not depend on what the files show
  have kept (s : Traced) (op : RamOp) (ordered : s.fs.Holds False s.files) :
      (s.step op).fs.Holds False (s.step op).files := s.holds_step op ordered False.elim
  have start : (boot cpus modules).fs.Holds False (boot cpus modules).files :=
    (Fs.boot_texts cpus modules).holds
  exact (everyState_of_kept kept start).mono fun s shown => ⟨shown.stored, fun _ _ => shown.one⟩

/-- A file that is written beyond its end, cut and read. -/
def writeAndCut : List RamOp :=
  [.create "/tmp/a".toList, .write 65 4095 [1] [false], .write 65 8190 [7, 8] [], .truncate 65 4096]

/-- In that run every write fits, the refused request included. -/
theorem ramfs_reads_true_writeAndCut : EveryState step ReadsTrue (boot 1 []) writeAndCut :=
  ramfs_reads_true 1 [] writeAndCut
    ⟨trivial, .inl (by simp [Fs.pagesOf, pageBytes]),
      .inl (by simp [Fs.pagesOf, pageBytes]), trivial,
      trivial⟩

/-- Two bytes across a page boundary, of which the second does not get its page. -/
def tornWrite : List RamOp :=
  [.create "/tmp/a".toList, .write 65 4095 [1] [], .write 65 4095 [2, 2] [false]]

/-- The state after the torn write. -/
def afterTornWrite : Traced := tornWrite.foldl step (boot 1 [])

/-- The write fails, and yet the byte in front of the boundary has changed. -/
theorem torn_write_changes_byte : ¬ EveryState step ReadsTrue (boot 1 []) tornWrite := by
  have seen : afterTornWrite.fs.plainFile 65 = true ∧
      afterTornWrite.fs.ramfsRead 65 4095 1 = [2] ∧
      (afterTornWrite.files (afterTornWrite.fs.node 65).ino).read 4095 1 = [1] := by
    decide +kernel
  intro every
  have same := every.last 65 seen.1 4095 1
  rw [afterTornWrite] at seen
  rw [seen.2.1, seen.2.2] at same
  cases same

end Traced

end Spore.Ramfs
