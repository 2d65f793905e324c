import Spore.Ramfs.Shape

/-!
# The tree invariant along every run

The tree `ramfs_init` builds is sound, every call keeps it sound, renames under `RenameFits`,
and the reference counters agree with the references held as long as none of them wraps.
-/

namespace Spore.Ramfs

open Spore.Lib MemNode
variable {cpus index : Nat} {s : Session}

namespace Fs

variable {fs : Fs}

/-! ## The first tree -/

/-- A sound tree outside which there is no node and no reference, as during `ramfs_init`. -/
structure Growing (fs : Fs) : Prop where
  /-- The tree is in order. -/
  sound : fs.Sound
  /-- No node is unlinked. -/
  linked : ∀ index, (fs.node index).used = true → (fs.node index).parent ≠ none
  /-- No node is open. -/
  unheld : ∀ index, (fs.node index).refs = 0

/-- A later stage of `ramfs_init`. -/
structure Grows (before after : Fs) : Prop where
  /-- The tree keeps growing. -/
  growing : after.Growing
  /-- No node goes. -/
  stays : ∀ index, (before.node index).used = true → (after.node index).used = true

/-- Nothing is added. -/
theorem Growing.stay (growing : fs.Growing) : fs.Grows fs := ⟨growing, fun _ used => used⟩

/-- Boot goes on. -/
theorem Grows.trans {a b c : Fs} (first : a.Grows b) (second : b.Grows c) : a.Grows c :=
  ⟨second.growing, fun index used => second.stays index (first.stays index used)⟩

/-- While the tree only grows, the root is reached from every node. -/
theorem Growing.reaches (growing : fs.Growing) {index : Nat} (used : (fs.node index).used) :
    fs.forest.ReachesRoot index := by
  obtain ⟨parent, above⟩ := Option.ne_none_iff_exists'.mp (growing.linked index used)
  exact growing.sound.shaped.rooted (under_iff.mpr ⟨used, above⟩)

/-- A path leads to a used node. -/
theorem Growing.used_of_lookup (growing : fs.Growing) {path : List Char} {index : Nat}
    (found : fs.lookupIndex path = some index) : (fs.node index).used :=
  growing.sound.used_of_reaches (lookupIndex_reaches found)

/-- A step that leaves the tree alike. -/
theorem Growing.alike {a b : Fs} (growing : a.Growing) (alike : a.Alike b) : a.Grows b := by
  have tends := alike.tends growing.sound
  have same : ∀ index, (b.node index).used = (a.node index).used ∧
      (b.node index).parent = (a.node index).parent := by
    intro index
    have fields := core_eq (alike index)
    exact ⟨fields.1, fields.2.2.1⟩
  refine ⟨⟨tends.sound, fun index used => ?_, fun index => ?_⟩, fun index used => ?_⟩
  · rw [(same index).2]
    exact growing.linked index ((same index).1.symm.trans used)
  · rw [tends.refs]
    exact growing.unheld index
  · exact (same index).1.trans used

section

variable (growing : fs.Growing)

include growing

/-- `add_node` during `ramfs_init`. -/
theorem Growing.addNode {parent : Nat}
    (used : (fs.node parent).used) (name : List Char) (isDir writable : Bool) :
    fs.Grows (fs.addNode (some parent) name isDir writable).2 ∧
      ∀ index, (fs.addNode (some parent) name isDir writable).1 = some index →
        ((fs.addNode (some parent) name isDir writable).2.node index).used := by
  have adds := growing.sound.addNode (growing.reaches used) name isDir writable
  refine ⟨⟨⟨adds.tends.sound, fun index usedAfter loose => ?_, fun index => ?_⟩, adds.stays⟩,
    fun index made => (adds.added index made).2.1⟩
  · obtain ⟨usedBefore, looseBefore⟩ := adds.loose index usedAfter loose
    exact growing.linked index usedBefore looseBefore
  · rw [adds.tends.refs]
    exact growing.unheld index

/-- The mark of a mount is no part of the tree. -/
theorem Growing.setMount (index : Option Nat) (mount : RamfsMount) :
    fs.Grows (fs.setMount index mount) := by
  cases index with
  | none => exact growing.stay
  | some index => exact growing.alike (fs.alike_setNode rfl)

/-- A directory is added and marked. -/
theorem Growing.addMount (name : List Char) (mount : RamfsMount) :
    fs.Grows (fs.addMount name mount) := by
  have added := (growing.addNode growing.sound.root.1 name true true).1
  exact added.trans (added.growing.setMount _ mount)

/-- A directory of the boot image. -/
theorem Growing.addDir (parent name : List Char) : fs.Grows (fs.addDir parent name) := by
  unfold Fs.addDir
  cases found : fs.lookupIndex parent with
  | none => exact growing.stay
  | some index => exact (growing.addNode (growing.used_of_lookup found) name true true).1

/-- A device node is added below its directory. -/
theorem Growing.addDevice (path : List Char) (device : RamfsDevice) :
    fs.Grows (fs.addDevice path device) := by
  unfold Fs.addDevice
  split
  · exact growing.stay
  rename_i parent name located
  have used := growing.sound.used_of_reaches (splitParent_some located).1
  have grown := (growing.addNode used name false false).1
  split <;> rename_i answer <;> rw [answer] at grown
  · exact grown
  · exact grown.trans (grown.growing.alike (alike_setNode _ rfl))

/-- The directory is used afterwards, found or made. -/
theorem Growing.ensureChildDir {parent : Option Nat}
    (used : ∀ index, parent = some index → (fs.node index).used) (name : List Char) :
    fs.Grows (fs.ensureChildDir parent name).2 ∧
      ∀ index, (fs.ensureChildDir parent name).1 = some index →
        ((fs.ensureChildDir parent name).2.node index).used := by
  unfold Fs.ensureChildDir
  split
  · rename_i index found
    refine ⟨growing.stay, fun i same => ?_⟩
    split at same
    · rw [← Option.some.inj same]
      exact (findChild_some found).1
    · cases same
  · cases parent with
    | none => exact ⟨growing.stay, fun i same => by cases same⟩
    | some parent => exact growing.addNode (used parent rfl) name true true

end

/-- The directories of a path are made one after the other. -/
theorem Growing.walkBootPath (fuel : Nat) : ∀ {fs : Fs} (parent : Nat) (path : List Char),
    fs.Growing → (fs.node parent).used →
      fs.Grows (fs.walkBootPath parent fuel path).2 ∧
      ∀ dir name, (fs.walkBootPath parent fuel path).1 = some (dir, name) →
        ((fs.walkBootPath parent fuel path).2.node dir).used := by
  induction fuel with
  | zero => exact fun _ _ growing _ => ⟨growing.stay, fun _ _ found => by cases found⟩
  | succ fuel ih =>
    intro fs parent path growing used
    unfold Fs.walkBootPath
    dsimp only
    split
    · exact ⟨growing.stay, fun _ _ found => by cases found⟩
    split
    · refine ⟨growing.stay, fun dir name found => ?_⟩
      cases found
      exact used
    generalize path.takeWhile (· ≠ '/') = part
    have present : ∀ index, some parent = some index → (fs.node index).used := by
      intro index same
      rw [← Option.some.inj same]
      exact used
    have entered := growing.ensureChildDir present part
    split <;> rename_i answer <;> rw [answer] at entered
    · exact ⟨entered.1, fun _ _ found => by cases found⟩
    · exact ⟨entered.1.trans (ih _ _ entered.1.growing (entered.2 _ rfl)).1,
        (ih _ _ entered.1.growing (entered.2 _ rfl)).2⟩

/-- A boot file is added with its directories. -/
theorem Growing.addRoFile (growing : fs.Growing) (path : List Char) (data : List UInt8) :
    fs.Grows (fs.addRoFile path data) := by
  unfold Fs.addRoFile
  split
  · rename_i rest
    have walked := Growing.walkBootPath rest.length 0 rest growing growing.sound.root.1
    split <;> rename_i answer <;> rw [answer] at walked
    · exact walked.1
    rename_i parent name fs'
    have added := (walked.1.growing.addNode (walked.2 _ _ rfl) name false false).1
    have grown := walked.1.trans added
    split <;> rename_i made <;> rw [made] at grown
    · exact grown
    · exact grown.trans (grown.growing.alike (alike_setNode _ rfl))
  · exact growing.stay

/-- The files of one processor. -/
theorem Growing.addCpu (growing : fs.Growing) {cpuRoot : Nat}
    (used : (fs.node cpuRoot).used) (cpu : Nat) : fs.Grows (addCpu cpuRoot fs cpu) := by
  have present : ∀ index, some cpuRoot = some index → (fs.node index).used := by
    intro index same
    rw [← Option.some.inj same]
    exact used
  have entered := growing.ensureChildDir present ("cpu".toList ++ decDigits cpu)
  unfold Fs.addCpu
  dsimp only
  split <;> rename_i answer <;> rw [answer] at entered
  · exact entered.1
  · exact entered.1.trans (entered.1.growing.addDevice _ _)

/-- A stage that a list of additions leaves. -/
theorem Growing.foldl {α : Type} {add : Fs → α → Fs} (fits : Fs → Prop)
    (kept : ∀ {a b : Fs}, a.Grows b → fits a → fits b)
    (grows : ∀ fs x, fs.Growing → fits fs → fs.Grows (add fs x)) (list : List α) :
    ∀ {fs : Fs}, fs.Growing → fits fs → fs.Grows (list.foldl add fs) := by
  induction list with
  | nil => exact fun growing _ => growing.stay
  | cons x rest ih =>
    intro fs growing good
    have first := grows fs x growing good
    exact first.trans (ih first.growing (kept first good))

/-- The directory of the processors and their files. -/
theorem Growing.addSysCpuTopology (growing : fs.Growing) (cpus : Nat) :
    fs.Grows (fs.addSysCpuTopology cpus) := by
  unfold Fs.addSysCpuTopology
  dsimp only
  split
  · exact growing.stay
  rename_i sys found
  have present : ∀ index, some sys = some index → (fs.node index).used := by
    intro index same
    rw [← Option.some.inj same]
    exact growing.used_of_lookup found
  have devices := growing.ensureChildDir present "devices".toList
  have system := devices.1.growing.ensureChildDir devices.2 "system".toList
  have cpuDir := system.1.growing.ensureChildDir system.2 "cpu".toList
  have made := (devices.1.trans system.1).trans cpuDir.1
  split
  · exact made
  rename_i cpuRoot isRoot
  have used := cpuDir.2 cpuRoot isRoot
  have first := cpuDir.1.growing.addDevice "/sys/devices/system/cpu/possible".toList .sysCpuPossible
  have second := first.growing.addDevice "/sys/devices/system/cpu/present".toList .sysCpuPresent
  have third := second.growing.addDevice "/sys/devices/system/cpu/online".toList .sysCpuOnline
  have all := (first.trans second).trans third
  have rest := Growing.foldl (fun fs => (fs.node cpuRoot).used)
    (fun grows used => grows.stays cpuRoot used)
    (fun fs cpu growing used => growing.addCpu used cpu)
    (List.range (min (if cpus = 0 then 1 else cpus) bootCpuMax)) all.growing
    (all.stays cpuRoot used)
  exact (made.trans all).trans rest

/-- Every slot of the zeroed table is free, without a name or a reference. -/
theorem blank_node : (blank.node index).used = false ∧
    (blank.node index).name = [] ∧ (blank.node index).refs = 0 := by
  unfold node blank
  rw [List.getD_eq_getElem?_getD, List.getElem?_replicate]
  split <;> exact ⟨rfl, rfl, rfl⟩

/-- After `init_root` the root is the only node. -/
theorem node_initRoot (index : Nat) : blank.initRoot.node index =
    if index = 0 then { fresh 1 with isDir := true, parent := some 0 } else blank.node index := by
  have first : blank.nodes.findIdx? (fun node => !node.used) = some 0 := rfl
  have length : blank.nodes.length = maxNodes := List.length_replicate
  have inside : 0 < blank.nodes.length := by
    rw [length]
    unfold maxNodes
    omega
  have room : 0 < (blank.takeNode 0).nodes.length := by
    exact inside
  unfold initRoot allocNode
  rw [first]
  rw [node_setNode, node_takeNode inside, node_takeNode inside]
  by_cases here : index = 0
  · simp only [here, room, and_self, if_true]
    rfl
  · simp only [here, false_and, if_false]

/-- The root alone is a tree. -/
theorem growing_initRoot : blank.initRoot.Growing := by
  have free : ∀ {index}, index ≠ 0 → blank.initRoot.node index = blank.node index := by
    intro index apart
    rw [node_initRoot, if_neg apart]
  have root := node_initRoot 0
  have onlyRoot : ∀ {index}, (blank.initRoot.node index).used → index = 0 := by
    intro index used
    by_contra apart
    rw [free apart, blank_node.1] at used
    cases used
  have underRoot : ∀ {child parent}, blank.initRoot.forest.Under child parent →
      child = 0 ∧ parent = 0 := by
    intro child parent under
    obtain ⟨used, above⟩ := under_iff.mp under
    obtain rfl := onlyRoot used
    exact ⟨rfl, (Option.some.inj above).symm⟩
  have rootSeat : blank.initRoot.forest 0 = some ⟨true, some 0, []⟩ := by
    show (blank.initRoot.node 0).seat = _
    rw [root]
    rfl
  refine ⟨⟨⟨⟨_, rootSeat, rfl, rfl⟩, fun under => ?_, fun under => ?_, ?_⟩, ?_⟩, ?_, ?_⟩
  · rw [(underRoot under).2]
    exact ⟨_, rootSeat, rfl⟩
  · rw [(underRoot under).1]
    exact .root
  · intro i j parent a b entryA entryB _ _ _
    rw [onlyRoot (seat_eq_some entryA).1, onlyRoot (seat_eq_some entryB).1]
  · intro index unused
    by_cases here : index = 0
    · rw [here, root] at unused
      cases unused
    · rw [free here]
      exact blank_node.2
  · intro index used
    rw [onlyRoot used, root]
    exact fun loose => by cases loose
  intro index
  by_cases here : index = 0
  · rw [here, root]
    rfl
  · rw [free here]
    exact blank_node.2.2

/-- `ramfs_init` builds a tree, step by step. -/
theorem boot_growing (modules : List (List Char × List UInt8)) : (boot cpus modules).Growing := by
  have dirs : blank.initRoot.bootDirs.Growing :=
    ((((((((((growing_initRoot.addMount _ _).growing.addMount _ _).growing.addMount _
      _).growing.addMount _ _).growing.addMount _ _).growing.addDir _ _).growing.addDir _
      _).growing.addDir _ _).growing.addDir _ _).growing.addDir _ _).growing.addDir _ _ |>.growing
  have topology := dirs.addSysCpuTopology cpus
  have devices := Growing.foldl (fun _ => True) (fun _ _ => trivial)
    (fun fs device growing _ => growing.addDevice device.1 device.2) bootDevices
    topology.growing trivial
  exact (Growing.foldl (fun _ => True) (fun _ _ => trivial)
    (fun fs file growing _ => growing.addRoFile file.1 file.2) modules devices.growing
    trivial).growing

end Fs

/-! ## Runs -/

/-- The tree invariant: siblings have distinct names, the parent links of every named node lead
to the root through nodes that are there, and a free slot has neither a name nor an open
reference. -/
structure TreeShaped (s : Session) : Prop where
  /-- Siblings have different names. -/
  siblings : ∀ i j parent, s.fs.forest.Under i parent → s.fs.forest.Under j parent →
    (s.fs.node i).name = (s.fs.node j).name → i = j
  /-- The root is reached. -/
  rooted : ∀ i parent, s.fs.forest.Under i parent → s.fs.forest.ReachesRoot i
  /-- Parents are used. -/
  parents : ∀ i parent, s.fs.forest.Under i parent → (s.fs.node parent).used = true
  /-- A free node has no name and no holder. -/
  free : ∀ i, (s.fs.node i).used = false → (s.fs.node i).name = [] ∧ s.held i = 0

/-- The condition on a call: a rename passes the checks the source leaves out, and a retain does
not wrap the counter. -/
def CallFits (s : Session) : RamOp → Prop
  | .rename oldPath newPath => s.fs.RenameFits oldPath newPath
  | .retain index => (s.fs.node index).refs + 1 < 2 ^ 32
  | _ => True

instance (s : Session) (op : RamOp) : Decidable (CallFits s op) := by
  cases op <;> unfold CallFits <;> infer_instance

/-- A sound tree whose counters are the references held. -/
structure Session.Sound (s : Session) : Prop where
  /-- The tree is in order. -/
  fs : s.fs.Sound
  /-- Holders are counted. -/
  counted : ∀ i, (s.fs.node i).refs = s.held i

/-- The invariant gives the shape that is claimed. -/
theorem Session.Sound.treeShaped (sound : s.Sound) : TreeShaped s where
  siblings := by
    intro i j parent first second same
    obtain ⟨a, entryA, aboveA⟩ := first
    obtain ⟨b, entryB, aboveB⟩ := second
    have nameA := (seat_eq_some entryA).2
    have nameB := (seat_eq_some entryB).2
    apply sound.fs.shaped.siblings entryA entryB aboveA aboveB
    rw [nameA, nameB]
    exact same
  rooted := fun i parent under => sound.fs.shaped.rooted under
  parents := by
    intro i parent under
    obtain ⟨seat, entry, -⟩ := sound.fs.shaped.parents under
    exact (seat_eq_some entry).1
  free := by
    intro i unused
    obtain ⟨name, refs⟩ := sound.fs.free unused
    exact ⟨name, (sound.counted i).symm.trans refs⟩

/-- A call that leaves the references alone. -/
theorem Session.Sound.tends (sound : s.Sound) {after : Fs}
    (tends : s.fs.Tends after) : Session.Sound ⟨after, s.held⟩ :=
  ⟨tends.sound, fun i => (tends.refs i).trans (sound.counted i)⟩

/-- The calls that set the mode, the owner, the seals or the mappings of a node. -/
def RamOp.Edits : RamOp → Prop
  | .chmod .. | .chown .. | .setSealable .. | .addSeals .. | .noteMapping .. => True
  | _ => False

/-- The calls that edit a node change its mode, owner, seals or counters only. -/
theorem Fs.step_edits (fs : Fs) {op : RamOp} (edits : op.Edits) : fs.step op = fs ∨
    ∃ i change, fs.step op = fs.setNode i change ∧ ∀ node : MemNode, ∃ mode uid gid seals
      sharedWriteMappings sealable, change node =
        { node with mode, uid, gid, seals, sharedWriteMappings, sealable } := by
  cases op with
  | chmod | chown | setSealable | addSeals | noteMapping =>
    simp only [step, ramfsChmodNode, ramfsChownNode, ramfsSetSealable, ramfsAddSeals,
      ramfsNoteSharedWritableMapping]
    repeat' split
    all_goals first
      | exact .inl rfl
      | exact .inr ⟨_, _, rfl, fun _ => ⟨_, _, _, _, _, _, rfl⟩⟩
  | _ => exact edits.elim

/-- Every call that fits keeps the tree and the references in order. -/
theorem Session.Sound.step (sound : s.Sound) (op : RamOp) (fits : CallFits s op) :
    (s.step op).Sound := by
  have edited (edits : op.Edits) : s.fs.Tends (s.fs.step op) := by
    rcases s.fs.step_edits edits with same | ⟨i, change, same, kept⟩
    · rw [same]
      exact sound.fs.stay
    · rw [same]
      obtain ⟨_, _, _, _, _, _, node⟩ := kept (s.fs.node i)
      exact (s.fs.alike_setNode (by rw [node]; rfl)).tends sound.fs
  have asked answers : s.fs.Tends (s.fs.withAnswers answers) :=
    (show s.fs.Alike (s.fs.withAnswers answers) from .of_nodes rfl).tends sound.fs
  cases op with
  | create path => exact sound.tends (sound.fs.ramfsCreate path)
  | mkdir path mode => exact sound.tends (sound.fs.ramfsMkdir path mode)
  | mkfifo path mode | mksock path mode => exact sound.tends (sound.fs.makeSpecial _ path mode)
  | link oldPath newPath answers =>
    exact sound.tends ((asked answers).trans ((asked answers).sound.ramfsLink oldPath newPath))
  | rename oldPath newPath => exact sound.tends (sound.fs.ramfsRename fits)
  | unlink path => exact sound.tends (sound.fs.ramfsUnlink path)
  | retain index =>
    obtain ⟨after, refs⟩ := sound.fs.ramfsRetainNode fits
    refine ⟨after, fun i => ?_⟩
    refine (refs i).trans ?_
    simp only [Session.step, Session.heldAfter]
    rw [sound.counted i]
  | release index =>
    obtain ⟨after, refs⟩ := sound.fs.ramfsReleaseNode index
    refine ⟨after, fun i => ?_⟩
    refine (refs i).trans ?_
    simp only [Session.step, Session.heldAfter]
    rw [sound.counted i]
  | chmod | chown | setSealable | addSeals | noteMapping => exact sound.tends (edited trivial)
  | write index off src answers =>
    exact sound.tends
      ((asked answers).trans ((Fs.alike_ramfsWrite src).tends (asked answers).sound))
  | truncate index size =>
    exact sound.tends (s.fs.alike_ramfsTruncate.tends sound.fs)

/-- After any sequence of calls from `ramfs_init` in which every rename fits and no reference
counter wraps, the tree invariant holds in every state. -/
theorem ramfs_tree_shaped (cpus : Nat) (modules : List (List Char × List UInt8))
    (calls : List RamOp)
    (fits : EveryInput Session.step CallFits (Session.boot cpus modules) calls) :
    EveryState Session.step TreeShaped (Session.boot cpus modules) calls := by
  have sound := everyState_of_everyInput (fun s op => fun (sound : s.Sound) good =>
    sound.step op good)
    ⟨(Fs.boot_growing modules).sound, (Fs.boot_growing modules).unheld⟩ fits
  exact sound.mono fun s good => good.treeShaped

/-- A run with a rename over a file, which is then opened, unlinked and closed. -/
def sampleCalls : List RamOp :=
  [.create "/tmp/x".toList, .create "/tmp/y".toList, .rename "/tmp/x".toList "/tmp/y".toList,
    .retain 65, .unlink "/tmp/y".toList, .release 65]

/-- The sample calls fit. -/
theorem ramfs_tree_shaped_sample :
    EveryState Session.step TreeShaped (Session.boot 1 []) sampleCalls :=
  ramfs_tree_shaped 1 [] sampleCalls (by decide +kernel)

/-- A file renamed onto itself. -/
def renameOntoItself : List RamOp :=
  [.create "/tmp/a".toList, .rename "/tmp/a".toList "/tmp/a".toList]

/-- A file renamed onto a directory with an entry. -/
def renameOntoDirectory : List RamOp :=
  [.mkdir "/tmp/a".toList 0, .create "/tmp/a/x".toList, .create "/tmp/b".toList,
    .rename "/tmp/b".toList "/tmp/a".toList]

/-- A directory renamed into itself. -/
def renameIntoItself : List RamOp :=
  [.mkdir "/tmp/a".toList 0, .rename "/tmp/a".toList "/tmp/a/b".toList]

/-- A node after a sequence of calls. -/
def nodeAfter (calls : List RamOp) (slot : Nat) : MemNode :=
  (calls.foldl Session.step (Session.boot 1 [])).fs.node slot

/-- Renaming a file onto itself frees its slot and then names it; renaming onto a directory
with entries leaves them with a freed parent; renaming a directory into itself cuts it off from
the root. -/
theorem rename_breaks_tree :
    ¬ EveryState Session.step TreeShaped (Session.boot 1 []) renameOntoItself ∧
    ¬ EveryState Session.step TreeShaped (Session.boot 1 []) renameOntoDirectory ∧
    ¬ EveryState Session.step TreeShaped (Session.boot 1 []) renameIntoItself := by
  have seen : ((nodeAfter renameOntoItself 65).used = false ∧
        (nodeAfter renameOntoItself 65).name ≠ []) ∧
      ((nodeAfter renameOntoDirectory 66).used = true ∧
        (nodeAfter renameOntoDirectory 66).parent = some 65) ∧
      (nodeAfter renameOntoDirectory 65).used = false ∧
      ((nodeAfter renameIntoItself 65).used = true ∧
        (nodeAfter renameIntoItself 65).parent = some 65) := by
    decide +kernel
  simp only [nodeAfter] at seen
  refine ⟨fun every => ?_, fun every => ?_, fun every => ?_⟩
  · exact seen.1.2 (every.last.free 65 seen.1.1).1
  · have present := every.last.parents 66 65 (Fs.under_iff.mpr seen.2.1)
    rw [seen.2.2.1] at present
    cases present
  · have own := Fs.under_iff.mpr seen.2.2.2
    exact (every.last.rooted 65 65 own).ne_own_parent own (by decide) rfl

end Spore.Ramfs
