import Spore.Ramfs.Backing

/-!
# Names and directories of the memory file system (`ramfs.c`)

Lookup, creation, linking, renaming and removal of nodes, and the tree `ramfs_init` builds.
A path is the list of its characters before the terminating zero. Nothing here normalises a
path: an empty component is looked up as a child with the empty name, and a name taken from
the end of a path may end in a slash.
-/

namespace Spore.Ramfs

/-- The scan of `last_component`: `name` is the candidate so far. -/
def lastComponentFrom : List Char → List Char → List Char
  | name, [] => name
  | name, [_] => name
  | name, c :: next :: rest =>
    lastComponentFrom (if c = '/' then next :: rest else name) (next :: rest)

/-- What follows the last slash of a path. -/
def lastComponent (path : List Char) : List Char := lastComponentFrom path path

/-- A node as `alloc_node` hands it out. -/
def MemNode.fresh (ino : Nat) : MemNode := { MemNode.clear with used := true, ino := ino }

/-- A node as `add_node` fills it in. -/
def MemNode.named (node : MemNode) (parent : Nat) (name : List Char) (isDir writable : Bool)
    (mount : RamfsMount) : MemNode :=
  { node with
    name := name, parent := some parent, isDir := isDir, writable := writable, mount := mount,
    mode := if isDir then 0o777 else 0o666, uid := 0, gid := 0 }

namespace Fs

/-- The part of `alloc_node` that takes the free slot it found. -/
def takeNode (fs : Fs) (index : Nat) : Fs :=
  { fs.setNode index (fun _ => .fresh fs.nextIno) with nextIno := fs.nextIno + 1 }

/-- The first free node, with the next inode number. -/
def allocNode (fs : Fs) : Option Nat × Fs :=
  match fs.nodes.findIdx? (fun node => !node.used) with
  | none => (none, fs)
  | some index => (some index, fs.takeNode index)

/-- The child of a node with a name. -/
def findChild (fs : Fs) (parent : Option Nat) (name : List Char) : Option Nat :=
  fs.nodes.findIdx? fun node =>
    node.used && decide (node.parent = parent) && decide (node.name = name)

/-- The loop of `lookup_index`; each round takes one component and the slash behind it. -/
def lookupFrom (fs : Fs) : Nat → Nat → List Char → Option Nat
  | 0, current, _ => some current
  | fuel + 1, current, path =>
    if path = [] then some current
    else
      let component := path.takeWhile (· ≠ '/')
      if nameMax < component.length then none
      else
        match fs.findChild (some current) component with
        | none => none
        | some next => lookupFrom fs fuel next ((path.drop component.length).drop 1)

/-- `ramfs_lookup_index`: an absolute path, from the root. -/
def lookupIndex (fs : Fs) (path : List Char) : Option Nat :=
  match path with
  | '/' :: rest => fs.lookupFrom rest.length 0 rest
  | _ => none

/-- The directory part of a path: what `split_parent` copies in front of the last component. -/
def parentPath (path : List Char) : List Char :=
  let length := path.length - (lastComponent path).length
  let head := path.take (if length = 0 then 1 else length)
  if 1 < head.length ∧ head.getLast? = some '/' then head.dropLast else head

/-- `split_parent`: the directory and the name of a path. -/
def splitParent (fs : Fs) (path : List Char) : Option (Nat × List Char) :=
  let last := lastComponent path
  if path.head? ≠ some '/' ∨ path = ['/'] ∨ last = [] ∨ nameMax < last.length ∨
      512 ≤ path.length - last.length then none
  else
    match fs.lookupIndex (parentPath path) with
    | none => none
    | some parent => if (fs.node parent).isDir then some (parent, last) else none

/-- A node below a directory; nothing for a name that is too long or there already. -/
def addNode (fs : Fs) (parent : Option Nat) (name : List Char) (isDir writable : Bool) :
    Option Nat × Fs :=
  match parent with
  | none => (none, fs)
  | some parent =>
    if !(fs.node parent).isDir || (fs.findChild (some parent) name).isSome then (none, fs)
    else
      match fs.allocNode with
      | (none, fs) => (none, fs)
      | (some index, fs) =>
        if nameMax < name.length then (none, fs.freeNode index)
        else
          (some index, fs.setNode index fun node =>
            node.named parent name isDir writable (fs.node parent).mount)

/-! ## Calls -/

/-- The directory gets the mode. -/
def ramfsMkdir (fs : Fs) (path : List Char) (mode : BitVec 16) : Bool × Fs :=
  match fs.splitParent path with
  | none => (false, fs)
  | some (parent, name) =>
    match fs.addNode (some parent) name true true with
    | (none, fs) => (false, fs)
    | (some index, fs) =>
      (true, fs.setNode index fun node => { node with mode := 0o040000 ||| (mode &&& 0o7777) })

/-- `ramfs_create`: the index of the node it fills `out` from. -/
def ramfsCreate (fs : Fs) (path : List Char) : Option Nat × Fs :=
  match fs.lookupIndex path with
  | some index => (if (fs.node index).used then some index else none, fs)
  | none =>
    match fs.splitParent path with
    | none => (none, fs)
    | some (parent, name) => fs.addNode (some parent) name false true

/-- `ramfs_mkfifo` and `ramfs_mksock`, which differ in the type bits. -/
def makeSpecial (fs : Fs) (kind : BitVec 16) (path : List Char) (mode : BitVec 16) :
    Option Nat × Fs :=
  if (fs.lookupIndex path).isSome then (none, fs)
  else
    match fs.splitParent path with
    | none => (none, fs)
    | some (parent, name) =>
      match fs.addNode (some parent) name false true with
      | (none, fs) => (none, fs)
      | (some index, fs) =>
        (some index, fs.setNode index fun node => { node with mode := kind ||| (mode &&& 0o777) })

/-- A FIFO node. -/
def ramfsMkfifo (fs : Fs) (path : List Char) (mode : BitVec 16) : Option Nat × Fs :=
  fs.makeSpecial 0o010000 path mode

/-- A socket node. -/
def ramfsMksock (fs : Fs) (path : List Char) (mode : BitVec 16) : Option Nat × Fs :=
  fs.makeSpecial 0o140000 path mode

/-- The mode becomes the permission bits that are given. -/
def ramfsChmodNode (fs : Fs) (index : Nat) (mode : BitVec 16) : Bool × Fs :=
  if (fs.node index).used then
    (true, fs.setNode index fun node => { node with mode := mode &&& 0o7777 })
  else (false, fs)

/-- Both ids are set. -/
def ramfsChownNode (fs : Fs) (index uid gid : Nat) : Bool × Fs :=
  if (fs.node index).used then
    (true, fs.setNode index fun node => { node with uid := uid, gid := gid })
  else (false, fs)

/-- `refs` is incremented for a used node. -/
def ramfsRetainNode (fs : Fs) (index : Nat) : Bool × Fs :=
  if (fs.node index).used then
    (true, fs.setNode index fun node => { node with refs := (node.refs + 1) % 2 ^ 32 })
  else (false, fs)

/-- The last release of an unlinked node frees it. -/
def ramfsReleaseNode (fs : Fs) (index : Nat) : Fs :=
  if !(fs.node index).used || decide ((fs.node index).refs = 0) then fs
  else
    let fs := fs.setNode index fun node => { node with refs := node.refs - 1 }
    if (fs.node index).refs = 0 ∧ (fs.node index).parent = none ∧ index ≠ 0 then fs.freeNode index
    else fs

/-- The node loses its name: kept for its holders, or freed when there are none. -/
def dropName (fs : Fs) (index : Nat) : Fs :=
  if (fs.node index).refs ≠ 0 then
    fs.setNode index fun node => { node with parent := none, name := [] }
  else fs.freeNode index

/-- A node that has the given node as its parent. -/
def hasChild (fs : Fs) (index : Nat) : Bool :=
  fs.nodes.any fun node => node.used && decide (node.parent = some index)

/-- A directory has to be empty. -/
def ramfsUnlink (fs : Fs) (path : List Char) : Bool × Fs :=
  match fs.lookupIndex path with
  | none => (false, fs)
  | some index =>
    if index = 0 ∨ !(fs.node index).used then (false, fs)
    else if (fs.node index).isDir ∧ fs.hasChild index then (false, fs)
    else (true, fs.dropName index)

/-- The loop of `ramfs_link` that copies the pages of the source; false when a page was not to be
had. -/
def copyPages (dst : Nat) : Nat → Option Nat → Fs → Bool × Fs
  | 0, _, fs => (true, fs)
  | _ + 1, none, fs => (true, fs)
  | fuel + 1, some slot, fs =>
    match fs.getBackingPage dst (fs.slot slot).filePage with
    | (none, fs) => (false, fs)
    | (some copy, fs) =>
      copyPages dst fuel (fs.slot slot).next
        (fs.setSlot copy fun page => { page with data := (fs.slot slot).data })

/-- The part of `ramfs_link` that fills the new node from the old one. -/
def fillLink (fs : Fs) (src dst : Nat) : Bool × Fs :=
  let fs := fs.setNode dst fun node =>
    { node with size := (fs.node src).size, mode := (fs.node src).mode }
  if (fs.node src).writable then
    match copyPages dst (fs.backing.length + 1) (fs.node src).firstPage fs with
    | (false, fs) => (false, fs.freeNode dst)
    | (true, fs) => (true, fs)
  else (true, fs.setNode dst fun node => { node with roData := (fs.node src).roData })

/-- A file is linked by copying its pages to a new node. -/
def ramfsLink (fs : Fs) (oldPath newPath : List Char) : Bool × Fs :=
  match fs.lookupIndex oldPath with
  | none => (false, fs)
  | some src =>
    if src = 0 ∨ (fs.node src).isDir ∨ (fs.node src).device ≠ .none then (false, fs)
    else
      match fs.splitParent newPath with
      | none => (false, fs)
      | some (parent, name) =>
        if (fs.findChild (some parent) name).isSome then (false, fs)
        else
          match fs.addNode (some parent) name false (fs.node src).writable with
          | (none, fs) => (false, fs)
          | (some dst, fs) => fs.fillLink src dst

/-- The part of `ramfs_rename` that makes room: the node found at the new path loses its
name. -/
def dropExisting (fs : Fs) (newPath : List Char) : Fs :=
  match fs.lookupIndex newPath with
  | none => fs
  | some existing => if existing = 0 then fs else fs.dropName existing

/-- `ramfs_rename`. The name fits, since `split_parent` has measured it. -/
def ramfsRename (fs : Fs) (oldPath newPath : List Char) : Bool × Fs :=
  match fs.lookupIndex oldPath, fs.splitParent newPath with
  | some index, some (parent, name) =>
    if index = 0 then (false, fs)
    else
      (true, (fs.dropExisting newPath).setNode index fun node =>
        { node with name := name, parent := some parent })
  | _, _ => (false, fs)

/-! ## The first tree -/

/-- A node is marked as the root of a mount. -/
def setMount (fs : Fs) (index : Option Nat) (mount : RamfsMount) : Fs :=
  match index with
  | none => fs
  | some index => fs.setNode index fun node => { node with mount := mount }

/-- The disks and their partitions. -/
def deviceIsBlock (device : RamfsDevice) : Bool :=
  decide (device = .blkRoot) || decide (device = .blkBoot)

/-- The files of `/proc` and `/sys` whose text is made on reading. -/
def deviceIsReadonlyText (device : RamfsDevice) : Bool :=
  device ∈ [.fsRoot, .fsBoot, .fsRam0, .fsTmp, .procinfo, .meminfo, .cpuinfo, .uptime, .mounts,
    .stat, .kmsg, .filesystems, .partitions, .devices, .fsstats, .procPidStat, .procPidStatus,
    .procPidCmdline, .procPidStatm, .procPidComm, .procPidMounts, .procPidCwd, .procPidExe,
    .sysCpuPossible, .sysCpuPresent, .sysCpuOnline, .sysCpuCoreOnline]

/-- A device node, with the mode of its kind. -/
def addDevice (fs : Fs) (path : List Char) (device : RamfsDevice) : Fs :=
  match fs.splitParent path with
  | none => fs
  | some (parent, name) =>
    match fs.addNode (some parent) name false false with
    | (none, fs) => fs
    | (some index, fs) => fs.setNode index fun node =>
      { node with device := device,
                  mode := if deviceIsBlock device then 0o660
                    else if deviceIsReadonlyText device then 0o444 else 0o666 }

/-- A directory is found, or made. -/
def ensureChildDir (fs : Fs) (parent : Option Nat) (name : List Char) : Option Nat × Fs :=
  match fs.findChild parent name with
  | some index => (if (fs.node index).isDir then some index else none, fs)
  | none => fs.addNode parent name true true

/-- The walk of `add_ro_file` along the directories of a boot path, which it makes where they
are missing: the directory and the name of the file. The name runs to the end of the path. -/
def walkBootPath (fs : Fs) (parent : Nat) : Nat → List Char → Option (Nat × List Char) × Fs
  | 0, _ => (none, fs)
  | fuel + 1, path =>
    let component := path.takeWhile (· ≠ '/')
    let rest := (path.drop component.length).dropWhile (· = '/')
    if component = [] ∨ nameMax < component.length then (none, fs)
    else if rest = [] then (some (parent, path), fs)
    else
      match fs.ensureChildDir (some parent) component with
      | (none, fs) => (none, fs)
      | (some next, fs) => fs.walkBootPath next fuel rest

/-- A file of the boot image with its directories. -/
def addRoFile (fs : Fs) (path : List Char) (data : List UInt8) : Fs :=
  match path with
  | '/' :: rest =>
    match fs.walkBootPath 0 rest.length rest with
    | (none, fs) => fs
    | (some (parent, name), fs) =>
      match fs.addNode (some parent) name false false with
      | (none, fs) => fs
      | (some index, fs) => fs.setNode index fun node =>
        { node with roData := data, size := data.length, mode := 0o444 }
  | _ => fs

end Fs

end Spore.Ramfs
