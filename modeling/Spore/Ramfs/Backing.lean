import Spore.Vfs.Node
import Mathlib.Data.List.Basic
import Mathlib.Algebra.Ring.Nat

/-!
# Nodes and backing pages of the memory file system (`ramfs.c`)

Nodes live in a flat table and name their parent by its index. The bytes of a writable file
live in backing pages: slots of a second table that all files share, strung together by
`next` from `first_page`, while the free slots are strung together by `free_next`. Index `-1`
is `none`. The page allocator answers requests from a list, so that it may refuse any of
them; a request beyond the list is granted.
-/

namespace Spore.Ramfs

/-- `RAMFS_MAX_NODES`. -/
def maxNodes : Nat := 512

/-- `RAMFS_NAME_MAX`. -/
def nameMax : Nat := 255

/-- `RAMFS_PAGE_SIZE`. -/
def pageBytes : Nat := 4096

/-- `RAMFS_INITIAL_BACKING_PAGES`. -/
def initialBackingPages : Nat := 256

/-- `RAMFS_MAX_BACKING_PAGES`. -/
def maxBackingPages : Nat := (4 * 1024 * 1024 * 1024) / pageBytes

/-- `RAMFS_MAX_FILE_SIZE`. -/
def maxFileSize : Nat := (2 ^ 32 - 1) * pageBytes

/-- `RAMFS_F_SEAL_SEAL`. -/
def sealSeal : BitVec 32 := 0x0001

/-- `RAMFS_F_SEAL_SHRINK`. -/
def sealShrink : BitVec 32 := 0x0002

/-- `RAMFS_F_SEAL_GROW`. -/
def sealGrow : BitVec 32 := 0x0004

/-- `RAMFS_F_SEAL_WRITE`. -/
def sealWrite : BitVec 32 := 0x0008

/-- `RAMFS_F_SEAL_FUTURE_WRITE`. -/
def sealFutureWrite : BitVec 32 := 0x0010

/-- `RAMFS_F_SEAL_MASK`. -/
def sealMask : BitVec 32 := 0x001f

/-- `enum ramfs_mount`. -/
inductive RamfsMount where
  | ram0 | dev | proc | sys | tmp | run
  deriving Repr, DecidableEq, Inhabited

/-- `struct ramfs_mem_node`, without its times. -/
structure MemNode where
  /-- Whether the slot is taken. -/
  used : Bool
  /-- Whether it is a directory. -/
  isDir : Bool
  /-- Whether it has pages. -/
  writable : Bool
  /-- The mount it is the root of. -/
  mount : RamfsMount
  /-- What a device it is. -/
  device : RamfsDevice
  /-- Kind and permissions. -/
  mode : BitVec 16
  uid : Nat
  gid : Nat
  /-- References held by open files and mappings, a 32-bit counter. -/
  refs : Nat
  /-- What is sealed. -/
  seals : BitVec 32
  /-- A 32-bit counter. -/
  sharedWriteMappings : Nat
  /-- Whether it can be sealed. -/
  sealable : Bool
  /-- First slot of the file's backing pages. -/
  firstPage : Option Nat
  /-- Index of the directory; none once the node was unlinked. -/
  parent : Option Nat
  /-- The name below the parent. -/
  name : List Char
  /-- What `ro_data` points at. -/
  roData : List UInt8
  /-- The size in bytes. -/
  size : Nat
  /-- The inode number. -/
  ino : Nat

/-- A node slot after `free_node`. -/
def MemNode.clear : MemNode :=
  { used := false, isDir := false, writable := false, mount := .ram0, device := .none, mode := 0,
    uid := 0, gid := 0, refs := 0, seals := 0, sharedWriteMappings := 0, sealable := false,
    firstPage := none, parent := none, name := [], roData := [], size := 0, ino := 0 }

/-- `struct ramfs_backing_page`, with the bytes `data` points at in place of the pointer. -/
structure BackingPage where
  /-- Whether the slot is taken. -/
  used : Bool
  /-- Next page of the same file. -/
  next : Option Nat
  /-- Next free slot. -/
  freeNext : Option Nat
  /-- Node the page belongs to. -/
  owner : Option Nat
  /-- Number of the page in its file. -/
  filePage : Nat
  /-- The bytes. -/
  data : Nat → UInt8

/-- A slot of a zeroed table, or one that was freed. -/
def BackingPage.clear : BackingPage := ⟨false, none, none, none, 0, fun _ => 0⟩

/-- `struct ramfs` with the static tables of `ramfs.c`. -/
structure Fs where
  /-- The nodes. -/
  nodes : List MemNode
  /-- The next inode number. -/
  nextIno : Nat
  /-- `backing_pages`; its length is `backing_page_capacity`. -/
  backing : List BackingPage
  /-- The slots in use. -/
  usedCount : Nat
  /-- The first free slot. -/
  freeHead : Option Nat
  /-- What the page allocator answers to the next requests. -/
  answers : List Bool

namespace Fs

/-- `fs->nodes[index]`; an index outside the table reads as a free slot. -/
def node (fs : Fs) (index : Nat) : MemNode := fs.nodes.getD index .clear

/-- Change one node. -/
def setNode (fs : Fs) (index : Nat) (change : MemNode → MemNode) : Fs :=
  { fs with nodes := fs.nodes.modify index change }

/-- `backing_pages[slot]`. -/
def slot (fs : Fs) (index : Nat) : BackingPage := fs.backing.getD index .clear

/-- Change one backing slot. -/
def setSlot (fs : Fs) (index : Nat) (change : BackingPage → BackingPage) : Fs :=
  { fs with backing := fs.backing.modify index change }

/-- The answers a call will get. -/
def withAnswers (fs : Fs) (answers : List Bool) : Fs := { fs with answers := answers }

/-- A request to the page allocator. -/
def askPages (fs : Fs) : Bool × Fs :=
  match fs.answers with
  | [] => (true, fs)
  | answer :: rest => (answer, { fs with answers := rest })

/-! ## Slots -/

/-- Slots are strung together, each pointing at the one before it. -/
def initBackingRange (fs : Fs) (first count : Nat) : Fs :=
  (List.range count).foldl (fun fs i =>
    { fs.setSlot (first + i) (fun page =>
        { page with next := none, freeNext := fs.freeHead, owner := none }) with
      freeHead := some (first + i) }) fs

/-- The capacity `grow_backing_pages` aims at. -/
def grownCapacity (old : Nat) : Nat :=
  let doubled := if old = 0 then initialBackingPages else old * 2
  if doubled ≤ old ∨ maxBackingPages < doubled then maxBackingPages else doubled

/-- The table doubles, up to its limit; the old slots stay. -/
def growBackingPages (fs : Fs) : Bool × Fs :=
  let old := fs.backing.length
  let new := grownCapacity old
  if new ≤ old then (false, fs)
  else
    match fs.askPages with
    | (false, fs) => (false, fs)
    | (true, fs) =>
      let backing := fs.backing ++ List.replicate (new - old) BackingPage.clear
      (true, { fs with backing }.initBackingRange
        old (new - old))

/-- The slot taken by `alloc_backing_slot` once there is a free one. -/
def takeFreeSlot (fs : Fs) : Option Nat × Fs :=
  match fs.freeHead with
  | none => (none, fs)
  | some index =>
    (some index,
      { fs.setSlot index (fun _ => { BackingPage.clear with used := true }) with
        freeHead := (fs.slot index).freeNext, usedCount := fs.usedCount + 1 })

/-- From the free list, which growth refills. -/
def allocBackingSlot (fs : Fs) : Option Nat × Fs :=
  if fs.freeHead.isSome then fs.takeFreeSlot
  else
    match fs.growBackingPages with
    | (false, fs) => (none, fs)
    | (true, fs) => fs.takeFreeSlot

/-- A used slot is cleared and goes to the front of the free list. -/
def freeBackingSlot (fs : Fs) (index : Nat) : Fs :=
  if (fs.slot index).used then
    { fs.setSlot index (fun _ => { BackingPage.clear with freeNext := fs.freeHead }) with
      freeHead := some index, usedCount := fs.usedCount - 1 }
  else fs

/-! ## The pages of one file -/

/-- The walk of `find_backing_page`. A chain without a cycle is not longer than the table. -/
def findPageFrom (fs : Fs) (filePage : Nat) : Nat → Option Nat → Option Nat
  | 0, _ => none
  | _ + 1, none => none
  | fuel + 1, some index =>
    if (fs.slot index).filePage = filePage then some index
    else fs.findPageFrom filePage fuel (fs.slot index).next

/-- The slot of a page of the file. -/
def findBackingPage (fs : Fs) (node filePage : Nat) : Option Nat :=
  fs.findPageFrom filePage (fs.backing.length + 1) (fs.node node).firstPage

/-- The part of `get_backing_page` that gives a fresh slot its data and links it. -/
def attachPage (fs : Fs) (node filePage index : Nat) : Option Nat × Fs :=
  let fs := fs.setSlot index fun page =>
    { page with next := (fs.node node).firstPage, owner := some node, filePage := filePage }
  match fs.askPages with
  | (false, fs) => (none, fs.freeBackingSlot index)
  | (true, fs) => (some index, fs.setNode node fun entry => { entry with firstPage := some index })

/-- `get_backing_page` with `create` set. -/
def getBackingPage (fs : Fs) (node filePage : Nat) : Option Nat × Fs :=
  match fs.findBackingPage node filePage with
  | some index => (some index, fs)
  | none =>
    match fs.allocBackingSlot with
    | (none, fs) => (none, fs)
    | (some index, fs) => fs.attachPage node filePage index

/-- The loop of `free_node_pages`. -/
def freeSlotsFrom : Nat → Option Nat → Fs → Fs
  | 0, _, fs => fs
  | _ + 1, none, fs => fs
  | fuel + 1, some index, fs =>
    freeSlotsFrom fuel (fs.slot index).next (fs.freeBackingSlot index)

/-- All slots of the chain are returned. -/
def freeNodePages (fs : Fs) (node : Nat) : Fs :=
  freeSlotsFrom (fs.backing.length + 1) (fs.node node).firstPage
    (fs.setNode node fun entry => { entry with firstPage := none })

/-- The node is cleared with its pages. -/
def freeNode (fs : Fs) (node : Nat) : Fs :=
  (fs.freeNodePages node).setNode node fun _ => .clear

/-- The place a link of a page chain is stored in: the `int *link` of `ramfs_truncate`. -/
inductive PageLink where
  | first
  | after (slot : Nat)

/-- `*link`. -/
def readLink (fs : Fs) (node : Nat) : PageLink → Option Nat
  | .first => (fs.node node).firstPage
  | .after index => (fs.slot index).next

/-- Assignment to `*link`. -/
def writeLink (fs : Fs) (node : Nat) (target : Option Nat) : PageLink → Fs
  | .first => fs.setNode node fun entry => { entry with firstPage := target }
  | .after index => fs.setSlot index fun page => { page with next := target }

/-- The loop of `ramfs_truncate` that frees the pages from number `keep` on. -/
def dropPages (node keep : Nat) : Nat → PageLink → Fs → Fs
  | 0, _, fs => fs
  | fuel + 1, link, fs =>
    match fs.readLink node link with
    | none => fs
    | some index =>
      if keep ≤ (fs.slot index).filePage then
        dropPages node keep fuel link
          ((fs.writeLink node (fs.slot index).next link).freeBackingSlot index)
      else dropPages node keep fuel (.after index) fs

/-! ## Seals -/

/-- Writes are refused under either seal. -/
def ramfsWriteSealed (fs : Fs) (index : Nat) : Bool :=
  (fs.node index).used && decide ((fs.node index).seals &&& (sealWrite ||| sealFutureWrite) ≠ 0)

/-- Shrinking and growing have a seal each. -/
def ramfsTruncateSealed (fs : Fs) (index size : Nat) : Bool :=
  let node := fs.node index
  node.used &&
    ((decide (size < node.size) && decide (node.seals &&& sealShrink ≠ 0)) ||
      (decide (node.size < size) && decide (node.seals &&& sealGrow ≠ 0)))

/-- Only files that are made to be sealed can be. -/
def ramfsSetSealable (fs : Fs) (index : Nat) (allowSealing : Bool) : Bool × Fs :=
  let node := fs.node index
  if !node.used || node.isDir || decide (node.device ≠ .none) then (false, fs)
  else (true, fs.setNode index fun node =>
    { node with sealable := true, seals := if allowSealing then 0 else sealSeal })

/-- `ramfs_add_seals`: `0`, `-EINVAL`, `-EPERM` or `-EBUSY`. -/
def ramfsAddSeals (fs : Fs) (index : Nat) (seals : BitVec 32) : Int × Fs :=
  let node := fs.node index
  if !node.used || !node.sealable || decide (seals &&& ~~~sealMask ≠ 0) then (-22, fs)
  else if node.seals &&& sealSeal ≠ 0 then (-1, fs)
  else if seals &&& sealWrite ≠ 0 ∧ node.sharedWriteMappings ≠ 0 then (-16, fs)
  else (0, fs.setNode index fun node => { node with seals := node.seals ||| seals })

/-- The counter of shared writable mappings goes up or down. -/
def ramfsNoteSharedWritableMapping (fs : Fs) (index : Nat) (add : Bool) : Fs :=
  if !(fs.node index).used then fs
  else if add then fs.setNode index fun node =>
    { node with sharedWriteMappings := (node.sharedWriteMappings + 1) % 2 ^ 32 }
  else if (fs.node index).sharedWriteMappings ≠ 0 then fs.setNode index fun node =>
    { node with sharedWriteMappings := node.sharedWriteMappings - 1 }
  else fs

/-! ## Bytes -/

/-- `kmemcpy(data + within, src, chunk)` on a page. -/
def copyInto (data : Nat → UInt8) (within : Nat) (src : List UInt8) : Nat → UInt8 :=
  fun k => if within ≤ k ∧ k < within + src.length then src.getD (k - within) 0 else data k

/-- `kmemset(data + from, 0, RAMFS_PAGE_SIZE - from)`. -/
def clearFrom (data : Nat → UInt8) (start : Nat) : Nat → UInt8 :=
  fun k => if start ≤ k then 0 else data k

/-- The page number of a position, as the source casts it. -/
def pageNumber (pos : Nat) : Nat := (pos / pageBytes) % 2 ^ 32

/-- The copying loop of `ramfs_write`, one page at a time; `false` when no page was to be had. -/
def writePages (node : Nat) : Nat → Nat → List UInt8 → Fs → Bool × Fs
  | 0, _, _, fs => (true, fs)
  | fuel + 1, pos, src, fs =>
    if src = [] then (true, fs)
    else
      let within := pos % pageBytes
      let chunk := min (pageBytes - within) src.length
      match fs.getBackingPage node (pageNumber pos) with
      | (none, fs) => (false, fs)
      | (some index, fs) =>
        writePages node fuel (pos + chunk) (src.drop chunk)
          (fs.setSlot index fun page =>
            { page with data := copyInto page.data within (src.take chunk) })

/-- A regular file, or what the reading and writing calls take for one. -/
def plainFile (fs : Fs) (index : Nat) : Bool :=
  (fs.node index).used && !(fs.node index).isDir && decide ((fs.node index).device = .none)

/-- `ramfs_write`; `none` is the result `-1`. -/
def ramfsWrite (fs : Fs) (index off : Nat) (src : List UInt8) : Option Nat × Fs :=
  if !fs.plainFile index || !(fs.node index).writable || decide (maxFileSize < off) ||
      decide (maxFileSize - off < src.length) then (none, fs)
  else if fs.ramfsWriteSealed index then (none, fs)
  else
    match writePages index src.length off src fs with
    | (false, fs) => (none, fs)
    | (true, fs) =>
      (some src.length, fs.setNode index fun node =>
        { node with size := if node.size < off + src.length then off + src.length else node.size })

/-- The part of `ramfs_truncate` that clears the rest of the last page. -/
def clearTail (fs : Fs) (index size : Nat) : Fs :=
  if size % pageBytes = 0 then fs
  else
    match fs.findBackingPage index (pageNumber size) with
    | none => fs
    | some slot => fs.setSlot slot fun page =>
      { page with data := clearFrom page.data (size % pageBytes) }

/-- Pages beyond the size are dropped and the rest of the last one is cleared. -/
def ramfsTruncate (fs : Fs) (index size : Nat) : Bool × Fs :=
  if !fs.plainFile index || !(fs.node index).writable ||
      decide (maxFileSize < size) then (false, fs)
  else if fs.ramfsTruncateSealed index size then (false, fs)
  else
    let keepPages := (size + pageBytes - 1) / pageBytes
    let fs := dropPages index keepPages (fs.backing.length + 1) .first fs
    (true, (fs.clearTail index size).setNode index fun node => { node with size := size })

/-- One byte of a writable file as `ramfs_read` copies it: from its page, or zero. -/
def byteAt (fs : Fs) (index pos : Nat) : UInt8 :=
  match fs.findBackingPage index (pageNumber pos) with
  | some slot => (fs.slot slot).data (pos % pageBytes)
  | none => 0

/-- `ramfs_read`: the bytes it copies out. -/
def ramfsRead (fs : Fs) (index off len : Nat) : List UInt8 :=
  if !fs.plainFile index || decide ((fs.node index).size ≤ off) then []
  else
    let n := min ((fs.node index).size - off) len
    if !(fs.node index).writable then ((fs.node index).roData.drop off).take n
    else (List.range n).map fun k => fs.byteAt index (off + k)

end Fs

end Spore.Ramfs
