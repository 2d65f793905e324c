import Spore.Vfs.Node

/-!
# Address-space areas (`mm/vma.c`)

An area list is an array of slots grown in chunks of one page. Each slot is unused or holds
one area. `vma_remove` and `vma_protect` build a second list and replace the first one only
when every part found a slot. The page allocator and the node counters of the file systems
are reached through `VmaHost`, so that the list functions are stated once for every allocator.
-/

namespace Spore.Mm

/-- `enum vma_type`. -/
inductive VmaType where
  | anon
  | stack
  | file
  deriving Repr, DecidableEq, Inhabited

/-- `struct vma`. Addresses and offsets are the natural values of `uint64_t` fields; the list
functions only compare them. -/
structure Vma where
  /-- Whether the slot is taken. -/
  used : Bool
  /-- The first address. -/
  start : Nat
  /-- First address after the area (`end` in the source). -/
  stop : Nat
  /-- `VMM_USER_*` rights. -/
  prot : UInt32
  /-- `MAP_*` flags. -/
  flags : UInt32
  /-- What backs it. -/
  type : VmaType
  /-- The mapped file's node, copied when the area was made. -/
  fileNode : VfsNode
  /-- The address at which `fileOffset` is mapped. -/
  fileStart : Nat
  /-- File position of `fileStart`. -/
  fileOffset : Nat
  /-- Bytes of the file that the mapping shows. -/
  fileSize : Nat
  deriving Repr, DecidableEq, Inhabited

/-- A slot of a zeroed chunk. -/
def Vma.zero : Vma := ⟨false, 0, 0, 0, 0, .anon, VfsNode.zero, 0, 0, 0⟩

/-- `PAGE_SIZE`. -/
def pageSize : Nat := 4096

/-- `VMM_USER_WRITE`. -/
def vmmUserWrite : UInt32 := 2

/-- `MAP_SHARED`. -/
def mapShared : UInt32 := 1

/-- `VMA_MAX_CHUNKS`. -/
def vmaMaxChunks : Nat := 64

/-- `VMAS_PER_CHUNK`: 4096 bytes over the 376 bytes of `struct vma`. -/
def vmasPerChunk : Nat := 10

/-- What the list functions call outside `vma.c`: the page allocator for chunks and the
counters kept with file nodes. -/
structure VmaHost (σ : Type) where
  /-- `chunk_alloc`: a zeroed page, or none when the allocator is empty. -/
  chunkAlloc : σ → Option (Nat × σ)
  /-- `pmm_free_page`. -/
  chunkFree : Nat → σ → σ
  /-- `vfs_retain_node`. -/
  retainNode : VfsNode → σ → σ
  /-- `vfs_release_node`. -/
  releaseNode : VfsNode → σ → σ
  /-- `vfs_note_shared_writable_mapping`. -/
  noteSharedWritableMapping : VfsNode → Bool → σ → σ

/-- `struct vma_list`: the pages of the chunks and their slots in index order. -/
structure VmaList where
  /-- The pages of the slots. -/
  chunkPa : List Nat
  /-- The slots in order. -/
  slots : List Vma
  /-- Each chunk contributes the same number of slots. -/
  sized : slots.length = chunkPa.length * vmasPerChunk

/-- `vma_list_init`. -/
def VmaList.init : VmaList := ⟨[], [], rfl⟩

/-- Replace one slot. -/
def VmaList.setSlot (list : VmaList) (index : Nat) (vma : Vma) : VmaList :=
  ⟨list.chunkPa, list.slots.set index vma, by rw [List.length_set]; exact list.sized⟩

/-- The list after a zeroed chunk was added. -/
def VmaList.addChunk (list : VmaList) (pa : Nat) : VmaList :=
  ⟨list.chunkPa ++ [pa], list.slots ++ List.replicate vmasPerChunk Vma.zero, by
    simp [list.sized, Nat.succ_mul]⟩

/-- Two ranges have an address in common. -/
def overlaps (aStart aStop bStart bStop : Nat) : Bool :=
  decide (aStart < bStop) && decide (bStart < aStop)

/-- Areas that may be merged: alike, and with the same part of one file. -/
def compatible (a b : Vma) : Bool :=
  if a.prot ≠ b.prot ∨ a.flags ≠ b.flags ∨ a.type ≠ b.type then false
  else if a.type ≠ .file then true
  else decide (a.fileNode.backend = b.fileNode.backend) &&
    decide (a.fileNode.ino = b.fileNode.ino) && decide (a.fileNode.devId = b.fileNode.devId) &&
    decide (a.fileStart = b.fileStart) && decide (a.fileOffset = b.fileOffset) &&
    decide (a.fileSize = b.fileSize)

/-- The first used area with the address. -/
def vmaLookup (list : VmaList) (va : Nat) : Option Vma :=
  list.slots.find? fun vma => vma.used && decide (vma.start ≤ va) && decide (va < vma.stop)

/-- Some used area meets the range. -/
def vmaOverlaps (list : VmaList) (start stop : Nat) : Bool :=
  if stop ≤ start then true
  else list.slots.any fun vma => vma.used && overlaps start stop vma.start vma.stop

/-- An area that has the whole range. -/
def vmaLookupRange (list : VmaList) (start stop : Nat) : Option Vma :=
  if stop ≤ start then none
  else list.slots.find? fun vma =>
    vma.used && decide (vma.start ≤ start) && decide (stop ≤ vma.stop)

/-- How far a stack may be from a fault. -/
def maxGrowdownPages : Nat := 2048

/-- `vma_grow_down`: the grown area and the list. The first area above the page that has the
flags decides. -/
def vmaGrowDown (list : VmaList) (page : Nat) (requiredFlags : UInt32) : Option (Vma × VmaList) :=
  if page % pageSize ≠ 0 then none
  else
    let candidate := fun vma : Vma => vma.used && decide (page < vma.start) &&
      decide (vma.flags &&& requiredFlags = requiredFlags)
    match list.slots.findIdx? candidate with
    | none => none
    | some index =>
      match list.slots[index]? with
      | none => none
      | some vma =>
        let growPages := (vma.start - page) / pageSize
        if growPages = 0 ∨ maxGrowdownPages < growPages then none
        else if vmaOverlaps list page vma.start then none
        else some ({ vma with start := page }, list.setSlot index { vma with start := page })

section Host

variable {σ : Type} (host : VmaHost σ)

/-- A chunk for more slots, if there may be one. -/
def ensureChunk (list : VmaList) (world : σ) : Option (VmaList × σ) :=
  if vmaMaxChunks ≤ list.chunkPa.length then none
  else match host.chunkAlloc world with
    | none => none
    | some (pa, world) => some (list.addChunk pa, world)

/-- The scan of `alloc_slot` for the first unused slot. -/
def freeSlot (list : VmaList) : Option Nat := list.slots.findIdx? fun vma => !vma.used

/-- `alloc_slot`: the index of the first unused slot, after at most one new chunk. A chunk
holds at least one slot, so the second scan of the source's loop always succeeds. -/
def allocSlot (list : VmaList) (world : σ) : Option (Nat × VmaList × σ) :=
  match freeSlot list with
  | some index => some (index, list, world)
  | none =>
    match ensureChunk host list world with
    | none => none
    | some (list, world) =>
      match freeSlot list with
      | some index => some (index, list, world)
      | none => none

/-- Whether an area counts as a shared writable mapping of its file. -/
def Vma.sharedWritable (vma : Vma) : Bool :=
  decide (vma.flags &&& mapShared ≠ 0) && decide (vma.prot &&& vmmUserWrite ≠ 0)

/-- Counters when a file area enters a slot. -/
def retainFile (vma : Vma) (world : σ) : σ :=
  if vma.type = .file then
    let world := host.retainNode vma.fileNode world
    if vma.sharedWritable then host.noteSharedWritableMapping vma.fileNode true world else world
  else world

/-- The counter updates of `release_vma` for a used slot. -/
def releaseFile (vma : Vma) (world : σ) : σ :=
  if vma.type = .file then
    let world :=
      if vma.sharedWritable then host.noteSharedWritableMapping vma.fileNode false world
      else world
    host.releaseNode vma.fileNode world
  else world

/-- A slot gets the area, and its file a reference. -/
def addRawVma (list : VmaList) (src : Vma) (world : σ) : Option (VmaList × σ) :=
  if src.stop ≤ src.start then none
  else match allocSlot host list world with
    | none => none
    | some (index, list, world) =>
      let vma := { src with used := true }
      some (list.setSlot index vma, retainFile host vma world)

/-- An area without a file. -/
def addRaw (list : VmaList) (start stop : Nat) (prot flags : UInt32) (type : VmaType)
    (world : σ) : Option (VmaList × σ) :=
  if stop ≤ start then none
  else match allocSlot host list world with
    | none => none
    | some (index, list, world) =>
      some (list.setSlot index
        { Vma.zero with used := true, start, stop, prot, flags, type }, world)

/-- One comparison of `merge_adjacent`: slot `i` takes over the range of slot `j`. -/
def mergePair (i j : Nat) (list : VmaList) (world : σ) : Option (VmaList × σ) :=
  match list.slots[i]?, list.slots[j]? with
  | some a, some b =>
    if i = j ∨ b.used = false then none
    else if a.stop = b.start ∧ compatible a b = true then
      some ((list.setSlot i { a with stop := b.stop }).setSlot j { b with used := false },
        releaseFile host b world)
    else if b.stop = a.start ∧ compatible a b = true then
      some ((list.setSlot i { a with start := b.start }).setSlot j { b with used := false },
        releaseFile host b world)
    else none
  | _, _ => none

/-- Inner loop of `merge_adjacent` for slot `i`. A merge sets the index to zero before the
loop increments it, so the scan resumes at slot one. -/
def mergeRow (i : Nat) : Nat → Nat → VmaList → σ → VmaList × σ
  | 0, _, list, world => (list, world)
  | fuel + 1, j, list, world =>
    if list.slots.length ≤ j then (list, world)
    else match mergePair host i j list world with
      | some (list, world) => mergeRow i fuel 1 list world
      | none => mergeRow i fuel (j + 1) list world

/-- Iterations that the inner loop cannot exceed: each merge empties a slot, and between two
merges every slot is visited at most once. -/
def mergeFuel (list : VmaList) : Nat := (list.slots.length + 1) * (list.slots.length + 1)

/-- Outer loop of `merge_adjacent` from slot `i`, over the remaining slots. -/
def mergeRows : Nat → Nat → VmaList → σ → VmaList × σ
  | 0, _, list, world => (list, world)
  | rest + 1, i, list, world =>
    match list.slots[i]? with
    | some a =>
      if a.used then
        let (list, world) := mergeRow host i (mergeFuel list) 0 list world
        mergeRows rest (i + 1) list world
      else mergeRows rest (i + 1) list world
    | none => (list, world)

/-- All pairs of areas that touch are merged. -/
def mergeAdjacent (list : VmaList) (world : σ) : VmaList × σ :=
  mergeRows host list.slots.length 0 list world

/-- Releases of `vma_list_destroy`, slot by slot. -/
def releaseSlots : List Vma → σ → σ
  | [], world => world
  | vma :: rest, world =>
    releaseSlots rest (if vma.used then releaseFile host vma world else world)

/-- `vma_list_destroy`: the counters and pages given back; the list itself becomes empty. -/
def vmaListDestroy (list : VmaList) (world : σ) : σ :=
  list.chunkPa.foldl (fun world pa => host.chunkFree pa world) (releaseSlots host list.slots world)

/-- `vma_insert`: not on top of another area. -/
def vmaInsert (list : VmaList) (start stop : Nat) (prot flags : UInt32) (type : VmaType)
    (world : σ) : Bool × VmaList × σ :=
  if stop ≤ start then (false, list, world)
  else if vmaOverlaps list start stop then (false, list, world)
  else match addRaw host list start stop prot flags type world with
    | none => (false, list, world)
    | some (list, world) => (true, mergeAdjacent host list world)

/-- `vma_insert_file`. -/
def vmaInsertFile (list : VmaList) (start stop : Nat) (prot flags : UInt32)
    (node : Option VfsNode) (fileStart fileOffset fileSize : Nat) (world : σ) :
    Bool × VmaList × σ :=
  match node with
  | none => (false, list, world)
  | some node =>
    if stop ≤ start ∨ node.isDir = true ∨ node.device ≠ .none then (false, list, world)
    else if vmaOverlaps list start stop then (false, list, world)
    else match allocSlot host list world with
      | none => (false, list, world)
      | some (index, list, world) =>
        let vma : Vma :=
          { used := true, start, stop, prot, flags, type := .file, fileNode := node,
            fileStart, fileOffset, fileSize }
        (true, mergeAdjacent host (list.setSlot index vma) (retainFile host vma world))

/-- Add parts in order; on the first failure everything added so far is destroyed, and only
the allocator and counters remember the attempt. -/
def addParts : List Vma → VmaList → σ → Except σ (VmaList × σ)
  | [], next, world => .ok (next, world)
  | part :: rest, next, world =>
    match addRawVma host next part world with
    | none => .error (vmaListDestroy host next world)
    | some (next, world) => addParts rest next world

/-- The parts of one area that `vma_remove` keeps. -/
def removeParts (start stop : Nat) (vma : Vma) : List Vma :=
  if overlaps start stop vma.start vma.stop = false then [vma]
  else
    (if vma.start < start then [{ vma with stop := start }] else []) ++
    (if stop < vma.stop then [{ vma with start := stop }] else [])

/-- The parts of one area that `vma_protect` makes. -/
def protectParts (start stop : Nat) (prot : UInt32) (vma : Vma) : List Vma :=
  if overlaps start stop vma.start vma.stop = false then [vma]
  else
    (if vma.start < start then [{ vma with stop := start }] else []) ++
    [{ vma with
        start := if start < vma.start then vma.start else start
        stop := if vma.stop < stop then vma.stop else stop
        prot }] ++
    (if stop < vma.stop then [{ vma with start := stop }] else [])

/-- The common body of `vma_remove` and `vma_protect`: rebuild the list from the parts of its
used areas, in slot order, then merge and replace. -/
def rebuild (parts : Vma → List Vma) (list : VmaList) (world : σ) : Bool × VmaList × σ :=
  match addParts host ((list.slots.filter (·.used)).flatMap parts) VmaList.init world with
  | .error world => (false, list, world)
  | .ok (next, world) =>
    let (next, world) := mergeAdjacent host next world
    (true, next, vmaListDestroy host list world)

/-- `vma_remove` rebuilds the list without the range. -/
def vmaRemove (list : VmaList) (start stop : Nat) (world : σ) : Bool × VmaList × σ :=
  if stop ≤ start then (false, list, world)
  else rebuild host (removeParts start stop) list world

/-- `vma_protect` rebuilds it with other rights in the range. -/
def vmaProtect (list : VmaList) (start stop : Nat) (prot : UInt32) (world : σ) :
    Bool × VmaList × σ :=
  if stop ≤ start then (false, list, world)
  else rebuild host (protectParts start stop prot) list world

/-- `vma_clone`: the copy, or only what the attempt did to the allocator and the counters. -/
def vmaClone (src : VmaList) (world : σ) : Except σ (VmaList × σ) :=
  addParts host (src.slots.filter (·.used)) VmaList.init world

end Host

end Spore.Mm
