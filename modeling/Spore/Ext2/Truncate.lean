import Spore.Ext2.BlockCache
import Mathlib.Logic.Function.Basic

/-!
# Truncating files (`ext2.c`)

Truncation to zero gives every block of a file back, truncation to another size only records the
size. The results of `free_block` are not looked at, and an indirect block that cannot be read
counts as empty. Freeing writes bitmaps, group descriptors and the superblock, none of which is
an indirect block of the file. `write_inode` is represented by what it returns.
-/

namespace Spore.Ext2

/-- What `free_block` and `free_indirect_tree` read of a volume. -/
structure Space where
  /-- The first block of groups. -/
  firstDataBlock : Nat
  /-- The number of blocks. -/
  blockCount : Nat
  /-- Blocks of a group. -/
  blocksPerGroup : Nat
  /-- The number of groups. -/
  groupCount : Nat
  /-- The descriptor and the bitmap of the group are read, and the bitmap is written. -/
  works : Nat → Bool
  /-- The entries of indirect blocks. -/
  entries : Nat → List Nat
  /-- Which blocks can be read. -/
  readable : Nat → Bool

/-- `struct ext2_node`, without what truncation does not look at. -/
structure FileNode where
  /-- The block pointers. -/
  blocks : Nat → Nat
  /-- The size in bytes. -/
  size : Nat
  /-- Whether it is a link. -/
  symlink : Bool
  /-- The counted sectors. -/
  sectorsCount : Nat
  /-- The size fits a word. -/
  bounded : size < 2 ^ 32

namespace Space

variable (s : Space)

/-- The volume on a device that reads every block. -/
def whole : Space := { s with readable := fun _ => true }

/-- `free_block` gets as far as the bit. -/
def Freeable (block : Nat) : Prop :=
  s.firstDataBlock ≤ block ∧ block < s.blockCount ∧ block / s.blocksPerGroup < s.groupCount ∧
    s.works (block / s.blocksPerGroup) = true
  deriving Decidable

/-- `free_block` on the bits of all blocks. -/
def freeBlock (marked : Nat → Bool) (block : Nat) : Nat → Bool :=
  if s.Freeable block then Function.update marked block false else marked

/-- `free_indirect_tree`; depth 0 is the `free_block` of its loop. -/
def freeIndirectTree : Nat → (Nat → Bool) → Nat → Nat → Bool
  | 0, marked, block => if block = 0 then marked else s.freeBlock marked block
  | depth + 1, marked, block =>
    if block = 0 then marked
    else if s.readable block then
      s.freeBlock ((s.entries block).foldl (freeIndirectTree depth) marked) block
    else s.freeBlock marked block

/-- The blocks of a tree that can be read, each with the first block of the file it serves. -/
def treeBlocks (perBlock : Nat) : Nat → Nat → Nat → List (Nat × Nat)
  | 0, block, first => if block = 0 then [] else [(block, first)]
  | depth + 1, block, first =>
    if block = 0 then []
    else if s.readable block then
      ((s.entries block).zipIdx.flatMap fun entry =>
        treeBlocks perBlock depth entry.1 (first + entry.2 * perBlock ^ depth)) ++ [(block, first)]
    else [(block, first)]

end Space

namespace FileNode

variable (node : FileNode)

/-- The target of a short symbolic link stands in the inode. -/
def Fast : Prop := node.symlink = true ∧ node.sectorsCount = 0 ∧ node.size ≤ 60
  deriving Decidable

/-- The trees of a file: depth, block and first block of the file. -/
def trees (perBlock : Nat) : List (Nat × Nat × Nat) :=
  (List.range 12).map (fun i => (0, node.blocks i, i)) ++
    [(1, node.blocks 12, 12), (2, node.blocks 13, 12 + perBlock),
      (3, node.blocks 14, 12 + perBlock + perBlock ^ 2)]

/-- The blocks of a file that can be found. -/
def fileBlocks (vol : Volume) (s : Space) : List (Nat × Nat) :=
  if node.Fast then []
  else (node.trees (vol.blockSize / 4)).flatMap fun tree =>
    s.treeBlocks (vol.blockSize / 4) tree.1 tree.2.1 tree.2.2

end FileNode

/-- `ext2_truncate`. -/
def ext2Truncate (vol : Volume) (s : Space) (marked : Nat → Bool) (node : FileNode) (size : Nat)
    (written : Bool) : Bool × (Nat → Bool) × FileNode :=
  if vol.writable = false then (false, marked, node)
  else if size ≠ 0 then
    (written, marked, { node with size := size % 2 ^ 32, bounded := Nat.mod_lt _ (by decide) })
  else
    let cleared := { node with blocks := fun _ => 0, size := 0, bounded := by decide }
    if node.Fast then (written, marked, cleared)
    else
      let marked := (List.range 12).foldl (fun marked i =>
        if node.blocks i = 0 then marked else s.freeBlock marked (node.blocks i)) marked
      let marked := s.freeIndirectTree 1 marked (node.blocks 12)
      let marked := s.freeIndirectTree 2 marked (node.blocks 13)
      (written, s.freeIndirectTree 3 marked (node.blocks 14), cleared)

/-! ## What is freed -/

/-- The recursion frees the blocks of the tree one by one. -/
theorem Space.freeIndirectTree_eq (s : Space) (perBlock depth : Nat) (marked : Nat → Bool)
    (block first : Nat) : s.freeIndirectTree depth marked block =
      ((s.treeBlocks perBlock depth block first).map Prod.fst).foldl s.freeBlock marked := by
  induction depth generalizing marked block first with
  | zero =>
    rw [freeIndirectTree, treeBlocks]
    split <;> rfl
  | succ depth ih =>
    rw [freeIndirectTree, treeBlocks]
    split
    · rfl
    split
    · have each : (s.entries block).foldl (s.freeIndirectTree depth) marked =
          (s.entries block).zipIdx.foldl (fun marked entry =>
            s.freeIndirectTree depth marked entry.1) marked := by
        conv_lhs => rw [← List.zipIdx_map_fst 0 (s.entries block), List.foldl_map]
      rw [List.map_append, List.foldl_append, List.map_flatMap, List.foldl_flatMap, each]
      simp only [← ih]
      rfl
    · rfl

/-- A block is free afterwards if it was or is freed. -/
theorem Space.marked_foldl (s : Space) (blocks : List Nat) (marked : Nat → Bool) (b : Nat) :
    blocks.foldl s.freeBlock marked b = false ↔ marked b = false ∨ b ∈ blocks ∧ s.Freeable b := by
  induction blocks generalizing marked with
  | nil => simp
  | cons block blocks ih =>
    rw [List.foldl_cons, ih, freeBlock]
    by_cases here : b = block
    · subst here
      by_cases can : s.Freeable b <;> simp [can]
    · split <;> simp [here]

/-- Truncation to zero frees what it finds. -/
theorem ext2Truncate_zero {vol : Volume} (writable : vol.writable) (s : Space)
    (marked : Nat → Bool) (node : FileNode) :
    ∃ after, (∀ written, ext2Truncate vol s marked node 0 written =
        (written, after, { node with blocks := fun _ => 0, size := 0, bounded := by decide })) ∧
      ∀ b, after b = false ↔
        marked b = false ∨ b ∈ (node.fileBlocks vol s).map Prod.fst ∧ s.Freeable b := by
  refine ⟨_, fun written => ?_, s.marked_foldl _ marked⟩
  rw [ext2Truncate, FileNode.fileBlocks, if_neg (by simp [writable]), if_neg (by simp)]
  split
  · rfl
  rw [List.map_flatMap, List.foldl_flatMap]
  simp only [← Space.freeIndirectTree_eq]
  rfl

/-! ## Space given back -/

/-- The size is recorded, the blocks at or beyond it are free, and those before it stay marked
and in their places. -/
structure Released (vol : Volume) (s : Space) (marked : Nat → Bool) (node : FileNode) (n : Nat)
    (after : (Nat → Bool) × FileNode) : Prop where
  /-- The size is the new one. -/
  size : after.2.size = n
  /-- Blocks beyond it are free. -/
  freed : ∀ block ∈ node.fileBlocks vol s.whole, n ≤ block.2 * vol.blockSize →
    after.1 block.1 = false
  /-- The others are kept. -/
  kept : ∀ block ∈ node.fileBlocks vol s.whole, block.2 * vol.blockSize < n →
    after.1 block.1 = marked block.1 ∧ after.2.blocks = node.blocks

/-- Truncation gives space back exactly when no marked block of the file lies at or beyond the
new size, apart from blocks that truncation to zero finds and can free. -/
theorem truncate_releases_iff (vol : Volume) (s : Space) (marked : Nat → Bool) (node : FileNode)
    (n : Nat) (smaller : n ≤ node.size) :
    (∀ written, (ext2Truncate vol s marked node n written).1 = true →
      Released vol s marked node n (ext2Truncate vol s marked node n written).2) ↔
    vol.writable = false ∨ ∀ block ∈ node.fileBlocks vol s.whole, n ≤ block.2 * vol.blockSize →
      marked block.1 = false ∨
        n = 0 ∧ block.1 ∈ (node.fileBlocks vol s).map Prod.fst ∧ s.Freeable block.1 := by
  by_cases fixed : vol.writable = false
  · simp [ext2Truncate, fixed]
  rw [or_iff_right fixed]
  by_cases zero : n = 0
  · obtain ⟨after, result, freed⟩ := ext2Truncate_zero (by simpa using fixed) s marked node
    subst zero
    simp only [result, true_and, ← freed]
    constructor
    · exact fun released => (released true rfl).freed
    · exact fun all _ _ => ⟨rfl, all, fun _ _ before => absurd before (Nat.not_lt_zero _)⟩
  · have result : ∀ written, ext2Truncate vol s marked node n written = (written, marked,
        { node with size := n % 2 ^ 32, bounded := Nat.mod_lt _ (by decide) }) := by
      intro written
      rw [ext2Truncate, if_neg fixed, if_pos zero]
    have recorded : n % 2 ^ 32 = n := Nat.mod_eq_of_lt (Nat.lt_of_le_of_lt smaller node.bounded)
    simp only [result, zero, false_and, or_false]
    constructor
    · exact fun released => (released true rfl).freed
    · exact fun all _ _ => ⟨recorded, all, fun _ _ _ => ⟨rfl, rfl⟩⟩

/-- A file of two blocks on a volume of 64. -/
def twoBlocks : FileNode where
  blocks i := [20, 21].getD i 0
  size := 2048
  symlink := false
  sectorsCount := 4
  bounded := by decide

/-- A file system of 64 blocks. -/
def smallSpace : Space := ⟨1, 64, 64, 1, fun _ => true, fun _ => [], fun _ => true⟩

/-- Truncation to zero gives both blocks back. -/
theorem truncate_releases_both :
    0 ≤ twoBlocks.size ∧ ∀ written,
      (ext2Truncate smallVolume smallSpace (fun _ => true) twoBlocks 0 written).1 = true →
      Released smallVolume smallSpace (fun _ => true) twoBlocks 0
        (ext2Truncate smallVolume smallSpace (fun _ => true) twoBlocks 0 written).2 :=
  ⟨by decide, (truncate_releases_iff _ _ _ twoBlocks 0 (by decide)).mpr (.inr (by decide))⟩

/-- Truncation to the first block keeps the second one marked. -/
theorem truncate_keeps_second_block :
    (ext2Truncate smallVolume smallSpace (fun _ => true) twoBlocks 1024 true).1 = true ∧
    (21, 1) ∈ twoBlocks.fileBlocks smallVolume smallSpace ∧
    (ext2Truncate smallVolume smallSpace (fun _ => true) twoBlocks 1024 true).2.1 21 = true := by
  decide

end Spore.Ext2
