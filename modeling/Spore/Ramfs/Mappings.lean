import Spore.Mm.VmaMap
import Spore.Ramfs.Shape

/-!
# Mapped nodes (`vma.c`, `vfs.c`, `ramfs.c`)

An area that maps a file of the ramfs holds a reference to its node, and a second counter of the
node says how many of its mappings are shared and writable. Open files and the areas of other
lists hold references to the same nodes. The list functions move both counters together with the
areas, and those that fail put them back.
-/

namespace Spore.Ramfs

open Spore.Mm Fs List

variable {A : Type} {index : VfsNode → Nat} {chunkAlloc : A → Option (Nat × A)}
  {chunkFree : Nat → A → A} {fs : Fs} {a : A} {vma old : Vma} {i k slot : Nat} {world : Fs × A}
  {held : Nat → Nat} {areas rest base : List Vma} {list : VmaList} {p : Vma → Bool}

/-! ## The counters -/

/-- `vfs_retain_node`. A node of the ramfs stands for the entry with number `index node`, the
`ramfs.index` that is read together with the inode number. -/
def vfsRetainNode (index : VfsNode → Nat) (node : VfsNode) (fs : Fs) : Fs :=
  if node.backend = .ramfs then (fs.ramfsRetainNode (index node)).2 else fs

/-- `vfs_release_node`, which counts ramfs nodes only. -/
def vfsReleaseNode (index : VfsNode → Nat) (node : VfsNode) (fs : Fs) : Fs :=
  if node.backend = .ramfs then fs.ramfsReleaseNode (index node) else fs

/-- Likewise for ramfs nodes only. -/
def vfsNoteSharedWritableMapping (index : VfsNode → Nat) (node : VfsNode) (add : Bool)
    (fs : Fs) : Fs :=
  if node.backend = .ramfs then fs.ramfsNoteSharedWritableMapping (index node) add else fs

/-- What the list functions call, on a ramfs and any source of chunks. -/
def ramfsVmaHost {A : Type} (index : VfsNode → Nat) (chunkAlloc : A → Option (Nat × A))
    (chunkFree : Nat → A → A) : VmaHost (Fs × A) where
  chunkAlloc world := (chunkAlloc world.2).map fun (pa, rest) => (pa, world.1, rest)
  chunkFree pa world := (world.1, chunkFree pa world.2)
  retainNode node world := (vfsRetainNode index node world.1, world.2)
  releaseNode node world := (vfsReleaseNode index node world.1, world.2)
  noteSharedWritableMapping node add world :=
    (vfsNoteSharedWritableMapping index node add world.1, world.2)

/-- The area is in use and maps entry `i`. -/
def mapsNode (index : VfsNode → Nat) (i : Nat) (vma : Vma) : Bool :=
  vma.used && decide (vma.type = .file ∧ vma.fileNode.backend = .ramfs ∧ index vma.fileNode = i)

/-- The area is in use and maps entry `i` shared and writable. -/
def sharesNode (index : VfsNode → Nat) (i : Nat) (vma : Vma) : Bool :=
  mapsNode index i vma && vma.sharedWritable

/-- An area that maps no ramfs file is counted nowhere. -/
theorem not_mapsNode (away : ¬ (vma.type = .file ∧ vma.fileNode.backend = .ramfs)) :
    mapsNode index i vma = false := by
  simp only [mapsNode, Bool.and_eq_false_iff, decide_eq_false_iff_not]
  exact .inr fun all => away ⟨all.1, all.2.1⟩

/-- An area that enters a slot adds to the counters of the entry it maps. -/
theorem node_retainFile (used : vma.used)
    (live : ∀ i, mapsNode index i vma → (fs.node i).used ∧
      (fs.node i).refs + 1 < 2 ^ 32 ∧ (fs.node i).sharedWriteMappings + 1 < 2 ^ 32) :
    (retainFile (ramfsVmaHost index chunkAlloc chunkFree) vma (fs, a)).1.node i =
      if mapsNode index i vma then
        { fs.node i with
          refs := (fs.node i).refs + 1
          sharedWriteMappings := (fs.node i).sharedWriteMappings + vma.sharedWritable.toNat }
      else fs.node i := by
  by_cases mapped : vma.type = .file ∧ vma.fileNode.backend = .ramfs
  · obtain ⟨file, ramfs⟩ := mapped
    obtain ⟨here, refs, shared⟩ := live (index vma.fileNode) (by simp [mapsNode, used, file, ramfs])
    have first := node_setNode_used here fun node =>
      { node with refs := (node.refs + 1) % 2 ^ 32 }
    have still : ((fs.setNode (index vma.fileNode) fun node =>
        { node with refs := (node.refs + 1) % 2 ^ 32 }).node (index vma.fileNode)).used = true := by
      rw [first, if_pos rfl]
      exact here
    simp only [retainFile, ramfsVmaHost, vfsRetainNode, vfsNoteSharedWritableMapping, file, ramfs,
      ↓reduceIte, ramfsRetainNode, here, ramfsNoteSharedWritableMapping, still, mapsNode,
      used, true_and, Bool.true_and, Bool.not_true, Bool.false_eq_true, decide_eq_true_eq]
    cases vma.sharedWritable <;>
      simp only [Bool.false_eq_true, ↓reduceIte, node_setNode_used still, first,
        Nat.mod_eq_of_lt refs, Nat.mod_eq_of_lt shared, eq_comm] <;>
      split <;> simp_all
  · rw [not_mapsNode mapped]
    unfold retainFile
    split
    · rename_i file
      have other : vma.fileNode.backend ≠ .ramfs := fun ramfs => mapped ⟨file, ramfs⟩
      cases vma.sharedWritable <;>
        simp [ramfsVmaHost, vfsRetainNode, vfsNoteSharedWritableMapping, other]
    · rfl

/-- A freed node is cleared. -/
theorem Fs.node_freeNode (used : (fs.node k).used) :
    (fs.freeNode k).node i = if i = k then .clear else fs.node i := by
  have inside : k < (fs.freeNodePages k).nodes.length := by
    rw [length_freeNodePages]
    exact lt_of_used used
  rw [freeNode, node_setNode]
  by_cases here : i = k
  · rw [if_pos ⟨here, inside⟩, if_pos here]
  rw [if_neg fun both => here both.1, if_neg here, freeNodePages, node, nodes_freeSlotsFrom]
  show (fs.setNode k _).node i = _
  rw [node_setNode_used used, if_neg here]

/-- A release decrements the counter; the last one frees an unlinked node. -/
theorem Fs.node_ramfsReleaseNode (used : (fs.node k).used) (held : (fs.node k).refs ≠ 0) :
    (fs.ramfsReleaseNode k).node i =
      if i = k then
        if (fs.node k).refs = 1 ∧ (fs.node k).parent = none ∧ k ≠ 0 then .clear
        else { fs.node k with refs := (fs.node k).refs - 1 }
      else fs.node i := by
  have lowered := node_setNode_used used fun node => { node with refs := node.refs - 1 }
  have still : ((fs.setNode k fun node => { node with refs := node.refs - 1 }).node k).used =
      true := by
    rw [lowered, if_pos rfl]
    exact used
  have last : (fs.node k).refs - 1 = 0 ↔ (fs.node k).refs = 1 := by omega
  rw [ramfsReleaseNode, if_neg (by simp [used, held])]
  simp only [lowered k, ↓reduceIte, last]
  by_cases gone : (fs.node k).refs = 1 ∧ (fs.node k).parent = none ∧ k ≠ 0
  · rw [if_pos gone, if_pos gone, node_freeNode still, lowered]
    split <;> rfl
  · rw [if_neg gone, if_neg gone, lowered]

/-- An area that leaves a slot takes its part from the counters of the entry it maps. The entry
is cleared when that was the last reference and the file has no name. -/
theorem node_releaseFile (used : vma.used)
    (held : ∀ i, mapsNode index i vma → (fs.node i).used ∧ (fs.node i).refs ≠ 0 ∧
      (vma.sharedWritable → (fs.node i).sharedWriteMappings ≠ 0)) :
    (releaseFile (ramfsVmaHost index chunkAlloc chunkFree) vma (fs, a)).1.node i =
      if mapsNode index i vma then
        if (fs.node i).refs = 1 ∧ (fs.node i).parent = none ∧ i ≠ 0 then .clear
        else { fs.node i with
          refs := (fs.node i).refs - 1
          sharedWriteMappings := (fs.node i).sharedWriteMappings - vma.sharedWritable.toNat }
      else fs.node i := by
  by_cases mapped : vma.type = .file ∧ vma.fileNode.backend = .ramfs
  · obtain ⟨file, ramfs⟩ := mapped
    obtain ⟨here, refs, shared⟩ := held (index vma.fileNode) (by simp [mapsNode, used, file, ramfs])
    simp only [releaseFile, ramfsVmaHost, vfsReleaseNode, vfsNoteSharedWritableMapping, file, ramfs,
      ↓reduceIte, mapsNode, used, true_and, Bool.true_and, decide_eq_true_eq, eq_comm (b := i)]
    cases both : vma.sharedWritable with
    | false =>
      simp only [Bool.false_eq_true, ↓reduceIte, node_ramfsReleaseNode here refs]
      split <;> simp_all
    | true =>
      have noted := node_setNode_used here fun node =>
        { node with sharedWriteMappings := node.sharedWriteMappings - 1 }
      have still := noted (index vma.fileNode)
      rw [if_pos rfl] at still
      simp only [↓reduceIte, ramfsNoteSharedWritableMapping, here, Bool.not_true,
        Bool.false_eq_true, if_pos (shared both)]
      rw [node_ramfsReleaseNode (by rw [still]; exact here) (by rw [still]; exact refs), still,
        noted]
      split <;> simp_all
  · rw [not_mapsNode mapped]
    unfold releaseFile
    split
    · rename_i file
      have other : vma.fileNode.backend ≠ .ramfs := fun ramfs => mapped ⟨file, ramfs⟩
      cases vma.sharedWritable <;>
        simp [ramfsVmaHost, vfsReleaseNode, vfsNoteSharedWritableMapping, other]
    · rfl

/-! ## Areas and entries -/

/-- The counters of every entry are what its holders amount to: the open files that hold it, and
the areas in use that map it. An entry that is held is in use. -/
structure Counted (index : VfsNode → Nat) (held : Nat → Nat) (areas : List Vma) (fs : Fs) :
    Prop where
  /-- References are holders and areas. -/
  refs : ∀ i, (fs.node i).refs = held i + areas.countP (mapsNode index i)
  /-- Shared writable areas are counted. -/
  shared : ∀ i, (fs.node i).sharedWriteMappings = areas.countP (sharesNode index i)
  /-- What is referred to is used. -/
  live : ∀ i, (fs.node i).refs ≠ 0 → (fs.node i).used = true

/-- Areas that fit an array of chunks can be added without a counter wrapping around. -/
def Room (held : Nat → Nat) (areas : List Vma) : Prop :=
  ∀ i, held i + areas.length + vmaMaxChunks * vmasPerChunk < 2 ^ 32

/-- One of the two counts that the counters of entry `i` are about. -/
def Counter (index : VfsNode → Nat) (i : Nat) (p : Vma → Bool) : Prop :=
  p = mapsNode index i ∨ p = sharesNode index i

/-- In every count, the areas are the given one and the rest. -/
def Splits (index : VfsNode → Nat) (areas : List Vma) (vma : Vma) (rest : List Vma) : Prop :=
  ∀ i p, Counter index i p → areas.countP p = rest.countP p + (p vma).toNat

/-- Where an area lies does not matter for the counters. -/
theorem Counter.blind (counter : Counter index i p) (vma : Vma) (start stop : Nat) :
    p { vma with start, stop } = p vma := by
  rcases counter with rfl | rfl <;> rfl

/-- Areas that are not used are not counted. -/
theorem Counter.unused (counter : Counter index i p) (vma : Vma) (unused : vma.used = false) :
    p vma = false := by
  rcases counter with rfl | rfl <;> simp [sharesNode, mapsNode, unused]

/-- A shared writable mapping is a mapping. -/
theorem countP_sharesNode_le (index : VfsNode → Nat) (areas : List Vma) (i : Nat) :
    areas.countP (sharesNode index i) ≤ areas.countP (mapsNode index i) :=
  countP_mono_left fun _ _ shares => (Bool.and_eq_true _ _ |>.mp shares).1

/-- Only the counts matter. -/
theorem Counted.congr (counted : Counted index held areas fs)
    (same : ∀ i p, Counter index i p → rest.countP p = areas.countP p) :
    Counted index held rest fs where
  refs i := by rw [counted.refs, same i _ (.inl rfl)]
  shared i := by rw [counted.shared, same i _ (.inr rfl)]
  live := counted.live

/-- An area in use enters a slot. -/
theorem Counted.retain (counted : Counted index held rest fs) (used : vma.used)
    (splits : Splits index areas vma rest) (room : ∀ i, held i + areas.length < 2 ^ 32)
    (live : ∀ i, mapsNode index i vma → (fs.node i).used) :
    Counted index held areas
      (retainFile (ramfsVmaHost index chunkAlloc chunkFree) vma (fs, a)).1 := by
  have grows : ∀ i, mapsNode index i vma → (fs.node i).used ∧
      (fs.node i).refs + 1 < 2 ^ 32 ∧ (fs.node i).sharedWriteMappings + 1 < 2 ^ 32 := by
    intro i maps
    have all : areas.countP (mapsNode index i) ≤ areas.length := countP_le_length
    have few := countP_sharesNode_le index rest i
    have bound := room i
    rw [splits i _ (.inl rfl), maps, Bool.toNat_true] at all
    rw [counted.refs, counted.shared]
    exact ⟨live i maps, by omega, by omega⟩
  constructor <;> intro i <;> rw [node_retainFile used grows]
  · rw [splits i _ (.inl rfl)]
    cases mapsNode index i vma <;> simp [counted.refs, Nat.add_assoc]
  · rw [splits i _ (.inr rfl), sharesNode]
    cases mapsNode index i vma <;> simp [counted.shared]
  · cases maps : mapsNode index i vma with
    | false => exact counted.live i
    | true => exact fun _ => live i maps

/-- An area in use leaves its slot. -/
theorem Counted.release (counted : Counted index held areas fs) (used : vma.used)
    (splits : Splits index areas vma rest) :
    Counted index held rest
      (releaseFile (ramfsVmaHost index chunkAlloc chunkFree) vma (fs, a)).1 := by
  have before : ∀ i, (fs.node i).refs = held i + rest.countP (mapsNode index i) +
      (mapsNode index i vma).toNat ∧ (fs.node i).sharedWriteMappings =
      rest.countP (sharesNode index i) + (sharesNode index i vma).toNat := by
    intro i
    rw [counted.refs, counted.shared, splits i _ (.inl rfl), splits i _ (.inr rfl),
      Nat.add_assoc]
    exact ⟨rfl, rfl⟩
  have holds : ∀ i, mapsNode index i vma → (fs.node i).used ∧
      (fs.node i).refs ≠ 0 ∧ (vma.sharedWritable = true → (fs.node i).sharedWriteMappings ≠ 0) := by
    intro i maps
    obtain ⟨some, more⟩ := before i
    rw [maps, Bool.toNat_true] at some
    refine ⟨counted.live i (by omega), by omega, fun both => ?_⟩
    rw [sharesNode, maps, both] at more
    exact more ▸ Nat.succ_ne_zero _
  have after : ∀ i, ∃ node, node =
      (releaseFile (ramfsVmaHost index chunkAlloc chunkFree) vma (fs, a)).1.node i ∧
      node.refs = held i + rest.countP (mapsNode index i) ∧
      node.sharedWriteMappings = rest.countP (sharesNode index i) ∧
      (node.refs ≠ 0 → node.used = true) := by
    intro i
    refine ⟨_, (node_releaseFile used holds).symm, ?_⟩
    obtain ⟨some, more⟩ := before i
    have few := countP_sharesNode_le index rest i
    cases maps : mapsNode index i vma with
    | false =>
      rw [maps] at some
      rw [sharesNode, maps] at more
      exact ⟨some, more, counted.live i⟩
    | true =>
      rw [maps, Bool.toNat_true] at some
      rw [sharesNode, maps, Bool.true_and] at more
      rw [if_pos rfl]
      split
      · -- The last reference was that of the area, so nothing else maps the entry.
        refine ⟨?_, ?_, fun held => absurd rfl held⟩
        · show 0 = _
          omega
        · show 0 = _
          omega
      · refine ⟨?_, ?_, fun _ => (holds i maps).1⟩
        · show _ - 1 = _
          omega
        · show _ - _ = _
          omega
  constructor <;> intro i <;> obtain ⟨node, here, refs, shared, live⟩ := after i <;> rw [← here]
  · exact refs
  · exact shared
  · exact live

/-- Destroyed areas give their references back. -/
theorem Counted.releaseSlots (slots : List Vma) : ∀ {world : Fs × A},
    Counted index held (slots ++ rest) world.1 →
    Counted index held rest
      (Mm.releaseSlots (ramfsVmaHost index chunkAlloc chunkFree) slots world).1 := by
  induction slots with
  | nil => exact id
  | cons vma slots ih =>
    intro world counted
    have first : Splits index (vma :: slots ++ rest) vma (slots ++ rest) := by
      intro i p _
      rw [cons_append, countP_cons]
      cases p vma <;> rfl
    apply ih
    split
    · rename_i used
      exact counted.release used first
    rename_i unused
    apply counted.congr
    intro i p counter
    rw [first i p counter, counter.unused vma (Bool.eq_false_iff.mpr unused)]
    rfl

/-- The areas of a destroyed list are counted no longer. -/
theorem Counted.vmaListDestroy (counted : Counted index held (list.slots ++ rest) world.1) :
    Counted index held rest
      (Mm.vmaListDestroy (ramfsVmaHost index chunkAlloc chunkFree) list world).1 := by
  have chunks : ∀ (chunks : List Nat) (world : Fs × A), (chunks.foldl (fun world pa =>
      (ramfsVmaHost index chunkAlloc chunkFree).chunkFree pa world) world).1 = world.1 := by
    intro chunks
    induction chunks with
    | nil => exact fun _ => rfl
    | cons pa rest ih => exact fun world => ih _
  rw [Mm.vmaListDestroy, chunks]
  exact .releaseSlots list.slots counted

/-- Storing in an unused slot adds an area. -/
theorem splits_setSlot (new : Vma)
    (stored : list.slots[slot]? = some old) (unused : old.used = false) :
    Splits index ((list.setSlot slot new).slots ++ base) new (list.slots ++ base) := by
  intro i p counter
  have count := countP_setSlot p new stored
  rw [counter.unused old unused, Bool.toNat_false] at count
  rw [countP_append, countP_append]
  omega

/-- The counters are right, and the list fits its array of chunks. -/
structure Tracked (index : VfsNode → Nat) (held : Nat → Nat) (base : List Vma) (list : VmaList)
    (fs : Fs) : Prop where
  /-- The counters are right. -/
  counted : Counted index held (list.slots ++ base) fs
  /-- The chunks fit. -/
  chunks : list.chunkPa.length ≤ vmaMaxChunks

/-- The list fits its chunks. -/
theorem Tracked.length_le (tracked : Tracked index held base list fs) :
    list.slots.length ≤ vmaMaxChunks * vmasPerChunk := by
  rw [list.sized]
  exact Nat.mul_le_mul_right _ tracked.chunks

/-- An area is stored in a free slot and its file is retained. -/
theorem Tracked.fill (tracked : Tracked index held base list fs)
    (room : Room held base) (stored : list.slots[slot]? = some old) (unused : old.used = false)
    (used : vma.used) (live : ∀ i, mapsNode index i vma → (fs.node i).used) :
    Tracked index held base (list.setSlot slot vma)
      (retainFile (ramfsVmaHost index chunkAlloc chunkFree) vma (fs, a)).1 := by
  refine ⟨tracked.counted.retain used (splits_setSlot vma stored unused) (fun i => ?_) live,
    tracked.chunks⟩
  have bound := room i
  have few := tracked.length_le
  simp only [VmaList.setSlot, length_append, length_set]
  omega

/-- A chunk is no matter of the file system. -/
theorem chunkAlloc_fst {after : Fs × A} {pa : Nat}
    (taken : (ramfsVmaHost index chunkAlloc chunkFree).chunkAlloc world = some (pa, after)) :
    after.1 = world.1 := by
  obtain ⟨_, _, ends⟩ := Option.map_eq_some_iff.mp taken
  rw [← (Prod.mk.inj ends).2]

/-- The list functions keep the counters right, next to the areas of other lists. -/
theorem tracked_rule (room : Room held base) :
    ListRule (ramfsVmaHost index chunkAlloc chunkFree)
      (fun vma => ∀ i, mapsNode index i vma → base.countP (mapsNode index i) ≠ 0)
      fun list world => Tracked index held base list world.1 where
  merge {_ _ list next _ _ _ b _} merge _ tracked := by
    have chunks : next.chunkPa = list.chunkPa := by rw [merge.slots]; rfl
    refine ⟨?_, chunks ▸ tracked.chunks⟩
    rw [merge.released]
    apply tracked.counted.release merge.used
    intro i p counter
    rw [countP_append, countP_append, ← merge.countP counter.blind counter.unused]
    omega
  grow {list world after pa} tracked room taken := by
    refine ⟨?_, ?_⟩
    · rw [chunkAlloc_fst taken]
      apply tracked.counted.congr
      intro i p counter
      have empty : (replicate vmasPerChunk .zero).countP p = 0 := by
        rw [countP_replicate, counter.unused Vma.zero rfl]
        rfl
      simp [VmaList.addChunk, empty]
    · simp only [VmaList.addChunk, length_append, length_singleton]
      exact room
  fill {list world _ _ vma} tracked stored unused fits used :=
    tracked.fill room stored unused used fun i maps => by
      apply tracked.counted.live
      have some := fits i maps
      rw [tracked.counted.refs, countP_append]
      omega

/-- A call keeps the counters right, and the list when it fails. -/
def CallKeeps (index : VfsNode → Nat) (held : Nat → Nat) (base : List Vma) (list : VmaList)
    (outcome : Bool × VmaList × Fs × A) : Prop :=
  Tracked index held base outcome.2.1 outcome.2.2.1 ∧ (outcome.1 = false → outcome.2.1 = list)

/-- What a part of a stored area maps is held. -/
theorem held_of_part {part : Vma} (stored : vma ∈ list.slots) (used : vma.used)
    (type : part.type = vma.type) (node : part.fileNode = vma.fileNode)
    (maps : mapsNode index i { part with used := true }) :
    (list.slots ++ base).countP (mapsNode index i) ≠ 0 := by
  have mapped : mapsNode index i vma := by
    rw [← maps]
    simp only [mapsNode, used, type, node]
  exact Nat.ne_of_gt (countP_pos_iff.mpr ⟨vma, mem_append_left _ stored, mapped⟩)

/-- The common body of `vma_remove` and `vma_protect`, whose parts map what their area maps. -/
theorem Tracked.rebuild (parts : Vma → List Vma)
    (same : ∀ vma part, part ∈ parts vma → part.type = vma.type ∧ part.fileNode = vma.fileNode)
    (room : Room held (list.slots ++ base)) (tracked : Tracked index held base list fs) :
    CallKeeps index held base list
      (Mm.rebuild (ramfsVmaHost index chunkAlloc chunkFree) parts list (fs, a)) := by
  have rule : ListRule (ramfsVmaHost index chunkAlloc chunkFree) _ fun next between =>
      Tracked index held (list.slots ++ base) next between.1 := tracked_rule room
  have empty : Tracked index held (list.slots ++ base) .init fs := ⟨tracked.counted, Nat.zero_le _⟩
  obtain ⟨next, between, built, done | failed⟩ := rule.rebuild parts list (fs, a)
    (fun vma stored used part member i maps => held_of_part stored used (same vma part member).1
      (same vma part member).2 maps) empty
  · rw [done]
    refine ⟨⟨.vmaListDestroy (built.counted.congr fun i p _ => ?_), built.chunks⟩, nofun⟩
    simp only [countP_append]
    omega
  · rw [failed]
    exact ⟨⟨.vmaListDestroy built.counted, tracked.chunks⟩, fun _ => rfl⟩

/-- Every outcome of an insertion: nothing, or one more area that is counted. -/
theorem Tracked.insertion {new : Vma} {retain : Fs × A → Fs × A}
    {outcome : Bool × VmaList × Fs × A} (room : Room held base)
    (tracked : Tracked index held base list fs)
    (inserted : Insertion (ramfsVmaHost index chunkAlloc chunkFree) list (fs, a) new retain outcome)
    (store : ∀ {next : VmaList} {slot : Nat} {old : Vma} {b : A}, Tracked index held base next fs →
      next.slots[slot]? = some old → old.used = false →
        Tracked index held base (next.setSlot slot new) (retain (fs, b)).1) :
    CallKeeps index held base list outcome := by
  constructor
  · apply inserted.keeps (tracked_rule room) tracked
    intro slot next between allocated now
    obtain ⟨⟨old, stored, unused⟩, idle⟩ := allocSlot_cases allocated
    have same : between.1 = fs := by
      rcases idle with ⟨-, rfl⟩ | ⟨pa, -, taken, -⟩
      · rfl
      · exact chunkAlloc_fst taken
    subst same
    exact store now stored unused
  · cases inserted with
    | refused => exact fun _ => rfl
    | done => exact nofun

/-! ## Every call -/

/-- A ramfs node that is given to the call is an entry in use. -/
def NamesLive (index : VfsNode → Nat) (fs : Fs) : VmaOp → Prop
  | .insertFile _ _ _ _ (some node) _ _ _ =>
    node.backend = .ramfs → (fs.node (index node)).used = true
  | _ => True

/-- No counter differs. -/
def SameCounters (before after : Fs) : Prop :=
  ∀ i, (after.node i).refs = (before.node i).refs ∧
    (after.node i).sharedWriteMappings = (before.node i).sharedWriteMappings

/-- Counters that are right are equal. -/
theorem Tracked.sameCounters {before after : Fs} (first : Tracked index held base list before)
    (second : Tracked index held base list after) : SameCounters before after := by
  intro i
  rw [first.counted.refs, second.counted.refs, first.counted.shared, second.counted.shared]
  exact ⟨rfl, rfl⟩

/-- Each call of the list keeps the counters right, and a failing one leaves them. -/
theorem Tracked.apply (room : Room held (list.slots ++ base))
    (tracked : Tracked index held base list fs) (op : VmaOp) (live : NamesLive index fs op) :
    CallKeeps index held base list
      (op.apply (ramfsVmaHost index chunkAlloc chunkFree) list (fs, a)) := by
  have room' : Room held base := by
    intro i
    have bound := room i
    rw [length_append] at bound
    omega
  cases op with
  | insert start stop prot flags type =>
    apply tracked.insertion room' (vmaInsert_cases _ list start stop prot flags type (fs, a))
    intro next slot old b now stored unused
    -- The area has no node, so that storing it is not counted.
    refine ⟨now.counted.congr fun i p counter => ?_, now.chunks⟩
    rw [splits_setSlot _ stored unused i p counter]
    rcases counter with rfl | rfl <;> simp [sharesNode, mapsNode, Vma.zero, VfsNode.zero]
  | insertFile start stop prot flags node fileStart fileOffset fileSize =>
    cases node with
    | none => exact ⟨tracked, fun _ => rfl⟩
    | some node =>
      apply tracked.insertion room' (vmaInsertFile_cases _ list start stop prot flags node fileStart
        fileOffset fileSize (fs, a))
      intro next slot old b now stored unused
      apply now.fill room' stored unused rfl
      intro i maps
      obtain ⟨ramfs, rfl⟩ : node.backend = .ramfs ∧ index node = i := by
        simpa [mapsNode, fileArea] using maps
      exact live ramfs
  | remove start stop =>
    simp only [VmaOp.apply, vmaRemove]
    split
    · exact ⟨tracked, fun _ => rfl⟩
    apply tracked.rebuild _ _ room
    intro vma part member
    unfold removeParts at member
    grind
  | protect start stop prot =>
    simp only [VmaOp.apply, vmaProtect]
    split
    · exact ⟨tracked, fun _ => rfl⟩
    apply tracked.rebuild _ _ room
    intro vma part member
    unfold protectParts at member
    grind

/-- A ramfs with the given entries and no pages. -/
def bareFs (nodes : List MemNode) : Fs := ⟨nodes, 0, [], 0, none, []⟩

/-- Map the first page of the entry with number 0, shared and writable. -/
def mapFirst : VmaOp :=
  .insertFile 0 4096 vmmUserWrite mapShared (some ⟨.ramfs, 0, false, .none, 0, 0⟩) 0 0 0

/-- Chunks that are always there. -/
def sampleVmaHost : VmaHost (Fs × Unit) :=
  ramfsVmaHost VfsNode.ino (fun _ => some (4096, ())) fun _ _ => ()

/-- Without areas and references all counters are zero. -/
theorem tracked_bareFs {nodes : List MemNode} (fresh : ∀ node ∈ nodes, node.refs = 0 ∧
    node.sharedWriteMappings = 0) : Tracked VfsNode.ino (fun _ => 0) [] .init (bareFs nodes) := by
  have zero : ∀ i, ((bareFs nodes).node i).refs = 0 ∧
      ((bareFs nodes).node i).sharedWriteMappings = 0 := by
    intro i
    rw [node, getD_eq_getElem?_getD]
    cases found : (bareFs nodes).nodes[i]? with
    | none => exact ⟨rfl, rfl⟩
    | some node => exact fresh node (mem_of_getElem? found)
  exact ⟨⟨fun i => (zero i).1, fun i => (zero i).2, fun i held => absurd (zero i).1 held⟩,
    Nat.zero_le _⟩

end Spore.Ramfs
