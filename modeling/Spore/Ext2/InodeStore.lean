import Spore.Lib.Chain
import Spore.Lib.Run
import Mathlib.Logic.Function.Basic
import Mathlib.Algebra.Ring.Nat

/-!
# The ext2plus inode store (`ext2.c`)

Inodes beyond the static table are records of the file `/.spore-inodes`. Its header is cached in
`struct ext2_fs`, and free records are linked through their first block word. What the file
operations of a call answer comes with the call; a record whose write fails may hold anything.
-/

namespace Spore.Ext2

open Spore.Lib List

/-- `EXT2PLUS_FREE_NONE`, which is `UINT32_MAX`. -/
def freeNone : Nat := 2 ^ 32 - 1

/-- What the store reads of `struct ext2_fs` beside the header. -/
structure StoreVolume where
  /-- Bytes of a block. -/
  blockSize : Nat
  /-- Bytes of an inode. -/
  inodeSize : Nat
  /-- Inodes of the volume itself. -/
  inodeCount : Nat
  /-- The first number of the store. -/
  baseIno : Nat
  /-- It fits a word. -/
  based : baseIno < 2 ^ 32

/-- The inode number of a record. -/
def StoreVolume.number (v : StoreVolume) (index : Nat) : Nat := (v.baseIno + index) % 2 ^ 32

/-- The cached fields of `struct ext2plus_header`, and the first block word of each record. -/
structure InodeStore where
  /-- How many inodes it can have. -/
  capacity : Nat
  /-- How many it has had. -/
  nextIndex : Nat
  /-- The first free one. -/
  freeHead : Nat
  /-- How many are free. -/
  freeCount : Nat
  /-- By how many it grows. -/
  chunkSize : Nat
  /-- Inodes used outside it. -/
  staticInodesUsed : Nat
  /-- The next free one of each. -/
  link : Nat → Nat

/-- What the file operations of one call answer. -/
structure StoreIo where
  /-- Reading succeeds. -/
  read : Bool
  /-- Growing succeeds. -/
  truncate : Bool
  /-- Writing an inode succeeds. -/
  record : Bool
  /-- Writing the header succeeds. -/
  header : Bool
  /-- The word that a failed write of a record leaves. -/
  junk : Nat

namespace InodeStore

variable (v : StoreVolume) (io : StoreIo) (s : InodeStore)

/-- `ext2plus_header_valid`, for a header that `ext2plus_load_header` made. -/
def HeaderValid : Prop :=
  v.inodeCount < v.baseIno ∧ s.chunkSize ≠ 0 ∧ s.nextIndex ≤ s.capacity ∧
    (s.freeHead = freeNone ∨ s.freeHead < s.capacity) ∧ s.freeCount ≤ s.capacity ∧
    s.staticInodesUsed ≤ 64
  deriving Decidable

/-- `ext2plus_write_header`. -/
def writeHeader (hdr : InodeStore) : Bool × InodeStore :=
  if hdr.HeaderValid v ∧ io.header = true then (true, hdr) else (false, s)

/-- The branch of `ext2plus_alloc_inode` that takes the head of the free list. -/
def takeFree : Option (Nat × InodeStore) :=
  if 256 < v.inodeSize ∨ io.read = false then none
  else if s.link s.freeHead ≠ freeNone ∧ s.capacity ≤ s.link s.freeHead then none
  else some (s.freeHead,
    { s with freeHead := s.link s.freeHead, freeCount := s.freeCount - 1 })

/-- The branch that takes a record never used, and lets the store grow when there is none. -/
def takeNew : Option (Nat × InodeStore) :=
  let taken := { s with nextIndex := s.nextIndex + 1 }
  if s.nextIndex < s.capacity then some (s.nextIndex, taken)
  else if freeNone - s.capacity < s.chunkSize then none
  else if freeNone < v.blockSize + (s.capacity + s.chunkSize) * v.inodeSize then none
  else if io.truncate = false then none
  else some (s.nextIndex, { taken with capacity := s.capacity + s.chunkSize })

/-- The first free inode, or a new one at the end. -/
def ext2plusAllocInode : Option Nat × InodeStore :=
  if ¬ s.HeaderValid v then (none, s)
  else match if s.freeHead ≠ freeNone then s.takeFree v io else s.takeNew v io with
    | none => (none, s)
    | some (index, hdr) =>
      let written := s.writeHeader v io hdr
      (if written.1 then some (v.number index) else none, written.2)

/-- The inode goes to the front of the free list. -/
def ext2plusFreeInode (ino : Nat) : Bool × InodeStore :=
  let index := ino - v.baseIno
  if ino < v.baseIno ∨ ¬ s.HeaderValid v ∨ s.nextIndex ≤ index ∨ s.capacity ≤ index ∨
    256 < v.inodeSize then (false, s)
  else if io.record = false then
    (false, { s with link := Function.update s.link index io.junk })
  else
    let s := { s with link := Function.update s.link index s.freeHead }
    s.writeHeader v io { s with
      freeHead := index
      freeCount := if s.freeCount ≠ freeNone then s.freeCount + 1 else s.freeCount }

/-- `ext2plus_write_inode`, with the first block of the node. -/
def ext2plusWriteInode (ino word : Nat) : Bool × InodeStore :=
  let index := ino - v.baseIno
  if ino < v.baseIno ∨ ¬ s.HeaderValid v ∨ s.capacity ≤ index then (false, s)
  else (io.record,
    { s with link := Function.update s.link index (if io.record then word else io.junk) })

/-- The record a word names. -/
def linked (word : Nat) : Option Nat := if word = freeNone then none else some word

/-- The store that `ext2plus_mount_init` makes. -/
def blank : InodeStore := ⟨0, 0, freeNone, 0, 256, 0, fun _ => 0⟩

end InodeStore

open InodeStore

/-- A store with the inode numbers that were handed out and not given back. -/
structure StoreRun where
  /-- The store. -/
  store : InodeStore
  /-- The numbers in use. -/
  taken : List Nat

/-- The calls on the store, each with what the device does. -/
inductive StoreOp where
  | alloc (io : StoreIo)
  | free (ino : Nat) (io : StoreIo)
  | write (ino word : Nat) (io : StoreIo)

/-- One call. -/
def StoreRun.step (v : StoreVolume) (r : StoreRun) : StoreOp → StoreRun
  | .alloc io =>
    ⟨(r.store.ext2plusAllocInode v io).2, (r.store.ext2plusAllocInode v io).1.toList ++ r.taken⟩
  | .free ino io =>
    ⟨(r.store.ext2plusFreeInode v io ino).2,
      if (r.store.ext2plusFreeInode v io ino).1 then r.taken.erase ino else r.taken⟩
  | .write ino word io => ⟨(r.store.ext2plusWriteInode v io ino word).2, r.taken⟩

/-- The free list ends, is as long as recorded, and names no inode in use. -/
structure StoreSound (v : StoreVolume) (r : StoreRun) : Prop where
  /-- The free list has what is not in use. -/
  list : ∃ free : List Nat,
    Chain (fun i => linked (r.store.link i)) (linked r.store.freeHead) free ∧
    free.Nodup ∧ free.length = r.store.freeCount ∧
    ∀ i ∈ free, i < r.store.nextIndex ∧ v.number i ∉ r.taken
  /-- No number is used twice. -/
  once : r.taken.Nodup
  /-- Numbers in use are those of inodes. -/
  known : ∀ ino ∈ r.taken, ∃ i < r.store.nextIndex, ino = v.number i
  /-- The store has room. -/
  room : r.store.nextIndex ≤ r.store.capacity
  /-- Indices are below the mark. -/
  bounded : r.store.capacity ≤ freeNone

/-- Only inodes in use are given back or written. -/
def Proper (r : StoreRun) : StoreOp → Prop
  | .alloc _ => True
  | .free ino _ => ino ∈ r.taken
  | .write ino _ _ => ino ∈ r.taken

instance (r : StoreRun) : (op : StoreOp) → Decidable (Proper r op)
  | .alloc _ => .isTrue trivial
  | .free .. | .write .. => inferInstanceAs (Decidable (_ ∈ _))

/-- An allocation hands out no number that is in use. -/
def Fresh (v : StoreVolume) (r : StoreRun) : StoreOp → Prop
  | .alloc io => ∀ ino, (r.store.ext2plusAllocInode v io).1 = some ino → ino ∉ r.taken
  | _ => True

section

variable {v : StoreVolume} {io : StoreIo} {r : StoreRun} {ino index i : Nat} {hdr : InodeStore}

/-- Indices below the mark have different numbers. -/
theorem number_inj (first : i ≤ freeNone) (second : index ≤ freeNone)
    (same : v.number i = v.number index) : i = index := by
  unfold StoreVolume.number freeNone at *
  omega

section

variable (sound : StoreSound v r)
include sound

/-- A record in use is known by its number. -/
theorem StoreSound.record (used : ino ∈ r.taken) (high : ¬ ino < v.baseIno) :
    v.number (ino - v.baseIno) = ino ∧ ino - v.baseIno < r.store.nextIndex := by
  obtain ⟨i, below, rfl⟩ := sound.known ino used
  have bounded := sound.bounded
  unfold StoreVolume.number freeNone at *
  omega

/-- The record of an inode in use may be written. -/
theorem StoreSound.relink (used : v.number index ∈ r.taken) (word : Nat) :
    StoreSound v ⟨{ r.store with link := Function.update r.store.link index word }, r.taken⟩ := by
  obtain ⟨free, chain, nodup, length, apart⟩ := sound.list
  refine ⟨⟨free, chain.congr fun i listed => ?_, nodup, length, apart⟩, sound.once, sound.known,
    sound.room, sound.bounded⟩
  have other : i ≠ index := fun same => (apart i listed).2 (same ▸ used)
  dsimp only
  rw [Function.update_of_ne other]

/-- The slot an allocation chooses is not in use, and a valid header suits the inodes in use
with it. -/
theorem StoreSound.take (chosen : (if r.store.freeHead ≠ freeNone then r.store.takeFree v io
      else r.store.takeNew v io) = some (index, hdr)) (valid : hdr.HeaderValid v) :
    v.number index ∉ r.taken ∧ StoreSound v ⟨hdr, v.number index :: r.taken⟩ := by
  obtain ⟨free, chain, nodup, length, apart⟩ := sound.list
  have room := sound.room
  have bounded := sound.bounded
  -- What the two branches have in common: a slot that is new to both lists.
  suffices ∃ rest, v.number index ∉ r.taken ∧ index < hdr.nextIndex ∧ hdr.capacity ≤ freeNone ∧
      r.store.nextIndex ≤ hdr.nextIndex ∧ index ∉ rest ∧ rest ⊆ free ∧ rest.Nodup ∧
      rest.length = hdr.freeCount ∧
      Chain (fun i => linked (hdr.link i)) (linked hdr.freeHead) rest by
    obtain ⟨rest, new, own, bounded', later, apart', part, nodup', length', chain'⟩ := this
    have top := valid.2.2.1
    refine ⟨new, ⟨rest, chain', nodup', length', fun i listed => ?_⟩,
      nodup_cons.mpr ⟨new, sound.once⟩, fun ino used => ?_, top, bounded'⟩
    · have inside := apart i (part listed)
      refine ⟨Nat.lt_of_lt_of_le inside.1 later, not_mem_cons_of_ne_of_not_mem ?_ inside.2⟩
      intro same
      exact apart' (number_inj (by omega) (by omega) same ▸ listed)
    · rcases mem_cons.mp used with rfl | used
      · exact ⟨_, own, rfl⟩
      · obtain ⟨i, below, same⟩ := sound.known ino used
        exact ⟨i, Nat.lt_of_lt_of_le below later, same⟩
  split at chosen
  · rename_i some_free
    unfold takeFree at chosen
    split at chosen
    · contradiction
    split at chosen
    · contradiction
    cases chosen
    cases free with
    | nil => simp [Lib.Chain, linked, some_free] at chain
    | cons head rest =>
      obtain ⟨first, behind⟩ := chain
      obtain rfl : r.store.freeHead = head := by simpa [linked, some_free] using first
      have own := apart _ (mem_cons_self ..)
      exact ⟨rest, own.2, own.1, bounded, Nat.le_refl _, (nodup_cons.mp nodup).1,
        subset_cons_self .., nodup.of_cons, by simp [← length], behind⟩
  · have grown : index = r.store.nextIndex ∧ hdr.nextIndex = index + 1 ∧ hdr.capacity ≤ freeNone ∧
        hdr.freeHead = r.store.freeHead ∧ hdr.freeCount = r.store.freeCount ∧
        hdr.link = r.store.link := by
      unfold takeNew at chosen
      grind
    obtain ⟨rfl, next, bounded', head, count, links⟩ := grown
    refine ⟨free, fun used => ?_, by omega, bounded', by omega, fun listed => ?_, fun _ => id,
      nodup, by rw [length, count], by rwa [head, links]⟩
    · obtain ⟨i, below, same⟩ := sound.known _ used
      exact absurd (number_inj (by omega) (by omega) same) (by omega)
    · exact absurd (apart _ listed).1 (Nat.lt_irrefl _)

/-- An allocated number is new. -/
theorem StoreSound.alloc : Fresh v r (.alloc io) ∧ StoreSound v (r.step v (.alloc io)) := by
  simp only [Fresh, StoreRun.step, ext2plusAllocInode]
  split
  · exact ⟨by simp, sound⟩
  split
  · exact ⟨by simp, sound⟩
  rename_i chosen
  simp only [writeHeader]
  split
  · rename_i written
    obtain ⟨unused, taken⟩ := sound.take chosen written.1
    exact ⟨fun ino same => Option.some.inj same ▸ unused, taken⟩
  · exact ⟨by simp, sound⟩

/-- A used number is freed. -/
theorem StoreSound.free (used : ino ∈ r.taken) : StoreSound v (r.step v (.free ino io)) := by
  simp only [StoreRun.step, ext2plusFreeInode]
  split
  · exact sound
  rename_i checked
  obtain ⟨same, below⟩ := sound.record used fun low => checked (.inl low)
  have kept := fun word => sound.relink (by rwa [same]) word
  split
  · exact kept _
  obtain ⟨free, chain, nodup, length, apart⟩ := (kept r.store.freeHead).list
  generalize ino - v.baseIno = own at same below kept chain ⊢
  have outside : own ∉ free := fun listed => (apart _ listed).2 (same ▸ used)
  have all : ∀ i ∈ own :: free, i < r.store.nextIndex := by
    intro i listed
    rcases mem_cons.mp listed with rfl | listed
    · exact below
    · exact (apart i listed).1
  have longer := length_le_of_nodup (nodup_cons.mpr ⟨outside, nodup⟩) all
  have room := sound.room
  have bounded := sound.bounded
  rw [length_cons] at longer
  dsimp only at length
  have head : linked own = some own := if_neg (by omega)
  rw [if_pos (by omega)]
  simp only [writeHeader]
  split
  · refine ⟨⟨own :: free, ⟨head, ?_⟩, nodup_cons.mpr ⟨outside, nodup⟩,
      by rw [length_cons, length], fun i listed => ⟨all i listed, fun left => ?_⟩⟩,
      sound.once.erase _,
      fun other left => sound.known other (mem_of_mem_erase left), room, bounded⟩
    · dsimp only
      rwa [Function.update_self]
    · rcases mem_cons.mp listed with rfl | listed
      · exact sound.once.not_mem_erase (same ▸ left)
      · exact (apart i listed).2 (mem_of_mem_erase left)
  · exact kept _

/-- A used inode is written. -/
theorem StoreSound.write (used : ino ∈ r.taken) (word : Nat) :
    StoreSound v (r.step v (.write ino word io)) := by
  simp only [StoreRun.step, ext2plusWriteInode]
  split
  · exact sound
  rename_i checked
  obtain ⟨same, below⟩ := sound.record used fun low => checked (.inl low)
  exact sound.relink (by rwa [same]) _

end

/-- A blank store is sound. -/
theorem storeSound_blank : StoreSound v ⟨blank, []⟩ :=
  ⟨⟨[], rfl, nodup_nil, rfl, by simp⟩, nodup_nil,
    (by simp), Nat.le_refl _, by decide⟩

/-- From a sound store, and along every run of allocations, frees and writes in which only
inodes in use are freed or written, the store stays sound, whichever writes fail, and no number
is handed out twice. -/
theorem ext2plus_free_list_sound (v : StoreVolume) {r : StoreRun} (sound : StoreSound v r)
    {ops : List StoreOp} (proper : EveryInput (StoreRun.step v) Proper r ops) :
    EveryState (StoreRun.step v) (StoreSound v) r ops ∧
      EveryInput (StoreRun.step v) (Fresh v) r ops := by
  have kept : ∀ r op, StoreSound v r → Proper r op → StoreSound v (r.step v op) := by
    intro r op sound proper
    cases op with
    | alloc io => exact sound.alloc.2
    | free ino io => exact sound.free proper
    | write ino word io => exact sound.write proper word
  refine ⟨everyState_of_everyInput kept sound proper,
    everyInput_of_everyInput kept (fun r op sound _ => ?_) sound proper⟩
  cases op with
  | alloc io => exact sound.alloc.1
  | _ => trivial

/-- File operations that all succeed, but for the header if so told. -/
def storeIo (header : Bool) : StoreIo := ⟨true, true, true, header, 0⟩

/-- A small volume. -/
def sampleVolume : StoreVolume := ⟨1024, 128, 64, 0x40000000, by decide⟩

/-- One inode is freed, the second time with success; the other is then handed out again. -/
def storeCalls : List StoreOp :=
  [.alloc (storeIo true), .alloc (storeIo true), .free sampleVolume.baseIno (storeIo false),
    .free sampleVolume.baseIno (storeIo true), .alloc (storeIo true)]

/-- The list stays sound in a run of each call. -/
theorem ext2plus_free_list_sound_sample :
    EveryInput (StoreRun.step sampleVolume) (Fresh sampleVolume) ⟨blank, []⟩ storeCalls :=
  (ext2plus_free_list_sound sampleVolume storeSound_blank (by decide)).2

/-- An inode that is freed twice is handed out twice. -/
theorem ext2plus_double_free :
    ([StoreOp.alloc (storeIo true), .free sampleVolume.baseIno (storeIo true),
      .free sampleVolume.baseIno (storeIo true),
      .alloc (storeIo true), .alloc (storeIo true)].foldl (StoreRun.step sampleVolume)
        ⟨blank, []⟩).taken = [sampleVolume.baseIno, sampleVolume.baseIno] := by
  decide

end

end Spore.Ext2
