import Mathlib.Data.List.Basic
import Mathlib.Algebra.Ring.Nat

/-!
# The block cache of the ext2 driver (`ext2.c`)

Thirty-two entries keep blocks of all mounted volumes. A written block stays in its entry until
the entry is needed for another one or the volume is flushed. A device may fail any transfer:
a read that fails leaves some bytes in the buffer it was given, a write that fails leaves the
device alone. What the next transfers do is read from a list, and transfers beyond its end
succeed.
-/

namespace Spore.Ext2

/-- `BLOCK_CACHE_ENTRIES`. -/
def blockCacheEntries : Nat := 32

/-- The fields of `struct ext2_fs` the cache reads, as `ext2_mount_rw` sets them. -/
structure Volume where
  /-- Bytes of a block. -/
  blockSize : Nat
  /-- The number of blocks. -/
  blockCount : Nat
  /-- Whether there is a `write` function. -/
  writable : Bool
  /-- `1024u << sb.log_block_size` with `log_block_size <= 2`. -/
  sizes : blockSize = 1024 ∨ blockSize = 2048 ∨ blockSize = 4096
  /-- The count is a 32-bit number. -/
  bounded : blockCount < 2 ^ 32

/-- A volume of 64 blocks. -/
def smallVolume : Volume := ⟨1024, 64, true, .inl rfl, by decide⟩

/-- `struct block_cache_entry`. -/
structure CacheEntry (Block : Type) where
  /-- Whether it holds a block. -/
  valid : Bool
  /-- Whether the device lags behind. -/
  dirty : Bool
  /-- The volume of the block; none for `NULL`. -/
  fs : Option Nat
  /-- The block. -/
  block : Nat
  /-- The time of its last use. -/
  age : Nat
  /-- The bytes. -/
  data : Block

/-- An entry of the zeroed table. -/
def CacheEntry.clear {Block : Type} [Inhabited Block] : CacheEntry Block :=
  ⟨false, false, none, 0, 0, default⟩

/-- The cache and the devices below it. -/
structure Disk (Block : Type) where
  /-- The cache. -/
  cache : List (CacheEntry Block)
  /-- `block_cache_clock`. -/
  clock : Nat
  /-- The blocks of each volume's device. -/
  device : Nat → Nat → Block
  /-- What the next transfers do: fail, with the bytes a read leaves behind, or succeed. -/
  faults : List (Option Block)

namespace Disk

variable {Block : Type} [Inhabited Block]

/-- `block_cache[i]`. -/
def entry (d : Disk Block) (i : Nat) : CacheEntry Block := d.cache.getD i .clear

/-- Change one entry. -/
def setEntry (d : Disk Block) (i : Nat) (change : CacheEntry Block → CacheEntry Block) :
    Disk Block :=
  { d with cache := d.cache.modify i change }

/-- The transfers a call will see. -/
def withFaults (d : Disk Block) (faults : List (Option Block)) : Disk Block :=
  { d with faults := faults }

/-- One transfer: what it leaves behind when it fails. -/
def transfer (d : Disk Block) : Option Block × Disk Block :=
  match d.faults with
  | [] => (none, d)
  | fault :: rest => (fault, d.withFaults rest)

/-- The devices after consecutive blocks of one of them were written. -/
def stored (device : Nat → Nat → Block) (fs first : Nat) (blocks : List Block) :
    Nat → Nat → Block :=
  fun v b => if v = fs ∧ first ≤ b then (blocks[b - first]?).getD (device v b) else device v b

/-- `fs->write` of whole blocks. -/
def deviceWrite (d : Disk Block) (fs first : Nat) (blocks : List Block) : Bool × Disk Block :=
  match d.transfer with
  | (some _, d) => (false, d)
  | (none, d) => (true, { d with device := stored d.device fs first blocks })

/-- A dirty entry is written to its device. -/
def cacheFlushEntry (vols : Nat → Volume) (d : Disk Block) (i : Nat) : Bool × Disk Block :=
  if !(d.entry i).valid || !(d.entry i).dirty then (true, d)
  else
    match (d.entry i).fs with
    | none => (false, d)
    | some fs =>
      if !(vols fs).writable then (false, d)
      else
        match d.deviceWrite fs (d.entry i).block [(d.entry i).data] with
        | (false, d) => (false, d)
        | (true, d) => (true, d.setEntry i fun entry => { entry with dirty := false })

/-- One round of `ext2_flush`. -/
def flushRound (vols : Nat → Volume) (fs : Nat) (state : Bool × Disk Block) (i : Nat) :
    Bool × Disk Block :=
  if (state.2.entry i).fs = some fs then
    match cacheFlushEntry vols state.2 i with
    | (true, d) => (state.1, d)
    | (false, d) => (false, d)
  else state

/-- All entries of the volume are. -/
def ext2Flush (vols : Nat → Volume) (d : Disk Block) (fs : Nat) : Bool × Disk Block :=
  (List.range blockCacheEntries).foldl (flushRound vols fs) (true, d)

/-- The entry of a block. -/
def cacheFind (d : Disk Block) (fs block : Nat) : Option Nat :=
  d.cache.findIdx? fun entry =>
    entry.valid && decide (entry.fs = some fs) && decide (entry.block = block)

/-- The entry the scan of `cache_victim` ends with when every entry is valid: the first of the
oldest. -/
def oldest (d : Disk Block) : Nat :=
  (List.range blockCacheEntries).foldl
    (fun victim i => if (d.entry i).age < (d.entry victim).age then i else victim) 0

/-- `cache_victim`: the first entry that is not valid, or the oldest one, written back. -/
def cacheVictim (vols : Nat → Volume) (d : Disk Block) : Option Nat × Disk Block :=
  match d.cache.findIdx? fun entry => !entry.valid with
  | some i => (some i, d)
  | none =>
    match cacheFlushEntry vols d d.oldest with
    | (false, d) => (none, d)
    | (true, d') => (some d.oldest, d')

/-- `entry->age = ++block_cache_clock`. -/
def touch (d : Disk Block) (i : Nat) : Disk Block :=
  { d.setEntry i fun entry => { entry with age := d.clock + 1 } with clock := d.clock + 1 }

/-- The entry of a block that was written directly. -/
def cacheUpdateClean (d : Disk Block) (fs block : Nat) (src : Block) : Disk Block :=
  match d.cacheFind fs block with
  | none => d
  | some i => (d.setEntry i fun entry => { entry with data := src, dirty := false }).touch i

/-- The part of `read_block` behind a miss that reads the block into the victim. -/
def fillEntry (d : Disk Block) (fs block i : Nat) : Option Block × Disk Block :=
  match d.transfer with
  | (some junk, d) => (none, d.setEntry i fun entry => { entry with data := junk })
  | (none, d) =>
    (some (d.device fs block),
      (d.setEntry i fun entry =>
        { entry with valid := true, dirty := false, fs := some fs, block := block,
                     data := d.device fs block }).touch i)

/-- `read_block`: the bytes it copies out. -/
def readBlock (vols : Nat → Volume) (d : Disk Block) (fs block : Nat) :
    Option Block × Disk Block :=
  if (vols fs).blockCount ≤ block then (none, d)
  else
    match d.cacheFind fs block with
    | some i => (some (d.entry i).data, d.touch i)
    | none =>
      match cacheVictim vols d with
      | (none, d) => (none, d)
      | (some i, d) => d.fillEntry fs block i

/-- The part of `write_block` that stores the bytes in the entry. -/
def fillWritten (d : Disk Block) (fs block i : Nat) (src : Block) : Disk Block :=
  (d.setEntry i fun entry =>
    { entry with valid := true, dirty := true, fs := some fs, block := block,
                 data := src }).touch i

/-- The block is written to the cache. -/
def writeBlock (vols : Nat → Volume) (d : Disk Block) (fs block : Nat) (src : Block) :
    Bool × Disk Block :=
  if (vols fs).blockCount ≤ block ∨ !(vols fs).writable then (false, d)
  else
    match d.cacheFind fs block with
    | some i => (true, d.fillWritten fs block i src)
    | none =>
      match cacheVictim vols d with
      | (none, d) => (false, d)
      | (some i, d) => (true, d.fillWritten fs block i src)

/-- The blocks covered by `uint32_t bytes = block_count * fs->block_size`. -/
def transferred (vol : Volume) (count : Nat) : Nat :=
  (count * vol.blockSize % 2 ^ 32) / vol.blockSize

/-- `write_blocks_direct`. The device is addressed with 64 bits, the cache with 32. -/
def writeBlocksDirect (vols : Nat → Volume) (d : Disk Block) (fs first : Nat)
    (src : List Block) : Bool × Disk Block :=
  if src = [] then (true, d)
  else
    match d.deviceWrite fs first (src.take (transferred (vols fs) src.length)) with
    | (false, d) => (false, d)
    | (true, d) =>
      (true, (List.range src.length).foldl
        (fun d i => d.cacheUpdateClean fs ((first + i) % 2 ^ 32) (src.getD i default)) d)

/-- The cache before any volume was used. -/
def start (device : Nat → Nat → Block) : Disk Block :=
  ⟨List.replicate blockCacheEntries .clear, 0, device, []⟩

end Disk

end Spore.Ext2
