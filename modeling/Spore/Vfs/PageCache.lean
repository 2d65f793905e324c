import Spore.Mm.Pmm

/-!
# The page cache (`vfs.c`)

Pages of regular files are kept in a table of entries. An entry is found through hash chains
that run through the table, and replaced by a hand that walks around it. The chains are
modelled as the source stores them: a head per bucket and a `hash_next` per entry, with
`VFS_PAGE_CACHE_NONE` as `none`. The table is taken as configured, with its buckets
initialised, and the direct map as present.
-/

namespace Spore

open Spore.Mm

/-- `struct vfs_page_cache_entry`. -/
structure PageCacheEntry where
  /-- Whether it holds a page. -/
  valid : Bool
  /-- The file system. -/
  backend : VfsBackend
  /-- The inode. -/
  ino : Nat
  /-- The device. -/
  devId : Nat
  /-- The offset in the file. -/
  off : Nat
  /-- The time of its last use. -/
  age : Nat
  /-- Physical address of the page. -/
  pa : Nat
  /-- Next entry of the chain. -/
  hashNext : Option Nat
  deriving Repr, DecidableEq, Inhabited

/-- A zeroed entry outside every chain. -/
def PageCacheEntry.clear : PageCacheEntry := ⟨false, .none, 0, 0, 0, 0, 0, none⟩

/-- The static state of the page cache. -/
structure PageCache where
  /-- `page_cache`; its length is `page_cache_capacity`. -/
  entries : List PageCacheEntry
  /-- `page_cache_buckets`; the length is `page_cache_bucket_count`. -/
  buckets : List (Option Nat)
  /-- The time. -/
  clock : Nat
  /-- Where eviction goes on. -/
  evictHand : Nat

/-- Physical memory with the page cache. -/
structure Store (F : Type) where
  /-- The physical pages. -/
  phys : Phys F
  /-- The page cache. -/
  cache : PageCache

/-- `VFS_READAHEAD_PAGES`. -/
def readaheadPages : Nat := 2

/-- Plain files of the two file systems. -/
def nodeCacheable (node : VfsNode) : Bool :=
  !node.isDir && decide (node.device = .none) &&
    (decide (node.backend = .ramfs) || decide (node.backend = .ext2))

/-- The number of a backend in `enum vfs_backend`. -/
def VfsBackend.number : VfsBackend → Nat
  | .none => 0
  | .ramfs => 1
  | .ext2 => 2
  | .proc => 3

/-- The start of the page that holds a file position. -/
def pageStart (off : Nat) : Nat := off - off % pageSize

namespace PageCache

/-- `page_cache_hash`. -/
def hash (cache : PageCache) (backend : VfsBackend) (ino devId off : Nat) : Nat :=
  let h : BitVec 64 := (BitVec.ofNat 64 backend.number * 0x9e3779b185ebca87) ^^^
    BitVec.ofNat 64 ino ^^^ (BitVec.ofNat 64 devId <<< 17) ^^^ (BitVec.ofNat 64 off >>> 12)
  let h := h ^^^ (h >>> 33)
  let h := h * 0xff51afd7ed558ccd
  let h := h ^^^ (h >>> 33)
  (h &&& BitVec.ofNat 64 (cache.buckets.length - 1)).toNat % 2 ^ 32

/-- `cache_key_eq`. -/
def keyEq (entry : PageCacheEntry) (node : VfsNode) (off : Nat) : Bool :=
  entry.valid && decide (entry.backend = node.backend) && decide (entry.ino = node.ino) &&
    decide (entry.devId = node.devId) && decide (entry.off = off)

/-- The chain walk of `page_cache_find`. A chain without a cycle is not longer than the
table. -/
def walk (cache : PageCache) (node : VfsNode) (off : Nat) : Nat → Option Nat → Option Nat
  | 0, _ => none
  | _ + 1, none => none
  | fuel + 1, some index =>
    match cache.entries[index]? with
    | none => none
    | some entry =>
      if keyEq entry node off then some index else walk cache node off fuel entry.hashNext

/-- Write an entry. -/
def modify (cache : PageCache) (index : Nat) (change : PageCacheEntry → PageCacheEntry) :
    PageCache :=
  { cache with entries := cache.entries.modify index change }

/-- `page_cache_find`, which also stamps the entry found. -/
def find (cache : PageCache) (node : VfsNode) (off : Nat) : Option Nat × PageCache :=
  let head := (cache.buckets[cache.hash node.backend node.ino node.devId off]?).join
  match cache.walk node off (cache.entries.length + 1) head with
  | none => (none, cache)
  | some index =>
    (some index,
      { cache.modify index (fun entry => { entry with age := cache.clock + 1 }) with
        clock := cache.clock + 1 })

/-- A place that stores a link of a chain. -/
inductive Link where
  | bucket (index : Nat)
  | after (index : Nat)

/-- `*slot`. -/
def Link.read (cache : PageCache) : Link → Option Nat
  | .bucket index => (cache.buckets[index]?).join
  | .after index => (cache.entries[index]?).bind (·.hashNext)

/-- Assignment to `*slot`. -/
def Link.write (cache : PageCache) (next : Option Nat) : Link → PageCache
  | .bucket index => { cache with buckets := cache.buckets.set index next }
  | .after index => cache.modify index fun entry => { entry with hashNext := next }

/-- The loop of `page_cache_unlink`. -/
def unlinkFrom (index : Nat) (cache : PageCache) : Nat → Link → PageCache
  | 0, _ => cache
  | fuel + 1, slot =>
    match slot.read cache with
    | none => cache
    | some current =>
      if current = index then slot.write cache ((Link.after current).read cache)
      else unlinkFrom index cache fuel (.after current)

/-- `page_cache_unlink`. -/
def unlink (cache : PageCache) (index : Nat) : PageCache :=
  match cache.entries[index]? with
  | none => cache
  | some entry =>
    if entry.valid = false then cache
    else
      let bucket := cache.hash entry.backend entry.ino entry.devId entry.off
      (unlinkFrom index cache (cache.entries.length + 1) (.bucket bucket)).modify index
        fun entry => { entry with hashNext := none }

/-- `page_cache_link`. -/
def link (cache : PageCache) (index : Nat) : PageCache :=
  match cache.entries[index]? with
  | none => cache
  | some entry =>
    let bucket := cache.hash entry.backend entry.ino entry.devId entry.off
    let linked := cache.modify index fun entry =>
      { entry with hashNext := (cache.buckets[bucket]?).join }
    { linked with buckets := linked.buckets.set bucket (some index) }

/-- The entry that the hand reaches after some steps. -/
def handAt (cache : PageCache) (steps : Nat) : Nat :=
  (cache.evictHand + steps) % 2 ^ 32 % cache.entries.length

/-- The hand one past an entry. -/
def handPast (cache : PageCache) (index : Nat) : Nat := (index + 1) % cache.entries.length

end PageCache

namespace Store

variable {F : Type}

/-- Whether an entry holds a page of a file. -/
def entryValid (store : Store F) (index : Nat) : Bool :=
  ((store.cache.entries[index]?).map (·.valid)).getD false

/-- Give the page of an entry back and zero the entry. -/
def dropEntry (store : Store F) (index : Nat) : Store F :=
  match store.cache.entries[index]? with
  | none => store
  | some entry =>
    { phys := if entry.valid ∧ entry.pa ≠ 0 then store.phys.freePage entry.pa else store.phys
      cache := store.cache.modify index fun _ => .clear }

/-- The page is freed and the entry leaves its bucket. -/
def pageCacheClear (store : Store F) (index : Nat) : Store F :=
  dropEntry { store with cache := store.cache.unlink index } index

/-- The loop of `page_cache_alloc_page` that evicts entries until a page is free. -/
def evictLoop : (remaining step : Nat) → Store F → Option Nat × Store F
  | 0, _, store => (none, store)
  | remaining + 1, step, store =>
    let index := store.cache.handAt step
    if store.entryValid index = false then evictLoop remaining (step + 1) store
    else
      let store := store.pageCacheClear index
      match store.phys.allocZeroPage with
      | none => evictLoop remaining (step + 1) store
      | some (pa, phys) =>
        (some pa, ⟨phys, { store.cache with evictHand := store.cache.handPast index }⟩)

/-- A free page; entries are evicted when there is none. -/
def pageCacheAllocPage (store : Store F) : Option Nat × Store F :=
  match store.phys.allocZeroPage with
  | some (pa, phys) => (some pa, { store with phys })
  | none => evictLoop store.cache.entries.length 0 store

/-- The search of `page_cache_victim` for an entry that is not valid. -/
def victimLoop : (remaining step : Nat) → Store F → Option (Nat × Store F)
  | 0, _, _ => none
  | remaining + 1, step, store =>
    let index := store.cache.handAt step
    if store.entryValid index = false then
      some (index, { store with
        cache := { store.cache with evictHand := store.cache.handPast index } })
    else victimLoop remaining (step + 1) store

/-- An invalid entry, or the one under the hand. -/
def pageCacheVictim (store : Store F) : Option (Nat × Store F) :=
  if store.cache.entries.length = 0 then none
  else match victimLoop store.cache.entries.length 0 store with
    | some found => some found
    | none =>
      let index := store.cache.evictHand % store.cache.entries.length
      let store := { store with
        cache := { store.cache with evictHand := (store.cache.evictHand + 1) % 2 ^ 32 } }
      some (index, store.pageCacheClear index)

/-- The entry that `page_cache_load` prepares. -/
def preparedEntry (node : VfsNode) (off age : Nat) (old : PageCacheEntry) : PageCacheEntry :=
  { old with
    valid := false
    backend := node.backend
    ino := node.ino
    devId := node.devId
    off
    age }

/-- How much of a page lies inside the file, by the size recorded in the node. -/
def readableBytes (node : VfsNode) (off : Nat) : Nat :=
  if off < node.size then min (node.size - off) pageSize else 0

section

variable (host : FileHost F)

/-- What `page_cache_load` reads of a page: the bytes inside the file. -/
def fetch (store : Store F) (node : VfsNode) (off : Nat) : List UInt8 × F :=
  if readableBytes node off = 0 then ([], store.phys.files)
  else host.readUncached node off (readableBytes node off) store.phys.files

/-- Put what was read at the start of a page. -/
def receive (store : Store F) (pa : Nat) (fetched : List UInt8 × F) : Store F :=
  { store with
    phys := { store.phys with
      bytes := fun p => if p = pa / pageSize then
          fun k => if k < fetched.1.length then fetched.1.getD k 0 else store.phys.bytes p k
        else store.phys.bytes p
      files := fetched.2 } }

/-- Make an entry visible. -/
def publish (store : Store F) (index : Nat) : Store F :=
  { store with
    cache := (store.cache.modify index fun entry => { entry with valid := true }).link index }

/-- The end of `page_cache_load`: fill the page from the file and make the entry visible. On a
short read the entry is cleared while it is not valid, so its page is not given back. -/
def fillEntry (store : Store F) (node : VfsNode) (off index pa : Nat) : Bool × Store F :=
  let fetched := store.fetch host node off
  let store := store.receive pa fetched
  if fetched.1.length ≠ readableBytes node off then (false, store.pageCacheClear index)
  else (true, store.publish index)

/-- The assignments of `page_cache_load` to a victim. -/
def prepare (store : Store F) (node : VfsNode) (off index : Nat) : Store F :=
  { store with
    cache := { store.cache.modify index (preparedEntry node off (store.cache.clock + 1)) with
      clock := store.cache.clock + 1 } }

/-- Record the page of an entry. -/
def setPa (store : Store F) (index pa : Nat) : Store F :=
  { store with cache := store.cache.modify index fun entry => { entry with pa } }

/-- `page_cache_load` after a victim was found. -/
def loadInto (store : Store F) (node : VfsNode) (off index : Nat) : Bool × Store F :=
  let taken := (store.prepare node off index).pageCacheAllocPage
  match taken.1 with
  | none => (false, (taken.2.setPa index 0).pageCacheClear index)
  | some pa => (taken.2.setPa index pa).fillEntry host node off index pa

/-- The page is there, or it is read into the victim. -/
def pageCacheLoad (store : Store F) (node : VfsNode) (off : Nat) : Bool × Store F :=
  if nodeCacheable node = false then (false, store)
  else
    let off := pageStart off
    let found := store.cache.find node off
    let store := { store with cache := found.2 }
    if found.1.isSome then (true, store)
    else match store.pageCacheVictim with
      | none => (false, store)
      | some (index, store) => store.loadInto host node off index

/-- The readahead loop of `vfs_read_page_cached` and `vfs_retain_page_cached`. -/
def readahead (node : VfsNode) (off : Nat) : (remaining step : Nat) → Store F → Store F
  | 0, _, store => store
  | remaining + 1, step, store =>
    let ahead := off + step * pageSize
    if node.size ≤ ahead then store
    else readahead node off remaining (step + 1) (store.pageCacheLoad host node ahead).2

/-- The common part of `vfs_read_page_cached` and `vfs_retain_page_cached`: bring the page in,
read ahead, and look the page up again. -/
def cachedPage (store : Store F) (node : VfsNode) (off : Nat) :
    Option PageCacheEntry × Store F :=
  if nodeCacheable node = false then (none, store)
  else
    let off := pageStart off
    let store := { store with cache := (store.cache.find node off).2 }
    let loaded := store.pageCacheLoad host node off
    if loaded.1 = false then (none, loaded.2)
    else
      let store := readahead host node off readaheadPages 1 loaded.2
      let found := store.cache.find node off
      ((found.1.bind fun index => found.2.entries[index]?), { store with cache := found.2 })

/-- `vfs_read_page_cached`: the page's bytes. -/
def vfsReadPageCached (store : Store F) (node : VfsNode) (off : Nat) :
    Option (Nat → UInt8) × Store F :=
  let found := store.cachedPage host node off
  (found.1.map fun entry => found.2.phys.bytes (entry.pa / pageSize), found.2)

/-- `vfs_retain_page_cached`: the page's address, with one reference more. -/
def vfsRetainPageCached (store : Store F) (node : VfsNode) (off : Nat) :
    Option Nat × Store F :=
  let found := store.cachedPage host node off
  match found.1 with
  | none => (none, found.2)
  | some entry =>
    if entry.pa = 0 then (none, found.2)
    else match found.2.phys.pmm.sharePage entry.pa with
      | none => (none, found.2)
      | some pmm =>
        (some entry.pa, { found.2 with phys := { found.2.phys with pmm } })

/-- Whether an entry holds a page of a node's file. -/
def entryOf (node : VfsNode) (entry : PageCacheEntry) : Bool :=
  entry.valid && decide (entry.backend = node.backend) && decide (entry.ino = node.ino) &&
    decide (entry.devId = node.devId)

/-- The loop of `vfs_page_cache_invalidate`. -/
def invalidateLoop (node : VfsNode) : (remaining index : Nat) → Store F → Store F
  | 0, _, store => store
  | remaining + 1, index, store =>
    let here := ((store.cache.entries[index]?).map (entryOf node)).getD false
    invalidateLoop node remaining (index + 1) (if here then store.pageCacheClear index else store)

/-- All entries of the node go. -/
def vfsPageCacheInvalidate (store : Store F) (node : VfsNode) : Store F :=
  invalidateLoop node store.cache.entries.length 0 store

/-- `vfs_write`, without the lookup cache and the clock. -/
def vfsWrite (store : Store F) (node : VfsNode) (off : Nat) (data : List UInt8) :
    Int × Store F :=
  if host.writeSealed node store.phys.files then (-1, store)
  else
    let store := store.vfsPageCacheInvalidate node
    if node.backend = .ext2 ∨ node.backend = .ramfs then
      let written := host.write node off data store.phys.files
      (written.1, { store with phys := store.phys.kernelPages written.2 })
    else (-28, store)

end

end Store

end Spore
