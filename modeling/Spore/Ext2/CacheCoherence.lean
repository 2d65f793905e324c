import Spore.Ext2.BlockCache
import Spore.Lib.Run
import Spore.Lib.Loop

/-!
# The block cache is transparent

`Coherent` relates the cache and the devices to the contents the successful writes have given
each block. Every call keeps it, except a miss in a full cache whose device read fails: the
bytes it leaves behind stand in an entry that goes on naming its old block.
-/

namespace Spore.Ext2

open Spore.Lib List

/-- What an entry says, apart from its age. -/
def CacheEntry.content {Block : Type} (entry : CacheEntry Block) :
    Bool × Bool × Option Nat × Nat × Block :=
  (entry.valid, entry.dirty, entry.fs, entry.block, entry.data)

namespace Disk

variable {Block : Type} [Inhabited Block] {vols : Nat → Volume} {d : Disk Block}
variable {after a : Disk Block} {fs i block first b v : Nat} {src : List Block}
  {latest newest : Nat → Nat → Block} {change : CacheEntry Block → CacheEntry Block}

/-- Which entry a change reaches. -/
theorem entry_setEntry (d : Disk Block) (i : Nat) (change : CacheEntry Block → CacheEntry Block)
    (j : Nat) : (d.setEntry i change).entry j =
      if j = i ∧ i < d.cache.length then change (d.entry i) else d.entry j := by
  unfold entry setEntry
  by_cases same : i = j
  · subst same
    by_cases inside : i < d.cache.length
    · simp [inside]
    · simp [inside]
  · have apart : ¬ j = i := fun h => same h.symm
    simp [same, apart]

/-- The entry that is changed. -/
theorem entry_setEntry_self
    (inside : i < d.cache.length) : (d.setEntry i change).entry i = change (d.entry i) := by
  rw [entry_setEntry, if_pos ⟨rfl, inside⟩]

/-- The others. -/
theorem entry_setEntry_ne {j : Nat}
    (apart : j ≠ i) : (d.setEntry i change).entry j = d.entry j := by
  rw [entry_setEntry, if_neg fun both => apart both.1]

/-- Entries are those of the cache. -/
theorem entry_of_cache (cache : after.cache = d.cache) (j : Nat) : after.entry j = d.entry j := by
  rw [entry, entry, cache]

/-- The entry is valid and holds the block. -/
def Holds (d : Disk Block) (i fs block : Nat) : Prop :=
  (d.entry i).valid = true ∧ (d.entry i).fs = some fs ∧ (d.entry i).block = block

/-- What holds a block is an entry. -/
theorem Holds.lt (holds : d.Holds i fs block) : i < d.cache.length := by
  by_contra outside
  have missing : d.cache[i]? = none := getElem?_eq_none (by omega)
  have valid := holds.1
  simp [entry, getD_eq_getElem?_getD, missing, CacheEntry.clear] at valid

/-- Blocks are held by the cache. -/
theorem holds_of_cache (cache : after.cache = d.cache) :
    after.Holds i fs block ↔ d.Holds i fs block := by
  rw [Holds, Holds, entry_of_cache cache]

/-- An entry holds one block. -/
theorem Holds.inj (one : d.Holds i v b) (two : d.Holds i fs block) : v = fs ∧ b = block :=
  ⟨Option.some.inj (one.2.1.symm.trans two.2.1), one.2.2.symm.trans two.2.2⟩

/-- What is found holds the block. -/
theorem cacheFind_some (found : d.cacheFind fs block = some i) : d.Holds i fs block := by
  obtain ⟨inside, here, -⟩ := findIdx?_eq_some_iff_getElem.mp found
  have same : d.cache[i] = d.entry i := by simp [entry, getD_eq_getElem?_getD, inside]
  rw [same] at here
  simpa [Holds, and_assoc] using here

/-- What is not found is not held. -/
theorem cacheFind_none (missing : d.cacheFind fs block = none) : ¬ d.Holds i fs block := by
  intro holds
  have inside := holds.lt
  have same : d.cache[i] = d.entry i := by simp [entry, getD_eq_getElem?_getD, inside]
  have passed := findIdx?_eq_none_iff.mp missing d.cache[i] (getElem_mem inside)
  rw [same] at passed
  obtain ⟨valid, volume, block⟩ := holds
  simp [valid, volume, block] at passed

/-- Each block has one entry at most, which holds its latest contents, and the device holds
them unless the entry is dirty. -/
structure Coherent (d : Disk Block) (latest : Nat → Nat → Block) : Prop where
  /-- The cache has its size. -/
  length : d.cache.length = blockCacheEntries
  /-- A block is held once. -/
  one : ∀ {i j fs block}, d.Holds i fs block → d.Holds j fs block → i = j
  /-- Entries hold the latest value. -/
  data : ∀ {i fs block}, d.Holds i fs block → (d.entry i).data = latest fs block
  /-- So does the device, dirty blocks apart. -/
  clean : ∀ {fs block}, (∀ i, d.Holds i fs block → (d.entry i).dirty = false) →
    d.device fs block = latest fs block

/-- Entries that differ in age only, over the same devices. -/
theorem Coherent.aged (coherent : d.Coherent latest)
    (length : after.cache.length = d.cache.length) (device : after.device = d.device)
    (entries : ∀ i, (after.entry i).content = (d.entry i).content) : after.Coherent latest := by
  simp only [CacheEntry.content, Prod.mk.injEq] at entries
  have holds : ∀ {i fs block}, after.Holds i fs block ↔ d.Holds i fs block := by
    intro i fs block
    simp only [Holds, entries i]
  refine ⟨length.trans coherent.length,
    fun first second => coherent.one (holds.mp first) (holds.mp second),
    fun {i _ _} held => ?_, fun {fs block} clean => ?_⟩
  · rw [(entries i).2.2.2.2]
    exact coherent.data (holds.mp held)
  rw [device]
  refine coherent.clean fun i held => ?_
  rw [← (entries i).2.1]
  exact clean i (holds.mpr held)

/-- The time of use is no content. -/
theorem content_touch (d : Disk Block) (i j : Nat) :
    ((d.touch i).entry j).content = (d.entry j).content := by
  have seen := entry_setEntry d i (fun entry => { entry with age := d.clock + 1 }) j
  show ((d.setEntry i fun entry => { entry with age := d.clock + 1 }).entry j).content = _
  rw [seen]
  split
  · rename_i here
    rw [here.1]
    rfl
  · rfl

/-- It does not matter for coherence. -/
theorem Coherent.touch (coherent : d.Coherent latest) (i : Nat) : (d.touch i).Coherent latest :=
  coherent.aged (length_modify ..) rfl (content_touch d i)

/-- One entry takes a block that no other entry holds. What it held before is on the device, or
is the same block. -/
theorem Coherent.replace (coherent : d.Coherent latest)
    (length : after.cache.length = d.cache.length) (device : after.device = d.device)
    (others : ∀ j, j ≠ i → after.entry j = d.entry j) (held : after.Holds i fs block)
    (alone : ∀ j, j ≠ i → ¬ d.Holds j fs block)
    (released : (d.entry i).valid = false ∨ (d.entry i).dirty = false ∨ d.Holds i fs block)
    (data : (after.entry i).data = newest fs block)
    (elsewhere : ∀ {v b}, ¬ (v = fs ∧ b = block) → newest v b = latest v b)
    (clean : (after.entry i).dirty = false → d.device fs block = newest fs block) :
    after.Coherent newest := by
  have still : ∀ {j v b}, j ≠ i → (after.Holds j v b ↔ d.Holds j v b) := by
    intro j v b apart
    rw [Holds, others j apart, Holds]
  have own : ∀ {j v b}, j ≠ i → d.Holds j v b → ¬ (v = fs ∧ b = block) := by
    rintro j v b apart holds ⟨rfl, rfl⟩
    exact alone j apart holds
  refine ⟨length.trans coherent.length, fun {j k v b} first second => ?_,
    fun {j v b} holds => ?_, fun {v b} allClean => ?_⟩
  · by_cases hereJ : j = i <;> by_cases hereK : k = i
    · rw [hereJ, hereK]
    · rw [hereJ] at first
      exact absurd (first.inj held) (own hereK ((still hereK).mp second))
    · rw [hereK] at second
      exact absurd (second.inj held) (own hereJ ((still hereJ).mp first))
    · exact coherent.one ((still hereJ).mp first) ((still hereK).mp second)
  · by_cases here : j = i
    · rw [here] at holds ⊢
      obtain ⟨rfl, rfl⟩ := holds.inj held
      exact data
    · have before := (still here).mp holds
      rw [others j here, elsewhere (own here before)]
      exact coherent.data before
  rw [device]
  by_cases here : v = fs ∧ b = block
  · obtain ⟨rfl, rfl⟩ := here
    exact clean (allClean i held)
  rw [elsewhere here]
  refine coherent.clean fun j holds => ?_
  by_cases same : j = i
  · rw [same] at holds ⊢
    rcases released with invalid | written | again
    · rw [holds.1] at invalid
      cases invalid
    · exact written
    · exact absurd (holds.inj again) here
  · have after := allClean j ((still same).mpr holds)
    rwa [others j same] at after

/-- An entry is filled in place with such a block. -/
theorem Coherent.refill (coherent : d.Coherent latest) (inside : i < d.cache.length)
    (alone : ∀ j, j ≠ i → ¬ d.Holds j fs block)
    (released : (d.entry i).valid = false ∨ (d.entry i).dirty = false ∨ d.Holds i fs block)
    (filled : (change (d.entry i)).valid = true ∧ (change (d.entry i)).fs = some fs ∧
      (change (d.entry i)).block = block)
    (data : (change (d.entry i)).data = newest fs block)
    (elsewhere : ∀ {v b}, ¬ (v = fs ∧ b = block) → newest v b = latest v b)
    (clean : (change (d.entry i)).dirty = false → d.device fs block = newest fs block) :
    (d.setEntry i change).Coherent newest := by
  have own := (entry_setEntry_self inside : (d.setEntry i change).entry i = _)
  refine coherent.replace (length_modify ..) rfl (fun _ => entry_setEntry_ne) ?_ alone
    released ?_ elsewhere ?_
  · rwa [Holds, own]
  · rwa [own]
  · rwa [own]

/-! ## Writing back -/

omit [Inhabited Block] in
/-- A transfer changes the outcomes that are to come only. -/
theorem transfer_keeps (d : Disk Block) :
    d.transfer.2.cache = d.cache ∧ d.transfer.2.device = d.device ∧
      d.transfer.2.clock = d.clock := by
  unfold transfer
  split <;> exact ⟨rfl, rfl, rfl⟩

omit [Inhabited Block] in
/-- A block inside the range is replaced. -/
theorem stored_inside (device : Nat → Nat → Block) (low : first ≤ b)
    (high : b < first + src.length) :
    stored device fs first src fs b = src.get ⟨b - first, by omega⟩ := by
  rw [stored, if_pos ⟨rfl, low⟩, getElem?_eq_getElem (by omega)]
  rfl

omit [Inhabited Block] in
/-- The others stay. -/
theorem stored_outside (device : Nat → Nat → Block)
    (away : ¬ (v = fs ∧ first ≤ b ∧ b < first + src.length)) :
    stored device fs first src v b = device v b := by
  unfold stored
  split
  · rename_i range
    rw [getElem?_eq_none (by omega)]
    rfl
  · rfl

/-- What writing entries back does: no entry but its dirty mark changes, and marks are only
taken off. -/
structure Flushes (before after : Disk Block) (latest : Nat → Nat → Block) : Prop where
  /-- The cache stays coherent. -/
  coherent : after.Coherent latest
  /-- It keeps its size. -/
  length : after.cache.length = before.cache.length
  /-- Entries keep their blocks. -/
  fields : ∀ j, (after.entry j).valid = (before.entry j).valid ∧
    (after.entry j).fs = (before.entry j).fs ∧ (after.entry j).block = (before.entry j).block
  /-- No entry gets dirty. -/
  marks : ∀ j, (after.entry j).dirty = true → (before.entry j).dirty = true

/-- Flushes one after the other. -/
theorem Flushes.trans {b c : Disk Block} (first : a.Flushes b latest)
    (second : b.Flushes c latest) : a.Flushes c latest where
  coherent := second.coherent
  length := second.length.trans first.length
  fields := fun j => ⟨(second.fields j).1.trans (first.fields j).1,
    (second.fields j).2.1.trans (first.fields j).2.1,
    (second.fields j).2.2.trans (first.fields j).2.2⟩
  marks := fun j dirty => first.marks j (second.marks j dirty)

section

variable (coherent : d.Coherent latest)

include coherent

/-- Coherence is of cache and device. -/
theorem Coherent.of_cache (cache : after.cache = d.cache)
    (device : after.device = d.device) : after.Coherent latest :=
  coherent.aged (by rw [cache]) device fun i => by rw [entry_of_cache cache]

/-- Nothing was flushed. -/
theorem Flushes.of_cache (cache : after.cache = d.cache)
    (device : after.device = d.device) : d.Flushes after latest := by
  refine ⟨coherent.of_cache cache device, by rw [cache], fun j => ?_, fun j => ?_⟩
  · rw [entry_of_cache cache]
    exact ⟨rfl, rfl, rfl⟩
  · rw [entry_of_cache cache]
    exact id

/-- Nothing is flushed. -/
theorem Coherent.flushes : d.Flushes d latest :=
  .of_cache coherent rfl rfl

end

/-- A flush drops no entry. -/
theorem Flushes.holds {b : Disk Block} (flushes : a.Flushes b latest) :
    b.Holds i fs block ↔ a.Holds i fs block := by
  obtain ⟨valid, volume, number⟩ := flushes.fields i
  rw [Holds, Holds, valid, volume, number]

/-- The bytes of an entry go to the device, and the entry is clean. -/
theorem Coherent.writeBack (coherent : d.Coherent latest) (held : d.Holds i fs block)
    (device : after.device = stored d.device fs block [(d.entry i).data])
    (cache : after.cache = d.cache.modify i fun entry => { entry with dirty := false }) :
    d.Flushes after latest ∧ (after.entry i).dirty = false := by
  have own : after.entry i = { d.entry i with dirty := false } := by
    rw [entry, cache]
    exact entry_setEntry_self held.lt
  have others : ∀ j, j ≠ i → after.entry j = d.entry j := by
    intro j apart
    rw [entry, cache]
    exact entry_setEntry_ne apart
  have marked : ∀ j, ∃ dirty, after.entry j = { d.entry j with dirty } := by
    intro j
    by_cases here : j = i
    · exact ⟨false, by rw [here, own]⟩
    · exact ⟨_, others j here⟩
  have holds : ∀ {j v b}, after.Holds j v b ↔ d.Holds j v b := by
    intro j v b
    obtain ⟨_, same⟩ := marked j
    rw [Holds, same]
    rfl
  have length : after.cache.length = d.cache.length := by rw [cache, length_modify]
  refine ⟨⟨⟨length.trans coherent.length,
    fun first second => coherent.one (holds.mp first) (holds.mp second), fun {j _ _} again => ?_,
    fun {v b} allClean => ?_⟩, length, fun j => ?_, fun j dirty => ?_⟩, ?_⟩
  · obtain ⟨_, same⟩ := marked j
    rw [same]
    exact coherent.data (holds.mp again)
  · rw [device]
    by_cases here : v = fs ∧ b = block
    · obtain ⟨rfl, rfl⟩ := here
      rw [stored_inside _ (Nat.le_refl _) (Nat.lt_succ_self _)]
      simpa using coherent.data held
    rw [stored_outside _ fun range => here ⟨range.1, by simp at range; omega⟩]
    refine coherent.clean fun j again => ?_
    have apart : j ≠ i := by
      rintro rfl
      exact here (again.inj held)
    rw [← others j apart]
    exact allClean j (holds.mpr again)
  · obtain ⟨_, same⟩ := marked j
    rw [same]
    exact ⟨rfl, rfl, rfl⟩
  · by_cases here : j = i
    · rw [here, own] at dirty
      cases dirty
    · rwa [others j here] at dirty
  · rw [own]

/-- A flushed entry is on the device; a failed flush leaves it dirty. -/
theorem cacheFlushEntry_spec (vols : Nat → Volume) (coherent : d.Coherent latest) (i : Nat) :
    d.Flushes (cacheFlushEntry vols d i).2 latest ∧
      ((cacheFlushEntry vols d i).1 → (d.entry i).valid →
        ((cacheFlushEntry vols d i).2.entry i).dirty = false) := by
  unfold cacheFlushEntry
  split
  · rename_i idle
    refine ⟨coherent.flushes, fun _ valid => ?_⟩
    simpa [valid] using idle
  rename_i busy
  simp only [Bool.or_eq_true, Bool.not_eq_true', not_or, Bool.not_eq_false] at busy
  split
  · exact ⟨coherent.flushes, by simp⟩
  rename_i fs volume
  split
  · exact ⟨coherent.flushes, by simp⟩
  have kept := transfer_keeps d
  unfold deviceWrite
  cases moved : d.transfer with
  | mk fault rest =>
    rw [moved] at kept
    cases fault with
    | some junk =>
      exact ⟨.of_cache coherent kept.1 kept.2.1, by simp⟩
    | none =>
      have held : d.Holds i fs (d.entry i).block := ⟨busy.1, volume, rfl⟩
      refine (coherent.writeBack held ?_ ?_).imp_right fun clean _ _ => clean
      · rw [← kept.2.1]
        rfl
      · rw [← kept.1]
        rfl

/-- The oldest entry is one of the cache. -/
theorem oldest_lt : d.oldest < blockCacheEntries := by
  apply foldl_range_moves (fun _ victim => victim < blockCacheEntries)
  · decide
  intro k victim below low
  split
  · exact below
  · exact low

/-- In a full cache the oldest entry is a valid one. -/
theorem valid_oldest (length : d.cache.length = blockCacheEntries)
    (full : d.cache.findIdx? (fun entry => !entry.valid) = none) : (d.entry d.oldest).valid := by
  have inside : d.oldest < d.cache.length := by rw [length]; exact oldest_lt
  have passed := findIdx?_eq_none_iff.mp full _ (getElem_mem inside)
  simpa [entry, getD_eq_getElem?_getD, inside] using passed

/-- The entry `cache_victim` finds free is not valid. -/
theorem invalid_of_findIdx (found : d.cache.findIdx? (fun entry => !entry.valid) = some i) :
    i < d.cache.length ∧ (d.entry i).valid = false := by
  obtain ⟨inside, here, -⟩ := findIdx?_eq_some_iff_getElem.mp found
  refine ⟨inside, ?_⟩
  simpa [entry, getD_eq_getElem?_getD, inside] using here

/-- What `cache_victim` returns: an entry that is not valid, or one whose bytes are on the
device. -/
theorem cacheVictim_spec (vols : Nat → Volume) (coherent : d.Coherent latest) :
    d.Flushes (cacheVictim vols d).2 latest ∧
      ∀ i, (cacheVictim vols d).1 = some i → i < d.cache.length ∧
        (((cacheVictim vols d).2.entry i).valid = false ∨
          ((cacheVictim vols d).2.entry i).dirty = false) := by
  unfold cacheVictim
  split
  · rename_i i found
    refine ⟨coherent.flushes, fun j same => ?_⟩
    cases same
    exact ⟨(invalid_of_findIdx found).1, .inl (invalid_of_findIdx found).2⟩
  rename_i full
  have flushed := cacheFlushEntry_spec vols coherent d.oldest
  split <;> rename_i answer <;> rw [answer] at flushed
  · exact ⟨flushed.1, by simp⟩
  refine ⟨flushed.1, fun j same => ?_⟩
  cases same
  have inside : d.oldest < d.cache.length := by rw [coherent.length]; exact oldest_lt
  exact ⟨inside, .inr (flushed.2 rfl (valid_oldest coherent.length full))⟩

/-! ## Reading and writing blocks -/

/-- The contents after one block was written. -/
def written (latest : Nat → Nat → Block) (fs block : Nat) (src : Block) : Nat → Nat → Block :=
  Function.update latest fs (Function.update (latest fs) block src)

omit [Inhabited Block] in
/-- Other blocks keep their value. -/
theorem written_ne (src : Block) (elsewhere : ¬ (v = fs ∧ b = block)) :
    written latest fs block src v b = latest v b := by
  unfold written
  by_cases here : v = fs
  · rw [here, Function.update_self, Function.update_of_ne]
    exact fun same => elsewhere ⟨here, same⟩
  · rw [Function.update_of_ne here]

section

variable (coherent : d.Coherent latest)

include coherent

/-- A written block goes into a free or clean entry, or its own. -/
theorem Coherent.fillWritten (inside : i < d.cache.length)
    (alone : ∀ j, j ≠ i → ¬ d.Holds j fs block)
    (released : (d.entry i).valid = false ∨ (d.entry i).dirty = false ∨ d.Holds i fs block)
    (src : Block) : (d.fillWritten fs block i src).Coherent (written latest fs block src) := by
  apply Coherent.touch
  refine coherent.refill inside alone released ⟨rfl, rfl, rfl⟩ ?_
    (fun elsewhere => written_ne src elsewhere) fun clean => ?_
  · rw [written, Function.update_self, Function.update_self]
  · cases clean

/-- What stands in an entry that is not valid does not matter. -/
theorem Coherent.invalid
    (length : after.cache.length = d.cache.length) (device : after.device = d.device)
    (others : ∀ j, j ≠ i → after.entry j = d.entry j) (before : (d.entry i).valid = false)
    (still : (after.entry i).valid = false) : after.Coherent latest := by
  have apart : ∀ {j fs block}, after.Holds j fs block → j ≠ i := by
    rintro j fs block holds rfl
    rw [holds.1] at still
    cases still
  have holds : ∀ {j fs block}, after.Holds j fs block → d.Holds j fs block := by
    intro j fs block holds
    have away := apart holds
    rwa [Holds, others j away] at holds
  refine ⟨length.trans coherent.length,
    fun first second => coherent.one (holds first) (holds second), fun {j _ _} held => ?_,
    fun {fs block} clean => ?_⟩
  · rw [others j (apart held)]
    exact coherent.data (holds held)
  rw [device]
  refine coherent.clean fun j held => ?_
  have away : j ≠ i := by
    rintro rfl
    rw [held.1] at before
    cases before
  rw [← others j away]
  apply clean
  rw [Holds, others j away]
  exact held

/-- The block is read into the victim. When the device fails, the victim must not be valid. -/
theorem Coherent.fillEntry (inside : i < d.cache.length) (alone : ∀ j, ¬ d.Holds j fs block)
    (released : (d.entry i).valid = false ∨ (d.entry i).dirty = false)
    (reads : (d.entry i).valid → d.transfer.1 = none) :
    (d.fillEntry fs block i).2.Coherent latest ∧
      ∀ data, (d.fillEntry fs block i).1 = some data → data = latest fs block := by
  have kept := transfer_keeps d
  unfold Disk.fillEntry
  split
  · rename_i junk rest moved
    rw [moved] at kept reads
    have same := entry_of_cache kept.1
    have invalid : (d.entry i).valid = false := by
      cases valid : (d.entry i).valid with
      | false => rfl
      | true => cases reads valid
    have length : (rest.setEntry i fun entry => { entry with data := junk }).cache.length =
        d.cache.length := by
      rw [← kept.1]
      exact length_modify ..
    refine ⟨coherent.invalid length kept.2.1
      (fun j apart => (entry_setEntry_ne apart).trans (same j)) invalid ?_,
      (by simp)⟩
    rw [entry_setEntry_self (by rw [kept.1]; exact inside), same]
    exact invalid
  · rename_i rest moved
    rw [moved] at kept
    have fresh : d.device fs block = latest fs block :=
      coherent.clean fun j held => (alone j held).elim
    have whole : rest.Coherent latest := coherent.of_cache kept.1 kept.2.1
    have device : rest.device fs block = latest fs block := by
      rw [← fresh, ← kept.2.1]
    refine ⟨.touch ?_ i, fun data answer => ?_⟩
    · refine whole.refill (by rw [kept.1]; exact inside) (fun j _ holds => alone j ?_) ?_
        ⟨rfl, rfl, rfl⟩ device (fun _ => rfl) fun _ => device
      · exact (holds_of_cache kept.1).mp holds
      · rw [entry_of_cache kept.1]
        exact released.imp_right .inl
    · rw [← Option.some.inj answer]
      exact device

end

/-- A write is remembered, or it fails and changes no block. -/
theorem Coherent.writeBlock (vols : Nat → Volume) (coherent : d.Coherent latest)
    (fs block : Nat) (src : Block) :
    ((writeBlock vols d fs block src).1 = false →
      (writeBlock vols d fs block src).2.Coherent latest) ∧
    ((writeBlock vols d fs block src).1 →
      (writeBlock vols d fs block src).2.Coherent (written latest fs block src)) := by
  unfold Disk.writeBlock
  split
  · exact ⟨fun _ => coherent, by simp⟩
  split
  · rename_i i found
    have held := cacheFind_some found
    refine ⟨by simp, fun _ => ?_⟩
    exact coherent.fillWritten held.lt (fun j apart again => apart (coherent.one again held))
      (.inr (.inr held)) src
  rename_i missing
  have victim := cacheVictim_spec vols coherent
  split <;> rename_i answer <;> rw [answer] at victim
  · exact ⟨fun _ => victim.1.coherent, by simp⟩
  rename_i i after
  obtain ⟨inside, released⟩ := victim.2 i rfl
  refine ⟨by simp, fun _ => ?_⟩
  refine victim.1.coherent.fillWritten (by rw [victim.1.length]; exact inside)
    (fun j _ again => cacheFind_none missing (victim.1.holds.mp again)) ?_ src
  exact released.imp_right .inl

/-- The transfer fails. -/
def refuses (faults : List (Option Block)) (n : Nat) : Bool := (faults.getD n none).isSome

/-- The condition on a read: it does not miss in a full cache and then fail to read from the
device. The read is the second transfer when the oldest entry has to be written back, and it is
not made when that fails. -/
def ReadFits (d : Disk Block) (fs block : Nat) (faults : List (Option Block)) : Prop :=
  d.cacheFind fs block = none → (∀ entry ∈ d.cache, entry.valid = true) →
    if (d.entry d.oldest).dirty then refuses faults 0 = true ∨ refuses faults 1 = false
    else refuses faults 0 = false

instance decidableReadFits (d : Disk Block) (fs block : Nat) (faults : List (Option Block)) :
    Decidable (d.ReadFits fs block faults) := by
  unfold ReadFits
  infer_instance

omit [Inhabited Block] in
/-- Each transfer takes one outcome. -/
theorem transfer_eq (d : Disk Block) :
    d.transfer.1 = d.faults.getD 0 none ∧ d.transfer.2.faults = d.faults.tail := by
  unfold transfer
  split
  · rename_i none_left
    refine ⟨by rw [none_left]; rfl, ?_⟩
    rw [none_left]
    rfl
  · rename_i fault rest faults
    rw [faults]
    exact ⟨rfl, rfl⟩

/-- The transfers left after an entry was written back. -/
theorem cacheFlushEntry_faults (valid : (d.entry i).valid)
    (done : cacheFlushEntry vols d i = (true, after)) :
    if (d.entry i).dirty then refuses d.faults 0 = false ∧ after.faults = d.faults.tail
    else after.faults = d.faults := by
  have moves := transfer_eq d
  unfold cacheFlushEntry at done
  cases dirty : (d.entry i).dirty with
  | false =>
    simp only [valid, dirty, Bool.not_true, Bool.not_false, Bool.or_true, if_true] at done
    rw [if_neg (by simp), ← (Prod.mk.inj done).2]
  | true =>
    simp only [valid, dirty, Bool.not_true, Bool.or_self, Bool.false_eq_true, if_false] at done
    split at done
    · cases (Prod.mk.inj done).1
    split at done
    · cases (Prod.mk.inj done).1
    unfold deviceWrite at done
    cases moved : d.transfer with
    | mk fault rest =>
      rw [moved] at done moves
      cases fault with
      | some junk => cases (Prod.mk.inj done).1
      | none =>
        rw [← (Prod.mk.inj done).2, refuses, ← moves.1]
        exact ⟨rfl, moves.2⟩

/-- Under the condition a read into a valid entry does not fail. -/
theorem ReadFits.reads (fits : d.ReadFits fs block d.faults)
    (missing : d.cacheFind fs block = none) (length : d.cache.length = blockCacheEntries)
    (victim : cacheVictim vols d = (some i, after)) (valid : (after.entry i).valid) :
    after.transfer.1 = none := by
  unfold cacheVictim at victim
  split at victim
  · rename_i free found
    have invalid := (invalid_of_findIdx found).2
    obtain ⟨same, rfl⟩ := Prod.mk.inj victim
    rw [Option.some.inj same, valid] at invalid
    cases invalid
  rename_i full
  have allValid : ∀ entry ∈ d.cache, entry.valid := by
    intro entry member
    simpa using findIdx?_eq_none_iff.mp full entry member
  have condition := fits missing allValid
  rw [(transfer_eq after).1]
  split at victim
  · cases (Prod.mk.inj victim).1
  rename_i flushed answer
  have left := cacheFlushEntry_faults (valid_oldest length full) answer
  cases victim
  cases dirty : (d.entry d.oldest).dirty with
  | true =>
    rw [dirty, if_pos rfl] at condition left
    rw [left.1] at condition
    rw [left.2]
    have second := condition.resolve_left (by simp)
    unfold refuses at second
    cases faults : d.faults with
    | nil => rfl
    | cons first rest =>
      rw [faults] at second
      simpa using second
  | false =>
    rw [dirty, if_neg (by simp)] at condition left
    rw [left]
    simpa [refuses] using condition

/-- A read gives what was written last. -/
theorem Coherent.readBlock (vols : Nat → Volume) (coherent : d.Coherent latest)
    (fits : d.ReadFits fs block d.faults) :
    (readBlock vols d fs block).2.Coherent latest ∧
      ∀ data, (readBlock vols d fs block).1 = some data → data = latest fs block := by
  unfold Disk.readBlock
  split
  · exact ⟨coherent, by simp⟩
  split
  · rename_i i found
    refine ⟨coherent.touch i, fun data answer => ?_⟩
    rw [← Option.some.inj answer]
    exact coherent.data (cacheFind_some found)
  rename_i missing
  have victim := cacheVictim_spec vols coherent
  split <;> rename_i answer <;> rw [answer] at victim
  · exact ⟨victim.1.coherent, by simp⟩
  rename_i i after
  obtain ⟨inside, released⟩ := victim.2 i rfl
  refine victim.1.coherent.fillEntry (by rw [victim.1.length]; exact inside)
    (fun j again => cacheFind_none missing (victim.1.holds.mp again)) released
    (fits.reads missing coherent.length answer)

/-! ## Writing past the cache -/

/-- The cache after some rounds of `write_blocks_direct`: the blocks so far are up to date and
clean wherever they are cached. -/
structure Updated (d after : Disk Block) (fs first : Nat) (src : List Block) (k : Nat) : Prop where
  /-- The device stays. -/
  device : after.device = d.device
  /-- The cache keeps its size. -/
  length : after.cache.length = d.cache.length
  /-- Entries keep their blocks. -/
  holds : ∀ {j v b}, after.Holds j v b ↔ d.Holds j v b
  /-- Blocks of the range are new. -/
  inside : ∀ {j b}, d.Holds j fs b → first ≤ b → b < first + k →
    (after.entry j).data = src.getD (b - first) default ∧ (after.entry j).dirty = false
  /-- The others stay. -/
  outside : ∀ {j v b}, d.Holds j v b → ¬ (v = fs ∧ first ≤ b ∧ b < first + k) →
    (after.entry j).data = (d.entry j).data ∧ (after.entry j).dirty = (d.entry j).dirty

/-- `cache_update_clean`, entry by entry. -/
theorem cacheUpdateClean_entry (d : Disk Block) (fs block : Nat) (src : Block) (j : Nat) :
    (d.cacheUpdateClean fs block src).entry j =
      if d.cacheFind fs block = some j then
        { d.entry j with data := src, dirty := false, age := d.clock + 1 }
      else d.entry j := by
  unfold cacheUpdateClean
  cases found : d.cacheFind fs block with
  | none => rfl
  | some i =>
    have inside := (cacheFind_some found).lt
    refine (entry_setEntry ..).trans ?_
    rw [entry_setEntry, entry_setEntry]
    by_cases here : j = i
    · subst here
      simp [inside, setEntry]
    · simp [here, Ne.symm here]

omit [Inhabited Block] in
/-- No entry and no block of the device comes or goes. -/
theorem cacheUpdateClean_keeps (d : Disk Block) (fs block : Nat) (src : Block) :
    (d.cacheUpdateClean fs block src).device = d.device ∧
      (d.cacheUpdateClean fs block src).cache.length = d.cache.length := by
  unfold cacheUpdateClean
  split
  · exact ⟨rfl, rfl⟩
  · exact ⟨rfl, by simp only [touch, setEntry, length_modify]⟩

/-- The entries of a range are updated one by one. -/
theorem updated_foldl (one : ∀ {i j v b}, d.Holds i v b → d.Holds j v b → i = j) (first : Nat)
    (src : List Block) (near : first + src.length ≤ 2 ^ 32) :
    d.Updated ((range src.length).foldl (fun d i =>
      d.cacheUpdateClean fs ((first + i) % 2 ^ 32) (src.getD i default)) d) fs first src
      src.length := by
  apply foldl_range_moves (fun k after => d.Updated after fs first src k)
  · refine ⟨rfl, rfl, Iff.rfl, fun _ low high => ?_, fun _ _ => ⟨rfl, rfl⟩⟩
    omega
  intro k state below updated
  have block : (first + k) % 2 ^ 32 = first + k := Nat.mod_eq_of_lt (by omega)
  rw [block]
  have entries := cacheUpdateClean_entry state fs (first + k) (src.getD k default)
  obtain ⟨device, length⟩ := cacheUpdateClean_keeps state fs (first + k) (src.getD k default)
  have holds : ∀ {j v b}, (state.cacheUpdateClean fs (first + k) (src.getD k default)).Holds j v b ↔
      d.Holds j v b := by
    intro j v b
    rw [← updated.holds, Holds, entries]
    split <;> rfl
  have found : ∀ {j}, state.cacheFind fs (first + k) = some j → d.Holds j fs (first + k) :=
    fun same => updated.holds.mp (cacheFind_some same)
  refine ⟨device.trans updated.device, length.trans updated.length, holds,
    fun {j b} held low high => ?_, fun {j v b} held away => ?_⟩
  · by_cases last : b = first + k
    · have cached : state.cacheFind fs (first + k) = some j := by
        cases search : state.cacheFind fs (first + k) with
        | none =>
          rw [last] at held
          exact absurd (updated.holds.mpr held) (cacheFind_none search)
        | some i =>
          rw [last] at held
          rw [one (found search) held]
      rw [entries, if_pos cached, last, Nat.add_sub_cancel_left]
      exact ⟨rfl, rfl⟩
    · have missed : state.cacheFind fs (first + k) ≠ some j := by
        intro same
        exact last (held.inj (found same)).2
      rw [entries, if_neg missed]
      exact updated.inside held low (by omega)
  · have missed : state.cacheFind fs (first + k) ≠ some j := by
      intro same
      obtain ⟨volume, number⟩ := held.inj (found same)
      exact away ⟨volume, by omega⟩
    rw [entries, if_neg missed]
    exact updated.outside held fun both => away ⟨both.1, both.2.1, by omega⟩

/-- The condition on a direct write: its length in bytes and its last block are 32-bit
numbers. -/
def DirectFits (vol : Volume) (first count : Nat) : Prop :=
  count * vol.blockSize < 2 ^ 32 ∧ first + count ≤ 2 ^ 32

/-- A short range is transferred whole. -/
theorem transferred_eq {vol : Volume} {count : Nat} (small : count * vol.blockSize < 2 ^ 32) :
    transferred vol count = count := by
  have positive : 0 < vol.blockSize := by
    rcases vol.sizes with size | size | size <;> omega
  rw [transferred, Nat.mod_eq_of_lt small, Nat.mul_div_cancel _ positive]

/-- Blocks on the device and in the cache make the contents after the write. -/
theorem Updated.coherent {mid : Disk Block} (coherent : d.Coherent latest)
    (cache : mid.cache = d.cache) (device : mid.device = stored d.device fs first src)
    (updated : mid.Updated after fs first src src.length) :
    after.Coherent (stored latest fs first src) := by
  have entries := entry_of_cache cache
  have holds : ∀ {j v b}, mid.Holds j v b ↔ d.Holds j v b := holds_of_cache cache
  have length : after.cache.length = d.cache.length := by rw [updated.length, cache]
  refine ⟨length.trans coherent.length, fun one two => coherent.one
    (holds.mp (updated.holds.mp one)) (holds.mp (updated.holds.mp two)),
    fun {j v b} held => ?_, fun {v b} clean => ?_⟩
  · have before := updated.holds.mp held
    by_cases range : v = fs ∧ first ≤ b ∧ b < first + src.length
    · obtain ⟨rfl, low, high⟩ := range
      rw [(updated.inside before low high).1, stored_inside latest low high]
      rw [getD_eq_getElem?_getD, getElem?_eq_getElem (by omega)]
      rfl
    · rw [(updated.outside before range).1, stored_outside latest range, entries]
      exact coherent.data (holds.mp before)
  · rw [updated.device, device]
    by_cases range : v = fs ∧ first ≤ b ∧ b < first + src.length
    · obtain ⟨rfl, low, high⟩ := range
      rw [stored_inside _ low high, stored_inside _ low high]
    rw [stored_outside _ range, stored_outside _ range]
    refine coherent.clean fun j held => ?_
    have before := holds.mpr held
    rw [← entries, ← (updated.outside before range).2]
    exact clean j (updated.holds.mpr before)

/-- A direct write reaches device and entries, or fails as a whole. -/
theorem Coherent.writeBlocksDirect (coherent : d.Coherent latest)
    (fits : DirectFits (vols fs) first src.length) :
    ((writeBlocksDirect vols d fs first src).1 = false →
      (writeBlocksDirect vols d fs first src).2.Coherent latest) ∧
    ((writeBlocksDirect vols d fs first src).1 →
      (writeBlocksDirect vols d fs first src).2.Coherent (stored latest fs first src)) := by
  unfold Disk.writeBlocksDirect
  split
  · rename_i empty
    subst empty
    refine ⟨by simp, fun _ => ?_⟩
    have same : stored latest fs first [] = latest := by
      funext v b
      exact stored_outside latest fun range => by simp at range; omega
    rw [same]
    exact coherent
  rw [transferred_eq fits.1, take_length]
  have kept := transfer_keeps d
  unfold deviceWrite
  cases moved : d.transfer with
  | mk fault rest =>
    rw [moved] at kept
    cases fault with
    | some junk =>
      exact ⟨fun _ => coherent.of_cache kept.1 kept.2.1, by simp⟩
    | none =>
      refine ⟨by simp, fun _ => ?_⟩
      have sameCache :
          ({ rest with device := stored rest.device fs first src } : Disk Block).cache =
          d.cache := kept.1
      have sameDevice : ({ rest with device := stored rest.device fs first src } :
          Disk Block).device = stored d.device fs first src := by rw [← kept.2.1]
      dsimp only
      generalize ({ rest with device := stored rest.device fs first src } : Disk Block) = mid at *
      have one : ∀ {i j v b}, mid.Holds i v b → mid.Holds j v b → i = j := fun heldI heldJ =>
        coherent.one ((holds_of_cache sameCache).mp heldI) ((holds_of_cache sameCache).mp heldJ)
      exact (updated_foldl one first src fits.2).coherent coherent sameCache sameDevice

/-! ## Flushing -/

/-- `ext2_flush`: after success no entry of the volume is dirty. -/
theorem Coherent.ext2Flush (vols : Nat → Volume) (coherent : d.Coherent latest) (fs : Nat) :
    (ext2Flush vols d fs).2.Coherent latest ∧
      ((ext2Flush vols d fs).1 →
        ∀ block, (ext2Flush vols d fs).2.device fs block = latest fs block) := by
  have rounds : d.Flushes (Disk.ext2Flush vols d fs).2 latest ∧
      ((Disk.ext2Flush vols d fs).1 = true → ∀ i < blockCacheEntries,
        (d.entry i).fs = some fs → (d.entry i).valid = true →
        ((Disk.ext2Flush vols d fs).2.entry i).dirty = false) := by
    apply foldl_range_moves (fun k (state : Bool × Disk Block) => d.Flushes state.2 latest ∧
      (state.1 = true → ∀ i < k, (d.entry i).fs = some fs → (d.entry i).valid = true →
        (state.2.entry i).dirty = false))
    · exact ⟨coherent.flushes, fun _ i low => absurd low (Nat.not_lt_zero i)⟩
    intro k state below inv
    obtain ⟨flushes, clean⟩ := inv
    unfold flushRound
    have volume := (flushes.fields k).2.1
    have valid := (flushes.fields k).1
    split
    · have flushed := cacheFlushEntry_spec vols flushes.coherent k
      split <;> rename_i after answer <;> rw [answer] at flushed
      · refine ⟨flushes.trans flushed.1, fun good i low own held => ?_⟩
        by_cases here : i = k
        · rw [here] at held ⊢
          exact flushed.2 rfl (by rw [valid]; exact held)
        have before := clean good i (by omega) own held
        cases marked : (after.entry i).dirty with
        | false => rfl
        | true =>
          have was := flushed.1.marks i marked
          rw [before] at was
          cases was
      · exact ⟨flushes.trans flushed.1, by simp⟩
    · rename_i other
      refine ⟨flushes, fun good i low own held => ?_⟩
      by_cases here : i = k
      · rw [here, ← volume] at own
        exact absurd own other
      · exact clean good i (by omega) own held
  refine ⟨rounds.1.coherent, fun good block => ?_⟩
  refine rounds.1.coherent.clean fun i held => ?_
  have before := rounds.1.holds.mp held
  exact rounds.2 good i (by rw [← coherent.length]; exact before.lt) before.2.1 before.1

/-- An empty cache is coherent. -/
theorem coherent_start (device : Nat → Nat → Block) : (start device).Coherent device := by
  have empty : ∀ {i fs block}, ¬ (start device).Holds i fs block := by
    intro i fs block held
    have inside : i < blockCacheEntries := by simpa [start] using held.lt
    have valid := held.1
    simp [entry, start, getD_eq_getElem?_getD, inside, CacheEntry.clear] at valid
  exact ⟨length_replicate, fun held => (empty held).elim, fun held => (empty held).elim,
    fun _ => rfl⟩

end Disk

/-! ## Runs -/

/-- A call of the block layer, with what the device does during it. -/
inductive CacheOp (Block : Type) where
  | read (fs block : Nat) (faults : List (Option Block))
  | write (fs block : Nat) (src : Block) (faults : List (Option Block))
  | direct (fs first : Nat) (src : List Block) (faults : List (Option Block))
  | flush (fs : Nat) (faults : List (Option Block))

/-- The block layer with the contents that the successful writes have given each block. -/
structure Tracked (Block : Type) where
  /-- Cache and device. -/
  disk : Disk Block
  /-- The value written last. -/
  latest : Nat → Nat → Block

namespace Tracked

variable {Block : Type} [Inhabited Block] (vols : Nat → Volume)

/-- One call. -/
def step (s : Tracked Block) : CacheOp Block → Tracked Block
  | .read fs block faults => ⟨((s.disk.withFaults faults).readBlock vols fs block).2, s.latest⟩
  | .write fs block src faults =>
    match (s.disk.withFaults faults).writeBlock vols fs block src with
    | (false, disk) => ⟨disk, s.latest⟩
    | (true, disk) => ⟨disk, Disk.written s.latest fs block src⟩
  | .direct fs first src faults =>
    match (s.disk.withFaults faults).writeBlocksDirect vols fs first src with
    | (false, disk) => ⟨disk, s.latest⟩
    | (true, disk) => ⟨disk, Disk.stored s.latest fs first src⟩
  | .flush fs faults => ⟨((s.disk.withFaults faults).ext2Flush vols fs).2, s.latest⟩

/-- Nothing cached, nothing written. -/
def start (device : Nat → Nat → Block) : Tracked Block := ⟨Disk.start device, device⟩

/-- A read that succeeds returns the latest contents, and after a flush that succeeds the device
holds them. -/
def Answers (s : Tracked Block) : CacheOp Block → Prop
  | .read fs block faults => ∀ data,
    ((s.disk.withFaults faults).readBlock vols fs block).1 = some data → data = s.latest fs block
  | .flush fs faults => ((s.disk.withFaults faults).ext2Flush vols fs).1 = true →
    ∀ block, ((s.disk.withFaults faults).ext2Flush vols fs).2.device fs block = s.latest fs block
  | _ => True

/-- The condition on a call. -/
def Fits (s : Tracked Block) : CacheOp Block → Prop
  | .read fs block faults => s.disk.ReadFits fs block faults
  | .direct fs first src _ => Disk.DirectFits (vols fs) first src.length
  | _ => True

instance decidableFits (s : Tracked Block) : ∀ op, Decidable (s.Fits vols op)
  | .read .. => inferInstanceAs (Decidable (s.disk.ReadFits ..))
  | .direct .. => inferInstanceAs (Decidable (_ ∧ _))
  | .write .. | .flush .. => .isTrue trivial

section

variable {vols}

/-- Outcomes that are to come do not matter. -/
theorem coherent_withFaults {s : Tracked Block} (coherent : s.disk.Coherent s.latest)
    (faults : List (Option Block)) : (s.disk.withFaults faults).Coherent s.latest :=
  coherent.of_cache rfl rfl

/-- Each call keeps the cache coherent. -/
theorem coherent_step (s : Tracked Block) (op : CacheOp Block)
    (coherent : s.disk.Coherent s.latest) (fits : s.Fits vols op) :
    (s.step vols op).disk.Coherent (s.step vols op).latest := by
  cases op with
  | read fs block faults => exact ((coherent_withFaults coherent faults).readBlock vols fits).1
  | write fs block src faults =>
    have kept := (coherent_withFaults coherent faults).writeBlock vols fs block src
    simp only [step]
    split <;> rename_i answer <;> rw [answer] at kept
    · exact kept.1 rfl
    · exact kept.2 rfl
  | direct fs first src faults =>
    have kept := (coherent_withFaults coherent faults).writeBlocksDirect fits
    simp only [step]
    split <;> rename_i answer <;> rw [answer] at kept
    · exact kept.1 rfl
    · exact kept.2 rfl
  | flush fs faults =>
    have kept := (coherent_withFaults coherent faults).ext2Flush vols fs
    simp only [step]
    exact kept.1

/-- A coherent cache answers with the latest value. -/
theorem answers_of_coherent (s : Tracked Block) (op : CacheOp Block)
    (coherent : s.disk.Coherent s.latest) (fits : s.Fits vols op) : s.Answers vols op := by
  cases op with
  | read fs block faults => exact ((coherent_withFaults coherent faults).readBlock vols fits).2
  | write | direct => exact trivial
  | flush fs faults => exact ((coherent_withFaults coherent faults).ext2Flush vols fs).2

/-- In every run whose calls meet the condition, reads that succeed return the latest contents
and flushes that succeed bring them to the device. -/
theorem block_cache_transparent (vols : Nat → Volume) (device : Nat → Nat → Block)
    (ops : List (CacheOp Block)) (fits : EveryInput (step vols) (Fits vols) (start device) ops) :
    EveryInput (step vols) (Answers vols) (start device) ops :=
  everyInput_of_everyInput coherent_step answers_of_coherent (Disk.coherent_start device) fits

/-- In every state of such a run each block has one entry at most, with its latest contents, and
a block without a dirty entry has them on the device. -/
theorem block_cache_coherent (vols : Nat → Volume) (device : Nat → Nat → Block)
    (ops : List (CacheOp Block)) (fits : EveryInput (step vols) (Fits vols) (start device) ops) :
    EveryState (step vols) (fun s => s.disk.Coherent s.latest) (start device) ops :=
  everyState_of_everyInput coherent_step (Disk.coherent_start device) fits

/-- A block that is written while the device fails the write-back, then flushed and read. -/
def writeFlushRead : List (CacheOp (List UInt8)) :=
  [.read 0 1 [some [1]], .write 0 1 [7] [], .flush 0 [some []], .flush 0 [],
    .direct 0 1 [[8], [9]] [], .read 0 1 []]

/-- A block is written, flushed and read again. -/
theorem block_cache_transparent_writeFlushRead :
    EveryInput (step fun _ => smallVolume) (Answers fun _ => smallVolume)
      (start fun _ _ => []) writeFlushRead :=
  block_cache_transparent (fun _ => smallVolume) (fun _ _ => []) writeFlushRead (by decide +kernel)

/-- The cache is coherent all along. -/
theorem block_cache_coherent_writeFlushRead :
    EveryState (step fun _ => smallVolume) (fun s => s.disk.Coherent s.latest)
      (start fun _ _ => []) writeFlushRead :=
  block_cache_coherent (fun _ => smallVolume) (fun _ _ => []) writeFlushRead (by decide +kernel)

/-- The cache is filled, the next miss fails on the device, and the block that was read first is
read again. -/
def missThenRead : List (CacheOp (List UInt8)) :=
  (List.range blockCacheEntries).map (fun block => .read 0 block []) ++
    [.read 0 32 [some [255]], .read 0 0 []]

/-- The state before the last read. -/
def afterMiss : Tracked (List UInt8) :=
  missThenRead.dropLast.foldl (step fun _ => smallVolume) (start fun _ _ => [0])

/-- The bytes a failed read left behind are returned for the block the entry held before. -/
theorem failed_miss_spoils_block :
    ¬ EveryInput (step fun _ => smallVolume) (Answers fun _ => smallVolume)
      (start fun _ _ => [0]) missThenRead := by
  have seen : ((afterMiss.disk.withFaults []).readBlock (fun _ => smallVolume) 0 0).1 =
      some [255] ∧ afterMiss.latest 0 0 = [0] := by
    decide +kernel
  intro every
  have last := ((everyInput_append missThenRead.dropLast [.read 0 0 []]).mp every).2.1
  have same : [255] = afterMiss.latest 0 0 := last _ seen.1
  cases same

end

end Tracked

end Spore.Ext2
