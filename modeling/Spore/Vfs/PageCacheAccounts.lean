import Spore.Vfs.PageCache

/-!
# The page cache keeps its references counted

A valid entry owns its page. Every cache function trades pages between the entries, the hand
of the caller and the allocator, beside owners elsewhere that it does not know.
-/

namespace Spore

open Spore.Lib Spore.Mm PageCache Option

variable {remaining index fuel : Nat}

/-- A valid entry with a page refers to it. -/
def PageCache.Refs (cache : PageCache) (index page : Nat) : Prop :=
  ∃ entry, cache.entries[index]? = some entry ∧ entry.valid = true ∧ entry.pa ≠ 0 ∧
    entry.pa / pageSize = page

/-- An entry without its stamp and its chain link. -/
def PageCacheEntry.bare (entry : PageCacheEntry) : PageCacheEntry :=
  { entry with age := 0, hashNext := none }

/-- Two caches whose entries differ in stamps and chain links only. -/
def PageCache.Alike (cache cache' : PageCache) : Prop :=
  ∀ index : Nat, (cache'.entries[index]?).map PageCacheEntry.bare =
    (cache.entries[index]?).map PageCacheEntry.bare

namespace PageCache

variable {cache : PageCache}

/-- A cache is alike itself. -/
theorem Alike.refl (cache : PageCache) : Alike cache cache := fun _ => rfl

/-- Alike in two steps. -/
theorem Alike.trans {a b c : PageCache} (first : Alike a b) (second : Alike b c) : Alike a c :=
  fun index => (second index).trans (first index)

/-- An entry of one cache has a counterpart in the other. -/
theorem Alike.entry {cache' : PageCache} (alike : Alike cache cache') {index : Nat}
    {entry : PageCacheEntry} (stored : cache'.entries[index]? = some entry) :
    ∃ old, cache.entries[index]? = some old ∧ old.bare = entry.bare := by
  have same := alike index
  rw [stored] at same
  exact map_eq_some_iff.mp same.symm

/-- Caches that are alike refer to the same pages. -/
theorem Alike.refs {cache' : PageCache} (alike : Alike cache cache') {index page : Nat}
    (held : cache'.Refs index page) : cache.Refs index page := by
  obtain ⟨entry, stored, live, some_pa, page_eq⟩ := held
  obtain ⟨old, found, same⟩ := alike.entry stored
  have valid : old.bare.valid = entry.bare.valid := congrArg _ same
  have pa : old.bare.pa = entry.bare.pa := congrArg _ same
  exact ⟨old, found, valid.trans live, fun zero => some_pa (pa.symm.trans zero),
    (congrArg (· / pageSize) pa).trans page_eq⟩

/-- A change of links or marks. -/
theorem alike_modify (change : PageCacheEntry → PageCacheEntry)
    (bare : ∀ entry, (change entry).bare = entry.bare) :
    Alike cache (cache.modify index change) := by
  intro other
  rw [modify, List.getElem?_modify]
  cases cache.entries[other]? with
  | none => rfl
  | some entry => by_cases here : index = other <;> simp [here, bare]

/-- A link is written. -/
theorem alike_write (next : Option Nat) (slot : Link) : Alike cache (slot.write cache next) := by
  cases slot with
  | bucket index => exact .refl _
  | after index => exact alike_modify _ fun _ => rfl

/-- The walk along a bucket. -/
theorem alike_unlinkFrom : ∀ slot, Alike cache (unlinkFrom index cache fuel slot) := by
  induction fuel with
  | zero => exact fun _ => .refl _
  | succ fuel ih =>
    intro slot
    rw [unlinkFrom]
    split
    · exact .refl _
    · split
      · exact alike_write _ _
      · exact ih _

/-- An entry leaves its bucket. -/
theorem alike_unlink (index : Nat) : Alike cache (cache.unlink index) := by
  rw [unlink]
  split
  · exact .refl _
  · split
    · exact .refl _
    · exact (alike_unlinkFrom _).trans (alike_modify _ fun _ => rfl)

/-- An entry enters its bucket. -/
theorem alike_link : Alike cache (cache.link index) := by
  rw [link]
  split
  · exact .refl _
  · exact alike_modify _ fun _ => rfl

/-- A lookup marks at most. -/
theorem alike_find (node : VfsNode) (off : Nat) : Alike cache (cache.find node off).2 := by
  rw [find]
  split
  · exact .refl _
  · exact alike_modify _ fun _ => rfl

/-- The walk ends at an entry whose key is the one looked for. -/
theorem walk_spec {node : VfsNode} {off fuel : Nat} : ∀ {start : Option Nat} {index : Nat},
    cache.walk node off fuel start = some index →
      ∃ entry, cache.entries[index]? = some entry ∧ keyEq entry node off := by
  induction fuel with
  | zero => intro start index found; simp [walk] at found
  | succ fuel ih =>
    intro start index found
    cases start with
    | none => simp [walk] at found
    | some head =>
      rw [walk] at found
      split at found
      · contradiction
      rename_i entry stored
      split at found
      · rename_i same
        cases found
        exact ⟨entry, stored, same⟩
      · exact ih found

/-- The entry that a lookup returns is valid and carries the key looked for. -/
theorem find_spec {node : VfsNode} {off index : Nat}
    (found : (cache.find node off).1 = some index) :
    ∃ entry, (cache.find node off).2.entries[index]? = some entry ∧
      keyEq entry node off := by
  rw [find] at found ⊢
  cases walked : cache.walk node off (cache.entries.length + 1)
      (cache.buckets[cache.hash node.backend node.ino node.devId off]?).join with
  | none => rw [walked] at found; contradiction
  | some head =>
    rw [walked] at found
    cases found
    obtain ⟨entry, stored, same⟩ := walk_spec walked
    refine ⟨{ entry with age := cache.clock + 1 }, ?_, by simpa [keyEq] using same⟩
    simp [modify, stored]

end PageCache

namespace Store

variable {F Owner : Type} {outer : Owner → Nat → Prop} {hand : Multiset Nat} {store next : Store F}
  {index pa off page : Nat} {node : VfsNode}

/-- References of the owners outside and of the cache. -/
abbrev allRefs (outer : Owner → Nat → Prop) (cache : PageCache) : Owner ⊕ Nat → Nat → Prop :=
  Sum.elim outer cache.Refs

/-- References are accounted for with the cache among the owners. -/
def Accounts (outer : Owner → Nat → Prop) (hand : Multiset Nat) (store : Store F) : Prop :=
  store.phys.Accounts (allRefs outer store.cache) hand

/-- A change of physical memory and the cache in which the owners outside take no part. -/
structure Trades (outer : Owner → Nat → Prop) (hand : Multiset Nat) (store : Store F)
    (hand' : Multiset Nat) (store' : Store F) : Prop where
  /-- Counters cover the references. -/
  accounts : Accounts outer hand' store'
  /-- A page with one owner keeps one. -/
  exclusive : ∀ owner page, outer owner page → store.phys.pmm.refcount page = 1 →
    store'.phys.pmm.refcount page = 1
  /-- The memory is as large. -/
  tracked : store'.phys.pmm.tracked = store.phys.pmm.tracked

/-- Trades one after the other. -/
theorem Trades.trans {hand₁ hand₂ hand₃ : Multiset Nat} {store₁ store₂ store₃ : Store F}
    (first : Trades outer hand₁ store₁ hand₂ store₂)
    (second : Trades outer hand₂ store₂ hand₃ store₃) : Trades outer hand₁ store₁ hand₃ store₃ :=
  ⟨second.accounts,
    fun owner page held single => second.exclusive owner page held
      (first.exclusive owner page held single),
    second.tracked.trans first.tracked⟩

/-- A trade of physical memory beside an unchanged cache. -/
theorem Trades.ofPhys {hand' : Multiset Nat} {phys : Phys F}
    (traded : Phys.Trades (allRefs outer store.cache) hand store.phys hand' phys) :
    Trades outer hand store hand' { store with phys } :=
  ⟨traded.accounts, fun owner page held => traded.exclusive (Sum.inl owner) page held,
    traded.tracked⟩

/-- Replacing an entry by one that is not valid loses its reference only. -/
theorem refs_modify_invalid {cache : PageCache} {other : Nat}
    {change : PageCacheEntry → PageCacheEntry} (invalid : ∀ entry, (change entry).valid = false)
    (held : (cache.modify index change).Refs other page) :
    cache.Refs other page ∧ other ≠ index := by
  obtain ⟨entry, stored, live, rest⟩ := held
  rw [PageCache.modify, List.getElem?_modify] at stored
  obtain ⟨old, found, rfl⟩ := map_eq_some_iff.mp stored
  by_cases here : index = other
  · simp [here, invalid] at live
  · simp only [here, if_false] at live rest
    exact ⟨⟨old, found, live, rest⟩, fun same => here same.symm⟩

section

variable (accounts : Accounts outer hand store)

include accounts

/-- Nothing is traded. -/
theorem Trades.refl : Trades outer hand store hand store :=
  ⟨accounts, fun _ _ _ single => single, rfl⟩

/-- Stamps and chain links take no part in accounting. -/
theorem trades_alike {cache : PageCache}
    (alike : store.cache.Alike cache) : Trades outer hand store hand { store with cache } := by
  refine ⟨.forget accounts ?_, fun _ _ _ single => single, rfl⟩
  rintro (owner | index) page held
  · exact held
  · exact alike.refs held

/-- An invalid entry refers to nothing. -/
theorem trades_modify_invalid (index : Nat)
    (change : PageCacheEntry → PageCacheEntry) (invalid : ∀ entry, (change entry).valid = false) :
    Trades outer hand store hand { store with cache := store.cache.modify index change } := by
  refine ⟨.forget accounts ?_, fun _ _ _ single => single, rfl⟩
  rintro (owner | other) page held
  · exact held
  · exact (refs_modify_invalid invalid held).1

/-- An entry that stops being valid gives its page back. -/
theorem trades_dropEntry : Trades outer hand store hand (store.dropEntry index) := by
  rw [dropEntry]
  cases stored : store.cache.entries[index]? with
  | none => exact .refl accounts
  | some entry =>
    by_cases owned : entry.valid ∧ entry.pa ≠ 0
    · simp only [owned, and_self, if_true, ne_eq, not_false_eq_true]
      have refers : store.cache.Refs index (entry.pa / pageSize) :=
        ⟨entry, stored, owned.1, owned.2, rfl⟩
      let emptied : Store F :=
        { store with cache := store.cache.modify index fun _ => .clear }
      have inHand : Accounts outer (entry.pa / pageSize ::ₘ hand) emptied := by
        rw [Accounts, Phys.Accounts, Multiset.cons_add]
        refine .unlink accounts (show allRefs outer store.cache (Sum.inr index) _ from refers) ?_
        rintro (owner | other) page held
        · exact ⟨held, fun same => by cases same.1⟩
        · have kept := refs_modify_invalid (fun _ => rfl) held
          exact ⟨kept.1, fun same => kept.2 (Sum.inr.inj same.1)⟩
      have freed := Phys.trades_free inHand
      refine ⟨freed.accounts, fun owner page held => ?_, freed.tracked⟩
      exact freed.exclusive (Sum.inl owner) page held
    · simp only [owned, if_false]
      exact trades_modify_invalid accounts index _ fun _ => rfl

/-- A cleared entry gives its page back. -/
theorem trades_pageCacheClear (index : Nat) :
    Trades outer hand store hand (store.pageCacheClear index) := by
  have unlinked := trades_alike accounts (alike_unlink index)
  exact unlinked.trans (trades_dropEntry unlinked.accounts)

end

/-! ## Finding a page for an entry -/

/-- A page for the cache is in the caller's hand. -/
structure Supplies (outer : Owner → Nat → Prop) (hand : Multiset Nat) (store : Store F)
    (result : Option Nat × Store F) : Prop where
  /-- A page is at hand. -/
  supplied : ∀ pa, result.1 = some pa → Trades outer hand store (pa / pageSize ::ₘ hand) result.2
  /-- None is. -/
  refused : result.1 = none → Trades outer hand store hand result.2

/-- No page was supplied. -/
theorem Supplies.ofNone (traded : Trades outer hand store hand next) :
    Supplies outer hand store (none, next) :=
  ⟨fun _ found => (nomatch found), fun _ => traded⟩

/-- A page came to hand. -/
theorem Supplies.ofSome (traded : Trades outer hand store (pa / pageSize ::ₘ hand) next) :
    Supplies outer hand store (some pa, next) :=
  ⟨fun _ found => some.inj found ▸ traded, fun none => by cases none⟩

/-- A page of the allocator. -/
theorem trades_allocZeroPage {phys : Phys F} (accounts : Accounts outer hand store)
    (found : store.phys.allocZeroPage = some (pa, phys)) :
    Trades outer hand store (pa / pageSize ::ₘ hand) { store with phys } :=
  .ofPhys (Phys.trades_allocZeroPage accounts found).1

/-- Entries are evicted until a page is free, by induction over what is left of the sweep. -/
theorem evictLoop_supplies : ∀ (step : Nat) {store : Store F},
    Accounts outer hand store → Supplies outer hand store (evictLoop remaining step store) := by
  induction remaining with
  | zero =>
    intro step store accounts
    exact .ofNone (.refl accounts)
  | succ remaining ih =>
    intro step store accounts
    rw [evictLoop]
    dsimp only
    split
    · exact ih (step + 1) accounts
    have cleared := trades_pageCacheClear accounts (store.cache.handAt step)
    split
    · have later := ih (step + 1) cleared.accounts
      exact ⟨fun pa found => cleared.trans (later.supplied pa found),
        fun none => cleared.trans (later.refused none)⟩
    · rename_i pa phys found
      have taken := trades_allocZeroPage cleared.accounts found
      exact .ofSome ((cleared.trans taken).trans (trades_alike taken.accounts (.refl _)))

/-- A page for the cache, evicted if need be. -/
theorem pageCacheAllocPage_supplies (accounts : Accounts outer hand store) :
    Supplies outer hand store store.pageCacheAllocPage := by
  rw [pageCacheAllocPage]
  split
  · rename_i pa phys found
    exact .ofSome (trades_allocZeroPage accounts found)
  · exact evictLoop_supplies _ accounts

/-- The victim gives its page back. -/
theorem victimLoop_trades : ∀ (step : Nat) {index : Nat} {next : Store F},
    Accounts outer hand store → victimLoop remaining step store = some (index, next) →
      Trades outer hand store hand next := by
  induction remaining with
  | zero => intro step index next _ found; simp [victimLoop] at found
  | succ remaining ih =>
    intro step index next accounts found
    rw [victimLoop] at found
    split at found
    · simp only [some.injEq, Prod.mk.injEq] at found
      obtain ⟨-, rfl⟩ := found
      exact trades_alike accounts (.refl _)
    · exact ih (step + 1) accounts found

/-- A victim is found or made. -/
theorem pageCacheVictim_trades (accounts : Accounts outer hand store)
    (found : store.pageCacheVictim = some (index, next)) : Trades outer hand store hand next := by
  rw [pageCacheVictim] at found
  split at found
  · contradiction
  split at found
  · rename_i result loop
    cases found
    exact victimLoop_trades _ accounts loop
  obtain ⟨-, rfl⟩ := found
  have moved : Trades outer hand store hand { store with
      cache := { store.cache with evictHand := (store.cache.evictHand + 1) % 2 ^ 32 } } :=
    trades_alike accounts (.refl _)
  exact moved.trans (trades_pageCacheClear moved.accounts _)

/-! ## Loading -/

section

variable (host : FileHost F)

/-- An entry becomes visible with the page that was in hand. -/
theorem trades_publish (accounts : Accounts outer (pa / pageSize ::ₘ hand) store)
    (prepared : ∀ entry, store.cache.entries[index]? = some entry → entry.pa = pa) :
    Trades outer (pa / pageSize ::ₘ hand) store hand { store with
      cache := (store.cache.modify index
        fun entry => { entry with valid := true }).link index } := by
  have linked : Trades outer (pa / pageSize ::ₘ hand) store hand { store with
      cache := store.cache.modify index fun entry => { entry with valid := true } } := by
    refine ⟨?_, fun _ _ _ single => single, rfl⟩
    rw [Accounts, Phys.Accounts, Multiset.cons_add] at accounts
    refine .link (Sum.inr index) accounts ?_
    rintro (owner | other) page held
    · exact .inl held
    obtain ⟨entry, stored, live, some_pa, page_eq⟩ := held
    rw [PageCache.modify, List.getElem?_modify] at stored
    obtain ⟨old, found, rfl⟩ := map_eq_some_iff.mp stored
    by_cases here : index = other
    · subst here
      simp only [if_true] at some_pa page_eq
      rw [prepared old found] at page_eq
      exact .inr ⟨rfl, page_eq.symm⟩
    · simp only [here, if_false] at live some_pa page_eq
      exact .inl ⟨old, found, live, some_pa, page_eq⟩
  exact linked.trans (trades_alike linked.accounts PageCache.alike_link)

/-- Pages at hand may be forgotten. -/
theorem trades_drop (pages : Multiset Nat) (accounts : Accounts outer (pages + hand) store) :
    Trades outer (pages + hand) store hand store := by
  refine ⟨.mono accounts (fun _ _ held => held) ?_ fun _ => le_rfl, fun _ _ _ single => single, rfl⟩
  exact add_le_add_left (Multiset.le_add_left hand pages) _

/-- The page is read into its entry, or freed. -/
theorem fillEntry_trades (accounts : Accounts outer (pa / pageSize ::ₘ hand) store)
    (prepared : ∀ entry, store.cache.entries[index]? = some entry → entry.pa = pa) :
    Trades outer (pa / pageSize ::ₘ hand) store hand
      (store.fillEntry host node off index pa).2 := by
  rw [fillEntry]
  have received : Trades outer (pa / pageSize ::ₘ hand) store _
      (store.receive pa (store.fetch host node off)) := ⟨accounts, fun _ _ _ single => single, rfl⟩
  split
  · have cleared := trades_pageCacheClear received.accounts index
    exact (received.trans cleared).trans (trades_drop {pa / pageSize} cleared.accounts)
  · exact received.trans (trades_publish received.accounts prepared)

/-- An entry that is not valid. -/
def Dormant (store : Store F) (index : Nat) : Prop :=
  ∀ entry, store.cache.entries[index]? = some entry → entry.valid = false

/-- A cleared entry stays dormant. -/
theorem dormant_pageCacheClear (dormant : Dormant store index) (other : Nat) :
    Dormant (store.pageCacheClear other) index := by
  have unlinked : Dormant { store with cache := store.cache.unlink other } index := by
    intro entry stored
    obtain ⟨old, found, same⟩ := (PageCache.alike_unlink other).entry stored
    have valid : old.bare.valid = entry.bare.valid := congrArg _ same
    exact valid.symm.trans (dormant old found)
  rw [pageCacheClear, dropEntry]
  split
  · exact unlinked
  intro entry stored
  rw [PageCache.modify, List.getElem?_modify] at stored
  obtain ⟨old, found, rfl⟩ := map_eq_some_iff.mp stored
  by_cases here : other = index
  · simp only [here, if_true]; rfl
  · simp only [here, if_false]; exact unlinked old found

/-- It stays so during a sweep. -/
theorem dormant_evictLoop : ∀ (step : Nat) {store : Store F},
    Dormant store index → Dormant (evictLoop remaining step store).2 index := by
  induction remaining with
  | zero => exact fun _ _ dormant => dormant
  | succ remaining ih =>
    intro step store dormant
    rw [evictLoop]
    dsimp only
    split
    · exact ih (step + 1) dormant
    have cleared := dormant_pageCacheClear dormant (store.cache.handAt step)
    split
    · exact ih (step + 1) cleared
    · exact cleared

/-- It stays so when a page is allocated. -/
theorem dormant_pageCacheAllocPage (dormant : Dormant store index) :
    Dormant store.pageCacheAllocPage.2 index := by
  rw [pageCacheAllocPage]
  split
  · exact dormant
  · exact dormant_evictLoop _ dormant

/-- The page that is stored. -/
theorem setPa_pa {entry : PageCacheEntry}
    (stored : (store.setPa index pa).cache.entries[index]? = some entry) : entry.pa = pa := by
  rw [setPa, PageCache.modify, List.getElem?_modify] at stored
  obtain ⟨old, -, rfl⟩ := map_eq_some_iff.mp stored
  simp

section

variable (accounts : Accounts outer hand store)

include accounts

/-- The page of an entry that is not valid may be recorded freely. -/
theorem trades_setPa (dormant : Dormant store index)
    (pa : Nat) : Trades outer hand store hand (store.setPa index pa) := by
  refine ⟨.forget accounts ?_, fun _ _ _ single => single, rfl⟩
  rintro (owner | other) page held
  · exact held
  obtain ⟨entry, stored, live, rest⟩ := held
  rw [setPa, PageCache.modify, List.getElem?_modify] at stored
  obtain ⟨old, found, rfl⟩ := map_eq_some_iff.mp stored
  by_cases here : index = other
  · subst here
    simp [dormant old found] at live
  · simp only [here, if_false] at live rest
    exact ⟨old, found, live, rest⟩

/-- The entry waits for its page. -/
theorem prepare_trades :
    Trades outer hand store hand (store.prepare node off index) ∧
      Dormant (store.prepare node off index) index := by
  constructor
  · have moved := trades_modify_invalid accounts index
      (preparedEntry node off (store.cache.clock + 1)) fun _ => rfl
    exact moved.trans (trades_alike moved.accounts (.refl _))
  · intro entry stored
    rw [prepare, PageCache.modify, List.getElem?_modify] at stored
    obtain ⟨old, -, rfl⟩ := map_eq_some_iff.mp stored
    simp [preparedEntry]

/-- The page is allocated and read. -/
theorem loadInto_trades : Trades outer hand store hand (store.loadInto host node off index).2 := by
  rw [loadInto]
  obtain ⟨ready, dormant⟩ := prepare_trades accounts
  have supplies := pageCacheAllocPage_supplies ready.accounts
  have still := dormant_pageCacheAllocPage dormant
  generalize (store.prepare node off index).pageCacheAllocPage = taken at supplies still ⊢
  cases found : taken.1 with
  | none =>
    have none := ready.trans (supplies.refused found)
    have unset := trades_setPa none.accounts still 0
    exact (none.trans unset).trans (trades_pageCacheClear unset.accounts index)
  | some pa =>
    have some_pa := ready.trans (supplies.supplied pa found)
    have set := trades_setPa some_pa.accounts still pa
    exact (some_pa.trans set).trans
      (fillEntry_trades host set.accounts fun _ stored => setPa_pa stored)

end

/-- A page is found or loaded. -/
theorem pageCacheLoad_trades (node : VfsNode) (off : Nat) (accounts : Accounts outer hand store) :
    Trades outer hand store hand (store.pageCacheLoad host node off).2 := by
  rw [pageCacheLoad]
  split
  · exact .refl accounts
  dsimp only
  have looked := trades_alike accounts (alike_find node (pageStart off))
  split
  · exact looked
  split
  · exact looked
  · rename_i found
    have victim := pageCacheVictim_trades looked.accounts found
    exact (looked.trans victim).trans (loadInto_trades host victim.accounts)

/-- Further pages are loaded, by induction over their number. -/
theorem readahead_trades (node : VfsNode) (off remaining : Nat) : ∀ (step : Nat) {store : Store F},
    Accounts outer hand store →
      Trades outer hand store hand (readahead host node off remaining step store) := by
  induction remaining with
  | zero => exact fun _ _ accounts => .refl accounts
  | succ remaining ih =>
    intro step store accounts
    rw [readahead]
    split
    · exact .refl accounts
    · have loaded := pageCacheLoad_trades host node (off + step * pageSize) accounts
      exact loaded.trans (ih (step + 1) loaded.accounts)

/-- The page found is owned by a valid entry of the file and position asked for. -/
theorem cachedPage_trades (accounts : Accounts outer hand store) :
    Trades outer hand store hand (store.cachedPage host node off).2 ∧
      ∀ entry, (store.cachedPage host node off).1 = some entry →
        ∃ index : Nat, (store.cachedPage host node off).2.cache.entries[index]? = some entry ∧
          keyEq entry node (pageStart off) := by
  rw [cachedPage]
  split
  · exact ⟨.refl accounts, fun entry found => by cases found⟩
  dsimp only
  have looked := trades_alike accounts (alike_find node (pageStart off))
  have loaded := pageCacheLoad_trades host node (pageStart off) looked.accounts
  split
  · exact ⟨looked.trans loaded, fun entry found => by cases found⟩
  have ahead := readahead_trades host node (pageStart off) readaheadPages 1 loaded.accounts
  have again := trades_alike ahead.accounts (alike_find node (pageStart off))
  refine ⟨((looked.trans loaded).trans ahead).trans again, fun entry found => ?_⟩
  obtain ⟨index, hit, stored⟩ := bind_eq_some_iff.mp found
  obtain ⟨entry', stored', same⟩ := find_spec hit
  obtain rfl := some.inj (stored'.symm.trans stored)
  exact ⟨index, stored, same⟩

/-- A retained page is one more reference in hand; owners outside that have a page for
themselves are not concerned. -/
theorem vfsRetainPageCached_supplies (node : VfsNode) (off : Nat)
    (accounts : Accounts outer hand store) :
    Supplies outer hand store (store.vfsRetainPageCached host node off) := by
  rw [vfsRetainPageCached]
  obtain ⟨traded, owned⟩ := cachedPage_trades host accounts
  generalize store.cachedPage host node off = found at traded owned ⊢
  cases hit : found.1 with
  | none => exact .ofNone traded
  | some entry =>
    obtain ⟨index, stored, same_key⟩ := owned entry hit
    dsimp only
    split
    · exact .ofNone traded
    rename_i some_pa
    split
    · exact .ofNone traded
    rename_i pmm shared
    obtain ⟨-, -, -, tracked, counted⟩ := Pmm.sharePage_spec shared
    have live : entry.valid := by
      simp only [keyEq, Bool.and_eq_true] at same_key
      exact same_key.1.1.1.1
    have refers : found.2.cache.Refs index (entry.pa / pageSize) :=
      ⟨entry, stored, live, some_pa, rfl⟩
    refine .ofSome (traded.trans ⟨?_, fun owner page held single => ?_, tracked⟩)
    · rw [Accounts, Phys.Accounts, Multiset.cons_add]
      refine .take traded.accounts _ ?_ fun other different => ?_
      · simp [counted]
      · simp [counted, different]
    · have different : page ≠ entry.pa / pageSize := by
        rintro rfl
        have same := Counted.unique traded.accounts single
          (show allRefs outer _ (Sum.inl owner) _ from held)
          (show allRefs outer found.2.cache (Sum.inr index) _ from refers)
        cases same
      simp [counted, different, single]

/-- The page handed out is a whole page of memory. -/
theorem vfsRetainPageCached_pa (found : (store.vfsRetainPageCached host node off).1 = some pa) :
    pa % pageSize = 0 ∧
      pa / pageSize < (store.vfsRetainPageCached host node off).2.phys.pmm.tracked := by
  rw [vfsRetainPageCached] at found ⊢
  split at found
  · contradiction
  rename_i entry hit
  split at found
  · contradiction
  rename_i some_pa
  split at found
  · contradiction
  rename_i pmm shared
  obtain ⟨aligned, inside, -, tracked, -⟩ := Pmm.sharePage_spec shared
  cases found
  rw [if_neg some_pa]
  exact ⟨aligned, by rw [tracked]; exact inside⟩

/-- A read through the cache. -/
theorem vfsReadPageCached_trades (node : VfsNode) (off : Nat)
    (accounts : Accounts outer hand store) :
    Trades outer hand store hand (store.vfsReadPageCached host node off).2 :=
  (cachedPage_trades host accounts).1

/-! ## Invalidation and writing -/

/-- All entries of a node are cleared. -/
theorem invalidateLoop_trades :
    ∀ (index : Nat) {store : Store F}, Accounts outer hand store →
      Trades outer hand store hand (invalidateLoop node remaining index store) := by
  induction remaining with
  | zero => exact fun _ _ accounts => .refl accounts
  | succ remaining ih =>
    intro index store accounts
    rw [invalidateLoop]
    split
    · have cleared := trades_pageCacheClear accounts index
      exact cleared.trans (ih (index + 1) cleared.accounts)
    · exact ih (index + 1) accounts

/-- A write clears the entries of its node. -/
theorem vfsWrite_trades (data : List UInt8) (accounts : Accounts outer hand store) :
    Trades outer hand store hand (store.vfsWrite host node off data).2 := by
  rw [vfsWrite]
  split
  · exact .refl accounts
  have invalidated : Trades outer hand store hand (store.vfsPageCacheInvalidate node) :=
    invalidateLoop_trades 0 accounts
  split
  · exact invalidated.trans (.ofPhys (Phys.trades_kernelPages invalidated.accounts _))
  · exact invalidated

/-! ## Pages in hand -/

/-- A page of the hand is as safe as a page of an owner: what trades among owners leaves a page
of the hand that is counted once counted once. -/
theorem trades_holding {store' : Store F} (accounts : Accounts outer (page ::ₘ hand) store)
    (trade : Accounts (Counted.withHolder outer page) hand store →
      Trades (Counted.withHolder outer page) hand store hand store') :
    Trades outer (page ::ₘ hand) store (page ::ₘ hand) store' ∧
      (store.phys.pmm.refcount page = 1 → store'.phys.pmm.refcount page = 1) := by
  -- The holder is one more owner beside the outer ones and the cache.
  let outward : Option Owner ⊕ Nat → Option (Owner ⊕ Nat) :=
    Sum.elim (Option.map Sum.inl) fun index => some (Sum.inr index)
  let inward : Option (Owner ⊕ Nat) → Option Owner ⊕ Nat
    | none => Sum.inl none
    | some (Sum.inl owner) => Sum.inl (some owner)
    | some (Sum.inr index) => Sum.inr index
  have outwardInjective : Function.Injective outward :=
    Function.LeftInverse.injective (g := inward) (by rintro ((_ | _) | _) <;> rfl)
  have inwardInjective : Function.Injective inward :=
    Function.LeftInverse.injective (g := outward) (by rintro (_ | (_ | _)) <;> rfl)
  rw [Accounts, Phys.Accounts, Multiset.cons_add] at accounts
  have traded := trade (.rename outward (Counted.holder_iff.mpr accounts) outwardInjective
    (by rintro ((_ | _) | _) p held <;> exact held))
  refine ⟨⟨?_, fun owner p => traded.exclusive (some owner) p, traded.tracked⟩,
    traded.exclusive none page rfl⟩
  rw [Accounts, Phys.Accounts, Multiset.cons_add]
  refine Counted.holder_iff.mp (.rename inward traded.accounts inwardInjective ?_)
  rintro (_ | (_ | _)) p held <;> exact held

end

end Store

end Spore
