import Spore.Mm.AddressSpace
import Spore.Mm.Leaves

/-!
# Destroying and copying page tables

`destroy_table` and `clone_table_cow` walk all four levels. The walk of the first is turned
into the list of words that it visits, each once; the second is followed by induction over the
levels, with the copy holding clones of the source's leaves and nothing else.
-/

namespace Spore.Mm

open Spore.Lib List

variable {F : Type} {s : Memory F} {id : SpaceId} {as : UserAddressSpace}
  {level table page index below : Nat} {host : FileHost F} {owner : SpaceOwner ⊕ Nat}

namespace Memory

variable {under : Nat → List (Nat × Nat)} {j : SpaceId}

/-! ## Destroying -/

/-- The words that one round of `destroy_table` gives pages of back. -/
def visitedEntry (as : UserAddressSpace) (level : Nat) (under : Nat → List (Nat × Nat))
    (index : Nat) : List (Nat × Nat) :=
  if isValid (as.entry level index) = false then []
  else if isLeafAtLevel (as.entry level index) level then [(level, index)]
  else under index ++ [(level, index)]

/-- The words that `destroy_table` visits, in order. -/
def visited (as : UserAddressSpace) : (below level table : Nat) → List (Nat × Nat)
  | 0, level, table =>
    (List.range 512).flatMap fun i => visitedEntry as level (fun _ => []) (table * 512 + i)
  | below + 1, level, table =>
    (List.range 512).flatMap fun i =>
      visitedEntry as level (visited as below (level + 1)) (table * 512 + i)

/-- Give back the page of a word. -/
def freeWord (as : UserAddressSpace) (phys : Phys F) (at_ : Nat × Nat) : Phys F :=
  phys.freePage (addrOf (as.entry at_.1 at_.2))

/-- One entry of the teardown, as a fold over what lies below. -/
theorem destroyEntry_eq (as : UserAddressSpace) (level : Nat) {descend : Nat → Phys F → Phys F}
    (under : Nat → List (Nat × Nat))
    (same : ∀ index phys, descend index phys = (under index).foldl (freeWord as) phys)
    (phys : Phys F) :
    destroyEntry as level descend phys index =
      (visitedEntry as level under index).foldl (freeWord as) phys := by
  unfold destroyEntry visitedEntry
  dsimp only
  split
  · rfl
  split
  · rfl
  · rw [foldl_append, same]
    rfl

/-- `destroy_table` gives back the pages of the words it visits. -/
theorem destroyTable_eq : ∀ (level table : Nat) (phys : Phys F),
    destroyTable as below level table phys =
      (visited as below level table).foldl (freeWord as) phys := by
  induction below with
  | zero =>
    intro level table phys
    rw [destroyTable, visited, foldl_flatMap]
    congr 1
    funext phys i
    exact destroyEntry_eq as level (fun _ => []) (fun _ _ => rfl) phys
  | succ below ih =>
    intro level table phys
    rw [destroyTable, visited, foldl_flatMap]
    congr 1
    funext phys i
    exact destroyEntry_eq as level _ (fun index phys => ih (level + 1) index phys) phys

/-- A visited word is valid and lies below the table. -/
theorem mem_visitedEntry {index l j : Nat} (member : (l, j) ∈ visitedEntry as level under index) :
    (isValid (as.entry level index) ∧ l = level ∧ j = index) ∨ (l, j) ∈ under index := by
  unfold visitedEntry at member
  split at member
  · exact (not_mem_nil member).elim
  rename_i valid
  have live : isValid (as.entry level index) := by simpa using valid
  split at member
  · simp only [mem_singleton, Prod.mk.injEq] at member
    exact .inl ⟨live, member⟩
  rcases mem_append.mp member with inside | here
  · exact .inr inside
  · simp only [mem_singleton, Prod.mk.injEq] at here
    exact .inl ⟨live, here⟩

/-- A word visited for an entry lies below the entry. -/
theorem mem_visitedEntry_below {index l j : Nat}
    (below : ∀ {l j}, (l, j) ∈ under index → isValid (as.entry l j) ∧ level + 1 ≤ l ∧
      j / 512 ^ (l - (level + 1) + 1) = index)
    (member : (l, j) ∈ visitedEntry as level under index) :
    isValid (as.entry l j) ∧ level ≤ l ∧ j / 512 ^ (l - level) = index := by
  rcases mem_visitedEntry member with ⟨valid, rfl, rfl⟩ | deeper
  · refine ⟨valid, Nat.le_refl _, ?_⟩
    rw [Nat.sub_self, Nat.pow_zero, Nat.div_one]
  obtain ⟨valid, low, quotient⟩ := below deeper
  have depth : l - (level + 1) + 1 = l - level := by omega
  rw [depth] at quotient
  exact ⟨valid, by omega, quotient⟩

/-- What holds of the words visited below a table, from what holds for its entries. -/
theorem mem_visited_table {i l j : Nat} (small : i < 512)
    (found : isValid (as.entry l j) ∧ level ≤ l ∧ j / 512 ^ (l - level) = table * 512 + i) :
    isValid (as.entry l j) ∧ level ≤ l ∧ j / 512 ^ (l - level + 1) = table := by
  refine ⟨found.1, found.2.1, ?_⟩
  rw [Nat.pow_succ, ← Nat.div_div_eq_div_mul, found.2.2]
  omega

/-- The words that a teardown visits lie below its table. -/
theorem mem_visited : ∀ {level table l j : Nat},
    (l, j) ∈ visited as below level table →
      isValid (as.entry l j) ∧ level ≤ l ∧ j / 512 ^ (l - level + 1) = table := by
  induction below with
  | zero =>
    intro level table l j member
    rw [visited, mem_flatMap] at member
    obtain ⟨i, small, found⟩ := member
    exact mem_visited_table (mem_range.mp small)
      (mem_visitedEntry_below (fun none => (not_mem_nil none).elim) found)
  | succ below ih =>
    intro level table l j member
    rw [visited, mem_flatMap] at member
    obtain ⟨i, small, found⟩ := member
    exact mem_visited_table (mem_range.mp small) (mem_visitedEntry_below ih found)

/-- No word is visited twice below one table if none is below one of its entries. -/
theorem nodup_entries
    (below : ∀ {index l j}, (l, j) ∈ under index → isValid (as.entry l j) ∧ level + 1 ≤ l ∧
      j / 512 ^ (l - (level + 1) + 1) = index) (distinct : ∀ index, (under index).Nodup) :
    ((range 512).flatMap fun i => visitedEntry as level under (table * 512 + i)).Nodup := by
  refine nodup_flatMap.mpr ⟨fun i _ => ?_, ?_⟩
  · unfold visitedEntry
    split
    · exact nodup_nil
    split
    · exact nodup_singleton _
    refine nodup_append.mpr ⟨distinct _, nodup_singleton _, ?_⟩
    rintro ⟨l, j⟩ deeper here member rfl
    obtain ⟨-, low, -⟩ := below deeper
    simp only [mem_singleton, Prod.mk.injEq] at member
    omega
  · refine List.Pairwise.imp ?_ (nodup_range (n := 512))
    intro i k different
    rintro ⟨l, j⟩ first second
    have one := (mem_visitedEntry_below below first).2.2
    have two := (mem_visitedEntry_below below second).2.2
    omega

/-- No word is visited twice. -/
theorem visited_nodup : ∀ (level table : Nat), (visited as below level table).Nodup := by
  induction below with
  | zero =>
    intro level table
    exact nodup_entries (fun none => (not_mem_nil none).elim) fun _ => nodup_nil
  | succ below ih =>
    intro level table
    exact nodup_entries mem_visited fun index => ih (level + 1) index

/-- The addresses that `vmm_destroy` gives back. -/
def freed (as : UserAddressSpace) : List Nat :=
  if as.rootPa = 0 then []
  else (visited as 3 0 0).map (fun at_ => addrOf (as.entry at_.1 at_.2)) ++ [as.rootPa]

/-- `vmm_destroy` gives back the pages of the tables, the leaves and the root. -/
theorem destroy_phys :
    (s.destroy id).phys = (freed (s.space id).as).foldl Phys.freePage s.phys := by
  unfold destroy freed
  dsimp only
  split
  · rfl
  rw [foldl_append, foldl_map]
  show (destroyTable _ _ _ _ _).freePage _ = _
  rw [destroyTable_eq]
  rfl

/-- Other spaces stay. -/
theorem destroy_others (other : j ≠ id) : (s.destroy id).space j = s.space j := by
  unfold destroy
  dsimp only
  split
  · rfl
  · simp [setSpace, other]

/-- The page cache stays. -/
theorem destroy_cache : (s.destroy id).store.cache = s.store.cache := by
  unfold destroy
  dsimp only
  split <;> rfl

/-- Areas are not destroyed with the tables. -/
theorem destroy_vmas (j : SpaceId) : ((s.destroy id).space j).vmas = (s.space j).vmas := by
  unfold destroy
  dsimp only
  split
  · rfl
  · by_cases here : j = id <;> simp [setSpace, here]

/-- The space is free. -/
@[simp] theorem retire_live_self (s : Memory F) (id : SpaceId) :
    ((s.retire id).space id).live = false := by
  simp [retire, setSpace]

/-- The others stay. -/
theorem retire_others (other : j ≠ id) : (s.retire id).space j = s.space j := by
  simp [retire, setSpace, other]

/-- The others stay. -/
theorem discard_others (other : j ≠ id) : (s.discard host id).space j = s.space j := by
  rw [discard, retire_others other, setVmas]
  simp only [setSpace, other, if_false]
  exact destroy_others other

/-- The space is free afterwards. -/
@[simp] theorem discard_live_self : ((s.discard host id).space id).live = false :=
  retire_live_self _ _

/-- The owners of what `vmm_destroy` gives back. -/
def tablePairs (id : SpaceId) (as : UserAddressSpace) : List ((SpaceOwner ⊕ Nat) × Nat) :=
  if as.rootPa = 0 then []
  else (visited as 3 0 0).map (fun at_ =>
      (Sum.inl (.entry id at_.1 at_.2), pageOf (as.entry at_.1 at_.2))) ++
    [(Sum.inl (.root id), as.rootPa / pageSize)]

/-- The pages that a teardown frees. -/
theorem tablePairs_snd : (tablePairs id as).map Prod.snd = (freed as).map (· / pageSize) := by
  unfold tablePairs freed
  split
  · rfl
  · simp [Function.comp_def, pageOf]

/-- An owner of what `vmm_destroy` gives back is the root or a word. -/
theorem mem_tablePairs (member : (owner, page) ∈ tablePairs id as) :
    (∃ l j, owner = Sum.inl (.entry id l j) ∧ isValid (as.entry l j) ∧
      pageOf (as.entry l j) = page) ∨
    (owner = Sum.inl (.root id) ∧ as.rootPa ≠ 0 ∧ as.rootPa / pageSize = page) := by
  unfold tablePairs at member
  split at member
  · exact (not_mem_nil member).elim
  rename_i rooted
  rcases mem_append.mp member with word | root
  · obtain ⟨⟨l, j⟩, seen, same⟩ := mem_map.mp word
    cases same
    exact .inl ⟨l, j, rfl, (mem_visited seen).1, rfl⟩
  · obtain ⟨rfl, rfl⟩ := Prod.mk.inj (mem_singleton.mp root)
    exact .inr ⟨rfl, rooted, rfl⟩

/-- Each owner is there once. -/
theorem tablePairs_nodup : ((tablePairs id as).map Prod.fst).Nodup := by
  unfold tablePairs
  split
  · exact nodup_nil
  rw [map_append, map_map]
  refine nodup_append.mpr ⟨(visited_nodup 0 0).map ?_, nodup_singleton _, ?_⟩
  · rintro ⟨l, j⟩ ⟨l', j'⟩ same
    simpa using same
  intro first word second root same
  obtain ⟨at_, -, rfl⟩ := mem_map.mp word
  rw [map_cons, map_nil, mem_singleton] at root
  subst root
  simp at same

end Memory

section

open Memory

variable {rule : LeafRule} {attr : SpaceId → Nat → Option AreaRights} {hand : Multiset Nat}

/-- The address space of an owner. -/
def ownerSpace : SpaceOwner → SpaceId
  | .root id => id
  | .entry id _ _ => id
  | .chunk id _ => id

/-- A retired address space refers to nothing, and the others are as before. -/
theorem Memory.refs_retire {owner : SpaceOwner} (held : spaceRefs (s.retire id).space owner page) :
    spaceRefs s.space owner page ∧ ownerSpace owner ≠ id := by
  have other : ownerSpace owner ≠ id := by
    rintro rfl
    cases owner <;> simpa [ownerSpace] using held.1
  have same : (s.retire id).space (ownerSpace owner) = s.space (ownerSpace owner) :=
    retire_others other
  refine ⟨?_, other⟩
  cases owner <;> dsimp only [spaceRefs, ownerSpace] at held same ⊢ <;> rwa [same] at held

/-- The owners of all references of an address space. -/
def allPairs (id : SpaceId) (space : Space) : List ((SpaceOwner ⊕ Nat) × Nat) :=
  tablePairs id space.as ++ chunkPairs id (space.vmas.chunkPa.map (· / pageSize))

/-- The owners of a space are its own. -/
theorem mem_allPairs {space : Space}
    (member : (owner, page) ∈ allPairs id space) : ∃ o, owner = Sum.inl o ∧ ownerSpace o = id := by
  rcases mem_append.mp member with table | chunk
  · rcases mem_tablePairs table with ⟨l, j, rfl, -⟩ | ⟨rfl, -⟩ <;> exact ⟨_, rfl, rfl⟩
  · obtain ⟨position, rfl, -⟩ := mem_chunkPairs.mp chunk
    exact ⟨_, rfl, rfl⟩

/-- They own what they are paired with. -/
theorem allPairs_refs (live : (s.space id).live)
    (member : (owner, page) ∈ allPairs id (s.space id)) :
    Store.allRefs (spaceRefs s.space) s.store.cache owner page := by
  rcases mem_append.mp member with table | chunk
  · rcases mem_tablePairs table with ⟨l, j, rfl, valid, page_eq⟩ | ⟨rfl, rooted⟩
    · exact ⟨live, valid, page_eq⟩
    · exact ⟨live, rooted⟩
  · obtain ⟨position, rfl, stored⟩ := mem_chunkPairs.mp chunk
    exact ⟨live, stored⟩

/-- None is there twice. -/
theorem allPairs_nodup (space : Space) : ((allPairs id space).map Prod.fst).Nodup := by
  rw [allPairs, map_append]
  refine nodup_append.mpr ⟨tablePairs_nodup, chunkPairs_nodup _, ?_⟩
  intro first table second chunk same
  obtain ⟨⟨owner, page⟩, listed, rfl⟩ := mem_map.mp table
  obtain ⟨⟨owner', page'⟩, listed', rfl⟩ := mem_map.mp chunk
  obtain ⟨position, rfl, -⟩ := mem_chunkPairs.mp listed'
  rcases mem_tablePairs listed with ⟨l, j, rfl, -⟩ | ⟨rfl, -⟩ <;> simp at same

/-- A free space is subject to nothing. -/
theorem Disciplined.retire (inv : Disciplined rule attr hand s) :
    Disciplined rule attr hand (s.retire id) :=
  inv.spaces rfl fun j live => by
    have other : j ≠ id := by
      rintro rfl
      rw [retire_live_self] at live
      contradiction
    rw [retire_others other] at live ⊢
    exact ⟨live, .refl _⟩

/-- The pages that an address space which is given up referred to. -/
theorem pages_allPairs : ((freed (s.space id).as).map (· / pageSize) : Multiset Nat) +
    ((s.space id).vmas.pages + hand) =
      ((allPairs id (s.space id)).map Prod.snd : Multiset Nat) + hand := by
  rw [allPairs, map_append, tablePairs_snd, chunkPairs_snd, ← Multiset.coe_add, add_assoc]
  rfl

/-- All references of a retired address space are in hand. -/
theorem Disciplined.takeAll (inv : Disciplined rule attr hand s) (live : (s.space id).live) :
    Disciplined rule attr (((freed (s.space id).as).map (· / pageSize) : List Nat) +
      ((s.space id).vmas.pages + hand)) (s.retire id) := by
  refine ⟨?_, inv.retire.tree, inv.retire.leaves, inv.addressable⟩
  rw [Store.Accounts, Phys.Accounts, pages_allPairs, add_assoc]
  refine .unlinkAll _ inv.accounts (fun pair member => allPairs_refs live member)
    (allPairs_nodup _) ?_
  rintro (owner | cached) page held
  · obtain ⟨old, other⟩ := refs_retire held
    refine ⟨old, fun member => ?_⟩
    obtain ⟨⟨named, page'⟩, listed, rfl⟩ := mem_map.mp member
    obtain ⟨o, same, here⟩ := mem_allPairs listed
    exact other (Sum.inl.inj same ▸ here)
  · refine ⟨held, fun member => ?_⟩
    obtain ⟨⟨named, page'⟩, listed, same⟩ := mem_map.mp member
    obtain ⟨o, rfl, -⟩ := mem_allPairs listed
    cases same

/-- After `vmm_destroy` only the chunks of a retired address space are in hand. -/
theorem Disciplined.destroy (inv : Disciplined rule attr hand s) (live : (s.space id).live) :
    Disciplined rule attr ((s.space id).vmas.pages + hand)
      ((s.retire id).setPhys (s.destroy id).phys) := by
  have taken := inv.takeAll live
  rw [destroy_phys]
  exact taken.tradePhys (Phys.trades_freeAll _ taken.accounts)

/-- `vmm_destroy` and `vma_list_destroy` of an address space that is given up. -/
theorem Disciplined.discard (host : FileHost F) (inv : Disciplined rule attr hand s)
    (live : (s.space id).live) : Disciplined rule attr hand (s.discard host id) := by
  have tables := inv.destroy live
  have areas := tables.tradePhys (vmaListDestroy_trades host (s.space id).vmas tables.accounts)
  refine areas.spaces ?_ fun j live' => ?_
  · show Store.mk _ _ = Store.mk _ _
    rw [destroy_vmas, destroy_cache]
    rfl
  have other : j ≠ id := by
    rintro rfl
    rw [discard_live_self] at live'
    contradiction
  rw [discard_others other] at live' ⊢
  show ((s.retire id).space j).live = true ∧ SameTables ((s.retire id).space j) _
  rw [retire_others other]
  exact ⟨live', .refl _⟩

end

/-! ## Copying -/

/-- What `clone_table_cow` on a table of some level leaves as it is: the words of the copy above
that level, and all areas. -/
structure Clones (dst : SpaceId) (level : Nat) (s s' : Memory F) : Prop where
  /-- Words above the level stay. -/
  upper : ∀ l i, l < level → s'.entry dst l i = s.entry dst l i
  /-- Areas stay. -/
  areas : SameAreas s s'

namespace Clones

variable {dst : SpaceId} {level : Nat} {s s' : Memory F}

/-- Nothing is cloned. -/
theorem refl (s : Memory F) : Clones dst level s s := ⟨fun _ _ _ => rfl, .refl s⟩

/-- Cloning in two steps. -/
theorem trans {s'' : Memory F} (first : Clones dst level s s') (second : Clones dst level s' s'') :
    Clones dst level s s'' :=
  ⟨fun l i above => (second.upper l i above).trans (first.upper l i above),
    first.areas.trans second.areas⟩

/-- What is below a level is below the one above. -/
theorem weaken (clones : Clones dst (level + 1) s s') : Clones dst level s s' :=
  ⟨fun l i above => clones.upper l i (Nat.lt_succ_of_lt above), clones.areas⟩

end Clones

section Copy

open Memory

variable {rule : LeafRule} {attr : SpaceId → Nat → Option AreaRights} {hand : Multiset Nat}
  {s : Memory F} {dst src : SpaceId} {level index : Nat}
  {descend : Nat → Memory F → Bool × Memory F}

/-- A leaf of the source becomes a leaf of both, marked if it could be written. -/
theorem cloneLeaf_spec (inv : Disciplined rule attr hand s)
    (live : (s.space src).live) (alike : attr dst = attr src)
    (valid : isValid (s.entry src 3 index)) (present : isTable (s.entry dst 2 (index / 512))) :
    Disciplined rule attr hand (s.cloneLeaf dst src 3 index).2 ∧
      Clones dst 3 s (s.cloneLeaf dst src 3 index).2 := by
  unfold cloneLeaf
  dsimp only
  split
  · exact ⟨inv, .refl s⟩
  rename_i pmm shared
  obtain ⟨attrs, meant, obeys⟩ := inv.leaves src index live valid
  have fields : Fields (clonedWord (s.entry src 3 index)) _ _ _ _ := clonedWord_fields
  set cloned := clonedWord (s.entry src 3 index)
  have loose : ∀ alone : Prop, rule.holds alone attrs (isWritableLeaf cloned) (isCow cloned) := by
    intro alone
    rw [fields.writable, fields.cow]
    exact rule.cloned obeys
  have page : pageOf cloned = pageOf (s.entry src 3 index) := congrArg (· / pageSize) fields.addr
  have marked := inv.rewriteLeaf live valid page meant (fun _ _ _ => rfl) (loose _)
  have word : (s.setEntry src 3 index cloned).entry src 3 index = cloned :=
    Memory.entry_setEntry_self
  have taken := marked.share ((Memory.live_setEntry _ src).trans live)
    (by rw [word, fields.valid, valid]) ⟨attrs, meant, by rw [word]; exact loose⟩
    (by rw [word, fields.addr]; exact shared)
  rw [word] at taken
  have kept : (s.setEntry src 3 index cloned).entry dst 2 (index / 512) =
      s.entry dst 2 (index / 512) := Memory.entry_setEntry_ne (by simp)
  constructor
  · exact taken.setLeaf rfl (kept.trans (by exact rfl) ▸ present)
      ((congrFun alike index).trans meant) (loose _)
  refine ⟨fun l i above => ?_, ?_⟩
  · rw [Memory.entry_setEntry_ne (by omega), Memory.entry_setEntry_ne (by omega),
      Memory.entry_setPhys]
  · exact ((SameAreas.setPhys _).trans (.setEntry _ _ _ _)).trans (.setEntry _ _ _ _)

/-- What the recursive call of `clone_table_cow` does. -/
def DescendSpec (rule : LeafRule) (attr : SpaceId → Nat → Option AreaRights) (hand : Multiset Nat)
    (dst src : SpaceId) (level : Nat) (descend : Nat → Memory F → Bool × Memory F) : Prop :=
  ∀ {index : Nat} {s : Memory F}, Disciplined rule attr hand s → (s.space src).live = true →
    isTable (s.entry dst level index) = true →
    Disciplined rule attr hand (descend index s).2 ∧ Clones dst (level + 1) s (descend index s).2

/-- One entry is cloned: a leaf is shared, a table is descended into. -/
theorem cloneEntry_spec (below : level < 3 → DescendSpec rule attr hand dst src level descend)
    (upper : level ≤ 3) (alike : attr dst = attr src)
    (inv : Disciplined rule attr hand s) (live : (s.space src).live)
    (parent : ∀ l, l + 1 = level → isTable (s.entry dst l (index / 512))) :
    Disciplined rule attr hand (cloneEntry dst src level descend index s).2 ∧
      Clones dst level s (cloneEntry dst src level descend index s).2 := by
  unfold cloneEntry
  split
  · exact ⟨inv, .refl s⟩
  rename_i valid
  have valid : isValid (s.entry src level index) := by simpa using valid
  have last := isLeafAtLevel_iff valid fun (other : level ≠ 3) =>
    (inv.tree src live).table level index (by omega) valid
  split
  · rename_i leaf
    obtain rfl := last.mp leaf
    exact cloneLeaf_spec inv live alike valid (parent 2 rfl)
  rename_i table
  have inner : level < 3 := Nat.lt_of_le_of_ne upper fun bottom => table (last.mpr bottom)
  split
  · exact ⟨inv, .refl s⟩
  rename_i pa phys found
  obtain ⟨traded, -, aligned, inside⟩ := Phys.trades_allocZeroPage inv.accounts found
  have small := small_of_page inv.addressable aligned inside
  have linked := (inv.tradePhys traded).linkTable inner aligned small parent
  have table : isTable (((s.setPhys phys).linkTable dst level index pa).entry dst level index)
      = true := by
    rw [Memory.entry_linkTable, if_pos ⟨rfl, rfl, rfl⟩]
    exact (tableWord_fields aligned small).1
  obtain ⟨done, clones⟩ := below inner linked ((Memory.live_linkTable _ _).trans live) table
  have link : Clones dst level s ((s.setPhys phys).linkTable dst level index pa) := by
    refine ⟨fun l i above => ?_, (SameAreas.setPhys phys).trans (.linkTable _ _ _ _)⟩
    rw [Memory.entry_linkTable, if_neg (by omega), if_neg (by omega), Memory.entry_setPhys]
  exact ⟨done, link.trans clones.weaken⟩

/-- The loop of `clone_table_cow` over one table, from what one round does. -/
theorem cloneRounds_spec
    (below : level < 3 → DescendSpec rule attr hand dst src level descend) (upper : level ≤ 3)
    (alike : attr dst = attr src) (inv : Disciplined rule attr hand s) (live : (s.space src).live)
    (parent : ∀ l, l + 1 = level → isTable (s.entry dst l table)) :
    Disciplined rule attr hand
      (countUp (fun i => cloneEntry dst src level descend (table * 512 + i))
        512 0 s).2 ∧
      Clones dst level s (countUp (fun i => cloneEntry dst src level descend (table * 512 + i))
        512 0 s).2 := by
  refine countUp_keeps (fun now => Disciplined rule attr hand now ∧ Clones dst level s now) 512 0
    ?_ ⟨inv, .refl s⟩
  intro k now _ small ⟨good, clones⟩
  have still : ∀ l, l + 1 = level → isTable (now.entry dst l ((table * 512 + k) / 512)) := by
    intro l same
    rw [show (table * 512 + k) / 512 = table by omega, clones.upper l table (by omega)]
    exact parent l same
  obtain ⟨next, step⟩ := cloneEntry_spec below upper alike good (clones.areas.isLive live) still
  exact ⟨next, clones.trans step⟩

/-- A table is cloned, by induction over the levels below. -/
theorem cloneTable_spec (alike : attr dst = attr src) (below : Nat) :
    ∀ (level table : Nat) {s : Memory F}, level + below = 3 → Disciplined rule attr hand s →
      (s.space src).live →
      (∀ l, l + 1 = level → isTable (s.entry dst l table)) →
      Disciplined rule attr hand (cloneTable dst src below level table s).2 ∧
        Clones dst level s (cloneTable dst src below level table s).2 := by
  induction below with
  | zero =>
    intro level table s depth inv live parent
    exact cloneRounds_spec (fun inner => by omega) (by omega) alike inv live parent
  | succ below ih =>
    intro level table s depth inv live parent
    refine cloneRounds_spec (fun _ => ?_) (by omega) alike inv live parent
    intro index s inv live table
    exact ih _ _ (by omega) inv live fun l same => by
      obtain rfl : l = level := by omega
      exact table

end Copy

end Spore.Mm
