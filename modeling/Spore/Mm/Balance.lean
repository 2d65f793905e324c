import Spore.Mm.Ledger
import Spore.Mm.Paging

/-!
# Pages and their owners, exactly

`Balanced` says that the counter of every page is the number of its owners: words and roots of
page tables, chunks of area lists, the page cache, the rest of the kernel, and the hand of the
code that is running. The lemmas of this module say what each elementary change of a word, a
table or an address space does to the balance. Mapping over a valid leaf, or giving up an
address space without destroying it, is not among them: both lose references.
-/

namespace Spore.Mm

open Spore.Lib Memory Store List

variable {F : Type} {reserved : Nat → Prop} {hand hand' : Multiset Nat} {s s' : Memory F}
  {page pa level index below l i : Nat} {word : BitVec 64} {id : SpaceId}

/-- The tables of an address space: linked properly, within the four levels, below an aligned
root, and empty as long as there is no root. -/
structure Shape (as : UserAddressSpace) : Prop where
  /-- Tables hang below tables. -/
  tree : Tree as
  /-- Words are within the levels. -/
  bounded : ∀ level index, isValid (as.entry level index) = true →
    level ≤ 3 ∧ index < 512 ^ (level + 1)
  /-- The root is a page. -/
  aligned : as.rootPa % pageSize = 0
  /-- Without a root nothing is mapped. -/
  unrooted : as.rootPa = 0 → ∀ level index, isValid (as.entry level index) = false

/-- Tables without a valid word have that shape. -/
theorem Shape.bare {as : UserAddressSpace} (aligned : as.rootPa % pageSize = 0)
    (none : ∀ level index, isValid (as.entry level index) = false) : Shape as := by
  have never : ∀ {level index}, isValid (as.entry level index) ≠ true := by
    intro level index
    rw [none]
    exact Bool.false_ne_true
  exact ⟨⟨fun _ _ _ valid => absurd valid never, fun _ _ _ valid => absurd valid never⟩,
    fun _ _ valid => absurd valid never, aligned, fun _ => none⟩

/-- Who refers to pages. -/
abbrev Memory.Owns (s : Memory F) : SpaceOwner ⊕ Nat → Nat → Prop :=
  Store.allRefs (spaceRefs s.space) s.store.cache

/-- Every counter is the number of owners of its page. -/
structure Balanced (reserved : Nat → Prop) (hand : Multiset Nat) (s : Memory F) : Prop where
  /-- Counters are numbers of owners. -/
  counts : Exact s.Owns (s.phys.loose hand) s.phys.pmm.refcount
  /-- The allocator is in order. -/
  orderly : s.phys.pmm.Orderly reserved
  /-- Tables have their shape. -/
  shape : ∀ id, (s.space id).live = true → Shape (s.space id).as
  /-- Area lists fit their chunks. -/
  placed : ∀ id, (s.space id).live = true → (s.space id).vmas.Placed
  /-- Page numbers fit a word. -/
  addressable : s.phys.pmm.tracked ≤ 2 ^ 36

namespace Balanced

section

variable (balanced : Balanced reserved hand s)

include balanced

/-- The allocator's books balance. -/
theorem solvent : s.phys.Solvent reserved hand := by
  refine ⟨balanced.orderly, fun page => ?_⟩
  have bound : ((s.phys.loose hand).count page : ℕ∞) ≤ (s.phys.pmm.refcount page : ℕ∞) := by
    rw [balanced.counts page]
    exact le_add_self
  exact_mod_cast bound

/-- Physical memory moves pages between the hand and the allocator. -/
theorem settle {phys : Phys F} (settles : s.phys.Settles reserved hand hand' phys) :
    Balanced reserved hand' (s.setPhys phys) :=
  ⟨balanced.counts.settle settles.moved, settles.orderly, balanced.shape, balanced.placed,
    settles.tracked.trans_le balanced.addressable⟩

end

/-- One address space changes. -/
theorem oneSpace (balanced : Balanced reserved hand s) (store : s'.store = s.store)
    (others : ∀ j, j ≠ id → s'.space j = s.space j)
    (counts : Exact s'.Owns (s.phys.loose hand') s.phys.pmm.refcount)
    (shape : (s'.space id).live → Shape (s'.space id).as)
    (placed : (s'.space id).live → (s'.space id).vmas.Placed) : Balanced reserved hand' s' := by
  have phys : s'.phys = s.phys := congrArg Store.phys store
  refine ⟨phys ▸ counts, phys ▸ balanced.orderly, fun j there => ?_, fun j there => ?_,
    phys ▸ balanced.addressable⟩
  · by_cases here : j = id
    · subst here
      exact shape there
    · rw [others j here] at there ⊢
      exact balanced.shape j there
  · by_cases here : j = id
    · subst here
      exact placed there
    · rw [others j here] at there ⊢
      exact balanced.placed j there

/-! ## Words -/

/-- Who refers to what after a word was written. -/
theorem owns_setEntry (owner : SpaceOwner ⊕ Nat) :
    (s.setEntry id level index word).Owns owner page ↔
      (owner = Sum.inl (.entry id level index) ∧ (s.space id).live ∧
        isValid word ∧ pageOf word = page) ∨
      (owner ≠ Sum.inl (.entry id level index) ∧ s.Owns owner page) := by
  cases owner with
  | inr cached => simp [Owns, allRefs, Memory.setEntry, Memory.setSpace]
  | inl owner =>
    constructor
    · intro held
      rcases refs_setEntry held with ⟨rfl, rest⟩ | ⟨other, old⟩
      · exact .inl ⟨rfl, rest⟩
      · exact .inr ⟨fun same => other (Sum.inl.inj same), old⟩
    rintro (⟨same, live, valid, page_eq⟩ | ⟨other, old⟩)
    · obtain rfl := Sum.inl.inj same
      refine ⟨(live_setEntry word id).trans live, ?_⟩
      rw [← Memory.entry, entry_setEntry_self]
      exact ⟨valid, page_eq⟩
    · cases owner with
      | root | chunk => simpa [Owns, allRefs, spaceRefs] using old
      | entry j l i =>
        have apart : ¬ (j = id ∧ l = level ∧ i = index) := by simpa using other
        obtain ⟨live, valid, page_eq⟩ := old
        refine ⟨(live_setEntry word j).trans live, ?_⟩
        rw [← Memory.entry, entry_setEntry_ne apart]
        exact ⟨valid, page_eq⟩

/-- A live address space with a table has a root. -/
theorem rooted_of_valid (balanced : Balanced reserved hand s) (live : (s.space id).live)
    (valid : isValid (s.entry id level index)) : (s.space id).as.rootPa ≠ 0 := by
  intro none
  have invalid := (balanced.shape id live).unrooted none level index
  rw [Memory.entry] at valid
  rw [valid] at invalid
  contradiction

/-- A word that is not valid owns nothing. -/
theorem not_owns_vacant (vacant : isValid (s.entry id level index) = false) (page : Nat) :
    ¬ s.Owns (Sum.inl (.entry id level index)) page := by
  intro owned
  have contra : isValid (s.entry id level index) := owned.2.1
  rw [vacant] at contra
  contradiction

/-- A leaf below a table changes. -/
theorem writeLeaf (balanced : Balanced reserved hand s) (live : (s.space id).live)
    (place : isValid word → index < 512 ^ 4 ∧ isTable (s.entry id 2 (index / 512)))
    (counts : Exact (s.setEntry id 3 index word).Owns (s.phys.loose hand') s.phys.pmm.refcount) :
    Balanced reserved hand' (s.setEntry id 3 index word) := by
  have shape := balanced.shape id live
  have changed : ∀ l i, ((s.setEntry id 3 index word).space id).as.entry l i =
      if id = id ∧ l = 3 ∧ i = index then word else (s.space id).as.entry l i :=
    fun l i => entry_setEntry word id l i
  refine balanced.oneSpace rfl (fun j apart => if_neg apart) counts (fun there => ?_) fun _ => ?_
  · refine ⟨tree_setLeaf (fun j live => (balanced.shape j live).tree)
      (fun _ valid => (place valid).2) id there, fun l i valid => ?_, ?_, fun none l i => ?_⟩
    · rw [changed] at valid
      split at valid
      · rename_i here
        obtain ⟨-, rfl, rfl⟩ := here
        exact ⟨Nat.le_refl 3, (place valid).1⟩
      · exact shape.bounded l i valid
    · rw [rootPa_setEntry]
      exact shape.aligned
    rw [rootPa_setEntry] at none
    rw [changed]
    split
    · by_contra valid
      have table := (place (by simpa using valid)).2
      exact balanced.rooted_of_valid live (isValid_of_isTable table) none
    · exact shape.unrooted none l i
  · rw [vmas_setEntry]
    exact balanced.placed id live

/-- A page of the hand is mapped where no valid leaf was. -/
theorem setLeaf (balanced : Balanced reserved (pageOf word ::ₘ hand) s)
    (live : (s.space id).live) (valid : isValid word)
    (vacant : isValid (s.entry id 3 index) = false)
    (present : isTable (s.entry id 2 (index / 512))) (bound : index < 512 ^ 4) :
    Balanced reserved hand (s.setEntry id 3 index word) := by
  refine balanced.writeLeaf live (fun _ => ⟨bound, present⟩) ?_
  have counts := balanced.counts
  rw [Phys.loose, Multiset.cons_add] at counts
  have free := not_owns_vacant vacant
  refine .link (Sum.inl (.entry id 3 index)) counts (free _) fun owner page => ?_
  rw [owns_setEntry]
  constructor
  · rintro (⟨rfl, -, -, rfl⟩ | ⟨-, old⟩)
    · exact .inr ⟨rfl, rfl⟩
    · exact .inl old
  · rintro (old | ⟨rfl, rfl⟩)
    · exact .inr ⟨fun same => free page (same ▸ old), old⟩
    · exact .inl ⟨rfl, live, valid, rfl⟩

section

variable (balanced : Balanced reserved hand s) (live : (s.space id).live = true)

include balanced live

/-- A leaf is unmapped and its page is in hand. -/
theorem clearLeaf (valid : isValid (s.entry id 3 index)) :
    Balanced reserved (pageOf (s.entry id 3 index) ::ₘ hand) (s.setEntry id 3 index 0) := by
  refine balanced.writeLeaf live (fun contra => by simp at contra) ?_
  rw [Phys.loose, Multiset.cons_add]
  refine .unlink balanced.counts
    (show s.Owns (Sum.inl (.entry id 3 index)) _ from ⟨live, valid, rfl⟩) fun owner page => ?_
  rw [owns_setEntry]
  constructor
  · rintro (⟨-, -, contra, -⟩ | ⟨other, old⟩)
    · simp at contra
    · exact ⟨old, fun same => other same.1⟩
  · rintro ⟨old, other⟩
    refine .inr ⟨?_, old⟩
    rintro rfl
    exact other ⟨rfl, old.2.2.symm⟩

/-- A leaf keeps its page and changes its permissions. -/
theorem rewriteLeaf (valid : isValid (s.entry id 3 index)) (still : isValid word)
    (page : pageOf word = pageOf (s.entry id 3 index)) :
    Balanced reserved hand (s.setEntry id 3 index word) := by
  have shape := balanced.shape id live
  refine balanced.writeLeaf live (fun _ => ⟨(shape.bounded 3 index valid).2,
    shape.tree.rooted 2 index (by omega) valid⟩) (balanced.counts.congr fun owner p => ?_)
  rw [owns_setEntry]
  constructor
  · rintro (⟨rfl, -, -, rfl⟩ | ⟨-, old⟩)
    · exact ⟨live, valid, page.symm⟩
    · exact old
  intro old
  by_cases here : owner = Sum.inl (.entry id 3 index)
  · subst here
    exact .inl ⟨rfl, live, still, page.trans old.2.2⟩
  · exact .inr ⟨here, old⟩

/-! ## Tables -/

/-- Below a word that is not valid nothing is. -/
theorem vacant_below
    (vacant : isValid (s.entry id level index) = false) {l i : Nat} (deeper : level < l)
    (under : i / 512 ^ (l - level) = index) : isValid (s.entry id l i) = false := by
  by_contra valid
  have valid : isValid ((s.space id).as.entry l i) := Bool.eq_true_of_not_eq_false valid
  have shape := balanced.shape id live
  have above := valid_above shape.tree level (l - level) i
    (by have := (shape.bounded l i valid).1; omega)
    (by rwa [Nat.add_sub_cancel' (Nat.le_of_lt deeper)])
  rw [under] at above
  rw [Memory.entry] at vacant
  rw [vacant] at above
  contradiction

/-- The words after a table was linked where no valid word was: the link, and the old valid
words. -/
theorem valid_linkTable_iff (vacant : isValid (s.entry id level index) = false) (j : SpaceId)
    (other : ¬ (j = id ∧ l = level ∧ i = index)) :
    isValid ((s.linkTable id level index pa).entry j l i) = isValid (s.entry j l i) ∧
    (isValid (s.entry j l i) →
      (s.linkTable id level index pa).entry j l i = s.entry j l i) := by
  rw [entry_linkTable, if_neg other]
  by_cases below : j = id ∧ level < l ∧ i / 512 ^ (l - level) = index
  · obtain ⟨rfl, deeper, under⟩ := below
    have none := balanced.vacant_below live vacant deeper under
    rw [if_pos ⟨rfl, deeper, under⟩, none]
    exact ⟨isValid_zero, by simp⟩
  · rw [if_neg below]
    exact ⟨rfl, fun _ => rfl⟩

end

/-- A page of the hand becomes a table. -/
theorem linkTable (balanced : Balanced reserved (pa / pageSize ::ₘ hand) s)
    (live : (s.space id).live) (upper : level < 3) (aligned : pa % pageSize = 0)
    (small : pa < 2 ^ 48) (vacant : isValid (s.entry id level index) = false)
    (bound : index < 512 ^ (level + 1)) (rooted : (s.space id).as.rootPa ≠ 0)
    (parent : ∀ l, l + 1 = level → isTable (s.entry id l (index / 512))) :
    Balanced reserved hand (s.linkTable id level index pa) := by
  obtain ⟨table, -, addr⟩ := tableWord_fields aligned small
  have words : ∀ j l i, ((s.linkTable id level index pa).space j).as.entry l i =
      (s.linkTable id level index pa).entry j l i := fun _ _ _ => rfl
  have old : ∀ j l i, ((s.space j).as.entry l i) = s.entry j l i := fun _ _ _ => rfl
  have link : (s.linkTable id level index pa).entry id level index = tableWord pa := by
    rw [entry_linkTable, if_pos ⟨rfl, rfl, rfl⟩]
  refine balanced.oneSpace rfl (fun j apart => if_neg apart) ?_ (fun there => ?_) fun _ => ?_
  · have counts := balanced.counts
    rw [Phys.loose, Multiset.cons_add] at counts
    have free := not_owns_vacant vacant
    refine .link (Sum.inl (.entry id level index)) counts (free _) fun owner page => ?_
    cases owner with
    | inr cached => simp [Owns, allRefs, Memory.linkTable, Memory.setSpace]
    | inl owner =>
      cases owner with
      | root | chunk => simp [Owns, allRefs, spaceRefs]
      | entry j l i =>
        by_cases here : j = id ∧ l = level ∧ i = index
        · obtain ⟨rfl, rfl, rfl⟩ := here
          simp only [free page, false_or, true_and]
          simp only [Owns, allRefs, Sum.elim_inl, spaceRefs, words, link, pageOf, addr,
            live_linkTable, live, isValid_of_isTable table, true_and]
          exact eq_comm
        · have apart : ¬ (Sum.inl (.entry j l i) =
              (Sum.inl (.entry id level index) : SpaceOwner ⊕ Nat)) := by simpa using here
          simp only [apart, false_and, or_false]
          simp only [Owns, allRefs, Sum.elim_inl, spaceRefs, words, old, live_linkTable]
          refine and_congr_right fun _ => ?_
          obtain ⟨same, kept⟩ := balanced.valid_linkTable_iff live vacant j here
          rw [same]
          refine and_congr_right fun valid => ?_
          rw [kept valid]
  · have shape := balanced.shape id live
    have split : ∀ l i, isValid ((s.linkTable id level index pa).entry id l i) →
        (l = level ∧ i = index) ∨ isValid (s.entry id l i) = true := by
      intro l i valid
      by_cases here : l = level ∧ i = index
      · exact .inl here
      · rw [(balanced.valid_linkTable_iff live vacant id fun same => here same.2).1] at valid
        exact .inr valid
    refine ⟨tree_linkTable (fun j live => (balanced.shape j live).tree) table parent id there,
      fun l i valid => ?_, ?_, fun none l i => ?_⟩
    · rcases split l i valid with ⟨rfl, rfl⟩ | was
      · exact ⟨by omega, bound⟩
      · exact shape.bounded l i was
    · rw [rootPa_linkTable]
      exact shape.aligned
    rw [rootPa_linkTable] at none
    exact absurd none rooted
  · rw [vmas_linkTable]
    exact balanced.placed id live

/-- One more reference to the page of a leaf is in hand. -/
theorem share {pmm : Pmm} (balanced : Balanced reserved hand s)
    (shared : s.phys.pmm.sharePage pa = some pmm) :
    Balanced reserved (pa / pageSize ::ₘ hand) (s.setPhys { s.phys with pmm }) := by
  obtain ⟨-, -, -, tracked, counted⟩ := Pmm.sharePage_spec shared
  refine balanced.settle ⟨balanced.orderly.sharePage shared, fun page => ?_, tracked⟩
  simp only [Phys.loose, Multiset.cons_add, Multiset.count_cons, counted]
  by_cases here : page = pa / pageSize
  · subst here
    simp only [if_true]
    omega
  · simp [here]

/-! ## Address spaces -/

/-- An address space that is not in use owns nothing. -/
theorem not_owns_dead {owner : SpaceOwner} (dead : (s.space id).live = false)
    (here : ownerSpace owner = id) : ¬ s.Owns (Sum.inl owner) page := by
  intro owned
  have live : (s.space id).live := by
    subst here
    cases owner <;> exact owned.1
  rw [dead] at live
  contradiction

/-- Ownership of an address space depends on that address space only. -/
theorem owns_congr {owner : SpaceOwner}
    (same : s'.space (ownerSpace owner) = s.space (ownerSpace owner)) :
    s'.Owns (Sum.inl owner) page ↔ s.Owns (Sum.inl owner) page := by
  cases owner <;> simp only [Owns, allRefs, Sum.elim_inl, spaceRefs, ownerSpace] at same ⊢ <;>
    rw [same]

end Balanced

/-- Owners outside one place have the same pages and the page cache is the same. -/
structure Around (id : SpaceId) (s s' : Memory F) : Prop where
  /-- Other spaces stay live. -/
  live : ∀ j, j ≠ id → (s'.space j).live = (s.space j).live
  /-- The page cache stays. -/
  cache : s'.store.cache = s.store.cache
  /-- Other owners keep their pages. -/
  owns : ∀ owner page, ownerSpace owner ≠ id →
    (s'.Owns (Sum.inl owner) page ↔ s.Owns (Sum.inl owner) page)

namespace Around

/-- Two steps around one space. -/
theorem trans {s'' : Memory F} (first : Around id s s') (second : Around id s' s'') :
    Around id s s'' :=
  ⟨fun j other => (second.live j other).trans (first.live j other),
    second.cache.trans first.cache,
    fun owner page other => (second.owns owner page other).trans (first.owns owner page other)⟩

/-- A step on one space only. -/
theorem of_others (cache : s'.store.cache = s.store.cache)
    (others : ∀ j, j ≠ id → s'.space j = s.space j) : Around id s s' :=
  ⟨fun j other => by rw [others j other], cache,
    fun _ _ other => Balanced.owns_congr (others _ other)⟩

/-- A place that is free before and after leaves all owners alone. -/
theorem all (around : Around id s s') (before : (s.space id).live = false)
    (after : (s'.space id).live = false) (owner : SpaceOwner ⊕ Nat) (page : Nat) :
    s'.Owns owner page ↔ s.Owns owner page := by
  cases owner with
  | inr cached => simp [Owns, allRefs, around.cache]
  | inl owner =>
    by_cases here : ownerSpace owner = id
    · exact iff_of_false (Balanced.not_owns_dead after here) (Balanced.not_owns_dead before here)
    · exact around.owns owner page here

end Around

namespace Balanced

variable {as : UserAddressSpace}

/-- What stands in a place that is not in use does not matter. -/
theorem deadSpace (balanced : Balanced reserved hand s) (store : s'.store = s.store)
    (others : ∀ j, j ≠ id → s'.space j = s.space j) (before : (s.space id).live = false)
    (after : (s'.space id).live = false) : Balanced reserved hand s' := by
  have gone : ¬ (s'.space id).live := by
    rw [after]
    exact Bool.false_ne_true
  have around := Around.of_others (congrArg cache store) others
  exact balanced.oneSpace store others (balanced.counts.congr (around.all before after))
    (fun live => absurd live gone) fun live => absurd live gone

/-- A place that was free receives an address space without tables and areas. -/
theorem openPlace (balanced : Balanced reserved hand s) (store : s'.store = s.store)
    (free : (s.space id).live = false) (others : ∀ j, j ≠ id → s'.space j = s.space j)
    (entries : ∀ level index, (s'.space id).as.entry level index = 0)
    (rootPa : (s'.space id).as.rootPa = 0) (vmas : (s'.space id).vmas = .init) :
    Balanced reserved hand s' := by
  refine balanced.oneSpace store others (balanced.counts.congr fun owner page => ?_)
    (fun _ => .bare (by rw [rootPa]; rfl) fun l i => by rw [entries]; exact isValid_zero)
    fun _ => ?_
  · cases owner with
    | inr cached => simp [Owns, allRefs, store]
    | inl owner =>
      by_cases here : ownerSpace owner = id
      · refine iff_of_false ?_ (not_owns_dead free here)
        intro owned
        cases owner <;> simp only [ownerSpace] at here <;> subst here
        · exact owned.2.1 rootPa
        · have valid := owned.2.1
          rw [entries] at valid
          simp at valid
        · have stored := owned.2
          rw [vmas] at stored
          simp [VmaList.init] at stored
      · exact owns_congr (others _ here)
  · rw [vmas]
    exact fun _ member => absurd member not_mem_nil

/-- An address space without tables receives a root from the hand. -/
theorem root (balanced : Balanced reserved (pa / pageSize ::ₘ hand) s)
    (store : s'.store = s.store) (others : ∀ j, j ≠ id → s'.space j = s.space j)
    (live : (s.space id).live) (live' : (s'.space id).live)
    (bare : (s.space id).as.rootPa = 0) (vmas : (s'.space id).vmas = (s.space id).vmas)
    (entries : ∀ level index, (s'.space id).as.entry level index = 0)
    (rootPa : (s'.space id).as.rootPa = pa) (aligned : pa % pageSize = 0) (nonzero : pa ≠ 0) :
    Balanced reserved hand s' := by
  have none : ∀ l i, isValid ((s'.space id).as.entry l i) = false := fun l i => by
    rw [entries]
    exact isValid_zero
  have before := (balanced.shape id live).unrooted bare
  have counts := balanced.counts
  rw [Phys.loose, Multiset.cons_add] at counts
  refine balanced.oneSpace store others (.link (Sum.inl (.root id)) counts
    (fun owned => owned.2.1 bare) fun owner page => ?_)
    (fun _ => .bare (by rw [rootPa]; exact aligned) none) fun _ => ?_
  · cases owner with
    | inr cached => simp [Owns, allRefs, store]
    | inl owner =>
      by_cases here : ownerSpace owner = id
      · cases owner <;> simp only [ownerSpace] at here <;> subst here
        · simp only [Owns, allRefs, Sum.elim_inl, spaceRefs, live, live', rootPa, bare,
            true_and, ne_eq, not_true_eq_false, false_and, false_or, nonzero,
            not_false_eq_true]
          exact eq_comm
        · simp [Owns, allRefs, spaceRefs, none, before]
        · simp [Owns, allRefs, spaceRefs, live, live', vmas]
      · rw [owns_congr (others _ here)]
        have apart : ¬ (Sum.inl owner = (Sum.inl (.root id) : SpaceOwner ⊕ Nat)) := by
          rintro same
          exact here (congrArg ownerSpace (Sum.inl.inj same))
        simp [apart]
  · rw [vmas]
    exact balanced.placed id live

/-! ## Giving up an address space -/

/-- `destroy_table` visits every valid word. -/
theorem mem_visited_of_valid (tree : Tree as) :
    ∀ {level table l j : Nat}, level + below = 3 → level ≤ l → l ≤ 3 →
      j / 512 ^ (l - level + 1) = table → isValid (as.entry l j) →
      (l, j) ∈ visited as below level table := by
  -- What one round contributes, once the round of the word's ancestor is known.
  have round : ∀ {level table l j : Nat} (under : Nat → List (Nat × Nat)), level ≤ l → l ≤ 3 →
      j / 512 ^ (l - level + 1) = table → isValid (as.entry l j) = true →
      (level < l → (l, j) ∈ under (j / 512 ^ (l - level))) →
      (l, j) ∈ (range 512).flatMap fun i => visitedEntry as level under (table * 512 + i) := by
    intro level table l j under low high parent valid deeper
    have ancestor : table * 512 + j / 512 ^ (l - level) % 512 = j / 512 ^ (l - level) := by
      rw [Nat.pow_succ, ← Nat.div_div_eq_div_mul] at parent
      omega
    refine mem_flatMap.mpr ⟨j / 512 ^ (l - level) % 512,
      mem_range.mpr (Nat.mod_lt _ (by decide)), ?_⟩
    rw [ancestor]
    rcases Nat.eq_or_lt_of_le low with rfl | strict
    · rw [Nat.sub_self, Nat.pow_zero, Nat.div_one] at *
      unfold visitedEntry
      rw [if_neg (by simp [valid])]
      split
      · exact mem_singleton_self _
      · exact mem_append_right _ (mem_singleton_self _)
    · have above : isValid (as.entry level (j / 512 ^ (l - level))) :=
        valid_above tree level (l - level) j (by omega)
          (by rwa [Nat.add_sub_cancel' (Nat.le_of_lt strict)])
      have table : isTable (as.entry level (j / 512 ^ (l - level))) :=
        tree.table level _ (by omega) above
      unfold visitedEntry
      rw [if_neg (by simp [above]), if_neg (by rw [not_leaf_of_isTable table (by omega)]; simp)]
      exact mem_append_left _ (deeper strict)
  induction below with
  | zero =>
    intro level table l j depth low high parent valid
    exact round _ low high parent valid fun strict => by omega
  | succ below ih =>
    intro level table l j depth low high parent valid
    refine round _ low high parent valid fun strict => ih (by omega) strict high ?_ valid
    rw [show l - (level + 1) + 1 = l - level by omega]

/-- What `vmm_destroy` gives back is aligned. -/
theorem freed_aligned (shape : Shape as) : ∀ pa ∈ freed as, pa % pageSize = 0 := by
  intro pa member
  unfold freed at member
  split at member
  · contradiction
  rcases mem_append.mp member with word | root
  · obtain ⟨at_, -, rfl⟩ := mem_map.mp word
    exact addrOf_aligned
  · rw [mem_singleton.mp root]
    exact shape.aligned

section

variable (balanced : Balanced reserved hand s)

include balanced

/-- The pairs of an address space are all its references. -/
theorem mem_allPairs_iff (live : (s.space id).live) (owner : SpaceOwner ⊕ Nat) :
    (owner, page) ∈ allPairs id (s.space id) ↔
      s.Owns owner page ∧ ∃ o, owner = Sum.inl o ∧ ownerSpace o = id := by
  constructor
  · exact fun member => ⟨allPairs_refs live member, mem_allPairs member⟩
  rintro ⟨owned, o, rfl, here⟩
  have shape := balanced.shape id live
  cases o with
  | root j =>
    obtain rfl : j = id := here
    refine mem_append_left _ ?_
    unfold tablePairs
    rw [if_neg owned.2.1, ← owned.2.2]
    exact mem_append_right _ (mem_singleton_self _)
  | chunk j position =>
    obtain rfl : j = id := here
    exact mem_append_right _ (mem_chunkPairs.mpr ⟨position, rfl, owned.2⟩)
  | entry j l i =>
    obtain rfl : j = id := here
    have valid : isValid ((s.space j).as.entry l i) := owned.2.1
    obtain ⟨high, bound⟩ := shape.bounded l i valid
    refine mem_append_left _ ?_
    unfold tablePairs
    rw [if_neg (balanced.rooted_of_valid live valid), ← owned.2.2]
    refine mem_append_left _ (mem_map.mpr ⟨(l, i), ?_, rfl⟩)
    exact mem_visited_of_valid shape.tree rfl (Nat.zero_le l) high (Nat.div_eq_of_lt bound) valid

/-- All references of an address space that is given up are in hand. -/
theorem takeAll (live : (s.space id).live) :
    Balanced reserved (((freed (s.space id).as).map (· / pageSize) : List Nat) +
      ((s.space id).vmas.pages + hand)) (s.retire id) := by
  have gone : ¬ ((s.retire id).space id).live := by
    rw [retire_live_self]
    exact Bool.false_ne_true
  refine balanced.oneSpace rfl (fun _ => retire_others) ?_ (fun there => absurd there gone)
    fun there => absurd there gone
  · rw [Phys.loose, pages_allPairs, add_assoc]
    refine .unlinkAll _ balanced.counts ?_ (allPairs_nodup _) fun owner page => ?_
    · rintro ⟨owner, page⟩ member i
      have owned := allPairs_refs live member
      obtain ⟨o, rfl, -⟩ := mem_allPairs member
      refine ⟨fun other => ?_, fun same => same ▸ owned⟩
      cases o with
      | root | entry => exact other.2.2.symm.trans owned.2.2
      | chunk j position => exact Option.some.inj (other.2.symm.trans owned.2)
    have listed : owner ∈ (allPairs id (s.space id)).map Prod.fst →
        ∃ o, owner = Sum.inl o ∧ ownerSpace o = id := by
      intro member
      obtain ⟨⟨named, page'⟩, paired, rfl⟩ := mem_map.mp member
      exact mem_allPairs paired
    cases owner with
    | inr cached =>
      refine ⟨fun owned => ⟨owned, fun member => ?_⟩, fun both => both.1⟩
      obtain ⟨o, same, -⟩ := listed member
      cases same
    | inl o =>
      by_cases here : ownerSpace o = id
      · refine iff_of_false (not_owns_dead (retire_live_self s id) here) ?_
        rintro ⟨owned, unlisted⟩
        exact unlisted (mem_map.mpr ⟨_, (balanced.mem_allPairs_iff live _).mpr
          ⟨owned, o, rfl, here⟩, rfl⟩)
      · rw [owns_congr (retire_others here)]
        refine ⟨fun owned => ⟨owned, fun member => ?_⟩, fun both => both.1⟩
        obtain ⟨o', same, there⟩ := listed member
        exact here (Sum.inl.inj same ▸ there)

/-- After `vmm_destroy` only the chunks of an address space that is given up are in hand. -/
theorem destroy (live : (s.space id).live) :
    Balanced reserved ((s.space id).vmas.pages + hand)
      ((s.retire id).setPhys (s.destroy id).phys) := by
  have taken := balanced.takeAll live
  rw [destroy_phys]
  exact taken.settle (Phys.settles_freeAll _ (freed_aligned (balanced.shape id live)) taken.solvent)

end

/-- `vmm_destroy` and `vma_list_destroy` of an address space that is given up. -/
theorem discard (host : FileHost F) (balanced : Balanced reserved hand s)
    (live : (s.space id).live) : Balanced reserved hand (s.discard host id) := by
  have tables := balanced.destroy live
  have areas := tables.settle (vmaListDestroy_settles host (balanced.placed id live) tables.solvent)
  refine areas.deadSpace ?_ (fun j other => ?_) (retire_live_self s id) discard_live_self
  · show Store.mk _ _ = Store.mk _ _
    rw [destroy_vmas, destroy_cache]
    rfl
  · rw [discard_others other]
    exact (retire_others other).symm

end Balanced

end Spore.Mm
