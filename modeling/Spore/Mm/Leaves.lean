import Spore.Mm.Words
import Spore.Vfs.PageCacheAccounts

/-!
# Rules about page-table leaves

A leaf rule says which leaves an area admits: it looks at the area's attributes, at whether the
leaf may be written or is marked copy-on-write, and at whether the leaf has its page for
itself. `Disciplined` says that every leaf of every address space obeys a rule with respect to
attributes that it is meant to have, that tables are linked properly, and that every page is
counted. The lemmas of this module say once what each elementary change of a word, a table, an
area list or an address space does to `Disciplined`, for every rule.
-/

namespace Spore.Mm

open Spore.Lib Memory

variable {F : Type} {s s' : Memory F} {id j : SpaceId} {page pa l i : Nat} {word : BitVec 64}

/-- What a leaf rule sees of an area. -/
structure AreaRights where
  /-- The rights of the area. -/
  prot : UInt32
  /-- The flags of the area. -/
  flags : UInt32
  deriving Repr, DecidableEq

/-- The part of an area's attributes that leaf rules look at. -/
def VmaAttrs.rights (attrs : VmaAttrs) : AreaRights := ⟨attrs.prot, attrs.flags⟩

/-- Which leaves an area admits. The rule is monotone in exclusiveness and admits what the
kernel writes when it maps, copies and resolves copy-on-write. -/
structure LeafRule where
  /-- The rule for a leaf that is alone on its page or not, in an area with these attributes,
  and that is writable and marked as told. -/
  holds : (alone : Prop) → AreaRights → (writable cow : Bool) → Prop
  /-- A leaf that gets alone stays fine. -/
  stable : ∀ {alone alone' attrs writable cow}, holds alone attrs writable cow →
    (alone → alone') → holds alone' attrs writable cow
  /-- Mapping a page is fine. -/
  mapped : ∀ {alone attrs},
    (grantsWrite attrs.prot = true → alone ∨ attrs.flags &&& mapShared ≠ 0) →
    holds alone attrs (grantsWrite attrs.prot) false
  /-- Marking it for a copy is fine. -/
  marked : ∀ {alone attrs}, grantsWrite attrs.prot = true → holds alone attrs false true
  /-- Sharing it with a clone is fine. -/
  cloned : ∀ {alone alone' attrs writable cow}, holds alone attrs writable cow →
    holds alone' attrs false (writable || cow)
  /-- Taking a marked page alone is fine. -/
  taken : ∀ {alone alone' attrs writable}, holds alone attrs writable true → alone' →
    holds alone' attrs true false

/-- What in an address space refers to pages. -/
inductive SpaceOwner where
  | root (id : SpaceId)
  | entry (id : SpaceId) (level index : Nat)
  | chunk (id : SpaceId) (position : Nat)
  deriving DecidableEq

/-- References of the address spaces. -/
def spaceRefs (space : SpaceId → Space) : SpaceOwner → Nat → Prop
  | .root id, page => (space id).live = true ∧ (space id).as.rootPa ≠ 0 ∧
      (space id).as.rootPa / pageSize = page
  | .entry id level index, page => (space id).live = true ∧
      isValid ((space id).as.entry level index) = true ∧
      pageOf ((space id).as.entry level index) = page
  | .chunk id position, page => (space id).live = true ∧
      ((space id).vmas.chunkPa.map (· / pageSize))[position]? = some page

/-- Tables are linked properly: above the leaves a valid word is a table, and a valid word
hangs off one. -/
structure Tree (as : UserAddressSpace) : Prop where
  /-- Words above the leaves are tables. -/
  table : ∀ level index, level < 3 → isValid (as.entry level index) = true →
    isTable (as.entry level index) = true
  /-- Tables hang below tables. -/
  rooted : ∀ level index, level < 3 → isValid (as.entry (level + 1) index) = true →
    isTable (as.entry level (index / 512)) = true

/-- Every leaf obeys the rule for the attributes it is meant to have. -/
def LeavesObey (rule : LeafRule) (attr : SpaceId → Nat → Option AreaRights) (s : Memory F) : Prop :=
  ∀ id index, (s.space id).live = true → isValid (s.entry id 3 index) = true →
    ∃ attrs, attr id index = some attrs ∧
      rule.holds (s.phys.pmm.refcount (pageOf (s.entry id 3 index)) = 1) attrs
        (isWritableLeaf (s.entry id 3 index)) (isCow (s.entry id 3 index))

/-- Pages are counted, tables are linked and leaves obey the rule. Every page has a 48-bit
address, as words of page tables hold it. -/
structure Disciplined (rule : LeafRule) (attr : SpaceId → Nat → Option AreaRights)
    (hand : Multiset Nat) (s : Memory F) : Prop where
  /-- Counters cover the references. -/
  accounts : s.store.Accounts (spaceRefs s.space) hand
  /-- The tables form a tree. -/
  tree : ∀ id, (s.space id).live = true → Tree (s.space id).as
  /-- Leaves obey the rule. -/
  leaves : LeavesObey rule attr s
  /-- Page numbers fit a word. -/
  addressable : s.phys.pmm.tracked ≤ 2 ^ 36

section

variable {rule : LeafRule} {attr attr' : SpaceId → Nat → Option AreaRights}
  {hand hand' : Multiset Nat} {level index : Nat} {phys : Phys F} {owner : SpaceOwner}
  {attrs : AreaRights} {list : VmaList}

/-! ## Changes outside the address spaces -/

/-- Spaces are no part of the allocator. -/
@[simp] theorem Memory.space_setPhys (phys : Phys F) : (s.setPhys phys).space = s.space := rfl

/-- Nor are table entries. -/
@[simp] theorem Memory.entry_setPhys (phys : Phys F) : (s.setPhys phys).entry = s.entry := rfl

/-- A valid word refers to its page. -/
theorem Memory.refs_entry (live : (s.space id).live) (valid : isValid (s.entry id level index)) :
    spaceRefs s.space (.entry id level index) (pageOf (s.entry id level index)) :=
  ⟨live, valid, rfl⟩

/-- Physical memory and the page cache may trade pages. -/
theorem Disciplined.trade (inv : Disciplined rule attr hand s) {store : Store F}
    (traded : Store.Trades (spaceRefs s.space) hand s.store hand' store) :
    Disciplined rule attr hand' (s.setStore store) := by
  refine ⟨traded.accounts, inv.tree, fun id index live valid => ?_,
    traded.tracked.trans_le inv.addressable⟩
  obtain ⟨attrs, meant, obeys⟩ := inv.leaves id index live valid
  exact ⟨attrs, meant, rule.stable obeys (traded.exclusive _ _ (refs_entry live valid))⟩

/-- Pages are traded without a change of the tables. -/
theorem Disciplined.tradePhys (inv : Disciplined rule attr hand s)
    (traded : Phys.Trades (Store.allRefs (spaceRefs s.space) s.store.cache) hand s.phys
      hand' phys) : Disciplined rule attr hand' (s.setPhys phys) :=
  inv.trade (.ofPhys traded)

/-- The contents of pages take no part. -/
theorem Disciplined.setBytes (inv : Disciplined rule attr hand s) (bytes : Nat → Nat → UInt8) :
    Disciplined rule attr hand (s.setPhys { s.phys with bytes }) :=
  ⟨inv.accounts, inv.tree, inv.leaves, inv.addressable⟩

/-- Attributes matter at leaves only. -/
theorem Disciplined.reattr (inv : Disciplined rule attr hand s)
    (same : ∀ id index, (s.space id).live → isValid (s.entry id 3 index) →
      attr' id index = attr id index) : Disciplined rule attr' hand s := by
  refine ⟨inv.accounts, inv.tree, fun id index live valid => ?_, inv.addressable⟩
  obtain ⟨attrs, meant, obeys⟩ := inv.leaves id index live valid
  exact ⟨attrs, (same id index live valid).trans meant, obeys⟩

/-- References in hand may be forgotten. -/
theorem Disciplined.drop (inv : Disciplined rule attr (page ::ₘ hand) s) :
    Disciplined rule attr hand s :=
  inv.trade (Store.trades_drop {page} inv.accounts)

/-! ## Words -/

/-- Only the word written changes. -/
theorem Memory.entry_setEntry (word : BitVec 64) (j : SpaceId) (l i : Nat) :
    (s.setEntry id level index word).entry j l i =
      if j = id ∧ l = level ∧ i = index then word else s.entry j l i := by
  by_cases here : j = id
  · subst here
    simp [entry, setEntry, setSpace]
  · simp [entry, setEntry, setSpace, here]

/-- The entry that is written. -/
theorem Memory.entry_setEntry_self :
    (s.setEntry id level index word).entry id level index = word := by
  simp [entry_setEntry]

/-- The entries beside it. -/
theorem Memory.entry_setEntry_ne {l i : Nat} (other : ¬ (j = id ∧ l = level ∧ i = index)) :
    (s.setEntry id level index word).entry j l i = s.entry j l i := by
  rw [entry_setEntry, if_neg other]

/-- What the new word has in common with the old one, every word keeps. -/
theorem Memory.congr_setEntry {α : Type} (f : BitVec 64 → α)
    (same : f word = f (s.entry id level index)) (j : SpaceId) (l i : Nat) :
    f ((s.setEntry id level index word).entry j l i) = f (s.entry j l i) := by
  rw [entry_setEntry]
  split
  · rename_i here
    obtain ⟨rfl, rfl, rfl⟩ := here
    exact same
  · rfl

section

variable (word : BitVec 64) (j : SpaceId)

/-- No space comes or goes. -/
@[simp] theorem Memory.live_setEntry :
    ((s.setEntry id level index word).space j).live = (s.space j).live := by
  by_cases here : j = id <;> simp [setEntry, setSpace, here]

/-- Areas stay. -/
@[simp] theorem Memory.vmas_setEntry :
    ((s.setEntry id level index word).space j).vmas = (s.space j).vmas := by
  by_cases here : j = id <;> simp [setEntry, setSpace, here]

/-- The mmap base stays. -/
@[simp] theorem Memory.mmapBase_setEntry :
    ((s.setEntry id level index word).space j).as.mmapBase = (s.space j).as.mmapBase := by
  by_cases here : j = id <;> simp [setEntry, setSpace, here]

/-- The root table stays. -/
@[simp] theorem Memory.rootPa_setEntry :
    ((s.setEntry id level index word).space j).as.rootPa = (s.space j).as.rootPa := by
  by_cases here : j = id <;> simp [setEntry, setSpace, here]

end

/-- After a word was written, references are those of the new word and the old ones
elsewhere. -/
theorem Memory.refs_setEntry (held : spaceRefs (s.setEntry id level index word).space owner page) :
    (owner = .entry id level index ∧ (s.space id).live ∧ isValid word ∧
      pageOf word = page) ∨
    (owner ≠ .entry id level index ∧ spaceRefs s.space owner page) := by
  cases owner with
  | root | chunk =>
    refine .inr ⟨by simp, ?_⟩
    simpa [spaceRefs] using held
  | entry j l i =>
    obtain ⟨live, valid, page_eq⟩ := held
    rw [← Memory.entry] at valid page_eq
    rw [live_setEntry] at live
    by_cases here : j = id ∧ l = level ∧ i = index
    · obtain ⟨rfl, rfl, rfl⟩ := here
      rw [entry_setEntry_self] at valid page_eq
      exact .inl ⟨rfl, live, valid, page_eq⟩
    · rw [entry_setEntry_ne here] at valid page_eq
      exact .inr ⟨by simpa using here, live, valid, page_eq⟩

/-- Leaves may change as long as no table is lost: the tree stays linked. -/
theorem Memory.tree_setLeaf (trees : ∀ j, (s.space j).live → Tree (s.space j).as)
    (present : (s.space id).live → isValid word →
      isTable (s.entry id 2 (index / 512))) :
    ∀ j, ((s.setEntry id 3 index word).space j).live →
      Tree ((s.setEntry id 3 index word).space j).as := by
  intro j live
  rw [live_setEntry] at live
  have tree := trees j live
  constructor
  · intro l i upper valid
    rw [← Memory.entry] at valid ⊢
    rw [entry_setEntry_ne (by omega)] at valid ⊢
    exact tree.table l i upper valid
  intro l i upper valid
  rw [← Memory.entry] at valid ⊢
  rw [entry_setEntry_ne (by omega)]
  by_cases here : j = id ∧ l + 1 = 3 ∧ i = index
  · obtain ⟨rfl, level_eq, rfl⟩ := here
    obtain rfl : l = 2 := by omega
    rw [entry_setEntry_self] at valid
    exact present live valid
  · rw [entry_setEntry_ne here] at valid
    exact tree.rooted l i upper valid

/-- The leaves obey the rule after one was written that does. -/
theorem Memory.leaves_setLeaf (leaves : LeavesObey rule attr s)
    (others : ∀ j i, ¬ (j = id ∧ i = index) → attr' j i = attr j i)
    (own : isValid word → ∃ attrs, attr' id index = some attrs ∧
      rule.holds (s.phys.pmm.refcount (pageOf word) = 1) attrs (isWritableLeaf word) (isCow word)) :
    LeavesObey rule attr' (s.setEntry id 3 index word) := by
  intro j i live valid
  rw [live_setEntry] at live
  by_cases here : j = id ∧ i = index
  · obtain ⟨rfl, rfl⟩ := here
    rw [entry_setEntry_self] at valid ⊢
    exact own valid
  · rw [entry_setEntry_ne fun same => here ⟨same.1, same.2.2⟩] at valid ⊢
    rw [others j i here]
    exact leaves j i live valid

/-- A page of the hand goes to one new owner. -/
theorem Disciplined.accounts_link (inv : Disciplined rule attr (page ::ₘ hand) s)
    (owner : SpaceOwner) (store : s'.store = s.store)
    (linked : ∀ o p, spaceRefs s'.space o p → spaceRefs s.space o p ∨ (o = owner ∧ p = page)) :
    s'.store.Accounts (spaceRefs s'.space) hand := by
  have accounts := inv.accounts
  rw [Store.Accounts, Phys.Accounts, Multiset.cons_add] at accounts
  rw [Store.Accounts, store]
  refine .link (Sum.inl owner) accounts ?_
  rintro (o | cached) p held
  · exact (linked o p held).imp_right fun new => ⟨congrArg Sum.inl new.1, new.2⟩
  · exact .inl held

/-- A page of the hand is mapped. -/
theorem Disciplined.setLeaf (inv : Disciplined rule attr (page ::ₘ hand) s)
    (maps : pageOf word = page) (present : isTable (s.entry id 2 (index / 512)))
    (meant : attr id index = some attrs)
    (obeys : rule.holds (s.phys.pmm.refcount page = 1) attrs (isWritableLeaf word)
      (isCow word)) : Disciplined rule attr hand (s.setEntry id 3 index word) := by
  subst maps
  refine ⟨inv.accounts_link (.entry id 3 index) rfl fun owner page held => ?_,
    tree_setLeaf inv.tree fun _ _ => present,
    leaves_setLeaf inv.leaves (fun _ _ _ => rfl) fun _ => ⟨attrs, meant, obeys⟩, inv.addressable⟩
  rcases refs_setEntry held with ⟨rfl, -, -, page_eq⟩ | ⟨-, old⟩
  · exact .inr ⟨rfl, page_eq.symm⟩
  · exact .inl old

/-- A leaf is unmapped and its page is in hand. -/
theorem Disciplined.clearLeaf (inv : Disciplined rule attr hand s) (live : (s.space id).live)
    (valid : isValid (s.entry id 3 index)) :
    Disciplined rule attr (pageOf (s.entry id 3 index) ::ₘ hand) (s.setEntry id 3 index 0) := by
  refine ⟨?_, tree_setLeaf inv.tree fun _ valid => by simp at valid,
    leaves_setLeaf inv.leaves (fun _ _ _ => rfl) fun valid => by simp at valid, inv.addressable⟩
  rw [Store.Accounts, Phys.Accounts, Multiset.cons_add]
  refine .unlink inv.accounts
    (show Store.allRefs (spaceRefs s.space) _ (Sum.inl (.entry id 3 index)) _ from
      refs_entry live valid) ?_
  rintro (owner | cached) page held
  · rcases refs_setEntry held with ⟨-, -, valid, -⟩ | ⟨other, old⟩
    · simp at valid
    · exact ⟨old, fun same => other (Sum.inl.inj same.1)⟩
  · exact ⟨held, fun same => by cases same.1⟩

/-- A leaf keeps its page and changes its permissions, perhaps together with the attributes it
is meant to have. -/
theorem Disciplined.rewriteLeaf (inv : Disciplined rule attr hand s)
    (live : (s.space id).live) (valid : isValid (s.entry id 3 index))
    (page : pageOf word = pageOf (s.entry id 3 index)) (meant : attr' id index = some attrs)
    (others : ∀ j i, ¬ (j = id ∧ i = index) → attr' j i = attr j i)
    (obeys : rule.holds (s.phys.pmm.refcount (pageOf (s.entry id 3 index)) = 1) attrs
      (isWritableLeaf word) (isCow word)) :
    Disciplined rule attr' hand (s.setEntry id 3 index word) := by
  have present := (inv.tree id live).rooted 2 index (by omega) valid
  refine ⟨?_, tree_setLeaf inv.tree fun _ _ => present,
    leaves_setLeaf inv.leaves others fun _ => ⟨attrs, meant, page ▸ obeys⟩, inv.addressable⟩
  refine .forget inv.accounts ?_
  rintro (owner | cached) other held
  · rcases refs_setEntry held with ⟨rfl, -, -, page_eq⟩ | ⟨-, old⟩
    · exact ⟨live, valid, page.symm.trans page_eq⟩
    · exact old
  · exact held

/-! ## Tables -/

section

variable (pa : Nat) (j : SpaceId)

/-- The new table's entry is its link, what lies below is empty, and the rest is as before. -/
theorem Memory.entry_linkTable :
    (s.linkTable id level index pa).entry j l i =
      if j = id ∧ l = level ∧ i = index then tableWord pa
      else if j = id ∧ level < l ∧ i / 512 ^ (l - level) = index then 0
      else s.entry j l i := by
  by_cases here : j = id
  · subst here
    simp [entry, linkTable, setSpace]
  · simp [entry, linkTable, setSpace, here]

/-- A linked table leaves the spaces. -/
@[simp] theorem Memory.live_linkTable :
    ((s.linkTable id level index pa).space j).live = (s.space j).live := by
  by_cases here : j = id <;> simp [linkTable, setSpace, here]

/-- It leaves the areas. -/
@[simp] theorem Memory.vmas_linkTable :
    ((s.linkTable id level index pa).space j).vmas = (s.space j).vmas := by
  by_cases here : j = id <;> simp [linkTable, setSpace, here]

/-- It leaves the mmap base. -/
@[simp] theorem Memory.mmapBase_linkTable :
    ((s.linkTable id level index pa).space j).as.mmapBase = (s.space j).as.mmapBase := by
  by_cases here : j = id <;> simp [linkTable, setSpace, here]

/-- It leaves the root table. -/
@[simp] theorem Memory.rootPa_linkTable :
    ((s.linkTable id level index pa).space j).as.rootPa = (s.space j).as.rootPa := by
  by_cases here : j = id <;> simp [linkTable, setSpace, here]

end

/-- A valid word after a table was linked is the link or an old word outside what lies
below. -/
theorem Memory.valid_linkTable {l i : Nat}
    (valid : isValid ((s.linkTable id level index pa).entry j l i)) :
    (j = id ∧ l = level ∧ i = index) ∨
    (¬ (j = id ∧ l = level ∧ i = index) ∧ ¬ (j = id ∧ level < l ∧ i / 512 ^ (l - level) = index) ∧
      (s.linkTable id level index pa).entry j l i = s.entry j l i) := by
  rw [entry_linkTable] at valid ⊢
  by_cases here : j = id ∧ l = level ∧ i = index
  · exact .inl here
  rw [if_neg here] at valid ⊢
  by_cases below : j = id ∧ level < l ∧ i / 512 ^ (l - level) = index
  · rw [if_pos below] at valid
    simp at valid
  · exact .inr ⟨here, below, if_neg below⟩

/-- A table linked below a table keeps every tree a tree. -/
theorem Memory.tree_linkTable (trees : ∀ j, (s.space j).live → Tree (s.space j).as)
    (table : isTable (tableWord pa))
    (parent : ∀ l, l + 1 = level → isTable (s.entry id l (index / 512))) :
    ∀ j, ((s.linkTable id level index pa).space j).live →
      Tree ((s.linkTable id level index pa).space j).as := by
  intro j live
  rw [live_linkTable] at live
  have tree := trees j live
  constructor
  · intro l i lower valid
    rw [← Memory.entry] at valid ⊢
    rcases valid_linkTable valid with here | ⟨-, -, same⟩
    · rw [entry_linkTable, if_pos here]
      exact table
    · rw [same] at valid ⊢
      exact tree.table l i lower valid
  intro l i lower valid
  rw [← Memory.entry] at valid ⊢
  rw [entry_linkTable]
  rcases valid_linkTable valid with ⟨rfl, same_level, rfl⟩ | ⟨-, kept, same⟩
  · rw [if_neg (by omega), if_neg (by omega)]
    exact parent l same_level
  by_cases link : j = id ∧ l = level ∧ i / 512 = index
  · rw [if_pos link]
    exact table
  rw [if_neg link]
  -- A word below the link would have been cleared together with its parent.
  by_cases below : j = id ∧ level < l ∧ i / 512 / 512 ^ (l - level) = index
  · refine absurd ⟨below.1, Nat.lt_succ_of_lt below.2.1, ?_⟩ kept
    rw [← below.2.2, Nat.div_div_eq_div_mul, ← Nat.pow_succ']
    congr 2
    omega
  · rw [if_neg below]
    rw [same] at valid
    exact tree.rooted l i lower valid

/-- A page of the hand becomes a table. -/
theorem Disciplined.linkTable (inv : Disciplined rule attr (pa / pageSize ::ₘ hand) s)
    (upper : level < 3) (aligned : pa % pageSize = 0) (small : pa < 2 ^ 48)
    (parent : ∀ l, l + 1 = level → isTable (s.entry id l (index / 512))) :
    Disciplined rule attr hand (s.linkTable id level index pa) := by
  obtain ⟨table, -, addr⟩ := tableWord_fields aligned small
  refine ⟨inv.accounts_link (.entry id level index) rfl fun owner page held => ?_,
    tree_linkTable inv.tree table parent, ?_, inv.addressable⟩
  · cases owner with
    | root | chunk => exact .inl (by simpa [spaceRefs] using held)
    | entry j l i =>
      obtain ⟨live, valid, page_eq⟩ := held
      rw [← Memory.entry] at valid page_eq
      rw [live_linkTable] at live
      rcases valid_linkTable valid with here | ⟨-, -, same⟩
      · rw [entry_linkTable, if_pos here, pageOf, addr] at page_eq
        obtain ⟨rfl, rfl, rfl⟩ := here
        exact .inr ⟨rfl, page_eq.symm⟩
      · rw [same] at valid page_eq
        exact .inl ⟨live, valid, page_eq⟩
  · intro j i live valid
    rw [live_linkTable] at live
    rcases valid_linkTable valid with ⟨-, same_level, -⟩ | ⟨-, -, same⟩
    · omega
    · rw [same] at valid ⊢
      exact inv.leaves j i live valid

/-! ## Sharing -/

/-- The page of a leaf is shared once the leaf obeys the rule without having the page for
itself. -/
theorem Disciplined.share {pmm : Pmm} (inv : Disciplined rule attr hand s)
    (live : (s.space id).live) (valid : isValid (s.entry id 3 index))
    (loose : ∃ attrs, attr id index = some attrs ∧ ∀ alone : Prop,
      rule.holds alone attrs (isWritableLeaf (s.entry id 3 index)) (isCow (s.entry id 3 index)))
    (shared : s.phys.pmm.sharePage (addrOf (s.entry id 3 index)) = some pmm) :
    Disciplined rule attr (pageOf (s.entry id 3 index) ::ₘ hand)
      (s.setPhys { s.phys with pmm }) := by
  obtain ⟨-, -, -, tracked, counted⟩ := Pmm.sharePage_spec shared
  refine ⟨?_, inv.tree, ?_, tracked.trans_le inv.addressable⟩
  · rw [Store.Accounts, Phys.Accounts, Multiset.cons_add]
    refine .take inv.accounts _ ?_ fun other different => ?_
    · show s.phys.pmm.refcount _ + 1 ≤ pmm.refcount _
      rw [counted]
      simp [pageOf]
    · show s.phys.pmm.refcount _ ≤ pmm.refcount _
      rw [counted]
      have apart : other ≠ addrOf (s.entry id 3 index) / pageSize := different
      simp [apart]
  intro j i live' valid'
  by_cases here : j = id ∧ i = index
  · obtain ⟨rfl, rfl⟩ := here
    obtain ⟨attrs, meant, obeys⟩ := loose
    exact ⟨attrs, meant, obeys _⟩
  obtain ⟨attrs, meant, obeys⟩ := inv.leaves j i live' valid'
  refine ⟨attrs, meant, rule.stable obeys fun single => ?_⟩
  show pmm.refcount (pageOf (s.entry j 3 i)) = 1
  have different : pageOf (s.entry j 3 i) ≠ addrOf (s.entry id 3 index) / pageSize := by
    intro same
    have owners := Counted.unique inv.accounts single
      (show Store.allRefs (spaceRefs s.space) _ (Sum.inl (.entry j 3 i)) _ from
        refs_entry live' valid')
      (show Store.allRefs (spaceRefs s.space) _ (Sum.inl (.entry id 3 index)) _ from
        ⟨live, valid, same.symm⟩)
    simp only [Sum.inl.injEq, SpaceOwner.entry.injEq, true_and] at owners
    exact here owners
  rw [counted]
  simp [different, single]

/-! ## Address spaces -/

/-- Two spaces with the same tables and the same chunks. -/
structure SameTables (space space' : Space) : Prop where
  /-- The same words. -/
  entry : space'.as.entry = space.as.entry
  /-- The same root. -/
  root : space'.as.rootPa = space.as.rootPa
  /-- The same chunks. -/
  chunks : space'.vmas.chunkPa = space.vmas.chunkPa

/-- A space has its own tables. -/
theorem SameTables.refl (space : Space) : SameTables space space := ⟨rfl, rfl, rfl⟩

/-- Rename the address space of an owner. -/
def renameOwner (name : SpaceId → SpaceId) : SpaceOwner → SpaceOwner
  | .root id => .root (name id)
  | .entry id level index => .entry (name id) level index
  | .chunk id position => .chunk (name id) position

/-- Owners that are told apart stay so. -/
theorem renameOwner_injective {name : SpaceId → SpaceId} (injective : Function.Injective name) :
    Function.Injective (renameOwner name) := by
  intro x y same
  cases x <;> cases y <;> simp only [renameOwner, reduceCtorEq, SpaceOwner.root.injEq,
    SpaceOwner.entry.injEq, SpaceOwner.chunk.injEq] at same ⊢
  · exact injective same
  · exact ⟨injective same.1, same.2⟩
  · exact ⟨injective same.1, same.2⟩

/-- Address spaces may be retired and may take other places, as long as each one has the tables
of a different one before, with the attributes that one was meant to have. -/
theorem Disciplined.relocate (name : SpaceId → SpaceId) (inv : Disciplined rule attr hand s)
    (store : s'.store = s.store) (injective : Function.Injective name)
    (origin : ∀ j, (s'.space j).live → (s.space (name j)).live ∧
      SameTables (s.space (name j)) (s'.space j) ∧ attr' j = attr (name j)) :
    Disciplined rule attr' hand s' := by
  refine ⟨?_, ?_, ?_, ?_⟩
  · rw [Store.Accounts, store]
    refine .rename (Sum.map (renameOwner name) id) inv.accounts
      ((renameOwner_injective injective).sumMap Function.injective_id) ?_
    rintro (owner | cached) page held
    · cases owner with
      | root j =>
        obtain ⟨live, some_root, page_eq⟩ := held
        obtain ⟨was, tables, -⟩ := origin j live
        rw [tables.root] at some_root page_eq
        exact ⟨was, some_root, page_eq⟩
      | entry j level index =>
        obtain ⟨live, valid, page_eq⟩ := held
        obtain ⟨was, tables, -⟩ := origin j live
        rw [tables.entry] at valid page_eq
        exact ⟨was, valid, page_eq⟩
      | chunk j position =>
        obtain ⟨live, stored⟩ := held
        obtain ⟨was, tables, -⟩ := origin j live
        rw [tables.chunks] at stored
        exact ⟨was, stored⟩
    · exact held
  · intro j live
    obtain ⟨was, tables, -⟩ := origin j live
    have tree := inv.tree _ was
    constructor
    · rw [tables.entry]; exact tree.table
    · rw [tables.entry]; exact tree.rooted
  · intro j index live valid
    obtain ⟨was, tables, same⟩ := origin j live
    have entries : s'.entry j 3 index = s.entry (name j) 3 index := by
      rw [entry, entry, tables.entry]
    rw [entries] at valid ⊢
    rw [show s'.phys = s.phys from congrArg Store.phys store, same]
    exact inv.leaves _ index was valid
  · rw [show s'.phys = s.phys from congrArg Store.phys store]
    exact inv.addressable

/-- Address spaces may be retired, and fields other than tables and chunks may change. -/
theorem Disciplined.spaces (inv : Disciplined rule attr hand s) (store : s'.store = s.store)
    (same : ∀ id, (s'.space id).live →
      (s.space id).live ∧ SameTables (s.space id) (s'.space id)) : Disciplined rule attr hand s' :=
  inv.relocate (fun j => j) store Function.injective_id fun j live =>
    ⟨(same j live).1, (same j live).2, rfl⟩

/-- One address space has been replaced by one without tables and areas. -/
structure Emptied (id : SpaceId) (s s' : Memory F) : Prop where
  /-- No page moves. -/
  store : s'.store = s.store
  /-- The other spaces stay. -/
  others : ∀ j, j ≠ id → s'.space j = s.space j
  /-- No word is left. -/
  entries : ∀ level index, (s'.space id).as.entry level index = 0
  /-- No chunk is left. -/
  noChunks : (s'.space id).vmas.chunkPa = []

/-- An emptied space has no valid entry. -/
theorem Emptied.not_valid (emptied : Emptied id s s') :
    isValid ((s'.space id).as.entry level index) ≠ true := by
  rw [emptied.entries]
  exact Bool.false_ne_true

/-- The only reference that an emptied address space can have is its root. -/
theorem Emptied.refs (emptied : Emptied id s s') (held : spaceRefs s'.space owner page) :
    (owner = .root id ∧ (s'.space id).as.rootPa ≠ 0 ∧ (s'.space id).as.rootPa / pageSize = page) ∨
      spaceRefs s.space owner page := by
  cases owner with
  | root j =>
    by_cases here : j = id
    · subst here
      exact .inl ⟨rfl, held.2⟩
    · simp only [spaceRefs, emptied.others j here] at held
      exact .inr held
  | entry j level index =>
    by_cases here : j = id
    · subst here
      exact absurd held.2.1 emptied.not_valid
    · simp only [spaceRefs, emptied.others j here] at held
      exact .inr held
  | chunk j position =>
    by_cases here : j = id
    · subst here
      have stored := held.2
      rw [emptied.noChunks] at stored
      simp at stored
    · simp only [spaceRefs, emptied.others j here] at held
      exact .inr held

/-- An emptied address space obeys everything but the accounts by having no words. -/
theorem Emptied.disciplined (emptied : Emptied id s s') (inv : Disciplined rule attr hand s)
    (accounts : s'.store.Accounts (spaceRefs s'.space) hand') : Disciplined rule attr hand' s' := by
  refine ⟨accounts, ?_, ?_, ?_⟩
  · intro j live
    by_cases here : j = id
    · subst here
      exact ⟨fun level index _ valid => absurd valid emptied.not_valid,
        fun level index _ valid => absurd valid emptied.not_valid⟩
    · rw [emptied.others j here] at live ⊢
      exact inv.tree j live
  · intro j index live valid
    by_cases here : j = id
    · subst here
      exact absurd valid emptied.not_valid
    have entries : s'.entry j 3 index = s.entry j 3 index := by
      rw [entry, entry, emptied.others j here]
    rw [emptied.others j here] at live
    rw [entries] at valid ⊢
    rw [show s'.phys = s.phys from congrArg Store.phys emptied.store]
    exact inv.leaves j index live valid
  · rw [show s'.phys = s.phys from congrArg Store.phys emptied.store]
    exact inv.addressable

/-- An empty address space whose root is a page of the hand. -/
theorem Disciplined.root (inv : Disciplined rule attr (pa / pageSize ::ₘ hand) s)
    (emptied : Emptied id s s')
    (rootPa : (s'.space id).as.rootPa = pa) : Disciplined rule attr hand s' := by
  refine emptied.disciplined inv
    (inv.accounts_link (.root id) emptied.store fun owner page held => ?_)
  rcases emptied.refs held with ⟨rfl, -, page_eq⟩ | old
  · exact .inr ⟨rfl, page_eq.symm.trans (congrArg (· / pageSize) rootPa)⟩
  · exact .inl old

/-- An empty address space without a root. -/
theorem Disciplined.blank (inv : Disciplined rule attr hand s) (emptied : Emptied id s s')
    (rootPa : (s'.space id).as.rootPa = 0) : Disciplined rule attr hand s' := by
  refine emptied.disciplined inv ?_
  rw [Store.Accounts, emptied.store]
  refine .forget inv.accounts ?_
  rintro (owner | cached) page held
  · rcases emptied.refs held with ⟨-, some_root, -⟩ | old
    · exact absurd rootPa some_root
    · exact old
  · exact held

/-- The names of owners after one address space took the place of another. -/
def swapSpace (a b : SpaceId) (id : SpaceId) : SpaceId :=
  if id = a then b else if id = b then a else id

/-- One address space moves to a place where none was, with the attributes it is meant to
have. -/
theorem Disciplined.move {source target : SpaceId} (inv : Disciplined rule attr hand s)
    (store : s'.store = s.store) (distinct : source ≠ target) (wasLive : (s.space source).live)
    (gone : (s'.space source).live = false) (moved : SameTables (s.space source) (s'.space target))
    (others : ∀ j, j ≠ source → j ≠ target → s'.space j = s.space j)
    (meant : attr' target = attr source)
    (meantOthers : ∀ j, j ≠ source → j ≠ target → attr' j = attr j) :
    Disciplined rule attr' hand s' := by
  have injective : Function.Injective (swapSpace source target) := by
    intro x y same
    unfold swapSpace at same
    grind
  refine inv.relocate _ store injective fun j live => ?_
  by_cases atSource : j = source
  · subst atSource
    rw [gone] at live
    contradiction
  by_cases atTarget : j = target
  · subst atTarget
    simp only [swapSpace, distinct.symm, if_false, if_true]
    exact ⟨wasLive, moved, meant⟩
  · simp only [swapSpace, atSource, atTarget, if_false]
    rw [others j atSource atTarget] at live ⊢
    exact ⟨live, .refl _, meantOthers j atSource atTarget⟩

/-! ## Area lists -/

/-- The owners of the chunks of a list. -/
def chunkPairs (id : SpaceId) (pages : List Nat) : List ((SpaceOwner ⊕ Nat) × Nat) :=
  pages.zipIdx.map fun pair => (Sum.inl (.chunk id pair.2), pair.1)

/-- The pages of the chunks, in their order. -/
theorem chunkPairs_snd (id : SpaceId) (pages : List Nat) :
    (chunkPairs id pages).map Prod.snd = pages := by
  simp [chunkPairs, Function.comp_def]

/-- Each chunk is named once. -/
theorem chunkPairs_nodup (pages : List Nat) : ((chunkPairs id pages).map Prod.fst).Nodup := by
  have indices : (chunkPairs id pages).map Prod.fst =
      (List.range' 0 pages.length).map fun position => Sum.inl (.chunk id position) := by
    rw [← List.zipIdx_map_snd 0 pages, chunkPairs, List.map_map, List.map_map]
    rfl
  rw [indices]
  refine List.Nodup.map ?_ List.nodup_range'
  intro x y same
  simpa using same

/-- What the chunks of a space own. -/
theorem mem_chunkPairs {pages : List Nat} {owner : SpaceOwner ⊕ Nat} :
    (owner, page) ∈ chunkPairs id pages ↔
      ∃ position : Nat, owner = Sum.inl (.chunk id position) ∧ pages[position]? = some page := by
  simp only [chunkPairs, List.mem_map, Prod.mk.injEq, Prod.exists]
  constructor
  · rintro ⟨page', position, member, rfl, rfl⟩
    exact ⟨position, rfl, List.mem_zipIdx_iff_getElem?.mp member⟩
  · rintro ⟨position, rfl, stored⟩
    exact ⟨page, position, List.mem_zipIdx_iff_getElem?.mpr stored, rfl, rfl⟩

/-- The references that remain while the chunks of a list are in hand. -/
def withoutChunks (s : Memory F) (id : SpaceId) : SpaceOwner ⊕ Nat → Nat → Prop :=
  fun owner page => Store.allRefs (spaceRefs s.space) s.store.cache owner page ∧
    ∀ position, owner ≠ Sum.inl (.chunk id position)

/-- The chunks of an address space may be taken in hand. -/
theorem Disciplined.takeChunks (inv : Disciplined rule attr hand s) (live : (s.space id).live) :
    s.phys.Accounts (withoutChunks s id) ((s.space id).vmas.pages + hand) := by
  rw [Phys.Accounts, add_assoc, VmaList.pages,
    ← chunkPairs_snd id ((s.space id).vmas.chunkPa.map (· / pageSize))]
  refine .unlinkAll _ inv.accounts ?_ (chunkPairs_nodup _) ?_
  · rintro ⟨owner, page⟩ member
    obtain ⟨position, rfl, stored⟩ := mem_chunkPairs.mp member
    exact ⟨live, stored⟩
  intro owner page held
  refine ⟨held.1, fun member => ?_⟩
  obtain ⟨⟨named, page'⟩, listed, rfl⟩ := List.mem_map.mp member
  obtain ⟨position, same, -⟩ := mem_chunkPairs.mp listed
  exact held.2 position same

/-- Areas are no part of the tables. -/
@[simp] theorem Memory.entry_setVmas (list : VmaList) :
    (s.setVmas id list).entry j l i = s.entry j l i := by
  by_cases here : j = id <;> simp [entry, setVmas, setSpace, here]

/-- No space comes or goes with its areas. -/
@[simp] theorem Memory.live_setVmas (list : VmaList) (j : SpaceId) :
    ((s.setVmas id list).space j).live = (s.space j).live := by
  by_cases here : j = id <;> simp [setVmas, setSpace, here]

/-- The tables of a space stay. -/
@[simp] theorem Memory.as_setVmas (list : VmaList) :
    ((s.setVmas id list).space j).as = (s.space j).as := by
  by_cases here : j = id <;> simp [setVmas, setSpace, here]

/-- The list that is stored. -/
theorem Memory.vmas_setVmas_self (list : VmaList) : ((s.setVmas id list).space id).vmas = list := by
  simp [setVmas, setSpace]

/-- The lists of the other spaces. -/
theorem Memory.vmas_setVmas_ne (other : j ≠ id) :
    ((s.setVmas id list).space j).vmas = (s.space j).vmas := by
  simp [setVmas, setSpace, other]

/-- A list function that trades its chunks for others may replace the areas of an address
space. -/
theorem Disciplined.replaceVmas (inv : Disciplined rule attr hand s) (live : (s.space id).live)
    (traded : ListTrades (withoutChunks s id) hand (s.space id).vmas s.phys list phys) :
    Disciplined rule attr hand ((s.setPhys phys).setVmas id list) := by
  refine ⟨?_, ?_, ?_, traded.tracked.trans_le inv.addressable⟩
  · have accounts := traded.accounts
    rw [Phys.Accounts, add_assoc, VmaList.pages,
      ← chunkPairs_snd id (list.chunkPa.map (· / pageSize))] at accounts
    refine .linkAll _ accounts ?_
    rintro (owner | cached) page held
    · cases owner with
      | root j => exact .inl ⟨by simpa [Store.allRefs, spaceRefs] using held, fun _ => by simp⟩
      | entry j level index =>
        exact .inl ⟨by simpa [Store.allRefs, spaceRefs] using held, fun _ => by simp⟩
      | chunk j position =>
        by_cases here : j = id
        · subst here
          refine .inr (mem_chunkPairs.mpr ⟨position, rfl, ?_⟩)
          have stored := held.2
          rwa [vmas_setVmas_self] at stored
        · refine .inl ⟨?_, fun _ same => here ?_⟩
          · obtain ⟨live', stored⟩ := held
            rw [live_setVmas] at live'
            rw [vmas_setVmas_ne here] at stored
            exact ⟨live', stored⟩
          · simp only [Sum.inl.injEq, SpaceOwner.chunk.injEq] at same
            exact same.1
    · exact .inl ⟨held, fun _ => by simp⟩
  · intro j live'
    rw [live_setVmas] at live'
    rw [as_setVmas]
    exact inv.tree j live'
  · intro j index live' valid
    rw [live_setVmas] at live'
    rw [entry_setVmas] at valid ⊢
    obtain ⟨attrs, meant, obeys⟩ := inv.leaves j index live' valid
    refine ⟨attrs, meant, rule.stable obeys fun single => ?_⟩
    exact traded.exclusive (Sum.inl (.entry j 3 index)) _
      ⟨refs_entry live' valid, fun _ => by simp⟩ single

end

/-- The same address spaces are live, with the same areas and the same place for new ones. -/
structure SameAreas (s s' : Memory F) : Prop where
  /-- No space comes or goes. -/
  live : ∀ id, (s'.space id).live = (s.space id).live
  /-- Areas stay. -/
  vmas : ∀ id, (s'.space id).vmas = (s.space id).vmas
  /-- The bases stay. -/
  base : ∀ id, (s'.space id).as.mmapBase = (s.space id).as.mmapBase

namespace SameAreas

/-- Nothing happens. -/
theorem refl (s : Memory F) : SameAreas s s := ⟨fun _ => rfl, fun _ => rfl, fun _ => rfl⟩

/-- Two steps that keep the areas. -/
theorem trans {s'' : Memory F} (first : SameAreas s s') (second : SameAreas s' s'') :
    SameAreas s s'' :=
  ⟨fun id => (second.live id).trans (first.live id),
    fun id => (second.vmas id).trans (first.vmas id),
    fun id => (second.base id).trans (first.base id)⟩

/-- A live space stays live. -/
theorem isLive (same : SameAreas s s') (live : (s.space id).live) :
    (s'.space id).live := (same.live id).trans live

/-- The allocator has no areas. -/
theorem setPhys (phys : Phys F) : SameAreas s (s.setPhys phys) :=
  ⟨fun _ => rfl, fun _ => rfl, fun _ => rfl⟩

/-- Neither has the store. -/
theorem setStore (store : Store F) : SameAreas s (s.setStore store) :=
  ⟨fun _ => rfl, fun _ => rfl, fun _ => rfl⟩

/-- Neither has an entry. -/
theorem setEntry (id : SpaceId) (level index : Nat) (word : BitVec 64) :
    SameAreas s (s.setEntry id level index word) :=
  ⟨Memory.live_setEntry word, Memory.vmas_setEntry word, Memory.mmapBase_setEntry word⟩

/-- Neither has a table. -/
theorem linkTable (id : SpaceId) (level index pa : Nat) :
    SameAreas s (s.linkTable id level index pa) :=
  ⟨Memory.live_linkTable pa, Memory.vmas_linkTable pa, Memory.mmapBase_linkTable pa⟩

end SameAreas

/-- What a change of page tables leaves of an address space. -/
structure SameSpace (space space' : Space) : Prop where
  /-- As live. -/
  live : space'.live = space.live
  /-- The same areas. -/
  vmas : space'.vmas = space.vmas
  /-- The same base. -/
  base : space'.as.mmapBase = space.as.mmapBase

/-- An unchanged space is the same. -/
theorem SameSpace.of_eq {space space' : Space} (same : space' = space) : SameSpace space space' :=
  same ▸ ⟨rfl, rfl, rfl⟩

/-- The same space in two steps. -/
theorem SameSpace.trans {a b c : Space} (first : SameSpace a b) (second : SameSpace b c) :
    SameSpace a c :=
  ⟨second.live.trans first.live, second.vmas.trans first.vmas, second.base.trans first.base⟩

/-- Steps that keep the areas keep each space. -/
theorem SameAreas.space (same : SameAreas s s') (id : SpaceId) :
    SameSpace (s.space id) (s'.space id) := ⟨same.live id, same.vmas id, same.base id⟩

/-- Address spaces that are in use stay in use and keep their areas; others may appear. -/
def Stays (s s' : Memory F) : Prop :=
  ∀ id, (s.space id).live = true →
    (s'.space id).live = true ∧ (s'.space id).vmas = (s.space id).vmas

/-- Nothing happens to any space. -/
theorem Stays.refl (s : Memory F) : Stays s s := fun _ live => ⟨live, rfl⟩

/-- Only a place that was free takes part. -/
theorem Stays.besides (free : (s.space id).live = false)
    (others : ∀ j, j ≠ id → SameSpace (s.space j) (s'.space j)) : Stays s s' := by
  intro j live
  have other : j ≠ id := by
    rintro rfl
    rw [free] at live
    contradiction
  exact ⟨(others j other).live.trans live, (others j other).vmas⟩

/-- At most one address space has come in, and it is not an image. -/
structure Joins (s s' : Memory F) : Prop where
  /-- Live spaces stay. -/
  stays : Stays s s'
  /-- The image is as live. -/
  image : (s'.space .image).live = (s.space .image).live

/-- No space joins. -/
theorem Joins.refl (s : Memory F) : Joins s s := ⟨.refl s, rfl⟩

/-- A space joins when only a free one changes. -/
theorem Joins.besides (free : (s.space id).live = false) (proper : SpaceId.image ≠ id)
    (others : ∀ j, j ≠ id → SameSpace (s.space j) (s'.space j)) : Joins s s' :=
  ⟨.besides free others, (others _ proper).live⟩

end Spore.Mm
