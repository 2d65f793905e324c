import Spore.Mm.AreaFrames
import Spore.Mm.Tables

/-!
# What the page-table functions do to the leaves

For every function of `mm/vmm.c` that changes one address space: if pages are counted, tables
are linked and leaves obey a rule before, they do so after. Mapping consumes a page of the
hand, protection moves leaves to new rights, and the rest keeps every right as it is.
-/

namespace Spore.Mm

open Spore.Lib

variable {F : Type} {va start pa index stop old new level fuel : Nat} {attrs : AreaRights}
  {flags : UInt32}

namespace Memory

variable {rule : LeafRule} {attr attr' : SpaceId → Nat → Option AreaRights} {hand : Multiset Nat}
  {s s' s'' : Memory F} {id a b : SpaceId} {page i n : Nat}

/-! ## Walks -/

/-- Each level of a walk lies under the one above. -/
theorem walkIndex_div : walkIndex va (level + 1) / 512 = walkIndex va level := by
  have small : ptIndex va (39 - 9 * (level + 1)) < 512 := Nat.mod_lt _ (by decide)
  rw [walkIndex]
  omega

/-- Below the limit a leaf is indexed by its page. -/
theorem walkIndex_leaf_low (low : va < 2 ^ 48) : walkIndex va 3 = va / pageSize := by
  simp only [walkIndex, ptIndex, pageSize]
  omega

/-- The walk finds the leaf of the address. -/
theorem leafForVa_eq (found : s.leafForVa id va = some index) : index = walkIndex va 3 := by
  unfold leafForVa at found
  split at found
  · exact (Option.some.inj found).symm
  · contradiction

/-- A valid leaf is the word at the end of the walk. -/
theorem validLeaf_eq (found : s.validLeaf id va = some index) :
    index = walkIndex va 3 ∧ isValid (s.entry id 3 index) := by
  obtain ⟨leaf, valid⟩ := Option.filter_eq_some_iff.mp found
  exact ⟨leafForVa_eq leaf, valid⟩

section

variable (tree : Tree (s.space id).as) (valid : isValid (s.entry id 3 (walkIndex va 3)) = true)

include tree valid

/-- Above a valid leaf every table is present. -/
theorem tables_of_valid : ∀ level, level < 3 → isTable (s.entry id level (walkIndex va level)) := by
  have up : ∀ level, level < 3 →
      isValid (s.entry id (level + 1) (walkIndex va (level + 1))) = true →
      isTable (s.entry id level (walkIndex va level)) = true := by
    intro level upper below
    rw [← walkIndex_div]
    exact tree.rooted level _ upper below
  have second := up 2 (by omega) valid
  have first := up 1 (by omega) (isValid_of_isTable second)
  have top := up 0 (by omega) (isValid_of_isTable first)
  intro level upper
  obtain rfl | rfl | rfl : level = 0 ∨ level = 1 ∨ level = 2 := by omega
  · exact top
  · exact first
  · exact second

/-- Where tables are linked properly a walk reaches every valid leaf. -/
theorem validLeaf_of_valid : s.validLeaf id va = some (walkIndex va 3) := by
  have tables := tables_of_valid tree valid
  unfold validLeaf leafForVa
  rw [tables 0 (by omega), tables 1 (by omega), tables 2 (by omega)]
  simp [valid]

end

/-! ## Growing the tables -/

/-- What allocating tables leaves alone: the areas, the counters of pages in use, and every valid
word. No leaf appears. -/
structure Grows (s s' : Memory F) : Prop where
  /-- Areas stay. -/
  areas : SameAreas s s'
  /-- Pages in use are counted as before. -/
  counts : ∀ page, s.phys.pmm.refcount page ≠ 0 →
    s'.phys.pmm.refcount page = s.phys.pmm.refcount page
  /-- Valid words stay. -/
  kept : ∀ j l i, (s.space j).live = true → l ≤ 3 → isValid (s.entry j l i) = true →
    s'.entry j l i = s.entry j l i
  /-- No leaf is new. -/
  leaves : ∀ j i, isValid (s'.entry j 3 i) = true → s'.entry j 3 i = s.entry j 3 i

/-- Nothing grows. -/
theorem Grows.refl (s : Memory F) : Grows s s :=
  ⟨.refl s, fun _ _ => rfl, fun _ _ _ _ _ _ => rfl, fun _ _ _ => rfl⟩

/-- Tables grow in two steps. -/
theorem Grows.trans (first : Grows s s') (second : Grows s' s'') : Grows s s'' := by
  refine ⟨first.areas.trans second.areas, fun page inUse => ?_, fun j l i live upper valid => ?_,
    fun j i valid => ?_⟩
  · have same := first.counts page inUse
    exact (second.counts page (by rwa [same])).trans same
  · have same := first.kept j l i live upper valid
    exact (second.kept j l i (first.areas.isLive live) upper (by rwa [same])).trans same
  · have same := second.leaves j i valid
    exact same.trans (first.leaves j i (by rwa [same] at valid))

/-- A valid word hangs off valid words. -/
theorem valid_above {as : UserAddressSpace} (tree : Tree as) (level distance : Nat) :
    ∀ (index : Nat), level + distance ≤ 3 → isValid (as.entry (level + distance) index) →
      isValid (as.entry level (index / 512 ^ distance)) := by
  induction distance with
  | zero =>
    intro index _ valid
    rwa [Nat.pow_zero, Nat.div_one]
  | succ distance ih =>
    intro index upper valid
    have parent := isValid_of_isTable (tree.rooted (level + distance) index (by omega) valid)
    have top := ih _ (by omega) parent
    rwa [Nat.div_div_eq_div_mul, ← Nat.pow_succ'] at top

/-- Linking a table where no valid word was loses no valid word. -/
theorem grows_linkTable {level : Nat} (inv : Disciplined rule attr hand s) (upper : level < 3)
    (vacant : isValid (s.entry id level index) = false) :
    Grows s (s.linkTable id level index pa) := by
  refine ⟨.linkTable _ _ _ _, fun _ _ => rfl, fun j l i live low valid => ?_, fun j i valid => ?_⟩
  · rw [entry_linkTable, if_neg, if_neg]
    · rintro ⟨rfl, deeper, rfl⟩
      have above : isValid (s.entry j level (i / 512 ^ (l - level))) :=
        valid_above (inv.tree j live) level (l - level) i (by omega)
          (by rwa [Nat.add_sub_cancel' (Nat.le_of_lt deeper)])
      rw [vacant] at above
      contradiction
    · rintro ⟨rfl, rfl, rfl⟩
      rw [vacant] at valid
      contradiction
  · rcases valid_linkTable valid with ⟨-, same, -⟩ | ⟨-, -, same⟩
    · omega
    · exact same

/-- `ensure_table` ends with a table, or with no memory for one. -/
theorem ensureTable_spec (level index : Nat) (inv : Disciplined rule attr hand s)
    (live : (s.space id).live) (upper : level < 3)
    (parent : ∀ l, l + 1 = level → isTable (s.entry id l (index / 512))) :
    Disciplined rule attr hand (s.ensureTable id level index).2 ∧
      Grows s (s.ensureTable id level index).2 ∧
      ((s.ensureTable id level index).1 →
        isTable ((s.ensureTable id level index).2.entry id level index)) := by
  unfold ensureTable
  split
  · rename_i valid
    exact ⟨inv, .refl s, fun _ => (inv.tree id live).table level index upper valid⟩
  rename_i vacant
  have vacant : isValid (s.entry id level index) = false := by simpa using vacant
  split
  · exact ⟨inv, .refl s, fun none => by contradiction⟩
  rename_i pa phys found
  obtain ⟨traded, -, aligned, inside⟩ := Phys.trades_allocZeroPage inv.accounts found
  have small := small_of_page inv.addressable aligned inside
  have supplied := inv.tradePhys traded
  refine ⟨supplied.linkTable upper aligned small parent, ?_, fun _ => ?_⟩
  · have filled : Grows s (s.setPhys phys) :=
      ⟨.setPhys phys, fun _ => Phys.allocZeroPage_counts found,
        fun _ _ _ _ _ _ => rfl, fun _ _ _ => rfl⟩
    exact filled.trans (grows_linkTable supplied upper vacant)
  · rw [entry_linkTable, if_pos ⟨rfl, rfl, rfl⟩]
    exact (tableWord_fields aligned small).1

/-- The tables down to a leaf are present afterwards, unless memory ran out. -/
theorem ensureTables_spec (inv : Disciplined rule attr hand s) (live : (s.space id).live) :
    Disciplined rule attr hand (s.ensureTables id va).2 ∧ Grows s (s.ensureTables id va).2 ∧
      ((s.ensureTables id va).1 →
        isTable ((s.ensureTables id va).2.entry id 2 (walkIndex va 2))) := by
  have rounds := countUp_rule
    (fun level (s : Memory F) => s.ensureTable id level (walkIndex va level))
    (fun k (now : Memory F) => (Disciplined rule attr hand now ∧ Grows s now) ∧
      ∀ l, l + 1 = k → isTable (now.entry id l (walkIndex va l)) = true)
    (fun now => Disciplined rule attr hand now ∧ Grows s now) 3 0
    (fun k now _ small holds => by
      obtain ⟨⟨good, grown⟩, above⟩ := holds
      obtain ⟨next, more, table⟩ := ensureTable_spec k (walkIndex va k) good
        (grown.areas.isLive live) (by omega) fun l same => by
          subst same
          rw [walkIndex_div]
          exact above l rfl
      refine ⟨fun ok => ⟨⟨next, grown.trans more⟩, fun l same => ?_⟩,
        fun _ => ⟨next, grown.trans more⟩⟩
      obtain rfl : l = k := by omega
      exact table ok)
    ⟨⟨inv, .refl s⟩, fun l same => by omega⟩
  show _ ∧ _ ∧ ((s.ensureTables id va).1 = true → _)
  unfold ensureTables
  cases ended : (countUp (fun level s => s.ensureTable id level (walkIndex va level)) 3 0 s).1 with
  | true =>
    obtain ⟨⟨good, grown⟩, above⟩ := rounds.1 ended
    exact ⟨good, grown, fun _ => above 2 rfl⟩
  | false =>
    obtain ⟨good, grown⟩ := rounds.2 ended
    exact ⟨good, grown, fun contra => (nomatch contra)⟩

/-! ## Mapping -/

/-- A page of the hand has been mapped, or is still in hand. -/
structure Maps (rule : LeafRule) (attr : SpaceId → Nat → Option AreaRights) (hand : Multiset Nat)
    (page : Nat) (s : Memory F) (result : Bool × Memory F) : Prop where
  /-- Areas stay. -/
  areas : SameAreas s result.2
  /-- The page went into the tables. -/
  mapped : result.1 = true → Disciplined rule attr hand result.2
  /-- The page is still at hand. -/
  refused : result.1 = false → Disciplined rule attr (page ::ₘ hand) result.2

/-- Writing a leaf once its tables are there. -/
theorem mapLeaf_spec {word : BitVec 64} (inv : Disciplined rule attr (page ::ₘ hand) s)
    (live : (s.space id).live) (maps : pageOf word = page)
    (meant : attr id (walkIndex va 3) = some attrs)
    (obeys : rule.holds (s.phys.pmm.refcount page = 1) attrs (isWritableLeaf word) (isCow word)) :
    Maps rule attr hand page s
      (if (s.ensureTables id va).1 then
        (true, (s.ensureTables id va).2.setEntry id 3 (walkIndex va 3) word)
      else (false, (s.ensureTables id va).2)) := by
  obtain ⟨good, grown, table⟩ := ensureTables_spec inv live
  have inUse : s.phys.pmm.refcount page ≠ 0 := by
    have positive := Counted.pos_of_hand inv.accounts
      (Multiset.mem_add.mpr (.inl (Multiset.mem_cons_self _ _)))
    exact Nat.pos_iff_ne_zero.mp positive
  split
  · rename_i ok
    refine ⟨grown.areas.trans (.setEntry _ _ _ _), fun _ => ?_, fun contra => (nomatch contra)⟩
    refine good.setLeaf maps ?_ meant ?_
    · rw [walkIndex_div]
      exact table ok
    · rwa [grown.counts _ inUse]
  · exact ⟨grown.areas, fun contra => (nomatch contra), fun _ => good⟩

section

variable (inv : Disciplined rule attr (pa / pageSize ::ₘ hand) s) (live : (s.space id).live)
  (aligned : pa % pageSize = 0) (small : pa < 2 ^ 48)
  (meant : attr id (walkIndex va 3) = some attrs)
variable {result : Bool × Memory F}
include inv live aligned small meant

/-- A page is mapped with the rights of its area, alone or shared. -/
theorem mapPage_spec (rights : attrs.prot = flags)
    (alone : grantsWrite flags →
      s.phys.pmm.refcount (pa / pageSize) = 1 ∨ attrs.flags &&& mapShared ≠ 0) :
    Maps rule attr hand (pa / pageSize) s (s.mapPage id va pa flags) := by
  have fields : Fields (mapWord pa flags) _ _ _ _ := mapWord_fields aligned small
  refine mapLeaf_spec inv live (congrArg (· / pageSize) fields.addr) meant ?_
  rw [fields.writable, fields.cow]
  subst rights
  exact rule.mapped alone

/-- A page is mapped to be copied on a write. -/
theorem mapPageCow_spec (rights : grantsWrite attrs.prot) :
    Maps rule attr hand (pa / pageSize) s (s.mapPageCow id va pa flags) := by
  have fields : Fields (mapCowWord pa flags) _ _ _ _ := mapCowWord_fields aligned small
  refine mapLeaf_spec inv live (congrArg (· / pageSize) fields.addr) meant ?_
  rw [fields.writable, fields.cow]
  exact rule.marked rights

end

/-- The caller keeps no page: it is mapped, or given back. -/
theorem Maps.freed (maps : Maps rule attr hand (pa / pageSize) s result) :
    Disciplined rule attr hand (if result.1 then (true, result.2)
      else (false, result.2.setPhys (result.2.phys.freePage pa))).2 := by
  split
  · rename_i ok
    exact maps.mapped ok
  rename_i bad
  have held := maps.refused (by simpa using bad)
  exact held.tradePhys (Phys.trades_free held.accounts)

/-- The caller keeps no page: it is mapped, or forgotten. -/
theorem Maps.forgotten
    (maps : Maps rule attr hand page s result) : Disciplined rule attr hand result.2 := by
  cases ended : result.1 with
  | true => exact maps.mapped ended
  | false => exact (maps.refused ended).drop

/-- `vmm_alloc_page` maps a page of its own. -/
theorem allocPage_spec (inv : Disciplined rule attr hand s) (live : (s.space id).live)
    (meant : attr id (walkIndex va 3) = some attrs) (rights : attrs.prot = flags) :
    Disciplined rule attr hand (s.allocPage id va flags).2 := by
  unfold allocPage
  split
  · exact inv
  rename_i pa phys found
  obtain ⟨traded, single, aligned, inside⟩ := Phys.trades_allocZeroPage inv.accounts found
  have maps := mapPage_spec (inv.tradePhys traded) live aligned
    (small_of_page inv.addressable aligned inside) meant rights fun _ => .inl single
  exact maps.forgotten

/-! ## Copy-on-write faults -/

/-- The second word counts. -/
theorem setEntry_setEntry (first second : BitVec 64) :
    (s.setEntry id level index first).setEntry id level index second =
      s.setEntry id level index second := by
  unfold setEntry setSpace
  congr 1
  funext j
  by_cases here : j = id
  · subst here
    simp only [if_true]
    congr 2
    funext l i
    by_cases same : l = level ∧ i = index <;> simp [same]
  · simp [here]

/-- A marked leaf moves to a page of its own. -/
theorem copyLeaf_inv {phys : Phys F} (inv : Disciplined rule attr hand s)
    (live : (s.space id).live) (valid : isValid (s.entry id 3 index))
    (meant : attr id index = some attrs)
    (obeys : rule.holds (s.phys.pmm.refcount (pageOf (s.entry id 3 index)) = 1) attrs
      (isWritableLeaf (s.entry id 3 index)) true) (found : s.phys.allocZeroPage = some (pa, phys)) :
    Disciplined rule attr hand (s.copyLeaf id index pa phys) := by
  obtain ⟨traded, single, aligned, inside⟩ := Phys.trades_allocZeroPage inv.accounts found
  have fields : Fields (copiedWord (s.entry id 3 index) pa) _ _ _ _ :=
    copiedWord_fields aligned (small_of_page inv.addressable aligned inside)
  have page : pageOf (copiedWord (s.entry id 3 index) pa) = pa / pageSize :=
    congrArg (· / pageSize) fields.addr
  have filled := (inv.tradePhys traded).setBytes
    (copyPage phys (pa / pageSize) (pageOf (s.entry id 3 index))).bytes
  -- Both the old and the new page are in hand while the leaf is empty.
  have emptied := filled.clearLeaf live valid
  rw [Multiset.cons_swap] at emptied
  have present : isTable (s.entry id 2 (index / 512)) :=
    (inv.tree id live).rooted 2 index (by omega) valid
  have alone : rule.holds (phys.pmm.refcount (pa / pageSize) = 1) attrs
      (isWritableLeaf (copiedWord (s.entry id 3 index) pa))
      (isCow (copiedWord (s.entry id 3 index) pa)) := by
    rw [fields.writable, fields.cow]
    exact rule.taken obeys single
  have copied := emptied.setLeaf page
    (show isTable (Memory.entry (.setEntry _ id 3 index 0) id 2 (index / 512)) = true by
      rw [entry_setEntry_ne (by omega)]; exact present) meant alone
  rw [setEntry_setEntry] at copied
  exact copied.tradePhys (Phys.trades_free copied.accounts)

/-- `vmm_handle_cow_fault` ends with a writable leaf that has its page for itself, or changes
nothing. -/
theorem handleCowFault_spec (inv : Disciplined rule attr hand s) (live : (s.space id).live) :
    Disciplined rule attr hand (s.handleCowFault id va).2 := by
  unfold handleCowFault
  cases found : s.validLeaf id va with
  | none => exact inv
  | some index =>
    obtain ⟨-, valid⟩ := validLeaf_eq found
    obtain ⟨attrs, meant, obeys⟩ := inv.leaves id index live valid
    dsimp only
    split
    · exact inv
    rename_i marked
    have marked : isCow (s.entry id 3 index) := by simpa using marked
    rw [marked] at obeys
    split
    · rename_i last
      have fields : Fields (takenWord (s.entry id 3 index)) _ _ _ _ := takenWord_fields
      refine inv.rewriteLeaf live valid (congrArg (· / pageSize) fields.addr) meant
        (fun _ _ _ => rfl) ?_
      rw [fields.writable, fields.cow]
      exact rule.taken obeys (Pmm.refcount_of_isLastRef last)
    · split
      · exact inv
      · exact copyLeaf_inv inv live valid meant obeys ‹_›

/-! ## Unmapping -/

/-- Leaves have only gone. -/
def Fewer (s s' : Memory F) : Prop :=
  ∀ j i, isValid (s'.entry j 3 i) = true → s'.entry j 3 i = s.entry j 3 i

/-- Fewer leaves in two steps. -/
theorem Fewer.trans (first : Fewer s s') (second : Fewer s' s'') : Fewer s s'' := by
  intro j i valid
  have same := second j i valid
  exact same.trans (first j i (by rwa [same] at valid))

/-- `vmm_unmap_range` on one page. -/
theorem unmapLeaf_spec (inv : Disciplined rule attr hand s) (live : (s.space id).live) :
    Disciplined rule attr hand (s.unmapLeaf id va) ∧ Fewer s (s.unmapLeaf id va) ∧
      isValid ((s.unmapLeaf id va).entry id 3 (walkIndex va 3)) = false := by
  unfold unmapLeaf
  cases found : s.validLeaf id va with
  | none =>
    refine ⟨inv, fun _ _ _ => rfl, ?_⟩
    cases valid : isValid (s.entry id 3 (walkIndex va 3)) with
    | true => rw [validLeaf_of_valid (inv.tree _ live) valid] at found; contradiction
    | false => rfl
  | some index =>
    obtain ⟨rfl, valid⟩ := validLeaf_eq found
    have cleared := inv.clearLeaf live valid
    refine ⟨cleared.tradePhys (Phys.trades_free cleared.accounts), fun j i still => ?_, ?_⟩
    · dsimp only at still ⊢
      rw [entry_setPhys] at still ⊢
      by_cases here : j = id ∧ 3 = 3 ∧ i = walkIndex va 3
      · rw [entry_setEntry, if_pos here] at still
        contradiction
      · exact entry_setEntry_ne here
    · dsimp only
      rw [entry_setPhys, entry_setEntry_self]
      decide

/-- No leaf of the range is left. -/
theorem unmapRange_spec (inv : Disciplined rule attr hand s) (live : (s.space id).live) :
    Disciplined rule attr hand (s.unmapRange id start stop) ∧ Fewer s (s.unmapRange id start stop) ∧
      ∀ k < rounds start stop, isValid ((s.unmapRange id start stop).entry id 3
        (walkIndex (start + k * pageSize) 3)) = false := by
  refine (foldl_range_moves (fun n now => (now.space id).live ∧ Disciplined rule attr hand now ∧
    Fewer s now ∧ ∀ k < n, isValid (now.entry id 3 (walkIndex (start + k * pageSize) 3)) = false) _
    ⟨live, inv, fun _ _ _ => rfl, fun _ none => absurd none (Nat.not_lt_zero _)⟩ ?_).2
  intro n now _ ⟨alive, good, fewer, gone⟩
  obtain ⟨next, less, here⟩ := unmapLeaf_spec good alive
  refine ⟨(SameAreas.unmapLeaf _ _ _).isLive alive, next, fewer.trans less, fun k before => ?_⟩
  by_cases last : k = n
  · rw [last]
    exact here
  have earlier := gone k (by omega)
  cases valid : isValid ((now.unmapLeaf id (start + n * pageSize)).entry id 3
      (walkIndex (start + k * pageSize) 3)) with
  | false => rfl
  | true => rw [less id _ valid, earlier] at valid; contradiction

/-! ## Protection -/

/-- What protection leaves alone: memory, areas, and which pages are mapped and marked. -/
structure Reworded (s s' : Memory F) : Prop where
  /-- No page moves. -/
  phys : s'.store = s.store
  /-- Areas stay. -/
  areas : SameAreas s s'
  /-- Words stay valid or invalid. -/
  valid : ∀ j l i, isValid (s'.entry j l i) = isValid (s.entry j l i)
  /-- Leaves keep their pages. -/
  page : ∀ j i, pageOf (s'.entry j 3 i) = pageOf (s.entry j 3 i)
  /-- Leaves keep their marks. -/
  cow : ∀ j i, isCow (s'.entry j 3 i) = isCow (s.entry j 3 i)

/-- No word changes. -/
theorem Reworded.refl (s : Memory F) : Reworded s s :=
  ⟨rfl, .refl s, fun _ _ _ => rfl, fun _ _ => rfl, fun _ _ => rfl⟩

/-- Words change in two steps. -/
theorem Reworded.trans (first : Reworded s s') (second : Reworded s' s'') : Reworded s s'' :=
  ⟨second.phys.trans first.phys, first.areas.trans second.areas,
    fun j l i => (second.valid j l i).trans (first.valid j l i),
    fun j i => (second.page j i).trans (first.page j i),
    fun j i => (second.cow j i).trans (first.cow j i)⟩

/-- One leaf has new permissions. -/
theorem reworded_protect :
    Reworded s (s.setEntry id 3 index (protectedWord (s.entry id 3 index) flags)) := by
  have fields : Fields (protectedWord (s.entry id 3 index) flags) _ _ _ _ := protectedWord_fields
  exact ⟨rfl, .setEntry _ _ _ _, congr_setEntry isValid fields.valid,
    fun j => congr_setEntry pageOf (congrArg (· / pageSize) fields.addr) j 3,
    fun j => congr_setEntry isCow fields.cow j 3⟩

/-- The leaves of a range may take new rights if each of them, with its page and its mark, obeys
the rule with the attributes it is then meant to have. -/
def Admits (rule : LeafRule) (attr' : SpaceId → Nat → Option AreaRights) (s : Memory F)
    (id : SpaceId) (start stop : Nat) (flags : UInt32) : Prop :=
  ∀ k < rounds start stop, isValid (s.entry id 3 (walkIndex (start + k * pageSize) 3)) = true →
    ∃ attrs, attr' id (walkIndex (start + k * pageSize) 3) = some attrs ∧
      rule.holds (s.phys.pmm.refcount
          (pageOf (s.entry id 3 (walkIndex (start + k * pageSize) 3))) = 1) attrs
        (grantsWrite flags) (isCow (s.entry id 3 (walkIndex (start + k * pageSize) 3)))

/-- The leaf indices of the first pages of a range. -/
def InRange (start n : Nat) (i : Nat) : Prop := ∃ k < n, i = walkIndex (start + k * pageSize) 3

instance (start n i : Nat) : Decidable (InRange start n i) :=
  inferInstanceAs (Decidable (∃ k, k < n ∧ i = walkIndex (start + k * pageSize) 3))

/-- The pages of one round more. -/
theorem inRange_succ :
    InRange start (n + 1) i ↔ InRange start n i ∨ i = walkIndex (start + n * pageSize) 3 := by
  constructor
  · rintro ⟨k, before, rfl⟩
    by_cases last : k = n
    · exact .inr (by rw [last])
    · exact .inl ⟨k, by omega, rfl⟩
  · rintro (⟨k, before, rfl⟩ | rfl)
    · exact ⟨k, by omega, rfl⟩
    · exact ⟨n, Nat.lt_succ_self n, rfl⟩

/-- The attributes that leaves are meant to have after the first pages of a range changed
theirs. -/
def mixed (attr attr' : SpaceId → Nat → Option AreaRights) (id : SpaceId) (start n : Nat) :
    SpaceId → Nat → Option AreaRights :=
  fun j i => if j = id ∧ InRange start n i then attr' j i else attr j i

/-- The next page changes the attributes of one leaf only. -/
theorem mixed_succ_ne {j : SpaceId} (other : ¬ (j = id ∧ i = walkIndex (start + n * pageSize) 3)) :
    mixed attr attr' id start (n + 1) j i = mixed attr attr' id start n j i := by
  unfold mixed
  by_cases here : j = id
  · have apart : i ≠ walkIndex (start + n * pageSize) 3 := fun same => other ⟨here, same⟩
    simp [inRange_succ, here, apart]
  · simp [here]

/-- `vmm_protect_range` on the next page of the range. -/
theorem protectLeaf_spec (inv : Disciplined rule (mixed attr attr' id start n) hand s)
    (live : (s.space id).live)
    (admits : isValid (s.entry id 3 (walkIndex (start + n * pageSize) 3)) →
      ∃ attrs, attr' id (walkIndex (start + n * pageSize) 3) = some attrs ∧
        rule.holds (s.phys.pmm.refcount
            (pageOf (s.entry id 3 (walkIndex (start + n * pageSize) 3))) = 1) attrs
          (grantsWrite flags) (isCow (s.entry id 3 (walkIndex (start + n * pageSize) 3)))) :
    Disciplined rule (mixed attr attr' id start (n + 1)) hand
        (s.protectLeaf id flags (start + n * pageSize)) ∧
      Reworded s (s.protectLeaf id flags (start + n * pageSize)) := by
  unfold protectLeaf
  cases found : s.validLeaf id (start + n * pageSize) with
  | none =>
    refine ⟨inv.reattr fun j i live' valid => mixed_succ_ne ?_, .refl s⟩
    rintro ⟨rfl, rfl⟩
    rw [validLeaf_of_valid (inv.tree _ live) valid] at found
    contradiction
  | some index =>
    obtain ⟨rfl, valid⟩ := validLeaf_eq found
    obtain ⟨attrs, meant, obeys⟩ := admits valid
    have fields : Fields (protectedWord
        (s.entry id 3 (walkIndex (start + n * pageSize) 3)) flags) _ _ _ _ := protectedWord_fields
    refine ⟨inv.rewriteLeaf live valid (congrArg (· / pageSize) fields.addr)
      ((if_pos ⟨rfl, inRange_succ.mpr (.inr rfl)⟩).trans meant)
      (fun j i other => mixed_succ_ne other) ?_, reworded_protect⟩
    rw [fields.writable, fields.cow]
    exact obeys

/-- `vmm_protect_range` moves the leaves of the range to their new rights. -/
theorem protectRange_spec {stop : Nat} (inv : Disciplined rule attr hand s)
    (live : (s.space id).live) (admits : Admits rule attr' s id start stop flags)
    (elsewhere : ∀ j i, ¬ (j = id ∧ InRange start (rounds start stop) i) → attr' j i = attr j i) :
    Disciplined rule attr' hand (s.protectRange id start stop flags) ∧
      Reworded s (s.protectRange id start stop flags) := by
  have initial : Disciplined rule (mixed attr attr' id start 0) hand s :=
    inv.reattr fun j i _ _ => by
    unfold mixed
    rw [if_neg]
    rintro ⟨-, k, none, -⟩
    exact absurd none (Nat.not_lt_zero k)
  have moved := foldl_range_moves
    (fun n now => Disciplined rule (mixed attr attr' id start n) hand now ∧ Reworded s now)
    (rounds start stop) ⟨initial, .refl s⟩
    (fun n now inside ⟨good, same⟩ => by
      have step := protectLeaf_spec good (same.areas.isLive live) fun valid => by
        rw [same.valid] at valid
        rw [same.page, same.cow, show now.phys = s.phys from congrArg Store.phys same.phys]
        exact admits n inside valid
      exact ⟨step.1, same.trans step.2⟩)
  refine ⟨moved.1.reattr fun j i _ _ => ?_, moved.2⟩
  unfold mixed
  split
  · rfl
  · rename_i outside
    exact elsewhere j i outside

/-! ## Moving -/

/-- Writes to two entries commute. -/
theorem setEntry_comm {level first second : Nat} (word word' : BitVec 64)
    (different : first ≠ second) :
    (s.setEntry id level first word).setEntry id level second word' =
      (s.setEntry id level second word').setEntry id level first word := by
  unfold setEntry setSpace
  congr 1
  funext j
  by_cases here : j = id
  · subst here
    simp only [if_true]
    congr 2
    funext l i
    by_cases one : l = level ∧ i = first
    · simp [one, different]
    · simp [one]
  · simp [here]

/-- `vmm_move_page` between leaves that are meant to have the same rights. -/
theorem movePage_spec (inv : Disciplined rule attr hand s) (live : (s.space id).live)
    (alike : attr id (walkIndex new 3) = attr id (walkIndex old 3)) :
    Disciplined rule attr hand (s.movePage id old new).2 := by
  unfold movePage
  cases found : s.validLeaf id old with
  | none => exact inv
  | some index =>
    obtain ⟨rfl, valid⟩ := validLeaf_eq found
    obtain ⟨good, grown, table⟩ := ensureTables_spec inv live
    dsimp only
    split
    · exact good
    rename_i ok
    have present := table (by simpa using ok)
    generalize (s.ensureTables id new).2 = now at good grown present
    have same : now.entry id 3 (walkIndex old 3) = s.entry id 3 (walkIndex old 3) :=
      grown.kept id 3 _ live (Nat.le_refl 3) valid
    have live' := grown.areas.isLive live
    rw [← same] at valid
    split
    · exact good
    rename_i vacant
    have different : walkIndex new 3 ≠ walkIndex old 3 := by
      intro here
      rw [here] at vacant
      exact vacant valid
    obtain ⟨attrs, meant, obeys⟩ := good.leaves id _ live' valid
    rw [setEntry_comm _ _ different]
    refine (good.clearLeaf live' valid).setLeaf rfl ?_ (alike.trans meant) obeys
    rw [entry_setEntry_ne (by omega), walkIndex_div]
    exact present

/-! ## Shared areas after a copy -/

/-- One round of `vmm_restore_shared_range`, on leaves of a shared area. -/
theorem restoreLeaf_spec (inv : Disciplined rule attr hand s)
    (liveA : (s.space a).live) (liveB : (s.space b).live)
    (meantA : attr a (walkIndex va 3) = some attrs)
    (meantB : attr b (walkIndex va 3) = some attrs) (rights : attrs.prot = flags)
    (shared : attrs.flags &&& mapShared ≠ 0) :
    Disciplined rule attr hand (restoreLeaf a b flags va s).2 := by
  have obeys : ∀ alone : Prop, rule.holds alone attrs (grantsWrite flags) false := by
    intro alone
    subst rights
    exact rule.mapped fun _ => .inr shared
  unfold restoreLeaf
  split
  · rename_i i j foundA foundB
    obtain ⟨rfl, validA⟩ := validLeaf_eq foundA
    obtain ⟨rfl, validB⟩ := validLeaf_eq foundB
    split
    · exact inv
    have fieldsA : Fields (restoredWord (s.entry a 3 (walkIndex va 3)) flags) _ _ _ _ :=
      restoredWord_fields
    have fieldsB : Fields (restoredWord (s.entry b 3 (walkIndex va 3)) flags) _ _ _ _ :=
      restoredWord_fields
    have first := inv.rewriteLeaf liveA validA (congrArg (· / pageSize) fieldsA.addr) meantA
      (fun _ _ _ => rfl) (by rw [fieldsA.writable, fieldsA.cow]; exact obeys _)
    refine first.rewriteLeaf ((live_setEntry _ b).trans liveB) ?_ ?_ meantB
      (fun _ _ _ => rfl) (by rw [fieldsB.writable, fieldsB.cow]; exact obeys _)
    · rw [entry_setEntry]
      split
      · exact fieldsA.valid.trans validA
      · exact validB
    · rw [entry_setEntry]
      split
      · rename_i same
        obtain ⟨rfl, -, -⟩ := same
        exact (congrArg (· / pageSize) fieldsB.addr).trans
          (congrArg (· / pageSize) fieldsA.addr).symm
      · exact congrArg (· / pageSize) fieldsB.addr
  · exact inv

/-- The leaves of a shared area get their rights back, by induction over the pages. -/
theorem restoreSharedRange_spec {stop : Nat} (inv : Disciplined rule attr hand s)
    (liveA : (s.space a).live) (liveB : (s.space b).live)
    (meant : ∀ k < rounds start stop, attr a (walkIndex (start + k * pageSize) 3) = some attrs ∧
      attr b (walkIndex (start + k * pageSize) 3) = some attrs) (rights : attrs.prot = flags)
    (shared : attrs.flags &&& mapShared ≠ 0) :
    Disciplined rule attr hand (s.restoreSharedRange a b start stop flags).2 := by
  unfold restoreSharedRange
  split
  · exact inv
  refine (countUp_keeps (fun now => Disciplined rule attr hand now ∧ SameAreas s now) _ 0 ?_
    ⟨inv, .refl s⟩).1
  intro k now _ inside ⟨good, same⟩
  obtain ⟨first, second⟩ := meant k (by omega)
  exact ⟨restoreLeaf_spec good (same.isLive liveA) (same.isLive liveB) first second rights shared,
    same.trans (.restoreLeaf _ _ _ _ _)⟩

/-! ## Copies to user memory -/

/-- Bytes of physical pages take no part. -/
theorem poke_spec (pa : Nat) (data : List UInt8) (inv : Disciplined rule attr hand s) :
    Disciplined rule attr hand (s.poke pa data) :=
  inv.setBytes _

/-- Making one page writable, if it is not. -/
theorem openPage_spec (va : Nat) (inv : Disciplined rule attr hand s) (live : (s.space id).live) :
    Disciplined rule attr hand (s.openPage id va).2 := by
  unfold openPage
  split
  · exact handleCowFault_spec inv live
  · exact inv

/-- Pages are opened for the kernel. -/
theorem openPages_spec (page pages : Nat) (inv : Disciplined rule attr hand s)
    (live : (s.space id).live) : Disciplined rule attr hand (s.openPages id page pages).2 := by
  refine (countUp_keeps (fun now => Disciplined rule attr hand now ∧ (now.space id).live) _ 0 ?_
    ⟨inv, live⟩).1
  intro k now _ _ ⟨good, alive⟩
  exact ⟨openPage_spec _ good alive, (SameAreas.openPage _ _ _).isLive alive⟩

/-- Bytes are copied into opened pages, by induction over the chunks. -/
theorem copyChunks_spec : ∀ (va : Nat) (data : List UInt8) {s : Memory F},
    Disciplined rule attr hand s → (s.space id).live →
      Disciplined rule attr hand (copyChunks id fuel va data s).2 := by
  induction fuel with
  | zero => exact fun _ _ _ inv _ => inv
  | succ fuel ih =>
    intro va data s inv live
    cases data with
    | nil => exact inv
    | cons byte rest =>
      have good := openPage_spec va inv live
      rw [copyChunks]
      · split
        · exact good
        · exact ih _ _ (poke_spec _ _ good) ((SameAreas.openPage s id va).isLive live)
      · exact List.cons_ne_nil _ _

/-- `vmm_copy_to_user` opens and writes pages only. -/
theorem copyToUser_spec (dst : Nat) (data : List UInt8) (inv : Disciplined rule attr hand s)
    (live : (s.space id).live) : Disciplined rule attr hand (s.copyToUser id dst data).2 := by
  unfold copyToUser
  split
  · exact inv
  split
  · exact inv
  have good := openPages_spec (pageBase dst)
    ((pageBase (dst + (data.length - 1)) - pageBase dst) / pageSize + 1) inv live
  dsimp only
  split
  · exact good
  · exact copyChunks_spec dst data good ((SameAreas.openPages s id _ _).isLive live)

end Memory

end Spore.Mm
