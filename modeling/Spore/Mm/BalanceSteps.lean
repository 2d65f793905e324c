import Spore.Mm.Balance

/-!
# Mapping, moving and unmapping in balance

Mapping a page needs a table at every level of the walk. As long as the allocator can supply
the tables that are missing, and the leaf is free, mapping keeps the balance. When it has no
page at all the first table that is missing ends the attempt before anything has changed.
-/

namespace Spore.Mm

open Spore.Lib Memory Phys Finset

variable {F : Type} {reserved : Nat → Prop} {hand : Multiset Nat} {s s' : Memory F} {id : SpaceId}
  {level index va oldVa newVa start stop : Nat}

/-- The same address spaces are in use, with the same roots. -/
def SameRoots (s s' : Memory F) : Prop :=
  ∀ j, (s'.space j).live = (s.space j).live ∧ (s'.space j).as.rootPa = (s.space j).as.rootPa

/-- Nothing happens. -/
theorem SameRoots.refl (s : Memory F) : SameRoots s s := fun _ => ⟨rfl, rfl⟩

/-- Roots stay in two steps. -/
theorem SameRoots.trans {s'' : Memory F} (first : SameRoots s s') (second : SameRoots s' s'') :
    SameRoots s s'' :=
  fun j => ⟨(second j).1.trans (first j).1, (second j).2.trans (first j).2⟩

/-- A word is no root. -/
theorem sameRoots_setEntry (word : BitVec 64) : SameRoots s (s.setEntry id level index word) :=
  fun j => ⟨Memory.live_setEntry word j, Memory.rootPa_setEntry word j⟩

/-! ## Tables on the way to a leaf -/

/-- An index is within its level. -/
theorem walkIndex_lt : ∀ level, walkIndex va level < 512 ^ (level + 1) := by
  intro level
  induction level with
  | zero =>
    show ptIndex va 39 < _
    exact Nat.mod_lt _ (by decide)
  | succ level ih =>
    have small : ptIndex va (39 - 9 * (level + 1)) < 512 := Nat.mod_lt _ (by decide)
    rw [walkIndex, Nat.pow_succ]
    omega

/-- Whether the table at one level of a walk is missing, as a number. -/
def missingAt (s : Memory F) (id : SpaceId) (va level : Nat) : Nat :=
  if isTable (s.entry id level (walkIndex va level)) then 0 else 1

/-- The tables that a walk to a leaf is missing. -/
def missingTables (s : Memory F) (id : SpaceId) (va : Nat) : Nat :=
  missingAt s id va 0 + missingAt s id va 1 + missingAt s id va 2

/-- Tables were added: all areas, roots, tables, leaves and kernel pages are as before. -/
structure Extended (s s' : Memory F) : Prop where
  /-- Areas stay. -/
  areas : SameAreas s s'
  /-- The roots stay. -/
  root : ∀ j, (s'.space j).as.rootPa = (s.space j).as.rootPa
  /-- Tables stay. -/
  tables : ∀ j l i, isTable (s.entry j l i) = true → s'.entry j l i = s.entry j l i
  /-- Leaves stay. -/
  leaves : ∀ j i, (s.space j).live = true →
    isValid (s'.entry j 3 i) = isValid (s.entry j 3 i) ∧
    (isValid (s.entry j 3 i) = true → s'.entry j 3 i = s.entry j 3 i)
  /-- The kernel holds what it held. -/
  held : s'.phys.held = s.phys.held

namespace Extended

/-- Nothing is added. -/
theorem refl (s : Memory F) : Extended s s :=
  ⟨.refl s, fun _ => rfl, fun _ _ _ _ => rfl, fun _ _ _ => ⟨rfl, fun _ => rfl⟩, rfl⟩

/-- Tables are added in two steps. -/
theorem trans {s'' : Memory F} (first : Extended s s') (second : Extended s' s'') :
    Extended s s'' := by
  refine ⟨first.areas.trans second.areas, fun j => (second.root j).trans (first.root j),
    fun j l i table => ?_, fun j i live => ?_, second.held.trans first.held⟩
  · have same := first.tables j l i table
    exact (second.tables j l i (by rwa [same])).trans same
  · obtain ⟨valid, kept⟩ := first.leaves j i live
    obtain ⟨valid', kept'⟩ := second.leaves j i (first.areas.isLive live)
    exact ⟨valid'.trans valid, fun was => (kept' (valid.trans was)).trans (kept was)⟩

/-- New tables are below the same roots. -/
theorem sameRoots (extended : Extended s s') : SameRoots s s' :=
  fun j => ⟨extended.areas.live j, extended.root j⟩

end Extended

/-- Linking a table where no valid word was. -/
theorem extended_linkTable {level index pa : Nat} {phys : Phys F}
    (balanced : Balanced reserved hand (s.setPhys phys)) (live : (s.space id).live)
    (upper : level < 3) (vacant : isValid (s.entry id level index) = false)
    (held : phys.held = s.phys.held) :
    Extended s ((s.setPhys phys).linkTable id level index pa) := by
  refine ⟨(SameAreas.setPhys phys).trans (.linkTable _ _ _ _),
    fun j => Memory.rootPa_linkTable pa j, fun j l i table => ?_, fun j i _ => ?_, held⟩
  · refine (balanced.valid_linkTable_iff live vacant j ?_).2 (isValid_of_isTable table)
    rintro ⟨rfl, rfl, rfl⟩
    rw [isValid_of_isTable table] at vacant
    contradiction
  · exact balanced.valid_linkTable_iff live vacant j (by omega)

/-- What `ensure_table` does when a page for the table is there if it is needed. -/
structure Supplies (reserved : Nat → Prop) (hand : Multiset Nat) (id : SpaceId) (level index : Nat)
    (s : Memory F) (result : Bool × Memory F) : Prop where
  /-- It succeeds. -/
  done : result.1 = true
  /-- The balance holds. -/
  balanced : Balanced reserved hand result.2
  /-- The table is there. -/
  table : isTable (result.2.entry id level index) = true
  /-- Only tables are new. -/
  extended : Extended s result.2
  /-- Their pages are taken. -/
  used : result.2.phys.pmm.available +
    (if isTable (s.entry id level index) then 0 else 1) = s.phys.pmm.available

/-- Adding tables leaves fewer of them missing. -/
theorem missingAt_le (extended : Extended s s') :
    missingAt s' id va level ≤ missingAt s id va level := by
  unfold missingAt
  by_cases table : isTable (s.entry id level (walkIndex va level))
  · rw [extended.tables id level _ table]
  · rw [if_neg table]
    split <;> omega

/-- `ensure_table` without a page for a table: nothing changes, and it succeeds only where the
table is present. -/
theorem ensureTable_starved {level : Nat} (index : Nat) (balanced : Balanced reserved hand s)
    (live : (s.space id).live) (upper : level < 3) (starved : s.phys.pmm.available = 0) :
    (s.ensureTable id level index).2 = s ∧
      ((s.ensureTable id level index).1 → isTable (s.entry id level index)) := by
  unfold ensureTable
  split
  · rename_i valid
    exact ⟨rfl, fun _ => (balanced.shape id live).tree.table level index upper valid⟩
  split
  · exact ⟨rfl, by simp⟩
  · rename_i found
    have more := allocZeroPage_available found
    omega

/-- The tables for a walk can be supplied, or there is no page at all. -/
def WalkRoomy (s : Memory F) (id : SpaceId) (va : Nat) : Prop :=
  missingTables s id va ≤ s.phys.pmm.available ∨ s.phys.pmm.available = 0

section

variable (balanced : Balanced reserved hand s)

include balanced

section

variable (live : (s.space id).live)

include live

/-- Without a page for a table nothing changes, and the walk succeeds only where no table is
missing. -/
theorem ensureTables_starved (starved : s.phys.pmm.available = 0) :
    (s.ensureTables id va).2 = s ∧
      ((s.ensureTables id va).1 → missingTables s id va = 0) := by
  have rounds := countUp_rule
    (fun level (s : Memory F) => s.ensureTable id level (walkIndex va level))
    (fun k now => now = s ∧ ∀ l < k, missingAt s id va l = 0) (fun now => now = s) 3 0
    (by
      rintro k now - small ⟨rfl, above⟩
      obtain ⟨same, present⟩ :=
        ensureTable_starved (walkIndex va k) balanced live (by omega) starved
      refine ⟨fun ok => ⟨same, fun l before => ?_⟩, fun _ => same⟩
      rcases Nat.lt_succ_iff_lt_or_eq.mp before with earlier | rfl
      · exact above l earlier
      · rw [missingAt, if_pos (present ok)])
    ⟨rfl, fun l before => by omega⟩
  unfold ensureTables
  cases ended : (countUp (fun level s => s.ensureTable id level (walkIndex va level)) 3 0 s).1 with
  | true =>
    obtain ⟨same, none⟩ := rounds.1 ended
    refine ⟨same, fun _ => ?_⟩
    rw [missingTables, none 0 (by omega), none 1 (by omega), none 2 (by omega)]
  | false => exact ⟨rounds.2 ended, by simp⟩

section

variable (rooted : (s.space id).as.rootPa ≠ 0)

include rooted

/-- The table is there, or it is allocated with the page that is left. -/
theorem ensureTable_supplies {level index : Nat} (upper : level < 3)
    (bound : index < 512 ^ (level + 1))
    (parent : ∀ l, l + 1 = level → isTable (s.entry id l (index / 512)))
    (roomy : (if isTable (s.entry id level index) then 0 else 1) ≤ s.phys.pmm.available) :
    Supplies reserved hand id level index s (s.ensureTable id level index) := by
  unfold ensureTable
  split
  · rename_i valid
    have table : isTable (s.entry id level index) :=
      (balanced.shape id live).tree.table level index upper valid
    have linked : (s.entry id level index &&& pteTable != 0) := by
      have leaf := not_leaf_of_isTable table (Nat.ne_of_lt upper)
      unfold isLeafAtLevel at leaf
      rw [valid, Bool.true_and, Bool.or_eq_false_iff] at leaf
      simpa using leaf.2
    exact ⟨linked, balanced, table, .refl s, by rw [if_pos table, Nat.add_zero]⟩
  rename_i vacant
  have vacant : isValid (s.entry id level index) = false := by simpa using vacant
  have missing : ¬ isTable (s.entry id level index) := fun table => by
    rw [isValid_of_isTable table] at vacant
    contradiction
  rw [if_neg missing] at roomy
  split
  · rename_i failed
    have none := available_of_allocZeroPage_none failed
    omega
  rename_i pa phys found
  obtain ⟨settled, aligned, -, inside, -, held⟩ := settles_allocZeroPage hand balanced.orderly found
  have small := small_of_page balanced.addressable aligned inside
  have supplied := balanced.settle settled
  have after := allocZeroPage_available found
  refine ⟨rfl, supplied.linkTable live upper aligned small vacant bound rooted parent, ?_,
    extended_linkTable supplied live upper vacant held, ?_⟩
  · rw [Memory.entry_linkTable, if_pos ⟨rfl, rfl, rfl⟩]
    exact (tableWord_fields aligned small).1
  · rw [if_neg missing]
    exact after

/-- The tables on the way to a leaf are supplied if the allocator has enough pages. -/
theorem ensureTables_supplies
    (roomy : missingTables s id va ≤ s.phys.pmm.available) :
    (s.ensureTables id va).1 ∧ Balanced reserved hand (s.ensureTables id va).2 ∧
      isTable ((s.ensureTables id va).2.entry id 2 (walkIndex va 2)) ∧
      Extended s (s.ensureTables id va).2 ∧
      s.phys.pmm.available ≤
        (s.ensureTables id va).2.phys.pmm.available + missingTables s id va := by
  have whole : missingTables s id va = ∑ l ∈ range 3, missingAt s id va l := by
    simp only [missingTables, sum_range_succ, sum_range_zero, Nat.zero_add]
  rw [whole] at roomy ⊢
  -- One level at a time, with the levels above it present.
  have rounds := countUp_rule
    (fun level (s : Memory F) => s.ensureTable id level (walkIndex va level))
    (fun k now => Balanced reserved hand now ∧ Extended s now ∧
      (∀ l, l + 1 = k → isTable (now.entry id l (walkIndex va l)) = true) ∧
      s.phys.pmm.available ≤
        now.phys.pmm.available + ∑ l ∈ range k, missingAt s id va l)
    (fun _ => False) 3 0
    (by
      rintro k now - small ⟨good, extended, above, left⟩
      have spent := sum_le_sum_of_subset (f := missingAt s id va)
        (range_mono (show k + 1 ≤ 3 by omega))
      have less : (if isTable (now.entry id k (walkIndex va k)) then 0 else 1) ≤
        missingAt s id va k := missingAt_le extended
      rw [sum_range_succ] at spent
      have next := ensureTable_supplies good (extended.areas.isLive live)
        (by rw [extended.root]; exact rooted) (by omega) (walkIndex_lt k)
        (by rintro l rfl; rw [walkIndex_div]; exact above l rfl) (by omega)
      have used := next.used
      refine ⟨fun _ => ⟨next.balanced, extended.trans next.extended, fun l same => ?_, ?_⟩,
        fun failed => by rw [next.done] at failed; contradiction⟩
      · obtain rfl : l = k := by omega
        exact next.table
      · rw [sum_range_succ]
        omega)
    ⟨balanced, .refl s, fun l same => by omega, Nat.le_add_right _ _⟩
  have done : (s.ensureTables id va).1 := by
    by_contra failed
    exact rounds.2 (Bool.eq_false_of_not_eq_true failed)
  obtain ⟨good, extended, above, left⟩ := rounds.1 done
  exact ⟨done, good, above 2 rfl, extended, left⟩

/-- The tables are there afterwards, or nothing has changed. -/
theorem ensureTables_balanced (roomy : WalkRoomy s id va) :
    ((s.ensureTables id va).1 → Balanced reserved hand (s.ensureTables id va).2 ∧
      isTable ((s.ensureTables id va).2.entry id 2 (walkIndex va 2)) ∧
      Extended s (s.ensureTables id va).2) ∧
    ((s.ensureTables id va).1 = false → (s.ensureTables id va).2 = s) := by
  by_cases enough : missingTables s id va ≤ s.phys.pmm.available
  · obtain ⟨done, good, present, extended, -⟩ := ensureTables_supplies balanced live rooted enough
    exact ⟨fun _ => ⟨good, present, extended⟩, fun failed => by rw [done] at failed; contradiction⟩
  have starved := roomy.resolve_left enough
  obtain ⟨same, none⟩ := ensureTables_starved balanced live starved
  refine ⟨fun ok => ?_, fun _ => same⟩
  have zero := none ok
  omega

end

end

end

/-- Where every table is present nothing changes. -/
theorem ensureTables_present
    (present : ∀ level, level < 3 → isValid (s.entry id level (walkIndex va level))) :
    (s.ensureTables id va).2 = s := by
  refine countUp_keeps (fun now => now = s) 3 0 ?_ rfl
  rintro level now - upper rfl
  show (now.ensureTable id level (walkIndex va level)).2 = now
  unfold ensureTable
  rw [if_pos (present level (by omega))]

/-! ## Mapping -/

/-- An address that is not mapped has a vacant leaf. -/
theorem vacant_of_not_isMapped {va : Nat} (balanced : Balanced reserved hand s)
    (live : (s.space id).live) (unmapped : s.isMapped id va = false) :
    isValid (s.entry id 3 (walkIndex va 3)) = false := by
  by_contra valid
  have found := validLeaf_of_valid (balanced.shape id live).tree
    (Bool.eq_true_of_not_eq_false valid)
  rw [isMapped, found] at unmapped
  contradiction

/-- Writing the leaf of a page in hand, after its tables were supplied. -/
theorem mapLeaf_balanced {word : BitVec 64} {page : Nat}
    (balanced : Balanced reserved (page ::ₘ hand) s) (live : (s.space id).live)
    (valid : isValid word) (maps : pageOf word = page)
    (vacant : isValid (s.entry id 3 (walkIndex va 3)) = false)
    (present : isTable (s.entry id 2 (walkIndex va 2))) :
    Balanced reserved hand (s.setEntry id 3 (walkIndex va 3) word) := by
  subst maps
  exact balanced.setLeaf live valid vacant (by rw [walkIndex_div]; exact present) (walkIndex_lt 3)

/-- `vmm_alloc_page` on a free leaf, with enough pages for the tables and the leaf. -/
theorem allocPage_balanced {va : Nat} (flags : UInt32) (balanced : Balanced reserved hand s)
    (live : (s.space id).live) (rooted : (s.space id).as.rootPa ≠ 0)
    (unmapped : s.isMapped id va = false)
    (roomy : missingTables s id va + 1 ≤ s.phys.pmm.available) :
    (s.allocPage id va flags).1 ∧ Balanced reserved hand (s.allocPage id va flags).2 ∧
      SameRoots s (s.allocPage id va flags).2 := by
  unfold Memory.allocPage
  split
  · rename_i failed
    have none := available_of_allocZeroPage_none failed
    omega
  rename_i pa phys found
  obtain ⟨settled, aligned, -, inside, -, -⟩ := settles_allocZeroPage hand balanced.orderly found
  have small := small_of_page balanced.addressable aligned inside
  have after := allocZeroPage_available found
  have enough : missingTables (s.setPhys phys) id va ≤ (s.setPhys phys).phys.pmm.available := by
    show missingTables s id va ≤ phys.pmm.available
    omega
  obtain ⟨done, good, present, extended, -⟩ :=
    ensureTables_supplies (balanced.settle settled) live rooted enough
  have fields : Fields (mapWord pa flags) _ _ _ _ := mapWord_fields aligned small
  have vacant := vacant_of_not_isMapped balanced live unmapped
  unfold mapPage
  rw [if_pos done]
  refine ⟨rfl, mapLeaf_balanced good (extended.areas.isLive live) fields.valid
    (congrArg (· / pageSize) fields.addr) ?_ present,
    extended.sameRoots.trans (sameRoots_setEntry _)⟩
  rw [(extended.leaves id _ live).1]
  exact vacant

/-- `vmm_alloc_page` without a page to allocate. -/
theorem allocPage_starved {va : Nat} {flags : UInt32} (starved : s.phys.pmm.available = 0) :
    s.allocPage id va flags = (false, s) := by
  unfold Memory.allocPage
  split
  · rfl
  · rename_i found
    have more := allocZeroPage_available found
    omega

/-- A page that the rest of the kernel holds passes into the hand. -/
theorem Balanced.borrow {position page : Nat} (balanced : Balanced reserved hand s)
    (found : s.phys.held[position]? = some page) :
    Balanced reserved (page ::ₘ hand)
      (s.setPhys { s.phys with held := s.phys.held.eraseIdx position }) := by
  refine balanced.settle ⟨balanced.orderly, fun p => ?_, rfl⟩
  have same : loose (page ::ₘ hand) { s.phys with held := s.phys.held.eraseIdx position } =
      s.phys.loose hand := by
    simp only [loose, held_split found, Multiset.cons_add, Multiset.add_cons]
  rw [same]

/-! ## Copy-on-write faults -/

section

variable (balanced : Balanced reserved hand s) (live : (s.space id).live)

include balanced live

/-- The copy is owned in place of the original. -/
theorem handleCowFault_balanced : Balanced reserved hand (s.handleCowFault id va).2 ∧
    SameRoots s (s.handleCowFault id va).2 ∧
      ((s.handleCowFault id va).1 = false → (s.handleCowFault id va).2 = s) := by
  unfold handleCowFault
  split
  · exact ⟨balanced, .refl s, fun _ => rfl⟩
  rename_i index found
  obtain ⟨-, valid⟩ := validLeaf_eq found
  dsimp only
  split
  · exact ⟨balanced, .refl s, fun _ => rfl⟩
  split
  · have fields : Fields (takenWord (s.entry id 3 index)) _ _ _ _ := takenWord_fields
    exact ⟨balanced.rewriteLeaf live valid (fields.valid.trans valid)
      (congrArg (· / pageSize) fields.addr), sameRoots_setEntry _,
      by simp⟩
  split
  · exact ⟨balanced, .refl s, fun _ => rfl⟩
  rename_i pa phys taken
  obtain ⟨settled, aligned, -, inside, -, -⟩ := settles_allocZeroPage hand balanced.orderly taken
  have small := small_of_page balanced.addressable aligned inside
  refine ⟨?_, sameRoots_setEntry _, by simp⟩
  -- The new page is in hand while the old leaf is cleared, then takes its place.
  have copied := (balanced.settle settled).settle (settles_contents
    settled.orderly (copyPage phys (pa / pageSize) (pageOf (s.entry id 3 index))).bytes
    phys.files)
  have cleared := copied.clearLeaf live valid
  have fields : Fields (copiedWord (s.entry id 3 index) pa) _ _ _ _ :=
    copiedWord_fields aligned small
  have again : ∀ (t : Memory F) (first second : BitVec 64),
      (t.setEntry id 3 index first).setEntry id 3 index second =
        t.setEntry id 3 index second := fun t => setEntry_setEntry
  have shape := balanced.shape id live
  have swapped : Balanced reserved (pageOf (s.entry id 3 index) ::ₘ hand)
      ((s.setPhys (copyPage phys (pa / pageSize) (pageOf (s.entry id 3 index)))).setEntry id
        3 index (copiedWord (s.entry id 3 index) pa)) := by
    rw [← again _ 0]
    refine .setLeaf ?_ ((Memory.live_setEntry 0 id).trans live)
      (fields.valid.trans valid) ?_ ?_ (shape.bounded 3 index valid).2
    · rw [show pageOf (copiedWord (s.entry id 3 index) pa) = pa / pageSize from
        congrArg (· / pageSize) fields.addr, Multiset.cons_swap]
      exact cleared
    · rw [Memory.entry_setEntry_self]
      exact isValid_zero
    · rw [Memory.entry_setEntry_ne (by omega)]
      exact shape.tree.rooted 2 index (by omega) valid
  exact swapped.settle (settles_free addrOf_aligned swapped.solvent)

/-! ## Unmapping and moving -/

/-- The reference of the leaf is given up. -/
theorem unmapLeaf_balanced :
    Balanced reserved hand (s.unmapLeaf id va) ∧ SameRoots s (s.unmapLeaf id va) := by
  unfold unmapLeaf
  split
  · exact ⟨balanced, .refl s⟩
  rename_i index found
  obtain ⟨-, valid⟩ := validLeaf_eq found
  have cleared := balanced.clearLeaf live valid
  exact ⟨cleared.settle (settles_free addrOf_aligned cleared.solvent), sameRoots_setEntry _⟩

/-- Likewise for all leaves of a range. -/
theorem unmapRange_balanced : Balanced reserved hand (s.unmapRange id start stop) ∧
    SameRoots s (s.unmapRange id start stop) := by
  refine foldl_range_moves (fun _ now => Balanced reserved hand now ∧ SameRoots s now)
    (rounds start stop) ⟨balanced, .refl s⟩ fun k now _ holds => ?_
  obtain ⟨good, roots⟩ := unmapLeaf_balanced holds.1 ((holds.2 id).1.trans live)
  exact ⟨good, holds.2.trans roots⟩

/-- `vmm_move_page`, when the tables for the new place can be supplied or there is no page. -/
theorem movePage_balanced (roomy : WalkRoomy s id newVa) :
    Balanced reserved hand (s.movePage id oldVa newVa).2 ∧
      SameRoots s (s.movePage id oldVa newVa).2 ∧
      ((s.movePage id oldVa newVa).1 = false → (s.movePage id oldVa newVa).2 = s) := by
  unfold movePage
  split
  · exact ⟨balanced, .refl s, by simp⟩
  rename_i old found
  obtain ⟨-, valid⟩ := validLeaf_eq found
  have rooted := balanced.rooted_of_valid live valid
  obtain ⟨supplied, refused⟩ := ensureTables_balanced balanced live rooted roomy
  have unchanged : (∀ level, level < 3 →
      isValid (s.entry id level (walkIndex newVa level)) = true) →
      (s.ensureTables id newVa).2 = s := ensureTables_present
  dsimp only
  split
  · rename_i failed
    rw [refused failed]
    exact ⟨balanced, .refl s, fun _ => rfl⟩
  rename_i ok
  obtain ⟨good, present, extended⟩ := supplied (by simpa using ok)
  generalize (s.ensureTables id newVa).2 = now at good present extended unchanged
  have kept := (extended.leaves id old live).2 valid
  have live' := extended.areas.isLive live
  have leaves := (extended.leaves id (walkIndex newVa 3) live).1
  split
  · rename_i occupied
    -- A valid leaf at the new place means that no table was missing.
    rw [leaves] at occupied
    have tables := tables_of_valid (balanced.shape id live).tree occupied
    rw [unchanged fun level upper => isValid_of_isTable (tables level upper)]
    exact ⟨balanced, .refl s, fun _ => rfl⟩
  rename_i vacant
  refine ⟨?_, (extended.sameRoots.trans (sameRoots_setEntry _)).trans
    (sameRoots_setEntry _), by simp⟩
  have different : walkIndex newVa 3 ≠ old := by
    rintro rfl
    rw [leaves] at vacant
    exact vacant valid
  rw [← kept] at valid
  rw [setEntry_comm _ _ different]
  refine (good.clearLeaf live' valid).setLeaf ((Memory.live_setEntry 0 id).trans live') valid
    ?_ ?_ (walkIndex_lt 3)
  · rw [Memory.entry_setEntry_ne fun same => different same.2.2]
    simpa using vacant
  · rw [Memory.entry_setEntry_ne (by omega), walkIndex_div]
    exact present

end

end Spore.Mm
