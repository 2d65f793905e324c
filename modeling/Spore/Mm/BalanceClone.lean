import Mathlib.Algebra.BigOperators.Intervals
import Spore.Mm.BalanceSteps

/-!
# Copying page tables in balance

`clone_table_cow` takes one page for every table of the source and one reference for every
leaf. When the allocator has that many pages, and no counter would pass its maximum, the copy
succeeds and every page it took has an owner. Otherwise it stops in the middle, and its callers
give the half-made copy up without destroying it.
-/

namespace Spore.Mm

open Spore.Lib Memory Finset

variable {F : Type} {reserved : Nat → Prop} {hand : Multiset Nat} {s s₀ now : Memory F}
  {dst src : SpaceId} {level index : Nat}

/-! ## What a copy needs -/

/-- The tables at or below a word. -/
def tablesUnder (as : UserAddressSpace) (level : Nat) (below : Nat → Nat) (index : Nat) : Nat :=
  if isTable (as.entry level index) then 1 + below index else 0

/-- The tables below a table. -/
def tablesBelow (as : UserAddressSpace) : (below level table : Nat) → Nat
  | 0, _, _ => 0
  | below + 1, level, table =>
    ∑ i ∈ Finset.range 512,
      tablesUnder as level (tablesBelow as below (level + 1)) (table * 512 + i)

/-- A leaf of the source whose page the copy does not refer to yet. -/
def Unshared (s : Memory F) (dst src : SpaceId) (page index : Nat) : Prop :=
  isValid (s.entry src 3 index) = true ∧ pageOf (s.entry src 3 index) = page ∧
    isValid (s.entry dst 3 index) = false

/-- Every counter has room for the references that the copy still has to take. -/
def CountersRoomy (s : Memory F) (dst src : SpaceId) : Prop :=
  ∀ page index, Unshared s dst src page index →
    (s.phys.pmm.refcount page : ℕ∞) + {i | Unshared s dst src page i}.encard ≤
      (Pmm.refcountMax : ℕ∞)

/-- Room for references does not change with what is copied. -/
theorem CountersRoomy.congr (roomy : CountersRoomy s dst src)
    (unshared : ∀ p i, Unshared now dst src p i ↔ Unshared s dst src p i)
    (counted : ∀ p i, Unshared s dst src p i →
      now.phys.pmm.refcount p = s.phys.pmm.refcount p) : CountersRoomy now dst src := by
  intro p i missing
  rw [unshared] at missing
  simp only [unshared, counted p i missing]
  exact roomy p i missing

/-- A page that somebody refers to is not the new one. -/
theorem Balanced.refcount_allocZeroPage {pa page : Nat} {phys : Phys F}
    {owner : SpaceOwner ⊕ Nat} (balanced : Balanced reserved hand s)
    (found : s.phys.allocZeroPage = some (pa, phys)) (owned : s.Owns owner page) :
    phys.pmm.refcount page = s.phys.pmm.refcount page := by
  obtain ⟨settled, -, -, -, none, held⟩ := Phys.settles_allocZeroPage hand balanced.orderly found
  have different : page ≠ pa / pageSize := by
    rintro rfl
    have positive := Counted.pos_of_owner balanced.counts.counted owned
    omega
  have moved := settled.moved page
  simp only [Phys.loose, Multiset.cons_add, Multiset.count_cons, held, different, if_false] at moved
  omega

/-- A word lies at or below another one. -/
def Under (level index l j : Nat) : Prop := level ≤ l ∧ j / 512 ^ (l - level) = index

/-- An entry is under itself. -/
theorem under_self : Under level index level index :=
  ⟨Nat.le_refl _, by rw [Nat.sub_self, Nat.pow_zero, Nat.div_one]⟩

/-- What lies below an entry of a table lies strictly below the word of the table. -/
theorem under_entry {table i l j : Nat} (small : i < 512)
    (under : Under (level + 1) (table * 512 + i) l j) :
    level < l ∧ j / 512 ^ (l - level) = table := by
  obtain ⟨low, quotient⟩ := under
  refine ⟨low, ?_⟩
  rw [show l - level = l - (level + 1) + 1 by omega, Nat.pow_succ, ← Nat.div_div_eq_div_mul,
    quotient]
  omega

/-! ## The copy in progress -/

/-- A copy in progress: in balance, with the source's tables and pages as they were and room in
the counters. -/
structure Copying (reserved : Nat → Prop) (hand : Multiset Nat) (dst src : SpaceId)
    (s₀ now : Memory F) : Prop where
  /-- The balance holds. -/
  balanced : Balanced reserved hand now
  /-- Areas stay. -/
  areas : SameAreas s₀ now
  /-- The roots stay. -/
  root : ∀ j, (now.space j).as.rootPa = (s₀.space j).as.rootPa
  /-- The source maps as much. -/
  valid : ∀ l i, isValid (now.entry src l i) = isValid (s₀.entry src l i)
  /-- The source maps the same pages. -/
  page : ∀ l i, pageOf (now.entry src l i) = pageOf (s₀.entry src l i)
  /-- The tables of the source stay. -/
  tables : ∀ l i, l < 3 → now.entry src l i = s₀.entry src l i
  /-- The other spaces stay. -/
  others : ∀ j, j ≠ dst → j ≠ src → now.space j = s₀.space j
  /-- Counters have room for the rest. -/
  roomy : CountersRoomy now dst src
  /-- The kernel holds what it held. -/
  held : now.phys.held = s₀.phys.held

/-- What a round of the copy does to the words at or below one word. -/
structure Copied (reserved : Nat → Prop) (hand : Multiset Nat) (dst src : SpaceId)
    (s₀ now : Memory F) (inside : Nat → Nat → Prop) (need : Nat) (result : Bool × Memory F) :
    Prop where
  /-- It succeeds. -/
  done : result.1 = true
  /-- The copy goes on. -/
  copying : Copying reserved hand dst src s₀ result.2
  /-- Other words of the copy stay. -/
  frame : ∀ l j, ¬ inside l j → result.2.entry dst l j = now.entry dst l j
  /-- The pages for tables are taken. -/
  used : result.2.phys.pmm.available + need = now.phys.pmm.available

/-- A leaf of the source is shared with the copy. -/
theorem cloneLeaf_copied (distinct : dst ≠ src) (copying : Copying reserved hand dst src s₀ now)
    (live : (now.space src).live) (liveDst : (now.space dst).live)
    (valid : isValid (now.entry src 3 index)) (vacant : isValid (now.entry dst 3 index) = false)
    (present : isTable (now.entry dst 2 (index / 512))) (bound : index < 512 ^ 4) :
    Copied reserved hand dst src s₀ now (Under 3 index) 0 (now.cloneLeaf dst src 3 index) := by
  unfold cloneLeaf
  dsimp only
  have fields : Fields (clonedWord (now.entry src 3 index)) _ _ _ _ := clonedWord_fields
  set word := clonedWord (now.entry src 3 index)
  set page := pageOf (now.entry src 3 index)
  have balanced := copying.balanced
  have kind : pageOf word = page := congrArg (· / pageSize) fields.addr
  have still : isValid word := fields.valid.trans valid
  have owned : now.Owns (Sum.inl (.entry src 3 index)) page := ⟨live, valid, rfl⟩
  have positive : 0 < now.phys.pmm.refcount page :=
    Counted.pos_of_owner balanced.counts.counted owned
  have member : index ∈ {i | Unshared now dst src page i} := ⟨valid, rfl, vacant⟩
  have fewer := Set.encard_sdiff_singleton_add_one member
  have space := copying.roomy _ index member
  have below : now.phys.pmm.refcount page ≠ Pmm.refcountMax := by
    intro full
    rw [full, ← fewer, ← add_assoc] at space
    have short : (Pmm.refcountMax : ℕ∞) + 1 ≤ (Pmm.refcountMax : ℕ∞) :=
      le_trans (add_le_add (le_self_add) le_rfl) space
    exact absurd short (by exact_mod_cast Nat.not_succ_le_self Pmm.refcountMax)
  split
  · rename_i failed
    exact absurd failed (Pmm.sharePage_ne_none addrOf_aligned
      (balanced.orderly.lt_tracked positive) positive below)
  rename_i pmm shared
  have taken := balanced.share shared
  have marked := Balanced.rewriteLeaf taken live valid still kind
  set middle := (now.setPhys { now.phys with pmm }).setEntry src 3 index word with middle_eq
  have kept : ∀ l i, middle.entry dst l i = now.entry dst l i := fun l i =>
    entry_setEntry_ne fun same => distinct same.1
  have linked : Balanced reserved hand (middle.setEntry dst 3 index word) := by
    refine .setLeaf ?_ ((live_setEntry _ dst).trans liveDst) still ?_ ?_ bound
    · rw [kind]
      exact marked
    · rw [kept]
      exact vacant
    · rw [kept]
      exact present
  have source : ∀ l i, (middle.setEntry dst 3 index word).entry src l i =
      if l = 3 ∧ i = index then word else now.entry src l i := by
    intro l i
    rw [entry_setEntry_ne (fun same => distinct same.1.symm), middle_eq, entry_setEntry]
    simp
  have copy : ∀ l i, (middle.setEntry dst 3 index word).entry dst l i =
      if l = 3 ∧ i = index then word else now.entry dst l i := by
    intro l i
    rw [entry_setEntry, kept]
    simp
  obtain ⟨-, -, -, -, counted⟩ := Pmm.sharePage_spec shared
  refine ⟨rfl, ⟨linked, ?_, fun j => ?_, fun l i => ?_, fun l i => ?_, fun l i upper => ?_,
    fun j one two => ?_, fun p other missing => ?_, copying.held⟩, fun l j outside => ?_, ?_⟩
  · exact copying.areas.trans (((SameAreas.setPhys _).trans (.setEntry _ _ _ _)).trans
      (.setEntry _ _ _ _))
  · rw [rootPa_setEntry, middle_eq, rootPa_setEntry]
    exact copying.root j
  · rw [source, ← copying.valid]
    split
    · rename_i here
      rw [here.1, here.2, still, valid]
    · rfl
  · rw [source, ← copying.page]
    split
    · rename_i here
      rw [here.1, here.2, kind]
    · rfl
  · rw [source, if_neg (by omega)]
    exact copying.tables l i upper
  · rw [← copying.others j one two, middle_eq]
    simp [Memory.setEntry, Memory.setSpace, one, two]
  · have unshared : ∀ i, Unshared (middle.setEntry dst 3 index word) dst src p i ↔
        Unshared now dst src p i ∧ i ≠ index := by
      intro i
      unfold Unshared
      rw [source, copy]
      by_cases here : i = index
      · simp [here, still]
      · simp [here]
    show (pmm.refcount p : ℕ∞) + _ ≤ _
    rw [unshared] at missing
    simp only [unshared, counted]
    by_cases here : p = page
    · subst here
      rw [if_pos (show pageOf _ = addrOf _ / pageSize from rfl)]
      rw [← fewer] at space
      have same : {i | Unshared now dst src page i ∧ i ≠ index} =
          {i | Unshared now dst src page i} \ {index} := rfl
      rw [same, Nat.cast_add, Nat.cast_one, add_right_comm, add_assoc]
      exact space
    · rw [if_neg (show ¬ p = addrOf (now.entry src 3 index) / pageSize from here)]
      refine le_trans (add_le_add le_rfl (Set.encard_le_encard ?_))
        (copying.roomy p other missing.1)
      exact fun i both => both.1
  · rw [copy, if_neg]
    rintro ⟨rfl, rfl⟩
    exact outside under_self
  · exact Pmm.sharePage_available balanced.orderly.accurate shared

/-- A table of the copy is linked where no valid word was. -/
theorem linkTable_copying {pa : Nat} {phys : Phys F} (distinct : dst ≠ src)
    (copying : Copying reserved hand dst src s₀ now)
    (live : (now.space src).live) (liveDst : (now.space dst).live)
    (found : now.phys.allocZeroPage = some (pa, phys)) (upper : level < 3)
    (vacant : isValid (now.entry dst level index) = false)
    (bound : index < 512 ^ (level + 1)) (rooted : (now.space dst).as.rootPa ≠ 0)
    (parent : ∀ l, l + 1 = level → isTable (now.entry dst l (index / 512))) :
    Copying reserved hand dst src s₀ ((now.setPhys phys).linkTable dst level index pa) ∧
      isTable (((now.setPhys phys).linkTable dst level index pa).entry dst level index) := by
  have balanced := copying.balanced
  obtain ⟨settled, aligned, -, inside, -, held⟩ :=
    Phys.settles_allocZeroPage hand balanced.orderly found
  have small := small_of_page balanced.addressable aligned inside
  have supplied := balanced.settle settled
  have extended : Extended now ((now.setPhys phys).linkTable dst level index pa) :=
    extended_linkTable supplied liveDst upper vacant held
  have source : ∀ l i, ((now.setPhys phys).linkTable dst level index pa).entry src l i =
      now.entry src l i := by
    intro l i
    rw [entry_linkTable, if_neg (fun same => distinct same.1.symm),
      if_neg (fun same => distinct same.1.symm), entry_setPhys]
  constructor
  · refine ⟨supplied.linkTable liveDst upper aligned small vacant bound rooted parent,
      copying.areas.trans extended.areas, fun j => (extended.root j).trans (copying.root j),
      fun l i => ?_, fun l i => ?_, fun l i low => ?_, fun j one two => ?_,
      copying.roomy.congr (fun p i => ?_) fun p i missing => balanced.refcount_allocZeroPage found
        (show now.Owns (Sum.inl (.entry src 3 i)) p from ⟨live, missing.1, missing.2.1⟩),
      extended.held.trans copying.held⟩
    · rw [source]
      exact copying.valid l i
    · rw [source]
      exact copying.page l i
    · rw [source]
      exact copying.tables l i low
    · rw [← copying.others j one two]
      simp [Memory.linkTable, Memory.setSpace, one]
    · unfold Unshared
      rw [source, (extended.leaves dst i liveDst).1]
  · rw [entry_linkTable, if_pos ⟨rfl, rfl, rfl⟩]
    exact (tableWord_fields aligned small).1

/-- What the recursive call of `clone_table_cow` does with the table of a word. -/
def DescendCopies (reserved : Nat → Prop) (hand : Multiset Nat) (dst src : SpaceId)
    (s₀ : Memory F) (level : Nat) (need : Nat → Nat)
    (descend : Nat → Memory F → Bool × Memory F) : Prop :=
  ∀ {index : Nat} {now : Memory F}, Copying reserved hand dst src s₀ now →
    index < 512 ^ (level + 1) → isTable (now.entry dst level index) = true →
    (∀ l j, level < l → j / 512 ^ (l - level) = index → isValid (now.entry dst l j) = false) →
    need index ≤ now.phys.pmm.available →
    Copied reserved hand dst src s₀ now
      (fun l j => level < l ∧ j / 512 ^ (l - level) = index) (need index) (descend index now)

section Rounds

variable (distinct : dst ≠ src) (live : (s₀.space src).live = true)
  (liveDst : (s₀.space dst).live = true) (rooted : (s₀.space dst).as.rootPa ≠ 0)

include distinct live liveDst rooted

variable {descend : Nat → Memory F → Bool × Memory F}

/-- One entry is copied, with what is under it. -/
theorem cloneEntry_copied (index : Nat) {deeper need : Nat → Nat}
    (below : level < 3 → DescendCopies reserved hand dst src s₀ level deeper descend)
    (cost : level < 3 → need index = tablesUnder (s₀.space src).as level deeper index)
    (free : level = 3 → need index = 0)
    (upper : level ≤ 3) (copying : Copying reserved hand dst src s₀ now)
    (bound : index < 512 ^ (level + 1))
    (parent : ∀ l, l + 1 = level → isTable (now.entry dst l (index / 512)))
    (empty : ∀ l j, Under level index l j → isValid (now.entry dst l j) = false)
    (enough : need index ≤ now.phys.pmm.available) :
    Copied reserved hand dst src s₀ now (Under level index) (need index)
      (cloneEntry dst src level descend index now) := by
  have balanced := copying.balanced
  have live' := copying.areas.isLive live
  have liveDst' := copying.areas.isLive liveDst
  have shape := balanced.shape src live'
  unfold cloneEntry
  split
  · rename_i invalid
    have none : isTable ((s₀.space src).as.entry level index) = false := by
      by_contra table
      have valid := isValid_of_isTable (Bool.eq_true_of_not_eq_false table)
      rw [copying.valid, Memory.entry, valid] at invalid
      contradiction
    have unneeded : need index = 0 := by
      rcases Nat.lt_or_eq_of_le upper with inner | bottom
      · rw [cost inner, tablesUnder, none]
        rfl
      · exact free bottom
    rw [unneeded]
    exact ⟨rfl, copying, fun _ _ _ => rfl, rfl⟩
  rename_i valid
  have valid : isValid (now.entry src level index) := by simpa using valid
  have last := isLeafAtLevel_iff valid fun (other : level ≠ 3) =>
    shape.tree.table level index (by omega) valid
  split
  · rename_i leaf
    obtain rfl := last.mp leaf
    rw [free rfl]
    exact cloneLeaf_copied distinct copying live' liveDst' valid
      (empty 3 index under_self) (parent 2 rfl) bound
  rename_i table
  have inner : level < 3 := Nat.lt_of_le_of_ne upper fun bottom => table (last.mpr bottom)
  have word : isTable ((s₀.space src).as.entry level index) := by
    have here := shape.tree.table level index inner valid
    rwa [show (now.space src).as.entry level index = (s₀.space src).as.entry level index from
      copying.tables level index inner] at here
  rw [cost inner, tablesUnder, if_pos word] at enough ⊢
  split
  · rename_i failed
    have none := Phys.available_of_allocZeroPage_none failed
    omega
  rename_i pa phys found
  have after := Phys.allocZeroPage_available found
  obtain ⟨linked, isLinked⟩ := linkTable_copying distinct copying live' liveDst' found inner
    (empty level index under_self) bound
    (by rw [copying.root]; exact rooted) parent
  have cleared : ∀ l j, level < l → j / 512 ^ (l - level) = index →
      isValid (((now.setPhys phys).linkTable dst level index pa).entry dst l j) = false := by
    intro l j lower under
    rw [entry_linkTable, if_neg (by omega), if_pos ⟨rfl, lower, under⟩]
    exact isValid_zero
  have copied := below inner linked bound isLinked cleared
    (show deeper index ≤ phys.pmm.available by omega)
  refine ⟨copied.done, copied.copying, fun l j outside => ?_, ?_⟩
  · rw [copied.frame l j fun inside => outside ⟨Nat.le_of_lt inside.1, inside.2⟩,
      entry_linkTable, if_neg, if_neg, entry_setPhys]
    · exact fun under => outside ⟨Nat.le_of_lt under.2.1, under.2.2⟩
    · rintro ⟨-, rfl, rfl⟩
      exact outside under_self
  · have used := copied.used
    have stored : ((now.setPhys phys).linkTable dst level index pa).phys = phys := rfl
    rw [stored] at used
    omega

/-- The loop of `clone_table_cow` over one table, from what one round does. -/
theorem cloneRounds_copied (deeper need : Nat → Nat)
    {table total : Nat}
    (below : level < 3 → DescendCopies reserved hand dst src s₀ level deeper descend)
    (cost : level < 3 → ∀ i, need i = tablesUnder (s₀.space src).as level deeper i)
    (free : level = 3 → ∀ i, need i = 0) (upper : level ≤ 3)
    (copying : Copying reserved hand dst src s₀ now) (bound : table < 512 ^ level)
    (parent : ∀ l, l + 1 = level → isTable (now.entry dst l table))
    (empty : ∀ i < 512, ∀ l j, Under level (table * 512 + i) l j →
      isValid (now.entry dst l j) = false)
    (adds : ∑ i ∈ range 512, need (table * 512 + i) = total)
    (enough : total ≤ now.phys.pmm.available) :
    Copied reserved hand dst src s₀ now (fun l j => ∃ i < 512, Under level (table * 512 + i) l j)
      total (countUp (fun i => cloneEntry dst src level descend (table * 512 + i)) 512 0 now) := by
  subst adds
  have rounds := countUp_rule (fun i => cloneEntry dst src level descend (table * 512 + i))
    (fun k (here : Memory F) => Copying reserved hand dst src s₀ here ∧
      (∀ l j, (¬ ∃ i < k, Under level (table * 512 + i) l j) →
        here.entry dst l j = now.entry dst l j) ∧
      here.phys.pmm.available + ∑ i ∈ range k, need (table * 512 + i) =
        now.phys.pmm.available)
    (fun _ => False) 512 0 ?step ⟨copying, fun _ _ _ => rfl, by simp⟩
  case step =>
    intro k here _ small ⟨good, frame, spent⟩
    have fits : ∑ i ∈ range (k + 1), need (table * 512 + i) ≤
        ∑ i ∈ range 512, need (table * 512 + i) :=
      sum_le_sum_of_subset (range_subset_range.mpr (by omega))
    rw [sum_range_succ] at fits
    -- Words below different entries of the table are different words.
    have fresh : ∀ l j, Under level (table * 512 + k) l j →
        ¬ ∃ i < k, Under level (table * 512 + i) l j := by
      rintro l j under ⟨i, earlier, other⟩
      have same := under.2.symm.trans other.2
      omega
    have above : ∀ l i, l + 1 = level → ¬ ∃ k' < k, Under level (table * 512 + k') l i := by
      rintro l i rfl ⟨k', -, under⟩
      have low := under.1
      omega
    have copied := cloneEntry_copied distinct live liveDst rooted (table * 512 + k) below
      (fun inner => cost inner _) (fun bottom => free bottom _) upper good
      (by rw [Nat.pow_succ]; omega)
      (fun l same => by
        rw [show (table * 512 + k) / 512 = table by omega, frame l table (above l table same)]
        exact parent l same)
      (fun l j under => by
        rw [frame l j (fresh l j under)]
        exact empty k (by omega) l j under)
      (by omega)
    refine ⟨fun _ => ⟨copied.copying, fun l j outside => ?_, ?_⟩, fun failed => ?_⟩
    · rw [copied.frame l j fun under => outside ⟨k, Nat.lt_succ_self k, under⟩]
      refine frame l j ?_
      rintro ⟨i, earlier, under⟩
      exact outside ⟨i, Nat.lt_succ_of_lt earlier, under⟩
    · rw [sum_range_succ]
      have used := copied.used
      omega
    · exact absurd (copied.done.symm.trans failed) (by decide)
  have done : (countUp (fun i => cloneEntry dst src level descend (table * 512 + i)) 512 0 now).1 =
      true := by
    by_contra failed
    exact rounds.2 (by simpa using failed)
  obtain ⟨good, frame, spent⟩ := rounds.1 done
  exact ⟨done, good, frame, spent⟩

/-- A table is copied, by induction over the levels below. -/
theorem cloneTable_copied (below : Nat) : ∀ (level table : Nat) {now : Memory F},
    level + below = 3 → Copying reserved hand dst src s₀ now → table < 512 ^ level →
    (∀ l, l + 1 = level → isTable (now.entry dst l table)) →
    (∀ i < 512, ∀ l j, Under level (table * 512 + i) l j → isValid (now.entry dst l j) = false) →
    tablesBelow (s₀.space src).as below level table ≤ now.phys.pmm.available →
    Copied reserved hand dst src s₀ now (fun l j => ∃ i < 512, Under level (table * 512 + i) l j)
      (tablesBelow (s₀.space src).as below level table)
      (cloneTable dst src below level table now) := by
  induction below with
  | zero =>
    intro level table now depth copying bound parent empty enough
    exact cloneRounds_copied distinct live liveDst rooted (fun _ => 0) (fun _ => 0)
      (fun inner => by omega) (fun inner => by omega) (fun _ _ => rfl) (by omega) copying bound
      parent empty sum_const_zero (Nat.zero_le _)
  | succ below ih =>
    intro level table now depth copying bound parent empty enough
    refine cloneRounds_copied distinct live liveDst rooted
      (tablesBelow (s₀.space src).as below (level + 1)) _ (fun _ => ?_)
      (fun _ _ => rfl) (fun bottom => by omega) (by omega) copying bound parent empty rfl enough
    intro index here good inside linked vacant supply
    have copied := ih (level + 1) index (by omega) good inside
      (fun l same => by
        obtain rfl : l = level := by omega
        exact linked)
      (fun i small l j under => by
        obtain ⟨deeper, parent⟩ := under_entry small under
        exact vacant l j deeper parent)
      supply
    refine ⟨copied.done, copied.copying, fun l j outside => copied.frame l j ?_, copied.used⟩
    rintro ⟨i, small, under⟩
    exact outside (under_entry small under)

end Rounds

/-! ## The whole address space -/

/-- A copy of an address space can be made: pages for its root and its tables, and room in the
counters of the pages it maps; or there is no page at all. -/
def CopyRoomy (s : Memory F) (src : SpaceId) : Prop :=
  (tablesBelow (s.space src).as 3 0 0 + 1 ≤ s.phys.pmm.available ∧
    ∀ index, isValid (s.entry src 3 index) = true →
      (s.phys.pmm.refcount (pageOf (s.entry src 3 index)) : ℕ∞) +
        {i | isValid (s.entry src 3 i) = true ∧
          pageOf (s.entry src 3 i) = pageOf (s.entry src 3 index)}.encard ≤
        (Pmm.refcountMax : ℕ∞)) ∨
  s.phys.pmm.available = 0

/-- The owners outside one address space have the same pages, the same address spaces are in
use with the same areas, and the kernel holds the same pages. -/
structure OwnersKept (dst : SpaceId) (s s' : Memory F) : Prop where
  /-- No space comes or goes. -/
  live : ∀ j, (s'.space j).live = (s.space j).live
  /-- Areas stay. -/
  vmas : ∀ j, (s'.space j).vmas = (s.space j).vmas
  /-- The page cache stays. -/
  cache : s'.store.cache = s.store.cache
  /-- The other owners keep their pages. -/
  owns : ∀ owner page, ownerSpace owner ≠ dst →
    (s'.Owns (Sum.inl owner) page ↔ s.Owns (Sum.inl owner) page)
  /-- The kernel holds what it held. -/
  held : s'.phys.held = s.phys.held

/-- A copy that is done has left the owners outside the copy alone. -/
theorem Copying.ownersKept (copying : Copying reserved hand dst src s₀ now)
    (cache : now.store.cache = s₀.store.cache) : OwnersKept dst s₀ now := by
  refine ⟨copying.areas.live, copying.areas.vmas, cache, fun owner page outside => ?_, copying.held⟩
  by_cases here : ownerSpace owner = src
  · cases owner with
    | root j =>
      simp only [Owns, Store.allRefs, Sum.elim_inl, spaceRefs, copying.areas.live, copying.root]
    | chunk j position =>
      simp only [Owns, Store.allRefs, Sum.elim_inl, spaceRefs, copying.areas.live,
        copying.areas.vmas]
    | entry j l i =>
      obtain rfl : j = src := here
      have valid : isValid ((now.space j).as.entry l i) = isValid ((s₀.space j).as.entry l i) :=
        copying.valid l i
      have same : pageOf ((now.space j).as.entry l i) = pageOf ((s₀.space j).as.entry l i) :=
        copying.page l i
      simp only [Owns, Store.allRefs, Sum.elim_inl, spaceRefs, copying.areas.live, valid, same]
  · exact Balanced.owns_congr (copying.others _ outside here)

/-- The page cache takes no part in copying. -/
theorem cloneTable_cache (dst src : SpaceId) (below : Nat) : ∀ (level table : Nat) (s : Memory F),
    (cloneTable dst src below level table s).2.store.cache = s.store.cache := by
  -- One round leaves the cache alone if the recursive call does.
  have round : ∀ (level index : Nat) (descend : Nat → Memory F → Bool × Memory F),
      (∀ index s, (descend index s).2.store.cache = s.store.cache) → ∀ s : Memory F,
      (cloneEntry dst src level descend index s).2.store.cache = s.store.cache := by
    intro level index descend same s
    unfold cloneEntry
    split
    · rfl
    split
    · unfold cloneLeaf
      dsimp only
      split <;> rfl
    · split
      · rfl
      · rw [same]
        rfl
  induction below with
  | zero =>
    exact fun level table s => countUp_keeps (fun now => now.store.cache = s.store.cache) 512 0
      (fun k now _ _ same => (round _ _ _ (fun _ _ => rfl) now).trans same) rfl
  | succ below ih =>
    exact fun level table s => countUp_keeps (fun now => now.store.cache = s.store.cache) 512 0
      (fun k now _ _ same => (round _ _ _ (ih _) now).trans same) rfl

/-- `vmm_clone_cow` into a blank address space. -/
theorem cloneCow_balanced (distinct : dst ≠ src) (balanced : Balanced reserved hand s)
    (live : (s.space src).live) (liveDst : (s.space dst).live)
    (bare : (s.space dst).as.rootPa = 0) (roomy : CopyRoomy s src) :
    ((s.cloneCow dst src).1 → Balanced reserved hand (s.cloneCow dst src).2 ∧
      OwnersKept dst s (s.cloneCow dst src).2 ∧
      ((s.cloneCow dst src).2.space dst).as.rootPa ≠ 0) ∧
    ((s.cloneCow dst src).1 = false → (s.cloneCow dst src).2 = s) := by
  unfold cloneCow
  split
  · exact ⟨by simp, fun _ => rfl⟩
  rename_i pa phys found
  have after := Phys.allocZeroPage_available found
  obtain ⟨enough, space⟩ := roomy.resolve_right (by omega)
  obtain ⟨settled, aligned, nonzero, inside, -, held⟩ :=
    Phys.settles_allocZeroPage hand balanced.orderly found
  set rooted := (s.setPhys phys).setSpace dst fun space => { space with
    as := { (s.space src).as with rootPa := pa, entry := fun _ _ => 0 } } with rooted_eq
  have others : ∀ j, j ≠ dst → rooted.space j = s.space j := fun j other => by
    simp [rooted_eq, Memory.setSpace, other]
  have here : rooted.space dst = { s.space dst with
      as := { (s.space src).as with rootPa := pa, entry := fun _ _ => 0 } } := by
    simp [rooted_eq, Memory.setSpace]
  have source : ∀ l i, rooted.entry src l i = s.entry src l i := fun l i => by
    rw [Memory.entry, Memory.entry, others src distinct.symm]
  have copy : ∀ l i, rooted.entry dst l i = 0 := fun l i => by
    rw [Memory.entry, here]
  have good : Balanced reserved hand rooted :=
    (balanced.settle settled).root rfl others liveDst (by rw [here]; exact liveDst) bare
      (by rw [here]; rfl) (fun l i => copy l i) (by rw [here]) aligned nonzero
  have kept : OwnersKept dst s rooted := by
    have same : ∀ j, (rooted.space j).live = (s.space j).live ∧
        (rooted.space j).vmas = (s.space j).vmas := by
      intro j
      by_cases at_ : j = dst
      · rw [at_, here]
        exact ⟨rfl, rfl⟩
      · rw [others j at_]
        exact ⟨rfl, rfl⟩
    exact ⟨fun j => (same j).1, fun j => (same j).2, rfl,
      fun owner page outside => Balanced.owns_congr (others _ outside), held⟩
  have start : Copying reserved hand dst src rooted rooted := by
    refine ⟨good, .refl _, fun _ => rfl, fun _ _ => rfl, fun _ _ => rfl,
      fun _ _ _ => rfl, fun _ _ _ => rfl, fun p index missing => ?_, rfl⟩
    have unshared : ∀ i, Unshared rooted dst src p i ↔
        isValid (s.entry src 3 i) = true ∧ pageOf (s.entry src 3 i) = p := by
      intro i
      simp [Unshared, source, copy]
    obtain ⟨valid, rfl⟩ := (unshared index).mp missing
    simp only [unshared]
    show (phys.pmm.refcount _ : ℕ∞) + _ ≤ _
    rw [balanced.refcount_allocZeroPage found
      (show s.Owns (Sum.inl (.entry src 3 index)) (pageOf (s.entry src 3 index)) from
        ⟨live, valid, rfl⟩)]
    exact space index valid
  have copied := cloneTable_copied distinct (by rw [others src distinct.symm]; exact live)
    (by rw [here]; exact liveDst)
    (by rw [here]; exact nonzero) 3 0 0 rfl start (by decide) (fun l same => by omega)
    (fun i _ l j _ => by rw [copy]; exact isValid_zero)
    (by
      rw [others src distinct.symm]
      show _ ≤ phys.pmm.available
      omega)
  have cache := cloneTable_cache dst src 3 0 0 rooted
  generalize cloneTable dst src 3 0 0 rooted = result at copied cache
  refine ⟨fun _ => ⟨copied.copying.balanced, ?_, ?_⟩, fun failed => ?_⟩
  · have later := copied.copying.ownersKept cache
    exact ⟨fun j => (later.live j).trans (kept.live j), fun j => (later.vmas j).trans (kept.vmas j),
      later.cache.trans kept.cache,
      fun owner page outside => (later.owns owner page outside).trans
        (kept.owns owner page outside), later.held.trans kept.held⟩
  · rw [copied.copying.root dst, here]
    exact nonzero
  · rw [copied.done] at failed
    contradiction

end Spore.Mm
