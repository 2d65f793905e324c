import Mathlib.Logic.Function.Basic

/-!
# Trees kept as a table of parent links

Every taken place of a table is an entry that may name another place as its parent and has a
name there. Place `0` is the root and its own parent. `Shaped` says that the entries with a
parent form a tree of directories with distinct names; the one rule says when rewriting a
single place keeps it.
-/

namespace Spore.Lib

open Function

variable {Name : Type _}

/-- What a place of the table says about the tree. -/
structure Seat (Name : Type _) where
  /-- Whether other places may name this one as their parent. -/
  dir : Bool
  /-- The parent, for an entry that has one. -/
  parent : Option Nat
  /-- The name under the parent. -/
  name : Name

/-- A table of entries; a free place holds none. -/
abbrev Forest (Name : Type _) := Nat → Option (Seat Name)

namespace Forest

variable {table : Forest Name} {child met start parent place : Nat} {new : Option (Seat Name)}

/-- The entry has the parent. -/
def Under (table : Forest Name) (child parent : Nat) : Prop :=
  ∃ seat, table child = some seat ∧ seat.parent = some parent

/-- Following parents from the place arrives at the root. -/
inductive ReachesRoot (table : Forest Name) : Nat → Prop where
  | root : ReachesRoot table 0
  | step {child parent : Nat} : table.Under child parent → ReachesRoot table parent →
      ReachesRoot table child

/-- Following parents from the place arrives at the root without meeting the other place. -/
inductive Avoids (table : Forest Name) (met : Nat) : Nat → Prop where
  | root : met ≠ 0 → Avoids table met 0
  | step {child parent : Nat} : child ≠ met → table.Under child parent →
      Avoids table met parent → Avoids table met child

/-- The entries with a parent form a tree. -/
structure Shaped (table : Forest Name) : Prop where
  /-- The root is a directory and its own parent. -/
  root : ∃ seat, table 0 = some seat ∧ seat.dir = true ∧ seat.parent = some 0
  /-- A parent is a directory that is there. -/
  parents : ∀ {child parent}, table.Under child parent →
    ∃ seat, table parent = some seat ∧ seat.dir = true
  /-- An entry with a parent is below the root. -/
  rooted : ∀ {child parent}, table.Under child parent → table.ReachesRoot child
  /-- Two entries of one directory have different names. -/
  siblings : ∀ {i j parent : Nat} {a b : Seat Name}, table i = some a → table j = some b →
    a.parent = some parent → b.parent = some parent → a.name = b.name → i = j

/-- An entry has one parent. -/
theorem Under.unique {p q : Nat} (first : table.Under child p)
    (second : table.Under child q) : p = q := by
  obtain ⟨a, hereA, parentA⟩ := first
  obtain ⟨b, hereB, parentB⟩ := second
  have same : a = b := Option.some.inj (hereA.symm.trans hereB)
  rw [same] at parentA
  exact Option.some.inj (parentA.symm.trans parentB)

/-- A place below the root has a parent; the root is its own. -/
theorem Shaped.under_of_reaches (shaped : table.Shaped) {place : Nat}
    (reaches : table.ReachesRoot place) : ∃ parent, table.Under place parent := by
  cases reaches with
  | root =>
    obtain ⟨seat, here, -, parent⟩ := shaped.root
    exact ⟨0, seat, here, parent⟩
  | step under _ => exact ⟨_, under⟩

/-- The parent of an entry has a parent itself. -/
theorem Shaped.parent_under (shaped : table.Shaped)
    (under : table.Under child parent) : ∃ grand, table.Under parent grand := by
  apply shaped.under_of_reaches
  cases shaped.rooted under with
  | root =>
    obtain ⟨seat, here, -, own⟩ := shaped.root
    have same : parent = 0 := under.unique ⟨seat, here, own⟩
    rw [same]
    exact .root
  | step known reaches => rwa [under.unique known]

/-- A way that avoids a place does not start there. -/
theorem Avoids.ne {place : Nat} (avoids : table.Avoids met place) : place ≠ met := by
  cases avoids with
  | root apart => exact apart.symm
  | step apart _ _ => exact apart

/-- A place below itself is cut off from the root. -/
theorem ReachesRoot.ne_own_parent {place : Nat} (own : table.Under met met) (notRoot : met ≠ 0)
    (reaches : table.ReachesRoot place) : place ≠ met := by
  induction reaches with
  | root => exact notRoot.symm
  | step under _ ih =>
    intro same
    rw [same] at under
    exact ih (under.unique own)

/-- Rewriting one place leaves the others' parents. -/
theorem under_update_ne (apart : child ≠ place) :
    Under (update table place new) child parent ↔ table.Under child parent := by
  unfold Under
  rw [update_of_ne apart]

/-- The parent of the rewritten place. -/
theorem under_update_self :
    Under (update table place new) place parent ↔
      ∃ seat, new = some seat ∧ seat.parent = some parent := by
  unfold Under
  rw [update_self]

/-- A way to the root that avoids a place is not changed by rewriting it. -/
theorem Avoids.reaches_update (avoids : table.Avoids place start) :
    ReachesRoot (update table place new) start := by
  induction avoids with
  | root _ => exact .root
  | step apart under _ ih => exact .step ((under_update_ne apart).mpr under) ih

/-- What rewriting a place needs to keep the tree: the entries under it must keep a directory
with a parent above them, and a new parent must be a directory whose way to the root does not
pass through the place and that has no other entry of the name. -/
structure Fits (table : Forest Name) (place : Nat) (new : Option (Seat Name)) : Prop where
  /-- The root stays. -/
  notRoot : place ≠ 0
  /-- Entries below the place keep it as a directory of the tree. -/
  below : ∀ child, child ≠ place → table.Under child place →
    ∃ seat parent, new = some seat ∧ seat.dir = true ∧ seat.parent = some parent
  /-- The new parent is a directory above and beside the place. -/
  above : ∀ seat parent, new = some seat → seat.parent = some parent →
    table.Avoids place parent ∧ ∃ dir, table parent = some dir ∧ dir.dir = true
  /-- No other entry of the new parent has the name. -/
  fresh : ∀ seat parent, new = some seat → seat.parent = some parent →
    ∀ other entry, other ≠ place → table other = some entry → entry.parent = some parent →
      entry.name ≠ seat.name

/-- A place that nothing is below may be freed or lose its parent. -/
theorem Fits.leave (notRoot : place ≠ 0) (childless : ∀ child, ¬ table.Under child place)
    (loose : ∀ seat, new = some seat → seat.parent = none) : table.Fits place new where
  notRoot := notRoot
  below := fun child _ under => (childless child under).elim
  above := by
    intro seat parent is_new above
    rw [loose seat is_new] at above
    cases above
  fresh := by
    intro seat parent is_new above
    rw [loose seat is_new] at above
    cases above

/-- The way from a place of the tree to the root avoids every free place. -/
theorem Shaped.avoids_free (shaped : table.Shaped) (free : table met = none)
    (reaches : table.ReachesRoot start) : table.Avoids met start := by
  induction reaches with
  | root =>
    obtain ⟨seat, here, -⟩ := shaped.root
    apply Avoids.root
    intro same
    rw [same, here] at free
    cases free
  | @step child parent under _ ih =>
    apply Avoids.step ?_ under ih
    intro same
    obtain ⟨seat, here, -⟩ := under
    rw [same, free] at here
    cases here

/-- Nothing is below a free place. -/
theorem Shaped.childless_free (shaped : table.Shaped) (free : table place = none) (child : Nat) :
    ¬ table.Under child place := by
  intro under
  obtain ⟨seat, here, -⟩ := shaped.parents under
  rw [free] at here
  cases here

section

variable (fits : Fits table place new)
include fits

/-- The rewritten place reaches the root when it has a parent. -/
theorem Fits.place_reaches (under : Under (update table place new) place parent) :
    ReachesRoot (update table place new) place := by
  obtain ⟨seat, is_new, above⟩ := under_update_self.mp under
  have way := (fits.above seat parent is_new above).1
  exact .step under way.reaches_update

/-- An entry that reached the root still does. -/
theorem Fits.reaches (shaped : table.Shaped) (reaches : table.ReachesRoot child) :
    ∀ {parent}, Under (update table place new) child parent →
      ReachesRoot (update table place new) child := by
  induction reaches with
  | root => exact fun _ => .root
  | @step child up known rest ih =>
    intro parent under
    by_cases here : child = place
    · rw [here] at under ⊢
      exact fits.place_reaches under
    apply ReachesRoot.step ((under_update_ne here).mpr known)
    by_cases through : up = place
    · rw [through] at known ih ⊢
      obtain ⟨seat, grand, is_new, -, above⟩ := fits.below child here known
      exact ih (under_update_self.mpr ⟨seat, is_new, above⟩)
    · obtain ⟨grand, next⟩ := shaped.under_of_reaches rest
      exact ih ((under_update_ne through).mpr next)

/-- Rewriting one place keeps the tree. -/
theorem Fits.shaped (shaped : table.Shaped) : Shaped (update table place new) where
  root := by
    obtain ⟨seat, here, rest⟩ := shaped.root
    exact ⟨seat, by rw [update_of_ne fits.notRoot.symm]; exact here, rest⟩
  parents := by
    intro child parent under
    by_cases here : child = place
    · rw [here] at under
      obtain ⟨seat, is_new, above⟩ := under_update_self.mp under
      obtain ⟨avoids, dir, there, isDir⟩ := fits.above seat parent is_new above
      rw [update_of_ne avoids.ne]
      exact ⟨dir, there, isDir⟩
    · have known := (under_update_ne here).mp under
      by_cases through : parent = place
      · rw [through] at known ⊢
        obtain ⟨seat, -, is_new, isDir, -⟩ := fits.below child here known
        exact ⟨seat, by rw [update_self]; exact is_new, isDir⟩
      · rw [update_of_ne through]
        exact shaped.parents known
  rooted := by
    intro child parent under
    by_cases here : child = place
    · rw [here] at under ⊢
      exact fits.place_reaches under
    · exact fits.reaches shaped (shaped.rooted ((under_update_ne here).mp under)) under
  siblings := by
    intro i j parent a b hereA hereB parentA parentB same
    by_cases isI : i = place <;> by_cases isJ : j = place
    · rw [isI, isJ]
    · rw [isI, update_self] at hereA
      rw [update_of_ne isJ] at hereB
      exact (fits.fresh a parent hereA parentA j b isJ hereB parentB same.symm).elim
    · rw [update_of_ne isI] at hereA
      rw [isJ, update_self] at hereB
      exact (fits.fresh b parent hereB parentB i a isI hereA parentA same).elim
    · rw [update_of_ne isI] at hereA
      rw [update_of_ne isJ] at hereB
      exact shaped.siblings hereA hereB parentA parentB same

end

end Forest

end Spore.Lib
