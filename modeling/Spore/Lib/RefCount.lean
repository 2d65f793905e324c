import Mathlib.Data.Set.Card
import Mathlib.Data.Multiset.Count

/-!
# Reference counts

Items carry a counter. Some references to an item are recorded in the owners of a data
structure, others are in the hand of the code that is running. `Counted` says that no counter
is below the number of references of both kinds; a counter may be above it, which is a leak
and not a danger. Every operation on counters and owners moves a reference between the hand,
an owner and nowhere, and the lemmas below say that each move keeps the inequality.
-/

namespace Spore.Lib

open List

variable {Owner Item : Type*} [DecidableEq Item]

/-- No counter is below the number of owners of its item plus the references in hand. -/
def Counted (refs : Owner → Item → Prop) (hand : Multiset Item) (count : Item → Nat) : Prop :=
  ∀ item, {owner | refs owner item}.encard + (hand.count item : ℕ∞) ≤ (count item : ℕ∞)

namespace Counted

variable {refs refs' : Owner → Item → Prop} {hand hand' : Multiset Item} {count count' : Item → Nat}
  {item : Item} {owner other : Owner}

/-- Forgetting references and raising counters is always allowed. -/
theorem mono (counted : Counted refs hand count) (fewer : ∀ o i, refs' o i → refs o i)
    (less : hand' ≤ hand) (more : ∀ i, count i ≤ count' i) : Counted refs' hand' count' := by
  intro i
  have owners : {o | refs' o i}.encard ≤ {o | refs o i}.encard :=
    Set.encard_le_encard fun o held => fewer o i held
  have inHand : (hand'.count i : ℕ∞) ≤ (hand.count i : ℕ∞) :=
    Nat.cast_le.mpr (Multiset.count_le_of_le i less)
  have raised : (count i : ℕ∞) ≤ (count' i : ℕ∞) := Nat.cast_le.mpr (more i)
  exact (add_le_add owners inHand).trans ((counted i).trans raised)

/-- Owners alone may change as long as none is added. -/
theorem forget (counted : Counted refs hand count) (fewer : ∀ o i, refs' o i → refs o i) :
    Counted refs' hand count :=
  counted.mono fewer le_rfl fun _ => le_rfl

/-- Owners may be renamed. -/
theorem rename {Owner' : Type*} {refs' : Owner' → Item → Prop} (name : Owner' → Owner)
    (counted : Counted refs hand count) (injective : Function.Injective name)
    (renamed : ∀ o i, refs' o i → refs (name o) i) : Counted refs' hand count := by
  intro i
  have owners : {o | refs' o i}.encard ≤ {o | refs o i}.encard :=
    Set.encard_le_encard_of_injOn (fun o held => renamed o i held) injective.injOn
  exact (add_le_add owners le_rfl).trans (counted i)

/-- A reference in hand may be dropped without lowering the counter. -/
theorem drop (counted : Counted refs (item ::ₘ hand) count) : Counted refs hand count :=
  counted.mono (fun _ _ held => held) (Multiset.le_cons_self hand item) fun _ => le_rfl

/-- Without owners and references in hand any counters will do. -/
theorem of_no_owner (none : ∀ owner item, ¬ refs owner item) : Counted refs 0 count := by
  intro item
  have empty : {owner | refs owner item} = ∅ :=
    Set.eq_empty_of_forall_notMem fun owner => none owner item
  simp [empty]

section

variable (counted : Counted refs hand count)

include counted

/-- An item with an owner has a positive counter. -/
theorem pos_of_owner (held : refs owner item) : 0 < count item := by
  have one : 1 ≤ {o | refs o item}.encard := Set.one_le_encard_iff_nonempty.mpr ⟨owner, held⟩
  have bound := counted item
  have reached : (1 : ℕ∞) ≤ (count item : ℕ∞) := one.trans (le_self_add.trans bound)
  exact_mod_cast reached

/-- An item in hand has a positive counter. -/
theorem pos_of_hand (inHand : item ∈ hand) : 0 < count item := by
  have one : 1 ≤ hand.count item := Multiset.one_le_count_iff_mem.mpr inHand
  have reached : (1 : ℕ∞) ≤ (count item : ℕ∞) :=
    (by exact_mod_cast one : (1 : ℕ∞) ≤ hand.count item).trans (le_add_self.trans (counted item))
  exact_mod_cast reached

/-- A counter of one leaves room for one owner. -/
theorem unique (single : count item = 1)
    (first : refs owner item) (second : refs other item) : owner = other := by
  by_contra distinct
  have two : 1 < {o | refs o item}.encard :=
    Set.one_lt_encard_iff.mpr ⟨owner, other, first, second, distinct⟩
  have bound : {o | refs o item}.encard ≤ (count item : ℕ∞) := le_self_add.trans (counted item)
  rw [single] at bound
  exact absurd (two.trans_le bound) (by simp)

/-- An item that is both owned and in hand has a counter of at least two. -/
theorem two_of_owner_hand (held : refs owner item) (inHand : item ∈ hand) : 2 ≤ count item := by
  have one : (1 : ℕ∞) ≤ {o | refs o item}.encard := Set.one_le_encard_iff_nonempty.mpr ⟨owner, held⟩
  have more : (1 : ℕ∞) ≤ (hand.count item : ℕ∞) := by
    exact_mod_cast Multiset.one_le_count_iff_mem.mpr inHand
  have reached : ((2 : ℕ) : ℕ∞) ≤ (count item : ℕ∞) :=
    (by simpa [one_add_one_eq_two] using add_le_add one more : ((2 : ℕ) : ℕ∞) ≤ _).trans
      (counted item)
  exact_mod_cast reached

/-- Raising a counter puts one reference in hand. -/
theorem take (item : Item)
    (raised : count item + 1 ≤ count' item) (same : ∀ i, i ≠ item → count i ≤ count' i) :
    Counted refs (item ::ₘ hand) count' := by
  intro i
  by_cases here : i = item
  · subst here
    rw [Multiset.count_cons_self, Nat.cast_add, Nat.cast_one, ← add_assoc]
    calc _ ≤ (count i : ℕ∞) + 1 := add_le_add (counted i) le_rfl
      _ ≤ (count' i : ℕ∞) := by exact_mod_cast raised
  · rw [Multiset.count_cons_of_ne here]
    exact (counted i).trans (Nat.cast_le.mpr (same i here))

end

/-- Lowering a counter gives one reference of the hand away. -/
theorem give (counted : Counted refs (item ::ₘ hand) count)
    (lowered : count item ≤ count' item + 1) (same : ∀ i, i ≠ item → count i ≤ count' i) :
    Counted refs hand count' := by
  intro i
  by_cases here : i = item
  · subst here
    have bound := counted i
    rw [Multiset.count_cons_self, Nat.cast_add, Nat.cast_one, ← add_assoc] at bound
    have step : {o | refs o i}.encard + (hand.count i : ℕ∞) + 1 ≤ (count' i : ℕ∞) + 1 :=
      bound.trans (by exact_mod_cast lowered)
    exact (ENat.add_le_add_iff_right ENat.one_ne_top).mp step
  · have bound := counted i
    rw [Multiset.count_cons_of_ne here] at bound
    exact bound.trans (Nat.cast_le.mpr (same i here))

/-- The owners, and one more that has an item. -/
def withHolder (refs : Owner → Item → Prop) (item : Item) : Option Owner → Item → Prop
  | none, i => i = item
  | some owner, i => refs owner i

/-- Having a reference in hand is being one more owner. -/
theorem holder_iff : Counted (withHolder refs item) hand count ↔
    Counted refs (item ::ₘ hand) count := by
  refine forall_congr' fun i => ?_
  have owners : {o | withHolder refs item o i} =
      {o | o = none ∧ i = item} ∪ some '' {o | refs o i} := by
    ext o
    cases o <;> simp [withHolder]
  have apart : Disjoint {o : Option Owner | o = none ∧ i = item} (some '' {o | refs o i}) := by
    rw [Set.disjoint_left]
    rintro o ⟨rfl, -⟩ ⟨p, -, contra⟩
    cases contra
  have inner : (some '' {o | refs o i}).encard = {o | refs o i}.encard :=
    (Option.some_injective Owner).encard_image _
  rw [owners, Set.encard_union_eq apart, inner]
  by_cases here : i = item
  · have single : {o : Option Owner | o = none ∧ i = item} = {none} := by
      ext o
      simp [here]
    subst here
    rw [single, Set.encard_singleton, Multiset.count_cons_self, Nat.cast_add, Nat.cast_one,
      add_comm (1 : ℕ∞), add_assoc, add_comm (1 : ℕ∞)]
  · have none : {o : Option Owner | o = none ∧ i = item} = ∅ := by
      ext o
      simp [here]
    rw [none, Set.encard_empty, Multiset.count_cons_of_ne here, zero_add]

end Counted

/-! ## Exact counters -/

/-- Every counter is the number of owners of its item plus the references in hand: nothing
dangles and nothing leaks. -/
def Exact (refs : Owner → Item → Prop) (hand : Multiset Item) (count : Item → Nat) : Prop :=
  ∀ item, (count item : ℕ∞) = {owner | refs owner item}.encard + (hand.count item : ℕ∞)

namespace Exact

variable {refs refs' : Owner → Item → Prop} {hand hand' : Multiset Item} {count count' : Item → Nat}
  {item : Item} {owner : Owner}

/-- A reference of the hand becomes the reference of an owner that did not have it. -/
theorem link (owner : Owner) (exact_ : Exact refs (item ::ₘ hand) count) (free : ¬ refs owner item)
    (linked : ∀ o i, refs' o i ↔ refs o i ∨ (o = owner ∧ i = item)) : Exact refs' hand count := by
  intro i
  have before := exact_ i
  by_cases here : i = item
  · subst here
    have owners : {o | refs' o i} = insert owner {o | refs o i} := by
      ext o
      simp [linked, or_comm]
    rw [Multiset.count_cons_self, Nat.cast_add, Nat.cast_one, add_comm (hand.count i : ℕ∞),
      ← add_assoc] at before
    rw [owners, Set.encard_insert_of_notMem (show owner ∉ {o | refs o i} from free)]
    exact before
  · rw [Multiset.count_cons_of_ne here] at before
    simpa [linked, here] using before

section

variable (exact_ : Exact refs hand count)

include exact_

/-- Exact counters are large enough. -/
theorem counted : Counted refs hand count := fun i => (exact_ i).ge

/-- The same references have the same counters. -/
theorem congr (same : ∀ o i, refs' o i ↔ refs o i) : Exact refs' hand count := by
  intro i
  rw [exact_ i]
  simp only [same]

/-- Counters and references in hand move by the same amount. -/
theorem settle
    (moved : ∀ i, count' i + hand.count i = count i + hand'.count i) : Exact refs hand' count' := by
  intro i
  have before := exact_ i
  have step : (count' i : ℕ∞) + (hand.count i : ℕ∞) = (count i : ℕ∞) + (hand'.count i : ℕ∞) := by
    exact_mod_cast moved i
  rw [before, add_right_comm] at step
  exact (WithTop.add_right_inj (ENat.natCast_ne_top _)).mp step

/-- The reference of an owner becomes a reference in hand. -/
theorem unlink (held : refs owner item)
    (unlinked : ∀ o i, refs' o i ↔ refs o i ∧ ¬ (o = owner ∧ i = item)) :
    Exact refs' (item ::ₘ hand) count := by
  intro i
  have before := exact_ i
  by_cases here : i = item
  · subst here
    have owners : {o | refs' o i} = {o | refs o i} \ {owner} := by
      ext o
      simp [unlinked]
    rw [owners, Multiset.count_cons_self, Nat.cast_add, Nat.cast_one, before,
      add_comm (hand.count i : ℕ∞), ← add_assoc,
      Set.encard_sdiff_singleton_add_one (show owner ∈ {o | refs o i} from held)]
  · rw [Multiset.count_cons_of_ne here]
    simpa [unlinked, here] using before

end

/-- The references of several owners, each with one item, become references in hand. -/
theorem unlinkAll (pairs : List (Owner × Item)) :
    ∀ {refs : Owner → Item → Prop} {hand : Multiset Item}, Exact refs hand count →
      (∀ pair ∈ pairs, ∀ i, refs pair.1 i ↔ i = pair.2) → (pairs.map Prod.fst).Nodup →
      (∀ o i, refs' o i ↔ refs o i ∧ o ∉ pairs.map Prod.fst) →
      Exact refs' ((pairs.map Prod.snd : Multiset Item) + hand) count := by
  induction pairs with
  | nil =>
    intro refs hand exact_ _ _ fewer
    simpa using exact_.congr fun o i => by simpa using fewer o i
  | cons pair rest ih =>
    intro refs hand exact_ held distinct fewer
    rw [map_cons, nodup_cons] at distinct
    -- The remaining owners keep their references while the first one gives its own up.
    let without : Owner → Item → Prop := fun o i => refs o i ∧ o ≠ pair.1
    have only : ∀ i, refs pair.1 i ↔ i = pair.2 := held pair mem_cons_self
    have first : Exact without (pair.2 ::ₘ hand) count := by
      refine exact_.unlink ((only pair.2).mpr rfl) fun o i => and_congr_right fun still => ?_
      refine not_congr ⟨fun same => ⟨same, (only i).mp (same ▸ still)⟩, fun same => same.1⟩
    have others : ∀ other ∈ rest, ∀ i, without other.1 i ↔ i = other.2 := by
      intro other member i
      have different : other.1 ≠ pair.1 := fun same =>
        distinct.1 (same ▸ mem_map_of_mem member)
      rw [← held other (mem_cons_of_mem _ member) i]
      exact and_iff_left different
    have rest_taken := ih first others distinct.2 fun o i => by
      rw [fewer, map_cons, mem_cons, not_or, and_assoc]
    rw [map_cons, ← Multiset.cons_coe, Multiset.cons_add]
    rwa [Multiset.add_cons] at rest_taken

/-- References in hand become references of owners that had none. -/
theorem linkAll (pairs : List (Owner × Item)) :
    ∀ {refs : Owner → Item → Prop},
      Exact refs ((pairs.map Prod.snd : Multiset Item) + hand) count →
      (∀ pair ∈ pairs, ¬ refs pair.1 pair.2) → (pairs.map Prod.fst).Nodup →
      (∀ o i, refs' o i ↔ refs o i ∨ (o, i) ∈ pairs) → Exact refs' hand count := by
  induction pairs with
  | nil =>
    intro refs exact_ _ _ linked
    have same : Exact refs hand count := by simpa using exact_
    exact same.congr fun o i => by simpa using linked o i
  | cons pair rest ih =>
    intro refs exact_ free distinct linked
    rw [map_cons, nodup_cons] at distinct
    rw [map_cons, ← Multiset.cons_coe, Multiset.cons_add] at exact_
    have first := Exact.link pair.1 exact_ (free pair mem_cons_self) fun o i => Iff.rfl
    refine ih first ?_ distinct.2 fun o i => ?_
    · rintro other member (old | ⟨same, -⟩)
      · exact free other (mem_cons_of_mem _ member) old
      · exact distinct.1 (same ▸ mem_map_of_mem member)
    · rw [linked, mem_cons, or_assoc, Prod.ext_iff]

/-- Owners may be renamed, one to one. -/
theorem rename {Owner' : Type*} {refs' : Owner' → Item → Prop} (name : Owner' ≃ Owner)
    (exact_ : Exact refs hand count) (renamed : ∀ o i, refs' o i ↔ refs (name o) i) :
    Exact refs' hand count := by
  intro i
  have owners : {o | refs' o i} = Set.preimage name {o | refs o i} := by
    ext o
    exact renamed o i
  rw [exact_ i, owners, ← name.injective.encard_image, Set.image_preimage_eq _ name.surjective]

end Exact

/-! ## Moves between the hand and the owners -/

namespace Counted

variable {refs refs' : Owner → Item → Prop} {hand : Multiset Item} {count : Item → Nat}
  {item : Item} {owner : Owner}

/-- Counters that are large enough are nowhere below exact ones. -/
theorem exists_exact (counted : Counted refs hand count) :
    ∃ least, Exact refs hand least ∧ ∀ i, least i ≤ count i := by
  have finite : ∀ i, ∃ n : Nat, (n : ℕ∞) = {o | refs o i}.encard + (hand.count i : ℕ∞) :=
    fun i => ENat.ne_top_iff_exists.mp (ne_top_of_le_ne_top (ENat.natCast_ne_top _) (counted i))
  choose least exact_ using finite
  exact ⟨least, exact_, fun i => Nat.cast_le.mp ((exact_ i).le.trans (counted i))⟩

/-- A reference of the hand becomes a reference of an owner. -/
theorem link (owner : Owner) (counted : Counted refs (item ::ₘ hand) count)
    (linked : ∀ o i, refs' o i → refs o i ∨ (o = owner ∧ i = item)) : Counted refs' hand count := by
  by_cases owned : refs owner item
  · refine counted.drop.forget fun o i held => ?_
    rcases linked o i held with old | ⟨rfl, rfl⟩
    · exact old
    · exact owned
  obtain ⟨least, exact_, below⟩ := counted.exists_exact
  have given : Exact (fun o i => refs o i ∨ (o = owner ∧ i = item)) hand least :=
    exact_.link owner owned fun _ _ => Iff.rfl
  exact given.counted.mono linked le_rfl below

/-- A reference of an owner becomes a reference in hand. -/
theorem unlink (counted : Counted refs hand count) (held : refs owner item)
    (unlinked : ∀ o i, refs' o i → refs o i ∧ ¬ (o = owner ∧ i = item)) :
    Counted refs' (item ::ₘ hand) count := by
  obtain ⟨least, exact_, below⟩ := counted.exists_exact
  have taken : Exact (fun o i => refs o i ∧ ¬ (o = owner ∧ i = item)) (item ::ₘ hand) least :=
    exact_.unlink held fun _ _ => Iff.rfl
  exact taken.counted.mono unlinked le_rfl below

/-- The references of several owners become references in hand. -/
theorem unlinkAll (pairs : List (Owner × Item)) (counted : Counted refs hand count)
    (held : ∀ pair ∈ pairs, refs pair.1 pair.2) (distinct : (pairs.map Prod.fst).Nodup)
    (fewer : ∀ o i, refs' o i → refs o i ∧ o ∉ pairs.map Prod.fst) :
    Counted refs' ((pairs.map Prod.snd : Multiset Item) + hand) count := by
  -- The owners forget what else they have, so that each has one item.
  let only : Owner → Item → Prop := fun o i => refs o i ∧ (o ∈ pairs.map Prod.fst → (o, i) ∈ pairs)
  have forgotten : Counted only hand count := counted.forget fun _ _ still => still.1
  obtain ⟨least, exact_, below⟩ := forgotten.exists_exact
  have taken : Exact (fun o i => only o i ∧ o ∉ pairs.map Prod.fst)
      ((pairs.map Prod.snd : Multiset Item) + hand) least := by
    refine exact_.unlinkAll pairs (fun pair member i => ⟨fun still => ?_, ?_⟩) distinct
      fun _ _ => Iff.rfl
    · have listed := still.2 (mem_map_of_mem member)
      exact congrArg Prod.snd (inj_on_of_nodup_map distinct listed member rfl)
    · rintro rfl
      exact ⟨held pair member, fun _ => member⟩
  refine taken.counted.mono (fun o i still => ?_) le_rfl below
  obtain ⟨kept, other⟩ := fewer o i still
  exact ⟨⟨kept, fun listed => absurd listed other⟩, other⟩

/-- References in hand become references of owners. -/
theorem linkAll (pairs : List (Owner × Item)) :
    ∀ {refs : Owner → Item → Prop},
      Counted refs ((pairs.map Prod.snd : Multiset Item) + hand) count →
      (∀ o i, refs' o i → refs o i ∨ (o, i) ∈ pairs) → Counted refs' hand count := by
  induction pairs with
  | nil =>
    intro refs counted linked
    have same : Counted refs hand count := by simpa using counted
    exact same.forget fun o i held => (linked o i held).resolve_right not_mem_nil
  | cons pair rest ih =>
    intro refs counted linked
    rw [map_cons, ← Multiset.cons_coe, Multiset.cons_add] at counted
    have first := Counted.link pair.1 counted fun o i held => held
    refine ih first fun o i held => ?_
    rcases linked o i held with old | member
    · exact .inl (.inl old)
    · rcases mem_cons.mp member with here | later
      · exact .inl (.inr (Prod.ext_iff.mp here))
      · exact .inr later

end Counted

end Spore.Lib
