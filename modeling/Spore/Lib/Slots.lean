import Mathlib.Data.List.Basic

/-!
# Slot tables read as maps from addresses

A slot table is a list of records, some of them live, each live record covering a half-open
range of addresses and carrying a value. A lookup scans the slots in order and returns the
first live record that covers the address. When the live ranges are nonempty and pairwise
separate the scan order does not matter: the table denotes a partial function, and every
edit of the table is an edit of that function. The rules here state what each edit does to
the denoted function; nothing is assumed about where a record is stored.
-/

namespace Spore.Lib

open List

variable {x lo hi : Nat}

/-- How a record type is read as a range with a value. -/
structure SlotView (β α : Type) where
  /-- Whether the slot holds a record. -/
  live : β → Bool
  /-- First address covered. -/
  lo : β → Nat
  /-- First address after the range. -/
  hi : β → Nat
  /-- The value at every covered address. -/
  val : β → α

/-- A partial function of addresses, changed on one range at a time. -/
def overwrite {α : Type} (f : Nat → Option α) (lo hi : Nat) (change : Option α → Option α) :
    Nat → Option α :=
  fun x => if lo ≤ x ∧ x < hi then change (f x) else f x

namespace SlotView

variable {β α : Type} (V : SlotView β α)
variable {i j : Nat} {new a b old : β} {other dead : List β}

/-- A live record covering the address. -/
def Hits (b : β) (x : Nat) : Prop := V.live b = true ∧ V.lo b ≤ x ∧ x < V.hi b

instance (b : β) (x : Nat) : Decidable (V.Hits b x) :=
  inferInstanceAs (Decidable (V.live b = true ∧ V.lo b ≤ x ∧ x < V.hi b))

/-- The first slot whose record covers the address. -/
def find (slots : List β) (x : Nat) : Option β := slots.find? (fun b => decide (V.Hits b x))

/-- The value the table gives an address. -/
def valueAt (slots : List β) (x : Nat) : Option α := (V.find slots x).map V.val

/-- Some slot, wherever it is, covers the address with the value. -/
def Covers (slots : List β) (x : Nat) (a : α) : Prop := ∃ b ∈ slots, V.Hits b x ∧ V.val b = a

/-- The two ranges have no address in common. -/
def Apart (a b : β) : Prop := V.hi a ≤ V.lo b ∨ V.hi b ≤ V.lo a

/-- Live ranges are nonempty, and separate at distinct positions. -/
structure Tidy (slots : List β) : Prop where
  /-- A live record covers at least one address. -/
  proper : ∀ b ∈ slots, V.live b = true → V.lo b < V.hi b
  /-- Live records at two positions share no address. -/
  apart : ∀ (i j : Nat) (a b : β), slots[i]? = some a → slots[j]? = some b → i ≠ j →
    V.live a = true → V.live b = true → V.Apart a b

section

variable {V} {slots : List β}

/-- Nothing is covered. -/
@[simp] theorem covers_nil (a : α) : ¬ V.Covers [] x a := by
  simp [Covers]

/-- The first slot or another one. -/
@[simp] theorem covers_cons (a : α) :
    V.Covers (b :: slots) x a ↔ (V.Hits b x ∧ V.val b = a) ∨ V.Covers slots x a := by
  simp [Covers]

/-- Being apart is symmetric. -/
theorem Apart.symm (h : V.Apart a b) : V.Apart b a := Or.symm h

/-- Separate records do not both cover an address. -/
theorem Apart.not_both {x : Nat} (h : V.Apart a b) (ha : V.Hits a x) (hb : V.Hits b x) : False := by
  obtain ⟨-, la, ra⟩ := ha
  obtain ⟨-, lb, rb⟩ := hb
  rcases h with h | h <;> omega

/-- In a tidy table only one record covers an address. -/
theorem Tidy.hit_unique (tidy : V.Tidy slots) {x : Nat} (ha : a ∈ slots) (hb : b ∈ slots)
    (hita : V.Hits a x) (hitb : V.Hits b x) : a = b := by
  obtain ⟨i, hi⟩ := mem_iff_getElem?.mp ha
  obtain ⟨j, hj⟩ := mem_iff_getElem?.mp hb
  by_cases same : i = j
  · subst same
    exact Option.some.inj (hi.symm.trans hj)
  · exact ((tidy.apart i j a b hi hj same hita.1 hitb.1).not_both hita hitb).elim

/-- The scan order of a tidy table is immaterial: its value is the covering value. -/
theorem Tidy.valueAt_eq_some (tidy : V.Tidy slots) (a : α) :
    V.valueAt slots x = some a ↔ V.Covers slots x a := by
  simp only [valueAt, find, Option.map_eq_some_iff]
  constructor
  · rintro ⟨b, found, value⟩
    have hit : V.Hits b x := by simpa using find?_some found
    exact ⟨b, mem_of_find?_eq_some found, hit, value⟩
  rintro ⟨b, member, hit, value⟩
  cases found : slots.find? (fun c => decide (V.Hits c x)) with
  | none =>
    have missed := find?_eq_none.mp found b member
    simp [hit] at missed
  | some c =>
    have hitc : V.Hits c x := by simpa using find?_some found
    have same := tidy.hit_unique (mem_of_find?_eq_some found) member hitc hit
    exact ⟨c, rfl, same ▸ value⟩

/-- Two tidy tables with the same covering facts denote the same function. -/
theorem Tidy.valueAt_congr (left : V.Tidy slots) (right : V.Tidy other)
    (x : Nat) (same : ∀ a, V.Covers slots x a ↔ V.Covers other x a) :
    V.valueAt slots x = V.valueAt other x := by
  apply Option.ext
  intro a
  rw [left.valueAt_eq_some, right.valueAt_eq_some, same]

/-- A tidy table whose covering facts are those of a changed range denotes the changed
function. -/
theorem Tidy.valueAt_overwrite (left : V.Tidy slots) (right : V.Tidy other)
    (change : Option α → Option α)
    (inside : ∀ x, lo ≤ x → x < hi → ∀ a, V.Covers other x a ↔ change (V.valueAt slots x) = some a)
    (outside : ∀ x, ¬ (lo ≤ x ∧ x < hi) → ∀ a, V.Covers other x a ↔ V.Covers slots x a) :
    V.valueAt other = overwrite (V.valueAt slots) lo hi change := by
  funext x
  unfold overwrite
  split
  · rename_i within
    apply Option.ext
    intro a
    rw [right.valueAt_eq_some, inside x within.1 within.2]
  · rename_i beyond
    exact right.valueAt_congr left x (outside x beyond)

/-- The live records of a tidy table, in any order of scanning, are pairwise separate. -/
theorem Tidy.pairwise_live (tidy : V.Tidy slots) : (slots.filter V.live).Pairwise V.Apart := by
  rw [pairwise_filter, pairwise_iff_getElem]
  intro i j insideI insideJ before liveA liveB
  exact tidy.apart i j _ _ (getElem?_eq_getElem insideI) (getElem?_eq_getElem insideJ)
    (Nat.ne_of_lt before) liveA liveB

/-! ## Edits of one table -/

/-- After storing at an existing position, the records are the new one and the others. -/
theorem getElem?_set_cases {c : β} (stored : (slots.set i new)[j]? = some c) :
    (j = i ∧ c = new) ∨ (j ≠ i ∧ slots[j]? = some c) := by
  rw [getElem?_set] at stored
  by_cases same : i = j
  · subst same
    by_cases inside : i < slots.length <;> simp [inside] at stored
    exact .inl ⟨rfl, stored.symm⟩
  · simp only [if_neg same] at stored
    exact .inr ⟨Ne.symm same, stored⟩

/-- Covering facts after storing at one position: those of the new record and those of the
records elsewhere. -/
theorem covers_set (at_i : slots[i]? = some old) (a : α) :
    V.Covers (slots.set i new) x a ↔
      (V.Hits new x ∧ V.val new = a) ∨
      ∃ (j : Nat) (c : β), j ≠ i ∧ slots[j]? = some c ∧ V.Hits c x ∧ V.val c = a := by
  have inside : i < slots.length := (List.getElem?_eq_some_iff.mp at_i).1
  constructor
  · rintro ⟨c, member, hit, value⟩
    obtain ⟨j, stored⟩ := List.mem_iff_getElem?.mp member
    rcases getElem?_set_cases stored with ⟨-, rfl⟩ | ⟨other, there⟩
    · exact .inl ⟨hit, value⟩
    · exact .inr ⟨j, c, other, there, hit, value⟩
  · rintro (⟨hit, value⟩ | ⟨j, c, other, there, hit, value⟩)
    · exact ⟨new, List.mem_set inside new, hit, value⟩
    · refine ⟨c, List.mem_iff_getElem?.mpr ⟨j, ?_⟩, hit, value⟩
      rw [List.getElem?_set_ne (Ne.symm other)]
      exact there

/-- Covering facts split at any position. -/
theorem covers_split (at_i : slots[i]? = some old) (a : α) :
    V.Covers slots x a ↔
      (V.Hits old x ∧ V.val old = a) ∨
      ∃ (j : Nat) (c : β), j ≠ i ∧ slots[j]? = some c ∧ V.Hits c x ∧ V.val c = a := by
  have same : slots.set i old = slots := by
    obtain ⟨inside, rfl⟩ := List.getElem?_eq_some_iff.mp at_i
    exact List.set_getElem_self inside
  have split : V.Covers (slots.set i old) x a ↔ _ := covers_set at_i a
  rwa [same] at split

/-- Slots without records change nothing. -/
theorem covers_append_dead (empty : ∀ b ∈ dead, V.live b = false) (a : α) :
    V.Covers (slots ++ dead) x a ↔ V.Covers slots x a := by
  constructor
  · rintro ⟨b, member, hit, value⟩
    rcases mem_append.mp member with here | there
    · exact ⟨b, here, hit, value⟩
    · exact absurd hit.1 (by simp [empty b there])
  · rintro ⟨b, member, hit, value⟩
    exact ⟨b, mem_append_left dead member, hit, value⟩

/-- A table of empty slots is tidy. -/
theorem Tidy.nil : V.Tidy [] :=
  ⟨fun _ member => (not_mem_nil member).elim, fun _ _ _ _ stored => by simp at stored⟩

/-- What a table says after a record was stored in a slot that held none. -/
structure Added (before after : List β) (new : β) : Prop where
  /-- The slots are apart. -/
  tidy : V.Tidy after
  /-- Exactly the new record was added to the covering facts. -/
  covers : ∀ x a, V.Covers after x a ↔ V.Covers before x a ∨ (V.Hits new x ∧ V.val new = a)
  /-- A live record is an old one or the new one. -/
  origin : ∀ c ∈ after, V.live c = true → (c ∈ before ∧ V.live c = true) ∨ c = new

section

variable (tidy : V.Tidy slots)

include tidy

/-- Storing a proper record that is separate from every other live record keeps a table
tidy, whatever it replaces. -/
theorem Tidy.set (proper : V.live new → V.lo new < V.hi new)
    (apart : ∀ (j : Nat) (c : β), j ≠ i → slots[j]? = some c → V.live c →
      V.live new → V.Apart new c) : V.Tidy (slots.set i new) := by
  constructor
  · intro c member live
    obtain ⟨j, stored⟩ := mem_iff_getElem?.mp member
    rcases getElem?_set_cases stored with ⟨-, rfl⟩ | ⟨-, there⟩
    · exact proper live
    · exact tidy.proper c (mem_iff_getElem?.mpr ⟨j, there⟩) live
  · intro j k a b storedA storedB distinct liveA liveB
    rcases getElem?_set_cases storedA with ⟨rfl, rfl⟩ | ⟨otherA, thereA⟩ <;>
      rcases getElem?_set_cases storedB with ⟨rfl, rfl⟩ | ⟨otherB, thereB⟩
    · exact (distinct rfl).elim
    · exact apart k b otherB thereB liveB liveA
    · exact (apart j a otherA thereA liveA liveB).symm
    · exact tidy.apart j k a b thereA thereB distinct liveA liveB

/-- A table stays tidy when slots without records are appended. -/
theorem Tidy.append_dead (empty : ∀ b ∈ dead, V.live b = false) : V.Tidy (slots ++ dead) := by
  have located : ∀ (i : Nat) (b : β), (slots ++ dead)[i]? = some b → V.live b →
      slots[i]? = some b := by
    intro i b stored live
    rw [getElem?_append] at stored
    split at stored
    · exact stored
    · exact absurd live (by simp [empty b (mem_of_getElem? stored)])
  constructor
  · intro b member live
    obtain ⟨i, stored⟩ := mem_iff_getElem?.mp member
    exact tidy.proper b (mem_of_getElem? (located i b stored live)) live
  · intro i j a b storedA storedB distinct liveA liveB
    exact tidy.apart i j a b (located i a storedA liveA) (located j b storedB liveB) distinct
      liveA liveB

/-- Widening a live record downwards over addresses that no record covers changes the function
there and nowhere else. -/
theorem Tidy.widen (at_i : slots[i]? = some old) (live : V.live old)
    (still : V.live new) (below : V.lo new < V.lo old) (same_hi : V.hi new = V.hi old)
    (same_val : V.val new = V.val old)
    (gap : ∀ c ∈ slots, V.live c → V.hi c ≤ V.lo new ∨ V.lo old ≤ V.lo c) :
    V.Tidy (slots.set i new) ∧ V.valueAt (slots.set i new) =
      overwrite (V.valueAt slots) (V.lo new) (V.lo old) fun _ => some (V.val old) := by
  have proper := tidy.proper old (mem_of_getElem? at_i) live
  have tidy' : V.Tidy (slots.set i new) := by
    refine tidy.set (fun _ => by omega) fun j c other there live' _ => ?_
    have apart := tidy.apart i j old c at_i there other.symm live live'
    have free := gap c (mem_of_getElem? there) live'
    have proper' := tidy.proper c (mem_of_getElem? there) live'
    simp only [Apart] at apart ⊢
    omega
  refine ⟨tidy', tidy.valueAt_overwrite tidy' _ ?_ ?_⟩
  · intro x low high a
    rw [covers_set at_i]
    constructor
    · rintro (⟨-, value⟩ | ⟨j, c, -, there, hit, -⟩)
      · rw [← value, same_val]
      · have free := gap c (mem_of_getElem? there) hit.1
        have inside := hit.2
        omega
    · intro value
      exact .inl ⟨⟨still, low, by omega⟩, by rw [same_val]; exact Option.some.inj value⟩
  · intro x outside a
    rw [covers_set at_i, covers_split at_i, same_val]
    have hits : V.Hits new x ↔ V.Hits old x := by
      simp only [Hits, live, still, same_hi, true_and]
      omega
    rw [hits]

/-- Storing a proper, separate record in an empty slot adds exactly that record. -/
theorem Tidy.fill (at_i : slots[i]? = some old) (empty : V.live old = false)
    (proper : V.lo new < V.hi new) (apart : ∀ c ∈ slots, V.live c → V.Apart new c) :
    V.Added slots (slots.set i new) new where
  tidy := tidy.set (fun _ => proper) fun _ c _ stored live _ =>
    apart c (mem_of_getElem? stored) live
  covers x a := by
    rw [covers_set at_i, covers_split at_i]
    have dead : ¬ V.Hits old x := fun hit => by simp [hit.1] at empty
    simp only [dead, false_and, false_or]
    exact or_comm
  origin c member live := by
    obtain ⟨j, stored⟩ := mem_iff_getElem?.mp member
    rcases getElem?_set_cases stored with ⟨-, same⟩ | ⟨-, there⟩
    · exact .inr same
    · exact .inl ⟨mem_of_getElem? there, live⟩

/-- Fusing two adjoining records of one value, the left one taking the range of both and the
right slot becoming empty, leaves the denoted function as it was. -/
theorem Tidy.fuse (whole gone : β) (distinct : i ≠ j)
    (at_i : slots[i]? = some a) (at_j : slots[j]? = some b) (liveA : V.live a)
    (liveB : V.live b) (liveWhole : V.live whole) (empty : V.live gone = false)
    (sameValue : V.val whole = V.val a ∧ V.val whole = V.val b)
    (joined : (V.hi a = V.lo b ∧ V.lo whole = V.lo a ∧ V.hi whole = V.hi b) ∨
      (V.hi b = V.lo a ∧ V.lo whole = V.lo b ∧ V.hi whole = V.hi a)) :
    V.Tidy ((slots.set i whole).set j gone) ∧
      ∀ x v, V.Covers ((slots.set i whole).set j gone) x v ↔ V.Covers slots x v := by
  have properA := tidy.proper a (mem_of_getElem? at_i) liveA
  have properB := tidy.proper b (mem_of_getElem? at_j) liveB
  -- The slot of `b` is emptied first: then nothing else can meet the fused range.
  have swap : (slots.set i whole).set j gone = (slots.set j gone).set i whole :=
    set_comm whole gone distinct
  have cleared : V.Tidy (slots.set j gone) :=
    tidy.set (fun live => by simp [empty] at live) fun _ _ _ _ _ live => by simp [empty] at live
  have at_i' : (slots.set j gone)[i]? = some a := by
    rw [getElem?_set_ne (Ne.symm distinct)]
    exact at_i
  rw [swap]
  constructor
  · refine cleared.set (fun _ => by omega) ?_
    intro k c otherI stored live _
    rcases getElem?_set_cases stored with ⟨-, rfl⟩ | ⟨otherJ, there⟩
    · simp [empty] at live
    have properC := tidy.proper c (mem_of_getElem? there) live
    have fromA := tidy.apart i k a c at_i there (Ne.symm otherI) liveA live
    have fromB := tidy.apart j k b c at_j there (Ne.symm otherJ) liveB live
    simp only [Apart] at fromA fromB ⊢
    omega
  intro x v
  have wholeHits : V.Hits whole x ↔ V.Hits a x ∨ V.Hits b x := by
    simp only [Hits, liveA, liveB, liveWhole, true_and]
    omega
  rw [covers_set at_i', wholeHits]
  constructor
  · rintro (⟨hit | hit, value⟩ | ⟨k, c, otherI, stored, hit, value⟩)
    · exact ⟨a, mem_of_getElem? at_i, hit, sameValue.1 ▸ value⟩
    · exact ⟨b, mem_of_getElem? at_j, hit, sameValue.2 ▸ value⟩
    · rcases getElem?_set_cases stored with ⟨-, rfl⟩ | ⟨-, there⟩
      · exact absurd hit.1 (by simp [empty])
      · exact ⟨c, mem_of_getElem? there, hit, value⟩
  rintro ⟨c, member, hit, value⟩
  obtain ⟨k, there⟩ := mem_iff_getElem?.mp member
  by_cases isA : k = i
  · subst isA
    obtain rfl := Option.some.inj (at_i.symm.trans there)
    exact .inl ⟨.inl hit, sameValue.1.trans value⟩
  by_cases isB : k = j
  · subst isB
    obtain rfl := Option.some.inj (at_j.symm.trans there)
    exact .inl ⟨.inr hit, sameValue.2.trans value⟩
  · refine .inr ⟨k, c, isA, ?_, hit, value⟩
    rw [getElem?_set_ne (Ne.symm isB)]
    exact there

end

end

end SlotView

end Spore.Lib
