import Mathlib.Data.List.Perm.Subperm

/-!
# Linked lists in a table of slots

`Chain next start slots` says that following `next` from `start` visits exactly the slots of
the list and then ends.
-/

namespace Spore.Lib

/-- The links from a start visit the listed slots, in order, and end. -/
def Chain (next : Nat → Option Nat) : Option Nat → List Nat → Prop
  | start, [] => start = none
  | start, slot :: rest => start = some slot ∧ Chain next (next slot) rest

namespace Chain

variable {next other : Nat → Option Nat} {start : Option Nat} {slots : List Nat}

/-- Only the links of the visited slots matter. -/
theorem congr : ∀ {start : Option Nat} {slots : List Nat},
    (∀ slot ∈ slots, other slot = next slot) → Chain next start slots →
      Chain other start slots := by
  intro start slots
  induction slots generalizing start with
  | nil => exact fun _ chain => chain
  | cons slot rest ih =>
    intro same chain
    refine ⟨chain.1, ?_⟩
    rw [same slot (List.mem_cons_self ..)]
    exact ih (fun s listed => same s (List.mem_cons_of_mem slot listed)) chain.2

/-- The links behind the front of a chain visit the rest. -/
theorem behind : ∀ {start : Option Nat} {front rest : List Nat} {last : Nat},
    Chain next start (front ++ last :: rest) → Chain next (next last) rest := by
  intro start front rest last
  induction front generalizing start with
  | nil => exact fun chain => chain.2
  | cons slot front ih => exact fun chain => ih chain.2

/-- A slot leaves the chain when the slot before it is linked to the one behind it. -/
theorem unlink : ∀ {start : Option Nat} {front rest : List Nat} {last slot : Nat},
    Chain next start (front ++ last :: slot :: rest) →
      (∀ s ∈ front, other s = next s) → (∀ s ∈ rest, other s = next s) →
      other last = next slot → Chain other start (front ++ last :: rest) := by
  intro start front rest last slot
  induction front generalizing start with
  | nil =>
    intro chain _ same linked
    refine ⟨chain.1, ?_⟩
    rw [linked]
    exact congr same chain.2.2
  | cons s front ih =>
    intro chain ahead same linked
    refine ⟨chain.1, ?_⟩
    rw [ahead s (List.mem_cons_self ..)]
    exact ih chain.2 (fun t listed => ahead t (List.mem_cons_of_mem s listed)) same linked

end Chain

/-- A list without repetition below a bound is no longer than the bound. -/
theorem length_le_of_nodup {slots : List Nat} {bound : Nat} (nodup : slots.Nodup)
    (below : ∀ slot ∈ slots, slot < bound) : slots.length ≤ bound := by
  have inside : slots ⊆ List.range bound :=
    fun slot listed => List.mem_range.mpr (below slot listed)
  have shorter := (nodup.subperm inside).length_le
  rwa [List.length_range] at shorter

end Spore.Lib
