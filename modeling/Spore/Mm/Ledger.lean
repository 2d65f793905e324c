import Spore.Mm.PmmAccounting
import Spore.Mm.VmaAccounts

/-!
# The ledger of physical pages

`Accounts` says that no counter is too low. Here counters are followed exactly: each call of
the allocator, and each function that runs on it, moves the counters by as much as it moves
the pages in hand and the pages that the rest of the kernel holds. The other owners take no
part and are not mentioned.

The pages that `pmm_init` never gave to the allocator, among them all that are not tracked, are
`reserved`: their bits are set and nobody counts references to them.
-/

namespace Spore.Mm

open Spore.Lib List
variable {count : Nat}

namespace Pmm

variable {reserved : Nat → Prop} {pmm next : Pmm} {page pa : Nat}

/-- The bits and the counters agree, apart from the reserved pages. -/
structure Orderly (reserved : Nat → Prop) (pmm : Pmm) : Prop where
  /-- Free pages are counted. -/
  accurate : pmm.Accurate
  /-- Pages that are not tracked are reserved. -/
  outside : ∀ page, pmm.tracked ≤ page → reserved page
  /-- A page that is neither reserved nor counted is free. -/
  clear : ∀ page, ¬ reserved page → pmm.refcount page = 0 → pmm.used page = false
  /-- Reserved pages stay out of use. -/
  kept : ∀ page, reserved page → pmm.used page = true ∧ pmm.refcount page = 0

/-- The counters determine the number of free pages. -/
theorem Orderly.freeCount_eq (before : pmm.Orderly reserved) (after : next.Orderly reserved)
    (same : ∀ page, next.refcount page = pmm.refcount page) : next.freeCount = pmm.freeCount := by
  have free : ∀ {pmm : Pmm}, pmm.Orderly reserved → ∀ page,
      page ∈ pmm.clearPages ↔ ¬ reserved page ∧ pmm.refcount page = 0 := by
    intro pmm orderly page
    rw [mem_clearPages]
    constructor
    · rintro ⟨-, clear⟩
      refine ⟨fun kept => ?_, orderly.accurate.uncounted page clear⟩
      rw [(orderly.kept page kept).1] at clear
      contradiction
    · rintro ⟨ordinary, none⟩
      refine ⟨?_, orderly.clear page ordinary none⟩
      by_contra beyond
      exact ordinary (orderly.outside page (Nat.not_lt.mp beyond))
  have pages : next.clearPages = pmm.clearPages := by
    ext page
    rw [free after, free before, same]
  rw [after.accurate.counted, before.accurate.counted, pages]

/-- Giving a reference back clears the bit exactly when it was the last one. -/
theorem freePage_used (aligned : pa % pageSize = 0) (inside : pa / pageSize < pmm.tracked)
    (counted : 0 < pmm.refcount (pa / pageSize)) (p : Nat) :
    (pmm.freePage pa).used p =
      if p = pa / pageSize ∧ pmm.refcount p = 1 then false else pmm.used p := by
  unfold freePage
  rw [if_neg (not_not.mpr aligned), if_neg (Nat.not_le.mpr inside), if_neg (by omega)]
  by_cases last : pmm.refcount (pa / pageSize) - 1 = 0
  · have one : pmm.refcount (pa / pageSize) = 1 := by omega
    rw [if_pos last]
    refine (setFree_used (pmm.lower (pa / pageSize)) p inside).trans ?_
    by_cases here : p = pa / pageSize
    · simp [here, one]
    · simp [here, lower]
  · rw [if_neg last]
    have more : ¬ (p = pa / pageSize ∧ pmm.refcount p = 1) := by
      rintro ⟨rfl, one⟩
      omega
    rw [if_neg more]
    rfl

section

variable (orderly : pmm.Orderly reserved)

include orderly

/-- A counted page is tracked. -/
theorem Orderly.lt_tracked (counted : 0 < pmm.refcount page) : page < pmm.tracked := by
  by_contra outside
  have none := (orderly.kept page (orderly.outside page (Nat.not_lt.mp outside))).2
  omega

/-- An allocation takes a free page outside the reserved ones. -/
theorem Orderly.allocPage (found : pmm.allocPage = some (page, next)) : next.Orderly reserved := by
  have spec := allocPage_spec found
  have takable := (allocPage_takes found).1
  refine ⟨?_, ?_, ?_, ?_⟩
  · rw [(allocPage_takes found).2]
    exact (setUsed_accurate orderly.accurate page).at_next _
  · rw [spec.tracked]
    exact orderly.outside
  · intro p ordinary none
    have other : p ≠ page := by
      rintro rfl
      simp [spec.counted] at none
    rw [allocPage_used found, if_neg other]
    refine orderly.clear p ordinary ?_
    simpa [spec.counted, other] using none
  · intro p reserves
    obtain ⟨set, none⟩ := orderly.kept p reserves
    have other : p ≠ page := by
      rintro rfl
      rw [takable.clear] at set
      contradiction
    rw [allocPage_used found, if_neg other]
    exact ⟨set, by simp [spec.counted, other, none]⟩

/-- A further reference. -/
theorem Orderly.sharePage (shared : pmm.sharePage pa = some next) : next.Orderly reserved := by
  obtain ⟨-, inside, positive, tracked, counted⟩ := sharePage_spec shared
  obtain ⟨accurate, bits⟩ := sharePage_accurate orderly.accurate shared
  have zero : ∀ p, next.refcount p = 0 ↔ pmm.refcount p = 0 := by
    intro p
    rw [counted]
    by_cases here : p = pa / pageSize
    · simp only [here, if_true]
      omega
    · simp [here]
  refine ⟨accurate, ?_, ?_, ?_⟩
  · rw [tracked]
    exact orderly.outside
  · intro p ordinary none
    rw [bits]
    exact orderly.clear p ordinary ((zero p).mp none)
  · intro p reserves
    rw [bits]
    exact ⟨(orderly.kept p reserves).1, (zero p).mpr (orderly.kept p reserves).2⟩

/-- A release of a page that is counted. -/
theorem Orderly.freePage (aligned : pa % pageSize = 0)
    (counted : 0 < pmm.refcount (pa / pageSize)) : (pmm.freePage pa).Orderly reserved := by
  have inside := orderly.lt_tracked counted
  have bits := freePage_used aligned inside counted
  have counts : ∀ p, (pmm.freePage pa).refcount p =
      if p = pa / pageSize then pmm.refcount p - 1 else pmm.refcount p := by
    intro p
    rw [freePage_refcount]
    simp [aligned, inside]
  refine ⟨freePage_accurate orderly.accurate, ?_, ?_, ?_⟩
  · rw [freePage_tracked]
    exact orderly.outside
  · intro p ordinary none
    rw [counts] at none
    rw [bits]
    by_cases here : p = pa / pageSize
    · subst here
      rw [if_pos rfl] at none
      rw [if_pos ⟨rfl, by omega⟩]
    · rw [if_neg here] at none
      rw [if_neg fun both => here both.1]
      exact orderly.clear p ordinary none
  · intro p reserves
    obtain ⟨set, none⟩ := orderly.kept p reserves
    have other : p ≠ pa / pageSize := by
      rintro rfl
      omega
    rw [bits, counts, if_neg (fun both => other both.1), if_neg other]
    exact ⟨set, none⟩

end

/-- Sharing fails only at the maximum of a counter. -/
theorem sharePage_ne_none (aligned : pa % pageSize = 0) (inside : pa / pageSize < pmm.tracked)
    (counted : 0 < pmm.refcount (pa / pageSize))
    (below : pmm.refcount (pa / pageSize) ≠ refcountMax) : pmm.sharePage pa ≠ none := by
  have open_ : ¬ (pmm.refcount (pa / pageSize) = 0 ∨
      pmm.refcount (pa / pageSize) = refcountMax) := by
    rintro (none | full)
    · omega
    · exact below full
  unfold sharePage
  rw [if_neg (not_not.mpr aligned), if_neg (Nat.not_le.mpr inside), dif_neg open_]
  exact Option.some_ne_none _

/-! ## How much is left -/

/-- The pages that an allocation can take. -/
def takable (pmm : Pmm) : Finset Nat :=
  (Finset.range pmm.tracked).filter fun page => firstPage ≤ page ∧ pmm.used page = false

/-- The number of pages that can still be allocated. -/
def available (pmm : Pmm) : Nat := pmm.takable.card

/-- The pages that can be had. -/
theorem mem_takable :
    page ∈ pmm.takable ↔ page < pmm.tracked ∧ firstPage ≤ page ∧ pmm.used page = false := by
  simp [takable]

/-- The allocator fails only when no page is left. -/
theorem available_of_allocPage_none (failed : pmm.allocPage = none) : pmm.available = 0 := by
  rw [available, Finset.card_eq_zero, Finset.eq_empty_iff_forall_notMem]
  intro page member
  obtain ⟨inside, low, clear⟩ := mem_takable.mp member
  rw [used_of_allocPage_none failed low inside] at clear
  contradiction

/-- An allocation uses one page up. -/
theorem allocPage_available (found : pmm.allocPage = some (page, next)) :
    next.available + 1 = pmm.available := by
  have spec := allocPage_spec found
  have free := (allocPage_takes found).1
  have member : page ∈ pmm.takable := mem_takable.mpr ⟨spec.inside, free.low, free.clear⟩
  have erased : next.takable = pmm.takable.erase page := by
    ext p
    rw [Finset.mem_erase, mem_takable, mem_takable, spec.tracked, allocPage_used found]
    by_cases here : p = page <;> simp [here]
  rw [available, erased, available, Finset.card_erase_add_one member]

/-- A further reference takes no page. -/
theorem sharePage_available (accurate : pmm.Accurate) (shared : pmm.sharePage pa = some next) :
    next.available = pmm.available := by
  have bits := (sharePage_accurate accurate shared).2
  obtain ⟨-, -, -, tracked, -⟩ := sharePage_spec shared
  rw [available, available, takable, takable, bits, tracked]

end Pmm

namespace Phys

variable {F : Type} {reserved : Nat → Prop} {hand hand₁ hand₂ hand₃ : Multiset Nat}
  {phys phys' : Phys F} {pa : Nat}

/-! ## Moving pages -/

/-- The references in hand and those that the rest of the kernel holds. -/
def loose (hand : Multiset Nat) (phys : Phys F) : Multiset Nat := hand + (phys.held : Multiset Nat)

/-- The bits are in order and no reference in hand is without a counter. -/
structure Solvent (reserved : Nat → Prop) (hand : Multiset Nat) (phys : Phys F) : Prop where
  /-- The allocator is in order. -/
  orderly : phys.pmm.Orderly reserved
  /-- Pages at hand are counted. -/
  enough : ∀ page, (phys.loose hand).count page ≤ phys.pmm.refcount page

/-- The counters moved by as much as the references in hand and those of the kernel. -/
structure Settles (reserved : Nat → Prop) (hand : Multiset Nat) (phys : Phys F)
    (hand' : Multiset Nat) (phys' : Phys F) : Prop where
  /-- The allocator is in order. -/
  orderly : phys'.pmm.Orderly reserved
  /-- Counters move with the hand. -/
  moved : ∀ page, phys'.pmm.refcount page + (phys.loose hand).count page =
    phys.pmm.refcount page + (phys'.loose hand').count page
  /-- The memory is as large. -/
  tracked : phys'.pmm.tracked = phys.pmm.tracked

/-- The books balance afterwards when they did before. -/
theorem Settles.solvent (settles : Settles reserved hand₁ phys hand₂ phys')
    (solvent : Solvent reserved hand₁ phys) : Solvent reserved hand₂ phys' := by
  refine ⟨settles.orderly, fun page => ?_⟩
  have moved := settles.moved page
  have enough := solvent.enough page
  omega

/-- Nothing is booked. -/
theorem Settles.refl (orderly : phys.pmm.Orderly reserved) :
    Settles reserved hand phys hand phys := ⟨orderly, fun _ => rfl, rfl⟩

/-- Bookings one after the other. -/
theorem Settles.trans {phys₁ phys₂ phys₃ : Phys F}
    (first : Settles reserved hand₁ phys₁ hand₂ phys₂)
    (second : Settles reserved hand₂ phys₂ hand₃ phys₃) :
    Settles reserved hand₁ phys₁ hand₃ phys₃ := by
  refine ⟨second.orderly, fun page => ?_, second.tracked.trans first.tracked⟩
  have one := first.moved page
  have two := second.moved page
  omega

/-- The contents of pages and the state of the file systems take no part. -/
theorem settles_contents (orderly : phys.pmm.Orderly reserved) (bytes : Nat → Nat → UInt8)
    (files : F) : Settles reserved hand phys hand { phys with bytes, files } :=
  ⟨orderly, fun _ => rfl, rfl⟩

/-- A page comes to hand. -/
theorem settles_alloc (hand : Multiset Nat) {page : Nat} {pmm : Pmm}
    (orderly : phys.pmm.Orderly reserved)
    (found : phys.pmm.allocPage = some (page, pmm)) (bytes : Nat → Nat → UInt8) :
    Settles reserved hand phys (page ::ₘ hand) { phys with pmm, bytes } := by
  have spec := Pmm.allocPage_spec found
  refine ⟨orderly.allocPage found, fun p => ?_, spec.tracked⟩
  simp only [loose, Multiset.cons_add, Multiset.count_cons, spec.counted]
  by_cases here : p = page
  · subst here
    simp only [if_true, spec.uncounted]
    omega
  · simp [here]

/-- A page that `pmm_alloc_zero_page` returned is in hand, is aligned and is not page zero. -/
theorem settles_allocZeroPage (hand : Multiset Nat) (orderly : phys.pmm.Orderly reserved)
    (found : phys.allocZeroPage = some (pa, phys')) :
    Settles reserved hand phys (pa / pageSize ::ₘ hand) phys' ∧ pa % pageSize = 0 ∧ pa ≠ 0 ∧
      pa / pageSize < phys.pmm.tracked ∧ phys.pmm.refcount (pa / pageSize) = 0 ∧
      phys'.held = phys.held := by
  unfold allocZeroPage at found
  split at found
  · contradiction
  rename_i page pmm taken
  obtain ⟨rfl, rfl⟩ := found
  have whole : page * pageSize / pageSize = page := Nat.mul_div_cancel _ (by decide)
  have low := (Pmm.allocPage_takes taken).1.low
  have spec := Pmm.allocPage_spec taken
  rw [whole]
  refine ⟨settles_alloc hand orderly taken _, Nat.mul_mod_left _ _, ?_, spec.inside, spec.uncounted,
    rfl⟩
  simp only [firstPage, pageSize] at *
  omega

/-- One page less is free. -/
theorem allocZeroPage_available (found : phys.allocZeroPage = some (pa, phys')) :
    phys'.pmm.available + 1 = phys.pmm.available := by
  unfold allocZeroPage at found
  split at found
  · contradiction
  rename_i page pmm taken
  obtain ⟨-, rfl⟩ := found
  exact Pmm.allocPage_available taken

/-- A failed request: none was free. -/
theorem available_of_allocZeroPage_none (failed : phys.allocZeroPage = none) :
    phys.pmm.available = 0 := by
  unfold allocZeroPage at failed
  split at failed
  · rename_i none
    exact Pmm.available_of_allocPage_none none
  · contradiction

/-- A page at hand is given back. -/
theorem settles_free (aligned : pa % pageSize = 0)
    (solvent : Solvent reserved (pa / pageSize ::ₘ hand) phys) :
    Settles reserved (pa / pageSize ::ₘ hand) phys hand (phys.freePage pa) := by
  have counted : 0 < phys.pmm.refcount (pa / pageSize) := by
    have enough := solvent.enough (pa / pageSize)
    simp only [loose, Multiset.cons_add, Multiset.count_cons_self] at enough
    omega
  have inside := solvent.orderly.lt_tracked counted
  refine ⟨solvent.orderly.freePage aligned counted, fun p => ?_, Pmm.freePage_tracked⟩
  show (phys.pmm.freePage pa).refcount p + _ = phys.pmm.refcount p + (loose hand _).count p
  rw [Pmm.freePage_refcount]
  simp only [loose, Multiset.cons_add, Multiset.count_cons, freePage]
  by_cases here : p = pa / pageSize
  · subst here
    simp only [aligned, inside, and_self, if_true]
    omega
  · simp [here]

/-- All pages at hand are, one by one. -/
theorem settles_freeAll (addresses : List Nat) : ∀ {phys : Phys F},
    (∀ pa ∈ addresses, pa % pageSize = 0) →
    Solvent reserved ((addresses.map (· / pageSize) : List Nat) + hand) phys →
      Settles reserved ((addresses.map (· / pageSize) : List Nat) + hand) phys hand
        (addresses.foldl freePage phys) := by
  induction addresses with
  | nil =>
    intro phys _ solvent
    simpa using Settles.refl solvent.orderly
  | cons pa rest ih =>
    intro phys aligned solvent
    simp only [map_cons, ← Multiset.cons_coe, Multiset.cons_add] at solvent ⊢
    have freed := settles_free (aligned pa mem_cons_self) solvent
    exact freed.trans (ih (fun other member => aligned other (mem_cons_of_mem _ member))
      (freed.solvent solvent))

/-- A page leaves or enters the list of what the kernel holds through the hand. -/
theorem loose_cons (page : Nat) (phys : Phys F) :
    loose hand { phys with held := page :: phys.held } = loose (page ::ₘ hand) phys := by
  simp only [loose, ← Multiset.cons_coe, Multiset.add_cons, Multiset.cons_add]

/-- One of the pages that the kernel holds. -/
theorem held_split {position page : Nat} (found : phys.held[position]? = some page) :
    (phys.held : Multiset Nat) = page ::ₘ (phys.held.eraseIdx position : Multiset Nat) := by
  obtain ⟨inside, value⟩ := List.getElem?_eq_some_iff.mp found
  rw [Multiset.cons_coe, Multiset.coe_eq_coe, ← value]
  exact (List.getElem_cons_eraseIdx_perm inside).symm

/-- The rest of the kernel takes or gives a page. -/
theorem settles_kernelPage (solvent : Solvent reserved hand phys) (use : KernelPage) :
    Settles reserved hand phys hand (phys.kernelPage use) := by
  cases use with
  | alloc =>
    rw [kernelPage]
    split
    · exact .refl solvent.orderly
    rename_i page pmm taken
    have settled := settles_alloc hand solvent.orderly taken phys.bytes
    refine ⟨settled.orderly, fun p => ?_, settled.tracked⟩
    rw [loose_cons page { phys with pmm }]
    exact settled.moved p
  | free position =>
    rw [kernelPage]
    split
    · exact .refl solvent.orderly
    rename_i page found
    have whole : page * pageSize / pageSize = page := Nat.mul_div_cancel _ (by decide)
    let lent : Phys F := { phys with held := phys.held.eraseIdx position }
    have same : lent.loose (page ::ₘ hand) = phys.loose hand := by
      simp only [lent, loose, held_split found, Multiset.cons_add, Multiset.add_cons]
    have inHand : Solvent reserved (page * pageSize / pageSize ::ₘ hand) lent := by
      rw [whole]
      exact ⟨solvent.orderly, fun p => by rw [same]; exact solvent.enough p⟩
    have settled := settles_free (Nat.mul_mod_left page pageSize) inHand
    rw [whole] at settled
    refine ⟨settled.orderly, fun p => ?_, settled.tracked⟩
    have moved := settled.moved p
    rw [same] at moved
    exact moved

/-- It does so with several. -/
theorem settles_kernelPages (solvent : Solvent reserved hand phys) (next : F × List KernelPage) :
    Settles reserved hand phys hand (phys.kernelPages next) := by
  have loop : ∀ (uses : List KernelPage) (phys : Phys F), Solvent reserved hand phys →
      Settles reserved hand phys hand (uses.foldl kernelPage phys) := by
    intro uses
    induction uses with
    | nil => exact fun _ solvent => .refl solvent.orderly
    | cons use rest ih =>
      intro phys solvent
      have first := settles_kernelPage solvent use
      exact first.trans (ih _ (first.solvent solvent))
  have stored : Settles reserved hand phys hand { phys with files := next.1 } :=
    settles_contents solvent.orderly phys.bytes next.1
  exact stored.trans (loop next.2 _ (stored.solvent solvent))

end Phys

/-! ## Area lists -/

/-- The chunks of a list are pages that the allocator handed out. -/
def VmaList.Placed (list : VmaList) : Prop := ∀ pa ∈ list.chunkPa, pa ≠ 0 ∧ pa % pageSize = 0

section Lists

variable {F : Type} {reserved : Nat → Prop} {hand : Multiset Nat} {phys : Phys F}
  {list : VmaList} (host : FileHost F)

open Phys

/-- File references cost no page. -/
theorem settles_nodes {hand₁ : Multiset Nat} {phys₁ : Phys F}
    (solvent : Solvent reserved hand₁ phys₁) :
    NodeKeeps (physVmaHost host) (Settles reserved hand₁ phys₁ hand) where
  retain settled := settled.trans (settles_kernelPages (settled.solvent solvent) _)
  release settled := settled.trans (settles_kernelPages (settled.solvent solvent) _)
  note settled := settled.trans (settles_contents settled.orderly _ _)

/-- The chunks of a destroyed list come back. -/
theorem vmaListDestroy_settles (placed : list.Placed)
    (solvent : Solvent reserved (list.pages + hand) phys) :
    Settles reserved (list.pages + hand) phys hand
      (vmaListDestroy (physVmaHost host) list phys) := by
  have released := (settles_nodes host solvent).releaseSlots list.slots (.refl solvent.orderly)
  -- No chunk is at address zero, so every one of them is given back.
  have plain : ∀ (chunks : List Nat) (phys : Phys F), (∀ pa ∈ chunks, pa ≠ 0) →
      chunks.foldl (fun world pa => (physVmaHost host).chunkFree pa world) phys =
        chunks.foldl .freePage phys := by
    intro chunks
    induction chunks with
    | nil => exact fun _ _ => rfl
    | cons pa rest ih =>
      intro phys nonzero
      rw [foldl_cons, foldl_cons, ih _ fun other member =>
        nonzero other (mem_cons_of_mem _ member)]
      simp only [physVmaHost, if_neg (nonzero pa mem_cons_self)]
  refine released.trans ?_
  show Settles _ _ _ _ (list.chunkPa.foldl _ _)
  rw [plain list.chunkPa _ fun pa member => (placed pa member).1]
  exact settles_freeAll list.chunkPa (fun pa member => (placed pa member).2)
    (released.solvent solvent)

/-- Every list that the clone loop reaches has been settled. -/
theorem settles_rule (solvent : Solvent reserved hand phys) :
    ListRule (physVmaHost host) (fun _ => True) fun list phys' =>
      Settles reserved hand phys (list.pages + hand) phys' ∧ list.Placed := by
  apply ListRule.of_chunks fun chunks phys' =>
    Settles reserved hand phys ((chunks.map (· / pageSize) : List Nat) + hand) phys' ∧
      ∀ pa ∈ chunks, pa ≠ 0 ∧ pa % pageSize = 0
  · intro chunks
    have nodes : NodeKeeps (physVmaHost host) (Settles reserved hand phys
        ((chunks.map (· / pageSize) : List Nat) + hand)) := settles_nodes host solvent
    exact ⟨fun held => ⟨nodes.retain held.1, held.2⟩, fun held => ⟨nodes.release held.1, held.2⟩,
      fun held => ⟨nodes.note held.1, held.2⟩⟩
  · intro chunks phys₁ phys₂ pa held taken
    obtain ⟨settled, aligned, nonzero, -⟩ := settles_allocZeroPage _ held.1.orderly taken
    rw [pages_append, Multiset.cons_add]
    refine ⟨held.1.trans settled, fun other member => ?_⟩
    rcases mem_append.mp member with old | new
    · exact held.2 other old
    · rw [mem_singleton.mp new]
      exact ⟨nonzero, aligned⟩

/-- A cloned list has its own chunks, or none. -/
theorem vmaClone_settles (list : VmaList) (solvent : Solvent reserved hand phys) :
    match vmaClone (physVmaHost host) list phys with
    | .ok (next, phys') => Settles reserved hand phys (next.pages + hand) phys' ∧ next.Placed
    | .error phys' => Settles reserved hand phys hand phys' := by
  have empty : Settles reserved hand phys (VmaList.init.pages + hand) phys ∧
      VmaList.init.Placed := by
    refine ⟨?_, fun _ member => absurd member not_mem_nil⟩
    simpa using Settles.refl solvent.orderly
  have built := (settles_rule host solvent).addParts (list.slots.filter (·.used))
    (fun _ _ => trivial) empty
  unfold vmaClone
  split <;> rename_i outcome <;> rw [outcome] at built
  · exact built
  · obtain ⟨next, between, ⟨settled, placed⟩, rfl⟩ := built
    exact settled.trans (vmaListDestroy_settles host placed (settled.solvent solvent))

end Lists

end Spore.Mm
