import Spore.Lib.RefCount
import Spore.Mm.Vma

/-!
# Physical pages (`mm/pmm.c`)

The allocator keeps one bitmap bit and one reference count for every page below
`tracked_page_count`. The bitmap is given bit by bit; scans still go word by word, as the
source does. Physical addresses are natural numbers and a page is its address divided by the
page size. The counters that only feed statistics are left out.

`Phys` puts the allocator together with what the pages hold, the file systems and the pages
that the rest of the kernel holds.
-/

namespace Spore.Mm

open Spore.Lib Multiset

/-- `align_down` to a page. -/
def alignDown (value : Nat) : Nat := value - value % pageSize

/-- `align_up` to a page, with the wrap-around of 64-bit arithmetic. -/
def alignUp (value : Nat) : Nat := alignDown ((value + (pageSize - 1)) % 2 ^ 64)

/-- The bits of a word of the bitmap. -/
def bitsPerWord : Nat := 64

/-- The first page that the allocator hands out: `0x100000 / PAGE_SIZE`. -/
def firstPage : Nat := 256

/-- The allocator's state. A page whose bit is clear is not referenced. -/
structure Pmm where
  /-- `tracked_page_count`. -/
  tracked : Nat
  /-- `bitmap`: set for a page in use. -/
  used : Nat → Bool
  /-- The references to each page. -/
  refcount : Nat → Nat
  /-- `free_page_count`. -/
  freeCount : Nat
  /-- `next_free_page`. -/
  nextFree : Nat
  /-- A free page has no reference. -/
  clear_uncounted : ∀ page, used page = false → refcount page = 0

section

variable {start stop pa p page : Nat} {pmm : Pmm}

namespace Pmm

/-- The bit is set, and a page without references has one. -/
def setUsed (pmm : Pmm) (page : Nat) : Pmm :=
  if pmm.tracked ≤ page then pmm
  else
    { pmm with
      used := fun p => if p = page then true else pmm.used p
      refcount := fun p =>
        if p = page ∧ pmm.refcount page = 0 then 1 else pmm.refcount p
      freeCount := if pmm.used page then pmm.freeCount else pmm.freeCount - 1
      clear_uncounted := by
        intro p clear
        by_cases here : p = page
        · simp [here] at clear
        · simp only [here, if_false] at clear
          simp [here, pmm.clear_uncounted p clear] }

/-- The bit is cleared, a set one is counted as free. -/
def setFree (pmm : Pmm) (page : Nat) : Pmm :=
  if pmm.tracked ≤ page then pmm
  else
    { pmm with
      used := fun p => if p = page then false else pmm.used p
      refcount := fun p => if p = page then 0 else pmm.refcount p
      freeCount := if pmm.used page then pmm.freeCount + 1 else pmm.freeCount
      clear_uncounted := by
        intro p clear
        by_cases here : p = page
        · simp [here]
        · simp only [here, if_false] at clear ⊢
          exact pmm.clear_uncounted p clear }

/-- `free_bits` of a word of the scan, one bit at a time: the bit is clear, and in the first
and the last word it lies inside the range. -/
def freeBit (pmm : Pmm) (start stop word bit : Nat) : Bool :=
  !pmm.used (word * bitsPerWord + bit) &&
  (decide (word ≠ start / bitsPerWord) || decide (start % bitsPerWord ≤ bit)) &&
  (decide (word ≠ (stop - 1) / bitsPerWord) || decide (stop % bitsPerWord = 0) ||
    decide (bit < stop % bitsPerWord))

/-- The loop of `alloc_page_in_range` over the words of the range. -/
def scanWords (pmm : Pmm) (start stop : Nat) : (remaining word : Nat) → Option Nat
  | 0, _ => none
  | remaining + 1, word =>
    match (List.range bitsPerWord).find? (pmm.freeBit start stop word) with
    | some bit => some (word * bitsPerWord + bit)
    | none => scanWords pmm start stop remaining (word + 1)

/-- `alloc_page_in_range`, as a page instead of its address. -/
def allocPageInRange (pmm : Pmm) (start stop : Nat) : Option (Nat × Pmm) :=
  let stop := if pmm.tracked < stop then pmm.tracked else stop
  if stop ≤ start then none
  else
    let first := start / bitsPerWord
    let last := (stop - 1) / bitsPerWord
    match pmm.scanWords start stop (last + 1 - first) first with
    | none => none
    | some page => some (page, { pmm.setUsed page with nextFree := page + 1 })

/-- `next_free_page` as `pmm_alloc_page` corrects it. -/
def firstCandidate (pmm : Pmm) : Nat :=
  if pmm.nextFree < firstPage ∨ pmm.tracked ≤ pmm.nextFree then firstPage else pmm.nextFree

/-- `pmm_alloc_page`. A failed call also corrects `next_free_page`; the next call would do the
same, so a failure is modelled as no change. -/
def allocPage (pmm : Pmm) : Option (Nat × Pmm) :=
  match pmm.allocPageInRange pmm.firstCandidate pmm.tracked with
  | some found => some found
  | none => pmm.allocPageInRange firstPage pmm.firstCandidate

/-- The counter of a page one lower, while another reference remains. -/
def lower (pmm : Pmm) (page : Nat) : Pmm :=
  { pmm with
    refcount := fun p => if p = page then pmm.refcount page - 1 else pmm.refcount p
    clear_uncounted := by
      intro p clear
      have none := pmm.clear_uncounted p clear
      by_cases here : p = page
      · subst here; simp [none]
      · simp [here, none] }

/-- `pmm_free_page`. -/
def freePage (pmm : Pmm) (pa : Nat) : Pmm :=
  if pa % pageSize ≠ 0 then pmm
  else
    let page := pa / pageSize
    if pmm.tracked ≤ page then pmm
    else if pmm.refcount page = 0 then pmm
    else if pmm.refcount page - 1 = 0 then
      let freed := (pmm.lower page).setFree page
      { freed with nextFree := if page < freed.nextFree then page else freed.nextFree }
    else pmm.lower page

/-- `UINT16_MAX`. -/
def refcountMax : Nat := 65535

/-- `pmm_share_page`. -/
def sharePage (pmm : Pmm) (pa : Nat) : Option Pmm :=
  if pa % pageSize ≠ 0 then none
  else
    let page := pa / pageSize
    if pmm.tracked ≤ page then none
    else if shared : pmm.refcount page = 0 ∨ pmm.refcount page = refcountMax then none
    else some
      { pmm with
        refcount := fun p => if p = page then pmm.refcount page + 1 else pmm.refcount p
        clear_uncounted := by
          intro p clear
          have none := pmm.clear_uncounted p clear
          have other : p ≠ page := fun here => shared (Or.inl (here ▸ none))
          simp [other, none] }

/-- `pmm_refcount`. -/
def refcountOf (pmm : Pmm) (pa : Nat) : Nat :=
  if pa % pageSize ≠ 0 then 0
  else if pmm.tracked ≤ pa / pageSize then 0
  else pmm.refcount (pa / pageSize)

/-- `pmm_is_last_ref`. -/
def isLastRef (pmm : Pmm) (pa : Nat) : Bool := pmm.refcountOf pa == 1

/-- The last reference is one reference. -/
theorem refcount_of_isLastRef {pmm : Pmm} {pa : Nat} (last : pmm.isLastRef pa) :
    pmm.refcount (pa / pageSize) = 1 := by
  rw [isLastRef, beq_iff_eq, refcountOf] at last
  split at last
  · contradiction
  · split at last
    · contradiction
    · exact last

/-! ## What each call does to the counters -/

/-- A page found by the scan has its bit clear and lies in the range. -/
theorem scanWords_spec (pmm : Pmm) (proper : start < stop) :
    ∀ remaining word page, start / bitsPerWord ≤ word →
      word + remaining = (stop - 1) / bitsPerWord + 1 →
      pmm.scanWords start stop remaining word = some page →
      pmm.used page = false ∧ start ≤ page ∧ page < stop := by
  intro remaining
  induction remaining with
  | zero => intro word page _ _ found; simp [scanWords] at found
  | succ remaining ih =>
    intro word page first bound found
    rw [scanWords] at found
    cases scan : (List.range bitsPerWord).find? (pmm.freeBit start stop word) with
    | none =>
      rw [scan] at found
      exact ih (word + 1) page (by omega) (by omega) found
    | some bit =>
      rw [scan] at found
      obtain rfl : word * bitsPerWord + bit = page := by simpa using found
      have inWord : bit < bitsPerWord := List.mem_range.mp (List.mem_of_find?_eq_some scan)
      have isFree : pmm.freeBit start stop word bit := by simpa using List.find?_some scan
      simp only [freeBit, Bool.and_eq_true, Bool.or_eq_true, Bool.not_eq_true',
        decide_eq_true_eq] at isFree
      obtain ⟨⟨clear, inFirst⟩, inLast⟩ := isFree
      refine ⟨clear, ?_⟩
      simp only [bitsPerWord] at *
      omega

/-- What a successful search of a range does. -/
theorem allocPageInRange_takes {pmm next : Pmm} {start stop page : Nat}
    (found : pmm.allocPageInRange start stop = some (page, next)) :
    start ≤ page ∧ page < pmm.tracked ∧ pmm.used page = false ∧
      next = { pmm.setUsed page with nextFree := page + 1 } := by
  unfold allocPageInRange at found
  dsimp only at found
  set last := if pmm.tracked < stop then pmm.tracked else stop with last_eq
  have below : last ≤ pmm.tracked := by split at last_eq <;> omega
  split at found
  · contradiction
  split at found
  · contradiction
  rename_i taken scan
  obtain ⟨rfl, rfl⟩ : taken = page ∧ { pmm.setUsed taken with nextFree := taken + 1 } = next := by
    simpa using found
  have range : start / bitsPerWord ≤ (last - 1) / bitsPerWord := Nat.div_le_div_right (by omega)
  obtain ⟨clear, low, high⟩ :=
    pmm.scanWords_spec (by omega) _ _ taken (Nat.le_refl _) (by omega) scan
  exact ⟨low, by omega, clear, rfl⟩

/-- The page that is found was free. -/
theorem allocPage_found {pmm next : Pmm} {page : Nat} (found : pmm.allocPage = some (page, next)) :
    firstPage ≤ page ∧ page < pmm.tracked ∧ pmm.used page = false ∧
      next = { pmm.setUsed page with nextFree := page + 1 } := by
  unfold allocPage at found
  split at found
  · rename_i first
    obtain ⟨after, rest⟩ := allocPageInRange_takes (first.trans found)
    refine ⟨Nat.le_trans ?_ after, rest⟩
    unfold firstCandidate
    split <;> omega
  · exact allocPageInRange_takes found

/-- A successful allocation takes a page that nothing refers to and counts one reference. -/
structure Allocated (pmm : Pmm) (page : Nat) (next : Pmm) : Prop where
  /-- The page is in the memory. -/
  inside : page < pmm.tracked
  /-- It had no reference. -/
  uncounted : pmm.refcount page = 0
  /-- It has one. -/
  counted : next.refcount = fun p => if p = page then 1 else pmm.refcount p
  /-- The memory is as large. -/
  tracked : next.tracked = pmm.tracked

/-- It is taken with one reference. -/
theorem allocPage_spec {pmm next : Pmm} {page : Nat} (found : pmm.allocPage = some (page, next)) :
    Allocated pmm page next := by
  obtain ⟨_, inside, clear, rfl⟩ := allocPage_found found
  have none := pmm.clear_uncounted page clear
  refine ⟨inside, none, ?_, ?_⟩
  · funext p
    show (pmm.setUsed page).refcount p = _
    rw [setUsed, if_neg (Nat.not_le.mpr inside)]
    simp [none]
  · show (pmm.setUsed page).tracked = _
    rw [setUsed, if_neg (Nat.not_le.mpr inside)]

/-- Freeing lowers one counter by one at most and touches no other. -/
theorem freePage_refcount :
    (pmm.freePage pa).refcount p =
      if p = pa / pageSize ∧ pa % pageSize = 0 ∧ pa / pageSize < pmm.tracked then
        pmm.refcount p - 1
      else pmm.refcount p := by
  unfold freePage
  by_cases aligned : pa % pageSize ≠ 0
  · simp [aligned]
  by_cases outside : pmm.tracked ≤ pa / pageSize
  · simp [aligned, outside]
  have inside : pa / pageSize < pmm.tracked := Nat.not_le.mp outside
  simp only [if_false, outside, not_not.mp aligned, inside, and_true, ne_eq, not_true_eq_false]
  by_cases none : pmm.refcount (pa / pageSize) = 0
  · by_cases here : p = pa / pageSize <;> simp [here, none]
  by_cases last : pmm.refcount (pa / pageSize) - 1 = 0
  · simp only [none, if_false, last, if_true]
    rw [setFree, if_neg (show ¬(pmm.lower _).tracked ≤ _ from outside)]
    by_cases here : p = pa / pageSize <;> simp [here, last, lower]
  · by_cases here : p = pa / pageSize <;> simp [here, none, last, lower]

/-- The range stays. -/
@[simp] theorem freePage_tracked : (pmm.freePage pa).tracked = pmm.tracked := by
  unfold freePage
  dsimp only
  split_ifs <;> simp [setFree, lower] <;> split <;> rfl

/-- Sharing raises one counter by one and touches no other. -/
theorem sharePage_spec {pmm next : Pmm} {pa : Nat} (shared : pmm.sharePage pa = some next) :
    pa % pageSize = 0 ∧ pa / pageSize < pmm.tracked ∧ 0 < pmm.refcount (pa / pageSize) ∧
      next.tracked = pmm.tracked ∧
      next.refcount = fun p =>
        if p = pa / pageSize then pmm.refcount (pa / pageSize) + 1 else pmm.refcount p := by
  unfold sharePage at shared
  dsimp only at shared
  split at shared
  · contradiction
  split at shared
  · contradiction
  split at shared
  · contradiction
  · rename_i aligned inside counted
    cases shared
    exact ⟨not_not.mp aligned, Nat.not_le.mp inside, by omega, rfl, rfl⟩

end Pmm

/-! ## Pages, their contents and the rest of the kernel -/

/-- What the rest of the kernel (file systems, sockets, scratch buffers) does with the
allocator: it takes pages and gives back pages that it holds. -/
inductive KernelPage where
  | alloc
  | free (position : Nat)
  deriving Repr, DecidableEq

/-- What the memory code calls in the file systems. Calls that take or give back pages say so
in the list that they return. -/
structure FileHost (F : Type) where
  /-- The back ends of `vfs_read_uncached`: the bytes read. -/
  readUncached : VfsNode → (off len : Nat) → F → List UInt8 × F
  /-- The back ends of `vfs_write`: their result. -/
  write : VfsNode → (off : Nat) → List UInt8 → F → Int × F × List KernelPage
  /-- `vfs_node_write_sealed`. -/
  writeSealed : VfsNode → F → Bool
  /-- `vfs_retain_node`. -/
  retainNode : VfsNode → F → F × List KernelPage
  /-- `vfs_release_node`. -/
  releaseNode : VfsNode → F → F × List KernelPage
  /-- `vfs_note_shared_writable_mapping`. -/
  noteSharedWritableMapping : VfsNode → Bool → F → F

/-- Physical memory and what is kept outside the address spaces. -/
structure Phys (F : Type) where
  /-- The allocator. -/
  pmm : Pmm
  /-- Contents of the pages. -/
  bytes : Nat → Nat → UInt8
  /-- Pages that the rest of the kernel holds. -/
  held : List Nat
  /-- The state of the file systems. -/
  files : F

namespace Phys

variable {F : Type}

/-- `pmm_alloc_zero_page`: the address of a zeroed page. -/
def allocZeroPage (phys : Phys F) : Option (Nat × Phys F) :=
  match phys.pmm.allocPage with
  | none => none
  | some (page, pmm) => some (page * pageSize,
      { phys with pmm, bytes := fun p => if p = page then fun _ => 0 else phys.bytes p })

/-- `pmm_free_page`. -/
def freePage (phys : Phys F) (pa : Nat) : Phys F := { phys with pmm := phys.pmm.freePage pa }

/-- One use of the allocator by the rest of the kernel. -/
def kernelPage (phys : Phys F) : KernelPage → Phys F
  | .alloc => match phys.pmm.allocPage with
    | none => phys
    | some (page, pmm) => { phys with pmm, held := page :: phys.held }
  | .free position => match phys.held[position]? with
    | none => phys
    | some page =>
      { phys with
        pmm := phys.pmm.freePage (page * pageSize)
        held := phys.held.eraseIdx position }

/-- Several uses of the allocator, after the file systems moved to a new state. -/
def kernelPages (phys : Phys F) (next : F × List KernelPage) : Phys F :=
  next.2.foldl kernelPage { phys with files := next.1 }

/-- References are accounted for by the owners, the hand and the pages that the kernel
holds. -/
def Accounts {Owner : Type} (refs : Owner → Nat → Prop) (hand : Multiset Nat)
    (phys : Phys F) : Prop :=
  Counted refs (hand + (phys.held : Multiset Nat)) phys.pmm.refcount

/-- A change of physical memory in which the owners take no part: the accounts stay right, and
a page that some owner has for itself stays so. -/
structure Trades {Owner : Type} (refs : Owner → Nat → Prop) (hand : Multiset Nat)
    (phys : Phys F) (hand' : Multiset Nat) (phys' : Phys F) : Prop where
  /-- The counters cover the references. -/
  accounts : Accounts refs hand' phys'
  /-- A page with one owner keeps one. -/
  exclusive : ∀ owner page, refs owner page → phys.pmm.refcount page = 1 →
    phys'.pmm.refcount page = 1
  /-- The memory is as large. -/
  tracked : phys'.pmm.tracked = phys.pmm.tracked
  /-- Owned pages keep their bytes. -/
  contents : ∀ owner page, refs owner page → phys'.bytes page = phys.bytes page

section Trades

variable {Owner : Type} {refs : Owner → Nat → Prop} {hand : Multiset Nat} {phys : Phys F}

/-- Trades one after the other. -/
theorem Trades.trans {hand₁ hand₂ hand₃ : Multiset Nat} {phys₁ phys₂ phys₃ : Phys F}
    (first : Trades refs hand₁ phys₁ hand₂ phys₂)
    (second : Trades refs hand₂ phys₂ hand₃ phys₃) : Trades refs hand₁ phys₁ hand₃ phys₃ :=
  ⟨second.accounts,
    fun owner page held single => second.exclusive owner page held
      (first.exclusive owner page held single),
    second.tracked.trans first.tracked,
    fun owner page held => (second.contents owner page held).trans
      (first.contents owner page held)⟩

/-- A new page leaves the counters of pages in use alone. -/
theorem allocZeroPage_counts {pa : Nat} {next : Phys F}
    (found : phys.allocZeroPage = some (pa, next)) {page : Nat}
    (inUse : phys.pmm.refcount page ≠ 0) : next.pmm.refcount page = phys.pmm.refcount page := by
  unfold allocZeroPage at found
  cases taken : phys.pmm.allocPage with
  | none => rw [taken] at found; contradiction
  | some result =>
    obtain ⟨fresh, pmm⟩ := result
    rw [taken] at found
    obtain ⟨-, rfl⟩ := found
    have spec := Pmm.allocPage_spec taken
    have different : page ≠ fresh := by
      rintro rfl
      exact inUse spec.uncounted
    simp [spec.counted, different]

/-- Giving a page of the hand back lowers no counter that an owner relies on. -/
theorem trades_free (accounts : Accounts refs (pa / pageSize ::ₘ hand) phys) :
    Trades refs (pa / pageSize ::ₘ hand) phys hand (phys.freePage pa) := by
  refine ⟨?_, ?_, Pmm.freePage_tracked, fun _ _ _ => rfl⟩
  · have counted : Counted refs (pa / pageSize ::ₘ (hand + (phys.held : Multiset Nat)))
        phys.pmm.refcount := by
      rw [← cons_add]; exact accounts
    refine .give counted ?_ ?_
    · show _ ≤ (phys.pmm.freePage pa).refcount _ + 1
      rw [Pmm.freePage_refcount]
      split <;> omega
    · intro other different
      show _ ≤ (phys.pmm.freePage pa).refcount other
      rw [Pmm.freePage_refcount, if_neg (fun same => different same.1)]
  · intro owner other held single
    have different : other ≠ pa / pageSize := by
      rintro rfl
      have two := Counted.two_of_owner_hand accounts held (mem_add.mpr (.inl (mem_cons_self _ _)))
      omega
    show (phys.pmm.freePage pa).refcount other = 1
    rw [Pmm.freePage_refcount, if_neg (fun same => different same.1), single]

section

variable (accounts : Accounts refs hand phys)

include accounts

/-- Nothing is traded. -/
theorem Trades.refl : Trades refs hand phys hand phys :=
  ⟨accounts, fun _ _ _ single => single, rfl, fun _ _ _ => rfl⟩

/-- The state of the file systems takes no part in accounting. -/
theorem trades_files (files : F) : Trades refs hand phys hand { phys with files } :=
  ⟨accounts, fun _ _ _ single => single, rfl, fun _ _ _ => rfl⟩

/-- A new page is in hand and was nobody's; what is written into it nobody else sees. -/
theorem trades_alloc {page : Nat} {pmm : Pmm}
    (found : phys.pmm.allocPage = some (page, pmm)) {bytes : Nat → Nat → UInt8}
    (elsewhere : ∀ other, other ≠ page → bytes other = phys.bytes other) :
    Trades refs hand phys (page ::ₘ hand) { phys with pmm, bytes } := by
  have spec := Pmm.allocPage_spec found
  have different {owner : Owner} {other : Nat} (held : refs owner other) : other ≠ page := by
    have positive : 0 < phys.pmm.refcount other := Counted.pos_of_owner accounts held
    rintro rfl
    rw [spec.uncounted] at positive
    exact absurd positive (Nat.lt_irrefl 0)
  refine ⟨?_, ?_, spec.tracked, fun owner other held => elsewhere other (different held)⟩
  · show Counted refs (page ::ₘ hand + _) pmm.refcount
    rw [cons_add, spec.counted]
    refine .take accounts page ?_ ?_
    · simp [spec.uncounted]
    · intro other different
      simp [different]
  · intro owner other held single
    show pmm.refcount other = 1
    simp [spec.counted, different held, single]

/-- A zeroed page comes to hand. -/
theorem trades_allocZeroPage {pa : Nat} {next : Phys F}
    (found : phys.allocZeroPage = some (pa, next)) :
    Trades refs hand phys (pa / pageSize ::ₘ hand) next ∧
      next.pmm.refcount (pa / pageSize) = 1 ∧ pa % pageSize = 0 ∧
      pa / pageSize < phys.pmm.tracked := by
  unfold allocZeroPage at found
  cases taken : phys.pmm.allocPage with
  | none => rw [taken] at found; contradiction
  | some result =>
    obtain ⟨page, pmm⟩ := result
    rw [taken] at found
    obtain ⟨rfl, rfl⟩ := found
    have spec := Pmm.allocPage_spec taken
    have whole : page * pageSize / pageSize = page := Nat.mul_div_cancel _ (by decide)
    rw [whole]
    refine ⟨trades_alloc accounts taken fun other new => if_neg new, ?_,
      Nat.mul_mod_left _ _, spec.inside⟩
    simp [spec.counted]

/-- The rest of the kernel trades pages of its own. -/
theorem trades_kernelPage (use : KernelPage) :
    Trades refs hand phys hand (phys.kernelPage use) := by
  cases use with
  | alloc =>
    rw [kernelPage]
    cases taken : phys.pmm.allocPage with
    | none => exact .refl accounts
    | some result =>
      have traded := trades_alloc accounts taken fun _ _ => rfl
      refine ⟨?_, traded.exclusive, traded.tracked, traded.contents⟩
      have moved := traded.accounts
      simp only [Accounts, cons_add] at moved
      simpa only [Accounts, ← cons_coe, add_cons] using moved
  | free position =>
    rw [kernelPage]
    cases found : phys.held[position]? with
    | none => exact .refl accounts
    | some page =>
      have whole : page * pageSize / pageSize = page := Nat.mul_div_cancel _ (by decide)
      have inside : position < phys.held.length := (List.getElem?_eq_some_iff.mp found).1
      have split : (phys.held : Multiset Nat) =
          page ::ₘ (phys.held.eraseIdx position : Multiset Nat) := by
        obtain ⟨_, value⟩ := List.getElem?_eq_some_iff.mp found
        rw [cons_coe, coe_eq_coe, ← value]
        exact (List.getElem_cons_eraseIdx_perm inside).symm
      -- The freed page leaves the kernel's list and passes through the hand.
      let lent : Phys F := { phys with held := phys.held.eraseIdx position }
      have inHand : Accounts refs (page * pageSize / pageSize ::ₘ hand) lent := by
        rw [whole]
        have moved := accounts
        rw [Accounts, split, add_cons] at moved
        simpa only [Accounts, cons_add] using moved
      have traded := trades_free inHand
      exact ⟨traded.accounts, traded.exclusive, traded.tracked, traded.contents⟩

/-- The rest of the kernel trades for itself. -/
theorem trades_kernelPages (next : F × List KernelPage) :
    Trades refs hand phys hand (phys.kernelPages next) := by
  have loop : ∀ (uses : List KernelPage) (phys : Phys F), Accounts refs hand phys →
      Trades refs hand phys hand (uses.foldl kernelPage phys) := by
    intro uses
    induction uses with
    | nil => exact fun _ accounts => .refl accounts
    | cons use rest ih =>
      intro phys accounts
      have first := trades_kernelPage accounts use
      exact first.trans (ih _ first.accounts)
  exact (trades_files accounts next.1).trans (loop next.2 _ accounts)

end

/-- Giving several pages of the hand back. -/
theorem trades_freeAll (addresses : List Nat) : ∀ {phys : Phys F},
    Accounts refs ((addresses.map (· / pageSize) : List Nat) + hand) phys →
      Trades refs ((addresses.map (· / pageSize) : List Nat) + hand) phys hand
        (addresses.foldl freePage phys) := by
  induction addresses with
  | nil =>
    intro phys accounts
    simpa using Trades.refl accounts
  | cons pa rest ih =>
    intro phys accounts
    simp only [List.map_cons, ← cons_coe, cons_add] at accounts ⊢
    have freed := trades_free accounts
    exact freed.trans (ih freed.accounts)

end Trades

end Phys

end

end Spore.Mm
