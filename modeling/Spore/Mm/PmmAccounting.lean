import Mathlib.Algebra.Order.BigOperators.Group.Finset
import Spore.Lib.Run
import Spore.Mm.Pmm

/-!
# The accounts of the page allocator (`pmm_init` and every later call)

`pmm_init` reads the memory map, puts the bitmap and the counters into the first usable region
that holds them and marks the pages below one megabyte and its own pages as used. The accounts
of the allocator are right from then on, whatever is called: the number of free pages is the
number of clear bits, and an allocation takes clear bits at or above page 256 only. The pages
of the allocator itself are held by one reference each, as any other page is. An allocation fails
only when what it was asked for does not exist.
-/

namespace Spore.Mm

open Pmm

variable {pmm next : Pmm} {page count p tracked pa : Nat}

open Spore.Lib

/-- `enum spore_memmap_type`. -/
inductive MemmapType where
  | usable
  | reserved
  | acpiReclaimable
  | acpiNvs
  | mmio
  | bootloaderReclaimable
  deriving Repr, DecidableEq

/-- `struct spore_memmap_entry`. -/
structure MemmapEntry where
  /-- The first byte. -/
  base : Nat
  /-- The number of bytes. -/
  length : Nat
  /-- Whether the kernel may use it. -/
  type : MemmapType
  deriving Repr, DecidableEq

namespace MemmapEntry

/-- The first whole page of an entry, as an address. -/
def start (entry : MemmapEntry) : Nat := alignUp entry.base

/-- The end of the last whole page of an entry, with the wrap-around of 64-bit arithmetic. -/
def stop (entry : MemmapEntry) : Nat := alignDown ((entry.base + entry.length) % 2 ^ 64)

/-- The address at which `find_metadata_region` starts in an entry. -/
def metadataStart (entry : MemmapEntry) : Nat := max entry.start 0x100000

end MemmapEntry

/-- One round of `highest_usable_end`. -/
def raiseUsableEnd (highest : Nat) (entry : MemmapEntry) : Nat :=
  if entry.type = .usable ∧ entry.start < entry.stop ∧ highest < entry.stop then entry.stop
  else highest

/-- The end of the highest usable entry. -/
def highestUsableEnd (memmap : List MemmapEntry) : Nat := memmap.foldl raiseUsableEnd 0

/-- The first usable entry with room for the tables. -/
def findMetadataRegion (memmap : List MemmapEntry) (bytes : Nat) : Option Nat :=
  (memmap.find? fun entry =>
    decide (entry.type = .usable ∧ entry.metadataStart < entry.stop ∧
      bytes ≤ entry.stop - entry.metadataStart)).map MemmapEntry.metadataStart

namespace Pmm

/-- The allocator before any page is given to it: every bit set and every counter zero. -/
def blank (tracked : Nat) : Pmm where
  tracked := tracked
  used := fun _ => true
  refcount := fun _ => 0
  freeCount := 0
  nextFree := firstPage
  clear_uncounted := fun _ clear => absurd clear (by decide)

/-- The loop of `pmm_init` over the pages of one entry. -/
def freeUsable (pmm : Pmm) (entry : MemmapEntry) : Pmm :=
  if entry.type = .usable then
    (List.range' (entry.start / pageSize) (entry.stop / pageSize - entry.start / pageSize)).foldl
      setFree pmm
  else pmm

/-- A run of `set_used`. -/
def setUsedRange (pmm : Pmm) (start count : Nat) : Pmm :=
  (List.range' start count).foldl setUsed pmm

end Pmm

/-- The allocator together with the pages of its bitmap and counters. -/
structure PmmBoot where
  /-- The allocator. -/
  pmm : Pmm
  /-- The first page of its tables. -/
  metadataStart : Nat
  /-- The number of pages they take. -/
  metadataCount : Nat

/-- The bytes of the bitmap and the counters, in whole pages. -/
def metadataBytes (tracked : Nat) : Nat :=
  alignUp ((tracked + (bitsPerWord - 1)) / bitsPerWord * 8 + tracked * 2)

/-- `pmm_init`, in the kernel's own build. -/
def pmmInit (memmap : List MemmapEntry) : PmmBoot :=
  let tracked := highestUsableEnd memmap / pageSize
  if tracked = 0 then ⟨Pmm.blank 0, 0, 0⟩
  else
    match findMetadataRegion memmap (metadataBytes tracked) with
    | none => ⟨Pmm.blank 0, 0, 0⟩
    | some pa =>
      let start := pa / pageSize
      let count := metadataBytes tracked / pageSize
      let freed := memmap.foldl Pmm.freeUsable (Pmm.blank tracked)
      ⟨(freed.setUsedRange 0 firstPage).setUsedRange start count, start, count⟩

namespace PmmBoot

/-- The page belongs to the allocator's own bitmap or counters. -/
def Metadata (boot : PmmBoot) (page : Nat) : Prop :=
  boot.metadataStart ≤ page ∧ page < boot.metadataStart + boot.metadataCount

instance (boot : PmmBoot) (page : Nat) : Decidable (boot.Metadata page) :=
  inferInstanceAs (Decidable (_ ∧ _))

end PmmBoot

namespace Pmm

/-- The search of `pmm_alloc_contiguous_pages`: the start of the first run of `count` clear
bits. -/
def findRun (pmm : Pmm) (count : Nat) : (remaining page runStart runLen : Nat) → Option Nat
  | 0, _, _, _ => none
  | remaining + 1, page, runStart, runLen =>
    if pmm.used page then findRun pmm count remaining (page + 1) runStart 0
    else
      let runStart := if runLen = 0 then page else runStart
      if runLen + 1 < count then findRun pmm count remaining (page + 1) runStart (runLen + 1)
      else some runStart

/-- `pmm_alloc_contiguous_pages`, as the first page instead of its address. -/
def allocContiguousPages (pmm : Pmm) (count : Nat) : Option (Nat × Pmm) :=
  if count = 0 ∨ pmm.tracked < count then none
  else
    match pmm.findRun count (pmm.tracked - firstPage) firstPage 0 0 with
    | none => none
    | some start => some (start, { pmm.setUsedRange start count with nextFree := start + count })

end Pmm

/-- A call of the allocator. -/
inductive PmmCall where
  | allocPage
  | allocContiguousPages (count : Nat)
  | sharePage (pa : Nat)
  | freePage (pa : Nat)
  deriving Repr, DecidableEq

namespace PmmCall

/-- The state after a call. -/
def apply (pmm : Pmm) : PmmCall → Pmm
  | .allocPage => match pmm.allocPage with
    | none => pmm
    | some (_, next) => next
  | .allocContiguousPages count => match pmm.allocContiguousPages count with
    | none => pmm
    | some (_, next) => next
  | .sharePage pa => (pmm.sharePage pa).getD pmm
  | .freePage pa => pmm.freePage pa

/-- The pages that a call returns. -/
def returned (pmm : Pmm) : PmmCall → List Nat
  | .allocPage => match pmm.allocPage with
    | none => []
    | some (page, _) => [page]
  | .allocContiguousPages count => match pmm.allocContiguousPages count with
    | none => []
    | some (start, _) => List.range' start count
  | .sharePage _ => []
  | .freePage _ => []

end PmmCall

namespace Pmm

/-! ## The accounts -/

/-- The clear bits below the tracked pages. -/
def clearPages (pmm : Pmm) : Finset Nat :=
  (Finset.range pmm.tracked).filter fun page => pmm.used page = false

/-- The accounts are right. -/
structure Accurate (pmm : Pmm) : Prop where
  /-- The free pages are the clear bits. -/
  counted : pmm.freeCount = pmm.clearPages.card
  /-- A clear bit has no reference. -/
  uncounted : ∀ page, pmm.used page = false → pmm.refcount page = 0
  /-- A bit outside the tracked pages is set. -/
  outside : ∀ page, pmm.tracked ≤ page → pmm.used page = true

/-- The pages whose bit is clear. -/
theorem mem_clearPages : page ∈ pmm.clearPages ↔ page < pmm.tracked ∧ pmm.used page = false := by
  simp [clearPages]

/-- Nothing is counted before boot. -/
theorem blank_accurate : (blank tracked).Accurate := by
  refine ⟨?_, (blank tracked).clear_uncounted, fun _ _ => rfl⟩
  have none : (blank tracked).clearPages = ∅ := by
    ext page
    simp [mem_clearPages, blank]
  rw [none]
  rfl

/-- Bits are set inside the range. -/
@[simp] theorem setUsed_tracked : (pmm.setUsed page).tracked = pmm.tracked := by
  unfold setUsed
  split <;> rfl

/-- Bits are cleared inside the range. -/
@[simp] theorem setFree_tracked : (pmm.setFree page).tracked = pmm.tracked := by
  unfold setFree
  split <;> rfl

/-- The bit that is set, and the others. -/
theorem setUsed_used (inside : page < pmm.tracked) :
    (pmm.setUsed page).used p = if p = page then true else pmm.used p := by
  rw [setUsed, if_neg (Nat.not_le.mpr inside)]

/-- The bit that is cleared, and the others. -/
theorem setFree_used (pmm : Pmm) (p : Nat) (inside : page < pmm.tracked) :
    (pmm.setFree page).used p = if p = page then false else pmm.used p := by
  rw [setFree, if_neg (Nat.not_le.mpr inside)]

/-- A fold of steps that keep a property keeps it. -/
theorem foldl_keeps {Input : Type} (step : Pmm → Input → Pmm) (good : Pmm → Prop)
    (kept : ∀ pmm input, good pmm → good (step pmm input)) (inputs : List Input) :
    ∀ pmm, good pmm → good (inputs.foldl step pmm) := by
  induction inputs with
  | nil => exact fun _ holds => holds
  | cons input rest ih => exact fun pmm holds => ih _ (kept pmm input holds)

section

variable (accurate : pmm.Accurate)

include accurate

/-- The counter goes down with a bit that gets set. -/
theorem setUsed_accurate (page : Nat) : (pmm.setUsed page).Accurate := by
  rcases Nat.lt_or_ge page pmm.tracked with inside | outside
  · refine ⟨?_, (pmm.setUsed page).clear_uncounted, ?_⟩
    · have erased : (pmm.setUsed page).clearPages = pmm.clearPages.erase page := by
        ext p
        rw [Finset.mem_erase, mem_clearPages, mem_clearPages, setUsed_tracked, setUsed_used inside]
        by_cases here : p = page <;> simp [here]
      have count : (pmm.setUsed page).freeCount =
          if pmm.used page then pmm.freeCount else pmm.freeCount - 1 := by
        rw [setUsed, if_neg (Nat.not_le.mpr inside)]
      rw [count, erased, accurate.counted]
      cases state : pmm.used page with
      | true => rw [Finset.erase_eq_of_notMem (by simp [mem_clearPages, state])]; rfl
      | false => rw [Finset.card_erase_of_mem (mem_clearPages.mpr ⟨inside, state⟩)]; rfl
    · intro p outside
      rw [setUsed_tracked] at outside
      rw [setUsed_used inside, accurate.outside p outside, ite_self]
  · rw [setUsed, if_pos outside]
    exact accurate

/-- It goes up with one that gets cleared. -/
theorem setFree_accurate (page : Nat) : (pmm.setFree page).Accurate := by
  rcases Nat.lt_or_ge page pmm.tracked with inside | outside
  · refine ⟨?_, (pmm.setFree page).clear_uncounted, ?_⟩
    · have inserted : (pmm.setFree page).clearPages = insert page pmm.clearPages := by
        ext p
        rw [Finset.mem_insert, mem_clearPages, mem_clearPages, setFree_tracked,
          setFree_used pmm p inside]
        by_cases here : p = page <;> simp [here, inside]
      have count : (pmm.setFree page).freeCount =
          if pmm.used page then pmm.freeCount + 1 else pmm.freeCount := by
        rw [setFree, if_neg (Nat.not_le.mpr inside)]
      rw [count, inserted, accurate.counted]
      cases state : pmm.used page with
      | true => rw [Finset.card_insert_of_notMem (by simp [mem_clearPages, state])]; rfl
      | false => rw [Finset.insert_eq_of_mem (mem_clearPages.mpr ⟨inside, state⟩)]; rfl
    · intro p outside
      have other : p ≠ page := by
        rintro rfl
        exact absurd inside (Nat.not_lt.mpr (setFree_tracked ▸ outside))
      rw [setFree_tracked] at outside
      rw [setFree_used pmm p inside, if_neg other, accurate.outside p outside]
  · rw [setFree, if_pos outside]
    exact accurate

/-- The accounts do not depend on where the next search starts. -/
theorem Accurate.at_next (next : Nat) : { pmm with nextFree := next }.Accurate :=
  ⟨accurate.counted, accurate.uncounted, accurate.outside⟩

/-- The counter follows a loop. -/
theorem setUsedRange_accurate (start : Nat) : (pmm.setUsedRange start count).Accurate :=
  foldl_keeps setUsed Accurate (fun _ page holds => setUsed_accurate holds page) _ pmm accurate

/-- It follows the pages of an entry. -/
theorem freeUsable_accurate (entry : MemmapEntry) : (pmm.freeUsable entry).Accurate := by
  unfold freeUsable
  split
  · exact foldl_keeps setFree Accurate (fun _ page holds => setFree_accurate holds page) _ pmm
      accurate
  · exact accurate

end

end Pmm

/-- It is right after boot. -/
theorem pmmInit_accurate (memmap : List MemmapEntry) : (pmmInit memmap).pmm.Accurate := by
  unfold pmmInit
  dsimp only
  split
  · exact blank_accurate
  split
  · exact blank_accurate
  refine setUsedRange_accurate (setUsedRange_accurate ?_ _) _
  exact foldl_keeps freeUsable Pmm.Accurate
    (fun _ entry holds => freeUsable_accurate holds entry) memmap _
    blank_accurate

namespace Pmm

/-! ## What an allocation takes -/

/-- A page that an allocation may take. -/
structure Takable (pmm : Pmm) (page : Nat) : Prop where
  /-- It is not among the first pages. -/
  low : firstPage ≤ page
  /-- It is free. -/
  clear : pmm.used page = false

/-- One page is taken, and the search goes on behind it. -/
theorem allocPage_takes (found : pmm.allocPage = some (page, next)) :
    pmm.Takable page ∧ next = { pmm.setUsed page with nextFree := page + 1 } := by
  obtain ⟨low, _, clear, made⟩ := allocPage_found found
  exact ⟨⟨low, clear⟩, made⟩

/-- A run found by the search: the pages counted so far are takable and stay the beginning of
the run, which ends before the pages that the search was given do. -/
theorem findRun_takes (pmm : Pmm) :
    ∀ remaining page runStart runLen start, firstPage ≤ page → 0 < count →
      (0 < runLen → runStart + runLen = page) →
      (∀ i < runLen, pmm.Takable (runStart + i)) → runLen < count →
      pmm.findRun count remaining page runStart runLen = some start →
      (∀ i < count, pmm.Takable (start + i)) ∧ start + count ≤ page + remaining := by
  intro remaining
  induction remaining with
  | zero => intro page runStart runLen start _ _ _ _ _ found; simp [findRun] at found
  | succ remaining ih =>
    intro page runStart runLen start low positive adjacent counted short found
    rw [findRun] at found
    split at found
    · have later :=
        ih (page + 1) runStart 0 start (by omega) positive (by omega) (by omega) positive found
      exact ⟨later.1, by omega⟩
    rename_i clear
    set begins := if runLen = 0 then page else runStart with begins_eq
    have reaches : begins + runLen = page := by
      by_cases fresh : runLen = 0
      · rw [begins_eq, if_pos fresh, fresh, Nat.add_zero]
      · rw [begins_eq, if_neg fresh]
        exact adjacent (Nat.pos_of_ne_zero fresh)
    have longer : ∀ i < runLen + 1, pmm.Takable (begins + i) := by
      intro i inRun
      rcases Nat.lt_succ_iff_lt_or_eq.mp inRun with earlier | rfl
      · have fresh : runLen ≠ 0 := by omega
        rw [begins_eq, if_neg fresh]
        exact counted i earlier
      · rw [reaches]
        exact ⟨low, by simpa using clear⟩
    split at found
    · rename_i more
      have later :=
        ih (page + 1) begins (runLen + 1) start (by omega) positive (by omega) longer more found
      exact ⟨later.1, by omega⟩
    · rename_i enough
      obtain rfl : begins = start := by simpa using found
      exact ⟨fun i inRun => longer i (by omega), by omega⟩

/-- What a successful call found. -/
theorem allocContiguousPages_found {count start : Nat}
    (found : pmm.allocContiguousPages count = some (start, next)) :
    ¬ (count = 0 ∨ pmm.tracked < count) ∧
      pmm.findRun count (pmm.tracked - firstPage) firstPage 0 0 = some start ∧
      next = { pmm.setUsedRange start count with nextFree := start + count } := by
  unfold allocContiguousPages at found
  split at found
  · contradiction
  split at found
  · exact absurd found.symm (Option.some_ne_none _)
  · cases found
    exact ⟨‹_›, ‹_›, rfl⟩

/-- A run of pages is taken. -/
theorem allocContiguousPages_takes {count start : Nat}
    (found : pmm.allocContiguousPages count = some (start, next)) :
    (∀ page ∈ List.range' start count, pmm.Takable page) ∧
      next = { pmm.setUsedRange start count with nextFree := start + count } := by
  obtain ⟨proper, search, made⟩ := allocContiguousPages_found found
  refine ⟨?_, made⟩
  intro page inRun
  obtain ⟨i, inside, rfl⟩ := List.mem_range'.mp inRun
  rw [Nat.one_mul]
  exact pmm.findRun_takes _ firstPage 0 0 start (Nat.le_refl _) (by omega) (by omega)
    (by omega) (by omega) search |>.1 i inside

end Pmm

/-- Every page that a call returns was takable. -/
theorem PmmCall.returned_takable {call : PmmCall} (given : page ∈ call.returned pmm) :
    pmm.Takable page := by
  cases call with
  | allocPage =>
    rw [returned] at given
    split at given
    · contradiction
    · rename_i found
      obtain rfl := List.mem_singleton.mp given
      exact (allocPage_takes found).1
  | allocContiguousPages count =>
    rw [returned] at given
    split at given
    · contradiction
    · rename_i found
      exact (allocContiguousPages_takes found).1 page given
  | sharePage | freePage => contradiction

namespace Pmm

/-! ## What a call keeps -/

/-- Marking pages as used clears no bit. -/
theorem setUsed_of_used {p : Nat} (set : pmm.used p) : (pmm.setUsed page).used p := by
  unfold setUsed
  split
  · exact set
  · simp [set]

/-- A bit that is set stays set. -/
theorem setUsedRange_of_used {start count p : Nat} (set : pmm.used p) :
    (pmm.setUsedRange start count).used p :=
  foldl_keeps setUsed (fun now => now.used p) (fun _ _ holds => setUsed_of_used holds) _ pmm
    set

/-- Every page of a range is marked. -/
theorem setUsedRange_used : ∀ {pmm : Pmm} {start p : Nat}, pmm.Accurate →
    start ≤ p → p < start + count → (pmm.setUsedRange start count).used p := by
  induction count with
  | zero => intro pmm start p _ after before; omega
  | succ count ih =>
    intro pmm start p accurate after before
    show ((pmm.setUsed start).setUsedRange (start + 1) count).used p = true
    rcases Nat.eq_or_lt_of_le after with rfl | later
    · refine setUsedRange_of_used ?_
      rcases Nat.lt_or_ge start pmm.tracked with inside | outside
      · rw [setUsed_used inside, if_pos rfl]
      · exact setUsed_of_used (accurate.outside start outside)
    · exact ih (setUsed_accurate accurate start) later (by omega)

section

variable (accurate : pmm.Accurate)

include accurate

/-- Lowering a counter that stays positive changes no bit. -/
theorem Accurate.lower (page : Nat) : (pmm.lower page).Accurate :=
  ⟨accurate.counted, (pmm.lower page).clear_uncounted, accurate.outside⟩

/-- The counter is right after a release. -/
theorem freePage_accurate : (pmm.freePage pa).Accurate := by
  unfold freePage
  dsimp only
  split_ifs
  · exact accurate
  · exact accurate
  · exact accurate
  · exact (setFree_accurate (accurate.lower _) _).at_next _
  · exact (setFree_accurate (accurate.lower _) _).at_next _
  · exact accurate.lower _

/-- A further reference leaves bits and counter. -/
theorem sharePage_accurate {pa : Nat}
    (shared : pmm.sharePage pa = some next) : next.Accurate ∧ next.used = pmm.used := by
  unfold sharePage at shared
  dsimp only at shared
  split at shared
  · contradiction
  split at shared
  · contradiction
  split at shared
  · contradiction
  · cases shared
    exact ⟨⟨accurate.counted, clear_uncounted _, accurate.outside⟩, rfl⟩

end

/-- Only the last reference clears the bit of a page. -/
theorem freePage_of_used {pa : Nat} (set : pmm.used page)
    (spared : pa % pageSize = 0 → pa / pageSize = page → pmm.refcount page ≠ 1) :
    (pmm.freePage pa).used page := by
  unfold freePage
  dsimp only
  split
  · exact set
  rename_i aligned
  split
  · exact set
  rename_i inside
  split
  · exact set
  split
  · rename_i counted last
    have other : page ≠ pa / pageSize := by
      rintro rfl
      exact spared (not_not.mp aligned) rfl (by omega)
    have kept := setFree_used (pmm.lower (pa / pageSize)) page (Nat.not_le.mp inside)
    rw [if_neg other] at kept
    exact kept.trans set
  · exact set

end Pmm

/-- Every call keeps the accounts right. -/
theorem PmmCall.apply_accurate (accurate : pmm.Accurate) (call : PmmCall) :
    (call.apply pmm).Accurate := by
  cases call with
  | allocPage =>
    rw [apply]
    split
    · exact accurate
    · rename_i found
      rw [(allocPage_takes found).2]
      exact (setUsed_accurate accurate _).at_next _
  | allocContiguousPages count =>
    rw [apply]
    split
    · exact accurate
    · rename_i found
      rw [(allocContiguousPages_takes found).2]
      exact (setUsedRange_accurate accurate _).at_next _
  | sharePage pa =>
    rw [apply]
    cases shared : pmm.sharePage pa with
    | none => exact accurate
    | some next => exact (sharePage_accurate accurate shared).1
  | freePage pa => exact freePage_accurate accurate

/-- The call does not give back the last reference to a page of the allocator itself. -/
def PmmBoot.Spares (boot : PmmBoot) (pmm : Pmm) : PmmCall → Prop
  | .freePage pa => pa % pageSize = 0 → boot.Metadata (pa / pageSize) →
      pmm.refcount (pa / pageSize) ≠ 1
  | _ => True

/-- The pages of the allocator itself are marked as used. -/
def PmmBoot.Guarded (boot : PmmBoot) (pmm : Pmm) : Prop :=
  ∀ page, boot.Metadata page → pmm.used page = true

/-- After boot the reserved pages are set. -/
theorem pmmInit_guarded (memmap : List MemmapEntry) :
    (pmmInit memmap).Guarded (pmmInit memmap).pmm := by
  unfold pmmInit
  dsimp only
  split
  · exact fun _ _ => rfl
  split
  · exact fun _ _ => rfl
  intro page own
  refine setUsedRange_used (setUsedRange_accurate ?_ _) own.1 own.2
  exact foldl_keeps freeUsable Pmm.Accurate
    (fun _ entry holds => freeUsable_accurate holds entry) memmap _
    blank_accurate

/-- A call that spares the allocator's own pages keeps them marked. -/
theorem PmmCall.apply_guarded {boot : PmmBoot} {call : PmmCall} (accurate : pmm.Accurate)
    (guarded : boot.Guarded pmm) (spares : boot.Spares pmm call) :
    boot.Guarded (call.apply pmm) := by
  intro page own
  have set := guarded page own
  cases call with
  | allocPage =>
    rw [apply]
    split
    · exact set
    · rename_i found
      rw [(allocPage_takes found).2]
      exact setUsed_of_used set
  | allocContiguousPages count =>
    rw [apply]
    split
    · exact set
    · rename_i found
      rw [(allocContiguousPages_takes found).2]
      exact setUsedRange_of_used set
  | sharePage pa =>
    rw [apply]
    cases shared : pmm.sharePage pa with
    | none => exact set
    | some next =>
      rw [Option.getD_some, (sharePage_accurate accurate shared).2]
      exact set
  | freePage pa =>
    refine freePage_of_used set ?_
    rintro aligned rfl
    exact spares aligned own

/-- After `pmm_init` on any memory map, in every state of every run of calls: the accounts are
right, and an allocation returns pages at or above page 256 without a reference. As long as
nobody gives back the last reference to a page of the allocator itself, an allocation never
returns such a page. -/
theorem pmm_accounting (memmap : List MemmapEntry) (calls : List PmmCall) :
    EveryState PmmCall.apply
      (fun pmm => pmm.Accurate ∧ ∀ call, ∀ page ∈ PmmCall.returned pmm call,
        firstPage ≤ page ∧ pmm.refcount page = 0)
      (pmmInit memmap).pmm calls ∧
    (EveryInput PmmCall.apply (pmmInit memmap).Spares (pmmInit memmap).pmm calls →
      EveryState PmmCall.apply
        (fun pmm => ∀ call, ∀ page ∈ PmmCall.returned pmm call, ¬ (pmmInit memmap).Metadata page)
        (pmmInit memmap).pmm calls) := by
  constructor
  · have accounts : EveryState PmmCall.apply Pmm.Accurate (pmmInit memmap).pmm calls :=
      everyState_of_kept (fun _ call accurate => PmmCall.apply_accurate accurate call)
        (pmmInit_accurate memmap)
    refine accounts.mono fun pmm accurate => ⟨accurate, fun call page given => ?_⟩
    have takable := PmmCall.returned_takable given
    exact ⟨takable.low, accurate.uncounted page takable.clear⟩
  · intro spares
    have guards : EveryState PmmCall.apply
        (fun pmm => pmm.Accurate ∧ (pmmInit memmap).Guarded pmm) (pmmInit memmap).pmm calls :=
      everyState_of_everyInput
        (fun _ call holds spared =>
          ⟨PmmCall.apply_accurate holds.1 call, PmmCall.apply_guarded holds.1 holds.2 spared⟩)
        ⟨pmmInit_accurate memmap, pmmInit_guarded memmap⟩ spares
    refine guards.mono fun pmm holds call page given own => ?_
    have clear := (PmmCall.returned_takable given).clear
    rw [holds.2 page own] at clear
    contradiction

/-- A machine with two pages above one megabyte. The first one holds the bitmap and the
counters. -/
def smallMemmap : List MemmapEntry := [⟨0, 0x102000, .usable⟩]

/-- Taking the only free page and giving it back touches no page of the allocator. -/
theorem pmm_accounting_small_run :
    EveryState PmmCall.apply
      (fun pmm => ∀ call, ∀ page ∈ PmmCall.returned pmm call, ¬ (pmmInit smallMemmap).Metadata page)
      (pmmInit smallMemmap).pmm [.allocPage, .freePage (257 * pageSize)] := by
  refine (pmm_accounting smallMemmap [.allocPage, .freePage (257 * pageSize)]).2 ?_
  refine ⟨trivial, fun _ own => ?_, trivial⟩
  exact absurd own (by decide +kernel)

/-- The counter of the page of the bitmap is one. Freeing that page clears its bit, and the
next allocation returns it. -/
theorem bitmap_page_handed_out :
    ¬ EveryState PmmCall.apply
      (fun pmm => ∀ call, ∀ page ∈ PmmCall.returned pmm call, ¬ (pmmInit smallMemmap).Metadata page)
      (pmmInit smallMemmap).pmm [.freePage (256 * pageSize)] := by
  intro every
  have handed : 256 ∈ PmmCall.returned
      ((PmmCall.freePage (256 * pageSize)).apply (pmmInit smallMemmap).pmm) .allocPage := by
    decide +kernel
  have own : (pmmInit smallMemmap).Metadata 256 := by decide +kernel
  exact every.2 .allocPage 256 handed own

/-! ## Nothing that is free is missed -/

namespace Pmm

open List

/-- What an allocation does to the bits. -/
theorem allocPage_used (found : pmm.allocPage = some (page, next)) (p : Nat) :
    next.used p = if p = page then true else pmm.used p := by
  have inside := (allocPage_spec found).inside
  rw [(allocPage_takes found).2]
  exact setUsed_used inside

/-- A scan that finds nothing has seen every bit of its words that lies in the range. -/
theorem used_of_scanWords_none (start stop : Nat) : ∀ remaining word,
    pmm.scanWords start stop remaining word = none →
    ∀ page, word * bitsPerWord ≤ page → page < (word + remaining) * bitsPerWord →
      start ≤ page → page < stop → pmm.used page := by
  intro remaining
  induction remaining with
  | zero =>
    intro word _ page low high
    rw [Nat.add_zero] at high
    omega
  | succ remaining ih =>
    intro word found page low high after before
    rw [scanWords] at found
    split at found
    · exact absurd found (Option.some_ne_none _)
    rename_i none
    rcases Nat.lt_or_ge page ((word + 1) * bitsPerWord) with here | later
    · have inWord : page - word * bitsPerWord < bitsPerWord := by
        rw [Nat.succ_mul] at here
        omega
      have taken := find?_eq_none.mp none _ (mem_range.mpr inWord)
      by_contra clear
      refine taken ?_
      have position : word * bitsPerWord + (page - word * bitsPerWord) = page := by omega
      simp only [freeBit, Bool.and_eq_true, Bool.or_eq_true, Bool.not_eq_true',
        decide_eq_true_eq, position]
      refine ⟨⟨by simpa using clear, ?_⟩, ?_⟩
      · simp only [bitsPerWord] at *
        omega
      · simp only [bitsPerWord] at *
        omega
    · have reaches : page < (word + 1 + remaining) * bitsPerWord := by
        rwa [Nat.add_assoc, Nat.add_comm 1]
      exact ih (word + 1) found page later reaches after before

/-- A failed search of a range: all its bits are set. -/
theorem used_of_allocPageInRange_none {start stop : Nat}
    (failed : pmm.allocPageInRange start stop = none) (after : start ≤ page)
    (before : page < stop) (inside : page < pmm.tracked) : pmm.used page := by
  unfold allocPageInRange at failed
  dsimp only at failed
  set last := if pmm.tracked < stop then pmm.tracked else stop with last_eq
  have below : page < last := by
    rw [last_eq]
    split <;> omega
  rw [if_neg (by omega)] at failed
  split at failed
  · rename_i scan
    refine pmm.used_of_scanWords_none start last _ _ scan page ?_ ?_ after below
    · simp only [bitsPerWord]
      omega
    · simp only [bitsPerWord]
      omega
  · exact absurd failed (Option.some_ne_none _)

/-- The allocator fails only when every page that it hands out is used. -/
theorem used_of_allocPage_none (failed : pmm.allocPage = none) (low : firstPage ≤ page)
    (inside : page < pmm.tracked) : pmm.used page := by
  unfold allocPage at failed
  split at failed
  · exact absurd failed (Option.some_ne_none _)
  rename_i first
  rcases Nat.lt_or_ge page pmm.firstCandidate with before | after
  · exact used_of_allocPageInRange_none failed low before inside
  · exact used_of_allocPageInRange_none first after inside inside

/-- A run of one or more free tracked pages among those that the allocator hands out. -/
structure FreeRun (pmm : Pmm) (start count : Nat) : Prop where
  /-- There is some page. -/
  proper : 0 < count
  /-- It is not among the first pages. -/
  low : firstPage ≤ start
  /-- The run is within the memory. -/
  inside : start + count ≤ pmm.tracked
  /-- All of its pages are free. -/
  clear : ∀ page, start ≤ page → page < start + count → pmm.used page = false

/-- A search that finds nothing has not passed a run: one that starts among the clear pages
counted so far would have to reach past the last page. -/
theorem findRun_complete (pmm : Pmm) : ∀ remaining page runStart runLen start,
    runLen < count → pmm.findRun count remaining page runStart runLen = none →
    page ≤ start + runLen → start + count ≤ page + remaining →
      ∃ k, start ≤ k ∧ k < start + count ∧ pmm.used k := by
  intro remaining
  induction remaining with
  | zero => intro page runStart runLen start short _ _ _; omega
  | succ remaining ih =>
    intro page runStart runLen start short failed after before
    rw [findRun] at failed
    split at failed
    · rename_i set
      rcases Nat.lt_or_ge page start with ahead | reached
      · exact ih (page + 1) runStart 0 start (by omega) failed (by omega) (by omega)
      · exact ⟨page, reached, by omega, set⟩
    · dsimp only at failed
      split at failed
      · rename_i more
        exact ih (page + 1) _ (runLen + 1) start more failed (by omega) (by omega)
      · contradiction

/-- Marking a range of tracked pages sets their bits and no others. -/
theorem setUsedRange_bits : ∀ (pmm : Pmm) (start : Nat), start + count ≤ pmm.tracked →
    ∀ p, (pmm.setUsedRange start count).used p =
      if start ≤ p ∧ p < start + count then true else pmm.used p := by
  induction count with
  | zero =>
    intro pmm start _ p
    rw [if_neg (by omega)]
    rfl
  | succ count ih =>
    intro pmm start inside p
    have same : (pmm.setUsed start).tracked = pmm.tracked := by
      unfold setUsed
      split <;> rfl
    show ((pmm.setUsed start).setUsedRange (start + 1) count).used p = _
    rw [ih (pmm.setUsed start) (start + 1) (by omega) p, setUsed_used (by omega)]
    by_cases here : p = start
    · have within : start ≤ p ∧ p < start + (count + 1) := by omega
      rw [if_pos here, if_pos within, ite_self]
    have shifted : (start + 1 ≤ p ∧ p < start + 1 + count) ↔
        start ≤ p ∧ p < start + (count + 1) := by omega
    rw [if_neg here]
    simp only [shifted]

/-- The bits of the run get set, no others. -/
theorem allocContiguousPages_bits {count start : Nat}
    (found : pmm.allocContiguousPages count = some (start, next)) :
    pmm.FreeRun start count ∧ ∀ page, next.used page =
      if start ≤ page ∧ page < start + count then true else pmm.used page := by
  obtain ⟨takable, made⟩ := allocContiguousPages_takes found
  have clear : ∀ page, start ≤ page → page < start + count → pmm.Takable page :=
    fun page after before => takable page (mem_range'_1.mpr ⟨after, before⟩)
  obtain ⟨proper, search, -⟩ := allocContiguousPages_found found
  have ends := (pmm.findRun_takes _ firstPage 0 0 start (Nat.le_refl _) (by omega) (by omega)
    (by omega) (by omega) search).2
  have first := (clear start (by omega) (by omega)).low
  have inside : start + count ≤ pmm.tracked := by
    rcases Nat.lt_or_ge pmm.tracked firstPage with small | large
    · rw [Nat.sub_eq_zero_of_le (by omega)] at search
      simp [findRun] at search
    · omega
  refine ⟨⟨by omega, first, inside, fun page after before => (clear page after before).clear⟩,
    fun page => ?_⟩
  rw [made]
  exact setUsedRange_bits pmm start inside page

/-- A failed request: there is no such run. -/
theorem no_freeRun {count : Nat} (failed : pmm.allocContiguousPages count = none) :
    ¬ ∃ start, pmm.FreeRun start count := by
  rintro ⟨start, run⟩
  have proper := run.proper
  have inside := run.inside
  have low := run.low
  have asked : ¬ (count = 0 ∨ pmm.tracked < count) := by omega
  unfold allocContiguousPages at failed
  rw [if_neg asked] at failed
  split at failed
  · rename_i search
    obtain ⟨k, after, before, set⟩ := pmm.findRun_complete _ firstPage 0 0 start proper search
      (by omega) (by omega)
    rw [run.clear k after before] at set
    exact absurd set Bool.false_ne_true
  · exact absurd failed (Option.some_ne_none _)

/-- Allocation is complete: it fails only when what it was asked for does not exist, and takes
what it returns and nothing else. -/
theorem allocation_complete (pmm : Pmm) (count : Nat) :
    (match pmm.allocPage with
      | none => ∀ page, firstPage ≤ page → page < pmm.tracked → pmm.used page = true
      | some (page, next) => pmm.FreeRun page 1 ∧
        ∀ p, next.used p = if p = page then true else pmm.used p) ∧
    (match pmm.allocContiguousPages count with
      | none => ¬ ∃ start, pmm.FreeRun start count
      | some (start, next) => pmm.FreeRun start count ∧
        ∀ p, next.used p = if start ≤ p ∧ p < start + count then true else pmm.used p) := by
  constructor
  · split
    · rename_i failed
      exact fun page low inside => used_of_allocPage_none failed low inside
    · rename_i page next found
      have takable := (allocPage_takes found).1
      refine ⟨⟨Nat.one_pos, takable.low, (allocPage_spec found).inside, fun p after before => ?_⟩,
        allocPage_used found⟩
      obtain rfl : p = page := by omega
      exact takable.clear
  · split
    · rename_i failed
      exact no_freeRun failed
    · rename_i found
      exact allocContiguousPages_bits found

end Pmm

end Spore.Mm
