import Mathlib.Data.Finset.Card
import Mathlib.Order.Interval.Finset.Nat
import Spore.Mm.VmaMerge
import Mathlib.Algebra.Ring.Nat

/-!
# Pages of an area list (`vma.c`, `proc/policy.c`)

`vma_virtual_pages` adds up the lengths of the areas and `overlap_pages` the lengths of their
intersections with a range. On a tidy list of whole pages both count members of one finite set,
the pages that the list covers, and every list function is a union or a difference of that set.
-/

namespace Spore.Mm

open Spore.Lib Finset

variable {page p : Nat} {flags : UInt32} {grown : Vma} {slots : List Vma}

/-! ## The counts of the source -/

/-- `page_count`. -/
def pageCount (start stop : Nat) : Nat := if start < stop then (stop - start) / pageSize else 0

/-- The pages that `vma_virtual_pages` counts for one slot. -/
def Vma.virtualPages (vma : Vma) : Nat :=
  if vma.used then (vma.stop - vma.start + pageSize - 1) / pageSize else 0

/-- The pages of all areas. -/
def vmaVirtualPages (list : VmaList) : Nat := (list.slots.map Vma.virtualPages).sum

/-- The pages that `overlap_pages` counts for one slot. -/
def Vma.overlapPages (start stop : Nat) (vma : Vma) : Nat :=
  if vma.used && overlaps start stop vma.start vma.stop then
    pageCount (max start vma.start) (min stop vma.stop)
  else 0

/-- The pages that areas have in a range. -/
def overlapPages (list : VmaList) (start stop : Nat) : Nat :=
  if stop ≤ start then 0 else (list.slots.map (Vma.overlapPages start stop)).sum

/-! ## Edges of areas -/

/-- Every area in use starts and stops at an address of the given kind. -/
def VmaList.Edges (ok : Nat → Prop) (list : VmaList) : Prop :=
  ∀ vma ∈ list.slots, vma.used = true → ok vma.start ∧ ok vma.stop

section Edges

variable {σ : Type} {host : VmaHost σ} {ok : Nat → Prop} {list next : VmaList} {world after : σ}

/-- There are no edges. -/
theorem VmaList.Edges.init : VmaList.init.Edges ok := by
  intro vma member
  cases member

/-- Storing an area with good edges. -/
theorem VmaList.Edges.setSlot (edges : list.Edges ok) (index : Nat) {new : Vma}
    (good : new.used → ok new.start ∧ ok new.stop) : (list.setSlot index new).Edges ok := by
  intro vma member used
  rcases List.mem_or_eq_of_mem_set member with old | rfl
  · exact edges vma old used
  · exact good used

/-- A merged area has edges of the two. -/
theorem VmaList.Edges.merge {i j : Nat} {a b whole : Vma} (edges : list.Edges ok)
    (merge : Merge host i j list world a b whole next after) (usedA : a.used) : next.Edges ok := by
  have edgesA := edges a (List.mem_of_getElem? merge.at_i) usedA
  have edgesB := edges b (List.mem_of_getElem? merge.at_j) merge.used
  rw [merge.slots]
  refine (edges.setSlot i fun _ => ?_).setSlot j fun used => absurd used Bool.false_ne_true
  rcases merge.joins with ⟨-, rfl⟩ | ⟨-, rfl⟩
  · exact ⟨edgesA.1, edgesB.2⟩
  · exact ⟨edgesB.1, edgesA.2⟩

/-- No list function makes an edge that is not an edge of a list or of an argument. -/
theorem edges_rule : ListRule host (fun vma => ok vma.start ∧ ok vma.stop)
    fun list _ => list.Edges ok where
  merge merge used edges := edges.merge merge used
  grow edges _ _ := by
    intro vma member used
    rcases List.mem_append.mp member with old | new
    · exact edges vma old used
    · have dead : vma.used = false := addChunk_dead new
      rw [dead] at used
      contradiction
  fill edges _ _ good _ := edges.setSlot _ fun _ => good

section

variable (edges : list.Edges ok)

include edges

/-- A rebuild has the edges of its parts. -/
theorem VmaList.Edges.rebuild {parts : Vma → List Vma}
    (good : ∀ vma, ok vma.start ∧ ok vma.stop → ∀ part ∈ parts vma, ok part.start ∧ ok part.stop)
    (world : σ) : (Mm.rebuild host parts list world).2.1.Edges ok := by
  have rule : ListRule host _ fun list _ => list.Edges ok := edges_rule
  obtain ⟨next, between, built, done | failed⟩ := rule.rebuild parts list world
    (fun vma stored used part member => good vma (edges vma stored used) part member)
    .init
  · rw [done]
    exact built
  · rw [failed]
    exact edges

/-- A removal cuts at the ends of its range. -/
theorem VmaList.Edges.vmaRemove {start stop : Nat} (okStart : ok start)
    (okStop : ok stop) (world : σ) : (Mm.vmaRemove host list start stop world).2.1.Edges ok := by
  unfold Mm.vmaRemove
  split
  · exact edges
  apply edges.rebuild
  intro vma good part member
  unfold removeParts at member
  grind

/-- So does a change of rights. -/
theorem VmaList.Edges.vmaProtect {start stop : Nat} (okStart : ok start)
    (okStop : ok stop) (prot : UInt32) (world : σ) :
    (Mm.vmaProtect host list start stop prot world).2.1.Edges ok := by
  unfold Mm.vmaProtect
  split
  · exact edges
  apply edges.rebuild
  intro vma good part member
  unfold protectParts at member
  grind

/-- An insertion adds the ends of its area. -/
theorem VmaList.Edges.vmaInsert {start stop : Nat} (okStart : ok start)
    (okStop : ok stop) (prot flags : UInt32) (type : VmaType) (world : σ) :
    (Mm.vmaInsert host list start stop prot flags type world).2.1.Edges ok := by
  exact (vmaInsert_cases host list start stop prot flags type world).keeps edges_rule edges
    fun _ grown => grown.setSlot _ fun _ => ⟨okStart, okStop⟩

/-- So does one of a file. -/
theorem VmaList.Edges.vmaInsertFile {start stop : Nat} (okStart : ok start)
    (okStop : ok stop) (prot flags : UInt32) (node : Option VfsNode)
    (fileStart fileOffset fileSize : Nat) (world : σ) :
    (Mm.vmaInsertFile host list start stop prot flags node fileStart fileOffset fileSize
      world).2.1.Edges ok := by
  cases node with
  | none => exact edges
  | some node =>
    exact (vmaInsertFile_cases host list start stop prot flags node fileStart fileOffset fileSize
      world).keeps edges_rule edges fun _ grown => grown.setSlot _ fun _ => ⟨okStart, okStop⟩

end

end Edges

/-- An address at the start of a page. -/
def PageEdge (va : Nat) : Prop := va % pageSize = 0

/-- Growth moves one edge to a page. -/
theorem VmaList.Edges.vmaGrowDown {list next : VmaList}
    (edges : list.Edges PageEdge) (grew : Mm.vmaGrowDown list page flags = some (grown, next)) :
    next.Edges PageEdge := by
  obtain ⟨index, vma, grows, stored, _, rfl⟩ := vmaGrowDown_cases grew
  apply edges.setSlot
  intro used
  exact ⟨grows.aligned, (edges vma (List.mem_of_getElem? stored) used).2⟩

/-! ## The set of covered pages -/

/-- The pages of one slot. -/
def Vma.pageSet (vma : Vma) : Finset Nat :=
  if vma.used then Finset.Ico (vma.start / pageSize) (vma.stop / pageSize) else ∅

/-- The pages that slots cover. -/
def coveredPages : List Vma → Finset Nat
  | [] => ∅
  | vma :: rest => vma.pageSet ∪ coveredPages rest

/-- A page is covered by some area. -/
theorem mem_coveredPages : p ∈ coveredPages slots ↔ ∃ vma ∈ slots, p ∈ vma.pageSet := by
  induction slots with
  | nil => simp [coveredPages]
  | cons vma rest ih => simp [coveredPages, ih]

/-- Separate areas have separate pages. -/
theorem pageSets_disjoint (tidy : vmaView.Tidy slots) :
    slots.Pairwise fun v w => Disjoint v.pageSet w.pageSet := by
  rw [List.pairwise_iff_getElem]
  intro i j boundI boundJ before
  rw [disjoint_left]
  intro p inV inW
  unfold Vma.pageSet at inV inW
  split at inV
  · split at inW
    · rename_i usedV usedW
      have apart := tidy.apart i j _ _ (List.getElem?_eq_getElem boundI)
        (List.getElem?_eq_getElem boundJ) (Nat.ne_of_lt before) usedV usedW
      rw [vmaView_apart] at apart
      simp only [mem_Ico, pageSize] at inV inW
      omega
    · simp at inW
  · simp at inV

/-- Counting covered pages slot by slot. -/
theorem card_coveredPages (P : Nat → Prop) [DecidablePred P]
    (apart : slots.Pairwise fun v w => Disjoint v.pageSet w.pageSet) :
    ((coveredPages slots).filter P).card =
      (slots.map fun vma => (vma.pageSet.filter P).card).sum := by
  induction slots with
  | nil => rfl
  | cons vma rest ih =>
    obtain ⟨first, later⟩ := List.pairwise_cons.mp apart
    rw [coveredPages, filter_union, card_union_of_disjoint, ih later, List.map_cons, List.sum_cons]
    apply disjoint_filter_filter
    rw [disjoint_left]
    intro p here there
    obtain ⟨w, member, inW⟩ := mem_coveredPages.mp there
    exact disjoint_left.mp (first w member) here inW

/-- The pages that a list covers. -/
def VmaList.covered (list : VmaList) : Finset Nat := coveredPages list.slots

/-- The pages of a range. -/
def pageRange (start stop : Nat) : Finset Nat := Finset.Ico (start / pageSize) (stop / pageSize)

/-- A range of whole pages has that many. -/
theorem card_pageRange {start stop : Nat} (startEdge : PageEdge start) (stopEdge : PageEdge stop) :
    (pageRange start stop).card = pageCount start stop := by
  rw [pageRange, Nat.card_Ico, pageCount]
  simp only [PageEdge, pageSize] at startEdge stopEdge ⊢
  split <;> omega

/-- Areas in use are separate and consist of whole pages. -/
structure WholePages (list : VmaList) : Prop where
  /-- The areas are disjoint. -/
  tidy : vmaView.Tidy list.slots
  /-- They begin and end with pages. -/
  edges : list.Edges PageEdge

/-- No area covers anything. -/
theorem WholePages.init : WholePages VmaList.init := ⟨.nil, .init⟩

namespace WholePages

variable {list next : VmaList} {start stop : Nat}

/-- `vma_virtual_pages` counts the covered pages. -/
theorem virtualPages (whole : WholePages list) : vmaVirtualPages list = list.covered.card := by
  have counted := card_coveredPages (fun _ => True) (pageSets_disjoint whole.tidy)
  simp only [filter_true] at counted
  rw [VmaList.covered, counted, vmaVirtualPages]
  congr 1
  apply List.map_congr_left
  intro vma member
  unfold Vma.virtualPages Vma.pageSet
  split
  · rename_i used
    obtain ⟨startEdge, stopEdge⟩ := whole.edges vma member used
    rw [Nat.card_Ico]
    simp only [PageEdge, pageSize] at startEdge stopEdge ⊢
    omega
  · rfl

/-- `overlap_pages` counts the covered pages of its range. -/
theorem overlapPages (whole : WholePages list) (startEdge : PageEdge start)
    (stopEdge : PageEdge stop) :
    Mm.overlapPages list start stop = (list.covered ∩ pageRange start stop).card := by
  have inside : list.covered ∩ pageRange start stop =
      list.covered.filter fun p => start / pageSize ≤ p ∧ p < stop / pageSize := by
    ext p
    simp [pageRange]
  rw [inside, VmaList.covered, card_coveredPages _ (pageSets_disjoint whole.tidy), Mm.overlapPages]
  have each : ∀ vma ∈ list.slots, Vma.overlapPages start stop vma =
      (vma.pageSet.filter fun p => start / pageSize ≤ p ∧ p < stop / pageSize).card := by
    intro vma member
    unfold Vma.overlapPages Vma.pageSet
    cases used : vma.used with
    | false => rfl
    | true =>
      obtain ⟨lowEdge, highEdge⟩ := whole.edges vma member used
      have common : (Finset.Ico (vma.start / pageSize) (vma.stop / pageSize)).filter
          (fun p => start / pageSize ≤ p ∧ p < stop / pageSize) =
          pageRange (max start vma.start) (min stop vma.stop) := by
        ext p
        rw [mem_filter, pageRange, mem_Ico, mem_Ico]
        simp only [pageSize, max_def, min_def]
        split <;> split <;> omega
      have low : PageEdge (max start vma.start) := by
        rcases max_choice start vma.start with same | same <;> rw [same] <;> assumption
      have high : PageEdge (min stop vma.stop) := by
        rcases min_choice stop vma.stop with same | same <;> rw [same] <;> assumption
      simp only [Bool.true_and, ↓reduceIte]
      rw [common, card_pageRange low high]
      cases apart : overlaps start stop vma.start vma.stop with
      | true => rfl
      | false =>
        rw [overlaps_eq_false] at apart
        simp only [pageCount, Bool.false_eq_true, ↓reduceIte]
        rw [if_neg (by omega)]
  rw [← List.map_congr_left each]
  split
  · rename_i empty
    symm
    apply List.sum_eq_zero
    intro count member
    obtain ⟨vma, -, rfl⟩ := List.mem_map.mp member
    unfold Vma.overlapPages pageCount
    split
    · rw [if_neg (by omega)]
    · rfl
  · rfl

/-- A page is covered when its first address has an area. -/
theorem mem_covered (whole : WholePages list) :
    p ∈ list.covered ↔ (attrsAt list (p * pageSize)).isSome := by
  rw [VmaList.covered, mem_coveredPages, Option.isSome_iff_exists, attrsAt_eq]
  simp only [whole.tidy.valueAt_eq_some, SlotView.Covers, vmaView_hits]
  constructor
  · rintro ⟨vma, member, inside⟩
    unfold Vma.pageSet at inside
    split at inside
    · rename_i used
      obtain ⟨startEdge, stopEdge⟩ := whole.edges vma member used
      refine ⟨vma.attrs, vma, member, ⟨used, ?_⟩, rfl⟩
      simp only [mem_Ico, PageEdge, pageSize] at inside startEdge stopEdge ⊢
      omega
    · simp at inside
  · rintro ⟨_, vma, member, ⟨used, low, high⟩, -⟩
    refine ⟨vma, member, ?_⟩
    obtain ⟨startEdge, stopEdge⟩ := whole.edges vma member used
    rw [Vma.pageSet, if_pos used]
    simp only [mem_Ico, PageEdge, pageSize] at low high startEdge stopEdge ⊢
    omega

section Overwrite

variable {change : Option VmaAttrs → Option VmaAttrs} (whole : WholePages list)
  (after : WholePages next) (startEdge : PageEdge start) (stopEdge : PageEdge stop)
  (attrs : attrsAt next = overwrite (attrsAt list) start stop change)

include whole after startEdge stopEdge attrs

/-- What changing the attributes of a range does to the covered pages. -/
theorem mem_overwrite : p ∈ next.covered ↔
    if p ∈ pageRange start stop then (change (attrsAt list (p * pageSize))).isSome = true
    else p ∈ list.covered := by
  rw [after.mem_covered, attrs, overwrite, whole.mem_covered]
  have inRange : start ≤ p * pageSize ∧ p * pageSize < stop ↔ p ∈ pageRange start stop := by
    simp only [pageRange, mem_Ico, PageEdge, pageSize] at startEdge stopEdge ⊢
    omega
  by_cases inside : p ∈ pageRange start stop
  · rw [if_pos (inRange.mpr inside), if_pos inside]
  · rw [if_neg (mt inRange.mp inside), if_neg inside]

/-- A range that is filled is covered. -/
theorem covered_filled (filled : ∀ old, (change old).isSome = true) :
    next.covered = list.covered ∪ pageRange start stop := by
  ext p
  rw [mem_overwrite whole after startEdge stopEdge attrs, mem_union]
  split
  · rename_i inside
    simp [filled, inside]
  · rename_i outside
    simp [outside]

/-- A range that is cleared is not. -/
theorem covered_cleared (cleared : ∀ old, change old = none) :
    next.covered = list.covered \ pageRange start stop := by
  ext p
  rw [mem_overwrite whole after startEdge stopEdge attrs, mem_sdiff]
  split
  · rename_i inside
    simp [cleared, inside]
  · rename_i outside
    simp [outside]

/-- Coverage stays where areas stay. -/
theorem covered_kept (kept : ∀ old, (change old).isSome = old.isSome) :
    next.covered = list.covered := by
  ext p
  rw [mem_overwrite whole after startEdge stopEdge attrs, kept, whole.mem_covered, ite_self]

end Overwrite

/-! ## The list functions -/

section Host

variable {σ : Type} (host : VmaHost σ) (world : σ) (whole : WholePages list)
  (startEdge : PageEdge start) (stopEdge : PageEdge stop)

include whole startEdge stopEdge

omit startEdge stopEdge in
/-- A call that updates a range: whole pages stay whole, and a call that fails changes no page. -/
theorem of_outcome {update : (Nat → Option VmaAttrs) → Nat → Option VmaAttrs}
    {outcome : Bool × VmaList × σ} (result : Outcome list update outcome)
    (edges : outcome.2.1.Edges PageEdge) :
    WholePages outcome.2.1 ∧ (outcome.1 = false → outcome.2.1.covered = list.covered) ∧
      (outcome.1 = true → attrsAt outcome.2.1 = update (attrsAt list)) := by
  have after : WholePages outcome.2.1 := ⟨result.tidy, edges⟩
  have attrs := result.attrs
  refine ⟨after, fun failed => ?_, fun done => by rw [attrs, if_pos done]⟩
  ext p
  rw [after.mem_covered, whole.mem_covered, attrs, failed]
  simp

/-- An insertion covers its range, or nothing new. -/
theorem vmaInsert (prot flags : UInt32) (type : VmaType) :
    let out := Mm.vmaInsert host list start stop prot flags type world
    WholePages out.2.1 ∧ (out.1 = false → out.2.1.covered = list.covered) ∧
      (out.1 = true → out.2.1.covered = list.covered ∪ pageRange start stop) := by
  intro out
  have result := vmaInsert_outcome host start stop prot flags type world whole.tidy
  obtain ⟨after, failed, attrs⟩ := of_outcome whole result
    (whole.edges.vmaInsert startEdge stopEdge prot flags type world)
  exact ⟨after, failed, fun done =>
    covered_filled whole after startEdge stopEdge (attrs done) fun _ => rfl⟩

/-- So does one of a file. -/
theorem vmaInsertFile (prot flags : UInt32) (node : VfsNode)
    (fileStart fileOffset fileSize : Nat) :
    let out := Mm.vmaInsertFile host list start stop prot flags (some node) fileStart fileOffset
      fileSize world
    WholePages out.2.1 ∧ (out.1 = false → out.2.1.covered = list.covered) ∧
      (out.1 = true → out.2.1.covered = list.covered ∪ pageRange start stop) := by
  intro out
  have result := vmaInsertFile_outcome host start stop prot flags (some node) fileStart fileOffset
    fileSize world whole.tidy
  obtain ⟨after, failed, attrs⟩ := of_outcome whole result
    (whole.edges.vmaInsertFile startEdge stopEdge prot flags _ _ _ _ world)
  exact ⟨after, failed, fun done =>
    covered_filled whole after startEdge stopEdge (attrs done) fun _ => rfl⟩

/-- A removal covers nothing new. -/
theorem vmaRemove :
    let out := Mm.vmaRemove host list start stop world
    WholePages out.2.1 ∧ (out.1 = false → out.2.1.covered = list.covered) ∧
      (out.1 = true → out.2.1.covered = list.covered \ pageRange start stop) := by
  intro out
  have result := vmaRemove_outcome host start stop world whole.tidy
  obtain ⟨after, failed, attrs⟩ := of_outcome whole result
    (whole.edges.vmaRemove startEdge stopEdge world)
  exact ⟨after, failed, fun done =>
    covered_cleared whole after startEdge stopEdge (attrs done) fun _ => rfl⟩

/-- Other rights cover the same. -/
theorem vmaProtect (prot : UInt32) :
    let out := Mm.vmaProtect host list start stop prot world
    WholePages out.2.1 ∧ out.2.1.covered = list.covered := by
  intro out
  have result := vmaProtect_outcome host start stop prot world whole.tidy
  obtain ⟨after, failed, attrs⟩ := of_outcome whole result
    (whole.edges.vmaProtect startEdge stopEdge prot world)
  refine ⟨after, ?_⟩
  cases done : out.1 with
  | false => exact failed done
  | true =>
    exact covered_kept whole after startEdge stopEdge (attrs done) fun old => by cases old <;> rfl

end Host

/-- Growing an area over the pages below it. -/
theorem vmaGrowDown (whole : WholePages list)
    (grew : Mm.vmaGrowDown list page flags = some (grown, next)) :
    WholePages next ∧ ∃ vma, GrowsDown list page flags vma ∧
      next.covered = list.covered ∪ pageRange page vma.start := by
  obtain ⟨vma, member, grows, -, tidy, attrs⟩ := vmaGrowDown_outcome grew whole.tidy
  have after : WholePages next := ⟨tidy, whole.edges.vmaGrowDown grew⟩
  have startEdge := (whole.edges vma member grows.can.1).1
  exact ⟨after, vma, grows, covered_filled whole after grows.aligned startEdge attrs fun _ => rfl⟩

end WholePages

end Spore.Mm
