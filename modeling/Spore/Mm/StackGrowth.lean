import Spore.Mm.AddressSpace

/-!
# Which area grows down to a fault (`vma_grow_down`)

The slots of a list are in no order, and `vma_grow_down` decides by the first slot that holds a
grow-down area above the page. That area need not be the nearest one: the call fails when a
grow-down area further up comes first, since then the nearest area is in the way.
-/

namespace Spore.Mm

open Memory List

variable {list : VmaList} {far page : Nat} {vma first : Vma} {flags : UInt32}

/-- The nearest area above a fault is a grow-down area within the allowed gap, and nothing is
mapped in the gap. -/
structure GrowthDue (list : VmaList) (page : Nat) (vma : Vma) : Prop where
  /-- It is one of the areas. -/
  member : vma ∈ list.slots
  /-- It is a stack above the page. -/
  can : canGrow page mapGrowsdown vma = true
  /-- No other area is nearer. -/
  nearest : ∀ other ∈ list.slots, other.used = true → page < other.start → vma.start ≤ other.start
  /-- It does not begin there. -/
  apart : (vma.start - page) / pageSize ≠ 0
  /-- It is not too far away. -/
  near : (vma.start - page) / pageSize ≤ maxGrowdownPages
  /-- Nothing is in between. -/
  unmapped : ∀ va, page ≤ va → va < vma.start → vmaLookup list va = none

/-- Every area has an address. -/
def ProperAreas (list : VmaList) : Prop :=
  ∀ vma ∈ list.slots, vma.used = true → vma.start < vma.stop

/-- The stack is found. -/
theorem GrowsDown.isSome (grows : GrowsDown list page flags vma) :
    (vmaGrowDown list page flags).isSome := by
  obtain ⟨good, index, inside, same, before⟩ := find?_eq_some_iff_getElem.mp grows.first
  have found : list.slots.findIdx? (canGrow page flags) = some index := by
    rw [findIdx?_eq_some_iff_getElem]
    refine ⟨inside, same ▸ good, fun j earlier => ?_⟩
    simpa using before j earlier
  have limit : ¬ ((vma.start - page) / pageSize = 0 ∨
      maxGrowdownPages < (vma.start - page) / pageSize) := by
    have := grows.apart
    have := grows.near
    omega
  unfold vmaGrowDown
  rw [if_neg (not_not.mpr grows.aligned)]
  dsimp only
  unfold canGrow at found
  rw [found]
  dsimp only
  rw [getElem?_eq_getElem inside, same]
  dsimp only
  rw [if_neg limit, grows.free]
  rfl

/-- No area meets the range. -/
theorem vmaOverlaps_eq_false {start stop : Nat} (proper : start < stop) :
    vmaOverlaps list start stop = false ↔
      ∀ vma ∈ list.slots, vma.used → vma.stop ≤ start ∨ stop ≤ vma.start := by
  unfold vmaOverlaps
  rw [if_neg (Nat.not_le.mpr proper), any_eq_false]
  refine forall₂_congr fun vma _ => ?_
  cases vma.used <;> simp [overlaps_eq_false]

/-- The area that grows is the nearest one. -/
theorem GrowsDown.due (grows : GrowsDown list (pageBase far) mapGrowsdown vma)
    (proper : ProperAreas list) : GrowthDue list (pageBase far) vma := by
  obtain ⟨_, above, _⟩ := grows.can
  have free := (vmaOverlaps_eq_false above).mp grows.free
  refine ⟨mem_of_find?_eq_some grows.first, find?_some grows.first, ?_, grows.apart,
    grows.near, fun va low high => ?_⟩
  · intro other member used beyond
    have := free other member used
    have := proper other member used
    omega
  · rw [vmaLookup, find?_eq_none]
    intro other member hit
    simp only [Bool.and_eq_true, decide_eq_true_eq] at hit
    have := free other member hit.1.1
    omega

/-- When growth is due, an area further up does not grow: the nearest one is in its way. -/
theorem GrowthDue.start_eq (due : GrowthDue list page vma) (proper : ProperAreas list)
    (grows : GrowsDown list page flags first) : first.start = vma.start := by
  obtain ⟨used, above, _⟩ := grows.can
  have can := due.can
  simp only [canGrow, Bool.and_eq_true, decide_eq_true_eq] at can
  have beyond := due.nearest first (mem_of_find?_eq_some grows.first) used above
  have free := (vmaOverlaps_eq_false above).mp grows.free vma due.member can.1.1
  have := proper vma due.member can.1.1
  omega

/-- When growth is due, the first grow-down area above the page grows if it is the nearest. -/
theorem GrowthDue.grows (due : GrowthDue list (pageBase far) vma) (proper : ProperAreas list)
    (found : list.slots.find? (canGrow (pageBase far) mapGrowsdown) = some first)
    (same : first.start = vma.start) : GrowsDown list (pageBase far) mapGrowsdown first := by
  have can := due.can
  simp only [canGrow, Bool.and_eq_true, decide_eq_true_eq] at can
  have aligned : pageBase far % pageSize = 0 := by
    unfold pageBase pageSize
    omega
  refine ⟨aligned, found, same ▸ due.apart, same ▸ due.near, ?_⟩
  rw [same, vmaOverlaps_eq_false can.1.2]
  intro other member used
  by_contra meets
  have := proper other member used
  -- The first common address is covered by the other area.
  have hidden := due.unmapped (max (pageBase far) other.start) (by omega) (by omega)
  rw [vmaLookup, find?_eq_none] at hidden
  apply hidden other member
  simp only [used, Bool.true_and, Bool.and_eq_true, decide_eq_true_eq]
  omega

/-- Growth succeeds exactly when it is due, if and only if the first slot that holds a grow-down
area above the page then holds the nearest one. -/
theorem grow_down_nearest_iff (proper : ProperAreas list) :
    ((vmaGrowDown list (pageBase far) mapGrowsdown).isSome = true ↔
      ∃ vma, GrowthDue list (pageBase far) vma) ↔
    ∀ vma, GrowthDue list (pageBase far) vma → ∀ first,
      list.slots.find? (canGrow (pageBase far) mapGrowsdown) = some first →
      first.start = vma.start := by
  constructor
  · intro exact_ vma due first found
    obtain ⟨⟨grown, next⟩, grew⟩ := Option.isSome_iff_exists.mp (exact_.mpr ⟨vma, due⟩)
    obtain ⟨_, other, grows, _⟩ := vmaGrowDown_cases grew
    obtain rfl : other = first := Option.some.inj (grows.first.symm.trans found)
    exact due.start_eq proper grows
  intro nearest
  constructor
  · intro done
    obtain ⟨⟨grown, next⟩, grew⟩ := Option.isSome_iff_exists.mp done
    obtain ⟨_, vma, grows, _⟩ := vmaGrowDown_cases grew
    exact ⟨vma, grows.due proper⟩
  · rintro ⟨vma, due⟩
    cases found : list.slots.find? (canGrow (pageBase far) mapGrowsdown) with
    | none => exact absurd due.can (by simpa using find?_eq_none.mp found vma due.member)
    | some first => exact (due.grows proper found (nearest vma due first found)).isSome

/-- A grow-down area of one page. -/
def stackAt (start : Nat) : Vma :=
  { Vma.zero with
    used := true, start := start, stop := start + pageSize, flags := mapGrowsdown, type := .stack }

/-- Two grow-down areas in the first two slots. -/
def twoStacks (first second : Nat) : VmaList :=
  ⟨[0], stackAt first :: stackAt second :: List.replicate (vmasPerChunk - 2) Vma.zero, rfl⟩

/-- The two areas. -/
theorem mem_twoStacks {first second : Nat} (member : vma ∈ (twoStacks first second).slots)
    (used : vma.used) : vma = stackAt first ∨ vma = stackAt second := by
  simp only [twoStacks, mem_cons, mem_replicate] at member
  rcases member with same | same | ⟨_, rfl⟩
  · exact .inl same
  · exact .inr same
  · cases used

/-- They are proper. -/
theorem properAreas_twoStacks (first second : Nat) : ProperAreas (twoStacks first second) := by
  intro vma member used
  rcases mem_twoStacks member used with rfl | rfl <;> exact Nat.lt_add_of_pos_right (by decide)

/-- The nearest stack above the page grows. -/
theorem grow_down_nearest_first :
    (vmaGrowDown (twoStacks 0x5000 0x9000) (pageBase 0x3fff) mapGrowsdown).isSome = true ↔
      ∃ vma, GrowthDue (twoStacks 0x5000 0x9000) (pageBase 0x3fff) vma := by
  refine (grow_down_nearest_iff (properAreas_twoStacks _ _)).mpr fun vma due first found => ?_
  obtain rfl : stackAt 0x5000 = first := Option.some.inj (Eq.trans (by decide) found)
  have low := due.nearest (stackAt 0x5000) mem_cons_self rfl (by decide)
  have can := due.can
  simp only [canGrow, Bool.and_eq_true] at can
  rcases mem_twoStacks due.member can.1.1 with rfl | rfl
  · rfl
  · exact absurd low (by decide)

/-- The page below the lower stack is free and near, but the upper stack is in the first slot. -/
theorem grow_down_stops_at_farther_stack :
    (vmaGrowDown (twoStacks 0x9000 0x5000) (pageBase 0x4fff) mapGrowsdown).isSome = false ∧
      GrowthDue (twoStacks 0x9000 0x5000) (pageBase 0x4fff) (stackAt 0x5000) := by
  refine ⟨by decide, by decide, by decide, ?_, by decide, by decide, fun va low high => ?_⟩
  · intro other member used _
    rcases mem_twoStacks member used with rfl | rfl <;> decide
  rw [vmaLookup, find?_eq_none]
  intro other member hit
  simp only [Bool.and_eq_true, decide_eq_true_eq] at hit
  have below : other.start < 0x5000 := Nat.lt_of_le_of_lt hit.1.2 high
  rcases mem_twoStacks member hit.1.1 with rfl | rfl <;> exact absurd below (by decide)

end Spore.Mm
