import Spore.Mm.AreaPages
import Spore.Mm.Machine

/-!
# The memory cap of a domain (`proc/policy.c`)

`mmap`, `brk` and `mremap` ask `cell_map_add_allowed` or `cell_map_resize_allowed` before they
add areas; a stack that grows and `execve` do not. A domain here is its address space together
with the memory it lives in, and everything other processes do is one arbitrary step that leaves
this address space alone. Bounds are carried as a set of pages that the areas stay inside.
-/

namespace Spore.Mm

open Spore.Lib Memory Finset

variable {replace : Bool} {oldEnd oldStart newStart newEnd newSize : Nat} {j : SpaceId}
  {segments : List Segment}

/-! ## The checks -/

/-- `memory_pages_allowed`; a cap of zero is none. -/
def memoryPagesAllowed (cap : Nat) (vmas : VmaList) (removedPages addedPages : Nat) : Bool :=
  if cap = 0 then true
  else
    let currentPages := vmaVirtualPages vmas
    let basePages := if currentPages < removedPages then 0 else currentPages - removedPages
    decide (addedPages ≤ cap) && decide (basePages ≤ cap - addedPages)

/-- `cell_map_add_allowed`: the areas with a new range stay below the cap. -/
def cellMapAddAllowed (cap : Nat) (vmas : VmaList) (start stop : Nat) (replaceExisting : Bool) :
    Bool :=
  if cap = 0 then true
  else
    memoryPagesAllowed cap vmas (if replaceExisting then overlapPages vmas start stop else 0)
      (pageCount start stop)

/-- `cell_map_resize_allowed`: likewise when a range is replaced by another. -/
def cellMapResizeAllowed (cap : Nat) (vmas : VmaList) (oldStart oldEnd newStart newEnd : Nat)
    (replaceNew : Bool) : Bool :=
  if cap = 0 then true
  else
    memoryPagesAllowed cap vmas
      (overlapPages vmas oldStart oldEnd +
        if replaceNew then overlapPages vmas newStart newEnd else 0)
      (pageCount newStart newEnd)

/-- What `sys_mmap` asks, once it has settled on a range. -/
def mmapAllowed (cap : Nat) (space : Space) (call : MmapCall) : Bool :=
  match mmapRange space call with
  | .error _ => true
  | .ok (base, stop, _) => cellMapAddAllowed cap space.vmas base stop (hasFlag call.flags mapFixed)

/-- What `sys_brk` asks when the break grows. -/
def brkAllowed (cap : Nat) (space : Space) (requested : Nat) : Bool :=
  cellMapAddAllowed cap space.vmas (alignUp space.as.brkCurrent) (alignUp requested) false

/-- What `sys_mremap` asks when a mapping grows where it is, or moves. -/
def mremapAllowed (cap : Nat) (space : Space) (call : MremapCall) (oldEnd newSize : Nat) : Bool :=
  if mremapFits space call oldEnd newSize then
    cellMapAddAllowed cap space.vmas oldEnd (call.oldAddr + newSize) false
  else match mremapTarget space call newSize with
    | .error _ => true
    | .ok newStart => cellMapResizeAllowed cap space.vmas call.oldAddr oldEnd newStart
        (newStart + newSize) (hasFlag call.flags mremapFixed)

/-! ## Bounds -/

/-- The areas are whole pages inside a set, and new ones start at a page. -/
structure Inside (pages : Finset Nat) (space : Space) : Prop where
  /-- Areas are of whole pages. -/
  whole : WholePages space.vmas
  /-- The base is one of a page. -/
  base : PageEdge space.as.mmapBase
  /-- Areas are among the pages. -/
  inside : space.vmas.covered ⊆ pages

namespace Inside

variable {pages more : Finset Nat} {space space' : Space}

/-- A larger bound is a bound. -/
theorem mono (bound : Inside pages space) (larger : pages ⊆ more) : Inside more space :=
  ⟨bound.whole, bound.base, bound.inside.trans larger⟩

/-- Only areas and the place for new ones matter. -/
theorem congr (bound : Inside pages space) (vmas : space'.vmas = space.vmas)
    (base : space'.as.mmapBase = space.as.mmapBase) : Inside pages space' :=
  ⟨vmas ▸ bound.whole, base ▸ bound.base, vmas ▸ bound.inside⟩

/-- The same space is inside. -/
theorem same (bound : Inside pages space) (same : SameSpace space space') : Inside pages space' :=
  bound.congr same.vmas same.base

end Inside

/-- The areas are inside some set of at most `cap` pages. -/
def Within (cap : Nat) (space : Space) : Prop := ∃ pages, pages.card ≤ cap ∧ Inside pages space

namespace Within

variable {cap : Nat} {space space' : Space}

section

variable (within : Within cap space)

include within

/-- The cap is one of the areas and the mmap base. -/
theorem congr (vmas : space'.vmas = space.vmas)
    (base : space'.as.mmapBase = space.as.mmapBase) : Within cap space' := by
  obtain ⟨pages, small, bound⟩ := within
  exact ⟨pages, small, bound.congr vmas base⟩

/-- The same space is within its cap. -/
theorem same (same : SameSpace space space') : Within cap space' :=
  within.congr same.vmas same.base

/-- The set can be taken to be the pages of the areas. -/
theorem exact : space.vmas.covered.card ≤ cap ∧ Inside space.vmas.covered space := by
  obtain ⟨pages, small, bound⟩ := within
  exact ⟨(card_le_card bound.inside).trans small, bound.whole, bound.base, Finset.Subset.refl _⟩

/-- `vma_virtual_pages` does not exceed the cap. -/
theorem count : vmaVirtualPages space.vmas ≤ cap := by
  rw [within.exact.2.whole.virtualPages]
  exact within.exact.1

end

end Within

/-! ## What the checks promise -/

section Checks

variable {cap : Nat} {vmas : VmaList} {start stop : Nat} (limited : cap ≠ 0)
  (whole : WholePages vmas) (startEdge : PageEdge start) (stopEdge : PageEdge stop)

include limited whole startEdge stopEdge

/-- A range that may be added fits, whatever it replaces. -/
theorem cellMapAddAllowed_room (allowed : cellMapAddAllowed cap vmas start stop replace) :
    (vmas.covered ∪ pageRange start stop).card ≤ cap := by
  have sum := card_union_add_card_inter vmas.covered (pageRange start stop)
  have part : (vmas.covered ∩ pageRange start stop).card ≤ vmas.covered.card :=
    card_le_card inter_subset_left
  rw [card_pageRange startEdge stopEdge] at sum
  rw [← whole.overlapPages startEdge stopEdge] at sum part
  rw [← whole.virtualPages] at sum part
  unfold cellMapAddAllowed memoryPagesAllowed at allowed
  cases replace <;> grind

/-- A move that is allowed fits once the old range is gone. -/
theorem cellMapResizeAllowed_room (oldStartEdge : PageEdge oldStart) (oldEndEdge : PageEdge oldEnd)
    (apart : overlaps oldStart oldEnd start stop = false)
    (allowed : cellMapResizeAllowed cap vmas oldStart oldEnd start stop replace) :
    (vmas.covered \ pageRange oldStart oldEnd ∪ pageRange start stop).card ≤ cap := by
  have sum := card_union_add_card_inter (vmas.covered \ pageRange oldStart oldEnd)
    (pageRange start stop)
  have left := card_sdiff_add_card_inter vmas.covered (pageRange oldStart oldEnd)
  have common : (vmas.covered \ pageRange oldStart oldEnd) ∩ pageRange start stop =
      vmas.covered ∩ pageRange start stop := by
    ext p
    rw [overlaps_eq_false] at apart
    simp only [mem_inter, mem_sdiff, pageRange, mem_Ico, pageSize]
    grind
  have part : ((vmas.covered \ pageRange oldStart oldEnd) ∩ pageRange start stop).card ≤
      (vmas.covered \ pageRange oldStart oldEnd).card :=
    card_le_card inter_subset_left
  rw [common, card_pageRange startEdge stopEdge] at sum
  rw [common] at part
  rw [← whole.overlapPages startEdge stopEdge] at sum part
  rw [← whole.overlapPages oldStartEdge oldEndEdge, ← whole.virtualPages] at left
  unfold cellMapResizeAllowed memoryPagesAllowed at allowed
  cases replace <;> grind

end Checks

section Host

variable {F : Type} (host : FileHost F) {s : Memory F} {id : SpaceId} {pages : Finset Nat}
  {start stop : Nat}

section Range

variable (bound : Inside pages (s.space id)) (startEdge : PageEdge start) (stopEdge : PageEdge stop)

include bound startEdge stopEdge

omit startEdge stopEdge in
/-- A call on the areas that stays inside. -/
theorem Inside.withVmas {more : Finset Nat} {call : VmaList → Phys F → Bool × VmaList × Phys F}
    (whole : WholePages (call (s.space id).vmas s.phys).2.1)
    (inside : (call (s.space id).vmas s.phys).2.1.covered ⊆ more) :
    Inside more ((s.withVmas id call).2.space id) :=
  ⟨by rwa [withVmas_vmas], by rw [withVmas_mmapBase]; exact bound.base, by rwa [withVmas_vmas]⟩

omit startEdge stopEdge in
/-- An area list function that adds a range or fails. -/
theorem Inside.adding {call : VmaList → Phys F → Bool × VmaList × Phys F}
    (spec : WholePages (call (s.space id).vmas s.phys).2.1 ∧
      ((call (s.space id).vmas s.phys).1 = false →
        (call (s.space id).vmas s.phys).2.1.covered = (s.space id).vmas.covered) ∧
      ((call (s.space id).vmas s.phys).1 →
        (call (s.space id).vmas s.phys).2.1.covered =
          (s.space id).vmas.covered ∪ pageRange start stop)) :
    Inside (pages ∪ pageRange start stop) ((s.withVmas id call).2.space id) := by
  obtain ⟨whole, failed, done⟩ := spec
  apply bound.withVmas whole
  cases result : (call (s.space id).vmas s.phys).1 with
  | false =>
    rw [failed result]
    exact bound.inside.trans subset_union_left
  | true =>
    rw [done result]
    exact union_subset_union_left bound.inside

/-- An area adds its pages. -/
theorem Inside.addVmaTyped (prot flags : UInt32) (type : VmaType) :
    Inside (pages ∪ pageRange start stop)
      ((s.addVmaTyped host id start stop prot flags type).2.space id) :=
  bound.adding
    (bound.whole.vmaInsert (physVmaHost host) s.phys startEdge stopEdge prot flags type)

/-- So does a file area. -/
theorem Inside.addFileVma (prot flags : UInt32) (node : VfsNode)
    (fileStart fileOffset fileSize : Nat) :
    Inside (pages ∪ pageRange start stop) ((s.addFileVma host id start stop prot flags node
      fileStart fileOffset fileSize).2.space id) :=
  bound.adding
    (bound.whole.vmaInsertFile (physVmaHost host) s.phys startEdge stopEdge prot flags node
      fileStart fileOffset fileSize)

/-- So does one that is moved. -/
theorem Inside.addMremapVma (old : Vma) (fileStart fileSize : Nat) :
    Inside (pages ∪ pageRange start stop)
      ((s.addMremapVma host id start stop old fileStart fileSize).2.space id) := by
  unfold Memory.addMremapVma
  split
  · exact bound.addFileVma host startEdge stopEdge _ _ _ _ _ _
  · exact bound.addVmaTyped host startEdge stopEdge _ _ _

/-- `cell_remove_vma` adds nothing, and when it succeeds the range is gone. -/
theorem Inside.removeVma :
    Inside pages ((s.removeVma host id start stop).2.space id) ∧
      ((s.removeVma host id start stop).1 →
        Inside (pages \ pageRange start stop) ((s.removeVma host id start stop).2.space id)) := by
  have flushed := bound.same ((SameAreas.flushShared host s id start stop).space id)
  unfold Memory.removeVma
  dsimp only
  split
  · exact ⟨flushed, fun done => (nomatch done)⟩
  generalize (s.flushShared host id start stop).2 = t at flushed
  have unmapped := flushed.same ((SameAreas.unmapRange t id start stop).space id)
  generalize t.unmapRange id start stop = u at unmapped
  obtain ⟨whole, failed, done⟩ :=
    unmapped.whole.vmaRemove (physVmaHost host) u.phys startEdge stopEdge
  refine ⟨unmapped.withVmas whole ?_, fun result => unmapped.withVmas whole ?_⟩
  · cases result : (vmaRemove (physVmaHost host) (u.space id).vmas start stop u.phys).1 with
    | false =>
      rw [failed result]
      exact unmapped.inside
    | true =>
      rw [done result]
      exact sdiff_subset.trans unmapped.inside
  · rw [done result]
    exact sdiff_subset_sdiff unmapped.inside (Finset.Subset.refl _)

/-- A fixed place is cleared first. -/
theorem Inside.clearIf (fixed : Bool) : Inside pages
    ((if fixed then (s.removeVma host id start stop).2 else s).space id) := by
  split
  · exact (bound.removeVma host startEdge stopEdge).1
  · exact bound

/-- `cell_protect_vma` keeps the pages. -/
theorem Inside.protectVma (prot : UInt32) :
    Inside pages ((s.protectVma host id start stop prot).2.space id) := by
  obtain ⟨whole, covered⟩ :=
    bound.whole.vmaProtect (physVmaHost host) s.phys startEdge stopEdge prot
  have changed : Inside pages ((s.withVmas id fun list phys =>
      vmaProtect (physVmaHost host) list start stop prot phys).2.space id) :=
    bound.withVmas whole (covered.symm ▸ bound.inside)
  unfold Memory.protectVma
  dsimp only
  split
  · exact changed
  · exact changed.same ((SameAreas.protectRange _ id start stop prot).space id)

end Range

/-! ## System calls -/

/-- The end of `sys_mmap` adds its range at most. -/
theorem Inside.mmapInsert (bound : Inside pages (s.space id)) (startEdge : PageEdge start)
    (stopEdge : PageEdge stop) (call : MmapCall) :
    Inside (pages ∪ pageRange start stop) ((s.mmapInsert host id call start stop).2.space id) := by
  have cleared := bound.clearIf host startEdge stopEdge (hasFlag call.flags mapFixed)
  unfold Memory.mmapInsert
  generalize (if hasFlag call.flags mapFixed then (s.removeVma host id start stop).2 else s) = t
    at cleared
  split
  · have added := cleared.addVmaTyped host startEdge stopEdge (protToVmm call.prot)
      (storedFlags call.flags) (anonType call)
    unfold mmapAnon
    dsimp only
    generalize t.addVmaTyped host id start stop (protToVmm call.prot) (storedFlags call.flags)
      (anonType call) = u at added ⊢
    split
    · exact added
    split
    · have filled := added.same ((SameAreas.prefaultAnonVma u.2 id start stop).space id)
      split
      · exact filled
      · exact (filled.removeVma host startEdge stopEdge).1
    · exact added
  · have kept := (cleared.mono subset_union_left : Inside (pages ∪ pageRange start stop) _)
    unfold mmapFile
    split
    · exact kept
    split
    · exact kept
    split
    · exact kept
    have added := fun node => cleared.addFileVma host startEdge stopEdge
      (protToVmm call.prot) (storedFlags call.flags) node start call.off call.len
    dsimp only
    split
    · exact added _
    · exact added _

/-- The base moves to a page. -/
theorem Inside.setMmapBase {base : Nat} (bound : Inside pages (s.space id)) (edge : PageEdge base) :
    Inside pages ((s.setMmapBase id base).space id) :=
  ⟨by simpa using bound.whole, by rw [setMmapBase_self]; exact edge, by simpa using bound.inside⟩

section

variable {cap : Nat} (bound : Inside pages (s.space id)) (small : pages.card ≤ cap)

include bound small

/-- A small bound is within the cap. -/
theorem Inside.within : Within cap (s.space id) := ⟨pages, small, bound⟩

/-- `sys_mmap` keeps the areas, or adds a range that it was allowed to add. -/
theorem Inside.sysMmap (call : MmapCall)
    (room : ∀ base stop moved, PageEdge base → PageEdge stop →
      mmapRange (s.space id) call = .ok (base, stop, moved) →
      call.allowed → (pages ∪ pageRange base stop).card ≤ cap) :
    Within cap ((s.sysMmap host id call).2.space id) := by
  unfold Memory.sysMmap
  dsimp only
  split
  · exact bound.within small
  split
  · exact bound.within small
  rename_i base stop moved range
  obtain ⟨baseEdge, stopEdge⟩ := mmapRange_aligned bound.base range
  have placed : Inside pages ((if moved = true then s.setMmapBase id stop else s).space id) := by
    split
    · exact bound.setMmapBase stopEdge
    · exact bound
  generalize (if moved = true then s.setMmapBase id stop else s) = t at placed
  split
  · exact placed.within small
  split
  · exact placed.within small
  rename_i allowed
  have inserted := placed.mmapInsert host baseEdge stopEdge call
  refine ⟨_, room base stop moved baseEdge stopEdge range (by simpa using allowed), ?_⟩
  split
  · exact inserted.setMmapBase stopEdge
  · exact inserted

end

/-- A range ends on a page. -/
theorem rangeStop_aligned (addr len : Nat) : PageEdge (rangeStop addr len) := alignUp_aligned _

section

variable (bound : Inside pages (s.space id))

include bound

/-- An unmapped range adds nothing. -/
theorem Inside.sysMunmap (addr len : Nat) :
    Inside pages ((s.sysMunmap host id addr len).2.space id) := by
  unfold Memory.sysMunmap
  split
  · exact bound
  · exact (bound.removeVma host (alignDown_aligned addr) (rangeStop_aligned addr len)).1

/-- Neither do other rights. -/
theorem Inside.sysMprotect (addr len : Nat)
    (prot : BitVec 64) : Inside pages ((s.sysMprotect host id addr len prot).2.space id) := by
  unfold Memory.sysMprotect
  split
  · exact bound
  have changed := bound.protectVma host (alignDown_aligned addr)
    (rangeStop_aligned addr len) (protToVmm prot)
  generalize alignDown addr = start at changed ⊢
  generalize rangeStop addr len = stop at changed ⊢
  unfold protectPages
  dsimp only
  generalize s.protectVma host id start stop (protToVmm prot) = t at changed ⊢
  split
  · exact changed
  · split
    · exact changed
    · exact changed.same ((SameAreas.protectRange t.2 id start stop _).space id)

/-- Neither does the break itself. -/
theorem Inside.setBrk (brk : Nat) : Inside pages ((s.setBrk id brk).space id) :=
  bound.congr (setBrk_vmas s id) (setBrk_mmapBase s id)

/-- The heap grows when the cap allows it. -/
theorem Inside.sysBrk {cap : Nat} (small : pages.card ≤ cap) (requested : Nat) (allowed : Bool)
    (room : allowed →
      (pages ∪ pageRange (alignUp (s.space id).as.brkCurrent) (alignUp requested)).card ≤ cap) :
    Within cap ((s.sysBrk host id requested allowed).space id) := by
  unfold Memory.sysBrk
  dsimp only
  split
  · exact bound.within small
  split
  · obtain ⟨removed, -⟩ := bound.removeVma host (alignUp_aligned requested)
      (alignUp_aligned (s.space id).as.brkCurrent)
    refine ⟨pages, small, ?_⟩
    split
    · exact removed.setBrk requested
    · exact removed
  · split
    · split
      · exact bound.within small
      rename_i granted
      have added := bound.addVmaTyped host (alignUp_aligned (s.space id).as.brkCurrent)
        (alignUp_aligned requested) (vmmUserRead ||| vmmUserWrite) 0 .anon
      refine ⟨_, room (by simpa using granted), ?_⟩
      split
      · exact added.setBrk requested
      · exact added
    · exact ⟨pages, small, bound.setBrk requested⟩

end

/-- `cell_remove_vma` on the old range, as `sys_mremap` calls it when it moves a mapping; the
source ignores the result. -/
def mremapReleases (host : FileHost F) (s : Memory F) (id : SpaceId) (call : MremapCall)
    (oldEnd newSize : Nat) : Bool :=
  match mremapTarget (s.space id) call newSize with
  | .error _ => true
  | .ok newStart =>
    let s := if hasFlag call.flags mremapFixed then s else s.setMmapBase id (newStart + newSize)
    let s :=
      if hasFlag call.flags mremapFixed then
        (s.removeVma host id newStart (newStart + newSize)).2
      else s
    let moved := s.moveMappedPages id call.oldAddr (min (oldEnd - call.oldAddr) newSize) newStart
    (moved.2.removeVma host id call.oldAddr oldEnd).1

/-- The end of a move: the old range is gone if it could be removed. -/
theorem Inside.mremapRelocate (bound : Inside pages (s.space id)) (old : Vma)
    (oldStartEdge : PageEdge oldStart)
    (oldEndEdge : PageEdge oldEnd) (newStartEdge : PageEdge newStart)
    (newEndEdge : PageEdge newEnd) (newSize : Nat) :
    Inside (pages ∪ pageRange newStart newEnd)
        ((s.mremapRelocate host id old oldStart oldEnd newStart newEnd newSize).2.space id) ∧
      (((s.moveMappedPages id oldStart (min (oldEnd - oldStart) newSize) newStart).2.removeVma
        host id oldStart oldEnd).1 →
        Inside pages
          ((s.mremapRelocate host id old oldStart oldEnd newStart newEnd newSize).2.space id) ∨
        Inside (pages \ pageRange oldStart oldEnd ∪ pageRange newStart newEnd)
          ((s.mremapRelocate host id old oldStart oldEnd newStart newEnd newSize).2.space id)) := by
  have moved := bound.same ((SameAreas.moveMappedPages s id oldStart
    (min (oldEnd - oldStart) newSize) newStart).space id)
  unfold Memory.mremapRelocate
  dsimp only
  generalize s.moveMappedPages id oldStart (min (oldEnd - oldStart) newSize) newStart = t at moved ⊢
  split
  · exact ⟨moved.mono subset_union_left, fun _ => .inl moved⟩
  obtain ⟨kept, gone⟩ := moved.removeVma host oldStartEdge oldEndEdge
  constructor
  · have added := kept.addMremapVma host newStartEdge newEndEdge old newStart newSize
    split
    · exact added
    · exact added
  · intro done
    have added := (gone done).addMremapVma host newStartEdge newEndEdge old newStart newSize
    right
    split
    · exact added
    · exact added

/-- Sums of page addresses. -/
theorem PageEdge.add {a b : Nat} (first : PageEdge a) (second : PageEdge b) : PageEdge (a + b) :=
  add_aligned first second

section

variable {cap : Nat} (bound : Inside pages (s.space id)) (small : pages.card ≤ cap)

include bound small

/-- The part of `sys_mremap` that moves a mapping. -/
theorem Inside.mremapMove (call : MremapCall) (old : Vma)
    (oldStartEdge : PageEdge call.oldAddr) (oldEndEdge : PageEdge oldEnd)
    (newStartEdge : PageEdge newStart) (newEndEdge : PageEdge newEnd) (newSize : Nat)
    (room : overlaps call.oldAddr oldEnd newStart newEnd = false → call.allowed →
      (pages ∪ pageRange newStart newEnd).card ≤ cap ∨
      (pages \ pageRange call.oldAddr oldEnd ∪ pageRange newStart newEnd).card ≤ cap ∧
        (((if hasFlag call.flags mremapFixed then (s.removeVma host id newStart newEnd).2
          else s).moveMappedPages id call.oldAddr (min (oldEnd - call.oldAddr) newSize)
          newStart).2.removeVma host id call.oldAddr oldEnd).1) :
    Within cap ((s.mremapMove host id call old oldEnd newStart newEnd newSize).2.space id) := by
  have cleared := bound.clearIf host newStartEdge newEndEdge (hasFlag call.flags mremapFixed)
  unfold Memory.mremapMove
  dsimp only
  split
  · exact bound.within small
  rename_i apart
  split
  · exact bound.within small
  rename_i allowed
  have fits := room (by simpa using apart) (by simpa using allowed)
  generalize (if hasFlag call.flags mremapFixed then (s.removeVma host id newStart newEnd).2
    else s) = t at cleared fits ⊢
  split
  · exact cleared.within small
  obtain ⟨kept, gone⟩ := cleared.mremapRelocate host old oldStartEdge oldEndEdge newStartEdge
    newEndEdge newSize
  rcases fits with both | ⟨one, released⟩
  · exact ⟨_, both, kept⟩
  · rcases gone released with still | moved
    · exact ⟨_, small, still⟩
    · exact ⟨_, one, moved⟩

/-- `sys_mremap` when the mapping grows in place or moves. -/
theorem Inside.mremapResize (call : MremapCall) (old : Vma)
    (oldStartEdge : PageEdge call.oldAddr) (oldEndEdge : PageEdge oldEnd)
    (sizeEdge : PageEdge newSize)
    (grows : mremapFits (s.space id) call oldEnd newSize → call.allowed →
      (pages ∪ pageRange oldEnd (call.oldAddr + newSize)).card ≤ cap)
    (moves : ∀ newStart, PageEdge newStart →
      mremapFits (s.space id) call oldEnd newSize = false →
      (hasFlag call.flags mremapFixed ∨ hasFlag call.flags mremapMaymove) →
      mremapTarget (s.space id) call newSize = .ok newStart →
      overlaps call.oldAddr oldEnd newStart (newStart + newSize) = false → call.allowed →
      (pages ∪ pageRange newStart (newStart + newSize)).card ≤ cap ∨
      (pages \ pageRange call.oldAddr oldEnd ∪ pageRange newStart (newStart + newSize)).card ≤ cap ∧
        mremapReleases host s id call oldEnd newSize) :
    Within cap ((s.mremapResize host id call old oldEnd newSize).2.space id) := by
  unfold Memory.mremapResize
  dsimp only
  split
  · rename_i fits
    split
    · exact bound.within small
    rename_i allowed
    have added := bound.addMremapVma host oldEndEdge (oldStartEdge.add sizeEdge) old
      old.fileStart newSize
    refine ⟨_, grows fits (by simpa using allowed), ?_⟩
    split
    · exact added
    · exact added
  rename_i fits
  split
  · exact bound.within small
  rename_i free
  split
  · exact bound.within small
  rename_i newStart target
  have startEdge : PageEdge newStart := mremapTarget_aligned target
  have mayMove : hasFlag call.flags mremapFixed ∨ hasFlag call.flags mremapMaymove := by
    by_cases fixed : hasFlag call.flags mremapFixed
    · exact .inl fixed
    · exact .inr (by simpa [fixed] using free)
  have room := moves newStart startEdge (by simpa using fits) mayMove target
  simp only [mremapReleases, target] at room
  have placed : Inside pages ((if hasFlag call.flags mremapFixed then s
      else s.setMmapBase id (newStart + newSize)).space id) := by
    split
    · exact bound
    · exact bound.setMmapBase (startEdge.add sizeEdge)
  generalize (if hasFlag call.flags mremapFixed then s
    else s.setMmapBase id (newStart + newSize)) = t at placed room ⊢
  split
  · exact placed.within small
  rename_i newEnd sum
  obtain rfl := checkedAdd_eq sum
  exact placed.mremapMove host small call old oldStartEdge oldEndEdge startEdge
    (startEdge.add sizeEdge) newSize room

/-- `sys_mremap` keeps, shrinks, grows or moves a mapping. -/
theorem Inside.sysMremap (call : MremapCall)
    (resizes : ∀ old, PageEdge call.oldAddr →
      (hasFlag call.flags mremapFixed ∨ alignUp call.oldLen < alignUp call.newLen) →
      Within cap ((s.mremapResize host id call old (call.oldAddr + alignUp call.oldLen)
        (alignUp call.newLen)).2.space id)) :
    Within cap ((s.sysMremap host id call).2.space id) := by
  have oldSizeEdge : PageEdge (alignUp call.oldLen) := alignUp_aligned _
  have newSizeEdge : PageEdge (alignUp call.newLen) := alignUp_aligned _
  unfold Memory.sysMremap
  dsimp only
  generalize alignUp call.oldLen = oldSize at oldSizeEdge resizes ⊢
  generalize alignUp call.newLen = newSize at newSizeEdge resizes ⊢
  split
  · exact bound.within small
  rename_i checked
  have oldEdge : PageEdge call.oldAddr := not_not.mp (not_or.mp checked).1
  split
  · exact bound.within small
  split
  · exact bound.within small
  rename_i oldEnd sum
  obtain rfl := checkedAdd_eq sum
  split
  · exact bound.within small
  split
  · exact bound.within small
  split
  · exact bound.within small
  rename_i differs
  split
  · exact ⟨pages, small,
      (bound.removeVma host (oldEdge.add newSizeEdge) (oldEdge.add oldSizeEdge)).1⟩
  rename_i larger
  refine resizes _ oldEdge ?_
  by_cases fixed : hasFlag call.flags mremapFixed
  · exact .inl fixed
  · simp only [fixed, and_true] at differs larger
    omega

end

/-! ## Faults -/

/-- The area that `vma_grow_down` would extend down to a page, when none has the page. -/
def growthArea (vmas : VmaList) (page : Nat) : Option Vma :=
  if (vmaLookup vmas page).isSome then none
  else (vmas.slots.find? fun vma => vma.used && decide (page < vma.start) &&
    decide (vma.flags &&& mapGrowsdown = mapGrowsdown)).filter fun vma =>
      decide ((vma.start - page) / pageSize ≤ maxGrowdownPages) && !vmaOverlaps vmas page vma.start

section

variable {cap : Nat} (bound : Inside pages (s.space id)) (small : pages.card ≤ cap)

include bound small

/-- The lookup of the fault handlers adds the pages up to the area that grows, when the process is
the current one. -/
theorem Inside.areaFor (current target : SpaceId) (page : Nat)
    (room : current = id → ∀ vma ∈ growthArea (s.space id).vmas page,
      (pages ∪ pageRange page vma.start).card ≤ cap) :
    Within cap ((s.areaFor current target page).2.space id) := by
  unfold Memory.areaFor
  split
  · exact bound.within small
  split
  · exact bound.within small
  rename_i grown next grew
  by_cases here : current = id
  · subst here
    obtain ⟨whole, vma, grows, covered⟩ := bound.whole.vmaGrowDown grew
    have chosen : growthArea (s.space current).vmas page = some vma := by
      have first : (s.space current).vmas.slots.find? (fun vma => vma.used &&
          decide (page < vma.start) &&
          decide (vma.flags &&& mapGrowsdown = mapGrowsdown)) = some vma := grows.first
      have missing := attrsAt_of_free grows.free le_rfl grows.can.2.1
      rw [attrsAt, Option.map_eq_none_iff] at missing
      rw [growthArea, missing, first]
      simp [grows.near, grows.free]
    refine ⟨_, room rfl vma chosen, ?_⟩
    have vmas : ((s.setVmas current next).space current).vmas = next :=
      Memory.vmas_setVmas_self next
    have base : ((s.setVmas current next).space current).as.mmapBase =
        (s.space current).as.mmapBase := by
      simp [setVmas, setSpace]
    refine ⟨vmas.symm ▸ whole, base.symm ▸ bound.base, ?_⟩
    rw [vmas, covered]
    exact union_subset_union_left bound.inside
  · have other : (s.setVmas current next).space id = s.space id := by
      simp [setVmas, setSpace, Ne.symm here]
    rw [other]
    exact bound.within small

/-- A fault adds the growth of the stack at most. -/
theorem Inside.handleAbort (far : Nat) (kind : Abort)
    (room : ∀ vma ∈ growthArea (s.space id).vmas (pageBase far),
      (pages ∪ pageRange (pageBase far) vma.start).card ≤ cap) :
    Within cap ((s.handleAbort host id far kind).2.space id) := by
  have translation : ∀ access,
      Within cap ((s.handleTranslationFault host id far access).2.space id) := by
    intro access
    have area := bound.areaFor small id id (pageBase far) fun _ => room
    unfold handleTranslationFault
    dsimp only
    generalize s.areaFor id id (pageBase far) = t at area ⊢
    split
    · exact area
    split
    · exact area
    · split
      · exact area
      · exact area.same ((SameAreas.faultIn host t.2 id _ _).space id)
  have still := bound.within small
  unfold Memory.handleAbort
  split
  · exact translation _
  · exact still.same ((SameAreas.handlePermissionFault s id far _).space id)
  · exact translation _
  rename_i write
  have cow : SameAreas s (if write then s.handleCowFault id far else (false, s)).2 := by
    split
    · exact .handleCowFault s id far
    · exact .refl s
  dsimp only
  generalize (if write then s.handleCowFault id far else (false, s)) = t at cow ⊢
  split
  · exact still.same (cow.space id)
  · exact still.same ((cow.trans (.handlePermissionFault _ id far _)).space id)

/-- One page of `cell_domain_ensure_user_range`. -/
theorem Inside.ensurePage (current target : SpaceId) (access : VmmAccess) (page : Nat)
    (room : current = id → ∀ vma ∈ growthArea (s.space id).vmas page,
      (pages ∪ pageRange page vma.start).card ≤ cap) :
    Within cap ((Memory.ensurePage host current target access page s).2.space id) := by
  have present : Within cap ((presentPage host current target access page s).2.space id) := by
    have area := bound.areaFor small current target page room
    unfold presentPage
    split
    · exact bound.within small
    dsimp only
    generalize s.areaFor current target page = t at area ⊢
    split
    · exact area
    · split
      · exact area
      · exact area.same ((SameAreas.faultIn host t.2 target _ _).space id)
  unfold Memory.ensurePage
  dsimp only
  generalize presentPage host current target access page s = t at present ⊢
  split
  · exact present
  have opened := present.same ((SameAreas.writablePage t.2 target access page).space id)
  split
  · exact opened
  · exact opened

end

/-! ## Images -/

/-- The pages of the segments of an image. -/
def segmentPages (segments : List Segment) : Nat :=
  (segments.map fun seg => pageCount seg.start seg.stop).sum

/-- The pages of an image: its segments and its stack. -/
def imagePages (image : Image) : Nat :=
  segmentPages image.segments + pageCount (userStackTop - userStackSize) userStackTop

/-- Loading segments adds their pages at most. -/
theorem loadSegments_inside : ∀ {pages : Finset Nat} {s : Memory F},
    Inside pages (s.space .image) → ∃ more, more.card ≤ pages.card + segmentPages segments ∧
      Inside more ((loadSegments host segments s).2.space .image) := by
  induction segments with
  | nil => exact fun {pages s} bound => ⟨pages, Nat.le_add_right _ _, bound⟩
  | cons seg rest ih =>
    intro pages s bound
    have startEdge : PageEdge seg.start := alignDown_aligned _
    have stopEdge : PageEdge seg.stop := alignUp_aligned _
    have added := bound.addFileVma host startEdge stopEdge seg.prot 0 seg.node seg.vaddr seg.offset
      seg.fileSize
    have size := card_union_le pages (pageRange seg.start seg.stop)
    rw [card_pageRange startEdge stopEdge] at size
    have total : segmentPages (seg :: rest) = pageCount seg.start seg.stop + segmentPages rest := by
      simp [segmentPages]
    unfold loadSegments
    dsimp only
    split
    · obtain ⟨more, small, loaded⟩ := ih added
      exact ⟨more, by omega, loaded⟩
    · exact ⟨_, by omega, added⟩

/-- Loading segments touches the image only. -/
theorem loadSegments_other (other : j ≠ .image) :
    ∀ s : Memory F, (loadSegments host segments s).2.space j = s.space j := by
  induction segments with
  | nil => exact fun _ => rfl
  | cons seg rest ih =>
    intro s
    have added : (s.addFileVma host .image seg.start seg.stop seg.prot 0 seg.node seg.vaddr
        seg.offset seg.fileSize).2.space j = s.space j := withVmas_other s .image _ other
    unfold loadSegments
    dsimp only
    split
    · rw [ih, added]
    · exact added

/-- Draft the stack fills pages and adds no area. -/
theorem SameAreas.buildStack (pieces : List (Nat × List UInt8)) :
    ∀ s : Memory F, SameAreas s (Memory.buildStack pieces s).2 := by
  induction pieces with
  | nil => exact fun s => .refl s
  | cons piece rest ih =>
    intro s
    have room : SameAreas s (s.ensureStackRange piece.1 piece.2.length).2 := by
      unfold ensureStackRange
      split
      · exact .refl s
      apply SameAreas.countUp
      intro k s
      dsimp only
      split
      · exact .refl s
      · exact .allocPage s .image _ _
    have copied := room.trans (.copyToUser _ .image piece.1 piece.2)
    unfold Memory.buildStack
    dsimp only
    split
    · exact room
    · split
      · exact copied.trans (ih _)
      · exact copied

/-- A discarded address space has no areas. -/
theorem Inside.discard (bound : Inside pages (s.space id)) :
    Inside pages ((s.discard host id).space id) := by
  have vmas : ((s.discard host id).space id).vmas = .init := by
    simp [Memory.discard, retire, setVmas, setSpace, setPhys]
  have base : ((s.discard host id).space id).as.mmapBase = (s.space id).as.mmapBase := by
    simp only [Memory.discard, retire, setVmas, setSpace, setPhys, if_true]
    unfold destroy
    dsimp only
    split
    · rfl
    · simp [setSpace, setPhys]
  refine ⟨vmas.symm ▸ .init, base.symm ▸ bound.base, ?_⟩
  rw [vmas]
  exact empty_subset _

/-- `cell_mm_release` keeps the areas of an address space or empties it. -/
theorem Inside.mmRelease (bound : Inside pages (s.space id)) (slot : Nat) :
    Inside pages ((s.mmRelease host slot).space id) := by
  have counted : Inside pages ((s.setSpace (.mm slot) fun space =>
      { space with refcount := space.refcount - 1 }).space id) := by
    apply bound.congr
    · simp only [setSpace]
      split <;> rfl
    · simp only [setSpace]
      split <;> rfl
  unfold Memory.mmRelease
  dsimp only
  split
  · exact bound
  generalize (s.setSpace (.mm slot) fun space =>
    { space with refcount := space.refcount - 1 }) = t at counted ⊢
  split
  · exact counted
  have flushed := counted.same ((SameAreas.flushShared host t (.mm slot) 0 (2 ^ 64 - 1)).space id)
  by_cases here : id = .mm slot
  · subst here
    exact flushed.discard host
  · rw [discard_others here]
    exact flushed

/-- An image under construction: its pages are bounded and the other address spaces are as
before. -/
structure Draft (cap : Nat) (s t : Memory F) : Prop where
  /-- The image is within the cap. -/
  within : Within cap (t.space .image)
  /-- The other spaces stay. -/
  others : ∀ j, j ≠ .image → SameSpace (s.space j) (t.space j)

namespace Draft

variable {cap : Nat} {t u : Memory F}

/-- Steps that keep the areas keep the draft. -/
theorem same (draft : Draft cap s t) (same : SameAreas t u) : Draft cap s u :=
  ⟨draft.within.same (same.space .image),
    fun j other => (draft.others j other).trans (same.space j)⟩

/-- A draft is thrown away: other spaces stay. -/
theorem discard (draft : Draft cap s t) (other : j ≠ .image) :
    SameSpace (s.space j) ((t.discard host .image).space j) := by
  rw [discard_others other]
  exact draft.others j other

/-- `cell_mm_from_owned` hands the image over. -/
theorem mmFromOwned (draft : Draft cap s t) :
    (∀ slot, t.mmFromOwned.1 = some slot → Within cap (t.mmFromOwned.2.space (.mm slot))) ∧
    (t.mmFromOwned.1 = none → t.mmFromOwned.2 = t) := by
  refine ⟨fun slot found => ?_, mmFromOwned_none⟩
  rcases mmFromOwned_cases t with none | ⟨place, t', made, -, -, -, here, -⟩
  · rw [none] at found
    contradiction
  · rw [made] at found ⊢
    cases found
    exact draft.within.congr (by rw [here]) (by rw [here])

end Draft

/-- The draft of a new image is empty. -/
theorem userInit_draft (started : s.userInit.1) : Draft 0 s s.userInit.2 := by
  unfold userInit at started ⊢
  split at started
  · contradiction
  constructor
  · refine ⟨∅, le_rfl, ?_⟩
    have place : PageEdge 0x7000000000 := by
      unfold PageEdge pageSize
      decide
    exact ⟨.init, place, Finset.Subset.refl _⟩
  · intro j other
    simp only [setSpace, other, if_false]
    exact .of_eq rfl

/-- A draft that is not begun changes nothing. -/
theorem userInit_failed (failed : s.userInit.1 = false) : s.userInit.2 = s := by
  unfold userInit at failed ⊢
  split at failed
  · rfl
  · contradiction

/-- `execve` makes an address space of the pages of its image, or changes none. -/
theorem execImage_within (image : Image) :
    (∀ slot, (s.execImage host image).1 = some slot →
      Within (imagePages image) ((s.execImage host image).2.space (.mm slot))) ∧
    ((s.execImage host image).1 = none → ∀ j, j ≠ .image →
      SameSpace (s.space j) ((s.execImage host image).2.space j)) := by
  unfold execImage
  dsimp only
  split
  · rename_i failed
    rw [userInit_failed failed]
    exact ⟨by simp, fun _ j _ => .of_eq rfl⟩
  rename_i started
  obtain ⟨⟨none, empty, bound⟩, others⟩ := userInit_draft (by simpa using started)
  generalize s.userInit = t at bound others ⊢
  obtain ⟨pages, small, loaded⟩ := loadSegments_inside host bound
  have loading : Draft (segmentPages image.segments) s
      (loadSegments host image.segments t.2).2 := by
    refine ⟨⟨pages, by omega, loaded⟩, fun j other => ?_⟩
    rw [loadSegments_other host other]
    exact others j other
  generalize loadSegments host image.segments t.2 = u at loading ⊢
  split
  · exact ⟨by simp, fun _ j other => loading.discard host other⟩
  have placed : Draft (segmentPages image.segments) s (u.2.setSpace .image fun space =>
      { space with as := { space.as with brkBase := image.brk, brkCurrent := image.brk } }) := by
    constructor
    · apply loading.within.congr
      · simp [setSpace]
      · simp [setSpace]
    · intro j other
      simp only [setSpace, other, if_false]
      exact loading.others j other
  have stacked := placed.same (.buildStack image.pieces _)
  generalize Memory.buildStack image.pieces (u.2.setSpace .image fun space =>
      { space with as := { space.as with brkBase := image.brk, brkCurrent := image.brk } }) = v
    at stacked ⊢
  split
  · exact ⟨by simp, fun _ j other => stacked.discard host other⟩
  have area : Draft (imagePages image) s (v.2.addVmaTyped host .image
      (userStackTop - userStackSize) userStackTop (vmmUserRead ||| vmmUserWrite) 0 .stack).2 := by
    obtain ⟨⟨pages, small, bound⟩, others⟩ := stacked
    have startEdge : PageEdge (userStackTop - userStackSize) := rfl
    have stopEdge : PageEdge userStackTop := rfl
    constructor
    · refine ⟨_, ?_, bound.addVmaTyped host startEdge stopEdge _ _ _⟩
      have size := card_union_le pages (pageRange (userStackTop - userStackSize) userStackTop)
      rw [card_pageRange startEdge stopEdge] at size
      rw [imagePages]
      omega
    · intro j other
      rw [addVmaTyped, withVmas_other _ _ _ other]
      exact others j other
  generalize v.2.addVmaTyped host .image (userStackTop - userStackSize) userStackTop
    (vmmUserRead ||| vmmUserWrite) 0 .stack = w at area ⊢
  split
  · exact ⟨by simp, fun _ j other => area.discard host other⟩
  obtain ⟨given, refused⟩ := area.mmFromOwned
  split
  · rename_i slot owned
    refine ⟨fun slot' found => ?_, by simp⟩
    cases found
    exact given _ owned
  · rename_i owned
    refine ⟨by simp, fun _ j other => ?_⟩
    rw [refused owned]
    exact area.discard host other

end Host

/-! ## The domain as a machine -/

/-- A domain with its address space, in the memory of all processes. -/
structure Capped (F : Type) where
  /-- The memory of the domain. -/
  memory : Memory F
  /-- The slot of `domain->mm`. -/
  slot : Nat

/-- A step of the domain, or one step of everything else. The answers of `cell_map_add_allowed`
and `cell_map_resize_allowed` in the calls are replaced by what the policy computes. -/
inductive CapOp (F : Type) where
  | mmap (call : MmapCall)
  | munmap (addr len : Nat)
  | mprotect (addr len : Nat) (prot : BitVec 64)
  | brk (requested : Nat)
  | msync (start stop : Nat)
  | madvise (addr len advice : Nat)
  | mremap (call : MremapCall)
  | abort (far : Nat) (kind : Abort)
  /-- One page of `cell_domain_ensure_user_range`, for any process and with any one current. -/
  | ensurePage (current target va : Nat) (access : VmmAccess)
  | store (va : Nat) (byte : UInt8)
  | copyToUser (dst : Nat) (data : List UInt8)
  | exec (image : Image)
  /-- What other processes and the rest of the kernel do. -/
  | others (next : Memory F)

section Machine

variable {F : Type} (host : FileHost F) (cap : Nat)

/-- The address space of the domain. -/
def Capped.space (d : Capped F) : Space := d.memory.space (.mm d.slot)

/-- `cell_exec_replace`: the new address space takes the place of the old one. -/
def Capped.exec (d : Capped F) (image : Image) : Capped F :=
  let made := d.memory.execImage host image
  match made.1 with
  | some slot => ⟨made.2.mmRelease host d.slot, slot⟩
  | none => { d with memory := made.2 }

/-- A call of `mmap` with the answer of the policy. -/
def Capped.askMmap (d : Capped F) (call : MmapCall) : MmapCall :=
  { call with allowed := mmapAllowed cap d.space call }

/-- A call of `mremap` with the answer of the policy. -/
def Capped.askMremap (d : Capped F) (call : MremapCall) : MremapCall :=
  { call with
    allowed := mremapAllowed cap d.space call (call.oldAddr + alignUp call.oldLen)
      (alignUp call.newLen) }

/-- What a step does to memory while the domain keeps its address space. -/
def Capped.next (d : Capped F) : CapOp F → Memory F
  | .mmap call => (d.memory.sysMmap host (.mm d.slot) (d.askMmap cap call)).2
  | .munmap addr len => (d.memory.sysMunmap host (.mm d.slot) addr len).2
  | .mprotect addr len prot => (d.memory.sysMprotect host (.mm d.slot) addr len prot).2
  | .brk requested =>
    d.memory.sysBrk host (.mm d.slot) requested (brkAllowed cap d.space requested)
  | .msync start stop => d.memory.sysMsync host (.mm d.slot) start stop
  | .madvise addr len advice => d.memory.sysMadvise (.mm d.slot) addr len advice
  | .mremap call => (d.memory.sysMremap host (.mm d.slot) (d.askMremap cap call)).2
  | .abort far kind => (d.memory.handleAbort host (.mm d.slot) far kind).2
  | .ensurePage current target va access =>
    (Memory.ensurePage host (.mm current) (.mm target) access (pageBase va) d.memory).2
  | .store va byte => (d.memory.userStore (.mm d.slot) va byte).2
  | .copyToUser dst data => (d.memory.copyToUser (.mm d.slot) dst data).2
  | .exec _ => d.memory
  -- Any memory in which the address space of the domain is kept.
  | .others next => next.setSpace (.mm d.slot) fun _ => d.space

/-- One step. -/
def Capped.step (d : Capped F) : CapOp F → Capped F
  | .exec image => d.exec host image
  | op => { d with memory := d.next host cap op }

/-- A stack that would grow to a page stays under the cap. -/
def GrowthFits (vmas : VmaList) (page : Nat) : Prop :=
  ∀ vma ∈ growthArea vmas page, vmaVirtualPages vmas + pageCount page vma.start ≤ cap

/-- Whether `sys_mremap` gets as far as moving a mapping: it is told where to, or the mapping is to
grow, may move and cannot grow where it is. -/
def MremapMoves (space : Space) (call : MremapCall) : Prop :=
  (hasFlag call.flags mremapFixed ∨
    alignUp call.oldLen < alignUp call.newLen ∧ hasFlag call.flags mremapMaymove) ∧
  mremapFits space call (call.oldAddr + alignUp call.oldLen) (alignUp call.newLen) = false

/-- A mapping that moves has its old range removed, or fits next to it. -/
def MoveFits (d : Capped F) (call : MremapCall) (oldEnd newSize : Nat) : Prop :=
  mremapReleases host d.memory (.mm d.slot) call oldEnd newSize = true ∨
    vmaVirtualPages d.space.vmas + newSize / pageSize ≤ cap

/-- The condition of a step: what is not checked against the cap fits under it. -/
def CapFits (d : Capped F) : CapOp F → Prop
  | .mremap call => MremapMoves d.space call →
      MoveFits host cap d call (call.oldAddr + alignUp call.oldLen) (alignUp call.newLen)
  | .abort far _ => GrowthFits cap d.space.vmas (pageBase far)
  | .ensurePage current _ va _ => current = d.slot → GrowthFits cap d.space.vmas (pageBase va)
  | .exec image => imagePages image ≤ cap
  | _ => True

section

variable {host cap} {d : Capped F}

section

variable (limited : cap ≠ 0) (within : Within cap d.space)

include limited within

/-- `mmap` stays within the cap: its request was checked. -/
theorem Capped.mmap_within (call : MmapCall) : Within cap (d.step host cap (.mmap call)).space := by
  obtain ⟨small, bound⟩ := within.exact
  apply bound.sysMmap host small (d.askMmap cap call)
  intro base stop moved baseEdge stopEdge range allowed
  have found : mmapRange d.space call = .ok (base, stop, moved) := range
  simp only [Capped.askMmap, mmapAllowed, found] at allowed
  exact cellMapAddAllowed_room limited bound.whole baseEdge stopEdge allowed

/-- So does `brk`. -/
theorem Capped.brk_within (requested : Nat) :
    Within cap (d.step host cap (.brk requested)).space := by
  obtain ⟨small, bound⟩ := within.exact
  apply bound.sysBrk host small requested (brkAllowed cap d.space requested)
  intro allowed
  exact cellMapAddAllowed_room limited bound.whole (alignUp_aligned _) (alignUp_aligned _) allowed

/-- A mapping that grows in place was allowed to; one that moves fits without its old range, or
with it. -/
theorem Capped.mremapResize_within (call : MremapCall) (old : Vma) (oldEdge : PageEdge call.oldAddr)
    (endEdge : PageEdge oldEnd) (sizeEdge : PageEdge newSize)
    {answer : Bool} (asked : answer = mremapAllowed cap d.space call oldEnd newSize)
    (fits : mremapFits d.space call oldEnd newSize = false →
      (hasFlag call.flags mremapFixed ∨ hasFlag call.flags mremapMaymove) →
      MoveFits host cap d call oldEnd newSize) :
    Within cap ((d.memory.mremapResize host (.mm d.slot) { call with allowed := answer } old oldEnd
      newSize).2.space (.mm d.slot)) := by
  obtain ⟨small, bound⟩ := within.exact
  apply bound.mremapResize host small { call with allowed := answer } old oldEdge endEdge sizeEdge
  · intro inPlace allowed
    have grown : mremapFits d.space call oldEnd newSize := inPlace
    rw [asked, mremapAllowed, if_pos grown] at allowed
    exact cellMapAddAllowed_room limited bound.whole endEdge (oldEdge.add sizeEdge) allowed
  intro newStart startEdge notInPlace mayMove target apart allowed
  have moved : ¬ mremapFits d.space call oldEnd newSize := by
    rw [Bool.not_eq_true]
    exact notInPlace
  have found : mremapTarget d.space call newSize = .ok newStart := target
  rw [asked, mremapAllowed, if_neg moved, found] at allowed
  have one := cellMapResizeAllowed_room limited bound.whole startEdge (startEdge.add sizeEdge)
    oldEdge endEdge apart allowed
  rcases fits notInPlace mayMove with released | both
  · exact .inr ⟨one, released⟩
  left
  have size := card_union_le d.space.vmas.covered (pageRange newStart (newStart + newSize))
  rw [card_pageRange startEdge (startEdge.add sizeEdge), ← bound.whole.virtualPages,
    pageCount] at size
  rw [Nat.add_sub_cancel_left] at size
  generalize newSize / pageSize = added at size both
  split at size <;> omega

/-- `mremap` does when what it adds fits. -/
theorem Capped.mremap_within (call : MremapCall) (fits : CapFits host cap d (.mremap call)) :
    Within cap (d.step host cap (.mremap call)).space := by
  obtain ⟨small, bound⟩ := within.exact
  have sizeEdge : PageEdge (alignUp call.newLen) := alignUp_aligned _
  have oldSizeEdge : PageEdge (alignUp call.oldLen) := alignUp_aligned _
  refine bound.sysMremap host small (d.askMremap cap call) fun old oldEdge resizes => ?_
  dsimp only [Capped.askMremap] at oldEdge resizes ⊢
  refine mremapResize_within limited within call old oldEdge (oldEdge.add oldSizeEdge) sizeEdge rfl
    fun notInPlace mayMove => fits ⟨?_, notInPlace⟩
  by_cases fixed : hasFlag call.flags mremapFixed
  · exact .inl fixed
  · exact .inr ⟨resizes.resolve_left fixed, mayMove.resolve_left fixed⟩

end

/-- The stack grows within the cap when it fits. -/
theorem Capped.growth_room (within : Within cap d.space) {va : Nat}
    (fits : GrowthFits cap d.space.vmas (pageBase va)) :
    ∀ vma ∈ growthArea d.space.vmas (pageBase va),
      (d.space.vmas.covered ∪ pageRange (pageBase va) vma.start).card ≤ cap := by
  obtain ⟨-, bound⟩ := within.exact
  intro vma chosen
  have small := fits vma chosen
  have size := card_union_le d.space.vmas.covered (pageRange (pageBase va) vma.start)
  have member : vma ∈ d.space.vmas.slots ∧ vma.used := by
    unfold growthArea at chosen
    split at chosen
    · cases chosen
    obtain ⟨found, -⟩ := Option.mem_filter_iff.mp chosen
    have good := List.find?_some found
    simp only [Bool.and_eq_true] at good
    exact ⟨List.mem_of_find?_eq_some found, good.1.1⟩
  have aligned : PageEdge (pageBase va) := alignDown_aligned va
  rw [card_pageRange aligned (bound.whole.edges vma member.1 member.2).1,
    ← bound.whole.virtualPages] at size
  omega

/-- A step that fits keeps the domain under its cap. -/
theorem Capped.step_within (limited : cap ≠ 0) (within : Within cap d.space) (op : CapOp F)
    (fits : CapFits host cap d op) : Within cap (d.step host cap op).space := by
  obtain ⟨small, bound⟩ := within.exact
  cases op with
  | mmap call => exact mmap_within limited within call
  | munmap addr len => exact ⟨_, small, bound.sysMunmap host addr len⟩
  | mprotect addr len prot => exact ⟨_, small, bound.sysMprotect host addr len prot⟩
  | brk requested => exact brk_within limited within requested
  | msync start stop => exact within.same ((SameAreas.sysMsync host d.memory _ start stop).space _)
  | madvise addr len advice =>
    exact within.same ((SameAreas.sysMadvise d.memory _ addr len advice).space _)
  | mremap call => exact mremap_within limited within call fits
  | abort far kind => exact bound.handleAbort host small far kind (growth_room within fits)
  | ensurePage current target va access =>
    exact bound.ensurePage host small (.mm current) (.mm target) access (pageBase va) fun same =>
      growth_room within (fits (SpaceId.mm.inj same))
  | store va byte => exact within.same ((SameAreas.userStore d.memory _ va byte).space _)
  | copyToUser dst data =>
    exact within.same ((SameAreas.copyToUser d.memory _ dst data).space _)
  | exec image =>
    obtain ⟨made, failed⟩ := execImage_within host image (s := d.memory)
    change Within cap (d.exec host image).space
    unfold Capped.exec
    dsimp only
    split
    · rename_i slot found
      obtain ⟨pages, few, image'⟩ := made slot found
      exact ⟨pages, few.trans fits, image'.mmRelease host d.slot⟩
    · rename_i none
      exact within.same (failed none (.mm d.slot) (fun contra => (nomatch contra)))
  | others next =>
    have kept : (d.step host cap (.others next)).space = d.space := by
      simp [Capped.step, Capped.next, Capped.space, setSpace]
    rw [kept]
    exact within

instance (vmas : VmaList) (page : Nat) : Decidable (GrowthFits cap vmas page) := by
  unfold GrowthFits
  infer_instance

instance (call : MremapCall) (oldEnd newSize : Nat) :
    Decidable (MoveFits host cap d call oldEnd newSize) := inferInstanceAs (Decidable (_ ∨ _))

instance (space : Space) (call : MremapCall) : Decidable (MremapMoves space call) :=
  inferInstanceAs (Decidable (_ ∧ _))

instance (d : Capped F) : (op : CapOp F) → Decidable (CapFits host cap d op)
  | .mremap _ => inferInstanceAs (Decidable (_ → MoveFits host cap d ..))
  | .abort .. => inferInstanceAs (Decidable (GrowthFits cap d.space.vmas _))
  | .ensurePage .. => inferInstanceAs (Decidable (_ → GrowthFits cap d.space.vmas _))
  | .exec _ => inferInstanceAs (Decidable (_ ≤ cap))
  | .mmap _ | .munmap .. | .mprotect .. | .brk _ | .msync .. | .madvise .. | .store ..
  | .copyToUser .. | .others _ => .isTrue trivial

end

end Machine

/-- A new address space. -/
def newDomain : Capped Unit :=
  ⟨sampleBoot.setSpace (.mm 0) fun _ => { Space.dead with live := true, refcount := 1 }, 0⟩

/-- A one-page stack is mapped, and the page below it is touched. -/
def growingRun : List (CapOp Unit) :=
  [.mmap ⟨0x10000, 4096, protRead ||| protWrite, mapPrivate ||| mapAnonymous ||| mapGrowsdownArg,
      -1, 0, none, false, false⟩,
    .abort 0xf000 (.dataTranslation true)]

end Spore.Mm
