import Spore.Mm.Leaves
import Spore.Mm.Syscalls

/-!
# What leaves areas alone

Everything that works on page tables, pages and files keeps the areas of every address space, in
any memory and with any arguments. The calls that do change areas are reduced to the list
functions of `vma.c`.
-/

namespace Spore.Mm

open Spore.Lib Memory

variable {F : Type}

namespace SameAreas

/-- A loop whose body keeps areas keeps areas. -/
theorem countUp {body : Nat → Memory F → Bool × Memory F}
    (kept : ∀ k s, SameAreas s (body k s).2) (n i : Nat) (s : Memory F) :
    SameAreas s (Lib.countUp body n i s).2 :=
  countUp_keeps (SameAreas s) n i (fun k t _ _ same => same.trans (kept k t)) (refl s)

/-- A loop keeps the areas when its body does. -/
theorem foldl {body : Memory F → Nat → Memory F} (kept : ∀ s k, SameAreas s (body s k))
    (rounds : List Nat) (s : Memory F) : SameAreas s (rounds.foldl body s) :=
  List.foldlRecOn (motive := SameAreas s) rounds body (refl s)
    fun t same k _ => same.trans (kept t k)

/-! ## Page tables -/

section

variable (s : Memory F) (id : SpaceId)

/-- A missing table is allocated. -/
theorem ensureTable (level index : Nat) : SameAreas s (s.ensureTable id level index).2 := by
  unfold Memory.ensureTable
  split
  · exact refl s
  · split
    · exact refl s
    · exact (setPhys _).trans (linkTable _ _ _ _)

/-- All tables above an address. -/
theorem ensureTables (va : Nat) : SameAreas s (s.ensureTables id va).2 :=
  countUp (fun _ s => ensureTable s id _ _) _ _ s

/-- A page is mapped. -/
theorem mapPage (va pa : Nat) (flags : UInt32) : SameAreas s (s.mapPage id va pa flags).2 := by
  unfold Memory.mapPage
  dsimp only
  split
  · exact (ensureTables s id va).trans (setEntry _ _ _ _)
  · exact ensureTables s id va

/-- A page is mapped for copying on a write. -/
theorem mapPageCow (va pa : Nat) (flags : UInt32) :
    SameAreas s (s.mapPageCow id va pa flags).2 := by
  unfold Memory.mapPageCow
  dsimp only
  split
  · exact (ensureTables s id va).trans (setEntry _ _ _ _)
  · exact ensureTables s id va

/-- A new page is mapped. -/
theorem allocPage (va : Nat) (flags : UInt32) : SameAreas s (s.allocPage id va flags).2 := by
  unfold Memory.allocPage
  split
  · exact refl s
  · exact (setPhys _).trans (mapPage _ _ _ _ _)

/-- A shared page is copied on a write. -/
theorem handleCowFault (va : Nat) : SameAreas s (s.handleCowFault id va).2 := by
  unfold Memory.handleCowFault
  split
  · exact refl s
  dsimp only
  split
  · exact refl s
  split
  · exact setEntry _ _ _ _
  · split
    · exact refl s
    · exact ((setPhys _).trans (setEntry _ _ _ _)).trans (setPhys _)

/-- A page is unmapped. -/
theorem unmapLeaf (va : Nat) : SameAreas s (s.unmapLeaf id va) := by
  unfold Memory.unmapLeaf
  split
  · exact refl s
  · exact (setEntry _ _ _ _).trans (setPhys _)

/-- A range is unmapped, page by page. -/
theorem unmapRange (start stop : Nat) : SameAreas s (s.unmapRange id start stop) :=
  foldl (fun s _ => unmapLeaf s id _) _ s

/-- The rights of the leaves change. -/
theorem protectRange (start stop : Nat) (flags : UInt32) :
    SameAreas s (s.protectRange id start stop flags) := by
  apply foldl
  intro s k
  unfold protectLeaf
  split
  · exact refl s
  · exact setEntry _ _ _ _

/-- A leaf is shared with another space. -/
theorem restoreLeaf (a b : SpaceId) (flags : UInt32) (va : Nat) :
    SameAreas s (Memory.restoreLeaf a b flags va s).2 := by
  unfold Memory.restoreLeaf
  split
  · split
    · exact refl s
    · exact (setEntry _ _ _ _).trans (setEntry _ _ _ _)
  · exact refl s

/-- All leaves of a range are. -/
theorem restoreSharedRange (a b : SpaceId) (start stop : Nat) (flags : UInt32) :
    SameAreas s (s.restoreSharedRange a b start stop flags).2 := by
  unfold Memory.restoreSharedRange
  split
  · exact refl s
  · exact countUp (fun _ s => restoreLeaf s a b flags _) _ _ s

/-- A page moves to another address. -/
theorem movePage (old new : Nat) : SameAreas s (s.movePage id old new).2 := by
  unfold Memory.movePage
  split
  · exact refl s
  dsimp only
  split
  · exact ensureTables _ _ _
  · split
    · exact ensureTables _ _ _
    · exact ((ensureTables _ _ _).trans (setEntry _ _ _ _)).trans (setEntry _ _ _ _)

/-- All pages of a range do. -/
theorem moveMappedPages (oldStart len newStart : Nat) :
    SameAreas s (s.moveMappedPages id oldStart len newStart).2 :=
  countUp (fun _ s => movePage s id _ _) _ _ s

/-! ## Copies to user memory -/

/-- A page is opened for the kernel to write. -/
theorem openPage (va : Nat) : SameAreas s (s.openPage id va).2 := by
  unfold Memory.openPage
  split
  · exact handleCowFault s id va
  · exact refl s

/-- All pages of an image segment are. -/
theorem openPages (page pages : Nat) : SameAreas s (s.openPages id page pages).2 :=
  countUp (fun _ s => openPage s id _) pages 0 s

end

/-- Bytes are copied, chunk by chunk. -/
theorem copyChunks (id : SpaceId) (fuel : Nat) : ∀ (va : Nat) (data : List UInt8) (s : Memory F),
    SameAreas s (Memory.copyChunks id fuel va data s).2 := by
  induction fuel with
  | zero => exact fun _ _ s => refl s
  | succ fuel ih =>
    intro va data s
    cases data with
    | nil => exact refl s
    | cons byte rest =>
      unfold Memory.copyChunks
      dsimp only
      split
      · exact openPage s id va
      · exact ((openPage s id va).trans (setPhys _)).trans (ih _ _ _)

/-- The copy to a user buffer. -/
theorem copyToUser (s : Memory F) (id : SpaceId) (dst : Nat) (data : List UInt8) :
    SameAreas s (s.copyToUser id dst data).2 := by
  unfold Memory.copyToUser
  split
  · exact refl s
  split
  · exact refl s
  dsimp only
  split
  · exact openPages s id _ _
  · exact (openPages s id _ _).trans (copyChunks _ _ _ _ _)

/-- A store of the program. -/
theorem userStore (s : Memory F) (id : SpaceId) (va : Nat) (byte : UInt8) :
    SameAreas s (s.userStore id va byte).2 := by
  unfold Memory.userStore
  dsimp only
  split
  · exact refl s
  · exact setPhys _

/-! ## Files -/

section Host

variable (host : FileHost F)

/-- A dirty page goes back to its file. -/
theorem flushPage (id : SpaceId) (vma : Vma) (page : Nat) (s : Memory F) :
    SameAreas s (Memory.flushPage host id vma page s).2 := by
  unfold Memory.flushPage
  dsimp only
  split
  · exact refl s
  · split
    · exact refl s
    · exact setStore _

/-- The pages of every area in the range do. -/
theorem flushSharedFileVmas (id : SpaceId) (start stop : Nat) (slots : List Vma) :
    ∀ s : Memory F, SameAreas s (Memory.flushSharedFileVmas host id start stop slots s).2 := by
  induction slots with
  | nil => exact fun s => refl s
  | cons vma rest ih =>
    intro s
    have flushed : SameAreas s (flushSharedFileVmaRange host id vma start stop s).2 := by
      unfold flushSharedFileVmaRange
      split
      · exact refl s
      · exact countUp (fun _ s => flushPage host id vma _ s) _ _ s
    unfold Memory.flushSharedFileVmas
    split
    · exact ih s
    dsimp only
    split
    · exact flushed.trans (ih _)
    · exact flushed

section

variable (s : Memory F) (id : SpaceId)

/-- The flush before a change of areas. -/
theorem flushShared (start stop : Nat) : SameAreas s (s.flushShared host id start stop).2 := by
  unfold Memory.flushShared
  split
  · exact refl s
  · exact flushSharedFileVmas host id start stop _ s

/-- `msync` changes no area. -/
theorem sysMsync (start stop : Nat) : SameAreas s (s.sysMsync host id start stop) := by
  unfold Memory.sysMsync
  split
  · exact refl s
  · exact flushShared host s id start stop

/-- `madvise` drops pages, not areas. -/
theorem sysMadvise (addr len advice : Nat) : SameAreas s (s.sysMadvise id addr len advice) := by
  unfold Memory.sysMadvise
  split
  · exact unmapRange s id _ _
  · exact refl s

/-- A private page of a file. -/
theorem privateCopy (vma : Vma) (page : Nat) : SameAreas s (s.privateCopy host id vma page).2 := by
  unfold Memory.privateCopy
  split
  · exact refl s
  dsimp only
  split
  · exact ((setPhys _).trans (setStore _)).trans (setPhys _)
  split
  · exact (((setPhys _).trans (setStore _)).trans (setPhys _)).trans (mapPage _ _ _ _ _)
  · exact ((((setPhys _).trans (setStore _)).trans (setPhys _)).trans
      (mapPage _ _ _ _ _)).trans (setPhys _)

/-- A page of the page cache is mapped. -/
theorem mapCached (vma : Vma) (page readOff : Nat) :
    SameAreas s (s.mapCached host id vma page readOff).2 := by
  unfold Memory.mapCached
  dsimp only
  split
  · exact setStore _
  split
  · split
    · exact (setStore _).trans (mapPageCow _ _ _ _ _)
    · exact ((setStore _).trans (mapPageCow _ _ _ _ _)).trans (setPhys _)
  · split
    · exact (setStore _).trans (mapPage _ _ _ _ _)
    · exact ((setStore _).trans (mapPage _ _ _ _ _)).trans (setPhys _)

/-- A fault in a file area. -/
theorem faultFilePage (vma : Vma) (page : Nat) :
    SameAreas s (s.faultFilePage host id vma page).2 := by
  unfold Memory.faultFilePage
  split
  · exact refl s
  dsimp only
  split
  · exact mapCached host s id vma page _
  · exact privateCopy host s id vma page

/-- A fault in any area. -/
theorem faultIn (vma : Vma) (page : Nat) : SameAreas s (s.faultIn host id vma page).2 := by
  unfold Memory.faultIn
  split
  · exact faultFilePage host s id vma page
  · exact allocPage s id page vma.prot

/-- A write to a page that is read only. -/
theorem handlePermissionFault (far : Nat) (access : VmmAccess) :
    SameAreas s (s.handlePermissionFault id far access).2 := by
  unfold Memory.handlePermissionFault
  dsimp only
  split
  · exact refl s
  · split
    · exact refl s
    · exact protectRange s id _ _ _

/-- The pages of an area in advance. -/
theorem prefaultAnonVma (start stop : Nat) : SameAreas s (s.prefaultAnonVma id start stop).2 := by
  unfold Memory.prefaultAnonVma
  split
  · exact refl s
  split
  · exact refl s
  split
  · exact refl s
  apply countUp
  intro k s
  dsimp only
  split
  · exact refl s
  · split
    · exact allocPage s id _ _
    · exact (allocPage s id _ _).trans (unmapRange _ _ _ _)

/-- A page is made writable for the kernel. -/
theorem writablePage (access : VmmAccess) (page : Nat) :
    SameAreas s (Memory.writablePage id access page s).2 := by
  unfold Memory.writablePage
  split
  · exact handleCowFault s id page
  · exact refl s

end

end Host

end SameAreas

variable {base brk : Nat} {j : SpaceId}

/-! ## Calls on areas -/

section Areas

variable (s : Memory F) (id : SpaceId)

section

variable (call : VmaList → Phys F → Bool × VmaList × Phys F)

/-- The areas are those that the list function leaves. -/
@[simp] theorem withVmas_vmas :
    ((s.withVmas id call).2.space id).vmas = (call (s.space id).vmas s.phys).2.1 := by
  simp [withVmas, setVmas, setSpace, setPhys]

/-- A call on the areas leaves the mmap base. -/
@[simp] theorem withVmas_mmapBase :
    ((s.withVmas id call).2.space j).as.mmapBase = (s.space j).as.mmapBase := by
  simp only [withVmas, setVmas, setSpace, setPhys]
  split <;> rfl

/-- Other address spaces are untouched. -/
theorem withVmas_other {j : SpaceId}
    (other : j ≠ id) : (s.withVmas id call).2.space j = s.space j := by
  simp [withVmas, setVmas, setSpace, setPhys, other]

end

/-- The mmap base is no area. -/
@[simp] theorem setMmapBase_vmas : ((s.setMmapBase id base).space j).vmas = (s.space j).vmas := by
  simp only [setMmapBase, setSpace]
  split <;> rfl

/-- Nor a table entry. -/
theorem setMmapBase_entry : (s.setMmapBase id base).entry = s.entry := by
  funext j level index
  simp only [entry, setMmapBase, setSpace]
  split <;> rfl

/-- The base that is stored. -/
@[simp] theorem setMmapBase_self : ((s.setMmapBase id base).space id).as.mmapBase = base := by
  simp [setMmapBase, setSpace]

/-- The break is no area. -/
@[simp] theorem setBrk_vmas : ((s.setBrk id brk).space j).vmas = (s.space j).vmas := by
  simp only [setBrk, setSpace]
  split <;> rfl

/-- Nor the mmap base. -/
@[simp] theorem setBrk_mmapBase :
    ((s.setBrk id brk).space j).as.mmapBase = (s.space j).as.mmapBase := by
  simp only [setBrk, setSpace]
  split <;> rfl

end Areas

end Spore.Mm
