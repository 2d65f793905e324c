import Spore.Mm.Spaces

/-!
# Memory calls on sound memory

Every call of `sys_mem.c`, the loading of an image and the release of an address space lead
from sound memory to sound memory. Calls that enlarge the set of areas or change page-table
rights do so under the conditions that their lemmas state.
-/

namespace Spore.Mm

open Spore.Lib Memory

variable {F : Type} {rule : LeafRule} {s s' next : Memory F} {id : SpaceId}
  {start stop oldEnd newStart newEnd newSize len a b target : Nat}
  {addr advice requested va fuel slot : Nat} {quiet : Nat → Prop} {space : Space}

/-! ## Addresses -/

/-- A page begins there. -/
theorem alignDown_aligned (value : Nat) : alignDown value % pageSize = 0 := by
  simp only [alignDown, pageSize]
  omega

/-- A rounded address is one of a page. -/
theorem alignUp_aligned (value : Nat) : alignUp value % pageSize = 0 := alignDown_aligned _

/-- Sums of page addresses. -/
theorem add_aligned (first : a % pageSize = 0) (second : b % pageSize = 0) :
    (a + b) % pageSize = 0 := by
  simp only [pageSize] at *
  omega

/-- The sum did not overflow. -/
theorem checkedAdd_eq {sum : Nat} (added : checkedAdd a b = some sum) : sum = a + b := by
  unfold checkedAdd at added
  split at added
  · exact (Option.some.inj added).symm
  · contradiction

/-- A range ends on a page. -/
theorem rangeEnd_aligned {base : Nat} (found : rangeEnd base len = some stop) :
    stop % pageSize = 0 := by
  unfold rangeEnd at found
  split at found
  · contradiction
  split at found
  · contradiction
  · rw [← Option.some.inj found]
    exact alignUp_aligned _

/-- The search goes from page to page. -/
theorem findFreeLoop_aligned (vmas : VmaList) : ∀ {base found : Nat},
    base % pageSize = 0 → findFreeLoop vmas len fuel base = some found → found % pageSize = 0 := by
  induction fuel with
  | zero => intro base found _ contra; cases contra
  | succ fuel ih =>
    intro base found aligned result
    rw [findFreeLoop] at result
    split at result
    · contradiction
    split at result
    · rw [← Option.some.inj result]
      exact aligned
    · exact ih (alignUp_aligned _) result

/-- It finds a page. -/
theorem findFreeMmapRange_aligned {base : Nat}
    (found : findFreeMmapRange space len = some base) : base % pageSize = 0 :=
  findFreeLoop_aligned _ (alignUp_aligned _) found

/-- The range that `sys_mmap` settles on consists of whole pages. -/
theorem mmapRange_aligned {call : MmapCall} {base : Nat} {moved : Bool}
    (based : space.as.mmapBase % pageSize = 0)
    (found : mmapRange space call = .ok (base, stop, moved)) :
    base % pageSize = 0 ∧ stop % pageSize = 0 := by
  have first : (if call.addr ≠ 0 then alignDown call.addr else space.as.mmapBase) % pageSize
      = 0 := by
    split
    · exact alignDown_aligned _
    · exact based
  unfold mmapRange at found
  dsimp only at found
  generalize (if call.addr ≠ 0 then alignDown call.addr else space.as.mmapBase) = start
    at first found
  split at found
  · contradiction
  rename_i last range
  split at found
  · split at found
    · contradiction
    rename_i other free
    split at found
    · contradiction
    rename_i last' range'
    obtain ⟨rfl, rfl, -⟩ := found
    exact ⟨findFreeMmapRange_aligned free, rangeEnd_aligned range'⟩
  · simp only [Except.ok.injEq, Prod.mk.injEq] at found
    obtain ⟨rfl, rfl, -⟩ := found
    exact ⟨first, rangeEnd_aligned range⟩

/-! ## Fields that nothing depends on -/

/-- Changing counters of an address space other than its tables and areas. -/
theorem setSpace_kept {change : Space → Space} (sound : Sound rule s)
    (same : ∀ space, SameSpace space (change space))
    (tables : ∀ space, SameTables space (change space)) :
    Disciplined rule (areaRights s) 0 (s.setSpace id change) ∧
    SameAreas s (s.setSpace id change) := by
  have spaces : ∀ j, SameSpace (s.space j) ((s.setSpace id change).space j) ∧
      SameTables (s.space j) ((s.setSpace id change).space j) := by
    intro j
    by_cases here : j = id
    · subst here
      simp only [setSpace, if_true]
      exact ⟨same _, tables _⟩
    · simp only [setSpace, here, if_false]
      exact ⟨.of_eq rfl, .refl _⟩
  refine ⟨sound.disciplined.spaces rfl fun j live => ?_,
    fun j => (spaces j).1.live, fun j => (spaces j).1.vmas, fun j => (spaces j).1.base⟩
  exact ⟨(spaces j).1.live.symm.trans live, (spaces j).2⟩

/-- A new `mmap_base` at the start of a page. -/
theorem setMmapBase_acts {base : Nat} (aligned : base % pageSize = 0)
    (sound : Sound rule s) : Acts rule id quiet s (s.setMmapBase id base) := by
  have other : ∀ j, ((s.setMmapBase id base).space j).live = (s.space j).live ∧
      ((s.setMmapBase id base).space j).vmas = (s.space j).vmas ∧
      SameTables (s.space j) ((s.setMmapBase id base).space j) := by
    intro j
    by_cases here : j = id
    · subst here
      simp only [setMmapBase, setSpace, if_true]
      exact ⟨trivial, trivial, rfl, rfl, rfl⟩
    · simp only [setMmapBase, setSpace, here, if_false]
      exact ⟨trivial, trivial, .refl _⟩
  have rights : areaRights (s.setMmapBase id base) = areaRights s := by
    funext j index
    rw [areaRights, (other j).2.1]
    rfl
  refine ⟨⟨?_, fun j live => ?_, fun j live => ?_⟩, fun j => (other j).1, fun j _ => (other j).2.1,
    fun va _ writable => ?_⟩
  · rw [rights]
    exact sound.disciplined.spaces rfl fun j live => ⟨(other j).1.symm.trans live, (other j).2.2⟩
  · rw [(other j).2.1]
    exact sound.regular j ((other j).1.symm.trans live)
  · by_cases here : j = id
    · subst here
      simp only [setMmapBase, setSpace, if_true]
      exact aligned
    · have live' := (other j).1.symm.trans live
      simp only [setMmapBase, setSpace, here, if_false]
      exact sound.based j live'
  · unfold WritableAt at writable ⊢
    rwa [(other id).2.1] at writable

section Host

variable (host : FileHost F)
variable {prot : UInt32}

/-! ## Mapping and unmapping -/

section Insert

variable {call : MmapCall} {base stop : Nat} (sound : Sound rule s)
  (live : (s.space id).live = true) (baseAligned : base % pageSize = 0)
  (stopAligned : stop % pageSize = 0) (bounded : stop ≤ 2 ^ 48)

include sound live baseAligned stopAligned bounded

/-- An anonymous mapping changes rights in its range only. -/
theorem mmapAnon_acts :
    Acts rule id (fun va => base ≤ va → va < stop → grantsWrite (protToVmm call.prot) = false) s
      (s.mmapAnon host id call base stop).2 := by
  have added : Acts rule id _ s (s.addVmaTyped host id base stop (protToVmm call.prot)
      (storedFlags call.flags) (anonType call)).2 :=
    addVmaTyped_acts host sound live baseAligned stopAligned bounded
  unfold mmapAnon
  generalize s.addVmaTyped host id base stop (protToVmm call.prot) (storedFlags call.flags)
    (anonType call) = result at added
  dsimp only
  split
  · exact added
  split
  · have filled := added.trans (prefaultAnonVma_acts base stop added.sound (added.isLive live))
    split
    · exact filled
    · exact filled.trans (removeVma_acts host filled.sound (filled.isLive live) baseAligned
        stopAligned)
  · exact added

/-- So does a mapping of a file. -/
theorem mmapFile_acts :
    Acts rule id (fun va => base ≤ va → va < stop → grantsWrite (protToVmm call.prot) = false) s
      (s.mmapFile host id call base stop).2 := by
  unfold mmapFile
  split
  · exact .refl sound
  split
  · exact .refl sound
  split
  · exact .refl sound
  · dsimp only
    split <;> exact addFileVma_acts host sound live baseAligned stopAligned bounded

/-- The end of `sys_mmap`. -/
theorem mmapInsert_acts :
    Acts rule id (fun va => base ≤ va → va < stop → grantsWrite (protToVmm call.prot) = false) s
      (s.mmapInsert host id call base stop).2 := by
  have first : Acts rule id
        (fun va => base ≤ va → va < stop → grantsWrite (protToVmm call.prot) = false) s
      (if hasFlag call.flags mapFixed then (s.removeVma host id base stop).2 else s) := by
    split
    · exact removeVma_acts host sound live baseAligned stopAligned
    · exact .refl sound
  unfold mmapInsert
  generalize (if hasFlag call.flags mapFixed then (s.removeVma host id base stop).2 else s) = now
    at first
  split
  · exact first.trans (mmapAnon_acts host first.sound (first.isLive live) baseAligned stopAligned
      bounded)
  · exact first.trans (mmapFile_acts host first.sound (first.isLive live) baseAligned stopAligned
      bounded)

end Insert

/-- An address of the range that `sys_mmap` settles on. -/
def MmapTouches (space : Space) (call : MmapCall) (va : Nat) : Prop :=
  ∃ base stop moved, mmapRange space call = .ok (base, stop, moved) ∧ base ≤ va ∧ va < stop

/-- `sys_mmap`, when the range it settles on lies in the user space. -/
theorem sysMmap_acts (call : MmapCall) (sound : Sound rule s) (live : (s.space id).live)
    (bounded : ∀ base stop moved, mmapRange (s.space id) call = .ok (base, stop, moved) →
      stop ≤ 2 ^ 48) :
    Acts rule id (fun va => MmapTouches (s.space id) call va →
      grantsWrite (protToVmm call.prot) = false) s (s.sysMmap host id call).2 := by
  unfold sysMmap
  dsimp only
  split
  · exact .refl sound
  split
  · exact .refl sound
  rename_i base stop moved range
  obtain ⟨baseAligned, stopAligned⟩ := mmapRange_aligned (sound.based id live) range
  have first : Acts rule id (fun va => MmapTouches (s.space id) call va →
      grantsWrite (protToVmm call.prot) = false) s
      (if moved then s.setMmapBase id stop else s) := by
    split
    · exact setMmapBase_acts stopAligned sound
    · exact .refl sound
  generalize (if moved then s.setMmapBase id stop else s) = now at first
  split
  · exact first
  split
  · exact first
  have inserted := first.trans ((mmapInsert_acts host first.sound (first.isLive live) baseAligned
      stopAligned (bounded base stop moved range)).mono
        fun va quiet low high => quiet ⟨base, stop, moved, range, low, high⟩)
  split
  · exact inserted.trans (setMmapBase_acts stopAligned inserted.sound)
  · exact inserted

/-- `munmap` gives no right to write. -/
theorem sysMunmap_acts (sound : Sound rule s) (live : (s.space id).live) :
    Acts rule id (fun _ => True) s (s.sysMunmap host id addr len).2 := by
  unfold sysMunmap
  split
  · exact .refl sound
  · exact removeVma_acts host sound live (alignDown_aligned _) (alignUp_aligned _)

/-! ## Protection -/

/-- When `sys_mprotect` leaves every leaf obeying the rule: its range lies in the user space, and
the leaves of the range obey the rule with the page-table rights they get and the area rights
they end up in. When `vma_protect` finds no room for the pieces, areas stay and the page
tables change all the same. -/
structure ProtectFine (rule : LeafRule) (host : FileHost F) (s : Memory F) (id : SpaceId)
    (start stop : Nat) (prot : UInt32) : Prop where
  /-- The range is below the limit. -/
  bounded : stop ≤ 2 ^ 48
  /-- The leaves obey under new rights. -/
  changed : (vmaProtect (physVmaHost host) (s.space id).vmas start stop prot s.phys).1 = true →
    RangeObeys rule (fun rights => { rights with prot }) s id start stop prot
  /-- They obey when the areas stay, too. -/
  unchanged : (vmaProtect (physVmaHost host) (s.space id).vmas start stop prot s.phys).1 = false →
    s.allMapped id start stop = true → RangeObeys rule (fun rights => rights) s id start stop prot

/-- A list function that changes no area leaves the leaves of a range obeying what they obeyed. -/
theorem RangeObeys.withVmas {call : VmaList → Phys F → Bool × VmaList × Phys F}
    {change : AreaRights → AreaRights}
    (obeys : RangeObeys rule change s id start stop prot) (fair : Fair call)
    (sound : Sound rule s) (live : (s.space id).live)
    (recast : Recast id (attrsAt (s.space id).vmas) s (s.withVmas id call).2) :
    RangeObeys rule change (s.withVmas id call).2 id start stop prot := by
  intro k before rights valid meant
  have same : areaRights (s.withVmas id call).2 id = areaRights s id := by
    funext index
    rw [areaRights, recast.map]
    rfl
  rw [recast.entry] at valid ⊢
  rw [same] at meant
  exact rule.stable (obeys k before rights valid meant)
    (withVmas_alone fair sound.disciplined live live valid)

/-- Whether pages are mapped depends on the page tables only. -/
theorem allMapped_congr (same : s'.entry = s.entry) :
    s'.allMapped id start stop = s.allMapped id start stop := by
  unfold allMapped isMapped validLeaf leafForVa
  rw [same]

/-- `cell_protect_vma` succeeds when `vma_protect` does. -/
theorem protectVma_fst (prot : UInt32) :
    (s.protectVma host id start stop prot).1 =
      (vmaProtect (physVmaHost host) (s.space id).vmas start stop prot s.phys).1 := by
  unfold protectVma withVmas
  dsimp only
  split
  · rename_i refused
    exact refused.symm
  · rename_i granted
    exact (Bool.eq_true_of_not_eq_false granted).symm

/-- When `vma_protect` fails no area and no page table changes. -/
theorem protectVma_refused (tidy : vmaView.Tidy (s.space id).vmas.slots)
    (failed : (vmaProtect (physVmaHost host) (s.space id).vmas start stop prot s.phys).1 = false) :
    s.protectVma host id start stop prot = (false, (s.withVmas id
        fun list phys => vmaProtect (physVmaHost host) list start stop prot phys).2) ∧
      Recast id (attrsAt (s.space id).vmas) s (s.withVmas id
        fun list phys => vmaProtect (physVmaHost host) list start stop prot phys).2 := by
  have recast := withVmas_recast
    (fun list phys => vmaProtect (physVmaHost host) list start stop prot phys)
    (vmaProtect_outcome (physVmaHost host) start stop prot s.phys tidy)
  have refusedCall : (s.withVmas id fun list phys =>
      vmaProtect (physVmaHost host) list start stop prot phys).1 = false := failed
  rw [if_neg (by rw [refusedCall]; decide)] at recast
  refine ⟨?_, recast⟩
  exact if_pos failed

/-- New rights are given to the range only. -/
theorem protectPages_acts (sound : Sound rule s) (live : (s.space id).live)
    (startAligned : start % pageSize = 0) (stopAligned : stop % pageSize = 0)
    (fine : ProtectFine rule host s id start stop prot) :
    Acts rule id (fun va => start ≤ va → va < stop → grantsWrite prot = false) s
      (s.protectPages host id start stop prot).2 := by
  have changed := protectVma_acts host sound live startAligned stopAligned fine.bounded
      fun granted => fine.changed ((protectVma_fst host _).symm.trans granted)
  unfold protectPages
  dsimp only
  split
  · exact changed
  rename_i refused
  split
  · exact changed
  rename_i mapped
  have failed : (vmaProtect (physVmaHost host) (s.space id).vmas start stop prot
      s.phys).1 = false := by
    rw [← protectVma_fst]
    simpa using refused
  obtain ⟨result, recast⟩ := protectVma_refused host (sound.regular id live).tidy failed
  refine changed.trans (protectRange_acts changed.sound (changed.isLive live) ?_)
  rw [result] at mapped ⊢
  dsimp only at mapped ⊢
  rw [allMapped_congr recast.entry, Bool.not_eq_false] at mapped
  exact (fine.unchanged failed mapped).withVmas
    (fun accounts => vmaProtect_trades host _ _ _ accounts) sound live recast

/-- `mprotect` on a fine range. -/
theorem sysMprotect_acts (prot : BitVec 64) (sound : Sound rule s) (live : (s.space id).live)
    (fine : len ≠ 0 → ProtectFine rule host s id (alignDown addr) (rangeStop addr len)
      (protToVmm prot)) :
    Acts rule id (fun va => alignDown addr ≤ va → va < rangeStop addr len →
      grantsWrite (protToVmm prot) = false) s (s.sysMprotect host id addr len prot).2 := by
  unfold sysMprotect
  split
  · exact .refl sound
  · rename_i some_len
    exact protectPages_acts host sound live (alignDown_aligned _) (alignUp_aligned _)
      (fine some_len)

/-! ## The program break and advice -/

/-- An address that a new break brings in. -/
def BrkTouches (space : Space) (requested va : Nat) : Prop :=
  alignUp space.as.brkCurrent ≤ va ∧ va < alignUp requested

section

variable (sound : Sound rule s)

include sound

/-- The break has no rights. -/
theorem setBrk_acts {brk : Nat} : Acts rule id quiet s (s.setBrk id brk) :=
  .keep sound (setSpace_kept sound (fun _ => ⟨rfl, rfl, rfl⟩) fun _ => ⟨rfl, rfl, rfl⟩)

/-- A flush gives none. -/
theorem flushShared_acts : Acts rule id quiet s (s.flushShared host id start stop).2 := by
  have flushed : Flushes rule (areaRights s) 0 s (s.flushShared host id start stop).2 :=
    flushShared_spec host start stop sound.disciplined
  exact .keep sound ⟨flushed.disciplined, flushed.areas⟩

/-- `msync` gives none. -/
theorem sysMsync_acts : Acts rule id (fun _ => True) s (s.sysMsync host id start stop) := by
  unfold sysMsync
  split
  · exact .refl sound
  · exact flushShared_acts host sound

/-- `madvise` gives none. -/
theorem sysMadvise_acts (live : (s.space id).live) :
    Acts rule id (fun _ => True) s (s.sysMadvise id addr len advice) := by
  unfold sysMadvise
  split
  · exact .keep sound ⟨(unmapRange_spec sound.disciplined live).1, .unmapRange s id _ _⟩
  · exact .refl sound

end

/-- `sys_brk`, when the new break lies in the user space. -/
theorem sysBrk_acts (allowed : Bool) (sound : Sound rule s) (live : (s.space id).live)
    (bounded : alignUp requested ≤ 2 ^ 48) :
    Acts rule id (fun va => ¬ BrkTouches (s.space id) requested va) s
      (s.sysBrk host id requested allowed) := by
  unfold sysBrk
  dsimp only
  split
  · exact .refl sound
  split
  · have removed : Acts rule id (fun va => ¬ BrkTouches (s.space id) requested va) s
        (s.removeVma host id (alignUp requested) (alignUp (s.space id).as.brkCurrent)).2 :=
      removeVma_acts host sound live (alignUp_aligned _) (alignUp_aligned _)
    split
    · exact removed.trans (setBrk_acts removed.sound)
    · exact removed
  · split
    · split
      · exact .refl sound
      have added : Acts rule id (fun va => ¬ BrkTouches (s.space id) requested va) s
          (s.addVmaTyped host id (alignUp (s.space id).as.brkCurrent) (alignUp requested)
            (vmmUserRead ||| vmmUserWrite) 0 .anon).2 :=
        (addVmaTyped_acts host sound live (alignUp_aligned _) (alignUp_aligned _) bounded).mono
          fun va quiet low high => absurd ⟨low, high⟩ quiet
      split
      · exact added.trans (setBrk_acts added.sound)
      · exact added
    · exact setBrk_acts sound

/-! ## mremap -/

section Mremap

variable {call : MremapCall} {old : Vma} {start stop fileStart fileSize oldStart : Nat}
  {attr : SpaceId → Nat → Option AreaRights} {hand : Multiset Nat}

/-- The moved area has the rights of the old one. -/
theorem addMremapVma_acts (old : Vma) (fileStart fileSize : Nat) (sound : Sound rule s)
    (live : (s.space id).live)
    (startAligned : start % pageSize = 0) (stopAligned : stop % pageSize = 0)
    (bounded : stop ≤ 2 ^ 48) :
    Acts rule id (fun va => ¬ (start ≤ va ∧ va < stop)) s
      (s.addMremapVma host id start stop old fileStart fileSize).2 := by
  unfold addMremapVma
  split
  · exact (addFileVma_acts host sound live startAligned stopAligned bounded).mono
      fun va quiet low high => absurd ⟨low, high⟩ quiet
  · exact (addVmaTyped_acts host sound live startAligned stopAligned bounded).mono
      fun va quiet low high => absurd ⟨low, high⟩ quiet

/-- The area that `add_mremap_vma` adds has the rights of the old one. -/
theorem addMremapVma_spec (inv : Disciplined rule attr hand s) (live : (s.space id).live)
    (tidy : vmaView.Tidy (s.space id).vmas.slots)
    (added : (s.addMremapVma host id start stop old fileStart fileSize).1) :
    ∃ attrs : VmaAttrs, attrs.rights = old.attrs.rights ∧
      Disciplined rule attr hand (s.addMremapVma host id start stop old fileStart fileSize).2 ∧
      Recast id (overwrite (attrsAt (s.space id).vmas) start stop fun _ => some attrs) s
        (s.addMremapVma host id start stop old fileStart fileSize).2 := by
  unfold addMremapVma at added ⊢
  split at added
  · rename_i file
    rw [if_pos file]
    unfold addFileVma at added ⊢
    have recast :=
      withVmas_recast (fun list phys => vmaInsertFile (physVmaHost host) list start stop
        old.prot old.flags (some old.fileNode) fileStart old.fileOffset fileSize phys)
      (vmaInsertFile_outcome (physVmaHost host) start stop old.prot old.flags (some old.fileNode)
        fileStart old.fileOffset fileSize s.phys tidy)
    rw [if_pos added] at recast
    exact ⟨_, by rfl, withVmas_inv (fun accounts => vmaInsertFile_trades host _ _ _
      accounts) inv live, recast⟩
  · rename_i file
    rw [if_neg file]
    unfold addVmaTyped at added ⊢
    have recast := withVmas_recast (fun list phys => vmaInsert (physVmaHost host) list start stop
        old.prot old.flags old.type phys)
      (vmaInsert_outcome (physVmaHost host) start stop old.prot old.flags old.type s.phys tidy)
    rw [if_pos added] at recast
    exact ⟨_, by rfl, withVmas_inv (fun accounts => vmaInsert_trades host _ _ _ _ _ accounts)
      inv live, recast⟩

/-- No page of a range is mapped. -/
def NoneMapped (s : Memory F) (id : SpaceId) (start stop : Nat) : Prop :=
  ∀ k < rounds start stop, s.isMapped id (start + k * pageSize) = false

/-- With leaves gone even less is mapped. -/
theorem NoneMapped.fewer (none : NoneMapped s id start stop) (fewer : Fewer s s')
    (sound : Sound rule s) (live : (s.space id).live) : NoneMapped s' id start stop := by
  intro k inside
  rw [isMapped, Option.isSome_eq_false_iff, Option.isNone_iff_eq_none]
  cases found : s'.validLeaf id (start + k * pageSize) with
  | none => rfl
  | some index =>
    obtain ⟨rfl, valid⟩ := validLeaf_eq found
    have before := none k inside
    have leaf := validLeaf_of_valid (sound.disciplined.tree id live) (fewer id _ valid ▸ valid)
    rw [isMapped, leaf] at before
    contradiction

/-- Where nothing is mapped nothing moves. -/
theorem moveMappedPages_nothing
    (none : ∀ k < rounds 0 len, s.isMapped id (start + k * pageSize) = false) :
    s.moveMappedPages id start len target = (true, s) := by
  have step : ∀ k < rounds 0 len,
      s.movePage id (start + k * pageSize) (target + k * pageSize) = (true, s) := by
    intro k inside
    have absent := none k inside
    rw [isMapped, Option.isSome_eq_false_iff, Option.isNone_iff_eq_none] at absent
    unfold movePage
    rw [absent]
  have ended := countUp_rule (fun k s => s.movePage id (start + k * pageSize)
      (target + k * pageSize)) (fun _ now => now = s) (fun _ => False) (rounds 0 len) 0
    (fun k now _ inside same => by
      subst same
      rw [step k (by omega)]
      exact ⟨fun _ => rfl, fun failed => (nomatch failed)⟩) rfl
  unfold moveMappedPages
  refine Prod.ext ?_ ?_
  · by_contra failed
    exact ended.2 (by simpa using failed)
  · refine ended.1 ?_
    by_contra failed
    exact ended.2 (by simpa using failed)

/-- Pages move between ranges that are meant to have the same rights. -/
theorem moveMappedPages_spec (len : Nat) (inv : Disciplined rule attr hand s)
    (live : (s.space id).live)
    (alike : ∀ k < rounds 0 len, attr id (walkIndex (target + k * pageSize) 3) =
      attr id (walkIndex (start + k * pageSize) 3)) :
    Disciplined rule attr hand (s.moveMappedPages id start len target).2 := by
  refine (countUp_keeps (fun now => Disciplined rule attr hand now ∧ (now.space id).live) _ 0
    (fun k now _ inside kept => ?_) ⟨inv, live⟩).1
  exact ⟨movePage_spec kept.1 kept.2 (alike k (by omega)),
    (SameAreas.movePage now id _ _).isLive kept.2⟩

/-- The rights that leaves are meant to have before the area of a range is inserted: those that the
area is going to have. -/
def plannedRights (s : Memory F) (id : SpaceId) (start stop : Nat) (rights : AreaRights)
    (j : SpaceId) (index : Nat) : Option AreaRights :=
  if j = id ∧ start ≤ index * pageSize ∧ index * pageSize < stop then some rights
  else areaRights s j index

/-- Where no leaf lies the rights are free to choose. -/
theorem plannedRights_inv (rights : AreaRights) (sound : Sound rule s)
    (absent : ∀ index, start ≤ index * pageSize → index * pageSize < stop →
      isValid (s.entry id 3 index) = false) :
    Disciplined rule (plannedRights s id start stop rights) 0 s := by
  refine sound.disciplined.reattr fun j index live valid => ?_
  unfold plannedRights
  split
  · rename_i inside
    obtain ⟨rfl, low, high⟩ := inside
    rw [absent index low high] at valid
    contradiction
  · rfl

/-- Once its area is inserted every leaf has the rights it was planned to have. -/
theorem Recast.planned {attrs : VmaAttrs}
    (recast : Recast id (overwrite (attrsAt (next.space id).vmas) start stop fun _ => some attrs)
      next s')
    (inv : Disciplined rule (plannedRights s id start stop attrs.rights) 0 s')
    (others : ∀ j, j ≠ id → (next.space j).vmas = (s.space j).vmas)
    (agree : ∀ index, isValid (next.entry id 3 index) →
      Mm.areaRights next id index = Mm.areaRights s id index) :
    Disciplined rule (Mm.areaRights s') 0 s' := by
  refine inv.reattr fun j index _ valid => ?_
  by_cases here : j = id
  · subst here
    rw [recast.entry] at valid
    rw [Mm.areaRights, recast.map]
    unfold plannedRights overwrite
    by_cases inside : start ≤ index * pageSize ∧ index * pageSize < stop
    · rw [if_pos inside, if_pos ⟨rfl, inside⟩]
      rfl
    · rw [if_neg inside, if_neg fun both => inside both.2]
      exact agree index valid
  · rw [plannedRights, if_neg fun both => here both.1, Mm.areaRights, recast.others j here,
      others j here]
    rfl

/-- No leaf lies outside the areas. -/
theorem absent_of_free (sound : Sound rule s) (live : (s.space id).live)
    (free : vmaOverlaps (s.space id).vmas start stop = false) (index : Nat)
    (low : start ≤ index * pageSize) (high : index * pageSize < stop) :
    isValid (s.entry id 3 index) = false := by
  by_contra valid
  obtain ⟨given, meant, -⟩ := sound.disciplined.leaves id index live (by simpa using valid)
  rw [areaRights, attrsAt_of_free free low high] at meant
  contradiction

/-- The ranges of a move: whole pages, with the target in the user space. -/
structure MoveRanges (oldStart oldEnd newStart newEnd newSize : Nat) : Prop where
  /-- The old range begins with a page. -/
  oldAligned : oldStart % pageSize = 0
  /-- It ends with one. -/
  oldEndAligned : oldEnd % pageSize = 0
  /-- The new range begins with a page. -/
  newAligned : newStart % pageSize = 0
  /-- It ends with one. -/
  newEndAligned : newEnd % pageSize = 0
  /-- It has the new size. -/
  sized : newEnd = newStart + newSize
  /-- It is below the limit. -/
  bounded : newEnd ≤ 2 ^ 48

/-- Both ends of a move are meant to have the rights of the old area. -/
theorem plannedRights_alike {k : Nat} (regular : Regular (s.space id).vmas)
    (covered : ∀ va, oldStart ≤ va → va < oldEnd → attrsAt (s.space id).vmas va = some old.attrs)
    (apart : overlaps oldStart oldEnd newStart newEnd = false)
    (ranges : MoveRanges oldStart oldEnd newStart newEnd newSize)
    (oldFits : oldStart + len ≤ oldEnd) (newFits : len ≤ newSize) (inside : k < rounds 0 len) :
    plannedRights s id newStart newEnd old.attrs.rights id (walkIndex (newStart + k * pageSize) 3) =
      plannedRights s id newStart newEnd old.attrs.rights id
        (walkIndex (oldStart + k * pageSize) 3) := by
  obtain ⟨oldAligned, -, newAligned, -, sized, bounded⟩ := ranges
  have size := lt_of_lt_rounds inside
  have found := covered (oldStart + k * pageSize) (by omega) (by omega)
  have low := regular.low found
  simp only [overlaps, Bool.and_eq_false_iff, decide_eq_false_iff_not] at apart
  have target : walkIndex (newStart + k * pageSize) 3 * pageSize = newStart + k * pageSize := by
    rw [walkIndex_leaf_low (by omega)]
    simp only [pageSize] at newAligned ⊢
    omega
  have source : walkIndex (oldStart + k * pageSize) 3 * pageSize = oldStart + k * pageSize := by
    rw [walkIndex_leaf_low low]
    simp only [pageSize] at oldAligned ⊢
    omega
  unfold plannedRights
  rw [target, source, if_pos ⟨rfl, by omega, by omega⟩, if_neg (by omega),
    areaRights, source, found]
  rfl

/-- A range that is looked up is one. -/
theorem le_of_lookupRange {list : VmaList}
    (found : vmaLookupRange list start stop = some old) : start ≤ stop := by
  unfold vmaLookupRange at found
  split at found
  · contradiction
  · omega

/-- An address that `sys_mremap` may bring in: one of the mapping when it grows in place, or of
the target of a move. -/
def MremapTouches (space : Space) (call : MremapCall) (newSize va : Nat) : Prop :=
  (call.oldAddr ≤ va ∧ va < call.oldAddr + newSize) ∨
    ∃ newStart, mremapTarget space call newSize = .ok newStart ∧ newStart ≤ va ∧
      va < newStart + newSize

/-- The call passes the checks that `sys_mremap` makes before it moves pages to `newStart`. -/
structure MremapRelocates (space : Space) (call : MremapCall) (oldEnd newSize newStart : Nat) :
    Prop where
  /-- The mapping cannot stay where it is. -/
  leaves : mremapFits space call oldEnd newSize = false
  /-- It is told to move, or may. -/
  mayMove : hasFlag call.flags mremapFixed = true ∨ hasFlag call.flags mremapMaymove = true
  /-- The target. -/
  target : mremapTarget space call newSize = .ok newStart
  /-- The target does not overlap the old range. -/
  apart : overlaps call.oldAddr oldEnd newStart (newStart + newSize) = false
  /-- The memory cap allows it. -/
  allowed : call.allowed = true

/-- When `sys_mremap` leaves every page with the rights of its area: the ranges it may give the
mapping lie in the user space, and a mapping with pages that passes the checks is moved to the
end. -/
structure MremapFine (host : FileHost F) (s : Memory F) (id : SpaceId) (call : MremapCall) :
    Prop where
  /-- A mapping that grows in place ends in the user space. -/
  grown : hasFlag call.flags mremapFixed = false → call.oldAddr + alignUp call.newLen ≤ 2 ^ 48
  /-- The target of a move ends in the user space. -/
  moved : ∀ newStart, mremapTarget (s.space id) call (alignUp call.newLen) = .ok newStart →
    newStart + alignUp call.newLen ≤ 2 ^ 48
  /-- Memory does not run out between the first page and the new area. -/
  settled : ∀ newStart, MremapRelocates (s.space id) call (call.oldAddr + alignUp call.oldLen)
      (alignUp call.newLen) newStart →
    NoneMapped s id call.oldAddr (call.oldAddr + alignUp call.oldLen) ∨
      0 ≤ (s.sysMremap host id call).1

/-- The new range begins on a page. -/
theorem mremapTarget_aligned
    (found : mremapTarget space call newSize = .ok newStart) : newStart % pageSize = 0 := by
  unfold mremapTarget at found
  split at found
  · split at found
    · contradiction
    · rename_i aligned
      rw [← Except.ok.inj found]
      exact not_not.mp aligned
  · split at found
    · contradiction
    · rename_i base free
      rw [← Except.ok.inj found]
      exact findFreeMmapRange_aligned free

section

variable (sound : Sound rule s)

include sound

/-- Once pages have moved and the old areas are gone, the new area gives every page the rights it
is meant to have. -/
theorem relocated_acts {now : Memory F} (same : SameAreas s now)
    (removes : Removes rule (plannedRights s id newStart newEnd old.attrs.rights) 0 id oldStart
      oldEnd now next) (regular : Regular (now.space id).vmas)
    (live : (next.space id).live) (ranges : MoveRanges oldStart oldEnd newStart newEnd newSize)
    (added : (next.addMremapVma host id newStart newEnd old newStart newSize).1) :
    Acts rule id (fun va => ¬ (newStart ≤ va ∧ va < newEnd)) s
      (next.addMremapVma host id newStart newEnd old newStart newSize).2 := by
  obtain ⟨attrs, rights, inv, recast⟩ := addMremapVma_spec host removes.disciplined live
    removes.tidy added
  have left := removes.regular regular ranges.oldAligned ranges.oldEndAligned
  generalize (next.addMremapVma host id newStart newEnd old newStart newSize).2 = s' at inv recast
  have lives : ∀ j, (s'.space j).live = (s.space j).live := fun j =>
    (recast.live j).trans ((removes.live j).trans (same.live j))
  have others : ∀ j, j ≠ id → (s'.space j).vmas = (s.space j).vmas := fun j other =>
    (recast.others j other).trans ((removes.others j other).trans (same.vmas j))
  rw [← rights] at inv
  refine ⟨⟨recast.planned inv (fun j other => (removes.others j other).trans (same.vmas j)) ?_,
    fun j live' => ?_, fun j live' => ?_⟩, lives, others, fun va quiet writable => ?_⟩
  · intro index valid
    rw [← same.areaRights]
    exact removes.agree regular ranges.oldAligned valid
  · by_cases here : j = id
    · subst here
      refine ⟨recast.tidy, ?_⟩
      rw [recast.map]
      exact left.paged.overwrite ranges.newAligned ranges.newEndAligned (.inl ranges.bounded)
    · rw [others j here]
      exact sound.regular j ((lives j).symm.trans live')
  · rw [recast.base, removes.base, same.base]
    exact sound.based j ((lives j).symm.trans live')
  obtain ⟨given, found, grants⟩ := writable
  rw [recast.map, overwrite, if_neg quiet] at found
  have before : WritableAt now id va := removes.calm ⟨given, found, grants⟩
  unfold WritableAt at before ⊢
  rwa [same.vmas] at before

section

variable (live : (s.space id).live)

include live

/-- The end of a move by `sys_mremap`, when it completes or there was no page to move. -/
theorem mremapRelocate_acts
    (covered : ∀ va, oldStart ≤ va → va < oldEnd → attrsAt (s.space id).vmas va = some old.attrs)
    (nonempty : oldStart ≤ oldEnd) (apart : overlaps oldStart oldEnd newStart newEnd = false)
    (free : vmaOverlaps (s.space id).vmas newStart newEnd = false)
    (ranges : MoveRanges oldStart oldEnd newStart newEnd newSize)
    (settled : NoneMapped s id oldStart oldEnd ∨
      0 ≤ (s.mremapRelocate host id old oldStart oldEnd newStart newEnd newSize).1) :
    Acts rule id (fun va => ¬ (newStart ≤ va ∧ va < newEnd)) s
      (s.mremapRelocate host id old oldStart oldEnd newStart newEnd newSize).2 := by
  rcases settled with none | done
  · have still : s.moveMappedPages id oldStart (min (oldEnd - oldStart) newSize) newStart =
        (true, s) := moveMappedPages_nothing fun k inside => none k (by
      simp only [rounds, pageSize] at *
      omega)
    unfold mremapRelocate
    rw [still]
    have removed : Acts rule id (fun va => ¬ (newStart ≤ va ∧ va < newEnd)) s
        (s.removeVma host id oldStart oldEnd).2 :=
      removeVma_acts host sound live ranges.oldAligned ranges.oldEndAligned
    have added := removed.trans (addMremapVma_acts host old newStart newSize removed.sound
      (removed.isLive live) ranges.newAligned ranges.newEndAligned ranges.bounded)
    dsimp only
    split
    · contradiction
    · split <;> exact added
  · have inv := plannedRights_inv old.attrs.rights sound (absent_of_free sound live free)
    have same := SameAreas.moveMappedPages s id oldStart (min (oldEnd - oldStart) newSize) newStart
    have moved := moveMappedPages_spec (min (oldEnd - oldStart) newSize) inv live
      fun k inside => plannedRights_alike (sound.regular id live) covered apart ranges
        (by omega) (Nat.min_le_right _ _) inside
    have live' := same.isLive live
    have regular := same.regulars sound.regular id live'
    revert done
    unfold mremapRelocate
    generalize s.moveMappedPages id oldStart (min (oldEnd - oldStart) newSize) newStart = result
      at moved same live' regular ⊢
    obtain ⟨ok, now⟩ := result
    dsimp only at moved same live' regular ⊢
    have removes : Removes rule (plannedRights s id newStart newEnd old.attrs.rights) 0 id oldStart
        oldEnd now (now.removeVma host id oldStart oldEnd).2 :=
      removeVma_spec host moved live' regular.tidy
    generalize (now.removeVma host id oldStart oldEnd).2 = next at removes ⊢
    split
    · exact fun done => absurd (a := 0 ≤ -eNomem) done (by decide)
    split
    · rename_i added
      exact fun _ => relocated_acts host sound same removes regular ((removes.live id).trans live')
        ranges added
    · exact fun done => absurd (a := 0 ≤ -eNomem) done (by decide)

/-- The part of `sys_mremap` that moves a mapping. -/
theorem mremapMove_acts (found : vmaLookupRange (s.space id).vmas call.oldAddr oldEnd = some old)
    (ranges : MoveRanges call.oldAddr oldEnd newStart newEnd newSize)
    (settled : overlaps call.oldAddr oldEnd newStart newEnd = false → call.allowed = true →
      NoneMapped s id call.oldAddr oldEnd ∨
        0 ≤ (s.mremapMove host id call old oldEnd newStart newEnd newSize).1) :
    Acts rule id (fun va => ¬ (newStart ≤ va ∧ va < newEnd)) s
      (s.mremapMove host id call old oldEnd newStart newEnd newSize).2 := by
  have regular := sound.regular id live
  have removed : Acts rule id (fun va => ¬ (newStart ≤ va ∧ va < newEnd)) s
      (s.removeVma host id newStart newEnd).2 :=
    removeVma_acts host sound live ranges.newAligned ranges.newEndAligned
  have removes : Removes rule (areaRights s) 0 id newStart newEnd s
      (s.removeVma host id newStart newEnd).2 :=
      removeVma_spec host sound.disciplined live regular.tidy
  revert settled
  unfold mremapMove
  dsimp only
  split
  · exact fun _ => .refl sound
  rename_i crosses
  split
  · exact fun _ => .refl sound
  rename_i permitted
  have apart : overlaps call.oldAddr oldEnd newStart newEnd = false := by simpa using crosses
  have nonempty := le_of_lookupRange found
  -- Room is made at a fixed target; that leaves the old range alone.
  set now := if hasFlag call.flags mremapFixed then (s.removeVma host id newStart newEnd).2 else s
    with now_eq
  have cleared : Acts rule id (fun va => ¬ (newStart ≤ va ∧ va < newEnd)) s now ∧
      (∀ va, call.oldAddr ≤ va → va < oldEnd →
        attrsAt (now.space id).vmas va = some old.attrs) ∧
      (NoneMapped s id call.oldAddr oldEnd → NoneMapped now id call.oldAddr oldEnd) := by
    have covered : ∀ va, call.oldAddr ≤ va → va < oldEnd →
        attrsAt (s.space id).vmas va = some old.attrs := fun va low high =>
      attrsAt_of_lookupRange regular.tidy found low high
    rw [now_eq]
    split
    · refine ⟨removed, fun va low high => ?_, fun none => none.fewer removes.fewer sound live⟩
      rcases removes.outcome with same | ⟨map, -⟩
      · rw [same]
        exact covered va low high
      · simp only [overlaps, Bool.and_eq_false_iff, decide_eq_false_iff_not] at apart
        rw [map, overwrite, if_neg (by omega)]
        exact covered va low high
    · exact ⟨.refl sound, covered, fun none => none⟩
  clear_value now
  obtain ⟨acts, covered, none⟩ := cleared
  split
  · exact fun _ => acts
  rename_i free
  intro settled
  exact acts.trans (mremapRelocate_acts host acts.sound (acts.isLive live) covered nonempty apart
    (by simpa using free) ranges
    ((settled apart (by simpa using permitted)).imp none fun done => done))

/-- The old range goes, the new one comes. -/
theorem mremapResize_acts (found : vmaLookupRange (s.space id).vmas call.oldAddr oldEnd = some old)
    (oldAligned : call.oldAddr % pageSize = 0) (oldEndAligned : oldEnd % pageSize = 0)
    (sizeAligned : newSize % pageSize = 0)
    (grown : hasFlag call.flags mremapFixed = false → call.oldAddr + newSize ≤ 2 ^ 48)
    (bounded : ∀ newStart, mremapTarget (s.space id) call newSize = .ok newStart →
      newStart + newSize ≤ 2 ^ 48)
    (settled : ∀ newStart, MremapRelocates (s.space id) call oldEnd newSize newStart →
      NoneMapped s id call.oldAddr oldEnd ∨
        0 ≤ (s.mremapResize host id call old oldEnd newSize).1) :
    Acts rule id (fun va => ¬ MremapTouches (s.space id) call newSize va) s
      (s.mremapResize host id call old oldEnd newSize).2 := by
  have unfixed : mremapFits (s.space id) call oldEnd newSize →
      hasFlag call.flags mremapFixed = false := by
    unfold mremapFits
    cases checkedAdd call.oldAddr newSize <;> simp +contextual
  revert settled
  unfold mremapResize
  dsimp only
  split
  · rename_i fits
    split
    · exact fun _ => .refl sound
    have added : Acts rule id (fun va => ¬ MremapTouches (s.space id) call newSize va) s
        (s.addMremapVma host id oldEnd (call.oldAddr + newSize) old old.fileStart newSize).2 :=
      (addMremapVma_acts host old old.fileStart newSize sound live oldEndAligned
        (add_aligned oldAligned sizeAligned) (grown (unfixed fits))).mono
          fun va quiet inside => quiet (.inl ⟨(le_of_lookupRange found).trans inside.1, inside.2⟩)
    split <;> exact fun _ => added
  rename_i unfit
  split
  · exact fun _ => .refl sound
  rename_i stuck
  cases target : mremapTarget (s.space id) call newSize with
  | error code => exact fun _ => .refl sound
  | ok newStart =>
    have newAligned := mremapTarget_aligned target
    have endAligned := add_aligned newAligned sizeAligned
    dsimp only
    set now := if hasFlag call.flags mremapFixed then s
      else s.setMmapBase id (newStart + newSize) with now_eq
    have first : Acts rule id (fun va => ¬ MremapTouches (s.space id) call newSize va) s now := by
      rw [now_eq]
      split
      · exact .refl sound
      · exact setMmapBase_acts endAligned sound
    have same : (now.space id).vmas = (s.space id).vmas ∧ now.entry = s.entry := by
      rw [now_eq]
      split
      · exact ⟨rfl, rfl⟩
      · exact ⟨setMmapBase_vmas s id, setMmapBase_entry s id⟩
    clear_value now
    cases sum : checkedAdd newStart newSize with
    | none => exact fun _ => first
    | some newEnd =>
      intro settled
      have sized : newEnd = newStart + newSize := checkedAdd_eq sum
      have mayMove : hasFlag call.flags mremapFixed = true ∨
          hasFlag call.flags mremapMaymove = true := by
        simpa [or_iff_not_imp_left] using stuck
      have still : NoneMapped s id call.oldAddr oldEnd → NoneMapped now id call.oldAddr oldEnd :=
        fun none => none.fewer (fun j i _ => by rw [same.2]) sound live
      exact first.trans ((mremapMove_acts host first.sound (first.isLive live) (same.1 ▸ found)
        ⟨oldAligned, oldEndAligned, newAligned, sized ▸ endAligned, sized,
          sized ▸ bounded newStart target⟩ fun apart allowed =>
          (settled newStart
            ⟨by simpa using unfit, mayMove, target, sized ▸ apart, allowed⟩).imp_left
            still).mono
          fun va quiet inside => quiet (.inr ⟨newStart, target, inside.1, sized ▸ inside.2⟩))

/-- `mremap` changes rights where it may only. -/
theorem sysMremap_acts (fine : MremapFine host s id call) :
    Acts rule id (fun va => ¬ MremapTouches (s.space id) call (alignUp call.newLen) va) s
      (s.sysMremap host id call).2 := by
  obtain ⟨grown, moved, settled⟩ := fine
  revert settled
  unfold sysMremap
  dsimp only
  split
  · exact fun _ => .refl sound
  rename_i good
  have oldAligned : call.oldAddr % pageSize = 0 := not_not.mp (not_or.mp good).1
  split
  · exact fun _ => .refl sound
  cases sum : checkedAdd call.oldAddr (alignUp call.oldLen) with
  | none => exact fun _ => .refl sound
  | some oldEnd =>
    have sized : oldEnd = call.oldAddr + alignUp call.oldLen := checkedAdd_eq sum
    have endAligned : oldEnd % pageSize = 0 := sized ▸ add_aligned oldAligned (alignUp_aligned _)
    dsimp only
    cases found : vmaLookupRange (s.space id).vmas call.oldAddr oldEnd with
    | none => exact fun _ => .refl sound
    | some old =>
      dsimp only
      split
      · exact fun _ => .refl sound
      split
      · exact fun _ => .refl sound
      split
      · exact fun _ => removeVma_acts host sound live
          (add_aligned oldAligned (alignUp_aligned _)) endAligned
      · rw [← sized]
        exact mremapResize_acts host sound live found oldAligned endAligned (alignUp_aligned _)
          grown moved

end

end

end Mremap

/-! ## Sharing and releasing an address space -/

/-- A reference to a shared space changes no area. -/
theorem mmRetain_kept (sound : Sound rule s) :
    Disciplined rule (areaRights s) 0 (s.mmRetain slot) ∧ SameAreas s (s.mmRetain slot) := by
  unfold mmRetain
  split
  · exact setSpace_kept sound (fun _ => ⟨rfl, rfl, rfl⟩) fun _ => ⟨rfl, rfl, rfl⟩
  · exact ⟨sound.disciplined, .refl s⟩

/-- Some address spaces may be given up; the others keep their areas. -/
def Remains (s s' : Memory F) : Prop :=
  ∀ j, (s'.space j).live = true → (s.space j).live = true ∧ (s'.space j).vmas = (s.space j).vmas

/-- The same areas remain. -/
theorem SameAreas.remains (same : SameAreas s s') : Remains s s' :=
  fun j live => ⟨(same.live j).symm.trans live, same.vmas j⟩

/-- The last release of a space tears it down; the others stay sound. -/
theorem mmRelease_sound (sound : Sound rule s) :
    Sound rule (s.mmRelease host slot) ∧ Remains s (s.mmRelease host slot) := by
  unfold mmRelease
  dsimp only
  split
  · exact ⟨sound, (SameAreas.refl s).remains⟩
  rename_i running
  have live : (s.space (.mm slot)).live := by simpa using (not_or.mp running).1
  set now := s.setSpace (.mm slot) fun space => { space with refcount := space.refcount - 1 }
  have kept : Disciplined rule (areaRights s) 0 now ∧ SameAreas s now :=
    setSpace_kept sound (fun _ => ⟨rfl, rfl, rfl⟩) fun _ => ⟨rfl, rfl, rfl⟩
  have lowered := sound.keep kept
  clear_value now
  split
  · exact ⟨lowered, kept.2.remains⟩
  have flushed : Acts rule (.mm slot) (fun _ => True) now
      (now.flushShared host (.mm slot) 0 (2 ^ 64 - 1)).2 := flushShared_acts host lowered
  refine ⟨discard_sound flushed.sound (flushed.isLive (kept.2.isLive live)), fun j live' => ?_⟩
  have other : j ≠ .mm slot := by
    rintro rfl
    rw [discard_live_self] at live'
    contradiction
  rw [discard_others other] at live' ⊢
  exact ⟨(kept.2.live j).symm.trans ((flushed.live j).symm.trans live'),
    (flushed.others j other).trans (kept.2.vmas j)⟩

end Host

end Spore.Mm
