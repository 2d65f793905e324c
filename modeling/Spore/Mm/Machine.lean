import Spore.Lib.Run
import Spore.Mm.Images

/-!
# The memory system as a machine

One step is a system call, an abort, a store of user code, a copy by the kernel to user memory,
the start or end of an address space, or what the rest of the kernel does with files and pages.
A step on an address space that is not in use does nothing. Steps come in any order and from any
address space. For every leaf rule a step that is `Fine` leads from sound memory to sound memory,
and it makes an address writable only where it `Grants` that.
-/

namespace Spore.Mm

open Spore.Lib Memory

variable {slot : Nat} {quiet : Nat → Prop} {id : SpaceId}

/-- A step of the memory system. -/
inductive MemoryOp (F : Type) where
  /-- `fork`: `cell_mm_clone_cow`. -/
  | fork (slot : Nat)
  /-- `vfork` and threads: `cell_mm_retain`. -/
  | retain (slot : Nat)
  /-- The end of a process or of a borrowed address space: `cell_mm_release`. -/
  | release (slot : Nat)
  | exec (image : Image)
  | mmap (slot : Nat) (call : MmapCall)
  | munmap (slot addr len : Nat)
  | mprotect (slot addr len : Nat) (prot : BitVec 64)
  | brk (slot requested : Nat) (allowed : Bool)
  | msync (slot start stop : Nat)
  | madvise (slot addr len advice : Nat)
  | mremap (slot : Nat) (call : MremapCall)
  /-- The handlers of `handle_lower_sync`. -/
  | abort (slot far : Nat) (kind : Abort)
  | store (slot va : Nat) (byte : UInt8)
  | copyToUser (slot dst : Nat) (data : List UInt8)
  /-- `cell_domain_ensure_user_range` for a process, while another one or itself is current. -/
  | ensureRange (current slot va len : Nat) (access : VmmAccess)
  | snapshot (slot : Nat)
  | spawn (snapshot : Nat)
  /-- A read through the page cache. -/
  | readCached (node : VfsNode) (off : Nat)
  | writeFile (node : VfsNode) (off : Nat) (data : List UInt8)
  /-- Whatever the rest of the kernel does with files and pages of its own. -/
  | kernel (next : F × List KernelPage)

section Host

variable {F : Type} (host : FileHost F)

/-- A step on an address space that is in use. -/
def Memory.onSlot (s : Memory F) (slot : Nat) (next : Memory F) : Memory F :=
  if (s.space (.mm slot)).live then next else s

/-- One step. -/
def Memory.step (s : Memory F) : MemoryOp F → Memory F
  | .fork slot => (s.mmCloneCow host slot).2
  | .retain slot => s.mmRetain slot
  | .release slot => s.mmRelease host slot
  | .exec image => (s.execImage host image).2
  | .mmap slot call => s.onSlot slot (s.sysMmap host (.mm slot) call).2
  | .munmap slot addr len => s.onSlot slot (s.sysMunmap host (.mm slot) addr len).2
  | .mprotect slot addr len prot => s.onSlot slot (s.sysMprotect host (.mm slot) addr len prot).2
  | .brk slot requested allowed => s.onSlot slot (s.sysBrk host (.mm slot) requested allowed)
  | .msync slot start stop => s.onSlot slot (s.sysMsync host (.mm slot) start stop)
  | .madvise slot addr len advice => s.onSlot slot (s.sysMadvise (.mm slot) addr len advice)
  | .mremap slot call => s.onSlot slot (s.sysMremap host (.mm slot) call).2
  | .abort slot far kind => s.onSlot slot (s.handleAbort host (.mm slot) far kind).2
  | .store slot va byte => s.onSlot slot (s.userStore (.mm slot) va byte).2
  | .copyToUser slot dst data => s.onSlot slot (s.copyToUser (.mm slot) dst data).2
  | .ensureRange current slot va len access =>
    s.onSlot slot (s.ensureUserRange host (.mm current) (.mm slot) va len access).2
  | .snapshot slot => (s.snapshotCreate host slot).2
  | .spawn snapshot => (s.snapshotSpawn host snapshot).2
  | .readCached node off => s.setStore (s.store.vfsReadPageCached host node off).2
  | .writeFile node off data => s.setStore (s.store.vfsWrite host node off data).2
  | .kernel next => s.setPhys (s.phys.kernelPages next)

/-- Memory before the first process: no address space, nothing cached, no page in use by the
rest of the kernel, and all pages in the 48-bit physical address space. -/
structure Booted (s : Memory F) : Prop where
  /-- There is no space. -/
  spaces : ∀ id, (s.space id).live = false
  /-- The page cache is empty. -/
  cache : ∀ entry ∈ s.store.cache.entries, entry.valid = false
  /-- The kernel holds no page. -/
  held : s.phys.held = []
  /-- Page numbers fit a word. -/
  addressable : s.phys.pmm.tracked ≤ 2 ^ 36

/-! ## Conditions of a step -/

/-- When the permission handler leaves the page obeying the rule. -/
def PermissionFine (rule : LeafRule) (s : Memory F) (id : SpaceId) (far : Nat)
    (access : VmmAccess) : Prop :=
  ∀ vma, vmaLookup (s.space id).vmas (pageBase far) = some vma → accessAllowed vma access = true →
    RangeObeys rule (fun rights => rights) s id (pageBase far) (pageBase far + pageSize) vma.prot

/-- When the handlers of an abort leave the page obeying the rule. The permission handler runs
after `vmm_handle_cow_fault` has not resolved a write. -/
def AbortFine (rule : LeafRule) (s : Memory F) (id : SpaceId) (far : Nat) : Abort → Prop
  | .execTranslation | .dataTranslation _ => True
  | .execPermission => PermissionFine rule s id far .exec
  | .dataPermission true => (s.handleCowFault id far).1 = false →
    PermissionFine rule s id far .write
  | .dataPermission false => PermissionFine rule s id far .read

/-- No stack of the current process grows when the kernel reaches into the range of another. -/
def EnsureFine (s : Memory F) (current slot va len : Nat) : Prop :=
  ∀ k ≤ (pageBase (va + (len - 1)) - pageBase va) / pageSize,
    GrowsOwn s (.mm current) (.mm slot) (pageBase va + k * pageSize)

/-- The condition of a step, for a leaf rule: areas end in the user space, leaves whose rights
the step changes obey the rule with their new rights, and stacks grow where they are used. -/
def Fine (rule : LeafRule) (s : Memory F) : MemoryOp F → Prop
  | .exec image => ∀ seg ∈ image.segments, seg.stop ≤ 2 ^ 48
  | .mmap slot call => ∀ base stop moved,
      mmapRange (s.space (.mm slot)) call = .ok (base, stop, moved) → stop ≤ 2 ^ 48
  | .mprotect slot addr len prot => len ≠ 0 →
      ProtectFine rule host s (.mm slot) (alignDown addr) (rangeStop addr len) (protToVmm prot)
  | .brk _ requested _ => alignUp requested ≤ 2 ^ 48
  | .mremap slot call => MremapFine host s (.mm slot) call
  | .abort slot far kind => (s.space (.mm slot)).live = true → AbortFine rule s (.mm slot) far kind
  | .ensureRange current slot va len _ => EnsureFine s current slot va len
  | _ => True

/-- What a step may make writable in an address space that is in use before and after. -/
def Grants (s : Memory F) (slot va : Nat) : MemoryOp F → Prop
  | .mmap slot' call => slot' = slot ∧ MmapTouches (s.space (.mm slot)) call va ∧
      grantsWrite (protToVmm call.prot) = true
  | .mprotect slot' addr len prot => slot' = slot ∧ alignDown addr ≤ va ∧ va < rangeStop addr len ∧
      grantsWrite (protToVmm prot) = true
  | .brk slot' requested _ => slot' = slot ∧ BrkTouches (s.space (.mm slot)) requested va
  | .mremap slot' call => slot' = slot ∧
      MremapTouches (s.space (.mm slot)) call (alignUp call.newLen) va
  -- A stack grows over addresses that have no area.
  | .abort slot' _ _ | .ensureRange _ slot' _ _ _ => slot' = slot ∧
      attrsAt (s.space (.mm slot)).vmas va = none
  | _ => False

/-- What a fine step does. -/
structure Moves (rule : LeafRule) (grants : Nat → Nat → Prop) (s s' : Memory F) : Prop where
  /-- The memory stays sound. -/
  sound : Sound rule s'
  /-- No image is left over. -/
  idle : (s'.space .image).live = false
  /-- A right to write is granted or was there. -/
  calm : ∀ slot va, (s.space (.mm slot)).live = true → (s'.space (.mm slot)).live = true →
    ¬ grants slot va → WritableAt s' (.mm slot) va → WritableAt s (.mm slot) va

section Steps

variable {rule : LeafRule} {s s' : Memory F} {grants : Nat → Nat → Prop}

/-- Address spaces that stay in use keep their areas. -/
theorem Moves.kept (sound : Sound rule s') (idle : (s'.space .image).live = false)
    (same : ∀ id, (s.space id).live → (s'.space id).live →
      (s'.space id).vmas = (s.space id).vmas) : Moves rule grants s s' := by
  refine ⟨sound, idle, fun slot va live live' _ writable => ?_⟩
  unfold WritableAt at writable ⊢
  rwa [same _ live live'] at writable

/-- Calls that leave areas and tables in order. -/
theorem Moves.sameAreas (sound : Sound rule s) (idle : (s.space .image).live = false)
    (kept : Disciplined rule (areaRights s) 0 s' ∧ SameAreas s s') : Moves rule grants s s' :=
  .kept (sound.keep kept) ((kept.2.live _).trans idle) fun id _ _ => kept.2.vmas id

/-- A space joins. -/
theorem Moves.joins (sound : Sound rule s') (idle : (s.space .image).live = false)
    (joins : Joins s s') : Moves rule grants s s' :=
  .kept sound (joins.image.trans idle) fun id live _ => (joins.stays id live).2

/-- A step on one slot. -/
theorem Moves.acts (acts : Acts rule (.mm slot) quiet s s') (idle : (s.space .image).live = false)
    (fits : ∀ va, ¬ grants slot va → quiet va) : Moves rule grants s s' := by
  refine ⟨acts.sound, (acts.live _).trans idle, fun slot' va _ _ grantless writable => ?_⟩
  by_cases here : SpaceId.mm slot' = .mm slot
  · obtain rfl := SpaceId.mm.inj here
    exact acts.calm va (fits va grantless) writable
  · unfold WritableAt at writable ⊢
    rwa [acts.others _ here] at writable

/-- A step on one slot, guarded by the slot being in use. -/
theorem Moves.onSlot (sound : Sound rule s) (idle : (s.space .image).live = false)
    (acts : (s.space (.mm slot)).live → Acts rule (.mm slot) quiet s s')
    (fits : ∀ va, ¬ grants slot va → quiet va) : Moves rule grants s (s.onSlot slot s') := by
  unfold Memory.onSlot
  split
  · rename_i live
    exact .acts (acts live) idle fits
  · exact ⟨sound, idle, fun _ _ _ _ _ writable => writable⟩

/-! ## Aborts -/

/-- A copy-on-write fault that is not resolved changes nothing. -/
theorem handleCowFault_refused {va : Nat}
    (refused : (s.handleCowFault id va).1 = false) : (s.handleCowFault id va).2 = s := by
  unfold handleCowFault at refused ⊢
  split
  · rfl
  dsimp only at refused ⊢
  split
  · rfl
  split
  · rename_i found unmarked last
    simp_all
  · split
    · rfl
    · simp_all

/-- A fault changes rights only where a stack grows. -/
theorem handleAbort_acts (far : Nat) (kind : Abort) (sound : Sound rule s)
    (live : (s.space id).live) (fine : AbortFine rule s id far kind) :
    Acts rule id (fun va => attrsAt (s.space id).vmas va ≠ none) s
      (s.handleAbort host id far kind).2 := by
  cases kind with
  | execTranslation => exact (handleTranslationFault_extends host sound live).acts
  | execPermission =>
    exact (handlePermissionFault_acts sound live fine).mono fun _ _ => trivial
  | dataTranslation write => exact (handleTranslationFault_extends host sound live).acts
  | dataPermission write =>
    cases write with
    | false => exact (handlePermissionFault_acts sound live fine).mono fun _ _ => trivial
    | true =>
      unfold handleAbort
      dsimp only
      rw [if_pos rfl]
      split
      · exact .keep sound ⟨handleCowFault_spec sound.disciplined live, .handleCowFault s id far⟩
      rename_i unresolved
      have refused : (s.handleCowFault id far).1 = false := by simpa using unresolved
      rw [handleCowFault_refused refused]
      exact (handlePermissionFault_acts sound live (fine refused)).mono fun _ _ => trivial

/-- A store of the program changes no area. -/
theorem userStore_kept (va : Nat) (byte : UInt8) (sound : Sound rule s) :
    Disciplined rule (areaRights s) 0 (s.userStore id va byte).2 ∧
      SameAreas s (s.userStore id va byte).2 := by
  refine ⟨?_, .userStore s id va byte⟩
  unfold userStore
  dsimp only
  split
  · exact sound.disciplined
  · exact poke_spec _ _ sound.disciplined

/-! ## All steps -/

/-- Every fine step keeps memory sound and makes writable only what it grants. -/
theorem step_moves (op : MemoryOp F) (sound : Sound rule s) (idle : (s.space .image).live = false)
    (fine : Fine host rule s op) :
    Moves rule (fun slot va => Grants s slot va op) s (s.step host op) := by
  cases op with
  | fork slot =>
    obtain ⟨good, joins⟩ := mmCloneCow_sound host slot sound
    exact Moves.joins good idle joins
  | retain slot => exact Moves.sameAreas sound idle (mmRetain_kept sound)
  | release slot =>
    obtain ⟨good, remains⟩ := mmRelease_sound host sound
    refine Moves.kept good ?_ fun id _ live => (remains id live).2
    refine Bool.eq_false_iff.mpr fun live => ?_
    rw [(remains _ live).1] at idle
    contradiction
  | exec image =>
    have settles := execImage_settles host image sound idle fine
    exact Moves.kept settles.sound settles.gone fun id live _ => (settles.all idle id live).2
  | mmap slot call =>
    exact .onSlot sound idle (fun live => sysMmap_acts host call sound live fine)
      fun va grantless touched => by
        simpa using fun grants => grantless ⟨rfl, touched, grants⟩
  | munmap slot addr len =>
    exact .onSlot sound idle (fun live => sysMunmap_acts host sound live) fun _ _ => trivial
  | mprotect slot addr len prot =>
    exact .onSlot sound idle (fun live => sysMprotect_acts host prot sound live fine)
      fun va grantless low high => by
        simpa using fun grants => grantless ⟨rfl, low, high, grants⟩
  | brk slot requested allowed =>
    exact .onSlot sound idle (fun live => sysBrk_acts host allowed sound live fine)
      fun va grantless touched => grantless ⟨rfl, touched⟩
  | msync slot start stop =>
    exact .onSlot sound idle (fun _ => sysMsync_acts host sound) fun _ _ => trivial
  | madvise slot addr len advice =>
    exact .onSlot sound idle (fun live => sysMadvise_acts sound live) fun _ _ => trivial
  | mremap slot call =>
    exact .onSlot sound idle (fun live => sysMremap_acts host sound live fine)
      fun va grantless touched => grantless ⟨rfl, touched⟩
  | abort slot far kind =>
    exact .onSlot sound idle (fun live => handleAbort_acts host far kind sound live (fine live))
      fun va grantless absent => grantless ⟨rfl, absent⟩
  | store slot va byte =>
    have acts : Acts rule (.mm slot) (fun _ => True) s (s.userStore (.mm slot) va byte).2 :=
      .keep sound (userStore_kept va byte sound)
    exact .onSlot sound idle (fun _ => acts) fun _ _ => trivial
  | copyToUser slot dst data =>
    have acts : (s.space (.mm slot)).live →
        Acts rule (.mm slot) (fun _ => True) s (s.copyToUser (.mm slot) dst data).2 :=
      fun live => .keep sound
        ⟨copyToUser_spec dst data sound.disciplined live, .copyToUser s _ dst data⟩
    exact .onSlot sound idle acts fun _ _ => trivial
  | ensureRange current slot va len access =>
    exact .onSlot sound idle
      (fun live => (ensureUserRange_extends host sound live fine).acts)
      fun va grantless absent => grantless ⟨rfl, absent⟩
  | snapshot slot =>
    obtain ⟨good, joins⟩ := snapshotCreate_sound slot sound
    exact .joins good idle joins
  | spawn snapshot =>
    have settles := snapshotSpawn_settles host snapshot sound idle
    exact .kept settles.sound settles.gone fun id live _ => (settles.all idle id live).2
  | readCached node off =>
    exact .sameAreas sound idle ⟨sound.disciplined.trade
      (Store.vfsReadPageCached_trades host node off sound.disciplined.accounts), .setStore _⟩
  | writeFile node off data =>
    exact .sameAreas sound idle ⟨sound.disciplined.trade
      (Store.vfsWrite_trades host data sound.disciplined.accounts), .setStore _⟩
  | kernel next =>
    exact .sameAreas sound idle ⟨sound.disciplined.tradePhys
      (Phys.trades_kernelPages sound.disciplined.accounts next), .setPhys _⟩

/-- Memory at boot is sound. -/
theorem Booted.sound (booted : Booted s) : Sound rule s := by
  have none : ∀ {id}, (s.space id).live ≠ true := fun {id} live => by
    rw [booted.spaces id] at live
    contradiction
  refine ⟨⟨?_, fun _ live => absurd live none, fun _ _ live => absurd live none,
      booted.addressable⟩,
    fun _ live => absurd live none, fun _ live => absurd live none⟩
  unfold Store.Accounts Phys.Accounts
  rw [booted.held]
  refine .of_no_owner ?_
  rintro (owner | index) page refers
  · cases owner with
    | root | entry | chunk => exact none refers.1
  · obtain ⟨entry, stored, valid, -⟩ := refers
    rw [booted.cache entry (List.mem_of_getElem? stored)] at valid
    contradiction

/-- Sound memory between two steps, when no image is under construction. -/
def Ready (rule : LeafRule) (s : Memory F) : Prop := Sound rule s ∧ (s.space .image).live = false

/-- A booted memory is ready. -/
theorem Booted.ready (booted : Booted s) : Ready rule s := ⟨booted.sound, booted.spaces _⟩

/-- In every run of fine steps from boot memory is sound throughout. -/
theorem run_ready {ops : List (MemoryOp F)} (booted : Booted s)
    (fine : EveryInput (Memory.step host) (Fine host rule) s ops) :
    EveryState (Memory.step host) (Ready rule) s ops :=
  everyState_of_everyInput
    (fun _ op ready good =>
      ⟨(step_moves host op ready.1 ready.2 good).sound,
        (step_moves host op ready.1 ready.2 good).idle⟩)
    booted.ready fine

end Steps

end Host

/-! ## A small machine -/

/-- A file system with one-byte files. -/
def sampleHost : FileHost Unit where
  readUncached := fun _ _ _ _ => ([42], ())
  write := fun _ _ data _ => (data.length, (), [])
  writeSealed := fun _ _ => false
  retainNode := fun _ _ => ((), [])
  releaseNode := fun _ _ => ((), [])
  noteSharedWritableMapping := fun _ _ _ => ()

/-- Memory with 32 free pages, before the first process. -/
def sampleBoot : Memory Unit where
  store :=
    { phys :=
        { pmm :=
            { tracked := 288, used := fun page => decide (page < 256), refcount := fun _ => 0,
              freeCount := 32, nextFree := 256,
              clear_uncounted := fun _ _ => rfl }
          bytes := fun _ _ => 0, held := [], files := () }
      cache := { entries := [.clear], buckets := [none], clock := 0, evictHand := 0 } }
  space := fun _ => .dead
  mmCapacity := 2

/-- The sample memory is booted. -/
theorem sampleBoot_booted : Booted sampleBoot := ⟨fun _ => rfl, by decide, rfl, by decide⟩

/-- `mmap` of one page at `0x10000`, private and anonymous or of a file. -/
def sampleMmap (file : Bool) (prot : BitVec 64) : MmapCall where
  addr := 0x10000
  len := 4096
  prot := prot
  flags := if file then mapPrivate else mapPrivate ||| mapAnonymous
  fd := 3
  off := 0
  node := some ⟨.ramfs, 5, false, .none, 0, 1⟩
  writeSealed := false
  allowed := true

/-- Where the sample mapping goes. -/
theorem sampleMmap_range :
    mmapRange ((sampleBoot.step sampleHost (.exec ⟨[], 0, []⟩)).space (.mm 0))
    (sampleMmap false (protRead ||| protWrite)) = .ok (65536, 69632, false) := by
  decide +kernel

end Spore.Mm
