import Spore.Mm.Vmm

/-!
# Address spaces of processes (`proc/memory.c`, `proc/snapshot.c`)

Creation, copying and release of address spaces, the page-fault handlers, and the calls that
change areas and page tables together. The process that a call acts for is given by the slot
of its address space. Fault counters are left out.
-/

namespace Spore.Mm

open Spore.Lib

/-- `MAP_GROWSDOWN`. -/
def mapGrowsdown : UInt32 := 0x100

/-- `MAX_SNAPSHOTS`. -/
def maxSnapshots : Nat := 8

/-- The rights of an area allow the access. -/
def accessAllowed (vma : Vma) : VmmAccess → Bool
  | .read => decide (vma.prot &&& vmmUserRead ≠ 0)
  | .write => decide (vma.prot &&& vmmUserWrite ≠ 0)
  | .exec => decide (vma.prot &&& vmmUserExec ≠ 0)

/-- The area is shared. -/
def vmaIsShared (vma : Vma) : Bool := vma.used && decide (vma.flags &&& mapShared ≠ 0)

/-- Its pages go back to the file. -/
def vmaIsSharedWritableFile (vma : Vma) : Bool :=
  vma.used && decide (vma.type = .file) && vma.sharedWritable

namespace Memory

variable {F : Type}

/-- `alloc_mm`: a zeroed slot with one reference. -/
def allocMm (s : Memory F) : Option (Nat × Memory F) :=
  match (List.range s.mmCapacity).find? fun slot => !(s.space (.mm slot)).live with
  | none => none
  | some slot => some (slot, s.setSpace (.mm slot) fun _ =>
      { Space.dead with live := true, refcount := 1 })

/-- A free slot for a snapshot. -/
def allocSnapshot (s : Memory F) : Option (Nat × Memory F) :=
  match (List.range maxSnapshots).find? fun slot => !(s.space (.snapshot slot)).live with
  | none => none
  | some slot => some (slot, s.setSpace (.snapshot slot) fun _ => { Space.dead with live := true })

/-- `used = false`. -/
def retire (s : Memory F) (id : SpaceId) : Memory F :=
  s.setSpace id fun space => { space with live := false }

/-- `cell_mm_from_owned` for the image under construction. -/
def mmFromOwned (s : Memory F) : Option Nat × Memory F :=
  match s.allocMm with
  | none => (none, s)
  | some (slot, next) =>
    let owned := s.space .image
    (some slot, (next.setSpace (.mm slot) fun space =>
      { space with as := owned.as, vmas := owned.vmas }).setSpace .image fun _ => .dead)

/-- `cell_mm_retain`. -/
def mmRetain (s : Memory F) (slot : Nat) : Memory F :=
  if (s.space (.mm slot)).live then
    s.setSpace (.mm slot) fun space => { space with refcount := space.refcount + 1 }
  else s

section Host

variable (host : FileHost F)

/-- Run an area-list function on the areas of an address space. -/
def withVmas (s : Memory F) (id : SpaceId)
    (call : VmaList → Phys F → Bool × VmaList × Phys F) : Bool × Memory F :=
  let result := call (s.space id).vmas s.phys
  (result.1, (s.setPhys result.2.2).setVmas id result.2.1)

/-- `vmm_destroy` followed by `vma_list_destroy` and the release of the slot. -/
def discard (s : Memory F) (id : SpaceId) : Memory F :=
  let s := s.destroy id
  let s := s.setPhys (vmaListDestroy (physVmaHost host) (s.space id).vmas s.phys)
  (s.setVmas id .init).retire id

/-- `vma_clone` into an address space that has no areas. -/
def cloneVmas (s : Memory F) (dst src : SpaceId) : Bool × Memory F :=
  match vmaClone (physVmaHost host) (s.space src).vmas s.phys with
  | .ok (list, phys) => (true, (s.setPhys phys).setVmas dst list)
  | .error phys => (false, s.setPhys phys)

/-- `vmm_clone_cow` followed by `vma_clone`, with the clean-up of their callers. -/
def cloneSpace (s : Memory F) (dst src : SpaceId) : Bool × Memory F :=
  let tables := s.cloneCow dst src
  if tables.1 = false then (false, tables.2.retire dst)
  else
    let areas := tables.2.cloneVmas host dst src
    if areas.1 = false then (false, (areas.2.destroy dst).retire dst) else (true, areas.2)

/-- The loop of `cell_mm_clone_cow` over the shared areas of the source. -/
def restoreShared (dst src : SpaceId) : List Vma → Memory F → Bool × Memory F
  | [], s => (true, s)
  | vma :: rest, s =>
    if vmaIsShared vma = false then restoreShared dst src rest s
    else
      let restored := s.restoreSharedRange src dst vma.start vma.stop vma.prot
      if restored.1 then restoreShared dst src rest restored.2 else (false, restored.2)

/-- `cell_mm_clone_cow`. -/
def mmCloneCow (s : Memory F) (src : Nat) : Option Nat × Memory F :=
  if (s.space (.mm src)).live = false then (none, s)
  else match s.allocMm with
    | none => (none, s)
    | some (slot, s) =>
      let cloned := s.cloneSpace host (.mm slot) (.mm src)
      if cloned.1 = false then (none, cloned.2)
      else
        let restored := restoreShared (.mm slot) (.mm src)
          (cloned.2.space (.mm src)).vmas.slots cloned.2
        if restored.1 then (some slot, restored.2)
        else (none, restored.2.discard host (.mm slot))

/-- `snapshot_create_current`. -/
def snapshotCreate (s : Memory F) (src : Nat) : Option Nat × Memory F :=
  match s.allocSnapshot with
  | none => (none, s)
  | some (slot, s) =>
    if (s.space (.mm src)).live = false then (none, s.retire (.snapshot slot))
    else
      let cloned := s.cloneSpace host (.snapshot slot) (.mm src)
      (if cloned.1 then some slot else none, cloned.2)

/-- The address-space part of `snapshot_spawn`. -/
def snapshotSpawn (s : Memory F) (slot : Nat) : Option Nat × Memory F :=
  if (s.space (.snapshot slot)).live = false then (none, s)
  else
    let s := s.setSpace .image fun _ => { Space.dead with live := true }
    let cloned := s.cloneSpace host .image (.snapshot slot)
    if cloned.1 = false then (none, cloned.2)
    else
      let owned := cloned.2.mmFromOwned
      match owned.1 with
      | some slot => (some slot, owned.2)
      | none => (none, owned.2.discard host .image)

/-! ## Writing shared mappings back -/

/-- One page of `flush_shared_file_vma_range`. -/
def flushPage (id : SpaceId) (vma : Vma) (page : Nat) (s : Memory F) : Bool × Memory F :=
  let fileEnd := vma.fileStart + vma.fileSize
  if page < vma.fileStart ∨ fileEnd ≤ page ∨ s.isMapped id page = false then (true, s)
  else
    let pa := pageBase (s.userToPhysChecked id page .read)
    if pa = 0 then (true, s)
    else
      let off := vma.fileOffset + (page - vma.fileStart)
      let chunk := if fileEnd < page + pageSize then fileEnd - page else pageSize
      let data := (List.range chunk).map (s.phys.bytes (pa / pageSize))
      let written := s.store.vfsWrite host vma.fileNode off data
      (written.1 == (chunk : Int), s.setStore written.2)

/-- The mapped pages of one area in the range are written back. -/
def flushSharedFileVmaRange (id : SpaceId) (vma : Vma) (start stop : Nat) (s : Memory F) :
    Bool × Memory F :=
  if vmaIsSharedWritableFile vma = false then (true, s)
  else
    let first := pageBase (max start vma.start)
    let last := min stop vma.stop
    countUp (fun k => flushPage host id vma (first + k * pageSize)) (rounds first last) 0 s

/-- `flush_shared_file_vmas`, over the slots of the area list. -/
def flushSharedFileVmas (id : SpaceId) (start stop : Nat) : List Vma → Memory F → Bool × Memory F
  | [], s => (true, s)
  | vma :: rest, s =>
    if vma.used = false ∨ vma.stop ≤ start ∨ stop ≤ vma.start then
      flushSharedFileVmas id start stop rest s
    else
      let flushed := flushSharedFileVmaRange host id vma start stop s
      if flushed.1 then flushSharedFileVmas id start stop rest flushed.2 else (false, flushed.2)

/-- `flush_shared_file_vmas` for an address space. -/
def flushShared (s : Memory F) (id : SpaceId) (start stop : Nat) : Bool × Memory F :=
  if (s.space id).live = false then (true, s)
  else flushSharedFileVmas host id start stop (s.space id).vmas.slots s

/-- `cell_mm_release`. -/
def mmRelease (s : Memory F) (slot : Nat) : Memory F :=
  let id := SpaceId.mm slot
  if (s.space id).live = false ∨ (s.space id).refcount = 0 then s
  else
    let s := s.setSpace id fun space => { space with refcount := space.refcount - 1 }
    if (s.space id).refcount ≠ 0 then s
    else (s.flushShared host id 0 (2 ^ 64 - 1)).2.discard host id

/-! ## Faults -/

/-- The bytes that a page of a file area shows, read through the page cache. The loop of
`fault_file_page` copies from one cached page at a time. -/
def copyFile (vma : Vma) (copyStart : Nat) : (fuel copied len : Nat) → List UInt8 → Store F →
    Option (List UInt8) × Store F
  | 0, _, _, data, store => (some data, store)
  | fuel + 1, copied, len, data, store =>
    if len ≤ copied then (some data, store)
    else
      let readOff := vma.fileOffset + (copyStart - vma.fileStart) + copied
      let filePage := pageBase readOff
      let pageOff := readOff - filePage
      let chunk := min (pageSize - pageOff) (len - copied)
      let page := store.vfsReadPageCached host vma.fileNode filePage
      match page.1 with
      | none => (none, page.2)
      | some bytes =>
        copyFile vma copyStart fuel (copied + chunk) len
          (data ++ (List.range chunk).map fun k => bytes (pageOff + k)) page.2

/-- The bytes of the file that a page of an area shows. -/
def readArea (vma : Vma) (page : Nat) (store : Store F) : Option (List UInt8) × Store F :=
  let copyStart := max page vma.fileStart
  let copyEnd := min (page + pageSize) (vma.fileStart + vma.fileSize)
  copyFile host vma copyStart (copyEnd - copyStart) 0 (copyEnd - copyStart) [] store

/-- The `private_copy` part of `fault_file_page`. -/
def privateCopy (s : Memory F) (id : SpaceId) (vma : Vma) (page : Nat) : Bool × Memory F :=
  match s.phys.allocZeroPage with
  | none => (false, s)
  | some (pa, phys) =>
    let s := s.setPhys phys
    let read := readArea host vma page s.store
    let s := s.setStore read.2
    match read.1 with
    | none => (false, s.setPhys (s.phys.freePage pa))
    | some data =>
      let mapped :=
        (s.poke (pa + (max page vma.fileStart - page)) data).mapPage id page pa vma.prot
      if mapped.1 then (true, mapped.2)
      else (false, mapped.2.setPhys (mapped.2.phys.freePage pa))

/-- The part of `fault_file_page` that maps a page of the cache. -/
def mapCached (s : Memory F) (id : SpaceId) (vma : Vma) (page readOff : Nat) : Bool × Memory F :=
  let retained := s.store.vfsRetainPageCached host vma.fileNode readOff
  let s := s.setStore retained.2
  match retained.1 with
  | none => (false, s)
  | some pa =>
    let mapped :=
      if vma.flags &&& mapShared = 0 ∧ vma.prot &&& vmmUserWrite ≠ 0 then
        s.mapPageCow id page pa vma.prot
      else s.mapPage id page pa vma.prot
    if mapped.1 then (true, mapped.2)
    else (false, mapped.2.setPhys (mapped.2.phys.freePage pa))

/-- A page of a file: private, or of the page cache. -/
def faultFilePage (s : Memory F) (id : SpaceId) (vma : Vma) (page : Nat) : Bool × Memory F :=
  if s.pageAccessible id page .read &&
      (decide (vma.prot &&& vmmUserExec = 0) || s.pageAccessible id page .exec) then (true, s)
  else
    let readOff := vma.fileOffset + (page - vma.fileStart)
    if vma.fileStart ≤ page ∧ page + pageSize ≤ vma.fileStart + vma.fileSize ∧
        readOff % pageSize = 0 then
      s.mapCached host id vma page readOff
    else s.privateCopy host id vma page

/-- The lookup of the fault handlers: the area of a page, or a stack that is grown over it if no
area has it. `cell_grow_down_vma` grows a stack of the current process, whatever address space
the page is looked up in. -/
def areaFor (s : Memory F) (current id : SpaceId) (page : Nat) : Option Vma × Memory F :=
  match vmaLookup (s.space id).vmas page with
  | some vma => (some vma, s)
  | none =>
    match vmaGrowDown (s.space current).vmas page mapGrowsdown with
    | none => (none, s)
    | some (grown, vmas) => (some grown, s.setVmas current vmas)

/-- Bring in the page of an area. -/
def faultIn (s : Memory F) (id : SpaceId) (vma : Vma) (page : Nat) : Bool × Memory F :=
  if vma.type = .file then s.faultFilePage host id vma page else s.allocPage id page vma.prot

/-- `cell_handle_translation_fault`. -/
def handleTranslationFault (s : Memory F) (id : SpaceId) (far : Nat) (access : VmmAccess) :
    Bool × Memory F :=
  let va := pageBase far
  let area := s.areaFor id id va
  match area.1 with
  | none => (false, area.2)
  | some vma =>
    if accessAllowed vma access = false then (false, area.2)
    else if area.2.pageAccessible id va access then (true, area.2)
    else area.2.faultIn host id vma va

/-- `cell_handle_permission_fault`. -/
def handlePermissionFault (s : Memory F) (id : SpaceId) (far : Nat) (access : VmmAccess) :
    Bool × Memory F :=
  let va := pageBase far
  match vmaLookup (s.space id).vmas va with
  | none => (false, s)
  | some vma =>
    if accessAllowed vma access = false ∨ s.isMapped id va = false then (false, s)
    else
      let s := s.protectRange id va (va + pageSize) vma.prot
      (s.pageAccessible id va access, s)

/-- The first half of `cell_domain_ensure_user_range` for one page: bring the page in. -/
def presentPage (current id : SpaceId) (access : VmmAccess) (page : Nat) (s : Memory F) :
    Bool × Memory F :=
  if s.isMapped id page then (true, s)
  else
    let area := s.areaFor current id page
    match area.1 with
    | none => (false, area.2)
    | some vma =>
      if accessAllowed vma access = false then (false, area.2)
      else area.2.faultIn host id vma page

/-- The second half: resolve copy-on-write before a write. -/
def writablePage (id : SpaceId) (access : VmmAccess) (page : Nat) (s : Memory F) :
    Bool × Memory F :=
  if access = .write ∧ s.pageAccessible id page .write = false then s.handleCowFault id page
  else (true, s)

/-- One page of `cell_domain_ensure_user_range`. -/
def ensurePage (current id : SpaceId) (access : VmmAccess) (page : Nat) (s : Memory F) :
    Bool × Memory F :=
  let present := presentPage host current id access page s
  if present.1 = false then (false, present.2)
  else
    let opened := writablePage id access page present.2
    if opened.1 = false then (false, opened.2)
    else (opened.2.pageAccessible id page access, opened.2)

/-- `cell_domain_ensure_user_range` for the address space `id`, while `current` is current. -/
def ensureUserRange (s : Memory F) (current id : SpaceId) (va len : Nat) (access : VmmAccess) :
    Bool × Memory F :=
  if len = 0 then (true, s)
  else if 2 ^ 64 ≤ va + (len - 1) then (false, s)
  else
    let page := pageBase va
    let last := pageBase (va + (len - 1))
    countUp (fun k => ensurePage host current id access (page + k * pageSize))
      ((last - page) / pageSize + 1) 0 s

/-! ## Areas together with their pages -/

/-- `cell_prefault_anon_vma`. -/
def prefaultAnonVma (s : Memory F) (id : SpaceId) (start stop : Nat) : Bool × Memory F :=
  if stop ≤ start then (false, s)
  else match vmaLookupRange (s.space id).vmas start stop with
    | none => (false, s)
    | some vma =>
      if vma.type ≠ .anon then (false, s)
      else
        countUp (fun k s =>
          let page := start + k * pageSize
          if s.isMapped id page then (true, s)
          else
            let filled := s.allocPage id page vma.prot
            if filled.1 then (true, filled.2)
            else (false, filled.2.unmapRange id start page)) (rounds start stop) 0 s

/-- `cell_remove_vma`. -/
def removeVma (s : Memory F) (id : SpaceId) (start stop : Nat) : Bool × Memory F :=
  let flushed := s.flushShared host id start stop
  if flushed.1 = false then (false, flushed.2)
  else (flushed.2.unmapRange id start stop).withVmas id fun list phys =>
    vmaRemove (physVmaHost host) list start stop phys

/-- `cell_protect_vma`. -/
def protectVma (s : Memory F) (id : SpaceId) (start stop : Nat) (prot : UInt32) :
    Bool × Memory F :=
  let areas := s.withVmas id fun list phys =>
    vmaProtect (physVmaHost host) list start stop prot phys
  if areas.1 = false then (false, areas.2)
  else (true, areas.2.protectRange id start stop prot)

/-- `cell_add_vma_typed`. -/
def addVmaTyped (s : Memory F) (id : SpaceId) (start stop : Nat) (prot flags : UInt32)
    (type : VmaType) : Bool × Memory F :=
  s.withVmas id fun list phys => vmaInsert (physVmaHost host) list start stop prot flags type phys

/-- `cell_add_file_vma`. -/
def addFileVma (s : Memory F) (id : SpaceId) (start stop : Nat) (prot flags : UInt32)
    (node : VfsNode) (fileStart fileOffset fileSize : Nat) : Bool × Memory F :=
  s.withVmas id fun list phys => vmaInsertFile (physVmaHost host) list start stop prot flags
    (some node) fileStart fileOffset fileSize phys

end Host

end Memory

end Spore.Mm
