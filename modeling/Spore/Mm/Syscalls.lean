import Spore.Mm.AddressSpace

/-!
# Memory system calls and images (`sys_mem.c`, `sys_exec.c`, `elf/loader.c`, `exec/stack.c`)

The system calls that change an address space, the loading of a new image, and the memory side
of `handle_lower_sync`. Arguments are 64-bit words, and address arithmetic wraps where the
source lets it wrap. What other subsystems answer (the descriptor's node, seals, the memory
cap) is part of the call.
-/

namespace Spore.Mm

open Spore.Lib

/-- `MAP_PRIVATE`. -/
def mapPrivate : BitVec 64 := 0x2
/-- `MAP_SHARED` of the system call. -/
def mapSharedArg : BitVec 64 := 0x1
/-- `MAP_FIXED`. -/
def mapFixed : BitVec 64 := 0x10
/-- `MAP_ANONYMOUS`. -/
def mapAnonymous : BitVec 64 := 0x20
/-- `MAP_GROWSDOWN` of the system call. -/
def mapGrowsdownArg : BitVec 64 := 0x100
/-- `MAP_FIXED_NOREPLACE`. -/
def mapFixedNoreplace : BitVec 64 := 0x100000
/-- `MREMAP_MAYMOVE`. -/
def mremapMaymove : BitVec 64 := 1
/-- `MREMAP_FIXED`. -/
def mremapFixed : BitVec 64 := 2
/-- `PROT_READ`. -/
def protRead : BitVec 64 := 1
/-- `PROT_WRITE`. -/
def protWrite : BitVec 64 := 2
/-- `PROT_EXEC`. -/
def protExec : BitVec 64 := 4
/-- `MADV_DONTNEED`. -/
def madvDontneed : Nat := 4
/-- `MADV_FREE`. -/
def madvFree : Nat := 8
/-- `USER_STACK_TOP`. -/
def userStackTop : Nat := 0x7ffffff00000
/-- `USER_STACK_SIZE`. -/
def userStackSize : Nat := 0x2000000

/-- `EPERM`. -/
def ePerm : Int := 1
/-- `ENOMEM`. -/
def eNomem : Int := 12
/-- `EFAULT`. -/
def eFault : Int := 14
/-- `EEXIST`. -/
def eExist : Int := 17
/-- `EINVAL`. -/
def eInval : Int := 22

/-- Whether a flag is set. -/
def hasFlag (word flag : BitVec 64) : Bool := word &&& flag != 0

/-- The end of the pages of `len` bytes at an address, as `munmap`, `mprotect` and `madvise`
compute it. -/
def rangeStop (addr len : Nat) : Nat := alignUp ((addr + len) % 2 ^ 64)

/-- `checked_add`: the sum, unless it overflows. -/
def checkedAdd (a b : Nat) : Option Nat := if a + b < 2 ^ 64 then some (a + b) else none

/-- The rights of a mapping in the kernel's own flags. -/
def protToVmm (prot : BitVec 64) : UInt32 :=
  (if hasFlag prot protRead then vmmUserRead else 0) |||
  (if hasFlag prot protWrite then vmmUserWrite else 0) |||
  (if hasFlag prot protExec then vmmUserExec else 0)

/-- The `MAP_*` flags as an area stores them. -/
def storedFlags (flags : BitVec 64) : UInt32 := UInt32.ofNat flags.toNat

/-- The arguments of `mmap` and what other subsystems answer. -/
structure MmapCall where
  addr : Nat
  len : Nat
  prot : BitVec 64
  flags : BitVec 64
  fd : Int
  off : Nat
  /-- `cell_fd_stat`. -/
  node : Option VfsNode
  /-- `vfs_shared_writable_mmap_sealed`. -/
  writeSealed : Bool
  /-- `cell_map_add_allowed`. -/
  allowed : Bool

/-- The arguments of `mremap` and what other subsystems answer. -/
structure MremapCall where
  oldAddr : Nat
  oldLen : Nat
  newLen : Nat
  flags : BitVec 64
  newAddr : Nat
  /-- `cell_map_add_allowed` or `cell_map_resize_allowed`. -/
  allowed : Bool

/-- A `PT_LOAD` segment of an ELF file, at the address that `elf_load_aarch64` gives it. -/
structure Segment where
  /-- Where it goes. -/
  vaddr : Nat
  /-- `p_memsz`. -/
  memSize : Nat
  /-- Its rights. -/
  prot : UInt32
  /-- The file. -/
  node : VfsNode
  /-- Where it is in the file. -/
  offset : Nat
  /-- `p_filesz`. -/
  fileSize : Nat

/-- The first page of a segment. -/
def Segment.start (seg : Segment) : Nat := alignDown seg.vaddr

/-- The end of the pages of a segment. -/
def Segment.stop (seg : Segment) : Nat := alignUp ((seg.vaddr + seg.memSize) % 2 ^ 64)

/-- What `execve` puts in a new address space: segments, the program break, and the pieces of
the initial stack in the order they are written. -/
structure Image where
  /-- The segments. -/
  segments : List Segment
  /-- The end of the last one. -/
  brk : Nat
  /-- What goes on the stack. -/
  pieces : List (Nat × List UInt8)

namespace Memory

variable {F : Type}

/-- The loop of `find_free_mmap_range`. -/
def findFreeLoop (vmas : VmaList) (len : Nat) : (fuel base : Nat) → Option Nat
  | 0, _ => none
  | fuel + 1, base =>
    match checkedAdd base len with
    | none => none
    | some stop =>
      if vmaOverlaps vmas base stop = false then some base
      else findFreeLoop vmas len fuel (alignUp ((stop + pageSize) % 2 ^ 64))

/-- The base that `find_free_mmap_range` finds. -/
def findFreeMmapRange (space : Space) (len : Nat) : Option Nat :=
  findFreeLoop space.vmas len 4096 (alignUp space.as.mmapBase)

/-- The end of a range of `len` bytes, rounded up to a page. -/
def rangeEnd (base len : Nat) : Option Nat :=
  match checkedAdd base len with
  | none => none
  | some rawEnd => if alignUp rawEnd < rawEnd then none else some (alignUp rawEnd)

/-- The range that `sys_mmap` settles on before it changes anything, or its error. The flag
says whether `find_free_mmap_range` chose it. -/
def mmapRange (space : Space) (call : MmapCall) : Except Int (Nat × Nat × Bool) :=
  let fixed := hasFlag call.flags (mapFixed ||| mapFixedNoreplace)
  let base := if call.addr ≠ 0 then alignDown call.addr else space.as.mmapBase
  match rangeEnd base call.len with
  | none => .error (-eInval)
  | some stop =>
    if fixed = false ∧ vmaOverlaps space.vmas base stop = true then
      match findFreeMmapRange space (stop - base) with
      | none => .error (-eNomem)
      | some base =>
        match rangeEnd base call.len with
        | none => .error (-eInval)
        | some stop => .ok (base, stop, true)
    else .ok (base, stop, false)

/-- Set `mmap_base`. -/
def setMmapBase (s : Memory F) (id : SpaceId) (base : Nat) : Memory F :=
  s.setSpace id fun space => { space with as := { space.as with mmapBase := base } }

/-- Set `brk_current`. -/
def setBrk (s : Memory F) (id : SpaceId) (brk : Nat) : Memory F :=
  s.setSpace id fun space => { space with as := { space.as with brkCurrent := brk } }

section

variable (host : FileHost F)

/-- The kind of an anonymous area. -/
def anonType (call : MmapCall) : VmaType :=
  if hasFlag call.flags mapGrowsdownArg then .stack else .anon

/-- The anonymous case of `sys_mmap`. -/
def mmapAnon (s : Memory F) (id : SpaceId) (call : MmapCall) (base stop : Nat) : Int × Memory F :=
  let added := s.addVmaTyped host id base stop (protToVmm call.prot) (storedFlags call.flags)
    (anonType call)
  if added.1 = false then (-eInval, added.2)
  else if hasFlag call.flags mapSharedArg ∧ anonType call = .anon then
    let filled := added.2.prefaultAnonVma id base stop
    if filled.1 then (base, filled.2) else (-eNomem, (filled.2.removeVma host id base stop).2)
  else (base, added.2)

/-- The file case of `sys_mmap`. -/
def mmapFile (s : Memory F) (id : SpaceId) (call : MmapCall) (base stop : Nat) : Int × Memory F :=
  match call.node with
  | none => (-eInval, s)
  | some node =>
    if node.isDir ∨ node.device ≠ .none then (-eInval, s)
    else if hasFlag call.flags mapSharedArg ∧ protToVmm call.prot &&& vmmUserWrite ≠ 0 ∧
        call.writeSealed then (-ePerm, s)
    else
      let added := s.addFileVma host id base stop (protToVmm call.prot) (storedFlags call.flags)
        node base call.off call.len
      if added.1 then (base, added.2) else (-eInval, added.2)

/-- The end of `sys_mmap`: remove what a fixed mapping replaces, then insert the area. -/
def mmapInsert (s : Memory F) (id : SpaceId) (call : MmapCall) (base stop : Nat) :
    Int × Memory F :=
  let s := if hasFlag call.flags mapFixed then (s.removeVma host id base stop).2 else s
  if hasFlag call.flags mapAnonymous then s.mmapAnon host id call base stop
  else s.mmapFile host id call base stop

/-- `mmap`: its checks in order, then an anonymous or a file area. -/
def sysMmap (s : Memory F) (id : SpaceId) (call : MmapCall) : Int × Memory F :=
  let anon := hasFlag call.flags mapAnonymous
  let isPrivate := hasFlag call.flags mapPrivate
  let shared := hasFlag call.flags mapSharedArg
  if call.len = 0 ∨ isPrivate = shared ∨ (anon = false ∧ call.fd < 0) then (-eInval, s)
  else match mmapRange (s.space id) call with
    | .error code => (code, s)
    | .ok (base, stop, moved) =>
      let s := if moved then s.setMmapBase id stop else s
      if hasFlag call.flags mapFixedNoreplace ∧ vmaOverlaps (s.space id).vmas base stop = true then
        (-eExist, s)
      else if call.allowed = false then (-eNomem, s)
      else
        let done := s.mmapInsert host id call base stop
        let fixed := hasFlag call.flags (mapFixed ||| mapFixedNoreplace)
        if 0 ≤ done.1 ∧ fixed = false ∧ (done.2.space id).as.mmapBase < stop then
          (done.1, done.2.setMmapBase id stop)
        else done

/-- `munmap` flushes, unmaps and removes the range. -/
def sysMunmap (s : Memory F) (id : SpaceId) (addr len : Nat) : Int × Memory F :=
  if len = 0 then (-eInval, s)
  else
    let removed := s.removeVma host id (alignDown addr) (rangeStop addr len)
    (if removed.1 then 0 else -eInval, removed.2)

/-- The loop of `sys_mprotect` over the pages of a range that has no areas of its own. -/
def allMapped (s : Memory F) (id : SpaceId) (start stop : Nat) : Bool :=
  (List.range (rounds start stop)).all fun k => s.isMapped id (start + k * pageSize)

/-- `sys_mprotect` on whole pages: areas and page tables, or page tables alone when the areas
could not be changed but every page is mapped. -/
def protectPages (s : Memory F) (id : SpaceId) (start stop : Nat) (prot : UInt32) :
    Int × Memory F :=
  let changed := s.protectVma host id start stop prot
  if changed.1 then (0, changed.2)
  else if changed.2.allMapped id start stop = false then (-eInval, changed.2)
  else (0, changed.2.protectRange id start stop prot)

/-- `mprotect` changes areas and leaves of the range. -/
def sysMprotect (s : Memory F) (id : SpaceId) (addr len : Nat) (prot : BitVec 64) :
    Int × Memory F :=
  if len = 0 then (0, s)
  else s.protectPages host id (alignDown addr) (rangeStop addr len) (protToVmm prot)

/-- `brk` grows or shrinks the heap when it may. -/
def sysBrk (s : Memory F) (id : SpaceId) (requested : Nat) (allowed : Bool) : Memory F :=
  let as := (s.space id).as
  let oldEnd := alignUp as.brkCurrent
  let newEnd := alignUp requested
  if requested = 0 ∨ requested < as.brkBase ∨ newEnd < requested then s
  else if newEnd < oldEnd then
    let removed := s.removeVma host id newEnd oldEnd
    if removed.1 then removed.2.setBrk id requested else removed.2
  else if oldEnd < newEnd then
    if allowed = false then s
    else
      let added := s.addVmaTyped host id oldEnd newEnd (vmmUserRead ||| vmmUserWrite) 0 .anon
      if added.1 then added.2.setBrk id requested else added.2
  else s.setBrk id requested

/-- `sys_msync`, after its argument checks. -/
def sysMsync (s : Memory F) (id : SpaceId) (start stop : Nat) : Memory F :=
  if stop ≤ start then s else (s.flushShared host id start stop).2

/-- `madvise` drops the pages of the range. -/
def sysMadvise (s : Memory F) (id : SpaceId) (addr len advice : Nat) : Memory F :=
  if advice = madvDontneed ∨ advice = madvFree then
    s.unmapRange id (alignDown addr) (rangeStop addr len)
  else s

/-! ## mremap -/

/-- An area like the old one at the new place. -/
def addMremapVma (s : Memory F) (id : SpaceId) (start stop : Nat) (old : Vma)
    (fileStart fileSize : Nat) : Bool × Memory F :=
  if old.type = .file then
    s.addFileVma host id start stop old.prot old.flags old.fileNode fileStart
      old.fileOffset fileSize
  else s.addVmaTyped host id start stop old.prot old.flags old.type

/-- The mapped pages go to their new addresses. -/
def moveMappedPages (s : Memory F) (id : SpaceId) (oldStart len newStart : Nat) : Bool × Memory F :=
  countUp (fun k s => s.movePage id (oldStart + k * pageSize) (newStart + k * pageSize))
    (rounds 0 len) 0 s

/-- The end of a move by `sys_mremap`: pages, then areas. -/
def mremapRelocate (s : Memory F) (id : SpaceId) (old : Vma)
    (oldStart oldEnd newStart newEnd newSize : Nat) : Int × Memory F :=
  let moved := s.moveMappedPages id oldStart (min (oldEnd - oldStart) newSize) newStart
  if moved.1 = false then (-eNomem, moved.2)
  else
    let removed := moved.2.removeVma host id oldStart oldEnd
    let added := removed.2.addMremapVma host id newStart newEnd old newStart newSize
    if added.1 then (newStart, added.2) else (-eNomem, added.2)

/-- The part of `sys_mremap` that moves a mapping, once its target is settled. -/
def mremapMove (s : Memory F) (id : SpaceId) (call : MremapCall) (old : Vma)
    (oldEnd newStart newEnd newSize : Nat) : Int × Memory F :=
  let fixed := hasFlag call.flags mremapFixed
  if overlaps call.oldAddr oldEnd newStart newEnd then (-eInval, s)
  else if call.allowed = false then (-eNomem, s)
  else
    let s := if fixed then (s.removeVma host id newStart newEnd).2 else s
    if vmaOverlaps (s.space id).vmas newStart newEnd then (-eNomem, s)
    else s.mremapRelocate host id old call.oldAddr oldEnd newStart newEnd newSize

/-- The target of a move: the fixed address, or the next free range. -/
def mremapTarget (space : Space) (call : MremapCall) (newSize : Nat) : Except Int Nat :=
  if hasFlag call.flags mremapFixed then
    if call.newAddr % pageSize ≠ 0 then .error (-eInval) else .ok call.newAddr
  else match findFreeMmapRange space newSize with
    | none => .error (-eNomem)
    | some base => .ok base

/-- Whether a mapping can grow where it is. -/
def mremapFits (space : Space) (call : MremapCall) (oldEnd newSize : Nat) : Bool :=
  match checkedAdd call.oldAddr newSize with
  | some stop => !hasFlag call.flags mremapFixed && !vmaOverlaps space.vmas oldEnd stop
  | none => false

/-- `sys_mremap` when the mapping is to change its size in place or move. -/
def mremapResize (s : Memory F) (id : SpaceId) (call : MremapCall) (old : Vma)
    (oldEnd newSize : Nat) : Int × Memory F :=
  let fixed := hasFlag call.flags mremapFixed
  if mremapFits (s.space id) call oldEnd newSize then
    if call.allowed = false then (-eNomem, s)
    else
      let added := s.addMremapVma host id oldEnd (call.oldAddr + newSize) old old.fileStart newSize
      if added.1 then (call.oldAddr, added.2) else (-eNomem, added.2)
  else if fixed = false ∧ hasFlag call.flags mremapMaymove = false then (-eNomem, s)
  else match mremapTarget (s.space id) call newSize with
    | .error code => (code, s)
    | .ok newStart =>
      let s := if fixed then s else s.setMmapBase id (newStart + newSize)
      match checkedAdd newStart newSize with
      | none => (-eInval, s)
      | some newEnd => s.mremapMove host id call old oldEnd newStart newEnd newSize

/-- `mremap` keeps, shrinks, grows or moves the range. -/
def sysMremap (s : Memory F) (id : SpaceId) (call : MremapCall) : Int × Memory F :=
  let fixed := hasFlag call.flags mremapFixed
  let maymove := hasFlag call.flags mremapMaymove
  let oldSize := alignUp call.oldLen
  let newSize := alignUp call.newLen
  if call.oldAddr % pageSize ≠ 0 ∨ hasFlag call.flags (~~~(mremapMaymove ||| mremapFixed)) ∨
      call.newLen = 0 ∨ (fixed ∧ maymove = false) then (-eInval, s)
  else if call.oldLen = 0 ∨ oldSize < call.oldLen ∨ newSize < call.newLen then (-eInval, s)
  else match checkedAdd call.oldAddr oldSize with
    | none => (-eInval, s)
    | some oldEnd =>
      match vmaLookupRange (s.space id).vmas call.oldAddr oldEnd with
      | none => (-eFault, s)
      | some old =>
        if old.type = .stack ∧ oldSize < newSize ∧ maymove = false ∧ fixed = false then (-eNomem, s)
        else if newSize = oldSize ∧ fixed = false then (call.oldAddr, s)
        else if newSize < oldSize ∧ fixed = false then
          let removed := s.removeVma host id (call.oldAddr + newSize) oldEnd
          (if removed.1 then call.oldAddr else -eNomem, removed.2)
        else s.mremapResize host id call old oldEnd newSize

/-! ## Images -/

/-- `elf_load_aarch64` for segments that were read from the file. -/
def loadSegments : List Segment → Memory F → Bool × Memory F
  | [], s => (true, s)
  | seg :: rest, s =>
    let added := s.addFileVma host .image seg.start seg.stop seg.prot 0 seg.node seg.vaddr
      seg.offset seg.fileSize
    if added.1 then loadSegments rest added.2 else (false, added.2)

/-- The stack is made present before `execve` writes it. -/
def ensureStackRange (s : Memory F) (va len : Nat) : Bool × Memory F :=
  if len = 0 ∨ va < userStackTop - userStackSize ∨ userStackTop < va + len then (false, s)
  else
    let page := pageBase va
    let last := pageBase (va + (len - 1))
    countUp (fun k s =>
      let page := page + k * pageSize
      if s.isMapped .image page then (true, s)
      else s.allocPage .image page (vmmUserRead ||| vmmUserWrite))
      ((last - page) / pageSize + 1) 0 s

/-- `stack_copy_to_user`, for the pieces of the initial stack in turn. -/
def buildStack : List (Nat × List UInt8) → Memory F → Bool × Memory F
  | [], s => (true, s)
  | piece :: rest, s =>
    let room := s.ensureStackRange piece.1 piece.2.length
    if room.1 = false then (false, room.2)
    else
      let copied := room.2.copyToUser .image piece.1 piece.2
      if copied.1 then buildStack rest copied.2 else (false, copied.2)

/-- The address-space part of `execve`: load the image, build its stack, and make it an address
space of its own. -/
def execImage (s : Memory F) (image : Image) : Option Nat × Memory F :=
  let started := s.userInit
  if started.1 = false then (none, started.2)
  else
    let loaded := loadSegments host image.segments started.2
    if loaded.1 = false then (none, loaded.2.discard host .image)
    else
      let s := loaded.2.setSpace .image fun space => { space with
        as := { space.as with brkBase := image.brk, brkCurrent := image.brk } }
      let stacked := buildStack image.pieces s
      if stacked.1 = false then (none, stacked.2.discard host .image)
      else
        let area := stacked.2.addVmaTyped host .image (userStackTop - userStackSize) userStackTop
          (vmmUserRead ||| vmmUserWrite) 0 .stack
        if area.1 = false then (none, area.2.discard host .image)
        else
          let owned := area.2.mmFromOwned
          match owned.1 with
          | some slot => (some slot, owned.2)
          | none => (none, owned.2.discard host .image)

/-! ## Faults and stores of user code -/

/-- The kinds of abort that `handle_lower_sync` tells apart. -/
inductive Abort where
  /-- Instruction abort, translation. -/
  | execTranslation
  /-- Instruction abort, permission. -/
  | execPermission
  /-- Data abort, translation. -/
  | dataTranslation (write : Bool)
  /-- Data abort, permission. -/
  | dataPermission (write : Bool)
  deriving Repr, DecidableEq

/-- The memory side of `handle_lower_sync`: whether the instruction is to be retried. -/
def handleAbort (s : Memory F) (id : SpaceId) (far : Nat) : Abort → Bool × Memory F
  | .execTranslation => s.handleTranslationFault host id far .exec
  | .execPermission => s.handlePermissionFault id far .exec
  | .dataTranslation write => s.handleTranslationFault host id far (if write then .write else .read)
  | .dataPermission write =>
    let cow := if write then s.handleCowFault id far else (false, s)
    if cow.1 then (true, cow.2)
    else cow.2.handlePermissionFault id far (if write then .write else .read)

/-- A byte stored by user code, when the page table allows it. -/
def userStore (s : Memory F) (id : SpaceId) (va : Nat) (byte : UInt8) : Bool × Memory F :=
  let pa := s.userToPhysChecked id va .write
  if 2 ^ 48 ≤ va ∨ pa = 0 then (false, s) else (true, s.poke pa [byte])

/-- A byte that user code or a copy from user memory reads. -/
def userLoad (s : Memory F) (id : SpaceId) (va : Nat) : Option UInt8 :=
  let pa := s.userToPhysChecked id va .read
  if 2 ^ 48 ≤ va ∨ pa = 0 then none else some (s.phys.bytes (pa / pageSize) (pa % pageSize))

end

end Memory

end Spore.Mm
