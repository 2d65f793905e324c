import Spore.Lib.Field
import Spore.Lib.Loop
import Spore.Mm.VmaAccounts
import Spore.Vfs.PageCache

/-!
# Page tables (`mm/vmm.c`)

An address space has four levels of tables of 512 words. The tables of one level are laid out
one after another: the word that the walk for an address reads at a level has the index that
the address's nine-bit fields down to that level spell out, so the children of word `i` are
the words `512 * i`, …, `512 * i + 511` of the next level. A table that was just allocated is
zero, and with it everything below.

An address space is named by the place it is stored in. TLB maintenance is left out: every
change of a word in the source is followed by the flush that makes it visible.
-/

namespace Spore.Mm

open Spore.Lib

/-! ## Words -/

/-- `PTE_VALID`. -/
def pteValid : BitVec 64 := 0x1
/-- `PTE_TABLE`. -/
def pteTable : BitVec 64 := 0x2
/-- `PTE_AF`. -/
def pteAf : BitVec 64 := 0x400
/-- `PTE_SH_INNER`. -/
def pteShInner : BitVec 64 := 0x300
/-- `PTE_AP_MASK`. -/
def pteApMask : BitVec 64 := 0xc0
/-- `PTE_AP_USER_RW`. -/
def pteApUserRw : BitVec 64 := 0x40
/-- `PTE_AP_USER_RO`. -/
def pteApUserRo : BitVec 64 := 0xc0
/-- `PTE_PXN`. -/
def ptePxn : BitVec 64 := 0x20000000000000
/-- `PTE_UXN`. -/
def pteUxn : BitVec 64 := 0x40000000000000
/-- `PTE_COW`. -/
def pteCow : BitVec 64 := 0x80000000000000
/-- `PTE_ADDR_MASK`. -/
def pteAddrMask : BitVec 64 := 0xfffffffff000

/-- `VMM_USER_READ`. -/
def vmmUserRead : UInt32 := 1
/-- `VMM_USER_EXEC`. -/
def vmmUserExec : UInt32 := 4

/-- `enum vmm_access`. -/
inductive VmmAccess where
  | read
  | write
  | exec
  deriving Repr, DecidableEq

/-- The valid bit of a word. -/
def isValid (word : BitVec 64) : Bool := word &&& pteValid != 0
/-- Both bits that a walk asks of a table entry. -/
def isTable (word : BitVec 64) : Bool := word &&& (pteValid ||| pteTable) == pteValid ||| pteTable
/-- The copy-on-write bit. -/
def isCow (word : BitVec 64) : Bool := word &&& pteCow != 0
/-- The program may write through the leaf. -/
def isWritableLeaf (word : BitVec 64) : Bool := word &&& pteApMask == pteApUserRw
/-- The physical address in a word. -/
def addrOf (word : BitVec 64) : Nat := (word &&& pteAddrMask).toNat
/-- The physical page in a word. -/
def pageOf (word : BitVec 64) : Nat := addrOf word / pageSize

/-- A leaf is a page at level 3 and a block above it. -/
def isLeafAtLevel (word : BitVec 64) (level : Nat) : Bool :=
  isValid word && (level == 3 || word &&& pteTable == 0)

/-- The leaf with other access bits. -/
def leafWithAp (word ap : BitVec 64) : BitVec 64 := (word &&& ~~~pteApMask) ||| ap

/-- The access permission for a set of rights. -/
def apFor (flags : UInt32) : BitVec 64 :=
  if flags &&& vmmUserWrite ≠ 0 then pteApUserRw else pteApUserRo

/-- The execute-never bit for a set of rights. -/
def xnFor (flags : UInt32) : BitVec 64 := if flags &&& vmmUserExec ≠ 0 then 0 else pteUxn

/-- The word that links a table. -/
def tableWord (pa : Nat) : BitVec 64 := BitVec.ofNat 64 pa ||| pteValid ||| pteTable

/-- The word that `vmm_map_page` writes. -/
def mapWord (pa : Nat) (flags : UInt32) : BitVec 64 :=
  (BitVec.ofNat 64 pa &&& pteAddrMask) ||| pteValid ||| pteTable ||| pteAf ||| pteShInner |||
    apFor flags ||| ptePxn ||| xnFor flags

/-- The word that `vmm_map_page_cow` writes. -/
def mapCowWord (pa : Nat) (flags : UInt32) : BitVec 64 :=
  (BitVec.ofNat 64 pa &&& pteAddrMask) ||| pteValid ||| pteTable ||| pteAf ||| pteShInner |||
    pteApUserRo ||| ptePxn ||| xnFor flags ||| pteCow

/-- What `clone_table_cow` makes of a leaf, in both address spaces. -/
def clonedWord (word : BitVec 64) : BitVec 64 :=
  if isWritableLeaf word || isCow word then leafWithAp (word ||| pteCow) pteApUserRo else word

/-- What `vmm_restore_shared_range` makes of a leaf. -/
def restoredWord (word : BitVec 64) (flags : UInt32) : BitVec 64 :=
  (leafWithAp (word &&& ~~~pteCow) (apFor flags) &&& ~~~pteUxn) ||| xnFor flags

/-- The leaf after `vmm_handle_cow_fault` when nobody else refers to its page. -/
def takenWord (word : BitVec 64) : BitVec 64 := leafWithAp (word &&& ~~~pteCow) pteApUserRw

/-- The leaf after `vmm_handle_cow_fault` copied its page. -/
def copiedWord (word : BitVec 64) (pa : Nat) : BitVec 64 :=
  leafWithAp ((word &&& ~~~pteAddrMask &&& ~~~pteCow) ||| (BitVec.ofNat 64 pa &&& pteAddrMask))
    pteApUserRw

/-- What `vmm_protect_range` makes of a leaf. -/
def protectedWord (word : BitVec 64) (flags : UInt32) : BitVec 64 :=
  if flags &&& vmmUserExec ≠ 0 then leafWithAp word (apFor flags) &&& ~~~pteUxn
  else leafWithAp word (apFor flags) ||| pteUxn

/-- The access that a leaf allows the program. -/
def userEntryAllows (word : BitVec 64) : VmmAccess → Bool
  | .read => true
  | .write => word &&& pteApMask == pteApUserRw
  | .exec => word &&& pteUxn == 0

/-! ## Address spaces and memory -/

/-- `struct user_address_space`. -/
structure UserAddressSpace where
  /-- The root table. -/
  rootPa : Nat
  /-- The words of the tables, by level and index. -/
  entry : Nat → Nat → BitVec 64
  /-- Where the heap begins. -/
  brkBase : Nat
  /-- Where it ends. -/
  brkCurrent : Nat
  /-- Where the search for a range begins. -/
  mmapBase : Nat

/-- A zeroed address space. -/
def UserAddressSpace.zero : UserAddressSpace := ⟨0, fun _ _ => 0, 0, 0, 0⟩

/-- Where an address space is stored: in `process_mms`, in `snapshots`, or in the local
variables of the code that loads an image or copies a snapshot. -/
inductive SpaceId where
  | mm (slot : Nat)
  | snapshot (slot : Nat)
  | image
  deriving Repr, DecidableEq

/-- `struct process_mm` and the parts of `struct snapshot` that match it. -/
structure Space where
  /-- `used`. -/
  live : Bool
  /-- The references to it. -/
  refcount : Nat
  /-- Its tables. -/
  as : UserAddressSpace
  /-- Its areas. -/
  vmas : VmaList

/-- A place without an address space. -/
def Space.dead : Space := ⟨false, 0, .zero, .init⟩

/-- Physical memory, the page cache and all address spaces. -/
structure Memory (F : Type) where
  /-- Pages and page cache. -/
  store : Store F
  /-- The address spaces. -/
  space : SpaceId → Space
  /-- `process_mm_capacity`. -/
  mmCapacity : Nat

namespace Memory

variable {F : Type}

/-- Physical memory. -/
abbrev phys (s : Memory F) : Phys F := s.store.phys

/-- Replace physical memory. -/
def setPhys (s : Memory F) (phys : Phys F) : Memory F := { s with store := { s.store with phys } }

/-- Replace physical memory and the page cache. -/
def setStore (s : Memory F) (store : Store F) : Memory F := { s with store }

/-- Change one address space. -/
def setSpace (s : Memory F) (id : SpaceId) (change : Space → Space) : Memory F :=
  { s with space := fun i => if i = id then change (s.space i) else s.space i }

/-- A word of an address space. -/
def entry (s : Memory F) (id : SpaceId) (level index : Nat) : BitVec 64 :=
  (s.space id).as.entry level index

/-- Write a word of an address space. -/
def setEntry (s : Memory F) (id : SpaceId) (level index : Nat) (word : BitVec 64) : Memory F :=
  s.setSpace id fun space => { space with as := { space.as with
    entry := fun l i => if l = level ∧ i = index then word else space.as.entry l i } }

/-- Link a new table: its words, and with them everything below, are zero. -/
def linkTable (s : Memory F) (id : SpaceId) (level index pa : Nat) : Memory F :=
  s.setSpace id fun space => { space with as := { space.as with
    entry := fun l i =>
      if l = level ∧ i = index then tableWord pa
      else if level < l ∧ i / 512 ^ (l - level) = index then 0
      else space.as.entry l i } }

/-- Replace the areas of an address space. -/
def setVmas (s : Memory F) (id : SpaceId) (vmas : VmaList) : Memory F :=
  s.setSpace id fun space => { space with vmas }

/-- Write bytes at a physical address; the bytes lie in one page. -/
def poke (s : Memory F) (pa : Nat) (data : List UInt8) : Memory F :=
  s.setPhys { s.phys with
    bytes := fun p k =>
      if p = pa / pageSize ∧ pa % pageSize ≤ k ∧ k < pa % pageSize + data.length then
        data.getD (k - pa % pageSize) 0
      else s.phys.bytes p k }

/-! ## Walks -/

/-- The nine bits of an address that index one level. -/
def ptIndex (va shift : Nat) : Nat := va / 2 ^ shift % 512

/-- The index of the word that a walk reads at a level. -/
def walkIndex (va : Nat) : Nat → Nat
  | 0 => ptIndex va 39
  | level + 1 => walkIndex va level * 512 + ptIndex va (39 - 9 * (level + 1))

/-- `leaf_for_va`: the index of the leaf, when all tables above it are present. -/
def leafForVa (s : Memory F) (id : SpaceId) (va : Nat) : Option Nat :=
  if isTable (s.entry id 0 (walkIndex va 0)) && isTable (s.entry id 1 (walkIndex va 1)) &&
      isTable (s.entry id 2 (walkIndex va 2)) then
    some (walkIndex va 3)
  else none

/-- The leaf of an address: its index and a valid word. -/
def validLeaf (s : Memory F) (id : SpaceId) (va : Nat) : Option Nat :=
  (s.leafForVa id va).filter fun index => isValid (s.entry id 3 index)

/-- `vmm_is_mapped`. -/
def isMapped (s : Memory F) (id : SpaceId) (va : Nat) : Bool := (s.validLeaf id va).isSome

/-- `user_to_phys_checked`; zero when the access is not allowed. -/
def userToPhysChecked (s : Memory F) (id : SpaceId) (va : Nat) (access : VmmAccess) : Nat :=
  match s.validLeaf id va with
  | none => 0
  | some index =>
    if userEntryAllows (s.entry id 3 index) access then
      addrOf (s.entry id 3 index) + va % pageSize
    else 0

/-- `vmm_user_range_accessible` for a range inside one page. -/
def pageAccessible (s : Memory F) (id : SpaceId) (page : Nat) (access : VmmAccess) : Bool :=
  s.userToPhysChecked id page access != 0

/-! ## Mapping -/

/-- The table below an entry, allocated when there is none. -/
def ensureTable (s : Memory F) (id : SpaceId) (level index : Nat) : Bool × Memory F :=
  if isValid (s.entry id level index) then (s.entry id level index &&& pteTable != 0, s)
  else match s.phys.allocZeroPage with
    | none => (false, s)
    | some (pa, phys) => (true, (s.setPhys phys).linkTable id level index pa)

/-- The three calls of `ensure_table` on the way to a leaf. -/
def ensureTables (s : Memory F) (id : SpaceId) (va : Nat) : Bool × Memory F :=
  countUp (fun level s => s.ensureTable id level (walkIndex va level)) 3 0 s

/-- `vmm_map_page`. -/
def mapPage (s : Memory F) (id : SpaceId) (va pa : Nat) (flags : UInt32) : Bool × Memory F :=
  let tables := s.ensureTables id va
  if tables.1 then (true, tables.2.setEntry id 3 (walkIndex va 3) (mapWord pa flags))
  else (false, tables.2)

/-- `vmm_map_page_cow`. -/
def mapPageCow (s : Memory F) (id : SpaceId) (va pa : Nat) (flags : UInt32) : Bool × Memory F :=
  let tables := s.ensureTables id va
  if tables.1 then (true, tables.2.setEntry id 3 (walkIndex va 3) (mapCowWord pa flags))
  else (false, tables.2)

/-- `vmm_alloc_page`. -/
def allocPage (s : Memory F) (id : SpaceId) (va : Nat) (flags : UInt32) : Bool × Memory F :=
  match s.phys.allocZeroPage with
  | none => (false, s)
  | some (pa, phys) => (s.setPhys phys).mapPage id va pa flags

/-- `vmm_user_init`, as a new image. -/
def userInit (s : Memory F) : Bool × Memory F :=
  match s.phys.allocZeroPage with
  | none => (false, s)
  | some (pa, phys) => (true, (s.setPhys phys).setSpace .image fun _ =>
      { live := true, refcount := 0, vmas := .init
        as := { rootPa := pa, entry := fun _ _ => 0, brkBase := 0, brkCurrent := 0,
                mmapBase := 0x7000000000 } })

/-! ## Copying and destroying -/

/-- The leaf case of `clone_table_cow`. -/
def cloneLeaf (s : Memory F) (dst src : SpaceId) (level index : Nat) : Bool × Memory F :=
  let word := s.entry src level index
  match s.phys.pmm.sharePage (addrOf word) with
  | none => (false, s)
  | some pmm =>
    let s := s.setPhys { s.phys with pmm }
    (true, (s.setEntry src level index (clonedWord word)).setEntry dst level index
      (clonedWord word))

/-- One round of the loop of `clone_table_cow`; `descend` is the recursive call. -/
def cloneEntry (dst src : SpaceId) (level : Nat)
    (descend : Nat → Memory F → Bool × Memory F) (index : Nat) (s : Memory F) :
    Bool × Memory F :=
  if isValid (s.entry src level index) = false then (true, s)
  else if isLeafAtLevel (s.entry src level index) level then s.cloneLeaf dst src level index
  else match s.phys.allocZeroPage with
    | none => (false, s)
    | some (pa, phys) => descend index ((s.setPhys phys).linkTable dst level index pa)

/-- `clone_table_cow` on the table below word `table` of the level above, with `below` levels
under it. -/
def cloneTable (dst src : SpaceId) : (below level table : Nat) → Memory F → Bool × Memory F
  | 0, level, table, s =>
    countUp (fun i => cloneEntry dst src level (fun _ s => (true, s)) (table * 512 + i)) 512 0 s
  | below + 1, level, table, s =>
    countUp (fun i => cloneEntry dst src level (cloneTable dst src below (level + 1))
      (table * 512 + i)) 512 0 s

/-- `vmm_clone_cow`. -/
def cloneCow (s : Memory F) (dst src : SpaceId) : Bool × Memory F :=
  match s.phys.allocZeroPage with
  | none => (false, s)
  | some (pa, phys) =>
    let s := (s.setPhys phys).setSpace dst fun space => { space with
      as := { (s.space src).as with rootPa := pa, entry := fun _ _ => 0 } }
    cloneTable dst src 3 0 0 s

/-- Number of rounds of `for (va = start; va < end; va += PAGE_SIZE)`. -/
def rounds (start stop : Nat) : Nat := (stop - start + (pageSize - 1)) / pageSize

/-- One round of `vmm_restore_shared_range`. -/
def restoreLeaf (a b : SpaceId) (flags : UInt32) (va : Nat) (s : Memory F) : Bool × Memory F :=
  match s.validLeaf a va, s.validLeaf b va with
  | some i, some j =>
    if addrOf (s.entry a 3 i) ≠ addrOf (s.entry b 3 j) then (false, s)
    else
      (true, (s.setEntry a 3 i (restoredWord (s.entry a 3 i) flags)).setEntry b 3 j
        (restoredWord (s.entry b 3 j) flags))
  | _, _ => (true, s)

/-- `vmm_restore_shared_range`. -/
def restoreSharedRange (s : Memory F) (a b : SpaceId) (start stop : Nat) (flags : UInt32) :
    Bool × Memory F :=
  if stop ≤ start then (false, s)
  else countUp (fun k => restoreLeaf a b flags (start + k * pageSize)) (rounds start stop) 0 s

/-- One round of the loop of `destroy_table`; `descend` destroys a table. -/
def destroyEntry (as : UserAddressSpace) (level : Nat) (descend : Nat → Phys F → Phys F)
    (phys : Phys F) (index : Nat) : Phys F :=
  let word := as.entry level index
  if isValid word = false then phys
  else if isLeafAtLevel word level then phys.freePage (addrOf word)
  else (descend index phys).freePage (addrOf word)

/-- The loop of `destroy_table` over one table; the table's own page is given back by the
caller. -/
def destroyTable (as : UserAddressSpace) : (below level table : Nat) → Phys F → Phys F
  | 0, level, table, phys =>
    (List.range 512).foldl
      (fun phys i => destroyEntry as level (fun _ phys => phys) phys (table * 512 + i)) phys
  | below + 1, level, table, phys =>
    (List.range 512).foldl
      (fun phys i => destroyEntry as level (destroyTable as below (level + 1)) phys
        (table * 512 + i)) phys

/-- `vmm_destroy`. -/
def destroy (s : Memory F) (id : SpaceId) : Memory F :=
  let as := (s.space id).as
  if as.rootPa = 0 then s
  else
    (s.setPhys ((destroyTable as 3 0 0 s.phys).freePage as.rootPa)).setSpace id fun space =>
      { space with as := { space.as with rootPa := 0 } }

/-! ## Faults, unmapping and protection -/

/-- Copy the contents of one physical page to another. -/
def copyPage (phys : Phys F) (dst src : Nat) : Phys F :=
  { phys with bytes := fun p => if p = dst then phys.bytes src else phys.bytes p }

/-- The copying branch of `vmm_handle_cow_fault`. -/
def copyLeaf (s : Memory F) (id : SpaceId) (index pa : Nat) (phys : Phys F) : Memory F :=
  let word := s.entry id 3 index
  let s := s.setPhys (copyPage phys (pa / pageSize) (pageOf word))
  let s := s.setEntry id 3 index (copiedWord word pa)
  s.setPhys (s.phys.freePage (addrOf word))

/-- `vmm_handle_cow_fault`. -/
def handleCowFault (s : Memory F) (id : SpaceId) (va : Nat) : Bool × Memory F :=
  match s.validLeaf id va with
  | none => (false, s)
  | some index =>
    let word := s.entry id 3 index
    if isCow word = false then (false, s)
    else if s.phys.pmm.isLastRef (addrOf word) then (true, s.setEntry id 3 index (takenWord word))
    else match s.phys.allocZeroPage with
      | none => (false, s)
      | some (pa, phys) => (true, s.copyLeaf id index pa phys)

/-- One round of `vmm_unmap_range`. -/
def unmapLeaf (id : SpaceId) (s : Memory F) (va : Nat) : Memory F :=
  match s.validLeaf id va with
  | none => s
  | some index =>
    let pa := addrOf (s.entry id 3 index)
    let s := s.setEntry id 3 index 0
    s.setPhys (s.phys.freePage pa)

/-- `vmm_unmap_range`. -/
def unmapRange (s : Memory F) (id : SpaceId) (start stop : Nat) : Memory F :=
  (List.range (rounds start stop)).foldl (fun s k => s.unmapLeaf id (start + k * pageSize)) s

/-- One round of `vmm_protect_range`. -/
def protectLeaf (id : SpaceId) (flags : UInt32) (s : Memory F) (va : Nat) : Memory F :=
  match s.validLeaf id va with
  | none => s
  | some index => s.setEntry id 3 index (protectedWord (s.entry id 3 index) flags)

/-- `vmm_protect_range`. -/
def protectRange (s : Memory F) (id : SpaceId) (start stop : Nat) (flags : UInt32) : Memory F :=
  (List.range (rounds start stop)).foldl
    (fun s k => s.protectLeaf id flags (start + k * pageSize)) s

/-- `vmm_move_page`. -/
def movePage (s : Memory F) (id : SpaceId) (oldVa newVa : Nat) : Bool × Memory F :=
  match s.validLeaf id oldVa with
  | none => (true, s)
  | some old =>
    let tables := s.ensureTables id newVa
    if tables.1 = false then (false, tables.2)
    else
      let s := tables.2
      let new := walkIndex newVa 3
      if isValid (s.entry id 3 new) then (false, s)
      else (true, (s.setEntry id 3 new (s.entry id 3 old)).setEntry id 3 old 0)

/-! ## Copies to user memory -/

/-- The first address of the page of an address. -/
def pageBase (va : Nat) : Nat := va - va % pageSize

/-- A page that is not writable is handed to `vmm_handle_cow_fault`. -/
def openPage (s : Memory F) (id : SpaceId) (va : Nat) : Bool × Memory F :=
  if s.userToPhysChecked id va .write = 0 then s.handleCowFault id va else (true, s)

/-- The first loop of `vmm_copy_to_user`: every page becomes writable, if it can. -/
def openPages (s : Memory F) (id : SpaceId) (page : Nat) (pages : Nat) : Bool × Memory F :=
  countUp (fun k s => s.openPage id (page + k * pageSize)) pages 0 s

/-- The second loop of `vmm_copy_to_user`, one page at a time. -/
def copyChunks (id : SpaceId) : (fuel dst : Nat) → List UInt8 → Memory F → Bool × Memory F
  | 0, _, _, s => (true, s)
  | _ + 1, _, [], s => (true, s)
  | fuel + 1, va, data, s =>
    let chunk := min (pageSize - va % pageSize) data.length
    let opened := s.openPage id va
    let pa := opened.2.userToPhysChecked id va .write
    if opened.1 = false ∨ pa = 0 then (false, opened.2)
    else copyChunks id fuel (va + chunk) (data.drop chunk) (opened.2.poke pa (data.take chunk))

/-- `vmm_copy_to_user`. -/
def copyToUser (s : Memory F) (id : SpaceId) (dst : Nat) (data : List UInt8) : Bool × Memory F :=
  if data.length = 0 then (true, s)
  else if 2 ^ 64 ≤ dst + (data.length - 1) then (false, s)
  else
    let page := pageBase dst
    let last := pageBase (dst + (data.length - 1))
    let opened := s.openPages id page ((last - page) / pageSize + 1)
    if opened.1 = false then (false, opened.2)
    else copyChunks id data.length dst data opened.2

end Memory

end Spore.Mm
