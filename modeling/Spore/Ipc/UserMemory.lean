import Spore.Lib.Loop
import Mathlib.Algebra.Ring.Nat

/-!
# User memory as a system call sees it (`mm/vmm.c`, `proc/memory.c`)

A page of an address space has a mapping or none. What the fault code would do to a page is
data of the page: the mapping that `cell_domain_ensure_user_range` would make for an access, and
the frame that `vmm_handle_cow_fault` would move it to. Several pages may map one frame.
-/

namespace Spore.Ipc

open Spore.Lib

variable {n domain frame page : Nat}

/-- The size of a page of user memory. -/
def pageSize : Nat := 4096

/-- `enum vmm_access`, without instruction fetches. -/
inductive Access where
  | read
  | write
  deriving Repr, DecidableEq

/-- A page table entry for user memory. -/
structure Mapping where
  /-- The page behind it. -/
  frame : Nat
  /-- Whether user code may read the page. -/
  readable : Bool
  /-- Whether user code may write the page. -/
  writable : Bool
  /-- Frame a copy-on-write fault would give the page; none when the fault is refused. -/
  cow : Option Nat

/-- The permission check of `user_to_phys_checked`. -/
def Mapping.allows (map : Mapping) : Access → Bool
  | .read => map.readable
  | .write => map.writable

/-- What a fault on a page without a mapping brings in. -/
structure Demand where
  /-- The mapping to come. -/
  mapping : Mapping
  /-- Bytes the frame is filled with; none for a frame that the page cache holds already. -/
  fill : Option (Nat → UInt8)

/-- A page of an address space. -/
structure Page where
  /-- The page table entry. -/
  mapping : Option Mapping
  /-- Outcome of a fault for an access; none when the area forbids it or memory is short. -/
  demand : Access → Option Demand

/-- Frames and address spaces. -/
structure UserMemory where
  /-- Bytes of the frames. -/
  ram : Nat → Nat → UInt8
  /-- The pages of each space. -/
  space : Nat → Nat → Page
  /-- Address space of a domain, as `cell_domain_as` finds it. -/
  mm : Nat → Option Nat

namespace UserMemory

variable (m : UserMemory)
variable {mm va len : Nat} {access : Access}

/-- `user_to_phys_checked(as, page, access) != 0`. -/
def accessible (mm page : Nat) (access : Access) : Bool :=
  match (m.space mm page).mapping with
  | none => false
  | some map => map.allows access

/-- Write a page table entry. -/
def setMapping (mm page : Nat) (map : Mapping) : UserMemory :=
  { m with space := fun id number =>
      if id = mm ∧ number = page then { m.space id number with mapping := some map }
      else m.space id number }

/-- Write a whole frame. -/
def fillFrame (frame : Nat) (bytes : Nat → UInt8) : UserMemory :=
  { m with ram := fun id off => if id = frame then bytes off else m.ram id off }

/-- The page becomes writable, in a frame of its own if it was shared. -/
def vmmHandleCowFault (mm page : Nat) : Bool × UserMemory :=
  match (m.space mm page).mapping with
  | none => (false, m)
  | some map =>
    match map.cow with
    | none => (false, m)
    | some frame =>
      (true, (m.fillFrame frame (m.ram map.frame)).setMapping mm page
        { map with frame := frame, writable := true, cow := none })

/-- The part of `cell_domain_ensure_user_range` for a page that is not mapped. -/
def faultIn (mm page : Nat) (access : Access) : Bool × UserMemory :=
  match (m.space mm page).mapping with
  | some _ => (true, m)
  | none =>
    match (m.space mm page).demand access with
    | none => (false, m)
    | some demand =>
      let filled := match demand.fill with
        | none => m
        | some bytes => m.fillFrame demand.mapping.frame bytes
      (true, filled.setMapping mm page demand.mapping)

/-- Make a page writable that is mapped copy-on-write. -/
def openPage (mm page : Nat) : Bool × UserMemory :=
  if m.accessible mm page .write then (true, m) else m.vmmHandleCowFault mm page

/-- The part of `cell_domain_ensure_user_range` that breaks copy-on-write sharing. -/
def openFor (mm page : Nat) : Access → Bool × UserMemory
  | .read => (true, m)
  | .write => m.openPage mm page

/-- One round of the loop of `cell_domain_ensure_user_range`. -/
def ensurePage (mm : Nat) (access : Access) (page : Nat) : Bool × UserMemory :=
  let faulted := m.faultIn mm page access
  if faulted.1 = false then faulted
  else
    let opened := faulted.2.openFor mm page access
    if opened.1 = false then opened
    else (opened.2.accessible mm page access, opened.2)

/-- Number of pages that a range touches. -/
def pageCount (va len : Nat) : Nat := (va + len - 1) / pageSize - va / pageSize + 1

/-- Every page of the range is faulted in; the first that cannot be ends it. -/
def cellDomainEnsureUserRange (domain va len : Nat) (access : Access) : Bool × UserMemory :=
  if len = 0 then (true, m)
  else
    match m.mm domain with
    | none => (false, m)
    | some mm =>
      -- `end < va` after the addition has wrapped.
      if 2 ^ 64 ≤ va + len - 1 then (false, m)
      else countUp (fun page m => m.ensurePage mm access page) (pageCount va len) (va / pageSize) m

/-- Every page of the range grants the access. -/
def vmmUserRangeAccessible (mm va len : Nat) (access : Access) : Bool :=
  len == 0 || (decide (va + len - 1 < 2 ^ 64) &&
    (List.range (pageCount va len)).all fun k => m.accessible mm (va / pageSize + k) access)

/-- The byte at a user address. -/
def load (mm va : Nat) : UInt8 :=
  match (m.space mm (va / pageSize)).mapping with
  | none => 0
  | some map => m.ram map.frame (va % pageSize)

/-- Write a byte through a mapping. -/
def store (mm va : Nat) (byte : UInt8) : UserMemory :=
  match (m.space mm (va / pageSize)).mapping with
  | none => m
  | some map =>
    { m with ram := fun id off =>
        if id = map.frame ∧ off = va % pageSize then byte else m.ram id off }

/-- `vmm_copy_from_user`. The checks of its copying loop repeat those made before the loop. -/
def vmmCopyFromUser (mm src len : Nat) : Option (List UInt8) :=
  if m.vmmUserRangeAccessible mm src len .read then
    some ((List.range len).map fun k => m.load mm (src + k))
  else none

/-- The copying loop of `vmm_copy_to_user`. -/
def storeBytes (mm : Nat) : (dst : Nat) → List UInt8 → UserMemory → Bool × UserMemory
  | _, [], m => (true, m)
  | dst, byte :: rest, m =>
    let opened := m.openPage mm (dst / pageSize)
    if opened.1 && opened.2.accessible mm (dst / pageSize) .write then
      storeBytes mm (dst + 1) rest (opened.2.store mm dst byte)
    else (false, opened.2)

/-- Byte by byte, each page opened for writing before. -/
def vmmCopyToUser (mm dst : Nat) (bytes : List UInt8) : Bool × UserMemory :=
  if bytes.length = 0 then (true, m)
  else if 2 ^ 64 ≤ dst + bytes.length - 1 then (false, m)
  else
    let opened := countUp (fun page m => m.openPage mm page) (pageCount dst bytes.length)
      (dst / pageSize) m
    if opened.1 then storeBytes mm dst bytes opened.2 else opened

section

variable {m}

/-! ## Ranges that are accessible -/

/-- Every page that the range touches allows the access. -/
def Ready (m : UserMemory) (mm va len : Nat) (access : Access) : Prop :=
  ∀ k, k < len → m.accessible mm ((va + k) / pageSize) access = true

/-- Domains stay in their address spaces, and pages that allow an access go on to. -/
structure Keeps (m after : UserMemory) : Prop where
  /-- Domains keep their spaces. -/
  spaces : after.mm = m.mm
  /-- Pages stay accessible. -/
  pages : ∀ mm page access,
    m.accessible mm page access = true → after.accessible mm page access = true

/-- Nothing changes. -/
theorem Keeps.rfl : Keeps m m := ⟨by rfl, fun _ _ _ holds => holds⟩

/-- Two steps one after the other. -/
theorem Keeps.trans {middle after : UserMemory} (first : Keeps m middle)
    (second : Keeps middle after) : Keeps m after :=
  ⟨second.spaces.trans first.spaces,
    fun mm page access holds => second.pages mm page access (first.pages mm page access holds)⟩

/-- Contents of frames decide no access. -/
@[simp] theorem accessible_fillFrame (bytes : Nat → UInt8) :
    (m.fillFrame frame bytes).accessible mm page access = m.accessible mm page access := rfl

/-- A frame is filled. -/
theorem keeps_fillFrame (bytes : Nat → UInt8) :
    Keeps m (m.fillFrame frame bytes) := ⟨rfl, fun _ _ _ holds => holds⟩

/-- A new entry that allows what the old one did takes nothing away. -/
theorem keeps_setMapping {page : Nat} {map : Mapping}
    (wider : ∀ access, m.accessible mm page access → map.allows access) :
    Keeps m (m.setMapping mm page map) := by
  refine ⟨rfl, fun id number access holds => ?_⟩
  unfold accessible setMapping
  dsimp only
  by_cases here : id = mm ∧ number = page
  · rw [if_pos here]
    obtain ⟨rfl, rfl⟩ := here
    exact wider access holds
  · rw [if_neg here]
    exact holds

/-- A copy-on-write fault only adds rights. -/
theorem keeps_cow : Keeps m (m.vmmHandleCowFault mm page).2 := by
  unfold vmmHandleCowFault
  split
  · exact .rfl
  rename_i map mapped
  split
  · exact .rfl
  apply (keeps_fillFrame _).trans
  apply keeps_setMapping
  intro access holds
  rw [accessible_fillFrame, accessible, mapped] at holds
  cases access with
  | read => exact holds
  | write => rfl

/-- A fault maps a page or does nothing. -/
theorem keeps_faultIn : Keeps m (m.faultIn mm page access).2 := by
  unfold faultIn
  split
  · exact .rfl
  rename_i unmapped
  split
  · exact .rfl
  rename_i demand _
  have nothing : ∀ access, m.accessible mm page access →
      demand.mapping.allows access = true := by
    intro access holds
    rw [accessible, unmapped] at holds
    cases holds
  cases demand.fill with
  | none => exact keeps_setMapping nothing
  | some bytes =>
    exact (keeps_fillFrame _).trans (keeps_setMapping nothing)

/-- A page is opened for writing. -/
theorem keeps_openPage : Keeps m (m.openPage mm page).2 := by
  unfold openPage
  split
  · exact .rfl
  · exact keeps_cow

/-- A page is opened for an access. -/
theorem keeps_openFor : Keeps m (m.openFor mm page access).2 := by
  cases access with
  | read => exact .rfl
  | write => exact keeps_openPage

/-- A page is faulted in and opened. -/
theorem keeps_ensurePage (mm page : Nat) (access : Access) :
    Keeps m (m.ensurePage mm access page).2 := by
  unfold ensurePage
  dsimp only
  split
  · exact keeps_faultIn
  apply keeps_faultIn.trans
  split
  · exact keeps_openFor
  · exact keeps_openFor

/-- A round that succeeds leaves its page accessible. -/
theorem ensurePage_ready {page : Nat} (good : (m.ensurePage mm access page).1) :
    (m.ensurePage mm access page).2.accessible mm page access := by
  unfold ensurePage at good ⊢
  dsimp only at good ⊢
  split at good
  · rename_i refused
    rw [refused] at good
    cases good
  rename_i faulted
  rw [if_neg faulted]
  split at good
  · rename_i refused
    rw [refused] at good
    cases good
  · rename_i opened
    rw [if_neg opened]
    exact good

/-- The pages of a range, counted from its first one. -/
theorem page_inside {k : Nat} (inside : k < len) :
    ∃ j, j < pageCount va len ∧ (va + k) / pageSize = va / pageSize + j := by
  have low : va / pageSize ≤ (va + k) / pageSize := Nat.div_le_div_right (by omega)
  have high : (va + k) / pageSize ≤ (va + len - 1) / pageSize := Nat.div_le_div_right (by omega)
  refine ⟨(va + k) / pageSize - va / pageSize, ?_, by omega⟩
  unfold pageCount
  omega

/-- Every page counted from the first one holds a byte of the range. -/
theorem page_touched {j : Nat} (some_bytes : len ≠ 0) (bound : j < pageCount va len) :
    ∃ k, k < len ∧ (va + k) / pageSize = va / pageSize + j := by
  unfold pageCount at bound
  by_cases first : j = 0
  · exact ⟨0, by omega, by rw [first]; rfl⟩
  -- The first byte of the page lies inside the range.
  have below : va / pageSize + j ≤ (va + len - 1) / pageSize := by omega
  have start_low : va < (va / pageSize + j) * pageSize := by
    have := Nat.lt_div_mul_add (a := va) (b := pageSize) (by decide)
    have more : va / pageSize * pageSize + pageSize ≤ (va / pageSize + j) * pageSize := by
      rw [Nat.add_mul]
      have : 1 * pageSize ≤ j * pageSize := Nat.mul_le_mul_right _ (by omega)
      omega
    omega
  have start_high : (va / pageSize + j) * pageSize ≤ va + len - 1 :=
    (Nat.le_div_iff_mul_le (by decide)).mp below
  refine ⟨(va / pageSize + j) * pageSize - va, by omega, ?_⟩
  rw [Nat.add_sub_cancel' (Nat.le_of_lt start_low), Nat.mul_div_cancel _ (by decide)]

/-- A range that was ensured lies in an address space, does not wrap, and is accessible. -/
theorem ensure_ready {domain : Nat} (some_bytes : len ≠ 0)
    (good : (m.cellDomainEnsureUserRange domain va len access).1) :
    ∃ mm, m.mm domain = some mm ∧ va + len - 1 < 2 ^ 64 ∧
      Ready (m.cellDomainEnsureUserRange domain va len access).2 mm va len access := by
  unfold cellDomainEnsureUserRange at good ⊢
  rw [if_neg some_bytes] at good ⊢
  split at good
  · cases good
  rename_i mm found
  split at good
  · cases good
  rename_i bounded
  refine ⟨mm, found, by omega, ?_⟩
  rw [if_neg bounded]
  have start : ∀ page, va / pageSize ≤ page → page < va / pageSize →
      m.accessible mm page access = true := fun page low high => absurd low (by omega)
  have walked := (countUp_rule (fun page (m : UserMemory) => m.ensurePage mm access page)
    (fun next state => ∀ page, va / pageSize ≤ page → page < next →
      state.accessible mm page access = true) (fun _ => True) (pageCount va len)
    (va / pageSize)
    (fun page state _ _ before => ⟨fun good number low high => by
      by_cases last : number = page
      · rw [last]
        exact ensurePage_ready good
      · exact (keeps_ensurePage mm page access).pages mm number access
          (before number low (by omega)), fun _ => trivial⟩) start).1 good
  intro k bound
  obtain ⟨j, inside, page_eq⟩ := page_inside bound
  rw [page_eq]
  exact walked _ (by omega) (by omega)

section

variable (ready : Ready m mm va len access)

include ready

/-- A range that is ready stays ready. -/
theorem Ready.keeps {after : UserMemory} (keeps : Keeps m after) : Ready after mm va len access :=
  fun k bound => keeps.pages mm _ access (ready k bound)

/-- Part of a range. -/
theorem Ready.part {off n : Nat} (inside : off + n ≤ len) : Ready m mm (va + off) n access := by
  intro k bound
  have here := ready (off + k) (by omega)
  rwa [← Nat.add_assoc] at here

/-- The test of `vmm_user_range_accessible` passes on a range that is ready. -/
theorem accessible_of_ready (bounded : va + len - 1 < 2 ^ 64) :
    m.vmmUserRangeAccessible mm va len access := by
  unfold vmmUserRangeAccessible
  by_cases empty : len = 0
  · simp [empty]
  rw [Bool.or_eq_true, Bool.and_eq_true, List.all_eq_true]
  refine .inr ⟨by simpa using bounded, fun j member => ?_⟩
  obtain ⟨k, inside, page_eq⟩ := page_touched empty (List.mem_range.mp member)
  rw [← page_eq]
  exact ready k inside

end

/-- `cell_domain_ensure_user_range` takes no right away. -/
theorem keeps_ensure : Keeps m (m.cellDomainEnsureUserRange domain va len access).2 := by
  unfold cellDomainEnsureUserRange
  split
  · exact .rfl
  split
  · exact .rfl
  split
  · exact .rfl
  · exact countUp_keeps (Keeps m) _ _
      (fun page state _ _ keeps => keeps.trans (keeps_ensurePage _ page access)) .rfl

/-! ## Stores -/

/-- A store leaves the address spaces. -/
@[simp] theorem store_mm (byte : UInt8) : (m.store mm va byte).mm = m.mm := by
  unfold store
  split <;> rfl

/-- A store leaves all rights. -/
@[simp] theorem accessible_store (byte : UInt8) (id : Nat) :
    (m.store mm va byte).accessible id page access = m.accessible id page access := by
  unfold store
  split <;> rfl

/-- A page that is writable needs nothing. -/
theorem openPage_of_accessible {page : Nat} (writable : m.accessible mm page .write) :
    m.openPage mm page = (true, m) := by
  unfold openPage
  rw [if_pos writable]

/-- Opening pages that are writable already does nothing. -/
theorem openPages_of_accessible : ∀ (page : Nat), (∀ j, j < n → m.accessible mm (page + j) .write) →
    countUp (fun page m => m.openPage mm page) n page m = (true, m) := by
  induction n with
  | zero => exact fun _ _ => by rfl
  | succ n ih =>
    intro page writable
    have here : m.accessible mm page .write := writable 0 (by omega)
    rw [countUp, openPage_of_accessible here, if_pos (by rfl)]
    apply ih
    intro j bound
    have here := writable (j + 1) (by omega)
    rwa [show page + (j + 1) = page + 1 + j by omega] at here

/-- Bytes are stored in a range that is writable, and no page changes its rights. -/
theorem storeBytes_of_ready (bytes : List UInt8) : ∀ (dst : Nat) (m : UserMemory),
    Ready m mm dst bytes.length .write →
    (storeBytes mm dst bytes m).1 ∧ Keeps m (storeBytes mm dst bytes m).2 := by
  induction bytes with
  | nil => exact fun _ _ _ => ⟨by rfl, .rfl⟩
  | cons byte rest ih =>
    intro dst m ready
    have writable : m.accessible mm (dst / pageSize) .write := ready 0 (by simp)
    unfold storeBytes
    simp only [openPage_of_accessible writable, writable, Bool.and_self, if_true]
    have stored : Keeps m (m.store mm dst byte) :=
      ⟨store_mm byte, fun id page access holds => by rwa [accessible_store]⟩
    have rest_ready : Ready (m.store mm dst byte) mm (dst + 1) rest.length .write := by
      apply Ready.keeps _ stored
      apply Ready.part ready
      rw [List.length_cons]
      omega
    obtain ⟨good, keeps⟩ := ih (dst + 1) _ rest_ready
    exact ⟨good, stored.trans keeps⟩

/-- Bytes are copied to a range that is writable. -/
theorem copyTo_of_ready {dst : Nat} {bytes : List UInt8}
    (ready : Ready m mm dst bytes.length .write) (bounded : dst + bytes.length - 1 < 2 ^ 64) :
    (m.vmmCopyToUser mm dst bytes).1 ∧ Keeps m (m.vmmCopyToUser mm dst bytes).2 := by
  unfold vmmCopyToUser
  split
  · exact ⟨by rfl, .rfl⟩
  rename_i some_bytes
  rw [if_neg (by omega)]
  have opened : countUp (fun page m => m.openPage mm page) (pageCount dst bytes.length)
      (dst / pageSize) m = (true, m) := by
    apply openPages_of_accessible
    intro j bound
    obtain ⟨k, inside, page_eq⟩ := page_touched some_bytes bound
    rw [← page_eq]
    exact ready k inside
  rw [opened]
  exact storeBytes_of_ready bytes dst m ready

end

end UserMemory

end Spore.Ipc
