import Spore.Mm.Machine

/-!
# Copy-on-write isolation

A page that user code can write through a private mapping has one reference. The machine keeps
that invariant in every step that does not itself open a shared page: `vmm_protect_range` gives
leaves the rights it is told without a look at the reference count, so `mprotect` with
`PROT_WRITE`, and the permission handler after a copy-on-write fault that found no memory, can
open a page that the page cache or another process has too.
-/

namespace Spore.Mm

open Spore.Lib Memory

variable {F : Type} {s : Memory F} {id : SpaceId} {access : VmmAccess}

/-- An area is private. -/
def AreaRights.isPrivate (rights : AreaRights) : Bool := rights.flags &&& mapShared == 0

/-- The rule of isolation: a writable leaf of a private area has its page for itself. -/
def isolationRule : LeafRule where
  holds := fun alone rights writable _ => writable = true → rights.isPrivate = true → alone
  stable := fun obeys more writable isPrivate => more (obeys writable isPrivate)
  mapped := by
    intro alone rights covered grants isPrivate
    refine (covered grants).resolve_right fun shared => shared ?_
    simpa [AreaRights.isPrivate] using isPrivate
  marked := fun _ writable => nomatch writable
  cloned := fun _ writable => nomatch writable
  taken := fun _ alone _ _ => alone

/-- Copy-on-write isolation: a leaf that is user-writable and lies in a private area maps a page
with reference count 1. -/
def Isolated (s : Memory F) : Prop :=
  ∀ id index attrs, (s.space id).live = true → isValid (s.entry id 3 index) = true →
    isWritableLeaf (s.entry id 3 index) = true →
    attrsAt (s.space id).vmas (index * pageSize) = some attrs →
    attrs.rights.isPrivate = true → s.phys.pmm.refcount (pageOf (s.entry id 3 index)) = 1

/-- A store through a private mapping changes nothing that another process, a snapshot or the page
cache can read. -/
def StoresStay (s : Memory F) : Prop :=
  ∀ slot va byte attrs, (s.space (.mm slot)).live = true →
    attrsAt (s.space (.mm slot)).vmas va = some attrs → attrs.rights.isPrivate = true →
    (∀ id, id ≠ .mm slot → (s.space id).live = true → ∀ va',
      (s.userStore (.mm slot) va byte).2.userLoad id va' = s.userLoad id va') ∧
    ∀ entry ∈ s.store.cache.entries, entry.valid = true → entry.pa ≠ 0 →
      (s.userStore (.mm slot) va byte).2.phys.bytes (entry.pa / pageSize) =
        s.phys.bytes (entry.pa / pageSize)

/-- A sound memory is isolated. -/
theorem Sound.isolated (sound : Sound isolationRule s) : Isolated s := by
  intro id index attrs live valid writable found isPrivate
  obtain ⟨rights, meant, obeys⟩ := sound.disciplined.leaves id index live valid
  rw [areaRights, found] at meant
  cases meant
  exact obeys writable isPrivate

/-- The physical address that an access reaches lies in the page of a valid leaf that allows it. -/
theorem userToPhysChecked_spec {va : Nat} (reached : s.userToPhysChecked id va access ≠ 0) :
    isValid (s.entry id 3 (walkIndex va 3)) ∧
      userEntryAllows (s.entry id 3 (walkIndex va 3)) access ∧
      s.userToPhysChecked id va access / pageSize = pageOf (s.entry id 3 (walkIndex va 3)) := by
  unfold userToPhysChecked at reached ⊢
  split at reached
  · contradiction
  rename_i index found
  obtain ⟨rfl, valid⟩ := validLeaf_eq found
  split at reached
  · rename_i allowed
    rw [if_pos allowed]
    refine ⟨valid, allowed, ?_⟩
    have aligned : addrOf (s.entry id 3 (walkIndex va 3)) % pageSize = 0 := addrOf_aligned
    simp only [pageOf, pageSize] at *
    omega
  · contradiction

/-- A page whose only reference is a leaf of one address space is read by no other, and it is not
cached. -/
theorem Sound.stores_stay (sound : Sound isolationRule s) : StoresStay s := by
  intro slot va byte attrs live found isPrivate
  unfold userStore
  dsimp only
  split
  · exact ⟨fun _ _ _ _ => rfl, fun _ _ _ _ => rfl⟩
  rename_i allowed
  have low : va < 2 ^ 48 := by omega
  obtain ⟨valid, writable, page⟩ := userToPhysChecked_spec (not_or.mp allowed).2
  generalize s.userToPhysChecked (.mm slot) va .write = pa at page
  have regular := sound.regular _ live
  have covered : attrsAt (s.space (.mm slot)).vmas (walkIndex va 3 * pageSize) = some attrs := by
    rw [← found, walkIndex_leaf_low low, regular.paged.whole va]
    congr 1
    simp only [pageSize]
    omega
  have single := sound.isolated (.mm slot) _ attrs live valid writable covered isPrivate
  have owner : Store.allRefs (spaceRefs s.space) s.store.cache
      (Sum.inl (.entry (.mm slot) 3 (walkIndex va 3)))
      (pageOf (s.entry (.mm slot) 3 (walkIndex va 3))) := Memory.refs_entry live valid
  rw [← page] at single owner
  have elsewhere : ∀ p, p ≠ pa / pageSize → (s.poke pa [byte]).phys.bytes p = s.phys.bytes p := by
    intro p other
    funext k
    exact if_neg fun both => other both.1
  constructor
  · intro id other live' va'
    have same : (s.poke pa [byte]).userToPhysChecked id va' .read =
        s.userToPhysChecked id va' .read := rfl
    unfold userLoad
    dsimp only
    rw [same]
    split
    · rfl
    rename_i reads
    obtain ⟨valid', -, page'⟩ := userToPhysChecked_spec (not_or.mp reads).2
    rw [elsewhere]
    intro equal
    have second : Store.allRefs (spaceRefs s.space) s.store.cache
        (Sum.inl (.entry id 3 (walkIndex va' 3))) (pa / pageSize) := by
      rw [← equal, page']
      exact Memory.refs_entry live' valid'
    have alike := Counted.unique sound.disciplined.accounts single owner second
    simp only [Sum.inl.injEq, SpaceOwner.entry.injEq] at alike
    exact other alike.1.symm
  · intro entry member cached pa_ne
    refine elsewhere _ fun equal => ?_
    obtain ⟨index, stored⟩ := List.getElem?_of_mem member
    have second : Store.allRefs (spaceRefs s.space) s.store.cache (Sum.inr index)
        (pa / pageSize) := ⟨entry, stored, cached, pa_ne, equal⟩
    exact absurd (Counted.unique sound.disciplined.accounts single owner second) (by simp)

/-! ## The condition of a step -/

/-- Every mapped page of a range that lies in a private area has one reference. -/
def PagesAlone (s : Memory F) (id : SpaceId) (start stop : Nat) : Prop :=
  ∀ k < rounds start stop, ∀ rights,
    isValid (s.entry id 3 (walkIndex (start + k * pageSize) 3)) = true →
    areaRights s id (walkIndex (start + k * pageSize) 3) = some rights → rights.isPrivate = true →
    s.phys.pmm.refcount (pageOf (s.entry id 3 (walkIndex (start + k * pageSize) 3))) = 1

/-- The permission handler opens only pages that nobody else has. -/
def OpensAlone (s : Memory F) (id : SpaceId) (far : Nat) (access : VmmAccess) : Prop :=
  ∀ vma, vmaLookup (s.space id).vmas (pageBase far) = some vma → accessAllowed vma access = true →
    grantsWrite vma.prot = true → PagesAlone s id (pageBase far) (pageBase far + pageSize)

section Host

variable (host : FileHost F)

/-- A step that keeps isolation: the ranges it maps end in the user space, and when it lets
`vmm_protect_range` grant write, the pages of private areas there have one reference. -/
def IsolationFine (s : Memory F) : MemoryOp F → Prop
  | .exec image => ∀ seg ∈ image.segments, seg.stop ≤ 2 ^ 48
  | .mmap slot call => ∀ base stop moved,
      mmapRange (s.space (.mm slot)) call = .ok (base, stop, moved) → stop ≤ 2 ^ 48
  | .mprotect slot addr len prot => len ≠ 0 → rangeStop addr len ≤ 2 ^ 48 ∧
      (grantsWrite (protToVmm prot) = true →
        PagesAlone s (.mm slot) (alignDown addr) (rangeStop addr len))
  | .brk _ requested _ => alignUp requested ≤ 2 ^ 48
  | .mremap slot call => MremapFine host s (.mm slot) call
  | .abort slot far .execPermission => OpensAlone s (.mm slot) far .exec
  | .abort slot far (.dataPermission true) =>
      (s.handleCowFault (.mm slot) far).1 = false → OpensAlone s (.mm slot) far .write
  | .abort slot far (.dataPermission false) => OpensAlone s (.mm slot) far .read
  | .ensureRange current slot va len _ => EnsureFine s current slot va len
  | _ => True

/-- Pages of their own obey the rule under any rights. -/
theorem PagesAlone.obeys {change : AreaRights → AreaRights} {start stop : Nat}
    {prot : UInt32} (alone : grantsWrite prot → PagesAlone s id start stop)
    (flags : ∀ rights, (change rights).flags = rights.flags) :
    RangeObeys isolationRule change s id start stop prot := by
  intro k before rights valid meant grants isPrivate
  refine alone grants k before rights valid meant ?_
  unfold AreaRights.isPrivate at isPrivate ⊢
  rwa [flags] at isPrivate

/-- So does a page that a fault opens. -/
theorem OpensAlone.fine {far : Nat}
    (alone : OpensAlone s id far access) : PermissionFine isolationRule s id far access :=
  fun vma looked allowed => PagesAlone.obeys (alone vma looked allowed) fun _ => rfl

/-- Fine for isolation is fine for the discipline. -/
theorem fine_of_isolationFine {op : MemoryOp F} (fine : IsolationFine host s op) :
    Fine host isolationRule s op := by
  cases op with
  | mprotect slot addr len prot =>
    intro some_len
    obtain ⟨bounded, alone⟩ := fine some_len
    exact ⟨bounded, fun _ => PagesAlone.obeys alone fun _ => rfl,
      fun _ _ => PagesAlone.obeys alone fun _ => rfl⟩
  | abort slot far kind =>
    intro _
    cases kind with
    | execTranslation => exact trivial
    | execPermission => exact OpensAlone.fine fine
    | dataTranslation write => exact trivial
    | dataPermission write =>
      cases write with
      | true => exact fun refused => OpensAlone.fine (fine refused)
      | false => exact OpensAlone.fine fine
  | _ => exact fine

/-- In every run of fine steps from boot, in any order and from any number of processes, a
writable page of a private area has one reference, and a store through a private mapping changes
nothing that another process, a snapshot or the page cache reads. -/
theorem cow_isolation {ops : List (MemoryOp F)} (booted : Booted s)
    (fine : EveryInput (Memory.step host) (IsolationFine host) s ops) :
    EveryState (Memory.step host) (fun now => Isolated now ∧ StoresStay now) s ops := by
  have every : EveryInput (.step host) (Fine host isolationRule) s ops :=
    fine.mono fun _ _ good => fine_of_isolationFine host good
  exact (run_ready host booted every).mono fun _ ready => ⟨ready.1.isolated, ready.1.stores_stay⟩

/-- The areas of every address space are regular, a page that a leaf maps lies in one, and no
counter of a page is below the number of words, roots, chunks and cache entries that refer to it. -/
def Memory.Backed (now : Memory F) : Prop :=
  Regulars now ∧
  (∀ id index, (now.space id).live = true → isValid (now.entry id 3 index) = true →
    attrsAt (now.space id).vmas (index * pageSize) ≠ none) ∧
  ∀ page, {owner | Store.allRefs (spaceRefs now.space) now.store.cache owner page}.encard ≤
    now.phys.pmm.refcount page

/-- Along every run of memory calls, mappings have areas and counters cover their owners. -/
theorem mappings_backed (rule : LeafRule) {ops : List (MemoryOp F)} (booted : Booted s)
    (fine : EveryInput (Memory.step host) (Fine host rule) s ops) :
    EveryState (Memory.step host) Backed s ops := by
  refine (run_ready host booted fine).mono fun now ⟨sound, _⟩ => ⟨sound.regular,
    fun id index live valid none => ?_,
    fun page => le_self_add.trans (sound.disciplined.accounts page)⟩
  obtain ⟨rights, meant, -⟩ := sound.disciplined.leaves id index live valid
  rw [areaRights, none] at meant
  cases meant

end Host

/-- One process maps a page, writes it, takes its own right to write away and back, and forks. -/
def privateRun : List (MemoryOp Unit) :=
  [.exec ⟨[], 0, []⟩, .mmap 0 (sampleMmap false (protRead ||| protWrite)),
    .abort 0 0x10000 (.dataTranslation true), .store 0 0x10000 7,
    .mprotect 0 0x10000 4096 protRead, .mprotect 0 0x10000 4096 (protRead ||| protWrite),
    .fork 0, .abort 0 0x10000 (.dataPermission true), .store 1 0x10000 9]

/-- Every step of it keeps isolation. -/
theorem privateRun_fine :
    EveryInput (Memory.step sampleHost) (IsolationFine sampleHost) sampleBoot privateRun := by
  refine ⟨?_, ?_, trivial, trivial, fun _ => ⟨by decide, ?_⟩, fun _ => ⟨by decide, ?_⟩, trivial,
    ?_, trivial, trivial⟩
  · exact fun seg member => nomatch member
  · intro base stop moved range
    rw [sampleMmap_range] at range
    obtain ⟨rfl, rfl, rfl⟩ : 65536 = base ∧ 69632 = stop ∧ false = moved := by simpa using range
    decide
  · exact fun grants => absurd grants (by decide)
  · intro _ k inside rights _ _ _
    have one : rounds (alignDown 0x10000) (rangeStop 0x10000 4096) = 1 := by decide
    obtain rfl : k = 0 := by omega
    decide +kernel
  · exact fun refused => absurd refused (by decide +kernel)

/-- After the run both processes have the page mapped, the parent in a copy of its own. -/
theorem mappings_backed_private_run :
    EveryState (Memory.step sampleHost) Memory.Backed sampleBoot privateRun ∧
      let final := privateRun.foldl (Memory.step sampleHost) sampleBoot
      isValid (final.entry (.mm 0) 3 16) = true ∧ isValid (final.entry (.mm 1) 3 16) = true ∧
        pageOf (final.entry (.mm 0) 3 16) ≠ pageOf (final.entry (.mm 1) 3 16) :=
  ⟨mappings_backed sampleHost isolationRule sampleBoot_booted
    (privateRun_fine.mono fun _ _ good => fine_of_isolationFine sampleHost good), by decide +kernel⟩

/-- The pages stay isolated in a run with a fork and a write. -/
theorem cow_isolation_private_run :
    EveryInput (Memory.step sampleHost) (IsolationFine sampleHost) sampleBoot privateRun ∧
      EveryState (Memory.step sampleHost) (fun now => Isolated now ∧ StoresStay now) sampleBoot
        privateRun :=
  ⟨privateRun_fine, cow_isolation sampleHost sampleBoot_booted privateRun_fine⟩

/-- A process maps a page of a file privately and read-only, reads it, and asks for the right to
write. -/
def cachedRun : List (MemoryOp Unit) :=
  [.exec ⟨[], 0, []⟩, .mmap 0 (sampleMmap true protRead),
    .abort 0 0x10000 (.dataTranslation false), .mprotect 0 0x10000 4096 (protRead ||| protWrite)]

/-- Without the condition `mprotect` opens a page of the cache. -/
theorem mprotect_opens_cached_page :
    ¬ EveryState (Memory.step sampleHost) (fun now => Isolated now ∧ StoresStay now) sampleBoot
      cachedRun := by
  intro every
  have isolated := every.last.1
  have single := isolated (.mm 0) 16 ⟨3, 2, .file, some ⟨⟨.ramfs, 5, 0⟩, 0x10000, 0, 4096⟩⟩
    (by decide +kernel) (by decide +kernel) (by decide +kernel) (by decide +kernel)
    (by decide +kernel)
  exact absurd single (by decide +kernel)

end Spore.Mm
