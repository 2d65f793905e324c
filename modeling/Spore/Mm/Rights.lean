import Spore.Mm.Isolation

/-!
# Page rights stay within area rights

A leaf that user code can write, or that a copy-on-write fault would make writable, lies in an
area with `PROT_WRITE`. The machine keeps that invariant, and with it no store and no copy by
the kernel succeeds outside writable areas, in every run in which `mprotect` neither takes the
right to write from a leaf that is marked copy-on-write (`vmm_protect_range` leaves the mark) nor
falls back to changing page tables without their areas.
-/

namespace Spore.Mm

open Spore.Lib Memory

variable {F : Type} {s : Memory F} {id : SpaceId} {va start stop slot far : Nat}

/-- The rule of rights: a leaf that is writable or can become so by a copy-on-write fault needs an
area that grants write. -/
def rightsRule : LeafRule where
  holds := fun _ rights writable cow =>
    writable = true ∨ cow = true → grantsWrite rights.prot = true
  stable := fun obeys _ => obeys
  mapped := fun _ open_ => open_.resolve_right fun marked => nomatch marked
  marked := fun grants _ => grants
  cloned := by
    intro alone alone' rights writable cow obeys open_
    refine obeys ?_
    simpa using open_
  taken := fun obeys _ _ => obeys (Or.inr rfl)

/-- A leaf that is writable or marked lies in a writable area. -/
theorem Sound.writable (sound : Sound rightsRule s) (live : (s.space id).live)
    (low : va < 2 ^ 48) (valid : isValid (s.entry id 3 (walkIndex va 3)))
    (open_ : isWritableLeaf (s.entry id 3 (walkIndex va 3)) ∨
      isCow (s.entry id 3 (walkIndex va 3))) : WritableAt s id va := by
  obtain ⟨rights, meant, obeys⟩ := sound.disciplined.leaves id _ live valid
  rw [areaRights_walkIndex (sound.regular id live) low, Option.map_eq_some_iff] at meant
  obtain ⟨attrs, found, rfl⟩ := meant
  exact ⟨attrs, found, obeys open_⟩

/-- The same areas are writable. -/
theorem WritableAt.congr {s' : Memory F} (same : SameAreas s s') :
    WritableAt s' id va ↔ WritableAt s id va := by
  unfold WritableAt
  rw [same.vmas]

/-- Writable areas consist of whole pages. -/
theorem WritableAt.of_page (regular : Regular (s.space id).vmas)
    (writable : WritableAt s id (pageBase va)) : WritableAt s id va := by
  obtain ⟨attrs, found, grants⟩ := writable
  exact ⟨attrs, (regular.paged.whole va).trans found, grants⟩

/-! ## Stores and copies -/

section

variable (sound : Sound rightsRule s) (live : (s.space id).live = true)

include sound live

/-- The program stores where an area is writable. -/
theorem userStore_writable {byte : UInt8} (stored : (s.userStore id va byte).1) :
    WritableAt s id va := by
  unfold userStore at stored
  dsimp only at stored
  split at stored
  · contradiction
  · rename_i allowed
    obtain ⟨valid, writable, -⟩ := userToPhysChecked_spec (not_or.mp allowed).2
    exact sound.writable live (by omega) valid (.inl writable)

/-- `vmm_copy_to_user` opens a page only in a writable area. -/
theorem openPage_writable
    (low : va < 2 ^ 48) (opened : (s.openPage id va).1) : WritableAt s id va := by
  unfold openPage at opened
  split at opened
  · unfold handleCowFault at opened
    split at opened
    · contradiction
    rename_i index found
    obtain ⟨rfl, valid⟩ := validLeaf_eq found
    refine sound.writable live low valid (.inr ?_)
    by_contra unmarked
    rw [if_pos (by simpa using unmarked)] at opened
    contradiction
  · rename_i reached
    obtain ⟨valid, writable, -⟩ := userToPhysChecked_spec reached
    exact sound.writable live low valid (.inl writable)

/-- The kernel opens pages of writable areas only. -/
theorem openPages_writable {page pages : Nat} (low : page + pages * pageSize ≤ 2 ^ 48)
    (opened : (s.openPages id page pages).1) :
    ∀ k < pages, WritableAt s id (page + k * pageSize) := by
  have start : (Sound rightsRule s ∧ SameAreas s s) ∧
      ∀ j < 0, WritableAt s id (page + j * pageSize) :=
    ⟨⟨sound, .refl s⟩, fun j none => absurd none (Nat.not_lt_zero j)⟩
  have ended := countUp_rule (fun k s => s.openPage id (page + k * pageSize))
    (fun k now => (Sound rightsRule now ∧ SameAreas s now) ∧
      ∀ j < k, WritableAt s id (page + j * pageSize)) (fun _ => True) pages 0
    (fun k now _ inside kept => ?_) start
  · have all := (ended.1 opened).2
    rwa [Nat.zero_add] at all
  obtain ⟨⟨good, same⟩, done⟩ := kept
  have live' := same.isLive live
  refine ⟨fun success => ?_, fun _ => trivial⟩
  have areas := SameAreas.openPage now id (page + k * pageSize)
  refine ⟨⟨good.keep ⟨openPage_spec _ good.disciplined live', areas⟩, same.trans areas⟩,
    fun j before => ?_⟩
  rcases Nat.lt_succ_iff_lt_or_eq.mp before with earlier | rfl
  · exact done j earlier
  · refine (WritableAt.congr same).mp (openPage_writable good live' ?_ success)
    simp only [pageSize] at *
    omega

/-- It copies to writable areas only. -/
theorem copyToUser_writable {dst : Nat} {data : List UInt8} (low : dst ≤ va)
    (high : va < dst + data.length)
    (bounded : dst + data.length ≤ 2 ^ 48) (copied : (s.copyToUser id dst data).1) :
    WritableAt s id va := by
  unfold copyToUser at copied
  rw [if_neg (by omega), if_neg (by omega)] at copied
  dsimp only at copied
  split at copied
  · contradiction
  rename_i opened
  have pages := openPages_writable sound live ?_ (by simpa using opened)
    ((pageBase va - pageBase dst) / pageSize) ?_
  · refine .of_page (sound.regular id live) ?_
    have place : pageBase dst + (pageBase va - pageBase dst) / pageSize * pageSize =
        pageBase va := by
      simp only [pageBase, pageSize]
      omega
    rwa [place] at pages
  · simp only [pageBase, pageSize] at *
    omega
  · simp only [pageBase, pageSize]
    omega

end

/-! ## The condition of a step -/

/-- No leaf of a range is marked copy-on-write. -/
def NoneMarked (s : Memory F) (id : SpaceId) (start stop : Nat) : Prop :=
  ∀ k < rounds start stop, isValid (s.entry id 3 (walkIndex (start + k * pageSize) 3)) = true →
    isCow (s.entry id 3 (walkIndex (start + k * pageSize) 3)) = false

section Host

variable (host : FileHost F)

/-- When `sys_mprotect` keeps page rights within area rights: its range ends in the user space,
it takes the right to write from no leaf that is marked copy-on-write, and it does not change
page tables without their areas. -/
structure ProtectKeeps (s : Memory F) (id : SpaceId) (start stop : Nat) (prot : UInt32) : Prop where
  /-- The range is below the limit. -/
  bounded : stop ≤ 2 ^ 48
  /-- No marked leaf loses its rights. -/
  unmarked : (vmaProtect (physVmaHost host) (s.space id).vmas start stop prot s.phys).1 = true →
    grantsWrite prot = false → NoneMarked s id start stop
  /-- Tables do not change without areas. -/
  room : (vmaProtect (physVmaHost host) (s.space id).vmas start stop prot s.phys).1 = false →
    s.allMapped id start stop = false

/-- A step that keeps page rights within area rights. -/
def RightsFine (s : Memory F) : MemoryOp F → Prop
  | .exec image => ∀ seg ∈ image.segments, seg.stop ≤ 2 ^ 48
  | .mmap slot call => ∀ base stop moved,
      mmapRange (s.space (.mm slot)) call = .ok (base, stop, moved) → stop ≤ 2 ^ 48
  | .mprotect slot addr len prot => len ≠ 0 →
      ProtectKeeps host s (.mm slot) (alignDown addr) (rangeStop addr len) (protToVmm prot)
  | .brk _ requested _ => alignUp requested ≤ 2 ^ 48
  | .mremap slot call => MremapFine host s (.mm slot) call
  | .ensureRange current slot va len _ => EnsureFine s current slot va len
  | _ => True

/-- A change of rights that keeps to the rule is fine. -/
theorem ProtectKeeps.fine {start stop : Nat} {prot : UInt32}
    (keeps : ProtectKeeps host s id start stop prot) :
    ProtectFine rightsRule host s id start stop prot := by
  refine ⟨keeps.bounded, fun granted k before rights valid _ open_ => ?_, fun failed mapped => ?_⟩
  · by_contra refused
    have refused : grantsWrite prot = false := by simpa using refused
    have unmarked := keeps.unmarked granted refused k before valid
    rcases open_ with writable | marked
    · rw [refused] at writable
      contradiction
    · rw [unmarked] at marked
      contradiction
  · rw [keeps.room failed] at mapped
    contradiction

/-- The permission handler gives a leaf no more than its area has. -/
theorem permissionFine_rights (access : VmmAccess) (sound : Sound rightsRule s)
    (live : (s.space id).live) : PermissionFine rightsRule s id far access := by
  intro vma looked _ k before rights valid meant open_
  obtain rfl : k = 0 := by
    simp only [rounds, pageSize] at before
    omega
  rw [Nat.zero_mul, Nat.add_zero] at valid meant open_
  have found : attrsAt (s.space id).vmas (pageBase far) = some vma.attrs := by
    rw [attrsAt, looked]
    rfl
  have same := areaRights_of_attrsAt (sound.regular id live) found
  rw [meant] at same
  cases same
  rcases open_ with writable | marked
  · exact writable
  obtain ⟨given, meant', obeys⟩ := sound.disciplined.leaves id _ live valid
  rw [meant] at meant'
  cases meant'
  exact obeys (.inr marked)

/-- Fine for the rights is fine for the discipline. -/
theorem fine_of_rightsFine {op : MemoryOp F} (sound : Sound rightsRule s)
    (fine : RightsFine host s op) : Fine host rightsRule s op := by
  cases op with
  | mprotect slot addr len prot => exact fun some_len => (fine some_len).fine
  | abort slot far kind =>
    intro live
    cases kind with
    | execTranslation => exact trivial
    | execPermission => exact permissionFine_rights .exec sound live
    | dataTranslation write => exact trivial
    | dataPermission write =>
      cases write with
      | true => exact fun _ => permissionFine_rights .write sound live
      | false => exact permissionFine_rights .read sound live
  | _ => exact fine

/-- What one step does to the rights. -/
theorem rights_step {op : MemoryOp F} (ready : Ready rightsRule s) (fine : RightsFine host s op) :
    Moves rightsRule (fun slot va => Grants s slot va op) s (s.step host op) :=
  step_moves host op ready.1 ready.2 (fine_of_rightsFine host ready.1 fine)

/-- A step leaves the memory ready. -/
theorem rights_step_ready (now : Memory F) (op : MemoryOp F) (ready : Ready rightsRule now)
    (fine : RightsFine host now op) : Ready rightsRule (now.step host op) :=
  ⟨(rights_step host ready fine).sound, (rights_step host ready fine).idle⟩

/-! ## Every run -/

/-- Rounds of `handle_lower_sync`, each with its address and kind. -/
def Memory.aborts (s : Memory F) (slot : Nat) (rounds : List (Nat × Abort)) : Memory F :=
  rounds.foldl (fun s round => s.step host (.abort slot round.1 round.2)) s

/-- Page rights do not exceed area rights: a store that succeeds, directly or after any rounds of
the fault handlers, and a copy by the kernel that succeeds, reach writable areas only. -/
def RightsHold (s : Memory F) : Prop :=
  ∀ slot va, (s.space (.mm slot)).live = true →
    (∀ rounds byte, ((s.aborts host slot rounds).userStore (.mm slot) va byte).1 = true →
      WritableAt (s.aborts host slot rounds) (.mm slot) va) ∧
    (∀ dst data, dst ≤ va → va < dst + data.length → dst + data.length ≤ 2 ^ 48 →
      (s.copyToUser (.mm slot) dst data).1 = true → WritableAt s (.mm slot) va)

/-- The handlers of aborts keep everything that is sound. -/
theorem aborts_ready (rounds : List (Nat × Abort)) : ∀ {s : Memory F},
    Ready rightsRule s → (s.space (.mm slot)).live →
      Ready rightsRule (s.aborts host slot rounds) ∧
        ((s.aborts host slot rounds).space (.mm slot)).live := by
  induction rounds with
  | nil => exact fun ready live => ⟨ready, live⟩
  | cons round rest ih =>
    intro s ready live
    refine ih (rights_step_ready host s (.abort slot round.1 round.2) ready trivial) ?_
    have fine : Fine host rightsRule s (.abort slot round.1 round.2) :=
      fine_of_rightsFine host ready.1 trivial
    have acts := handleAbort_acts host round.1 round.2 ready.1 live (fine live)
    show ((s.onSlot slot _).space _).live = true
    rw [onSlot, if_pos live]
    exact acts.isLive live

/-- In a ready memory the rights hold. -/
theorem Ready.rightsHold (ready : Ready rightsRule s) : RightsHold host s := by
  intro slot va live
  refine ⟨fun rounds byte stored => ?_, fun dst data low high bounded copied =>
    copyToUser_writable ready.1 live low high bounded copied⟩
  obtain ⟨after, live'⟩ := aborts_ready host rounds ready live
  exact userStore_writable after.1 live' stored

/-! ### Taking the right to write away -/

/-- Where `mprotect` has taken the right to write away there is no writable area. -/
theorem sysMprotect_unwritable {addr len : Nat} {prot : BitVec 64} (sound : Sound rightsRule s)
    (live : (s.space id).live) (some_len : len ≠ 0)
    (keeps : ProtectKeeps host s id (alignDown addr) (rangeStop addr len) (protToVmm prot))
    (refused : grantsWrite (protToVmm prot) = false)
    (done : (s.sysMprotect host id addr len prot).1 = 0) (low : alignDown addr ≤ va)
    (high : va < rangeStop addr len) :
    ¬ WritableAt (s.sysMprotect host id addr len prot).2 id va := by
  have regular := sound.regular id live
  unfold sysMprotect at done ⊢
  rw [if_neg some_len] at done ⊢
  generalize alignDown addr = start at *
  generalize rangeStop addr len = stop at *
  generalize protToVmm prot = rights at *
  cases granted : (vmaProtect (physVmaHost host) (s.space id).vmas start stop rights s.phys).1 with
  | false =>
    obtain ⟨result, recast⟩ := protectVma_refused host regular.tidy granted
    unfold protectPages at done
    rw [result] at done
    rw [if_neg Bool.false_ne_true, allMapped_congr recast.entry, keeps.room granted,
      if_pos rfl] at done
    contradiction
  | true =>
    have recast := withVmas_recast
      (fun list phys => vmaProtect (physVmaHost host) list start stop rights phys)
      (vmaProtect_outcome (physVmaHost host) start stop rights s.phys regular.tidy)
    have accepted : (s.withVmas id fun list phys =>
        vmaProtect (physVmaHost host) list start stop rights phys).1 = true := granted
    rw [if_pos accepted] at recast
    unfold protectPages
    rw [if_pos ((protectVma_fst host _).trans granted)]
    unfold protectVma
    rw [if_neg (by rw [accepted]; decide), WritableAt.congr (SameAreas.protectRange _ _ _ _ rights)]
    rintro ⟨attrs, found, grants⟩
    rw [recast.map, overwrite, if_pos ⟨low, high⟩, Option.bind_eq_some_iff] at found
    obtain ⟨old, -, same⟩ := found
    cases same
    rw [show grantsWrite _ = false from refused] at grants
    contradiction

/-- What is not writable stays so while no step grants it. -/
theorem unwritable_run {slot : Nat} (after : List (MemoryOp F)) : ∀ {now : Memory F},
    Ready rightsRule now → ¬ WritableAt now (.mm slot) va →
    EveryInput (step host) (RightsFine host) now after →
    EveryInput (step host) (fun now op => ¬ Grants now slot va op) now after →
    EveryState (step host) (fun now => (now.space (.mm slot)).live) now after →
    Ready rightsRule (after.foldl (step host) now) ∧
      ¬ WritableAt (after.foldl (step host) now) (.mm slot) va := by
  induction after with
  | nil => exact fun ready locked _ _ _ => ⟨ready, locked⟩
  | cons op rest ih =>
    intro now ready locked fine grantless live
    have moves := rights_step host ready fine.1
    refine ih (rights_step_ready host now op ready fine.1) (fun writable => locked ?_) fine.2
      grantless.2 live.2
    exact moves.calm slot va live.1 live.2.start grantless.1 writable

/-- After `mprotect` has taken the right to write from a range, no store into the range succeeds
until a later step grants it: in the state after any further steps that leave the address space
in use and grant no write at the address. -/
def LocksOut (s : Memory F) (ops : List (MemoryOp F)) : Prop :=
  ∀ before after slot addr len prot va byte, ops = before ++ .mprotect slot addr len prot :: after →
    ((before.foldl (Memory.step host) s).space (.mm slot)).live = true → len ≠ 0 →
    grantsWrite (protToVmm prot) = false →
    ((before.foldl (Memory.step host) s).sysMprotect host (.mm slot) addr len prot).1 = 0 →
    alignDown addr ≤ va → va < rangeStop addr len →
    EveryState (Memory.step host) (fun now => (now.space (.mm slot)).live = true)
      ((before.foldl (Memory.step host) s).step host (.mprotect slot addr len prot)) after →
    EveryInput (Memory.step host) (fun now op => ¬ Grants now slot va op)
      ((before.foldl (Memory.step host) s).step host (.mprotect slot addr len prot)) after →
    ((ops.foldl (Memory.step host) s).userStore (.mm slot) va byte).1 = false

end Host

/-- A process maps a page, writes it and gives up the right to write. -/
def lockedRun : List (MemoryOp Unit) :=
  [.exec ⟨[], 0, []⟩, .mmap 0 (sampleMmap false (protRead ||| protWrite)),
    .abort 0 0x10000 (.dataTranslation true), .store 0 0x10000 7,
    .mprotect 0 0x10000 4096 protRead, .abort 0 0x10000 (.dataPermission true)]

/-- A process maps a page of a file privately, reads it and gives up the right to write: the leaf
keeps its mark, and the copy-on-write handler opens it for the next store. -/
def markedRun : List (MemoryOp Unit) :=
  [.exec ⟨[], 0, []⟩, .mmap 0 (sampleMmap true (protRead ||| protWrite)),
    .abort 0 0x10000 (.dataTranslation false), .mprotect 0 0x10000 4096 protRead]

end Spore.Mm
