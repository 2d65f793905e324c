import Spore.Mm.Calls

/-!
# New images and aborts on sound memory

`execve` builds an image beside the live address spaces: segments first, then the pages of the
stack, and the stack area last. Until that area is there the pages of the stack have the rights
it is going to have, so the image is not sound while it is being built; it is sound when it is
adopted, and it leaves no trace when it is given up.
-/

namespace Spore.Mm

open Spore.Lib Memory

variable {F : Type} {rule : LeafRule} {s now : Memory F} {attr : SpaceId → Nat → Option AreaRights}

/-- An image is under construction beside the address spaces of before. -/
structure Building (rule : LeafRule) (attr : SpaceId → Nat → Option AreaRights)
    (s now : Memory F) : Prop where
  /-- The memory is in order. -/
  disciplined : Disciplined rule attr 0 now
  /-- The image is there. -/
  live : (now.space .image).live = true
  /-- The other spaces stay. -/
  others : ∀ j, j ≠ .image → SameSpace (s.space j) (now.space j)

section Host

variable (host : FileHost F)
variable {base : Memory F}

/-- An image that is given up leaves the others as they were. -/
theorem Building.discard (building : Building rule attr s now) (sound : Sound rule s)
    (meant : ∀ j, j ≠ .image → ∀ index, attr j index = areaRights s j index) :
    Settles rule s (now.discard host .image) := by
  have others : ∀ j, j ≠ .image →
      SameSpace (s.space j) ((now.discard host .image).space j) := fun j other =>
    (building.others j other).trans (.of_eq (discard_others other))
  have gone : ((now.discard host .image).space .image).live = false := discard_live_self
  refine ⟨retired_sound sound (building.disciplined.discard host building.live) gone others meant,
    gone, fun j other live => ⟨(others j other).live.trans live, (others j other).vmas⟩⟩

/-! ## Segments -/

/-- An image without pages: sound at every moment. -/
structure Bare (rule : LeafRule) (s now : Memory F) : Prop where
  /-- The memory is sound. -/
  sound : Sound rule now
  /-- The image is there. -/
  live : (now.space .image).live = true
  /-- The other spaces stay. -/
  others : ∀ j, j ≠ .image → SameSpace (s.space j) (now.space j)
  /-- Nothing is mapped in it. -/
  bare : ∀ index, isValid (now.entry .image 3 index) = false

/-- The draft of an image starts bare. -/
theorem userInit_spec (sound : Sound rule s) (started : s.userInit.1) :
    Bare rule s s.userInit.2 := by
  unfold userInit at started ⊢
  split at started
  · contradiction
  rename_i pa phys found
  obtain ⟨traded, -, -, -⟩ := Phys.trades_allocZeroPage sound.disciplined.accounts found
  have held := sound.disciplined.tradePhys traded
  generalize made : ((s.setPhys phys).setSpace .image fun _ =>
    ⟨true, 0, ⟨pa, fun _ _ => 0, 0, 0, 0x7000000000⟩, .init⟩) = s'
  have self : s'.space .image = ⟨true, 0, ⟨pa, fun _ _ => 0, 0, 0, 0x7000000000⟩, .init⟩ := by
    rw [← made]
    simp [setSpace]
  have other : ∀ j, j ≠ .image → s'.space j = s.space j := by
    intro j different
    rw [← made]
    simp [setSpace, different]
  have emptied : Emptied .image (s.setPhys phys) s' := by
    refine ⟨by rw [← made]; rfl, other, fun level index => ?_, ?_⟩
    · rw [self]
    · rw [self]
      rfl
  have bare : ∀ index, isValid (s'.entry .image 3 index) = false := by
    intro index
    rw [entry, self]
    exact isValid_zero
  have inv : Disciplined rule (areaRights s) 0 s' := held.root emptied (by rw [self])
  refine ⟨.besides s .image inv (fun j different => ⟨.of_eq (other j different),
    fun _ => rfl⟩) (fun _ => ?_) sound.regular sound.based, by rw [self],
    fun j different => .of_eq (other j different), bare⟩
  rw [self]
  exact ⟨regular_init, Nat.mod_eq_zero_of_dvd ⟨0x7000000, rfl⟩,
    fun index valid => by rw [bare] at valid; contradiction⟩

/-- Segments are areas of the new image. -/
theorem loadSegments_spec (segments : List Segment)
    (bounded : ∀ seg ∈ segments, seg.stop ≤ 2 ^ 48) : ∀ {now : Memory F}, Bare rule s now →
      Bare rule s (loadSegments host segments now).2 := by
  induction segments with
  | nil => exact fun bare => bare
  | cons seg rest ih =>
    intro now bare
    rw [loadSegments]
    set after := now.addFileVma host .image seg.start seg.stop seg.prot 0 seg.node seg.vaddr
      seg.offset seg.fileSize
    have added : Bare rule s after.2 := by
      have acts : Acts rule .image (fun va => seg.start ≤ va → va < seg.stop →
          grantsWrite seg.prot = false) now after.2 :=
        addFileVma_acts host bare.sound bare.live (alignDown_aligned seg.vaddr) (alignUp_aligned _)
          (bounded seg List.mem_cons_self)
      have recast := withVmas_recast (fun list phys => vmaInsertFile (physVmaHost host) list
          seg.start seg.stop seg.prot 0 (some seg.node) seg.vaddr seg.offset seg.fileSize phys)
        (vmaInsertFile_outcome (physVmaHost host) seg.start seg.stop seg.prot 0 (some seg.node)
          seg.vaddr seg.offset seg.fileSize now.phys (bare.sound.regular .image bare.live).tidy)
      refine ⟨acts.sound, acts.isLive bare.live, fun j other => (bare.others j other).trans
        ⟨recast.live j, recast.others j other, recast.base j⟩, fun index => ?_⟩
      have same : after.2.entry = now.entry := recast.entry
      rw [same]
      exact bare.bare index
    split
    · exact ih (fun seg member => bounded seg (List.mem_cons_of_mem _ member)) added
    · exact added

/-! ## The stack -/

/-- The rights of the stack area. -/
def stackRights : AreaRights := ⟨vmmUserRead ||| vmmUserWrite, 0⟩

/-- The rights that leaves are meant to have while the stack of an image is built. -/
def stackPlan (base : Memory F) : SpaceId → Nat → Option AreaRights :=
  plannedRights base .image (userStackTop - userStackSize) userStackTop stackRights

/-- The planned rights of a page of the stack. -/
theorem stackPlan_inside {va : Nat} (aligned : va % pageSize = 0)
    (low : userStackTop - userStackSize ≤ va) (high : va < userStackTop) :
    stackPlan base .image (walkIndex va 3) = some stackRights := by
  have address : walkIndex va 3 * pageSize = va := by
    rw [walkIndex_leaf_low (by simp only [userStackTop] at high; omega)]
    simp only [pageSize] at aligned ⊢
    omega
  exact if_pos ⟨rfl, by rwa [address], by rwa [address]⟩

/-- Pages of the stack are mapped with the rights that the stack area is going to have. -/
theorem ensureStackRange_spec (va len : Nat) (live : (base.space .image).live)
    (kept : Disciplined rule (stackPlan base) 0 now ∧ SameAreas base now) :
    Disciplined rule (stackPlan base) 0 (now.ensureStackRange va len).2 ∧
      SameAreas base (now.ensureStackRange va len).2 := by
  unfold ensureStackRange
  split
  · exact kept
  rename_i inside
  refine countUp_keeps (fun now => Disciplined rule (stackPlan base) 0 now ∧ SameAreas base now) _ 0
    (fun k now _ before built => ?_) kept
  dsimp only
  split
  · exact built
  have place : (pageBase va + k * pageSize) % pageSize = 0 ∧
      userStackTop - userStackSize ≤ pageBase va + k * pageSize ∧
      pageBase va + k * pageSize < userStackTop := by
    simp only [pageBase, pageSize, userStackTop, userStackSize] at *
    omega
  exact ⟨allocPage_spec built.1 (built.2.isLive live)
    (stackPlan_inside place.1 place.2.1 place.2.2) rfl,
    built.2.trans (.allocPage _ _ _ _)⟩

/-- `stack_copy_to_user`, for all pieces. -/
theorem buildStack_spec (pieces : List (Nat × List UInt8))
    (live : (base.space .image).live) : ∀ {now : Memory F},
      Disciplined rule (stackPlan base) 0 now ∧ SameAreas base now →
      Disciplined rule (stackPlan base) 0 (buildStack pieces now).2 ∧
        SameAreas base (buildStack pieces now).2 := by
  induction pieces with
  | nil => exact fun kept => kept
  | cons piece rest ih =>
    intro now kept
    have room := ensureStackRange_spec piece.1 piece.2.length live kept
    have copied := And.intro (copyToUser_spec piece.1 piece.2 room.1 (room.2.isLive live))
      (room.2.trans (.copyToUser _ .image piece.1 piece.2))
    rw [buildStack]
    dsimp only
    split
    · exact room
    · split
      · exact ih copied
      · exact copied

/-! ## The image as a whole -/

/-- With the stack area in place the image is sound. -/
theorem addStack_spec (bare : Bare rule s base)
    (kept : Disciplined rule (stackPlan base) 0 now ∧ SameAreas base now)
    (is : now.addVmaTyped host .image (userStackTop - userStackSize) userStackTop
      (vmmUserRead ||| vmmUserWrite) 0 .stack = (ok, next)) :
    Building rule (stackPlan base) s next ∧ (ok → Sound rule next) := by
  have live := kept.2.isLive bare.live
  have regular := kept.2.regulars bare.sound.regular .image live
  have recast := withVmas_recast (fun list phys => vmaInsert (physVmaHost host) list
      (userStackTop - userStackSize) userStackTop (vmmUserRead ||| vmmUserWrite) 0 .stack phys)
    (vmaInsert_outcome (physVmaHost host) _ _ _ _ _ now.phys regular.tidy)
  have inv := withVmas_inv (vmaInsert_trades host (userStackTop - userStackSize) userStackTop
    (vmmUserRead ||| vmmUserWrite) 0 .stack) kept.1 live
  rw [addVmaTyped] at is
  rw [is] at recast inv
  refine ⟨⟨inv, (recast.live _).trans live, fun j other =>
    ((bare.others j other).trans (kept.2.space j)).trans
      ⟨recast.live j, recast.others j other, recast.base j⟩⟩, fun added => ?_⟩
  rw [if_pos added] at recast
  refine ⟨recast.planned inv (fun j _ => kept.2.vmas j) fun index _ => ?_, ?_, ?_⟩
  · rw [kept.2.areaRights]
  · refine recast.regulars (kept.2.regulars bare.sound.regular) ?_
    exact regular.paged.overwrite (by decide) (by decide) (.inl (by decide))
  · exact recast.bases (kept.2.bases bare.sound.based)

/-- What an image under construction plans for other address spaces is what they have. -/
theorem Bare.meant (bare : Bare rule s base) (j : SpaceId) (other : j ≠ .image)
    (index : Nat) : areaRights base j index = areaRights s j index := by
  rw [areaRights, (bare.others j other).vmas]
  rfl

/-- It plans nothing for other spaces. -/
theorem Bare.planned (bare : Bare rule s base) (j : SpaceId) (other : j ≠ .image)
    (index : Nat) : stackPlan base j index = areaRights s j index := by
  rw [stackPlan, plannedRights, if_neg fun both => other both.1]
  exact bare.meant j other index

/-- `execve`, up to the adoption of the image. -/
theorem execImage_settles (image : Image) (sound : Sound rule s)
    (idle : (s.space .image).live = false) (bounded : ∀ seg ∈ image.segments, seg.stop ≤ 2 ^ 48) :
    Settles rule s (s.execImage host image).2 := by
  unfold execImage
  dsimp only
  split
  · rename_i failed
    have same : s.userInit.2 = s := by
      unfold userInit at failed ⊢
      split at failed
      · rfl
      · contradiction
    rw [same]
    exact ⟨sound, idle, fun _ _ live => ⟨live, rfl⟩⟩
  rename_i started
  have loaded := loadSegments_spec host image.segments bounded
    (userInit_spec sound (by simpa using started))
  generalize loadSegments host image.segments s.userInit.2 = result at loaded
  obtain ⟨ok, now⟩ := result
  split
  · have building : Building rule (areaRights now) s now :=
      ⟨loaded.sound.disciplined, loaded.live, loaded.others⟩
    exact building.discard host sound loaded.meant
  set ready := now.setSpace .image fun space => { space with
    as := { space.as with brkBase := image.brk, brkCurrent := image.brk } } with ready_eq
  have broken : Disciplined rule (areaRights now) 0 ready ∧ SameAreas now ready :=
    setSpace_kept loaded.sound (fun _ => ⟨rfl, rfl, rfl⟩) fun _ => ⟨rfl, rfl, rfl⟩
  have base : Bare rule s ready :=
    ⟨loaded.sound.keep broken, broken.2.isLive loaded.live,
      fun j other => (loaded.others j other).trans (broken.2.space j), fun index => by
        have same := loaded.bare index
        exact same⟩
  clear_value ready
  have planned : Disciplined rule (stackPlan ready) 0 ready :=
    plannedRights_inv stackRights base.sound fun index _ _ => base.bare index
  have stacked := buildStack_spec image.pieces base.live ⟨planned, .refl ready⟩
  generalize buildStack image.pieces ready = result at stacked
  obtain ⟨ok, built⟩ := result
  split
  · have building : Building rule (stackPlan ready) s built :=
      ⟨stacked.1, stacked.2.isLive base.live,
        fun j other => (base.others j other).trans (stacked.2.space j)⟩
    exact building.discard host sound base.planned
  · obtain ⟨building, good⟩ := addStack_spec host base stacked rfl
    split
    · exact building.discard host sound base.planned
    rename_i added
    exact (adopt_settles host (good (eq_true_of_ne_false added)) building.live).after
      fun j other live => ⟨(building.others j other).live.trans live,
        (building.others j other).vmas⟩

end Host

end Spore.Mm
