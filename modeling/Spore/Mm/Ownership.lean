import Spore.Mm.BalanceClone
import Spore.Mm.Spaces

/-!
# Page ownership over whole runs

Address spaces are created, mapped into, copied, faulted on, moved in, unmapped and destroyed in
any order, and the rest of the kernel takes and gives back pages in between. As long as each
operation finds the pages it needs, or none at all, and no leaf is mapped over, the counter of
every page is the number of its owners throughout, and an operation that fails leaves the number
of free pages as it was. An operation that runs out of pages in the middle loses some: the last
part of this module shows a copy that does.
-/

namespace Spore.Mm

open Spore.Lib Memory

variable {F : Type} (host : FileHost F) {reserved : Nat → Prop} {s s' : Memory F}
  {dst src id : SpaceId}
variable {word : Nat → BitVec 64} {slot start stop va : Nat} {flags : UInt32} {vmas : List Vma}
  {hand : Multiset Nat}

/-! ## Operations -/

/-- An operation on address spaces, or on the pages of the rest of the kernel. Processes name
their address space by its slot. -/
inductive PageOp where
  /-- The rest of the kernel takes a page or gives one back. -/
  | kernel (use : KernelPage)
  /-- `vmm_user_init` and `cell_mm_from_owned`. -/
  | create
  /-- `vmm_map_page` of a page that the kernel holds. -/
  | map (slot va position : Nat) (flags : UInt32)
  /-- `vmm_map_page_cow` of a page that the kernel holds. -/
  | mapCow (slot va position : Nat) (flags : UInt32)
  /-- `vmm_alloc_page`, as faults and `mmap` call it. -/
  | allocPage (slot va : Nat) (flags : UInt32)
  /-- `cell_mm_clone_cow`, the part of `fork` that copies memory. -/
  | clone (slot : Nat)
  /-- `vmm_handle_cow_fault`. -/
  | cowFault (slot va : Nat)
  /-- `vmm_move_page`. -/
  | move (slot oldVa newVa : Nat)
  /-- `vmm_unmap_range`. -/
  | unmap (slot start stop : Nat)
  /-- `vmm_destroy` and `vma_list_destroy`, when the last process lets go. -/
  | destroy (slot : Nat)
  deriving Repr, DecidableEq

/-- A page of the kernel passes to a leaf if mapping it succeeds. -/
def Memory.mapHeld (s : Memory F) (position : Nat) (map : Nat → Bool × Memory F) :
    Bool × Memory F :=
  match s.phys.held[position]? with
  | none => (false, s)
  | some page =>
    let mapped := map (page * pageSize)
    if mapped.1 then
      (true, mapped.2.setPhys { mapped.2.phys with
        held := mapped.2.phys.held.eraseIdx position })
    else mapped

/-- The result of an operation and the memory after it. -/
def PageOp.apply (s : Memory F) : PageOp → Bool × Memory F
  | .kernel use => (true, s.setPhys (s.phys.kernelPage use))
  | .create =>
    if s.userInit.1 then ((s.userInit.2.adopt host).1.isSome, (s.userInit.2.adopt host).2)
    else s.userInit
  | .map slot va position flags =>
    if (s.space (.mm slot)).live then
      s.mapHeld position fun pa => s.mapPage (.mm slot) va pa flags
    else (false, s)
  | .mapCow slot va position flags =>
    if (s.space (.mm slot)).live then
      s.mapHeld position fun pa => s.mapPageCow (.mm slot) va pa flags
    else (false, s)
  | .allocPage slot va flags =>
    if (s.space (.mm slot)).live then s.allocPage (.mm slot) va flags else (false, s)
  | .clone slot => ((s.mmCloneCow host slot).1.isSome, (s.mmCloneCow host slot).2)
  | .cowFault slot va =>
    if (s.space (.mm slot)).live then s.handleCowFault (.mm slot) va else (false, s)
  | .move slot oldVa newVa =>
    if (s.space (.mm slot)).live then s.movePage (.mm slot) oldVa newVa else (false, s)
  | .unmap slot start stop =>
    if (s.space (.mm slot)).live then (true, s.unmapRange (.mm slot) start stop) else (false, s)
  | .destroy slot =>
    if (s.space (.mm slot)).live then (true, s.discard host (.mm slot)) else (false, s)

/-- The memory after an operation. -/
def Memory.pageStep (s : Memory F) (op : PageOp) : Memory F := (op.apply host s).2

/-- The operation finds the pages that it needs, or no page at all; it does not map over a leaf,
and no counter passes its maximum. -/
def PageOp.Ample (s : Memory F) : PageOp → Prop
  | .map slot va _ _ => s.isMapped (.mm slot) va = false ∧ WalkRoomy s (.mm slot) va
  | .mapCow slot va _ _ => s.isMapped (.mm slot) va = false ∧ WalkRoomy s (.mm slot) va
  | .allocPage slot va _ => s.isMapped (.mm slot) va = false ∧
      (missingTables s (.mm slot) va + 1 ≤ s.phys.pmm.available ∨ s.phys.pmm.available = 0)
  | .clone slot => CopyRoomy s (.mm slot)
  | .move slot _ newVa => WalkRoomy s (.mm slot) newVa
  | _ => True

/-! ## What holds between operations -/

/-- Pages and owners are in balance, no image is under construction and every address space has
a root. -/
structure Tended (reserved : Nat → Prop) (s : Memory F) : Prop where
  /-- The balance holds. -/
  balanced : Balanced reserved 0 s
  /-- No image is left over. -/
  idle : (s.space .image).live = false
  /-- Live spaces have a root. -/
  rooted : ∀ id, (s.space id).live = true → (s.space id).as.rootPa ≠ 0

/-- The counter of every page is the number of its owners, those in the rest of the kernel
included. -/
def PagesBalanced (s : Memory F) : Prop :=
  ∀ page, (s.phys.pmm.refcount page : ℕ∞) =
    {owner | s.Owns owner page}.encard + (s.phys.held.count page : ℕ∞)

/-- The memory is tended after an operation, and a failure in which the rest of the kernel took
no part left the number of free pages alone. -/
structure PageOutcome (reserved : Nat → Prop) (s : Memory F) (result : Bool × Memory F) : Prop where
  /-- The memory stays tended. -/
  tended : Tended reserved result.2
  /-- A failure leaves the free pages. -/
  refused : result.1 = false → result.2.phys.held = s.phys.held →
    result.2.phys.pmm.freeCount = s.phys.pmm.freeCount

/-- A call that succeeds has no state to keep. -/
theorem PageOutcome.done (tended : Tended reserved s') : PageOutcome reserved s (true, s') :=
  ⟨tended, by simp⟩

/-- The owners of the pages determine the number of free ones. -/
theorem freeCount_of_owners (before : Balanced reserved 0 s) (after : Balanced reserved 0 s')
    (same : ∀ owner page, s'.Owns owner page ↔ s.Owns owner page)
    (held : s'.phys.held = s.phys.held) : s'.phys.pmm.freeCount = s.phys.pmm.freeCount := by
  refine before.orderly.freeCount_eq after.orderly fun page => ?_
  have one := before.counts page
  have two := after.counts page
  simp only [same, Phys.loose, held] at two
  exact_mod_cast two.trans one.symm

section

variable (tended : Tended reserved s)

include tended

/-- A tended memory has its pages balanced. -/
theorem Tended.pagesBalanced : PagesBalanced s := by
  intro page
  have exact_ := tended.balanced.counts page
  rwa [Phys.loose, zero_add, Multiset.coe_count] at exact_

/-- A call that does nothing. -/
theorem PageOutcome.unchanged (result : Bool) :
    PageOutcome reserved s (result, s) := ⟨tended, fun _ _ => rfl⟩

/-- An operation on an address space that is not in use does nothing. -/
theorem PageOutcome.ifLive {live : Prop} [Decidable live] {result : Bool × Memory F}
    (done : live → PageOutcome reserved s result) :
    PageOutcome reserved s (if live then result else (false, s)) := by
  split
  · rename_i is
    exact done is
  · exact unchanged tended false

/-- The table of spaces stays in order while the roots stay. -/
theorem Tended.next (balanced : Balanced reserved 0 s')
    (roots : SameRoots s s') : Tended reserved s' := by
  refine ⟨balanced, (roots _).1.trans tended.idle, fun j live => ?_⟩
  rw [(roots j).2]
  exact tended.rooted j ((roots j).1.symm.trans live)

end

/-! ## Mapping, faults, moving and unmapping -/

/-- A page at hand is mapped with its reference, or stays at hand. -/
theorem mapHeld_outcome {va position : Nat} (tended : Tended reserved s)
    (live : (s.space id).live) (unmapped : s.isMapped id va = false)
    (roomy : WalkRoomy s id va) (fields : ∀ pa, pa % pageSize = 0 → pa < 2 ^ 48 →
      isValid (word pa) ∧ addrOf (word pa) = pa) :
    PageOutcome reserved s (s.mapHeld position fun pa =>
      if (s.ensureTables id va).1 then
        (true, (s.ensureTables id va).2.setEntry id 3 (walkIndex va 3) (word pa))
      else (false, (s.ensureTables id va).2)) := by
  have balanced := tended.balanced
  have vacant := vacant_of_not_isMapped balanced live unmapped
  obtain ⟨supplied, refused⟩ := ensureTables_balanced balanced live (tended.rooted id live) roomy
  unfold mapHeld
  split
  · exact .unchanged tended false
  rename_i page found
  by_cases ok : (s.ensureTables id va).1
  · simp only [ok, if_true]
    obtain ⟨good, present, extended⟩ := supplied ok
    generalize (s.ensureTables id va).2 = now at good present extended
    rw [← extended.held] at found
    have borrowed := good.borrow found
    have whole : page * pageSize / pageSize = page := Nat.mul_div_cancel _ (by decide)
    have inside : page < s.phys.pmm.tracked := by
      have counted := balanced.solvent.enough page
      have holds : 0 < (s.phys.loose 0).count page := by
        rw [extended.held] at found
        rw [Phys.loose, zero_add, Multiset.count_pos]
        exact List.mem_of_getElem? found
      exact balanced.orderly.lt_tracked (by omega)
    have small : page * pageSize < 2 ^ 48 :=
      small_of_page balanced.addressable (Nat.mul_mod_left _ _) (by rw [whole]; exact inside)
    obtain ⟨valid, addr⟩ := fields (page * pageSize) (Nat.mul_mod_left _ _) small
    have mapped := mapLeaf_balanced borrowed (extended.areas.isLive live) valid
      ((congrArg (· / pageSize) addr).trans whole)
      (by rw [entry_setPhys, (extended.leaves id _ live).1]; exact vacant)
      (by rw [entry_setPhys]; exact present)
    exact .done (tended.next mapped (extended.sameRoots.trans (sameRoots_setEntry _)))
  · have failed : (s.ensureTables id va).1 = false := by simpa using ok
    simp only [failed, refused failed]
    exact .unchanged tended false

/-- A new page is mapped, or given back. -/
theorem allocPage_outcome {va : Nat} {flags : UInt32} (tended : Tended reserved s)
    (live : (s.space id).live) (unmapped : s.isMapped id va = false)
    (roomy : missingTables s id va + 1 ≤ s.phys.pmm.available ∨ s.phys.pmm.available = 0) :
    PageOutcome reserved s (s.allocPage id va flags) := by
  rcases roomy with enough | starved
  · obtain ⟨done, good, roots⟩ := allocPage_balanced flags tended.balanced live
      (tended.rooted id live) unmapped enough
    refine ⟨tended.next good roots, fun contra => ?_⟩
    rw [done] at contra
    contradiction
  · rw [allocPage_starved starved]
    exact .unchanged tended false

/-! ## Places -/

section

variable (around : Around id s s') (tended : Tended reserved s)

include around tended

/-- Address spaces elsewhere keep their roots. -/
theorem Around.rooted {j : SpaceId} (other : j ≠ id)
    (live : (s'.space j).live) : (s'.space j).as.rootPa ≠ 0 := by
  have was : (s.space j).live := (around.live j other).symm.trans live
  have owned : s.Owns (Sum.inl (.root j)) ((s.space j).as.rootPa / pageSize) :=
    ⟨was, tended.rooted j was, rfl⟩
  exact ((around.owns (.root j) _ other).mpr owned).2.1

/-- An attempt at a free place that failed has changed nothing that counts. -/
theorem PageOutcome.gaveUp
    (balanced : Balanced reserved 0 s') (before : (s.space id).live = false)
    (after : (s'.space id).live = false) : PageOutcome reserved s (false, s') := by
  refine ⟨⟨balanced, ?_, fun j live => ?_⟩, fun _ held => ?_⟩
  · by_cases image : id = .image
    · exact image ▸ after
    · exact (around.live _ fun same => image same.symm).trans tended.idle
  · refine around.rooted tended ?_ live
    rintro rfl
    rw [after] at live
    contradiction
  · exact freeCount_of_owners tended.balanced balanced (around.all before after) held

/-- An attempt at a free place that ended in a new address space. -/
theorem PageOutcome.tookPlace
    (balanced : Balanced reserved 0 s') (proper : id ≠ .image)
    (rooted : (s'.space id).as.rootPa ≠ 0) : PageOutcome reserved s (true, s') := by
  refine .done ⟨balanced, (around.live _ proper.symm).trans tended.idle, fun j live => ?_⟩
  by_cases here : j = id
  · rw [here]
    exact rooted
  · exact around.rooted tended here live

end

/-! ## Creating -/

/-- One address space moves to a place where none was. -/
theorem Balanced.moveSpace {source target : SpaceId}
    (balanced : Balanced reserved hand s) (store : s'.store = s.store) (distinct : source ≠ target)
    (live : (s.space source).live) (free : (s.space target).live = false)
    (gone : (s'.space source).live = false) (arrived : (s'.space target).live)
    (moved : SameTables (s.space source) (s'.space target))
    (others : ∀ j, j ≠ source → j ≠ target → s'.space j = s.space j) :
    Balanced reserved hand s' := by
  have phys : s'.phys = s.phys := congrArg Store.phys store
  let swap : SpaceId ≃ SpaceId := Equiv.swap source target
  let name : SpaceOwner ≃ SpaceOwner :=
    { toFun := renameOwner swap
      invFun := renameOwner swap
      left_inv := fun owner => by cases owner <;> simp [renameOwner, swap]
      right_inv := fun owner => by cases owner <;> simp [renameOwner, swap] }
  have atSource : swap source = target := Equiv.swap_apply_left _ _
  have atTarget : swap target = source := Equiv.swap_apply_right _ _
  have elsewhere : ∀ j, j ≠ source → j ≠ target → swap j = j := fun j one two =>
    Equiv.swap_apply_of_ne_of_ne one two
  -- Every address space in use is one of before, under its old name.
  have origin : ∀ j, (s'.space j).live = (s.space (swap j)).live ∧
      ((s'.space j).live = true → SameTables (s.space (swap j)) (s'.space j)) := by
    intro j
    by_cases one : j = source
    · subst one
      rw [atSource, gone, free]
      exact ⟨rfl, by simp⟩
    by_cases two : j = target
    · subst two
      rw [atTarget, arrived, live]
      exact ⟨rfl, fun _ => moved⟩
    · rw [elsewhere j one two, others j one two]
      exact ⟨rfl, fun _ => .refl _⟩
  have owns : ∀ owner page, s'.Owns owner page ↔ s.Owns (Sum.map name id owner) page := by
    intro owner page
    cases owner with
    | inr cached => simp [Owns, Store.allRefs, store]
    | inl owner =>
      cases owner with
      | root j | entry j | chunk j =>
        simp only [Owns, Store.allRefs, Sum.map_inl, Sum.elim_inl, name, Equiv.coe_fn_mk,
          renameOwner, spaceRefs, ← (origin j).1]
        refine and_congr_right fun there => ?_
        obtain ⟨root, entry, chunks⟩ := (origin j).2 there
        simp only [root, entry, chunks]
  refine ⟨?_, phys ▸ balanced.orderly, fun j there => ?_, fun j there => ?_, ?_⟩
  · rw [phys]
    exact .rename (Equiv.sumCongr name (Equiv.refl Nat)) balanced.counts owns
  · have tables := (origin j).2 there
    have shape := balanced.shape (swap j) ((origin j).1.symm.trans there)
    refine ⟨⟨?_, ?_⟩, ?_, ?_, ?_⟩
    · rw [tables.entry]
      exact shape.tree.table
    · rw [tables.entry]
      exact shape.tree.rooted
    · rw [tables.entry]
      exact shape.bounded
    · rw [tables.root]
      exact shape.aligned
    · rw [tables.entry, tables.root]
      exact shape.unrooted
  · intro pa member
    rw [((origin j).2 there).chunks] at member
    exact balanced.placed _ ((origin j).1.symm.trans there) pa member
  · rw [phys]
    exact balanced.addressable

/-- A blank address space in a free place. -/
theorem Balanced.blankPlace (balanced : Balanced reserved hand s)
    (free : (s.space id).live = false) (refcount : Nat) :
    Balanced reserved hand (s.setSpace id fun _ => { Space.dead with live := true, refcount }) := by
  refine balanced.openPlace rfl free (fun j other => ?_) (fun l i => ?_) ?_ ?_
  · simp [setSpace, other]
  · simp [setSpace, Space.dead, UserAddressSpace.zero]
  · simp [setSpace, Space.dead, UserAddressSpace.zero]
  · simp [setSpace, Space.dead]

/-- `vmm_user_init` starts an image with a root, or changes nothing. -/
theorem userInit_balanced (tended : Tended reserved s) :
    (s.userInit.1 → Balanced reserved 0 s.userInit.2 ∧ Around .image s s.userInit.2 ∧
      (s.userInit.2.space .image).live ∧ (s.userInit.2.space .image).as.rootPa ≠ 0) ∧
    (s.userInit.1 = false → s.userInit.2 = s) := by
  unfold userInit
  split
  · exact ⟨by simp, fun _ => rfl⟩
  rename_i pa phys found
  obtain ⟨settled, aligned, nonzero, -, -, -⟩ :=
    Phys.settles_allocZeroPage 0 tended.balanced.orderly found
  have opened := (tended.balanced.settle settled).blankPlace tended.idle 0
  refine ⟨fun _ => ?_, by simp⟩
  set made := (s.setPhys phys).setSpace .image fun _ =>
    { live := true, refcount := 0, vmas := .init
      as := { rootPa := pa, entry := fun _ _ => 0, brkBase := 0, brkCurrent := 0,
              mmapBase := 0x7000000000 } } with made_eq
  have others : ∀ j, j ≠ .image → made.space j = s.space j := fun j other => by
    simp [made_eq, setSpace, other]
  have here : made.space .image = ⟨true, 0, ⟨pa, fun _ _ => 0, 0, 0, 0x7000000000⟩, .init⟩ := by
    simp [made_eq, setSpace]
  have blank : ∀ j, j ≠ .image → made.space j = ((s.setPhys phys).setSpace .image fun _ =>
      { Space.dead with live := true, refcount := 0 }).space j := fun j other => by
    rw [others j other]
    simp [setSpace, other]
  refine ⟨opened.root rfl blank ?_ ?_ ?_ ?_ (fun l i => ?_) ?_ aligned nonzero,
    .of_others rfl others, ?_, ?_⟩
  · simp [setSpace]
  · rw [here]
  · simp [setSpace, Space.dead, UserAddressSpace.zero]
  · rw [here]
    simp [setSpace, Space.dead]
  · rw [here]
  · rw [here]
  · rw [here]
  · rw [here]
    exact nonzero

/-- A discarded space takes its own references along. -/
theorem discard_around : Around id s (s.discard host id) :=
  .of_others destroy_cache fun _ other => discard_others other

/-- A new space, or nothing. -/
theorem create_outcome (tended : Tended reserved s) :
    PageOutcome reserved s (PageOp.create.apply host s) := by
  obtain ⟨made, failed⟩ := userInit_balanced tended
  unfold PageOp.apply
  dsimp only
  split
  · rename_i ok
    obtain ⟨balanced, around, live, rooted⟩ := made ok
    generalize s.userInit.2 = image at balanced around live rooted
    unfold adopt
    rcases mmFromOwned_cases image with
      none | ⟨slot, final, made, free, store, atImage, atSlot, others⟩
    · rw [none]
      exact .gaveUp (around.trans (discard_around host)) tended
        (balanced.discard host live) tended.idle discard_live_self
    · rw [made]
      have moved := balanced.moveSpace store (by simp) live free (by rw [atImage]; rfl)
        (by rw [atSlot]) ⟨by rw [atSlot], by rw [atSlot], by rw [atSlot]⟩ others
      refine .done ⟨moved, by rw [atImage]; rfl, fun j there => ?_⟩
      by_cases notImage : j = .image
      · rw [notImage, atImage] at there
        contradiction
      by_cases notSlot : j = .mm slot
      · rw [notSlot, atSlot]
        exact rooted
      · rw [others j notImage notSlot] at there ⊢
        exact around.rooted tended notImage there
  · rename_i no
    have stopped : s.userInit.1 = false := by simpa using no
    rw [show s.userInit = (false, s) from Prod.ext stopped (failed stopped)]
    exact .unchanged tended false

/-! ## Copying -/

/-- The chunks in hand become the chunks of an address space that has none. -/
theorem Balanced.setVmas {list : VmaList}
    (balanced : Balanced reserved (list.pages + hand) s) (live : (s.space id).live)
    (bare : (s.space id).vmas.chunkPa = []) (placed : list.Placed) :
    Balanced reserved hand (s.setVmas id list) := by
  refine balanced.oneSpace rfl (fun j apart => if_neg apart) ?_ (fun _ => ?_) fun _ => ?_
  · have counts := balanced.counts
    rw [Phys.loose, add_assoc, VmaList.pages,
      ← chunkPairs_snd id (list.chunkPa.map (· / pageSize))] at counts
    have none : ∀ position page, ¬ s.Owns (Sum.inl (.chunk id position)) page := by
      intro position page owned
      have stored := owned.2
      rw [bare] at stored
      simp at stored
    refine .linkAll _ counts ?_ (chunkPairs_nodup _) fun owner page => ?_
    · rintro ⟨owner, page⟩ member owned
      obtain ⟨position, rfl, -⟩ := mem_chunkPairs.mp member
      exact none position page owned
    rw [mem_chunkPairs]
    cases owner with
    | inr cached => simp [Owns, Store.allRefs, Memory.setVmas, Memory.setSpace]
    | inl owner =>
      cases owner with
      | root | entry => simp [Owns, Store.allRefs, spaceRefs]
      | chunk j position =>
        by_cases here : j = id
        · subst here
          simp only [none position page, false_or, Sum.inl.injEq, SpaceOwner.chunk.injEq,
            true_and, exists_eq_left']
          simp only [Owns, Store.allRefs, Sum.elim_inl, spaceRefs, live_setVmas, live,
            vmas_setVmas_self, true_and]
        · simp [Owns, Store.allRefs, spaceRefs, vmas_setVmas_ne here, here]
  · rw [as_setVmas]
    exact balanced.shape id live
  · rw [vmas_setVmas_self]
    exact placed

/-- Owners that are kept give the pages around the space. -/
theorem OwnersKept.around (kept : OwnersKept dst s s') : Around dst s s' :=
  ⟨fun j _ => kept.live j, kept.cache, kept.owns⟩

/-- `vmm_clone_cow` and `vma_clone` into a blank address space: a copy, or a place that is free
again. -/
structure CloneOutcome (reserved : Nat → Prop) (dst : SpaceId) (s : Memory F)
    (result : Bool × Memory F) : Prop where
  /-- The balance holds. -/
  balanced : Balanced reserved 0 result.2
  /-- Only the copy changes. -/
  around : Around dst s result.2
  /-- The copy has a root. -/
  copied : result.1 = true → (result.2.space dst).live = true ∧ (result.2.space dst).as.rootPa ≠ 0
  /-- A failed copy is gone. -/
  refused : result.1 = false → (result.2.space dst).live = false

/-- Leaves changed their permissions and nothing else. -/
structure SamePages (s s' : Memory F) : Prop where
  /-- No page moves. -/
  store : s'.store = s.store
  /-- Areas stay. -/
  areas : SameAreas s s'
  /-- The roots stay. -/
  root : ∀ j, (s'.space j).as.rootPa = (s.space j).as.rootPa
  /-- Words stay valid or invalid. -/
  valid : ∀ j l i, isValid (s'.entry j l i) = isValid (s.entry j l i)
  /-- They keep their pages. -/
  page : ∀ j l i, pageOf (s'.entry j l i) = pageOf (s.entry j l i)

/-- Nothing happens. -/
theorem SamePages.refl (s : Memory F) : SamePages s s :=
  ⟨rfl, .refl s, fun _ => rfl, fun _ _ _ => rfl, fun _ _ _ => rfl⟩

/-- Two steps on the same pages. -/
theorem SamePages.trans {s'' : Memory F} (first : SamePages s s') (second : SamePages s' s'') :
    SamePages s s'' :=
  ⟨second.store.trans first.store, first.areas.trans second.areas,
    fun j => (second.root j).trans (first.root j),
    fun j l i => (second.valid j l i).trans (first.valid j l i),
    fun j l i => (second.page j l i).trans (first.page j l i)⟩

/-- A word that maps the same page. -/
theorem samePages_setEntry {level index : Nat} {word : BitVec 64}
    (valid : isValid word = isValid (s.entry id level index))
    (page : pageOf word = pageOf (s.entry id level index)) :
    SamePages s (s.setEntry id level index word) :=
  ⟨rfl, .setEntry id level index word, rootPa_setEntry word,
    congr_setEntry isValid valid, congr_setEntry pageOf page⟩

/-- The same pages all around. -/
theorem SamePages.around (same : SamePages s s') (id : SpaceId) : Around id s s' := by
  refine ⟨fun j _ => same.areas.live j, congrArg Store.cache same.store, fun owner page _ => ?_⟩
  cases owner with
  | root j => simp only [Owns, Store.allRefs, Sum.elim_inl, spaceRefs, same.areas.live, same.root]
  | chunk j position =>
    simp only [Owns, Store.allRefs, Sum.elim_inl, spaceRefs, same.areas.live, same.areas.vmas]
  | entry j l i =>
    have valid : isValid ((s'.space j).as.entry l i) = isValid ((s.space j).as.entry l i) :=
      same.valid j l i
    have pages : pageOf ((s'.space j).as.entry l i) = pageOf ((s.space j).as.entry l i) :=
      same.page j l i
    simp only [Owns, Store.allRefs, Sum.elim_inl, spaceRefs, same.areas.live, valid, pages]

section

variable (balanced : Balanced reserved 0 s)

include balanced

/-- `vmm_destroy` of an address space without areas that is given up. -/
theorem Balanced.destroyBare (live : (s.space id).live)
    (vmas : (s.space id).vmas = .init) : Balanced reserved 0 ((s.destroy id).retire id) := by
  have destroyed := balanced.destroy live
  rw [vmas, VmaList.pages_init, zero_add] at destroyed
  refine destroyed.deadSpace ?_ (fun j other => ?_) (retire_live_self s id) (retire_live_self _ id)
  · show Store.mk _ _ = Store.mk _ _
    rw [destroy_cache]
    rfl
  · rw [retire_others other, destroy_others other]
    exact (retire_others other).symm

/-- A leaf that copying had marked gets its rights back. -/
theorem restoreLeaf_balanced {a b : SpaceId} (liveA : (s.space a).live) (liveB : (s.space b).live) :
    Balanced reserved 0 (restoreLeaf a b flags va s).2 ∧
      SamePages s (restoreLeaf a b flags va s).2 := by
  unfold restoreLeaf
  split
  · rename_i i j foundA foundB
    have validA := (validLeaf_eq foundA).2
    have validB := (validLeaf_eq foundB).2
    split
    · exact ⟨balanced, .refl s⟩
    have fieldsA : Fields (restoredWord (s.entry a 3 i) flags) _ _ _ _ := restoredWord_fields
    have fieldsB : Fields (restoredWord (s.entry b 3 j) flags) _ _ _ _ := restoredWord_fields
    have first := balanced.rewriteLeaf liveA validA (fieldsA.valid.trans validA)
      (congrArg (· / pageSize) fieldsA.addr)
    have same := samePages_setEntry fieldsA.valid (congrArg (· / pageSize) fieldsA.addr)
    refine ⟨first.rewriteLeaf ((live_setEntry _ b).trans liveB) ?_
      (fieldsB.valid.trans validB) ?_, same.trans (samePages_setEntry ?_ ?_)⟩
    · rw [same.valid]
      exact validB
    · rw [same.page]
      exact congrArg (· / pageSize) fieldsB.addr
    · rw [same.valid]
      exact fieldsB.valid
    · rw [same.page]
      exact congrArg (· / pageSize) fieldsB.addr
  · exact ⟨balanced, .refl s⟩

/-- So do the leaves of a range. -/
theorem restoreSharedRange_balanced {a b : SpaceId}
    (liveA : (s.space a).live) (liveB : (s.space b).live) :
    Balanced reserved 0 (s.restoreSharedRange a b start stop flags).2 ∧
      SamePages s (s.restoreSharedRange a b start stop flags).2 := by
  unfold restoreSharedRange
  split
  · exact ⟨balanced, .refl s⟩
  refine countUp_keeps (fun now => Balanced reserved 0 now ∧ SamePages s now) _ 0 ?_
    ⟨balanced, .refl s⟩
  intro k now _ _ ⟨good, same⟩
  obtain ⟨next, more⟩ := restoreLeaf_balanced good
    (same.areas.isLive liveA) (same.areas.isLive liveB)
  exact ⟨next, same.trans more⟩

end

/-- A clone has its own reference to every page, or is taken apart. -/
theorem cloneSpace_outcome (distinct : dst ≠ src) (balanced : Balanced reserved 0 s)
    (live : (s.space src).live) (liveDst : (s.space dst).live)
    (bare : (s.space dst).as.rootPa = 0) (vmas : (s.space dst).vmas = .init)
    (roomy : CopyRoomy s src) : CloneOutcome reserved dst s (s.cloneSpace host dst src) := by
  obtain ⟨copied, failed⟩ := cloneCow_balanced distinct balanced live liveDst bare roomy
  unfold cloneSpace
  dsimp only
  split
  · rename_i stopped
    rw [failed stopped]
    have retired := balanced.takeAll liveDst
    rw [vmas, freed, if_pos bare] at retired
    exact ⟨by simpa using retired,
      .of_others rfl fun _ other => retire_others other,
      by simp, fun _ => retire_live_self s dst⟩
  rename_i ok
  obtain ⟨good, kept, rooted⟩ := copied (by simpa using ok)
  generalize (s.cloneCow dst src).2 = tables at good kept rooted
  have liveTables : (tables.space dst).live := (kept.live dst).trans liveDst
  have noAreas : (tables.space dst).vmas = .init := (kept.vmas dst).trans vmas
  have settled := vmaClone_settles host (tables.space src).vmas good.solvent
  unfold cloneVmas
  cases outcome : vmaClone (physVmaHost host) (tables.space src).vmas tables.phys with
  | ok pair =>
    obtain ⟨list, phys⟩ := pair
    rw [outcome] at settled
    obtain ⟨settles, placed⟩ := settled
    have filled := (good.settle settles).setVmas liveTables
      (by rw [space_setPhys, noAreas]; rfl) placed
    refine ⟨filled, kept.around.trans (.of_others rfl fun j other => ?_), fun _ => ?_, by simp⟩
    · simp [setVmas, setSpace, other]
    show (((tables.setPhys phys).setVmas dst list).space dst).live = true ∧
      (((tables.setPhys phys).setVmas dst list).space dst).as.rootPa ≠ 0
    rw [live_setVmas, as_setVmas]
    exact ⟨liveTables, rooted⟩
  | error phys =>
    rw [outcome] at settled
    have undone := (good.settle settled).destroyBare liveTables noAreas
    refine ⟨undone, kept.around.trans (.of_others ?_ fun j other => ?_),
      by simp, fun _ => retire_live_self _ dst⟩
    · exact destroy_cache
    · show (((tables.setPhys phys).destroy dst).retire dst).space j = _
      rw [retire_others other, destroy_others other]
      rfl

/-- The shared areas get their leaves back, by induction over the areas. -/
theorem restoreShared_balanced : ∀ {s : Memory F}, Balanced reserved 0 s →
    (s.space src).live → (s.space dst).live →
    Balanced reserved 0 (restoreShared dst src vmas s).2 ∧
      SamePages s (restoreShared dst src vmas s).2 := by
  induction vmas with
  | nil => exact fun balanced _ _ => ⟨balanced, .refl _⟩
  | cons vma rest ih =>
    intro s balanced live liveDst
    rw [restoreShared]
    split
    · exact ih balanced live liveDst
    obtain ⟨good, same⟩ := restoreSharedRange_balanced balanced live liveDst
    dsimp only
    split
    · obtain ⟨next, more⟩ := ih good (same.areas.isLive live) (same.areas.isLive liveDst)
      exact ⟨next, same.trans more⟩
    · exact ⟨good, same⟩

/-- The whole of `mm_clone_cow`. -/
theorem clone_outcome (tended : Tended reserved s) (roomy : CopyRoomy s (.mm slot)) :
    PageOutcome reserved s (PageOp.apply host s (.clone slot)) := by
  show PageOutcome reserved s ((s.mmCloneCow host slot).1.isSome, (s.mmCloneCow host slot).2)
  unfold mmCloneCow
  split
  · exact .unchanged tended false
  rename_i live
  have live : (s.space (.mm slot)).live := by simpa using live
  split
  · exact .unchanged tended false
  rename_i child opened found
  obtain ⟨free, rfl⟩ := allocMm_eq found
  have distinct : SpaceId.mm child ≠ .mm slot := by
    intro same
    rw [same, live] at free
    contradiction
  set begun := s.setSpace (.mm child) fun _ => { Space.dead with live := true, refcount := 1 }
    with begun_eq
  have others : ∀ j, j ≠ .mm child → begun.space j = s.space j := fun j other => by
    simp [begun_eq, setSpace, other]
  have here : begun.space (.mm child) = ⟨true, 1, .zero, .init⟩ := by
    simp [begun_eq, setSpace, Space.dead]
  have parent := others (.mm slot) distinct.symm
  have ready : Balanced reserved 0 begun := tended.balanced.blankPlace free 1
  have start : Around (.mm child) s begun := .of_others rfl others
  have words : ∀ l i, begun.entry (.mm slot) l i = s.entry (.mm slot) l i := fun l i => by
    rw [entry, entry, parent]
  have room : CopyRoomy begun (.mm slot) := by
    unfold CopyRoomy at roomy ⊢
    simp only [words, parent]
    exact roomy
  have cloned := cloneSpace_outcome host distinct ready (by rw [parent]; exact live)
    (by rw [here]) (by rw [here]; rfl) (by rw [here]) room
  have around := start.trans cloned.around
  dsimp only
  generalize begun.cloneSpace host (.mm child) (.mm slot) = result at cloned around
  split
  · rename_i failed
    exact .gaveUp around tended cloned.balanced free (cloned.refused failed)
  rename_i ok
  obtain ⟨liveChild, rooted⟩ := cloned.copied (by simpa using ok)
  have liveParent : (result.2.space (.mm slot)).live := (around.live _ distinct.symm).trans live
  obtain ⟨good, same⟩ := restoreShared_balanced cloned.balanced liveParent liveChild
  generalize restoreShared (.mm child) (.mm slot) (result.2.space (.mm slot)).vmas.slots
    result.2 = restored at good same
  have later := around.trans (same.around (.mm child))
  split
  · refine .tookPlace later tended good (by simp) ?_
    rw [same.root]
    exact rooted
  · exact .gaveUp (later.trans (discard_around host)) tended
      (good.discard host (same.areas.isLive liveChild)) free
      discard_live_self

/-! ## Every run -/

/-- The whole of a release: all pages of the space are freed. -/
theorem destroy_outcome (tended : Tended reserved s) :
    PageOutcome reserved s (PageOp.apply host s (.destroy slot)) := by
  refine .ifLive tended fun live => ?_
  refine .done ⟨tended.balanced.discard host live, ?_, fun j there => ?_⟩
  · rw [discard_others (by simp)]
    exact tended.idle
  have other : j ≠ .mm slot := by
    rintro rfl
    rw [discard_live_self] at there
    contradiction
  rw [discard_others other] at there ⊢
  exact tended.rooted j there

/-- Every operation that finds what it needs. -/
theorem PageOp.apply_outcome (op : PageOp) (tended : Tended reserved s) (ample : op.Ample s) :
    PageOutcome reserved s (op.apply host s) := by
  cases op with
  | kernel use =>
    exact .done (tended.next
      (tended.balanced.settle (Phys.settles_kernelPage tended.balanced.solvent use))
      fun _ => ⟨rfl, rfl⟩)
  | create => exact create_outcome host tended
  | map slot va position flags =>
    refine .ifLive tended fun live => ?_
    exact mapHeld_outcome tended live ample.1 ample.2 fun pa aligned small =>
      ⟨(mapWord_fields aligned small).valid, (mapWord_fields aligned small).addr⟩
  | mapCow slot va position flags =>
    refine .ifLive tended fun live => ?_
    exact mapHeld_outcome tended live ample.1 ample.2 fun pa aligned small =>
      ⟨(mapCowWord_fields aligned small).valid, (mapCowWord_fields aligned small).addr⟩
  | allocPage slot va flags =>
    exact .ifLive tended fun live => allocPage_outcome tended live ample.1 ample.2
  | clone slot => exact clone_outcome host tended ample
  | cowFault slot va =>
    refine .ifLive tended fun live => ?_
    obtain ⟨good, roots, failed⟩ := handleCowFault_balanced tended.balanced live
    exact ⟨tended.next good roots, fun no _ => by rw [failed no]⟩
  | move slot oldVa newVa =>
    refine .ifLive tended fun live => ?_
    obtain ⟨good, roots, failed⟩ := movePage_balanced tended.balanced live ample
    exact ⟨tended.next good roots, fun no _ => by rw [failed no]⟩
  | unmap slot start stop =>
    refine .ifLive tended fun live => ?_
    obtain ⟨good, roots⟩ := unmapRange_balanced tended.balanced live
    exact .done (tended.next good roots)
  | destroy slot => exact destroy_outcome host tended

/-- The operation succeeds, or leaves the number of free pages as it was unless the rest of the
kernel took or gave back pages meanwhile. -/
def PageOp.LeavesFree (s : Memory F) (op : PageOp) : Prop :=
  (op.apply host s).1 = false → (op.apply host s).2.phys.held = s.phys.held →
    (op.apply host s).2.phys.pmm.freeCount = s.phys.pmm.freeCount

/-- From any memory in balance, along every run of operations that find the pages they need or
none at all: the counter of every page is the number of its owners in every state, and every
operation that fails leaves the number of free pages as it was. -/
theorem page_ownership_balanced (ops : List PageOp) (tended : Tended reserved s)
    (ample : EveryInput (Memory.pageStep host) (fun s op => op.Ample s) s ops) :
    EveryState (Memory.pageStep host) PagesBalanced s ops ∧
      EveryInput (Memory.pageStep host) (PageOp.LeavesFree host) s ops := by
  have states : EveryState (pageStep host) (Tended reserved) s ops :=
    everyState_of_everyInput
      (fun _ op good enough => (op.apply_outcome host good enough).tended) tended ample
  refine ⟨states.mono fun _ good => good.pagesBalanced, ?_⟩
  induction ops generalizing s with
  | nil => trivial
  | cons op rest ih =>
    have outcome := op.apply_outcome host tended ample.1
    exact ⟨outcome.refused, ih outcome.tended ample.2 states.2⟩

/-- Nothing leaks: a page that nobody owns is free. -/
def Memory.Unleaked (reserved : Nat → Prop) (now : Memory F) : Prop :=
  ∀ page, ¬ reserved page → (∀ owner, ¬ now.Owns owner page) → page ∉ now.phys.held →
    now.phys.pmm.used page = false

/-- Along such a run no page is lost: outside the reserved ones, a page that nobody owns and the
kernel does not hold is free. -/
theorem unowned_page_free (ops : List PageOp) (tended : Tended reserved s)
    (ample : EveryInput (Memory.pageStep host) (fun s op => op.Ample s) s ops) :
    EveryState (Memory.pageStep host) (Unleaked reserved) s ops := by
  have states : EveryState (pageStep host) (Tended reserved) s ops :=
    everyState_of_everyInput
      (fun _ op good enough => (op.apply_outcome host good enough).tended) tended ample
  refine states.mono fun now good page ordinary unowned loose => ?_
  apply good.balanced.orderly.clear page ordinary
  have count := good.balanced.counts page
  have nobody : {owner | now.Owns owner page} = ∅ := Set.eq_empty_of_forall_notMem unowned
  rw [nobody, Set.encard_empty, Phys.loose, zero_add, zero_add] at count
  rw [Multiset.count_eq_zero.mpr (by simpa using loose)] at count
  exact_mod_cast count

/-! ## A small machine -/

/-- Memory with some free pages above one megabyte and no process. -/
def spareBoot (free : Nat) : Memory Unit where
  store :=
    { phys :=
        { pmm :=
            { tracked := 256 + free
              used := fun page => decide (page < 256) || decide (256 + free ≤ page)
              refcount := fun _ => 0, freeCount := free, nextFree := 256,
              clear_uncounted := fun _ _ => rfl }
          bytes := fun _ _ => 0, held := [], files := () }
      cache := { entries := [], buckets := [none], clock := 0, evictHand := 0 } }
  space := fun _ => .dead
  mmCapacity := 2

/-- A file system without files. -/
def noFiles : FileHost Unit where
  readUncached := fun _ _ _ _ => ([], ())
  write := fun _ _ data _ => (data.length, (), [])
  writeSealed := fun _ _ => false
  retainNode := fun _ _ => ((), [])
  releaseNode := fun _ _ => ((), [])
  noteSharedWritableMapping := fun _ _ _ => ()

/-- The boot state with so many free pages is tended. -/
theorem spareBoot_tended (free : Nat) (small : free ≤ 2 ^ 35) :
    Tended (fun page => page < 256 ∨ 256 + free ≤ page) (spareBoot free) := by
  have clear : ∀ page, (spareBoot free).phys.pmm.used page = false ↔
      256 ≤ page ∧ page < 256 + free := by
    intro page
    simp [spareBoot]
  have nobody : ∀ owner page, ¬ (spareBoot free).Owns owner page := by
    rintro (owner | cached) page owned
    · cases owner <;> simp [Owns, Store.allRefs, spaceRefs, spareBoot, Space.dead] at owned
    · simp [Owns, Store.allRefs, PageCache.Refs, spareBoot] at owned
  have dead : ∀ id, ¬ ((spareBoot free).space id).live := fun _ live =>
    Bool.false_ne_true live
  refine ⟨⟨fun page => ?_, ⟨⟨?_, fun _ _ => rfl, fun page outside => ?_⟩, ?_, ?_, ?_⟩, ?_, ?_, ?_⟩,
    rfl, ?_⟩
  · have none : {owner | (spareBoot free).Owns owner page} = ∅ :=
      Set.eq_empty_of_forall_notMem fun owner => nobody owner page
    rw [none, Set.encard_empty]
    rfl
  · have pages : (spareBoot free).phys.pmm.clearPages = Finset.Ico 256 (256 + free) := by
      ext page
      rw [Pmm.mem_clearPages, clear, Finset.mem_Ico]
      exact ⟨fun both => both.2, fun inside => ⟨inside.2, inside⟩⟩
    rw [pages, Nat.card_Ico]
    show free = _
    omega
  · have beyond : 256 + free ≤ page := outside
    simp [spareBoot, beyond]
  · exact fun page outside => .inr outside
  · intro page ordinary _
    rw [clear]
    omega
  · rintro page (low | high)
    · exact ⟨by simp [spareBoot, low], rfl⟩
    · exact ⟨by simp [spareBoot, high], rfl⟩
  · exact fun id live => absurd live (dead id)
  · exact fun id live => absurd live (dead id)
  · show 256 + free ≤ 2 ^ 36
    omega
  · exact fun id live => absurd live (dead id)

/-- A process is created and copied; the copy maps, moves and unmaps pages; the first process
is destroyed. -/
def sampleRun : List PageOp :=
  [.create, .clone 0, .allocPage 1 0x10000 3, .kernel .alloc, .map 1 0x11000 0 3,
    .move 1 0x10000 0x12000, .cowFault 1 0x12000, .unmap 1 0x11000 0x12000, .destroy 0]

/-- Twelve pages are enough for that. -/
theorem sampleRun_ample : EveryInput (Memory.pageStep noFiles) (fun s op => op.Ample s)
    (spareBoot 12) sampleRun := by
  have noLeaf : ∀ index, (pageStep noFiles (spareBoot 12) .create).entry (.mm 0) 3 index =
      0 := fun _ => rfl
  refine ⟨trivial, .inl ⟨by decide +kernel, fun index valid => ?_⟩, ?_⟩
  · rw [noLeaf] at valid
    contradiction
  · exact ⟨⟨by decide +kernel, by decide +kernel⟩, trivial,
      ⟨by decide +kernel, .inl (by decide +kernel)⟩, .inl (by decide +kernel), trivial,
      trivial, trivial, trivial⟩

/-- The balance holds in a run over twelve free pages. -/
theorem page_ownership_sample_run :
    EveryState (Memory.pageStep noFiles) PagesBalanced (spareBoot 12) sampleRun ∧
      EveryInput (Memory.pageStep noFiles) (PageOp.LeavesFree noFiles) (spareBoot 12) sampleRun :=
  page_ownership_balanced noFiles sampleRun (spareBoot_tended 12 (by decide)) sampleRun_ample

/-- In that run no page is lost either. -/
theorem unowned_page_free_sample_run : EveryState (Memory.pageStep noFiles)
    (Memory.Unleaked fun page => page < 256 ∨ 268 ≤ page) (spareBoot 12) sampleRun :=
  unowned_page_free noFiles sampleRun (spareBoot_tended 12 (by decide)) sampleRun_ample

/-- With seven pages, a process of four tables and one leaf has two left. A copy of it takes both
and fails at the next one, and nobody gives them back. -/
theorem failed_clone_loses_pages :
    Tended (fun page => page < 256 ∨ 263 ≤ page) (spareBoot 7) ∧
      ¬ EveryInput (Memory.pageStep noFiles) (PageOp.LeavesFree noFiles) (spareBoot 7)
        [.create, .allocPage 0 0x10000 3, .clone 0] := by
  refine ⟨spareBoot_tended 7 (by decide), fun every => ?_⟩
  have last := every.2.2.1
  have same := last (by decide +kernel) (by decide +kernel)
  exact absurd same (by decide +kernel)

end Spore.Mm
