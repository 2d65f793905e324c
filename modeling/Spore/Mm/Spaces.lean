import Spore.Mm.Sound

/-!
# Creating, copying and giving up address spaces

Copies are built beside areas that do not exist yet: while `vmm_clone_cow` fills the tables of
the copy, its leaves are meant to have the rights of the source's areas, and `vma_clone` makes
that true.
-/

namespace Spore.Mm

open Spore.Lib Memory

variable {F : Type} {rule : LeafRule} {attr : SpaceId → Nat → Option AreaRights}
  {hand : Multiset Nat} {s s' : Memory F} {id dst src : SpaceId} {host : FileHost F}
  {slots : List Vma} {slot : Nat}

/-! ## New and retired places -/

/-- Leaves of address spaces other than one keep their rights, and the one has no leaves that
matter. -/
theorem Sound.besides (s : Memory F) (id : SpaceId) (inv : Disciplined rule attr 0 s')
    (others : ∀ j, j ≠ id → SameSpace (s.space j) (s'.space j) ∧
        ∀ index, attr j index = areaRights s j index)
    (here : (s'.space id).live → Regular (s'.space id).vmas ∧
      (s'.space id).as.mmapBase % pageSize = 0 ∧
      ∀ index, isValid (s'.entry id 3 index) → attr id index = areaRights s' id index)
    (regular : Regulars s) (based : Based s) : Sound rule s' := by
  refine ⟨inv.reattr fun j index live valid => ?_, fun j live => ?_, fun j live => ?_⟩
  · by_cases at_ : j = id
    · subst at_
      exact ((here live).2.2 index valid).symm
    · obtain ⟨same, meant⟩ := others j at_
      rw [meant, areaRights, same.vmas]
      rfl
  · by_cases at_ : j = id
    · subst at_
      exact (here live).1
    · obtain ⟨same, -⟩ := others j at_
      rw [same.vmas]
      exact regular j (same.live.symm.trans live)
  · by_cases at_ : j = id
    · subst at_
      exact (here live).2.1
    · obtain ⟨same, -⟩ := others j at_
      rw [same.base]
      exact based j (same.live.symm.trans live)

/-- A place without tables. -/
structure Blank (space : Space) : Prop where
  /-- No word is set. -/
  entries : ∀ level index, space.as.entry level index = 0
  /-- There is no root. -/
  rootPa : space.as.rootPa = 0
  /-- There are no areas. -/
  vmas : space.vmas = .init
  /-- There is no base. -/
  base : space.as.mmapBase = 0

/-- A blank address space may be put anywhere. -/
theorem blank_sound {space : Space} (blank : Blank space) (sound : Sound rule s) (id : SpaceId) :
    Sound rule (s.setSpace id fun _ => space) := by
  have self : (s.setSpace id fun _ => space).space id = space := by simp [setSpace]
  have other : ∀ j, j ≠ id → (s.setSpace id fun _ => space).space j = s.space j := by
    intro j different
    simp [setSpace, different]
  have emptied : Emptied id s (s.setSpace id fun _ => space) :=
    ⟨rfl, other, fun l i => by rw [self]; exact blank.entries l i, by rw [self, blank.vmas]; rfl⟩
  have inv := sound.disciplined.blank emptied (by rw [self]; exact blank.rootPa)
  refine .besides s id inv (fun j different => ?_) (fun _ => ?_) sound.regular sound.based
  · exact ⟨.of_eq (other j different), fun _ => rfl⟩
  · rw [self, blank.vmas, blank.base]
    exact ⟨regular_init, rfl, fun index valid => absurd valid emptied.not_valid⟩

/-- An address space is given up and its memory may be anything that keeps the accounts. -/
theorem retired_sound (sound : Sound rule s) (inv : Disciplined rule attr 0 s')
    (gone : (s'.space id).live = false) (others : ∀ j, j ≠ id → SameSpace (s.space j) (s'.space j))
    (meant : ∀ j, j ≠ id → ∀ index, attr j index = areaRights s j index) : Sound rule s' :=
  .besides s id inv (fun j different => ⟨others j different, meant j different⟩)
    (fun live => by rw [gone] at live; contradiction) sound.regular sound.based

/-- A discarded space leaves the others sound. -/
theorem discard_sound (sound : Sound rule s) (live : (s.space id).live) :
    Sound rule (s.discard host id) :=
  retired_sound sound (sound.disciplined.discard host live) discard_live_self
    (fun _ other => .of_eq (discard_others other)) fun _ _ _ => rfl

/-! ## Copies -/

/-- What `vmm_clone_cow` leaves alone. -/
structure TablesCopied (dst src : SpaceId) (s s' : Memory F) : Prop where
  /-- The other spaces stay. -/
  others : ∀ j, j ≠ dst → SameSpace (s.space j) (s'.space j)
  /-- The copy is as live as it was. -/
  live : (s'.space dst).live = (s.space dst).live
  /-- Areas come later. -/
  vmas : (s'.space dst).vmas = (s.space dst).vmas
  /-- The base stays or is copied. -/
  base : (s'.space dst).as.mmapBase = (s.space dst).as.mmapBase ∨
    (s'.space dst).as.mmapBase = (s.space src).as.mmapBase

/-- `vmm_clone_cow` fills the tables of a place without areas. -/
theorem cloneCow_spec (inv : Disciplined rule attr hand s) (live : (s.space src).live)
    (alike : attr dst = attr src) (noAreas : (s.space dst).vmas = .init) :
    Disciplined rule attr hand (s.cloneCow dst src).2 ∧
      TablesCopied dst src s (s.cloneCow dst src).2 := by
  unfold cloneCow
  split
  · exact ⟨inv, fun _ _ => .of_eq rfl, rfl, rfl, .inl rfl⟩
  rename_i pa phys found
  obtain ⟨traded, -, -, -⟩ := Phys.trades_allocZeroPage inv.accounts found
  set now := (s.setPhys phys).setSpace dst fun space => { space with
    as := { (s.space src).as with rootPa := pa, entry := fun _ _ => 0 } } with now_eq
  have rooted : Disciplined rule attr hand now := by
    refine (inv.tradePhys traded).root
      (show Emptied dst _ _ from ⟨rfl, fun j other => ?_, fun l i => ?_, ?_⟩) ?_
    · simp [now_eq, setSpace, other]
    · simp [now_eq, setSpace]
    · simp [now_eq, setSpace, noAreas, VmaList.init]
    · simp [now_eq, setSpace]
  have copied : TablesCopied dst src s now := by
    refine ⟨fun j other => .of_eq ?_, ?_, ?_, .inr ?_⟩
    · simp [now_eq, setSpace, other]
    · simp [now_eq, setSpace]
    · simp [now_eq, setSpace]
    · simp [now_eq, setSpace]
  have srcLive : (now.space src).live := by
    by_cases here : src = dst
    · subst here
      exact copied.live.trans live
    · exact (copied.others src here).live.trans live
  obtain ⟨done, clones⟩ := cloneTable_spec alike 3 0 0 rfl rooted srcLive fun l same => by omega
  have areas := clones.areas
  refine ⟨done, fun j other => (copied.others j other).trans (areas.space j),
    (areas.live dst).trans copied.live, (areas.vmas dst).trans copied.vmas, ?_⟩
  rw [areas.base]
  exact copied.base

/-- `vma_clone` gives a place without areas the areas of the source. -/
theorem cloneVmas_spec (inv : Disciplined rule attr hand s) (live : (s.space dst).live)
    (noAreas : (s.space dst).vmas = .init) (tidy : vmaView.Tidy (s.space src).vmas.slots) :
    Disciplined rule attr hand (s.cloneVmas host dst src).2 ∧
      ((s.cloneVmas host dst src).1 →
        Recast dst (attrsAt (s.space src).vmas) s (s.cloneVmas host dst src).2) ∧
      ((s.cloneVmas host dst src).1 = false → SameAreas s (s.cloneVmas host dst src).2) := by
  have taken := inv.takeChunks live
  have noChunks : (s.space dst).vmas.pages = 0 := by rw [noAreas]; rfl
  have start := taken
  rw [noChunks, zero_add] at start
  have traded := vmaClone_trades host (s.space src).vmas start
  have tradedAll := vmaClone_trades host (s.space src).vmas inv.accounts
  unfold cloneVmas
  cases cloned : vmaClone (physVmaHost host) (s.space src).vmas s.phys with
  | ok result =>
    obtain ⟨list, phys⟩ := result
    rw [cloned] at traded
    obtain ⟨tidy', same⟩ := vmaClone_outcome cloned tidy
    refine ⟨inv.replaceVmas live ?_, fun _ => ?_, by simp⟩
    · rw [ListTrades, noChunks, zero_add]
      exact traded
    exact
      { live := Memory.live_setVmas list
        others := fun j other => Memory.vmas_setVmas_ne other
        map := by dsimp only; rw [Memory.vmas_setVmas_self]; exact same
        tidy := by dsimp only; rw [Memory.vmas_setVmas_self]; exact tidy'
        entry := by funext j l i; exact Memory.entry_setVmas _
        base := fun j => congrArg UserAddressSpace.mmapBase (Memory.as_setVmas _) }
  | error phys =>
    rw [cloned] at tradedAll
    exact ⟨inv.tradePhys tradedAll, by simp, fun _ => .setPhys phys⟩

/-- `vmm_destroy` of a place without areas that is then given up. -/
theorem destroy_retire_inv (inv : Disciplined rule attr hand s) (live : (s.space id).live)
    (noAreas : (s.space id).vmas = .init) :
    Disciplined rule attr hand ((s.destroy id).retire id) := by
  have destroyed := inv.destroy live
  rw [noAreas, VmaList.pages_init, zero_add] at destroyed
  refine destroyed.spaces ?_ fun j live' => ?_
  · show (s.destroy id).store = Store.mk (s.destroy id).store.phys s.store.cache
    rw [← destroy_cache]
  have other : j ≠ id := by
    rintro rfl
    rw [retire_live_self] at live'
    contradiction
  rw [retire_others other, destroy_others other] at live' ⊢
  show ((s.retire id).space j).live = true ∧ SameTables ((s.retire id).space j) _
  rw [retire_others other]
  exact ⟨live', .refl _⟩

/-- The rights that leaves are meant to have while a copy is made. -/
def twin (s : Memory F) (dst src : SpaceId) : SpaceId → Nat → Option AreaRights :=
  fun j => if j = dst then areaRights s src else areaRights s j

/-- What copying an address space into a blank place does. -/
structure Copies (rule : LeafRule) (dst src : SpaceId) (s : Memory F) (result : Bool × Memory F) :
    Prop where
  /-- The memory stays sound. -/
  sound : Sound rule result.2
  /-- The other spaces stay. -/
  others : ∀ j, j ≠ dst → SameSpace (s.space j) (result.2.space j)
  /-- The copy has the areas of the source. -/
  copied : result.1 = true → (result.2.space dst).live = true ∧
    attrsAt (result.2.space dst).vmas = attrsAt (s.space src).vmas
  /-- A failed copy is gone. -/
  refused : result.1 = false → (result.2.space dst).live = false

/-- A clone has the areas and rights of its source, or fails. -/
theorem cloneSpace_spec (host : FileHost F) (sound : Sound rule s)
    (live : (s.space src).live) (dstLive : (s.space dst).live)
    (distinct : src ≠ dst) (blank : Blank (s.space dst)) :
    Copies rule dst src s (s.cloneSpace host dst src) := by
  have start : Disciplined rule (twin s dst src) 0 s := by
    refine sound.disciplined.reattr fun j index _ valid => ?_
    have other : j ≠ dst := by
      rintro rfl
      rw [Memory.entry, blank.entries] at valid
      contradiction
    simp [twin, other]
  have alike : twin s dst src dst = twin s dst src src := by simp [twin, distinct]
  have meant : ∀ j, j ≠ dst → ∀ index, twin s dst src j index = areaRights s j index := by
    intro j other index
    simp [twin, other]
  obtain ⟨inv, same⟩ := cloneCow_spec start live alike blank.vmas
  unfold cloneSpace
  dsimp only
  generalize s.cloneCow dst src = tables at inv same
  have dstLive' : (tables.2.space dst).live := same.live.trans dstLive
  have based : (tables.2.space dst).as.mmapBase % pageSize = 0 := by
    rcases same.base with own | copied
    · rw [own]
      exact sound.based dst dstLive
    · rw [copied]
      exact sound.based src live
  split
  · have kept : ∀ j, j ≠ dst → SameSpace (s.space j) ((tables.2.retire dst).space j) := by
      intro j other
      rw [retire_others other]
      exact same.others j other
    exact ⟨retired_sound sound inv.retire (retire_live_self _ _) kept meant, kept,
      by simp, fun _ => retire_live_self _ _⟩
  have noAreas : (tables.2.space dst).vmas = .init := same.vmas.trans blank.vmas
  have srcVmas := (same.others src distinct).vmas
  have tidy : vmaView.Tidy (tables.2.space src).vmas.slots := by
    rw [srcVmas]
    exact (sound.regular src live).tidy
  obtain ⟨inv', granted, refused⟩ := cloneVmas_spec inv dstLive' noAreas tidy
  generalize tables.2.cloneVmas host dst src = areas at inv' granted refused
  split
  · rename_i failed
    have unchanged := refused failed
    have kept : ∀ j, j ≠ dst →
        SameSpace (s.space j) (((areas.2.destroy dst).retire dst).space j) := by
      intro j other
      rw [retire_others other, destroy_others other]
      exact (same.others j other).trans (unchanged.space j)
    have gone := destroy_retire_inv inv' (unchanged.isLive dstLive')
      ((unchanged.vmas dst).trans noAreas)
    exact ⟨retired_sound sound gone (retire_live_self _ _) kept meant, kept,
      by simp, fun _ => retire_live_self _ _⟩
  · rename_i ok
    have recast := granted (by simpa using ok)
    rw [srcVmas] at recast
    have dstNow : (areas.2.space dst).live := (recast.live dst).trans dstLive'
    have kept : ∀ j, j ≠ dst → SameSpace (s.space j) (areas.2.space j) := fun j other =>
      (same.others j other).trans ⟨recast.live j, recast.others j other, recast.base j⟩
    refine ⟨.besides s dst inv' (fun j other => ⟨kept j other, meant j other⟩)
      (fun _ => ⟨?_, ?_, fun index _ => ?_⟩) sound.regular sound.based, kept,
      fun _ => ⟨dstNow, recast.map⟩, by simp⟩
    · exact ⟨recast.tidy, recast.map ▸ (sound.regular src live).paged⟩
    · rw [recast.base]
      exact based
    · rw [areaRights, recast.map]
      simp [twin, areaRights]

/-- A slot taken from a table of slots. -/
structure Taken (id : SpaceId) (s s' : Memory F) : Prop where
  /-- The slot was free. -/
  free : (s.space id).live = false
  /-- It is taken. -/
  live : (s'.space id).live = true
  /-- It is blank. -/
  blank : Blank (s'.space id)
  /-- The others stay. -/
  others : ∀ j, j ≠ id → s'.space j = s.space j

/-- A space that was just taken is blank. -/
theorem blank_dead {live : Bool} {refcount : Nat} : Blank { Space.dead with live, refcount } :=
  ⟨fun _ _ => rfl, rfl, rfl, rfl⟩

/-- Putting a live blank space in a free place. -/
theorem taken_setSpace {space : Space} (blank : Blank space) (live : space.live)
    (free : (s.space id).live = false) : Taken id s (s.setSpace id fun _ => space) := by
  have self : (s.setSpace id fun _ => space).space id = space := by simp [setSpace]
  refine ⟨free, by rw [self]; exact live, by rw [self]; exact blank, fun j other => ?_⟩
  simp [setSpace, other]

/-- `alloc_mm` finds a place that is not in use and puts a blank address space there. -/
theorem allocMm_eq (found : s.allocMm = some (slot, s')) :
    (s.space (.mm slot)).live = false ∧
      s' = s.setSpace (.mm slot) fun _ => { Space.dead with live := true, refcount := 1 } := by
  unfold allocMm at found
  split at found
  · contradiction
  · rename_i free
    cases found
    exact ⟨by simpa using List.find?_some free, rfl⟩

/-- A slot is taken for a space. -/
theorem allocMm_spec (sound : Sound rule s) (found : s.allocMm = some (slot, s')) :
    Sound rule s' ∧ Taken (.mm slot) s s' := by
  obtain ⟨free, rfl⟩ := allocMm_eq found
  exact ⟨blank_sound blank_dead sound _, taken_setSpace blank_dead rfl free⟩

/-- A slot is taken for a snapshot. -/
theorem allocSnapshot_spec (sound : Sound rule s) (found : s.allocSnapshot = some (slot, s')) :
    Sound rule s' ∧ Taken (.snapshot slot) s s' := by
  unfold allocSnapshot at found
  split at found
  · contradiction
  rename_i free
  cases found
  refine ⟨blank_sound blank_dead sound _, taken_setSpace blank_dead rfl ?_⟩
  simpa using List.find?_some free

/-- A live place is not the one just taken. -/
theorem Taken.distinct (taken : Taken id s s') (live : (s.space src).live) : src ≠ id := by
  rintro rfl
  rw [taken.free] at live
  contradiction

/-! ## Forks -/

/-- The leaves of a shared area get the rights of the area back, in both address spaces. -/
theorem restoreShared_spec (liveA : (s.space src).live) (liveB : (s.space dst).live)
    (alike : attrsAt (s.space dst).vmas = attrsAt (s.space src).vmas)
    (subset : ∀ vma ∈ slots, vma ∈ (s.space src).vmas.slots) : ∀ (now : Memory F),
      Sound rule now → SameAreas s now →
        Sound rule (restoreShared dst src slots now).2 ∧
          SameAreas s (restoreShared dst src slots now).2 := by
  induction slots with
  | nil => exact fun _ sound same => ⟨sound, same⟩
  | cons vma rest ih =>
    intro now sound same
    have next := ih fun vma member => subset vma (List.mem_cons_of_mem _ member)
    rw [restoreShared]
    split
    · exact next _ sound same
    rename_i isShared
    simp only [vmaIsShared, Bool.and_eq_false_iff, decide_eq_false_iff_not, not_or,
      Bool.not_eq_false, not_not] at isShared
    have nowA := same.isLive liveA
    have nowB := same.isLive liveB
    have regularA := sound.regular src nowA
    have regularB := sound.regular dst nowB
    have covered : ∀ k < rounds vma.start vma.stop,
        attrsAt (now.space src).vmas (vma.start + k * pageSize) = some vma.attrs := by
      intro k before
      rw [attrsAt_eq]
      refine (regularA.tidy.valueAt_eq_some _).mpr ⟨vma, ?_, ⟨isShared.1, ?_, ?_⟩, rfl⟩
      · rw [same.vmas]
        exact subset vma List.mem_cons_self
      · exact Nat.le_add_right _ _
      · exact lt_of_lt_rounds before
    have restored := restoreSharedRange_spec sound.disciplined nowA nowB (fun k before =>
      ⟨areaRights_of_attrsAt regularA (covered k before), areaRights_of_attrsAt regularB (by
        rw [same.vmas, alike, ← same.vmas]
        exact covered k before)⟩) rfl isShared.2
    have areas := SameAreas.restoreSharedRange now src dst vma.start vma.stop vma.prot
    dsimp only
    split
    · exact next _ (sound.keep ⟨restored, areas⟩) (same.trans areas)
    · exact ⟨sound.keep ⟨restored, areas⟩, same.trans areas⟩

/-- A copy beside what was there. -/
theorem Copies.stays {result : Bool × Memory F} {start : Memory F}
    (copies : Copies rule dst src start result) (taken : Taken dst s start) :
    ∀ j, j ≠ dst → SameSpace (s.space j) (result.2.space j) :=
  fun j other => (SameSpace.of_eq (taken.others j other)).trans (copies.others j other)

/-- `mm_clone_cow` makes a sound space, or none. -/
theorem mmCloneCow_sound (host : FileHost F) (slot : Nat) (sound : Sound rule s) :
    Sound rule (s.mmCloneCow host slot).2 ∧ Joins s (s.mmCloneCow host slot).2 := by
  unfold mmCloneCow
  split
  · exact ⟨sound, .refl s⟩
  rename_i live
  have live : (s.space (.mm slot)).live := by simpa using live
  split
  · exact ⟨sound, .refl s⟩
  rename_i child start found
  obtain ⟨begun, taken⟩ := allocMm_spec sound found
  have distinct := taken.distinct live
  have copies := cloneSpace_spec host begun (by rw [taken.others _ distinct]; exact live)
    taken.live distinct taken.blank
  have others := copies.stays taken
  dsimp only
  generalize start.cloneSpace host (.mm child) (.mm slot) = cloned at copies others
  split
  · exact ⟨copies.sound, .besides taken.free (by simp) others⟩
  rename_i ok
  obtain ⟨childLive, alike⟩ := copies.copied (by simpa using ok)
  have parentLive : (cloned.2.space (.mm slot)).live := (others _ distinct).live.trans live
  have same : attrsAt (cloned.2.space (.mm child)).vmas =
      attrsAt (cloned.2.space (.mm slot)).vmas := by
    rw [alike, (copies.others _ distinct).vmas]
  obtain ⟨restored, areas⟩ := restoreShared_spec parentLive childLive same
    (fun _ member => member) _ copies.sound (.refl _)
  have kept j (other : j ≠ .mm child) := (others j other).trans (areas.space j)
  split
  · exact ⟨restored, .besides taken.free (by simp) kept⟩
  refine ⟨discard_sound restored (areas.isLive childLive),
    .besides taken.free (by simp) fun j other => ?_⟩
  rw [discard_others other]
  exact kept j other

/-- So does a snapshot. -/
theorem snapshotCreate_sound (slot : Nat) (sound : Sound rule s) :
    Sound rule (s.snapshotCreate host slot).2 ∧ Joins s (s.snapshotCreate host slot).2 := by
  unfold snapshotCreate
  split
  · exact ⟨sound, .refl s⟩
  rename_i snapshot start found
  obtain ⟨begun, taken⟩ := allocSnapshot_spec sound found
  split
  · have kept : ∀ j, j ≠ .snapshot snapshot →
        SameSpace (start.space j) ((start.retire (.snapshot snapshot)).space j) :=
      fun j other => .of_eq (retire_others other)
    exact ⟨retired_sound begun begun.disciplined.retire (retire_live_self _ _) kept
      fun _ _ _ => rfl, .besides taken.free (by simp) fun j other =>
        (SameSpace.of_eq (taken.others j other)).trans (kept j other)⟩
  · rename_i live
    have live : (start.space (.mm slot)).live := by simpa using live
    have copies := cloneSpace_spec host begun live taken.live (by simp) taken.blank
    exact ⟨copies.sound, .besides taken.free (by simp) (copies.stays taken)⟩

/-! ## Images -/

/-- The image becomes an address space of a process. -/
structure Adopted (rule : LeafRule) (slot : Nat) (s s' : Memory F) : Prop where
  /-- The memory stays sound. -/
  sound : Sound rule s'
  /-- The slot was free. -/
  free : (s.space (.mm slot)).live = false
  /-- The image is gone. -/
  gone : (s'.space .image).live = false
  /-- The others stay. -/
  others : ∀ j, j ≠ .image → j ≠ .mm slot → s'.space j = s.space j

/-- `cell_mm_from_owned` moves the image to a free place, if there is one. -/
theorem mmFromOwned_cases (s : Memory F) : s.mmFromOwned = (none, s) ∨
    ∃ slot s', s.mmFromOwned = (some slot, s') ∧ (s.space (.mm slot)).live = false ∧
      s'.store = s.store ∧ s'.space .image = .dead ∧
      s'.space (.mm slot) = ⟨true, 1, (s.space .image).as, (s.space .image).vmas⟩ ∧
      ∀ j, j ≠ .image → j ≠ .mm slot → s'.space j = s.space j := by
  unfold mmFromOwned
  cases alloc : s.allocMm with
  | none => exact .inl rfl
  | some result =>
    obtain ⟨slot, next⟩ := result
    obtain ⟨free, rfl⟩ := allocMm_eq alloc
    refine .inr ⟨slot, _, rfl, free, rfl, by simp [setSpace], by simp [setSpace, Space.dead], ?_⟩
    intro j notImage notSlot
    simp [setSpace, notImage, notSlot]

/-- The image becomes a space of the table. -/
theorem mmFromOwned_some (sound : Sound rule s) (live : (s.space .image).live)
    (found : s.mmFromOwned.1 = some slot) : Adopted rule slot s s.mmFromOwned.2 := by
  rcases mmFromOwned_cases s with none | ⟨place, s', made, free, store, atImage, atSlot, others⟩
  · rw [none] at found
    contradiction
  · rw [made] at found ⊢
    obtain rfl := Option.some.inj found
    refine ⟨?_, free, by rw [atImage]; rfl, others⟩
    have inv : Disciplined rule (areaRights s') 0 s' := by
      refine sound.disciplined.move store (by simp) live (by rw [atImage]; rfl)
        ⟨by rw [atSlot], by rw [atSlot], by rw [atSlot]⟩ others ?_ ?_
      · funext index
        rw [areaRights, atSlot]
        rfl
      · intro j notImage notSlot
        funext index
        rw [areaRights, others j notImage notSlot]
        rfl
    -- Every live address space is one of before, under its name or at the image's place.
    have origin : ∀ j, (s'.space j).live → ∃ i, (s.space i).live ∧
        (s'.space j).vmas = (s.space i).vmas ∧
        (s'.space j).as.mmapBase = (s.space i).as.mmapBase := by
      intro j live'
      by_cases notImage : j = .image
      · subst notImage
        rw [atImage] at live'
        contradiction
      by_cases notSlot : j = .mm place
      · subst notSlot
        exact ⟨.image, live, by rw [atSlot], by rw [atSlot]⟩
      · have same := others j notImage notSlot
        exact ⟨j, same ▸ live', congrArg _ same, by rw [same]⟩
    refine ⟨inv, fun j live' => ?_, fun j live' => ?_⟩
    · obtain ⟨i, was, vmas, -⟩ := origin j live'
      rw [vmas]
      exact sound.regular i was
    · obtain ⟨i, was, -, base⟩ := origin j live'
      rw [base]
      exact sound.based i was

/-- A full table adopts nothing. -/
theorem mmFromOwned_none (none : s.mmFromOwned.1 = none) : s.mmFromOwned.2 = s := by
  rcases mmFromOwned_cases s with same | ⟨_, _, made, -⟩
  · rw [same]
  · rw [made] at none
    contradiction

/-- The image is adopted or given up. -/
def Memory.adopt (host : FileHost F) (s : Memory F) : Option Nat × Memory F :=
  match s.mmFromOwned.1 with
  | some slot => (some slot, s.mmFromOwned.2)
  | none => (none, s.mmFromOwned.2.discard host .image)

/-- What building an image beside the live address spaces ends in. -/
structure Settles (rule : LeafRule) (s s' : Memory F) : Prop where
  /-- The memory stays sound. -/
  sound : Sound rule s'
  /-- The image is gone. -/
  gone : (s'.space .image).live = false
  /-- The other spaces stay. -/
  stays : ∀ j, j ≠ .image → (s.space j).live = true →
    (s'.space j).live = true ∧ (s'.space j).vmas = (s.space j).vmas

/-- The image is adopted or discarded. -/
theorem adopt_settles (host : FileHost F) (sound : Sound rule s)
    (live : (s.space .image).live) : Settles rule s (s.adopt host).2 := by
  unfold Memory.adopt
  cases found : s.mmFromOwned.1 with
  | some slot =>
    have adopted := mmFromOwned_some sound live found
    refine ⟨adopted.sound, adopted.gone, fun j notImage live' => ?_⟩
    have notSlot : j ≠ .mm slot := by
      rintro rfl
      rw [adopted.free] at live'
      contradiction
    rw [adopted.others j notImage notSlot]
    exact ⟨live', rfl⟩
  | none =>
    rw [mmFromOwned_none found]
    refine ⟨discard_sound sound live, discard_live_self, fun j notImage live' => ?_⟩
    rw [discard_others notImage]
    exact ⟨live', rfl⟩

/-- What the steps before did to the other spaces is settled too. -/
theorem Settles.after {s'' : Memory F} (settles : Settles rule s' s'')
    (before : ∀ j, j ≠ .image → (s.space j).live →
      (s'.space j).live ∧ (s'.space j).vmas = (s.space j).vmas) : Settles rule s s'' := by
  refine ⟨settles.sound, settles.gone, fun j notImage live => ?_⟩
  obtain ⟨live', same⟩ := before j notImage live
  obtain ⟨live'', same'⟩ := settles.stays j notImage live'
  exact ⟨live'', same'.trans same⟩

/-- When no image was under construction, the others are all. -/
theorem Settles.all (settles : Settles rule s s') (idle : (s.space .image).live = false) :
    Stays s s' := by
  intro j live
  refine settles.stays j ?_ live
  rintro rfl
  rw [idle] at live
  contradiction

/-- The address-space part of `snapshot_spawn`. -/
theorem snapshotSpawn_settles (host : FileHost F) (slot : Nat) (sound : Sound rule s)
    (idle : (s.space .image).live = false) : Settles rule s (s.snapshotSpawn host slot).2 := by
  unfold snapshotSpawn
  split
  · exact ⟨sound, idle, fun _ _ live => ⟨live, rfl⟩⟩
  rename_i live
  have live : (s.space (.snapshot slot)).live := by simpa using live
  have taken : Taken .image s (s.setSpace .image fun _ => { Space.dead with live := true }) :=
    taken_setSpace blank_dead rfl idle
  have begun : Sound rule (s.setSpace .image fun _ => { Space.dead with live := true }) :=
    blank_sound blank_dead sound .image
  have copies := cloneSpace_spec host begun
    (show _ = true by rw [taken.others (.snapshot slot) (by simp)]; exact live) taken.live
    (by simp) taken.blank
  have others := copies.stays taken
  dsimp only
  generalize Memory.cloneSpace host _ .image (.snapshot slot) = cloned at copies others
  have before : ∀ j, j ≠ .image → (s.space j).live →
      (cloned.2.space j).live = true ∧ (cloned.2.space j).vmas = (s.space j).vmas :=
    fun j notImage live' => ⟨(others j notImage).live.trans live', (others j notImage).vmas⟩
  split
  · rename_i failed
    exact ⟨copies.sound, copies.refused failed, before⟩
  rename_i ok
  have imageLive := (copies.copied (by simpa using ok)).1
  have settled := (adopt_settles host copies.sound imageLive).after before
  unfold Memory.adopt at settled
  split <;> rename_i found <;> rw [found] at settled <;> exact settled

end Spore.Mm
