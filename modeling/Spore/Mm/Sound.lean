import Spore.Mm.Paging

/-!
# Sound memory

Between two steps of the system every leaf obeys the rule with the rights of the area it lies
in, and areas consist of whole pages of the 48-bit user space. This module proves that the
functions of `proc/memory.c` and `proc/snapshot.c` lead from sound memory to sound memory.
-/

namespace Spore.Mm

open Spore.Lib Memory

variable {F Owner : Type} {rule : LeafRule} {s s' s'' : Memory F} {id j : SpaceId} {list : VmaList}
  {vma : Vma} {start stop va page index len fuel far fileStart fileOffset fileSize : Nat}
  {prot flags : UInt32} {map : Nat → Option VmaAttrs} {attr : SpaceId → Nat → Option AreaRights}
  {hand : Multiset Nat} {call : VmaList → Phys F → Bool × VmaList × Phys F}
  {update : (Nat → Option VmaAttrs) → Nat → Option VmaAttrs} {attrs : Option VmaAttrs}
  {access : VmmAccess} {type : VmaType} {phys : Phys F} {outer : Owner → Nat → Prop}

/-- A map of areas that consist of whole pages of the user space. -/
structure Paged (map : Nat → Option VmaAttrs) : Prop where
  /-- All of a page has the same rights. -/
  whole : ∀ va, map va = map (va - va % pageSize)
  /-- Nothing lies beyond the limit. -/
  low : ∀ va, 2 ^ 48 ≤ va → map va = none

/-- Replacing a range of whole pages keeps pages whole. -/
theorem Paged.overwrite {map : Nat → Option VmaAttrs} (paged : Paged map) {start stop : Nat}
    {change : Option VmaAttrs → Option VmaAttrs} (startAligned : start % pageSize = 0)
    (stopAligned : stop % pageSize = 0) (bounded : stop ≤ 2 ^ 48 ∨ change none = none) :
    Paged (overwrite map start stop change) := by
  constructor
  · intro va
    unfold Spore.Lib.overwrite
    have same : (start ≤ va ∧ va < stop) ↔
        (start ≤ va - va % pageSize ∧ va - va % pageSize < stop) := by
      simp only [pageSize] at *
      omega
    simp only [same, ← paged.whole va]
  · intro va high
    unfold Spore.Lib.overwrite
    have none := paged.low va high
    split
    · rename_i inside
      rcases bounded with below | keeps
      · omega
      · rw [none, keeps]
    · exact none

/-- An area list that is tidy and consists of whole pages. -/
structure Regular (list : VmaList) : Prop where
  /-- The areas are disjoint. -/
  tidy : vmaView.Tidy list.slots
  /-- They are of whole pages. -/
  paged : Paged (attrsAt list)

/-- An empty list is regular. -/
theorem regular_init : Regular VmaList.init := ⟨.nil, ⟨fun _ => rfl, fun _ _ => rfl⟩⟩

/-- The rights of the area that a page lies in. -/
def areaRights (s : Memory F) (id : SpaceId) (index : Nat) : Option AreaRights :=
  (attrsAt (s.space id).vmas (index * pageSize)).map VmaAttrs.rights

/-- The areas of all address spaces are regular. -/
def Regulars (s : Memory F) : Prop := ∀ id, (s.space id).live = true → Regular (s.space id).vmas

/-- The place for new areas is the start of a page. -/
def Based (s : Memory F) : Prop :=
  ∀ id, (s.space id).live = true → (s.space id).as.mmapBase % pageSize = 0

/-- Every leaf obeys the rule with the rights of its area. -/
structure Sound (rule : LeafRule) (s : Memory F) : Prop where
  /-- The leaves keep to the areas. -/
  disciplined : Disciplined rule (areaRights s) 0 s
  /-- The areas are regular. -/
  regular : Regulars s
  /-- The bases are those of pages. -/
  based : Based s

/-- The same areas give the same rights. -/
theorem SameAreas.areaRights (same : SameAreas s s') : areaRights s' = areaRights s := by
  funext id index
  unfold Mm.areaRights
  rw [same.vmas]

/-- The same areas are as regular. -/
theorem SameAreas.regulars (same : SameAreas s s') (regular : Regulars s) : Regulars s' := by
  intro id live
  rw [same.vmas]
  exact regular id ((same.live id).symm.trans live)

/-- The same base is as fine. -/
theorem SameAreas.bases (same : SameAreas s s') (based : Based s) : Based s' := by
  intro id live
  rw [same.base]
  exact based id ((same.live id).symm.trans live)

/-- A step that leaves areas alone and leaves obeying keeps memory sound. -/
theorem Sound.keep (sound : Sound rule s)
    (kept : Disciplined rule (areaRights s) 0 s' ∧ SameAreas s s') : Sound rule s' := by
  refine ⟨?_, kept.2.regulars sound.regular, kept.2.bases sound.based⟩
  rw [kept.2.areaRights]
  exact kept.1

/-- An area lets user code write at an address. -/
def WritableAt (s : Memory F) (id : SpaceId) (va : Nat) : Prop :=
  ∃ attrs, attrsAt (s.space id).vmas va = some attrs ∧ grantsWrite attrs.prot = true

/-- A step on one address space: memory is sound after it, the same address spaces are live, the
areas of the others stay, and no address where the step is `quiet` becomes writable. -/
structure Acts (rule : LeafRule) (id : SpaceId) (quiet : Nat → Prop) (s s' : Memory F) : Prop where
  /-- The memory stays sound. -/
  sound : Sound rule s'
  /-- No space comes or goes. -/
  live : ∀ j, (s'.space j).live = (s.space j).live
  /-- Other spaces keep their areas. -/
  others : ∀ j, j ≠ id → (s'.space j).vmas = (s.space j).vmas
  /-- A quiet address gets no right to write. -/
  calm : ∀ va, quiet va → WritableAt s' id va → WritableAt s id va

namespace Acts

variable {quiet quiet' : Nat → Prop}

/-- A call that does nothing. -/
theorem refl (sound : Sound rule s) : Acts rule id quiet s s :=
  ⟨sound, fun _ => rfl, fun _ _ => rfl, fun _ _ writable => writable⟩

/-- Two calls, one after the other. -/
theorem trans (first : Acts rule id quiet s s') (second : Acts rule id quiet s' s'') :
    Acts rule id quiet s s'' :=
  ⟨second.sound, fun j => (second.live j).trans (first.live j),
    fun j other => (second.others j other).trans (first.others j other),
    fun va calm writable => first.calm va calm (second.calm va calm writable)⟩

/-- Fewer addresses are left quiet. -/
theorem mono (acts : Acts rule id quiet s s') (weaker : ∀ va, quiet' va → quiet va) :
    Acts rule id quiet' s s' :=
  ⟨acts.sound, acts.live, acts.others, fun va calm => acts.calm va (weaker va calm)⟩

/-- A live space stays live. -/
theorem isLive (acts : Acts rule id quiet s s') (live : (s.space j).live) :
    (s'.space j).live := (acts.live j).trans live

/-- A step that leaves areas alone and leaves obeying. -/
theorem keep (sound : Sound rule s) (kept : Disciplined rule (areaRights s) 0 s' ∧ SameAreas s s') :
    Acts rule id quiet s s' := by
  refine ⟨sound.keep kept, kept.2.live, fun j _ => kept.2.vmas j, fun va _ writable => ?_⟩
  unfold WritableAt at writable ⊢
  rwa [kept.2.vmas] at writable

end Acts

/-- The rights at the end of a walk are those of the area of the address. -/
theorem areaRights_walkIndex (regular : Regular (s.space id).vmas) (low : va < 2 ^ 48) :
    areaRights s id (walkIndex va 3) = (attrsAt (s.space id).vmas va).map VmaAttrs.rights := by
  unfold areaRights
  rw [walkIndex_leaf_low low, regular.paged.whole va]
  congr 2
  simp only [pageSize]
  omega

/-- An address with an area lies in the user space. -/
theorem Regular.low (regular : Regular list) {attrs : VmaAttrs}
    (found : attrsAt list va = some attrs) : va < 2 ^ 48 := by
  by_contra high
  rw [regular.paged.low va (Nat.not_lt.mp high)] at found
  contradiction

/-- The rights of a leaf in an area. -/
theorem areaRights_of_attrsAt (regular : Regular (s.space id).vmas) {attrs : VmaAttrs}
    (found : attrsAt (s.space id).vmas va = some attrs) :
    areaRights s id (walkIndex va 3) = some attrs.rights := by
  rw [areaRights_walkIndex regular (regular.low found), found]
  rfl

/-! ## Changing areas -/

/-- Only the areas of one address space have changed, and no page table. -/
structure Recast (id : SpaceId) (map : Nat → Option VmaAttrs) (s s' : Memory F) : Prop where
  /-- No space comes or goes. -/
  live : ∀ j, (s'.space j).live = (s.space j).live
  /-- Other spaces keep their areas. -/
  others : ∀ j, j ≠ id → (s'.space j).vmas = (s.space j).vmas
  /-- The rights are those of the map. -/
  map : attrsAt (s'.space id).vmas = map
  /-- The areas are disjoint. -/
  tidy : vmaView.Tidy (s'.space id).vmas.slots
  /-- The tables stay. -/
  entry : s'.entry = s.entry
  /-- The bases stay. -/
  base : ∀ j, (s'.space j).as.mmapBase = (s.space j).as.mmapBase

section

variable (recast : Recast id map s s')

include recast

/-- The base stays where it may be. -/
theorem Recast.bases (based : Based s) : Based s' := by
  intro j live
  rw [recast.base]
  exact based j ((recast.live j).symm.trans live)

/-- Areas recast over whole pages stay regular. -/
theorem Recast.regulars (regular : Regulars s) (paged : Paged map) : Regulars s' := by
  intro j live
  by_cases here : j = id
  · subst here
    exact ⟨recast.tidy, recast.map ▸ paged⟩
  · rw [recast.others j here]
    exact regular j ((recast.live j).symm.trans live)

/-- New areas are fine as long as each leaf keeps the rights that it is meant to have. -/
theorem Recast.areaRights {attr : SpaceId → Nat → Option AreaRights} {hand : Multiset Nat}
    (inv : Disciplined rule attr hand s')
    (elsewhere : ∀ j, j ≠ id → ∀ index, attr j index = areaRights s j index)
    (agree : ∀ index, isValid (s.entry id 3 index) →
      (map (index * pageSize)).map VmaAttrs.rights = attr id index) :
    Disciplined rule (areaRights s') hand s' := by
  refine inv.reattr fun j index live valid => ?_
  by_cases here : j = id
  · subst here
    rw [Mm.areaRights, recast.map]
    rw [recast.entry] at valid
    exact agree index valid
  · rw [elsewhere j here, Mm.areaRights, recast.others j here]
    rfl

/-- A change of areas as a step. -/
theorem Recast.acts {quiet : Nat → Prop} (sound : Sound rule s')
    (calm : ∀ va, quiet va → ∀ attrs, map va = some attrs → grantsWrite attrs.prot →
      WritableAt s id va) : Acts rule id quiet s s' := by
  refine ⟨sound, recast.live, recast.others, fun va quiet writable => ?_⟩
  obtain ⟨attrs, found, grants⟩ := writable
  rw [recast.map] at found
  exact calm va quiet attrs found grants

end

/-- Whatever a list function may do to accounts, it trades pages for pages. -/
def Fair (call : VmaList → Phys F → Bool × VmaList × Phys F) : Prop :=
  ∀ {refs : SpaceOwner ⊕ Nat → Nat → Prop} {hand : Multiset Nat} {list : VmaList} {phys : Phys F},
    phys.Accounts refs (list.pages + hand) →
      ListTrades refs hand list phys (call list phys).2.1 (call list phys).2.2

/-- A list function keeps the accounts and every leaf. -/
theorem withVmas_inv (fair : Fair call) (inv : Disciplined rule attr hand s)
    (live : (s.space id).live) : Disciplined rule attr hand (s.withVmas id call).2 :=
  inv.replaceVmas live (fair (inv.takeChunks live))

/-- A list function takes no page from under a leaf that has it for itself. -/
theorem withVmas_alone (fair : Fair call) (inv : Disciplined rule attr hand s)
    (live : (s.space id).live) (live' : (s.space j).live) (valid : isValid (s.entry j 3 index))
    (single : s.phys.pmm.refcount (pageOf (s.entry j 3 index)) = 1) :
    (s.withVmas id call).2.phys.pmm.refcount (pageOf (s.entry j 3 index)) = 1 :=
  (fair (inv.takeChunks live)).exclusive (Sum.inl (.entry j 3 index)) _
    ⟨refs_entry live' valid, fun _ => by simp⟩ single

/-- A list function writes into no page that a leaf maps. -/
theorem withVmas_bytes (fair : Fair call) (inv : Disciplined rule attr hand s)
    (live : (s.space id).live) (live' : (s.space j).live) (valid : isValid (s.entry j 3 index)) :
    (s.withVmas id call).2.phys.bytes (pageOf (s.entry j 3 index)) =
      s.phys.bytes (pageOf (s.entry j 3 index)) :=
  (fair (inv.takeChunks live)).contents (Sum.inl (.entry j 3 index)) _
    ⟨refs_entry live' valid, fun _ => by simp⟩

/-- The areas after a list function. -/
theorem withVmas_recast (call : VmaList → Phys F → Bool × VmaList × Phys F)
    (outcome : Outcome (s.space id).vmas update (call (s.space id).vmas s.phys)) :
    Recast id (if (s.withVmas id call).1 then update (attrsAt (s.space id).vmas)
      else attrsAt (s.space id).vmas) s (s.withVmas id call).2 where
  live := live_setVmas _
  others := fun j other => vmas_setVmas_ne other
  map := by
    show attrsAt (Space.vmas (Memory.space (Memory.setVmas _ id _) id)) = _
    rw [vmas_setVmas_self]
    exact outcome.attrs
  tidy := by
    show vmaView.Tidy (Space.vmas (Memory.space (Memory.setVmas _ id _) id)).slots
    rw [vmas_setVmas_self]
    exact outcome.tidy
  entry := by
    funext j l i
    exact entry_setVmas _
  base := fun j => congrArg UserAddressSpace.mmapBase (as_setVmas _)

/-! ### Insertion -/

/-- Where the overlap test finds nothing there is no area. -/
theorem attrsAt_of_free (free : vmaOverlaps list start stop = false) (low : start ≤ va)
    (high : va < stop) : attrsAt list va = none := by
  rw [attrsAt, Option.map_eq_none_iff, vmaLookup, List.find?_eq_none]
  intro vma member hit
  simp only [Bool.and_eq_true, decide_eq_true_eq] at hit
  have apart : vmaView.Apart { Vma.zero with start, stop } vma :=
    vmaOverlaps_apart free rfl rfl vma member hit.1.1
  simp only [vmaView_apart] at apart
  omega

/-- An area is added where none was: leaves keep their rights. -/
theorem agree_insert (inv : Disciplined rule (areaRights s) hand s) (live : (s.space id).live)
    (free : ∀ va, start ≤ va → va < stop → attrsAt (s.space id).vmas va = none) (index : Nat)
    (valid : isValid (s.entry id 3 index)) :
    (overwrite (attrsAt (s.space id).vmas) start stop (fun _ => attrs)
      (index * pageSize)).map VmaAttrs.rights = areaRights s id index := by
  obtain ⟨rights, meant, -⟩ := inv.leaves id index live valid
  unfold overwrite
  split
  · rename_i inside
    rw [areaRights, free _ inside.1 inside.2] at meant
    contradiction
  · rfl

/-- A list function that may add an area to free pages of the user space keeps memory sound. -/
theorem insert_acts (sound : Sound rule s) (live : (s.space id).live) (fair : Fair call)
    (outcome : Outcome (s.space id).vmas (fun map => overwrite map start stop fun _ => attrs)
      (call (s.space id).vmas s.phys))
    (free : (call (s.space id).vmas s.phys).1 →
      vmaOverlaps (s.space id).vmas start stop = false) (startAligned : start % pageSize = 0)
    (stopAligned : stop % pageSize = 0) (bounded : stop ≤ 2 ^ 48) :
    Acts rule id (fun va => start ≤ va → va < stop →
      ∀ given, attrs = some given → grantsWrite given.prot = false) s (s.withVmas id call).2 := by
  have recast := withVmas_recast call outcome
  have inv := withVmas_inv fair sound.disciplined live
  have old := (sound.regular id live).paged
  by_cases added : (s.withVmas id call).1
  · rw [if_pos added] at recast
    refine recast.acts
      ⟨recast.areaRights inv (fun _ _ _ => rfl) (agree_insert sound.disciplined live
      fun va low high => attrsAt_of_free (free added) low high), ?_, recast.bases sound.based⟩
      fun va quiet given found grants => ?_
    · exact recast.regulars sound.regular (old.overwrite startAligned stopAligned (.inl bounded))
    unfold overwrite at found
    split at found
    · rename_i inside
      rw [quiet inside.1 inside.2 given found] at grants
      contradiction
    · exact ⟨given, found, grants⟩
  · rw [if_neg added] at recast
    exact recast.acts ⟨recast.areaRights inv (fun _ _ _ => rfl) fun _ _ => rfl,
      recast.regulars sound.regular old, recast.bases sound.based⟩
      fun va _ given found grants => ⟨given, found, grants⟩

section Host

variable (host : FileHost F)

/-- An area is inserted only where there is none. -/
theorem vmaInsert_free
    (added : (vmaInsert (physVmaHost host) list start stop prot flags type phys).1) :
    vmaOverlaps list start stop = false := by
  unfold vmaInsert at added
  cases free : vmaOverlaps list start stop with
  | false => rfl
  | true => simp [free] at added

/-- The same for an area of a file. -/
theorem vmaInsertFile_free {node : Option VfsNode}
    (added : (vmaInsertFile (physVmaHost host) list start stop prot flags node fileStart fileOffset
      fileSize phys).1) : vmaOverlaps list start stop = false := by
  unfold vmaInsertFile at added
  cases free : vmaOverlaps list start stop with
  | false => rfl
  | true => cases node <;> simp [free] at added

/-- An area is added: the rights change in its range only. -/
theorem addVmaTyped_acts (sound : Sound rule s) (live : (s.space id).live)
    (startAligned : start % pageSize = 0) (stopAligned : stop % pageSize = 0)
    (bounded : stop ≤ 2 ^ 48) :
    Acts rule id (fun va => start ≤ va → va < stop → grantsWrite prot = false) s
      (s.addVmaTyped host id start stop prot flags type).2 :=
  (insert_acts sound live (fun accounts => vmaInsert_trades host _ _ _ _ _ accounts)
    (vmaInsert_outcome _ _ _ _ _ _ _ (sound.regular id live).tidy) (vmaInsert_free host)
    startAligned stopAligned bounded).mono
      fun _ quiet low high _ same => Option.some.inj same ▸ quiet low high

/-- A file area is added likewise. -/
theorem addFileVma_acts {node : VfsNode}
    (sound : Sound rule s) (live : (s.space id).live) (startAligned : start % pageSize = 0)
    (stopAligned : stop % pageSize = 0) (bounded : stop ≤ 2 ^ 48) :
    Acts rule id (fun va => start ≤ va → va < stop → grantsWrite prot = false) s
      (s.addFileVma host id start stop prot flags node fileStart fileOffset fileSize).2 :=
  (insert_acts sound live (fun accounts => vmaInsertFile_trades host _ _ _ accounts)
    (vmaInsertFile_outcome _ _ _ _ _ _ _ _ _ _ (sound.regular id live).tidy)
    (vmaInsertFile_free host) startAligned stopAligned bounded).mono
      fun _ quiet low high _ same => Option.some.inj same ▸ quiet low high

/-! ### Writing shared mappings back -/

/-- What writing back does: files, the page cache and physical memory change. -/
structure Flushes (rule : LeafRule) (attr : SpaceId → Nat → Option AreaRights)
    (hand : Multiset Nat) (s s' : Memory F) : Prop where
  /-- The memory stays in order. -/
  disciplined : Disciplined rule attr hand s'
  /-- Areas stay. -/
  areas : SameAreas s s'
  /-- The tables stay. -/
  entry : s'.entry = s.entry

/-- Nothing is flushed. -/
theorem Flushes.refl (inv : Disciplined rule attr hand s) : Flushes rule attr hand s s :=
  ⟨inv, .refl s, rfl⟩

/-- Flushes in two steps. -/
theorem Flushes.trans (first : Flushes rule attr hand s s')
    (second : Flushes rule attr hand s' s'') : Flushes rule attr hand s s'' :=
  ⟨second.disciplined, first.areas.trans second.areas, second.entry.trans first.entry⟩

/-- One page is written back. -/
theorem flushPage_spec (inv : Disciplined rule attr hand s) :
    Flushes rule attr hand s (flushPage host id vma page s).2 := by
  unfold flushPage
  dsimp only
  split
  · exact .refl inv
  · split
    · exact .refl inv
    · exact ⟨inv.trade (Store.vfsWrite_trades host _ inv.accounts), .setStore _, rfl⟩

/-- The pages of one area are. -/
theorem flushSharedFileVmaRange_spec (inv : Disciplined rule attr hand s) :
    Flushes rule attr hand s (flushSharedFileVmaRange host id vma start stop s).2 := by
  unfold flushSharedFileVmaRange
  split
  · exact .refl inv
  · refine countUp_keeps (Flushes rule attr hand s) _ 0 ?_ (.refl inv)
    intro k now _ _ done
    exact done.trans (flushPage_spec host done.disciplined)

/-- Those of all areas, by induction over the slots. -/
theorem flushSharedFileVmas_spec (slots : List Vma) :
    ∀ {s : Memory F}, Disciplined rule attr hand s →
      Flushes rule attr hand s (flushSharedFileVmas host id start stop slots s).2 := by
  induction slots with
  | nil => exact fun inv => .refl inv
  | cons vma rest ih =>
    intro s inv
    rw [flushSharedFileVmas]
    split
    · exact ih inv
    have first : Flushes rule attr hand s (flushSharedFileVmaRange host id vma start stop s).2 :=
      flushSharedFileVmaRange_spec host inv
    dsimp only
    split
    · exact first.trans (ih first.disciplined)
    · exact first

/-- A flush changes neither tables nor areas. -/
theorem flushShared_spec (start stop : Nat) (inv : Disciplined rule attr hand s) :
    Flushes rule attr hand s (s.flushShared host id start stop).2 := by
  unfold flushShared
  split
  · exact .refl inv
  · exact flushSharedFileVmas_spec host _ inv

/-! ### Removal -/

/-- A page of the range is visited by a loop over the range. -/
theorem inRange_of_mem (startAligned : start % pageSize = 0)
    (low : start ≤ index * pageSize) (high : index * pageSize < stop)
    (small : index * pageSize < 2 ^ 48) : InRange start (rounds start stop) index := by
  refine ⟨index - start / pageSize, ?_, ?_⟩
  · simp only [rounds, pageSize] at *
    omega
  have address : start + (index - start / pageSize) * pageSize = index * pageSize := by
    simp only [pageSize] at *
    omega
  rw [address, walkIndex_leaf_low small, Nat.mul_div_cancel _ (by decide)]

/-- What `cell_remove_vma` does: the areas of the range go together with its leaves, or no area
changes. -/
structure Removes (rule : LeafRule) (attr : SpaceId → Nat → Option AreaRights)
    (hand : Multiset Nat) (id : SpaceId) (start stop : Nat) (s s' : Memory F) : Prop where
  /-- The memory stays in order. -/
  disciplined : Disciplined rule attr hand s'
  /-- No space comes or goes. -/
  live : ∀ j, (s'.space j).live = (s.space j).live
  /-- Other spaces keep their areas. -/
  others : ∀ j, j ≠ id → (s'.space j).vmas = (s.space j).vmas
  /-- The bases stay. -/
  base : ∀ j, (s'.space j).as.mmapBase = (s.space j).as.mmapBase
  /-- There are fewer leaves. -/
  fewer : Fewer s s'
  /-- The areas are disjoint. -/
  tidy : vmaView.Tidy (s'.space id).vmas.slots
  /-- The range is empty, or the areas stay. -/
  outcome : attrsAt (s'.space id).vmas = attrsAt (s.space id).vmas ∨
    (attrsAt (s'.space id).vmas = overwrite (attrsAt (s.space id).vmas) start stop (fun _ => none) ∧
      ∀ k < rounds start stop, isValid (s'.entry id 3 (walkIndex (start + k * pageSize) 3)) = false)

/-- Areas are removed before their pages: nothing is left without an area. -/
theorem removeVma_spec (inv : Disciplined rule attr hand s) (live : (s.space id).live)
    (tidy : vmaView.Tidy (s.space id).vmas.slots) :
    Removes rule attr hand id start stop s (s.removeVma host id start stop).2 := by
  have flushed : Flushes rule attr hand s (s.flushShared host id start stop).2 :=
    flushShared_spec host start stop inv
  unfold removeVma
  dsimp only
  split
  · refine ⟨flushed.disciplined, flushed.areas.live, fun j _ => flushed.areas.vmas j,
      flushed.areas.base, fun j i _ => by rw [flushed.entry], ?_, .inl ?_⟩
    · rw [flushed.areas.vmas]
      exact tidy
    · rw [flushed.areas.vmas]
  generalize (s.flushShared host id start stop).2 = now at flushed
  obtain ⟨unmapped, fewer, gone⟩ := unmapRange_spec flushed.disciplined (flushed.areas.isLive live)
  have same := flushed.areas.trans (.unmapRange now id start stop)
  have live' := same.isLive live
  generalize now.unmapRange id start stop = next at unmapped same fewer gone live'
  have tidy' : vmaView.Tidy (next.space id).vmas.slots := by
    rw [same.vmas]
    exact tidy
  have recast :=
    withVmas_recast (fun list phys => vmaRemove (physVmaHost host) list start stop phys)
    (vmaRemove_outcome (physVmaHost host) start stop next.phys tidy')
  have removed := withVmas_inv (fun accounts => vmaRemove_trades host start stop accounts)
    unmapped live'
  refine ⟨removed, fun j => (recast.live j).trans (same.live j),
    fun j other => (recast.others j other).trans (same.vmas j),
    fun j => (recast.base j).trans (same.base j), fun j i valid => ?_, recast.tidy, ?_⟩
  · rw [recast.entry] at valid ⊢
    rw [← flushed.entry]
    exact fewer j i valid
  · rw [recast.map, same.vmas]
    split
    · exact .inr ⟨rfl, fun k before => by rw [recast.entry]; exact gone k before⟩
    · exact .inl rfl

section

variable (removes : Removes rule attr hand id start stop s s')

include removes

/-- A leaf that is left is outside the range whose areas went. -/
theorem Removes.agree (regular : Regular (s.space id).vmas) (startAligned : start % pageSize = 0)
    (valid : isValid (s'.entry id 3 index)) : areaRights s' id index = areaRights s id index := by
  unfold areaRights
  rcases removes.outcome with same | ⟨map, gone⟩
  · rw [same]
  rw [map]
  unfold overwrite
  split
  · rename_i inside
    cases found : attrsAt (s.space id).vmas (index * pageSize) with
    | none => rfl
    | some attrs =>
      obtain ⟨k, before, rfl⟩ := inRange_of_mem startAligned inside.1 inside.2 (regular.low found)
      rw [gone k before] at valid
      contradiction
  · rfl

/-- A removal of whole pages leaves the list regular. -/
theorem Removes.regular (regular : Regular (s.space id).vmas) (startAligned : start % pageSize = 0)
    (stopAligned : stop % pageSize = 0) : Regular (s'.space id).vmas := by
  refine ⟨removes.tidy, ?_⟩
  rcases removes.outcome with same | ⟨map, -⟩
  · rw [same]
    exact regular.paged
  · rw [map]
    exact regular.paged.overwrite startAligned stopAligned (.inr rfl)

/-- What removal leaves writable was writable. -/
theorem Removes.calm (writable : WritableAt s' id va) : WritableAt s id va := by
  obtain ⟨attrs, found, grants⟩ := writable
  rcases removes.outcome with same | ⟨map, -⟩
  · exact ⟨attrs, same ▸ found, grants⟩
  rw [map, overwrite] at found
  split at found
  · contradiction
  · exact ⟨attrs, found, grants⟩

end

/-- `cell_remove_vma` on whole pages. -/
theorem removeVma_acts {calm : Nat → Prop} (sound : Sound rule s) (live : (s.space id).live)
    (startAligned : start % pageSize = 0) (stopAligned : stop % pageSize = 0) :
    Acts rule id calm s (s.removeVma host id start stop).2 := by
  have regular := sound.regular id live
  have removes : Removes rule (areaRights s) 0 id start stop s (s.removeVma host id start stop).2 :=
    removeVma_spec host sound.disciplined live regular.tidy
  generalize (s.removeVma host id start stop).2 = s' at removes
  refine ⟨⟨removes.disciplined.reattr fun j index live' valid => ?_, fun j live' => ?_,
    fun j live' => ?_⟩, removes.live, removes.others, fun _ _ => removes.calm⟩
  · by_cases here : j = id
    · subst here
      exact removes.agree regular startAligned valid
    · rw [areaRights, removes.others j here]
      rfl
  · by_cases here : j = id
    · subst here
      exact removes.regular regular startAligned stopAligned
    · rw [removes.others j here]
      exact sound.regular j ((removes.live j).symm.trans live')
  · rw [removes.base]
    exact sound.based j ((removes.live j).symm.trans live')

/-! ### Protection -/

/-- Each round stays before the end. -/
theorem lt_of_lt_rounds {k : Nat} (inside : k < rounds start stop) :
    start + k * pageSize < stop := by
  simp only [rounds, pageSize] at *
  omega

/-- The leaves of a range obey the rule with new page-table rights, once the rights of their areas
have changed as told. -/
def RangeObeys (rule : LeafRule) (change : AreaRights → AreaRights) (s : Memory F) (id : SpaceId)
    (start stop : Nat) (prot : UInt32) : Prop :=
  ∀ k < rounds start stop, ∀ rights,
    isValid (s.entry id 3 (walkIndex (start + k * pageSize) 3)) = true →
    areaRights s id (walkIndex (start + k * pageSize) 3) = some rights →
    rule.holds (s.phys.pmm.refcount
        (pageOf (s.entry id 3 (walkIndex (start + k * pageSize) 3))) = 1) (change rights)
      (grantsWrite prot) (isCow (s.entry id 3 (walkIndex (start + k * pageSize) 3)))

/-- `vmm_protect_range` alone, on leaves that obey the rule with the areas as they are. -/
theorem protectRange_acts {calm : Nat → Prop} (sound : Sound rule s) (live : (s.space id).live)
    (obeys : RangeObeys rule (fun rights => rights) s id start stop prot) :
    Acts rule id calm s (s.protectRange id start stop prot) := by
  have admits : Admits rule (areaRights s) s id start stop prot := by
    intro k before valid
    obtain ⟨rights, meant, -⟩ := sound.disciplined.leaves id _ live valid
    exact ⟨rights, meant, obeys k before rights valid meant⟩
  obtain ⟨inv, same⟩ := protectRange_spec sound.disciplined live admits fun _ _ _ => rfl
  exact .keep sound ⟨inv, same.areas⟩

/-- The rights after `vma_protect`. -/
theorem protect_rights :
    (overwrite map start stop (fun old => old.bind fun attrs => some { attrs with prot })
      va).map VmaAttrs.rights =
      if start ≤ va ∧ va < stop then
        ((map va).map VmaAttrs.rights).map fun rights => { rights with prot }
      else (map va).map VmaAttrs.rights := by
  unfold overwrite
  split
  · cases map va <;> rfl
  · rfl

/-- `cell_protect_vma` on whole pages of the user space. -/
theorem protectVma_acts (sound : Sound rule s) (live : (s.space id).live)
    (startAligned : start % pageSize = 0) (stopAligned : stop % pageSize = 0)
    (bounded : stop ≤ 2 ^ 48)
    (obeys : (s.protectVma host id start stop prot).1 →
      RangeObeys rule (fun rights => { rights with prot }) s id start stop prot) :
    Acts rule id (fun va => start ≤ va → va < stop → grantsWrite prot = false) s
      (s.protectVma host id start stop prot).2 := by
  have regular := sound.regular id live
  have recast := withVmas_recast
    (fun list phys => vmaProtect (physVmaHost host) list start stop prot phys)
    (vmaProtect_outcome (physVmaHost host) start stop prot s.phys regular.tidy)
  have inv := withVmas_inv (fun accounts => vmaProtect_trades host start stop prot accounts)
    sound.disciplined live
  unfold protectVma at obeys ⊢
  dsimp only at obeys ⊢
  have alone := fun index (valid : isValid (s.entry id 3 index)) => withVmas_alone
    (fun accounts => vmaProtect_trades host start stop prot accounts)
    sound.disciplined live live valid
  generalize s.withVmas id
    (fun list phys => vmaProtect (physVmaHost host) list start stop prot phys) = result
    at recast inv obeys alone ⊢
  split
  · rename_i refused
    rw [if_neg (by simp [refused])] at recast
    exact recast.acts ⟨recast.areaRights inv (fun _ _ _ => rfl) fun _ _ => rfl,
      recast.regulars sound.regular regular.paged, recast.bases sound.based⟩
      fun va _ attrs found grants => ⟨attrs, found, grants⟩
  rename_i granted
  have granted : result.1 := by simpa using granted
  rw [if_neg (by simp [granted])] at obeys
  rw [if_pos granted] at recast
  have rights : ∀ index, areaRights result.2 id index =
      if start ≤ index * pageSize ∧ index * pageSize < stop then
        (areaRights s id index).map fun rights => { rights with prot }
      else areaRights s id index := by
    intro index
    rw [areaRights, recast.map, protect_rights]
    rfl
  have entry := recast.entry
  have admits : Admits rule (areaRights result.2) result.2 id start stop prot := by
    intro k before valid
    rw [entry] at valid ⊢
    obtain ⟨old, meant, -⟩ := sound.disciplined.leaves id _ live valid
    have inside := lt_of_lt_rounds before
    have index : walkIndex (start + k * pageSize) 3 * pageSize = start + k * pageSize := by
      rw [walkIndex_leaf_low (by omega)]
      simp only [pageSize] at *
      omega
    refine ⟨{ old with prot }, ?_, ?_⟩
    · rw [rights, index, if_pos ⟨by omega, inside⟩, meant]
      rfl
    · exact rule.stable (obeys rfl k before old valid meant) (alone _ valid)
  have elsewhere : ∀ j i, ¬ (j = id ∧ InRange start (rounds start stop) i) →
      areaRights result.2 j i = areaRights s j i := by
    intro j i outside
    by_cases here : j = id
    · subst here
      rw [rights]
      split
      · rename_i inside
        refine absurd ⟨rfl, inRange_of_mem startAligned inside.1 inside.2 (by omega)⟩ outside
      · rfl
    · rw [areaRights, recast.others j here]
      rfl
  obtain ⟨done, same⟩ := protectRange_spec inv ((recast.live id).trans live) admits elsewhere
  have paged := recast.regulars sound.regular
    (regular.paged.overwrite startAligned stopAligned (.inr rfl))
  refine ⟨⟨same.areas.areaRights ▸ done, same.areas.regulars paged,
      same.areas.bases (recast.bases sound.based)⟩,
    fun j => (same.areas.live j).trans (recast.live j),
    fun j other => (same.areas.vmas j).trans (recast.others j other), fun va quiet writable => ?_⟩
  obtain ⟨attrs, found, grants⟩ := writable
  rw [same.areas.vmas, recast.map, overwrite] at found
  split at found
  · rename_i inside
    obtain ⟨old, -, same_attrs⟩ := Option.bind_eq_some_iff.mp found
    cases same_attrs
    rw [show grantsWrite _ = false from quiet inside.1 inside.2] at grants
    contradiction
  · exact ⟨attrs, found, grants⟩

end Host

/-! ## Faults -/

/-- A step on one address space that may add areas but changes none. -/
structure Extends (rule : LeafRule) (id : SpaceId) (s s' : Memory F) : Prop where
  /-- The memory stays sound. -/
  sound : Sound rule s'
  /-- No space comes or goes. -/
  live : ∀ j, (s'.space j).live = (s.space j).live
  /-- Other spaces keep their areas. -/
  others : ∀ j, j ≠ id → (s'.space j).vmas = (s.space j).vmas
  /-- Areas keep their rights. -/
  kept : ∀ va attrs, attrsAt (s.space id).vmas va = some attrs →
    attrsAt (s'.space id).vmas va = some attrs

namespace Extends

/-- Nothing is extended. -/
theorem refl (sound : Sound rule s) : Extends rule id s s :=
  ⟨sound, fun _ => rfl, fun _ _ => rfl, fun _ _ found => found⟩

/-- Extensions one after the other. -/
theorem trans (first : Extends rule id s s') (second : Extends rule id s' s'') :
    Extends rule id s s'' :=
  ⟨second.sound, fun j => (second.live j).trans (first.live j),
    fun j other => (second.others j other).trans (first.others j other),
    fun va attrs found => second.kept va attrs (first.kept va attrs found)⟩

/-- A live space stays live. -/
theorem isLive (extends_ : Extends rule id s s') (live : (s.space j).live) :
    (s'.space j).live := (extends_.live j).trans live

/-- A step that keeps areas and discipline extends. -/
theorem keep (sound : Sound rule s) (kept : Disciplined rule (areaRights s) 0 s' ∧ SameAreas s s') :
    Extends rule id s s' :=
  ⟨sound.keep kept, kept.2.live, fun j _ => kept.2.vmas j,
    fun va attrs found => by rw [kept.2.vmas]; exact found⟩

/-- An address that has an area does not become writable. -/
theorem acts (extends_ : Extends rule id s s') :
    Acts rule id (fun va => attrsAt (s.space id).vmas va ≠ none) s s' := by
  refine ⟨extends_.sound, extends_.live, extends_.others, fun va covered writable => ?_⟩
  obtain ⟨attrs, found⟩ := Option.ne_none_iff_exists'.mp covered
  obtain ⟨given, after, grants⟩ := writable
  rw [extends_.kept va attrs found, ← found] at after
  exact ⟨given, after, grants⟩

end Extends

/-- Growing a stack area over free pages. -/
theorem growDown_extends {grown : Vma} {vmas : VmaList} (sound : Sound rule s)
    (live : (s.space id).live)
    (grew : vmaGrowDown (s.space id).vmas page flags = some (grown, vmas)) :
    Extends rule id s (s.setVmas id vmas) ∧ attrsAt vmas page = some grown.attrs := by
  have regular := sound.regular id live
  obtain ⟨vma, member, grows, rfl, tidy, attrs⟩ := vmaGrowDown_outcome grew regular.tidy
  obtain ⟨used, below, -⟩ := grows.can
  have free := grows.free
  have aligned := grows.aligned
  have proper : vma.start < vma.stop := regular.tidy.proper vma member used
  have covered : attrsAt (s.space id).vmas vma.start = some vma.attrs := by
    rw [attrsAt_eq]
    exact (regular.tidy.valueAt_eq_some _).mpr ⟨vma, member, ⟨used, le_rfl, proper⟩, rfl⟩
  have small := regular.low covered
  -- The page of the start would otherwise belong to the free range and to an area.
  have startAligned : vma.start % pageSize = 0 := by
    by_contra uneven
    have inside : page ≤ vma.start - vma.start % pageSize ∧
        vma.start - vma.start % pageSize < vma.start := by
      simp only [pageSize] at *
      omega
    rw [regular.paged.whole, attrsAt_of_free free inside.1 inside.2] at covered
    contradiction
  have recast : Recast id (overwrite (attrsAt (s.space id).vmas) page vma.start
      fun _ => some vma.attrs) s (s.setVmas id vmas) :=
    { live := live_setVmas vmas
      others := fun j other => vmas_setVmas_ne other
      map := by rw [vmas_setVmas_self]; exact attrs
      tidy := by rw [vmas_setVmas_self]; exact tidy
      entry := by funext j l i; exact entry_setVmas _
      base := fun j => congrArg UserAddressSpace.mmapBase (as_setVmas _) }
  have chunks : vmas.chunkPa = (s.space id).vmas.chunkPa := by
    obtain ⟨_, _, _, _, _, rfl⟩ := vmaGrowDown_cases grew
    rfl
  have inv : Disciplined rule (areaRights s) 0 (s.setVmas id vmas) := by
    refine sound.disciplined.spaces rfl fun j live' => ?_
    rw [live_setVmas] at live'
    refine ⟨live', by rw [as_setVmas], by rw [as_setVmas], ?_⟩
    by_cases here : j = id
    · subst here
      rw [vmas_setVmas_self, chunks]
    · rw [vmas_setVmas_ne here]
  refine ⟨⟨⟨recast.areaRights inv (fun _ _ _ => rfl)
    (agree_insert sound.disciplined live fun va low high => attrsAt_of_free free low high), ?_,
      recast.bases sound.based⟩, recast.live, recast.others, fun va given found => ?_⟩, ?_⟩
  · exact recast.regulars sound.regular
      (regular.paged.overwrite aligned startAligned (.inl (Nat.le_of_lt small)))
  · rw [recast.map, overwrite]
    split
    · rename_i inside
      rw [attrsAt_of_free free inside.1 inside.2] at found
      contradiction
    · exact found
  · rw [attrs, overwrite, if_pos ⟨le_rfl, below⟩]
    rfl

/-- No stack of the current process grows over this page on behalf of another one. -/
def GrowsOwn (s : Memory F) (current id : SpaceId) (page : Nat) : Prop :=
  current = id ∨ (attrsAt (s.space id).vmas page = none →
    vmaGrowDown (s.space current).vmas page mapGrowsdown = none)

/-- It stays so while the areas of the process only grow. -/
theorem GrowsOwn.later {current : SpaceId} (own : GrowsOwn s current id page)
    (extends_ : Extends rule id s s') : GrowsOwn s' current id page := by
  rcases own with same | never
  · exact .inl same
  by_cases here : current = id
  · exact .inl here
  refine .inr fun none => ?_
  rw [extends_.others current here]
  apply never
  cases before : attrsAt (s.space id).vmas page with
  | none => rfl
  | some attrs =>
    rw [extends_.kept page attrs before] at none
    contradiction

/-- The area that the fault handlers find or grow. -/
theorem areaFor_extends {current : SpaceId} (sound : Sound rule s) (live : (s.space id).live)
    (own : GrowsOwn s current id page) :
    Extends rule id s (s.areaFor current id page).2 ∧
      ∀ vma, (s.areaFor current id page).1 = some vma →
        attrsAt ((s.areaFor current id page).2.space id).vmas page = some vma.attrs := by
  unfold areaFor
  cases looked : vmaLookup (s.space id).vmas page with
  | some vma =>
    refine ⟨.refl sound, fun found same => ?_⟩
    cases same
    rw [attrsAt, looked]
    rfl
  | none =>
    cases grew : vmaGrowDown (s.space current).vmas page mapGrowsdown with
    | none => exact ⟨.refl sound, fun _ same => by contradiction⟩
    | some result =>
      obtain rfl : current = id := own.resolve_right fun never => by
        rw [never (by rw [attrsAt, looked]; rfl)] at grew
        contradiction
      obtain ⟨next, found⟩ := growDown_extends sound live grew
      refine ⟨next, fun vma same => ?_⟩
      cases same
      rw [vmas_setVmas_self]
      exact found

section FileFaults

variable (host : FileHost F) {attr : SpaceId → Nat → Option AreaRights} {hand : Multiset Nat}

/-- Reading a file trades pages with the cache only. -/
theorem copyFile_trades {copyStart : Nat} :
    ∀ (copied len : Nat) (data : List UInt8) {store : Store F},
      store.Accounts outer hand → Store.Trades outer hand store hand
        (copyFile host vma copyStart fuel copied len data store).2 := by
  induction fuel with
  | zero => exact fun _ _ _ _ accounts => .refl accounts
  | succ fuel ih =>
    intro copied len data store accounts
    rw [copyFile]
    split
    · exact .refl accounts
    dsimp only
    have read := Store.vfsReadPageCached_trades host vma.fileNode
      (pageBase (vma.fileOffset + (copyStart - vma.fileStart) + copied)) accounts
    split
    · exact read
    · exact read.trans (ih _ _ _ read.accounts)

/-- So does reading the page of an area. -/
theorem readArea_trades (vma : Vma) (page : Nat)
    {store : Store F} (accounts : store.Accounts outer hand) :
    Store.Trades outer hand store hand (readArea host vma page store).2 :=
  copyFile_trades host _ _ _ accounts

section

variable (inv : Disciplined rule attr hand s) (live : (s.space id).live = true)
  (meant : attr id (walkIndex page 3) = some vma.attrs.rights)

include inv live meant

/-- The private copy of a file page. -/
theorem privateCopy_spec : Disciplined rule attr hand (s.privateCopy host id vma page).2 := by
  unfold privateCopy
  split
  · exact inv
  rename_i pa phys found
  obtain ⟨traded, single, aligned, inside⟩ := Phys.trades_allocZeroPage inv.accounts found
  have supplied := inv.tradePhys traded
  -- The new page stays exclusive while the file is read through the cache.
  obtain ⟨read, alone⟩ := Store.trades_holding supplied.accounts (readArea_trades host vma page)
  have filled := supplied.trade read
  dsimp only
  split
  · exact filled.tradePhys (Phys.trades_free filled.accounts)
  rename_i data _
  have poked := poke_spec (pa + (max page vma.fileStart - page)) data filled
  exact (mapPage_spec poked live aligned (small_of_page inv.addressable aligned inside) meant rfl
    fun _ => .inl (alone single)).freed

/-- The mapping of a page of the cache. -/
theorem mapCached_spec {readOff : Nat} :
    Disciplined rule attr hand (s.mapCached host id vma page readOff).2 := by
  have supplies := Store.vfsRetainPageCached_supplies host vma.fileNode readOff inv.accounts
  unfold mapCached
  dsimp only
  split
  · rename_i none
    exact inv.trade (supplies.refused none)
  rename_i pa some
  obtain ⟨aligned, inside⟩ := Store.vfsRetainPageCached_pa host some
  have supplied := inv.trade (supplies.supplied pa some)
  have small := small_of_page supplied.addressable aligned inside
  split
  · rename_i private_
    exact (mapPageCow_spec supplied live aligned small meant (decide_eq_true private_.2)).freed
  · rename_i open_
    exact (mapPage_spec supplied live aligned small meant rfl fun grants =>
      .inr fun zero => open_ ⟨zero, of_decide_eq_true grants⟩).freed

/-- A file page is faulted in with the rights of its area. -/
theorem faultFilePage_spec : Disciplined rule attr hand (s.faultFilePage host id vma page).2 := by
  unfold faultFilePage
  split
  · exact inv
  dsimp only
  split
  · exact mapCached_spec host inv live meant
  · exact privateCopy_spec host inv live meant

/-- So is any page. -/
theorem faultIn_spec : Disciplined rule attr hand (s.faultIn host id vma page).2 := by
  unfold faultIn
  split
  · exact faultFilePage_spec host inv live meant
  · exact allocPage_spec inv live meant rfl

end

/-! ### The handlers -/

section

variable (sound : Sound rule s) (live : (s.space id).live)

include sound live

/-- Bringing in a page of the area that was found or grown. -/
theorem faultIn_extends
    (found : attrsAt (s.space id).vmas page = some vma.attrs) :
    Extends rule id s (s.faultIn host id vma page).2 :=
  .keep sound ⟨faultIn_spec host sound.disciplined live
    (areaRights_of_attrsAt (sound.regular id live) found), .faultIn host s id vma page⟩

/-- A translation fault extends at most the stack of its space. -/
theorem handleTranslationFault_extends :
    Extends rule id s (s.handleTranslationFault host id far access).2 := by
  obtain ⟨next, found⟩ := areaFor_extends sound live (.inl rfl)
  unfold handleTranslationFault
  dsimp only
  split
  · exact next
  rename_i vma looked
  split
  · exact next
  · split
    · exact next
    · exact next.trans (faultIn_extends host next.sound (next.isLive live) (found vma looked))

/-- The permission handler gives the leaf the rights of its area. -/
theorem handlePermissionFault_acts
    (obeys : ∀ vma, vmaLookup (s.space id).vmas (pageBase far) = some vma →
      accessAllowed vma access →
      RangeObeys rule (fun rights => rights) s id
        (pageBase far) (pageBase far + pageSize) vma.prot) :
    Acts rule id (fun _ => True) s (s.handlePermissionFault id far access).2 := by
  unfold handlePermissionFault
  dsimp only
  split
  · exact .refl sound
  rename_i vma looked
  split
  · exact .refl sound
  rename_i refused
  have allowed : accessAllowed vma access := by
    simpa using (not_or.mp refused).1
  exact protectRange_acts sound live (obeys vma looked allowed)

end

section

variable (access : VmmAccess) (page : Nat) (sound : Sound rule s) (live : (s.space id).live = true)

include sound live

/-- A page is made present for the kernel. -/
theorem presentPage_extends {current : SpaceId} (own : GrowsOwn s current id page) :
    Extends rule id s (presentPage host current id access page s).2 := by
  unfold presentPage
  split
  · exact .refl sound
  obtain ⟨next, found⟩ := areaFor_extends sound live own
  dsimp only
  split
  · exact next
  rename_i vma looked
  split
  · exact next
  · exact next.trans (faultIn_extends host next.sound (next.isLive live) (found vma looked))

/-- A page is made writable for it. -/
theorem writablePage_extends : Extends rule id s (writablePage id access page s).2 := by
  unfold writablePage
  split
  · exact .keep sound ⟨handleCowFault_spec sound.disciplined live, .handleCowFault s id page⟩
  · exact .refl sound

/-- Both: what a copy to or from the program does first. -/
theorem ensurePage_extends {current : SpaceId} (own : GrowsOwn s current id page) :
    Extends rule id s (ensurePage host current id access page s).2 := by
  have present := presentPage_extends host access page sound live own
  unfold ensurePage
  dsimp only
  split
  · exact present
  have opened := present.trans (writablePage_extends access page present.sound
    (present.isLive live))
  split
  · exact opened
  · exact opened

end

/-- `cell_domain_ensure_user_range` may grow a stack area. -/
theorem ensureUserRange_extends {current : SpaceId} (sound : Sound rule s)
    (live : (s.space id).live)
    (own : ∀ k ≤ (pageBase (va + (len - 1)) - pageBase va) / pageSize,
      GrowsOwn s current id (pageBase va + k * pageSize)) :
    Extends rule id s (s.ensureUserRange host current id va len access).2 := by
  unfold ensureUserRange
  split
  · exact .refl sound
  split
  · exact .refl sound
  · refine countUp_keeps (Extends rule id s) _ 0 ?_ (.refl sound)
    intro k now _ inside grown
    exact grown.trans (ensurePage_extends host access _ grown.sound (grown.isLive live)
      ((own k (by omega)).later grown))

end FileFaults

/-- The area that `vma_lookup_range` finds covers the range. -/
theorem attrsAt_of_lookupRange (tidy : vmaView.Tidy list.slots)
    (found : vmaLookupRange list start stop = some vma) (low : start ≤ va) (high : va < stop) :
    attrsAt list va = some vma.attrs := by
  unfold vmaLookupRange at found
  split at found
  · contradiction
  have hit := List.find?_some found
  simp only [Bool.and_eq_true, decide_eq_true_eq] at hit
  rw [attrsAt_eq]
  exact (tidy.valueAt_eq_some _).mpr
    ⟨vma, List.mem_of_find?_eq_some found,
      ⟨hit.1.1, Nat.le_trans hit.1.2 low, Nat.lt_of_lt_of_le high hit.2⟩, rfl⟩

/-- `cell_prefault_anon_vma` fills pages of one area, or takes them out again. -/
theorem prefaultAnonVma_acts {quiet : Nat → Prop} (start stop : Nat) (sound : Sound rule s)
    (live : (s.space id).live) : Acts rule id quiet s (s.prefaultAnonVma id start stop).2 := by
  have same := SameAreas.prefaultAnonVma s id start stop
  suffices kept : Sound rule (s.prefaultAnonVma id start stop).2 by
    exact .keep sound ⟨same.areaRights ▸ kept.disciplined, same⟩
  unfold prefaultAnonVma
  split
  · exact sound
  split
  · exact sound
  rename_i vma found
  split
  · exact sound
  refine (countUp_keeps (fun now => Sound rule now ∧ SameAreas s now) _ 0 ?_ ⟨sound, .refl s⟩).1
  intro k now _ inside ⟨good, same⟩
  have live' := same.isLive live
  have regular := good.regular id live'
  have covered : attrsAt (now.space id).vmas (start + k * pageSize) = some vma.attrs := by
    rw [same.vmas]
    exact attrsAt_of_lookupRange (sound.regular id live).tidy found (by omega)
      (lt_of_lt_rounds (by omega))
  dsimp only
  split
  · exact ⟨good, same⟩
  have areas := SameAreas.allocPage now id (start + k * pageSize) vma.prot
  have filled := good.keep
    ⟨allocPage_spec good.disciplined live' (areaRights_of_attrsAt regular covered) rfl, areas⟩
  split
  · exact ⟨filled, same.trans areas⟩
  · have emptied := SameAreas.unmapRange (now.allocPage id (start + k * pageSize) vma.prot).2 id
      start (start + k * pageSize)
    exact ⟨filled.keep ⟨(unmapRange_spec filled.disciplined (areas.isLive live')).1, emptied⟩,
      (same.trans areas).trans emptied⟩

end Spore.Mm
