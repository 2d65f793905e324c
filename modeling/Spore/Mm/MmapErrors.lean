import Spore.Mm.Isolation

/-!
# What a failed `mmap` leaves behind (`sys_mem.c`)

`sys_mmap` removes what a `MAP_FIXED` mapping replaces before it looks at the descriptor, at the
seals and for a slot, and nothing puts the old mappings back. So a failed call is harmless where
it does not come to the removal, and where the removal finds nothing. A shared anonymous mapping
is filled at once and removed again when memory runs out; that one error is left aside here.
-/

namespace Spore.Mm

open Spore.Lib Memory

variable {F : Type} {s : Memory F} {id : SpaceId} {call : MmapCall} {base stop : Nat}

/-- Every address space has the areas, the page tables and the mapped bytes it had. -/
structure SameMappings (s s' : Memory F) : Prop where
  /-- Each address has the area attributes it had. -/
  areas : ∀ j, attrsAt (s'.space j).vmas = attrsAt (s.space j).vmas
  /-- The roots of the page tables. -/
  roots : ∀ j, (s'.space j).as.rootPa = (s.space j).as.rootPa
  /-- The words of all levels. -/
  words : s'.entry = s.entry
  /-- The contents of mapped pages. -/
  bytes : ∀ j index, (s.space j).live = true → isValid (s.entry j 3 index) = true →
    s'.phys.bytes (pageOf (s.entry j 3 index)) = s.phys.bytes (pageOf (s.entry j 3 index))

/-- Neither an area nor a valid leaf is in the range. -/
structure Vacant (s : Memory F) (id : SpaceId) (base stop : Nat) : Prop where
  /-- No address lies in an area. -/
  areas : ∀ va, base ≤ va → va < stop → attrsAt (s.space id).vmas va = none
  /-- No page is mapped. -/
  leaves : ∀ k < rounds base stop,
    isValid (s.entry id 3 (walkIndex (base + k * pageSize) 3)) = false

/-- The pages of the mapping are allocated by the call itself. -/
def MmapCall.Prefaults (call : MmapCall) : Prop :=
  hasFlag call.flags mapAnonymous = true ∧ hasFlag call.flags mapSharedArg = true ∧
    anonType call = .anon

/-- The call passes the checks that come first, and replaces what the range holds. -/
structure MmapCall.Replaces (call : MmapCall) (space : Space) (base stop : Nat) : Prop where
  /-- The call has `MAP_FIXED`. -/
  fixed : hasFlag call.flags mapFixed = true
  /-- The range it asks for. -/
  range : mmapRange space call = .ok (base, stop, false)
  /-- Length, kind and descriptor are acceptable. -/
  proper : ¬ (call.len = 0 ∨ hasFlag call.flags mapPrivate = hasFlag call.flags mapSharedArg ∨
    (hasFlag call.flags mapAnonymous = false ∧ call.fd < 0))
  /-- `MAP_FIXED_NOREPLACE` does not refuse the range. -/
  vacant : ¬ (hasFlag call.flags mapFixedNoreplace = true ∧
    vmaOverlaps space.vmas base stop = true)
  /-- The memory cap and the rights of the file allow it. -/
  allowed : call.allowed = true

/-- The call ran out of memory while it filled its mapping. -/
def MmapCall.RanOut (call : MmapCall) (result : Int) : Prop :=
  call.Prefaults ∧ call.allowed = true ∧ result = -eNomem

/-- Nothing changed. -/
theorem SameMappings.refl (s : Memory F) : SameMappings s s :=
  ⟨fun _ => rfl, fun _ => rfl, rfl, fun _ _ _ _ => rfl⟩

/-- Where new areas are looked for is not part of the mappings. -/
theorem SameMappings.setMmapBase (s : Memory F) (id : SpaceId) (base : Nat) :
    SameMappings s (s.setMmapBase id base) := by
  refine ⟨fun j => by rw [setMmapBase_vmas], fun j => ?_, setMmapBase_entry s id,
    fun _ _ _ _ => rfl⟩
  simp only [Memory.setMmapBase, setSpace]
  split <;> rfl

section

variable (host : FileHost F)

/-- The range of a fixed mapping is the one that was asked for. -/
theorem mmapRange_fixed {space : Space} {moved : Bool} (fixed : hasFlag call.flags mapFixed)
    (range : mmapRange space call = .ok (base, stop, moved)) :
    moved = false ∧ rangeEnd base call.len = some stop := by
  have either : hasFlag call.flags (mapFixed ||| mapFixedNoreplace) := by
    simp only [hasFlag, bne_iff_ne, ne_eq, BitVec.and_or_distrib_left] at fixed ⊢
    exact fun none => fixed (BitVec.or_eq_zero_iff.mp none).1
  unfold mmapRange at range
  simp only [either] at range
  split at range
  · contradiction
  · simp_all

/-- The range is not empty. -/
theorem MmapCall.Replaces.nonempty {space : Space} (replaces : call.Replaces space base stop) :
    base < stop := by
  have long : call.len ≠ 0 := fun none => replaces.proper (.inl none)
  have ends := (mmapRange_fixed replaces.fixed replaces.range).2
  unfold rangeEnd checkedAdd at ends
  split at ends <;> simp_all
  omega

/-! ## Removal from a range that holds nothing -/

section

variable {rule : LeafRule} {attr : SpaceId → Nat → Option AreaRights} {hand : Multiset Nat}
  (tidy : vmaView.Tidy (s.space id).vmas.slots)

include tidy

/-- There is no shared mapping to write back. -/
theorem flushShared_vacant (nonempty : base < stop) (vacant : Vacant s id base stop) :
    s.flushShared host id base stop = (true, s) := by
  have skipped : ∀ slots : List Vma,
      (∀ vma ∈ slots, vma.used → vma.stop ≤ base ∨ stop ≤ vma.start) →
      flushSharedFileVmas host id base stop slots s = (true, s) := by
    intro slots
    induction slots with
    | nil => exact fun _ => rfl
    | cons vma rest ih =>
      intro apart
      rw [flushSharedFileVmas, if_pos]
      · exact ih fun other member => apart other (List.mem_cons_of_mem _ member)
      · cases used : vma.used with
        | false => exact .inl rfl
        | true => exact .inr (apart vma List.mem_cons_self used)
  unfold flushShared
  split
  · rfl
  apply skipped
  intro vma member used
  have proper : vma.start < vma.stop := tidy.proper vma member used
  -- An area that reaches into the range has an address in it.
  by_cases outside : vma.stop ≤ base ∨ stop ≤ vma.start
  · exact outside
  have none := vacant.areas (max base vma.start) (le_max_left _ _) (by omega)
  rw [attrsAt, Option.map_eq_none_iff, vmaLookup, List.find?_eq_none] at none
  exact absurd (none vma member) (by simp [used]; omega)

end

/-- There is no page to unmap. -/
theorem unmapRange_vacant (vacant : Vacant s id base stop) : s.unmapRange id base stop = s := by
  have loop : ∀ n ≤ rounds base stop,
      (List.range n).foldl (fun s k => unmapLeaf id s (base + k * pageSize)) s = s := by
    intro n
    induction n with
    | zero => exact fun _ => rfl
    | succ n ih =>
      intro inside
      rw [List.range_succ, List.foldl_append, ih (by omega), List.foldl_cons, List.foldl_nil,
        unmapLeaf]
      cases found : s.validLeaf id (base + n * pageSize) with
      | none => rfl
      | some index =>
        obtain ⟨rfl, valid⟩ := validLeaf_eq found
        cases valid.symm.trans (vacant.leaves n inside)
  exact loop _ le_rfl

section

variable {rule : LeafRule} (sound : Sound rule s) (live : (s.space id).live = true)

include sound live

/-- Removing nothing changes no mapping. -/
theorem SameMappings.removeVma (nonempty : base < stop) (vacant : Vacant s id base stop) :
    SameMappings s (s.removeVma host id base stop).2 := by
  have tidy := (sound.regular id live).tidy
  unfold Memory.removeVma
  rw [flushShared_vacant host tidy nonempty vacant]
  dsimp only
  rw [if_neg (by decide), unmapRange_vacant vacant]
  have recast := withVmas_recast (fun list phys => vmaRemove (physVmaHost host) list base stop phys)
    (vmaRemove_outcome (physVmaHost host) base stop s.phys tidy)
  refine ⟨fun j => ?_, fun j => congrArg UserAddressSpace.rootPa (as_setVmas _), recast.entry,
    fun j index live' valid => ?_⟩
  · by_cases here : j = id
    · subst here
      rw [recast.map]
      split
      · funext va
        unfold overwrite
        split
        · rename_i inside
          exact (vacant.areas va inside.1 inside.2).symm
        · rfl
      · rfl
    · rw [recast.others j here]
  · exact withVmas_bytes (fun accounts => vmaRemove_trades host base stop accounts)
      sound.disciplined live live' valid

/-- After a removal that succeeds the range holds nothing; where it changed no mapping, nothing
was there before. -/
theorem SameMappings.vacant (removed : (s.removeVma host id base stop).1 = true)
    (same : SameMappings s (s.removeVma host id base stop).2) : Vacant s id base stop := by
  have after : Vacant (s.removeVma host id base stop).2 id base stop := by
    revert removed
    unfold Memory.removeVma
    dsimp only
    split
    · exact fun failed => absurd failed Bool.false_ne_true
    have flushed : Flushes rule (areaRights s) 0 s (s.flushShared host id base stop).2 :=
      flushShared_spec host base stop sound.disciplined
    generalize (s.flushShared host id base stop).2 = now at flushed
    obtain ⟨-, -, gone⟩ := unmapRange_spec flushed.disciplined (flushed.areas.isLive live)
    have areas := flushed.areas.trans (.unmapRange now id base stop)
    generalize now.unmapRange id base stop = next at gone areas
    have tidy : vmaView.Tidy (next.space id).vmas.slots := by
      rw [areas.vmas]
      exact (sound.regular id live).tidy
    have recast := withVmas_recast
      (fun list phys => vmaRemove (physVmaHost host) list base stop phys)
      (vmaRemove_outcome (physVmaHost host) base stop next.phys tidy)
    intro removed
    rw [removed] at recast
    refine ⟨fun va low high => ?_, fun k inside => by rw [recast.entry]; exact gone k inside⟩
    rw [recast.map]
    exact if_pos ⟨low, high⟩
  refine ⟨fun va low high => ?_, fun k inside => ?_⟩
  · rw [← same.areas]
    exact after.areas va low high
  · rw [← same.words]
    exact after.leaves k inside

end

/-! ## The call -/

/-- An insertion that is refused changes nothing. -/
theorem withVmas_refused {area : Vma} {retain : Phys F → Phys F}
    {insert : VmaList → Phys F → Bool × VmaList × Phys F}
    (cases : Insertion (physVmaHost host) (s.space id).vmas s.phys area retain
      (insert (s.space id).vmas s.phys)) (failed : (s.withVmas id insert).1 = false) :
    (s.withVmas id insert).2 = s := by
  unfold withVmas at failed ⊢
  generalize insert (s.space id).vmas s.phys = result at cases failed
  cases cases with
  | done => cases failed
  | refused =>
    simp only [setVmas, setSpace, setPhys]
    congr
    funext j
    split <;> simp_all

/-- The end of a failed call has done no more than remove what the mapping was to replace. -/
theorem mmapInsert_failed
    (filled : ¬ (call.Prefaults ∧ (s.mmapInsert host id call base stop).1 = -eNomem))
    (failed : (s.mmapInsert host id call base stop).1 < 0) :
    (s.mmapInsert host id call base stop).2 =
      if hasFlag call.flags mapFixed then (s.removeVma host id base stop).2 else s := by
  have placed : ¬ (base : Int) < 0 := Int.not_lt.mpr (Int.natCast_nonneg base)
  revert filled failed
  unfold mmapInsert
  generalize (if hasFlag call.flags mapFixed then (s.removeVma host id base stop).2 else s) = now
  split
  · rename_i anon
    unfold mmapAnon
    dsimp only
    split
    · rename_i refused
      exact fun _ _ => withVmas_refused host (vmaInsert_cases _ _ _ _ _ _ _ _) refused
    split
    · rename_i both
      split
      · exact fun _ failed => absurd failed placed
      · exact fun filled => absurd ⟨⟨anon, both⟩, rfl⟩ filled
    · exact fun _ failed => absurd failed placed
  intro _
  unfold mmapFile
  split
  · exact fun _ => rfl
  split
  · exact fun _ => rfl
  split
  · exact fun _ => rfl
  dsimp only
  split
  · exact fun failed => absurd failed placed
  · rename_i refused
    exact fun _ => withVmas_refused host (vmaInsertFile_cases _ _ _ _ _ _ _ _ _ _ _)
      (Bool.eq_false_of_not_eq_true refused)

/-- What a failed call did: nothing to the mappings where it never came to the removal, and what
the removal does where it did. -/
theorem sysMmap_failed (filled : ¬ call.RanOut (s.sysMmap host id call).1)
    (failed : (s.sysMmap host id call).1 < 0) :
    (SameMappings s (s.sysMmap host id call).2 ∧
      ∀ base stop, ¬ call.Replaces (s.space id) base stop) ∨
    ∃ base stop, call.Replaces (s.space id) base stop ∧
      (∀ base' stop', call.Replaces (s.space id) base' stop' → base' = base ∧ stop' = stop) ∧
      (s.sysMmap host id call).2 = (s.removeVma host id base stop).2 := by
  revert filled failed
  unfold sysMmap
  dsimp only
  split
  · rename_i improper
    exact fun _ _ => .inl ⟨.refl s, fun _ _ replaces => replaces.proper improper⟩
  rename_i proper
  cases range : mmapRange (s.space id) call with
  | error code =>
    refine fun _ _ => .inl ⟨.refl s, fun _ _ replaces => ?_⟩
    cases replaces.range.symm.trans range
  | ok found =>
    obtain ⟨base, stop, moved⟩ := found
    dsimp only
    have same : SameMappings s (if moved then s.setMmapBase id stop else s) := by
      split
      · exact .setMmapBase s id stop
      · exact .refl s
    have unmoved : hasFlag call.flags mapFixed = true →
        (if moved then s.setMmapBase id stop else s) = s :=
      fun fixed => by rw [(mmapRange_fixed fixed range).1]; rfl
    have there : ∀ base' stop', call.Replaces (s.space id) base' stop' →
        base' = base ∧ stop' = stop := by
      intro base' stop' replaces
      cases replaces.range.symm.trans range
      exact ⟨rfl, rfl⟩
    generalize (if moved then s.setMmapBase id stop else s) = now at same unmoved ⊢
    split
    · rename_i taken
      refine fun _ _ => .inl ⟨same, fun base' stop' replaces => ?_⟩
      obtain ⟨rfl, rfl⟩ := there _ _ replaces
      rw [unmoved replaces.fixed] at taken
      exact replaces.vacant taken
    rename_i vacant
    split
    · rename_i denied
      refine fun _ _ => .inl ⟨same, fun base' stop' replaces => ?_⟩
      cases replaces.allowed.symm.trans denied
    rename_i allowed
    intro filled failed
    have ended : (now.mmapInsert host id call base stop).1 < 0 := by
      split at failed <;> exact failed
    rw [if_neg fun done => absurd ended (Int.not_lt.mpr done.1)] at filled ⊢
    rw [mmapInsert_failed host (fun both => filled ⟨both.1, by simpa using allowed, both.2⟩) ended]
    split
    · rename_i fixed
      obtain rfl := unmoved fixed
      rw [(mmapRange_fixed fixed range).1] at range
      exact .inr ⟨base, stop, ⟨fixed, range, proper, vacant, by simpa using allowed⟩, there, rfl⟩
    · rename_i unfixed
      exact .inl ⟨same, fun _ _ replaces => unfixed replaces.fixed⟩

/-- A process that has mapped one page at `0x10000`. -/
def mappedOnce : Memory Unit :=
  (sampleBoot.step sampleHost (.exec ⟨[], 0, []⟩)).step sampleHost
    (.mmap 0 (sampleMmap false protRead))

/-- `mmap` of the same page through a descriptor that is not open. -/
def closedFile (fixed : BitVec 64) : MmapCall :=
  { sampleMmap true protRead with flags := mapPrivate ||| fixed, node := none }

end

end Spore.Mm
