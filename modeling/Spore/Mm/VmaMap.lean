import Spore.Lib.Slots
import Spore.Mm.Vma

/-!
# The area list as a map from addresses

The list functions place areas in whatever slot is free, split them, merge them and replace
the whole slot array. None of that is visible to a lookup: at every address the list gives
the attributes that a partial function of addresses, updated once per call, gives.
-/

namespace Spore.Mm

open Spore.Lib List

variable {fuel x start stop : Nat} {v w : Vma}

/-- Where a file area takes its bytes from: the file, and which file position each address
stands for. -/
structure FilePosition where
  key : FileKey
  /-- The address at which `offset` is mapped. -/
  start : Nat
  /-- File position of `start`. -/
  offset : Nat
  /-- Bytes of the file that the mapping shows. -/
  size : Nat
  deriving Repr, DecidableEq

/-- What a lookup tells about an address. -/
structure VmaAttrs where
  /-- `VMM_USER_*` rights. -/
  prot : UInt32
  /-- `MAP_*` flags. -/
  flags : UInt32
  type : VmaType
  /-- File and position, for file areas only. -/
  file : Option FilePosition
  deriving Repr, DecidableEq

/-- The attributes of an area. -/
def Vma.attrs (vma : Vma) : VmaAttrs where
  prot := vma.prot
  flags := vma.flags
  type := vma.type
  file := if vma.type = .file then
      some ⟨vma.fileNode.key, vma.fileStart, vma.fileOffset, vma.fileSize⟩
    else none

/-- Areas as ranges carrying attributes. -/
def vmaView : SlotView Vma VmaAttrs := ⟨Vma.used, Vma.start, Vma.stop, Vma.attrs⟩

/-- An area covers the addresses of its range while its slot is in use. -/
@[simp] theorem vmaView_hits :
    vmaView.Hits v x ↔ v.used ∧ v.start ≤ x ∧ x < v.stop := Iff.rfl

/-- Separate areas. -/
@[simp] theorem vmaView_apart :
    vmaView.Apart v w ↔ v.stop ≤ w.start ∨ w.stop ≤ v.start := Iff.rfl

/-- The value of an area is its attributes. -/
@[simp] theorem vmaView_val : vmaView.val v = v.attrs := rfl

/-- The attributes of a piece of an area are those of the area. -/
@[simp high] theorem attrs_piece :
    ({ v with start, stop } : Vma).attrs = v.attrs := rfl

/-- The attributes of a piece whose rights were replaced. -/
@[simp] theorem attrs_protected (prot : UInt32) :
    ({ v with start, stop, prot } : Vma).attrs = { v.attrs with prot } := rfl

/-- The map that a list denotes. -/
def attrsAt (list : VmaList) (va : Nat) : Option VmaAttrs := (vmaLookup list va).map Vma.attrs

/-- The scan of `vma_lookup` is the scan of the slot table. -/
theorem attrsAt_eq (list : VmaList) : attrsAt list = vmaView.valueAt list.slots := by
  funext va
  simp only [attrsAt, vmaLookup, SlotView.valueAt, SlotView.find]
  congr 2
  funext vma
  rw [Bool.eq_iff_iff, decide_eq_true_iff]
  simp [SlotView.Hits, vmaView, and_assoc]

/-- Areas that may be merged have the same attributes. -/
theorem compatible_attrs {a b : Vma} (h : compatible a b) : a.attrs = b.attrs := by
  unfold compatible at h
  split at h
  · contradiction
  rename_i same
  obtain ⟨prot, flags, type⟩ : a.prot = b.prot ∧ a.flags = b.flags ∧ a.type = b.type := by
    simpa [not_or] using same
  split at h
  · rename_i notFile
    simp [Vma.attrs, prot, flags, ← type, notFile]
  · simp only [Bool.and_eq_true, decide_eq_true_eq] at h
    simp [Vma.attrs, VfsNode.key, prot, flags, type, h]

/-- The overlap test is exactly the failure of separation for nonempty ranges. -/
theorem overlaps_eq_false {s t u v : Nat} : overlaps s t u v = false ↔ v ≤ s ∨ t ≤ u := by
  simp only [overlaps, Bool.and_eq_false_iff, decide_eq_false_iff_not, Nat.not_lt]

section Host

variable {σ : Type} (host : VmaHost σ)
variable {list next : VmaList} {world after : σ} {index i j : Nat} {a b whole new : Vma}
  {parts : Vma → List Vma} {change : VmaAttrs → Option VmaAttrs} {retain : σ → σ}

/-! ## Slots -/

/-- The slot found is unused. -/
theorem freeSlot_unused {list : VmaList} {index : Nat} (found : freeSlot list = some index) :
    ∃ old, list.slots[index]? = some old ∧ old.used = false := by
  obtain ⟨inside, unused, -⟩ := findIdx?_eq_some_iff_getElem.mp found
  exact ⟨list.slots[index], getElem?_eq_getElem inside, by simpa using unused⟩

/-- A new chunk holds unused slots only. -/
theorem addChunk_dead {vma : Vma} (member : vma ∈ replicate vmasPerChunk Vma.zero) :
    vmaView.live vma = false := by
  rw [eq_of_mem_replicate member]
  rfl

section

variable {host}

/-- A slot is allocated in the list itself or in the list grown by a chunk of empty slots. -/
theorem allocSlot_cases (allocated : allocSlot host list world = some (index, next, after)) :
    (∃ old, next.slots[index]? = some old ∧ old.used = false) ∧
      (next = list ∧ after = world ∨ ∃ pa, list.chunkPa.length < vmaMaxChunks ∧
        host.chunkAlloc world = some (pa, after) ∧ next = list.addChunk pa) := by
  unfold allocSlot at allocated
  split at allocated
  · rename_i found
    obtain ⟨rfl, rfl, rfl⟩ := allocated
    exact ⟨freeSlot_unused found, .inl ⟨rfl, rfl⟩⟩
  split at allocated
  · contradiction
  rename_i grown chunk
  split at allocated
  · rename_i found
    obtain ⟨rfl, rfl, rfl⟩ := allocated
    refine ⟨freeSlot_unused found, .inr ?_⟩
    simp only [ensureChunk] at chunk
    split at chunk
    · contradiction
    rename_i room
    split at chunk
    · contradiction
    rename_i pa _ taken
    obtain ⟨rfl, rfl⟩ := chunk
    exact ⟨pa, Nat.not_le.mp room, taken, rfl⟩
  · contradiction

/-- Storing a separate area in the allocated slot adds exactly that area. -/
theorem allocSlot_fill (allocated : allocSlot host list world = some (index, next, after))
    (tidy : vmaView.Tidy list.slots) (proper : new.start < new.stop)
    (apart : ∀ c ∈ list.slots, c.used → vmaView.Apart new c) :
    vmaView.Added list.slots (next.setSlot index new).slots new := by
  obtain ⟨⟨old, stored, unused⟩, ⟨same, -⟩ | ⟨pa, -, -, grown⟩⟩ := allocSlot_cases allocated
  · subst same
    exact tidy.fill stored unused proper apart
  subst grown
  have apart' : ∀ c ∈ (list.addChunk pa).slots, vmaView.live c → vmaView.Apart new c := by
    intro c member live
    rcases mem_append.mp member with here | there
    · exact apart c here live
    · simp [addChunk_dead there] at live
  have added := (tidy.append_dead fun _ => addChunk_dead).fill stored unused proper apart'
  refine ⟨added.tidy, fun x a => (added.covers x a).trans ?_, fun c member live => ?_⟩
  · rw [SlotView.covers_append_dead fun _ => addChunk_dead]
  refine (added.origin c member live).imp_left fun ⟨old, _⟩ => ⟨?_, live⟩
  rcases mem_append.mp old with here | there
  · exact here
  · simp [addChunk_dead there] at live

/-- An added part is nonempty, and exactly it was added. -/
theorem addRawVma_added {src : Vma} (stored : addRawVma host list src world = some (next, after))
    (tidy : vmaView.Tidy list.slots) (apart : ∀ c ∈ list.slots, c.used → vmaView.Apart src c) :
    vmaView.Added list.slots next.slots { src with used := true } := by
  unfold addRawVma at stored
  split at stored
  · contradiction
  rename_i proper
  split at stored
  · contradiction
  rename_i allocated
  simp only [Option.some.injEq, Prod.mk.injEq] at stored
  rw [← stored.1]
  exact allocSlot_fill allocated tidy (Nat.not_le.mp proper) apart

/-! ## Merging -/

/-- Two lists denote the same map, the second one being tidy. -/
structure Agrees (before after : VmaList) : Prop where
  /-- The areas are disjoint. -/
  tidy : vmaView.Tidy after.slots
  /-- No address changed its attributes. -/
  covers : ∀ x a, vmaView.Covers after.slots x a ↔ vmaView.Covers before.slots x a

/-- A list agrees with itself. -/
theorem Agrees.refl (tidy : vmaView.Tidy list.slots) : Agrees list list :=
  ⟨tidy, fun _ _ => Iff.rfl⟩

/-- Agreement in two steps. -/
theorem Agrees.trans {a b c : VmaList} (first : Agrees a b) (second : Agrees b c) : Agrees a c :=
  ⟨second.tidy, fun x v => (second.covers x v).trans (first.covers x v)⟩

/-- Slot `i` holds an area. -/
def UsedAt (list : VmaList) (i : Nat) : Prop := ∃ a, list.slots[i]? = some a ∧ a.used = true

/-- What one merge does: slot `i` takes over the adjoining range of slot `j`, whose area is
compatible and is released. -/
structure Merge (host : VmaHost σ) (i j : Nat) (list : VmaList) (world : σ) (a b whole : Vma)
    (next : VmaList) (after : σ) : Prop where
  /-- The first area. -/
  at_i : list.slots[i]? = some a
  /-- The second area. -/
  at_j : list.slots[j]? = some b
  /-- They are two. -/
  distinct : i ≠ j
  /-- The second is used. -/
  used : b.used = true
  /-- They may be merged. -/
  same : compatible a b = true
  /-- They touch, on either side. -/
  joins : a.stop = b.start ∧ whole = { a with stop := b.stop } ∨
    b.stop = a.start ∧ whole = { a with start := b.start }
  /-- The first becomes the whole. -/
  slots : next = (list.setSlot i whole).setSlot j { b with used := false }
  /-- The file of the second is released. -/
  released : after = releaseFile host b world

/-- When two slots merge they were a pair of areas that touch. -/
theorem mergePair_cases (merged : mergePair host i j list world = some (next, after)) :
    ∃ a b whole, Merge host i j list world a b whole next after := by
  unfold mergePair at merged
  split at merged
  · rename_i a b at_i at_j
    split at merged
    · contradiction
    rename_i eligible
    obtain ⟨distinct, used⟩ : i ≠ j ∧ b.used := by simpa [not_or] using eligible
    split at merged
    · rename_i adjoining
      simp only [Option.some.injEq, Prod.mk.injEq] at merged
      exact ⟨a, b, _, at_i, at_j, distinct, used, adjoining.2, .inl ⟨adjoining.1, rfl⟩,
        merged.1.symm, merged.2.symm⟩
    · split at merged
      · rename_i adjoining
        simp only [Option.some.injEq, Prod.mk.injEq] at merged
        exact ⟨a, b, _, at_i, at_j, distinct, used, adjoining.2, .inr ⟨adjoining.1, rfl⟩,
          merged.1.symm, merged.2.symm⟩
      · contradiction
  · contradiction

section

variable (merge : Merge host i j list world a b whole next after)

include merge

/-- Slot `i` holds the joined area afterwards. -/
theorem Merge.getElem_i : next.slots[i]? = some whole := by
  have inside := (List.getElem?_eq_some_iff.mp merge.at_i).1
  rw [merge.slots]
  change ((list.slots.set i whole).set j _)[i]? = some whole
  rw [List.getElem?_set_ne (Ne.symm merge.distinct), List.getElem?_set_self inside]

/-- Joining changes the range only. -/
theorem Merge.whole_used : whole.used = a.used := by
  rcases merge.joins with ⟨-, rfl⟩ | ⟨-, rfl⟩ <;> rfl

/-- One merge leaves the denoted map as it was. -/
theorem Merge.agrees (used : a.used) (tidy : vmaView.Tidy list.slots) : Agrees list next := by
  have value := compatible_attrs merge.same
  rw [merge.slots]
  rcases merge.joins with ⟨ends, rfl⟩ | ⟨ends, rfl⟩
  · obtain ⟨tidy', covers⟩ := tidy.fuse { a with stop := b.stop } { b with used := false }
      merge.distinct merge.at_i merge.at_j used merge.used used rfl ⟨rfl, value⟩
      (.inl ⟨ends, rfl, rfl⟩)
    exact ⟨tidy', covers⟩
  · obtain ⟨tidy', covers⟩ := tidy.fuse { a with start := b.start } { b with used := false }
      merge.distinct merge.at_i merge.at_j used merge.used used rfl ⟨rfl, value⟩
      (.inr ⟨ends, rfl, rfl⟩)
    exact ⟨tidy', covers⟩

end

/-- A property of a list and the world around it that every merge keeps. -/
structure MergeKeeps (host : VmaHost σ) (holds : VmaList → σ → Prop) : Prop where
  /-- A merge keeps it. -/
  merge : ∀ {i j : Nat} {list next : VmaList} {world after : σ} {a b whole : Vma},
    Merge host i j list world a b whole next after → a.used = true → holds list world →
      holds next after

section MergeKeeps

variable {holds : VmaList → σ → Prop}

section

variable (keeps : MergeKeeps host holds)

include keeps

/-- A row of pairs, by induction over its length. -/
theorem MergeKeeps.mergeRow (i fuel : Nat) :
    ∀ (j : Nat) (list : VmaList) (world : σ), UsedAt list i → holds list world →
      holds (Mm.mergeRow host i fuel j list world).1 (Mm.mergeRow host i fuel j list world).2 := by
  induction fuel with
  | zero => exact fun _ _ _ _ held => held
  | succ fuel ih =>
    intro j list world used held
    unfold Mm.mergeRow
    split
    · exact held
    split
    · rename_i next after merged
      obtain ⟨a, b, whole, merge⟩ := mergePair_cases merged
      obtain ⟨x, at_i, live⟩ := used
      obtain rfl : x = a := Option.some.inj (at_i.symm.trans merge.at_i)
      exact ih 1 next after ⟨whole, merge.getElem_i, merge.whole_used.trans live⟩
        (keeps.merge merge live held)
    · exact ih (j + 1) list world used held

/-- All rows. -/
theorem MergeKeeps.mergeRows (rest : Nat) :
    ∀ (i : Nat) (list : VmaList) (world : σ), holds list world →
      holds (Mm.mergeRows host rest i list world).1 (Mm.mergeRows host rest i list world).2 := by
  induction rest with
  | zero => exact fun _ _ _ held => held
  | succ rest ih =>
    intro i list world held
    unfold Mm.mergeRows
    split
    · rename_i a stored
      split
      · rename_i used
        have row := keeps.mergeRow i (mergeFuel list) 0 list world ⟨a, stored, used⟩ held
        exact ih (i + 1) _ _ row
      · exact ih (i + 1) list world held
    · exact held

/-- What every merge keeps, `merge_adjacent` keeps. -/
theorem MergeKeeps.mergeAdjacent (held : holds list world) :
    holds (Mm.mergeAdjacent host list world).1 (Mm.mergeAdjacent host list world).2 :=
  keeps.mergeRows _ _ _ _ held

end

end MergeKeeps

section

variable (host)

/-- Merging is invisible to lookups. -/
theorem mergeAdjacent_agrees (world : σ) (tidy : vmaView.Tidy list.slots) :
    Agrees list (mergeAdjacent host list world).1 := by
  have keeps : MergeKeeps host fun now _ => Agrees list now :=
    ⟨fun merge used agrees => agrees.trans (merge.agrees used agrees.tidy)⟩
  exact keeps.mergeAdjacent (.refl tidy)

/-- Storing an area changes a count by that slot. -/
theorem countP_setSlot {old : Vma} (p : Vma → Bool) (new : Vma)
    (stored : list.slots[index]? = some old) :
    (list.setSlot index new).slots.countP p + (p old).toNat =
      list.slots.countP p + (p new).toNat := by
  obtain ⟨inside, rfl⟩ := List.getElem?_eq_some_iff.mp stored
  have least : (p list.slots[index]).toNat ≤ list.slots.countP p := by
    cases counted : p list.slots[index] with
    | false => exact Nat.zero_le _
    | true => exact List.countP_pos_iff.mpr ⟨_, List.getElem_mem inside, counted⟩
  show (list.slots.set index new).countP p + _ = _
  rw [List.countP_set inside]
  generalize p list.slots[index] = before at least ⊢
  cases before <;> cases p new <;>
    simp only [Bool.toNat_true, Bool.toNat_false, ↓reduceIte, Bool.false_eq_true] at least ⊢ <;>
    omega

/-- A merge takes the absorbed area from every count of areas in use that does not look at their
edges. -/
theorem Merge.countP {host : VmaHost σ} (merge : Merge host i j list world a b whole next after)
    {p : Vma → Bool} (blind : ∀ (vma : Vma) (start stop : Nat), p { vma with start, stop } = p vma)
    (dead : ∀ vma, vma.used = false → p vma = false) :
    next.slots.countP p + (p b).toNat = list.slots.countP p := by
  have first := countP_setSlot p whole merge.at_i
  have other : (list.setSlot i whole).slots[j]? = some b := by
    rw [← merge.at_j]
    exact getElem?_set_ne merge.distinct
  have second := countP_setSlot p { b with used := false } other
  have same : p whole = p a := by
    rcases merge.joins with ⟨-, rfl⟩ | ⟨-, rfl⟩
    · exact blind a a.start b.stop
    · exact blind a b.start a.stop
  rw [dead { b with used := false } rfl] at second
  rw [merge.slots]
  rw [same] at first
  simp only [Bool.toNat_false] at second
  omega

/-- Slots in use. -/
def usedCount (list : VmaList) : Nat := list.slots.countP (·.used)

variable {host} in
/-- A merge empties one slot and adds none. -/
theorem mergePair_usedCount (merged : mergePair host i j list world = some (next, after)) :
    usedCount next + 1 = usedCount list ∧ next.slots.length = list.slots.length := by
  obtain ⟨a, b, whole, merge⟩ := mergePair_cases merged
  have counted := merge.countP (p := (·.used)) (fun _ _ _ => rfl) fun _ unused => unused
  rw [merge.used] at counted
  refine ⟨counted, ?_⟩
  rw [merge.slots]
  simp [VmaList.setSlot]

/-- The inner loop of `merge_adjacent` as the source has it, with no bound: so many tests of a
slot, until the index has passed the capacity. -/
inductive Scans (host : VmaHost σ) (i : Nat) : Nat → Nat → VmaList → σ → VmaList × σ → Prop
  /-- The index has passed the capacity. -/
  | past {j : Nat} {list : VmaList} {world : σ} (beyond : list.slots.length ≤ j) :
      Scans host i 0 j list world (list, world)
  /-- A merge starts the scan again. -/
  | merge {rounds j : Nat} {list next : VmaList} {world after : σ} {last : VmaList × σ}
      (inside : j < list.slots.length)
      (merged : mergePair host i j list world = some (next, after))
      (rest : Scans host i rounds 1 next after last) : Scans host i (rounds + 1) j list world last
  /-- A slot that does not merge is passed. -/
  | pass {rounds j : Nat} {list : VmaList} {world : σ} {last : VmaList × σ}
      (inside : j < list.slots.length) (apart : mergePair host i j list world = none)
      (rest : Scans host i rounds (j + 1) list world last) :
      Scans host i (rounds + 1) j list world last

/-- A bound that exceeds the tests still possible is not reached: a merge leaves a used slot less,
and between two merges the index only grows. -/
theorem mergeRow_scans : ∀ (j : Nat) (list : VmaList) (world : σ),
    usedCount list * (list.slots.length + 1) + (list.slots.length - j) < fuel →
    ∃ rounds < fuel, Scans host i rounds j list world (mergeRow host i fuel j list world) := by
  induction fuel with
  | zero => exact fun _ _ _ bound => absurd bound (Nat.not_lt_zero _)
  | succ fuel ih =>
    intro j list world bound
    unfold mergeRow
    by_cases done : list.slots.length ≤ j
    · rw [if_pos done]
      exact ⟨0, by omega, .past done⟩
    rw [if_neg done]
    cases merged : mergePair host i j list world with
    | none =>
      obtain ⟨rounds, few, scans⟩ := ih (j + 1) list world (by omega)
      exact ⟨rounds + 1, by omega, .pass (by omega) merged scans⟩
    | some outcome =>
      obtain ⟨next, after⟩ := outcome
      obtain ⟨fewer, same⟩ := mergePair_usedCount merged
      have smaller : usedCount next * (next.slots.length + 1) + (next.slots.length - 1) < fuel := by
        rw [← fewer, Nat.succ_mul] at bound
        rw [same]
        omega
      obtain ⟨rounds, few, scans⟩ := ih 1 next after smaller
      exact ⟨rounds + 1, by omega, .merge (by omega) merged scans⟩

/-- The source's unbounded inner loop leaves for every list, because its index passes the
capacity, within the tests that `merge_adjacent` is given here and with the same result. -/
theorem mergeFuel_suffices :
    ∃ rounds < mergeFuel list,
      Scans host i rounds 0 list world (mergeRow host i (mergeFuel list) 0 list world) := by
  apply mergeRow_scans
  have few : usedCount list ≤ list.slots.length := countP_le_length
  have scaled := Nat.mul_le_mul_right (list.slots.length + 1) few
  unfold mergeFuel
  rw [Nat.succ_mul]
  omega

/-! ## Rebuilding -/

section

variable {host}

/-- A property of the world that the counters of file nodes have no part in. -/
structure NodeKeeps (host : VmaHost σ) (holds : σ → Prop) : Prop where
  /-- A reference more keeps it. -/
  retain : ∀ {node : VfsNode} {world : σ}, holds world → holds (host.retainNode node world)
  /-- A reference less keeps it. -/
  release : ∀ {node : VfsNode} {world : σ}, holds world → holds (host.releaseNode node world)
  /-- A noted mapping keeps it. -/
  note : ∀ {node : VfsNode} {add : Bool} {world : σ}, holds world →
    holds (host.noteSharedWritableMapping node add world)

section NodeKeeps

variable {holds : σ → Prop} {world : σ}

section

variable (keeps : NodeKeeps host holds)

include keeps

/-- A reference to a file is taken. -/
theorem NodeKeeps.retainFile (vma : Vma) (held : holds world) :
    holds (Mm.retainFile host vma world) := by
  unfold Mm.retainFile
  split
  · split
    · exact keeps.note (keeps.retain held)
    · exact keeps.retain held
  · exact held

/-- A reference is given up. -/
theorem NodeKeeps.releaseFile (vma : Vma) (held : holds world) :
    holds (Mm.releaseFile host vma world) := by
  unfold Mm.releaseFile
  split
  · split
    · exact keeps.release (keeps.note held)
    · exact keeps.release held
  · exact held

/-- The references of all slots are. -/
theorem NodeKeeps.releaseSlots (slots : List Vma) :
    ∀ {world : σ}, holds world → holds (Mm.releaseSlots host slots world) := by
  induction slots with
  | nil => exact id
  | cons vma rest ih =>
    intro world held
    rw [Mm.releaseSlots]
    split
    · exact ih (keeps.releaseFile vma held)
    · exact ih held

end

end NodeKeeps

/-- A property of a list and the world around it that the list functions keep: it survives
merges, a new chunk, and an area of a certain kind that is stored in an unused slot. -/
structure ListRule (host : VmaHost σ) (fits : Vma → Prop) (holds : VmaList → σ → Prop) : Prop
    extends MergeKeeps host holds where
  /-- A new chunk keeps it. -/
  grow : ∀ {list : VmaList} {world after : σ} {pa : Nat}, holds list world →
    list.chunkPa.length < vmaMaxChunks → host.chunkAlloc world = some (pa, after) →
      holds (list.addChunk pa) after
  /-- A filled slot keeps it. -/
  fill : ∀ {list : VmaList} {world : σ} {index : Nat} {old vma : Vma}, holds list world →
    list.slots[index]? = some old → old.used = false → fits vma → vma.used = true →
      holds (list.setSlot index vma) (retainFile host vma world)

namespace ListRule

variable {fits : Vma → Prop} {holds : VmaList → σ → Prop}

section

variable (rule : ListRule host fits holds)

include rule

/-- A slot is allocated. -/
theorem allocSlot (held : holds list world)
    (allocated : Mm.allocSlot host list world = some (index, next, after)) : holds next after := by
  obtain ⟨-, ⟨rfl, rfl⟩ | ⟨pa, room, taken, rfl⟩⟩ := allocSlot_cases allocated
  · exact held
  · exact rule.grow held room taken

/-- Storing in the slot that was allocated. -/
theorem store {vma : Vma} (held : holds list world)
    (allocated : Mm.allocSlot host list world = some (index, next, after)) (fit : fits vma)
    (used : vma.used) : holds (next.setSlot index vma) (retainFile host vma after) := by
  obtain ⟨⟨old, stored, unused⟩, -⟩ := allocSlot_cases allocated
  exact rule.fill (rule.allocSlot held allocated) stored unused fit used

/-- Adding parts either keeps the property or destroys a list that has it. -/
theorem addParts (parts : List Vma) :
    ∀ {list : VmaList} {world : σ}, (∀ part ∈ parts, fits { part with used := true }) →
      holds list world →
      match Mm.addParts host parts list world with
      | .ok (next, after) => holds next after
      | .error after => ∃ next between, holds next between ∧
          after = vmaListDestroy host next between := by
  induction parts with
  | nil => exact fun _ held => held
  | cons part rest ih =>
    intro list world fit held
    rw [Mm.addParts]
    cases added : addRawVma host list part world with
    | none => exact ⟨list, world, held, rfl⟩
    | some result =>
      apply ih fun other member => fit other (mem_cons_of_mem _ member)
      unfold addRawVma at added
      split at added
      · contradiction
      split at added
      · contradiction
      rename_i allocated
      obtain ⟨rfl, rfl⟩ := added
      exact rule.store held allocated (fit part mem_cons_self) rfl

/-- A rebuild replaces the list by one with the property and destroys it, or destroys one with
the property. -/
theorem rebuild (parts : Vma → List Vma) (list : VmaList)
    (world : σ) (fit : ∀ vma ∈ list.slots, vma.used → ∀ part ∈ parts vma,
      fits { part with used := true }) (held : holds .init world) :
    ∃ next between, holds next between ∧
      (Mm.rebuild host parts list world = (true, next, vmaListDestroy host list between) ∨
        Mm.rebuild host parts list world = (false, list, vmaListDestroy host next between)) := by
  have pieces : ∀ part ∈ (list.slots.filter (·.used)).flatMap parts,
      fits { part with used := true } := by
    intro part member
    obtain ⟨vma, stored, inside⟩ := mem_flatMap.mp member
    obtain ⟨stored, used⟩ := mem_filter.mp stored
    exact fit vma stored used part inside
  have built := rule.addParts _ pieces held
  unfold Mm.rebuild
  split <;> rename_i outcome <;> rw [outcome] at built
  · obtain ⟨next, between, held, rfl⟩ := built
    exact ⟨next, between, held, .inr rfl⟩
  · exact ⟨_, _, rule.mergeAdjacent built, .inl rfl⟩

end

/-- The rule for a property that looks at nothing but the chunks of the list. -/
theorem of_chunks {host : VmaHost σ} (holds : List Nat → σ → Prop)
    (nodes : ∀ chunks, NodeKeeps host (holds chunks))
    (grow : ∀ {chunks : List Nat} {world after : σ} {pa : Nat}, holds chunks world →
      host.chunkAlloc world = some (pa, after) → holds (chunks ++ [pa]) after) :
    ListRule host (fun _ => True) fun list world => holds list.chunkPa world where
  merge merge _ held := by
    rw [merge.slots, merge.released]
    exact (nodes _).releaseFile _ held
  grow held _ taken := grow held taken
  fill held _ _ _ _ := (nodes _).retainFile _ held

end ListRule

/-- Adding proper parts that are separate from each other and from the list adds exactly
those parts. -/
theorem addParts_covers (parts : List Vma) : ∀ (list next : VmaList) (world after : σ),
    addParts host parts list world = .ok (next, after) → vmaView.Tidy list.slots →
    (∀ p ∈ parts, p.used) → parts.Pairwise vmaView.Apart →
    (∀ p ∈ parts, ∀ c ∈ list.slots, c.used → vmaView.Apart p c) →
    vmaView.Tidy next.slots ∧ ∀ x a, vmaView.Covers next.slots x a ↔
      vmaView.Covers list.slots x a ∨ vmaView.Covers parts x a := by
  induction parts with
  | nil =>
    intro list next world after added tidy _ _ _
    obtain ⟨rfl, -⟩ := added
    exact ⟨tidy, fun x a => by simp [SlotView.Covers]⟩
  | cons part rest ih =>
    intro list next world after added tidy used pairwise apart
    unfold addParts at added
    split at added
    · contradiction
    rename_i middle between stored
    have partUsed : { part with used := true } = part := by
      rw [← used part mem_cons_self]
    have step := addRawVma_added stored tidy fun c member live =>
      apart part mem_cons_self c member live
    rw [partUsed] at step
    obtain ⟨first, later⟩ := pairwise_cons.mp pairwise
    -- A used record of the middle list is an old one or the part just added.
    have apart' : ∀ p ∈ rest, ∀ c ∈ middle.slots, c.used → vmaView.Apart p c := by
      intro p member c stored live
      rcases step.origin c stored live with ⟨old, _⟩ | rfl
      · exact apart p (mem_cons_of_mem _ member) c old live
      · exact (first p member).symm
    obtain ⟨tidy', covers⟩ := ih middle next between after added step.tidy
      (fun p member => used p (mem_cons_of_mem _ member)) later apart'
    refine ⟨tidy', fun x a => ?_⟩
    rw [covers, step.covers]
    simp only [SlotView.Covers, mem_cons, exists_eq_or_imp, or_assoc]

/-- What rebuilding a list from parts does to the range `[lo, hi)`: every area is cut into
proper pieces of itself, and inside the range its attributes are changed or dropped. -/
structure Carves (parts : Vma → List Vma) (lo hi : Nat)
    (change : VmaAttrs → Option VmaAttrs) : Prop where
  /-- A part lies in its area. -/
  within : ∀ v p, p ∈ parts v → p.used = v.used ∧ v.start ≤ p.start ∧ p.stop ≤ v.stop
  /-- The parts of one area are separate. -/
  pairwise : ∀ v, (parts v).Pairwise vmaView.Apart
  /-- The parts cover the area, changed inside the range. -/
  covers : ∀ v x a, vmaView.Covers (parts v) x a ↔
    vmaView.Hits v x ∧ (if lo ≤ x ∧ x < hi then change v.attrs else some v.attrs) = some a

/-- A successful rebuild is one change of the denoted map. -/
theorem rebuild_attrsAt {lo hi : Nat} (carves : Carves parts lo hi change)
    (tidy : vmaView.Tidy list.slots)
    (rebuilt : rebuild host parts list world = (true, next, after)) :
    vmaView.Tidy next.slots ∧
      attrsAt next = overwrite (attrsAt list) lo hi (fun old => old.bind change) := by
  unfold rebuild at rebuilt
  split at rebuilt
  · simp at rebuilt
  rename_i raw between added
  obtain ⟨rfl, -⟩ := rebuilt
  have member : ∀ p, p ∈ (list.slots.filter (·.used)).flatMap parts →
      ∃ v ∈ list.slots, v.used = true ∧ p ∈ parts v := by
    intro p inside
    obtain ⟨v, stored, part⟩ := mem_flatMap.mp inside
    obtain ⟨stored, live⟩ := mem_filter.mp stored
    exact ⟨v, stored, live, part⟩
  have pairwise : ((list.slots.filter (·.used)).flatMap parts).Pairwise vmaView.Apart := by
    rw [pairwise_flatMap]
    refine ⟨fun v _ => carves.pairwise v, tidy.pairwise_live.imp ?_⟩
    intro v w apart p partV q partW
    have inV := carves.within v p partV
    have inW := carves.within w q partW
    simp only [SlotView.Apart, vmaView] at apart ⊢
    omega
  have used : ∀ p ∈ (list.slots.filter (·.used)).flatMap parts, p.used := by
    intro p inside
    obtain ⟨v, -, live, part⟩ := member p inside
    rw [(carves.within v p part).1, live]
  obtain ⟨tidyRaw, coversRaw⟩ := addParts_covers _ _ _ _ _ added .nil used
    pairwise (by simp [VmaList.init])
  have merged := mergeAdjacent_agrees host between tidyRaw
  refine ⟨merged.tidy, ?_⟩
  have covers : ∀ x a, vmaView.Covers (mergeAdjacent host raw between).1.slots x a ↔
      ∃ v ∈ list.slots, vmaView.Hits v x ∧
        (if lo ≤ x ∧ x < hi then change v.attrs else some v.attrs) = some a := by
    intro x a
    rw [merged.covers, coversRaw]
    constructor
    · rintro (⟨p, none, -⟩ | ⟨p, inside, hit⟩)
      · exact (not_mem_nil none).elim
      · obtain ⟨v, stored, -, part⟩ := member p inside
        exact ⟨v, stored, (carves.covers v x a).mp ⟨p, part, hit⟩⟩
    · rintro ⟨v, stored, hit, value⟩
      obtain ⟨p, part, hits⟩ := (carves.covers v x a).mpr ⟨hit, value⟩
      exact .inr ⟨p, mem_flatMap.mpr ⟨v, mem_filter.mpr ⟨stored, hit.1⟩, part⟩, hits⟩
  rw [attrsAt_eq, attrsAt_eq]
  apply tidy.valueAt_overwrite merged.tidy
  · intro x low high a
    rw [covers]
    simp only [low, high, and_self, ↓reduceIte]
    rw [Option.bind_eq_some_iff]
    constructor
    · rintro ⟨v, stored, hit, value⟩
      exact ⟨v.attrs, (tidy.valueAt_eq_some _).mpr ⟨v, stored, hit, rfl⟩, value⟩
    · rintro ⟨old, found, value⟩
      obtain ⟨v, stored, hit, rfl⟩ := (tidy.valueAt_eq_some _).mp found
      exact ⟨v, stored, hit, value⟩
  · intro x outside a
    rw [covers]
    simp only [outside, ↓reduceIte, Option.some.injEq]
    rfl

/-- The outcome of a call: the list is tidy, and its map was updated exactly when the call
reports success. -/
structure Outcome (list : VmaList) (update : (Nat → Option VmaAttrs) → Nat → Option VmaAttrs)
    (outcome : Bool × VmaList × σ) : Prop where
  /-- The list left behind is tidy. -/
  tidy : vmaView.Tidy outcome.2.1.slots
  /-- Success is the update, failure is no change. -/
  attrs : attrsAt outcome.2.1 = if outcome.1 then update (attrsAt list) else attrsAt list

/-- A call that returns early changed nothing. -/
theorem Outcome.refused (tidy : vmaView.Tidy list.slots)
    (update : (Nat → Option VmaAttrs) → Nat → Option VmaAttrs) (world : σ) :
    Outcome list update (false, list, world) := ⟨tidy, rfl⟩

/-- A rebuild changes the map when it reports success and nothing when it does not. -/
theorem rebuild_outcome {lo hi : Nat} (carves : Carves parts lo hi change)
    (tidy : vmaView.Tidy list.slots) :
    Outcome list (fun map => overwrite map lo hi fun old => old.bind change)
      (rebuild host parts list world) := by
  cases outcome : rebuild host parts list world with
  | mk result rest =>
    cases result with
    | true =>
      obtain ⟨tidy', attrs⟩ := rebuild_attrsAt carves tidy outcome
      exact ⟨tidy', attrs⟩
    | false =>
      unfold rebuild at outcome
      split at outcome
      · simp only [Prod.mk.injEq, true_and] at outcome
        obtain ⟨rfl, -⟩ := outcome
        exact .refused tidy _ _
      · simp at outcome

/-- The parts kept by `vma_remove`. -/
theorem removeParts_carves {start stop : Nat} (proper : start < stop) :
    Carves (removeParts start stop) start stop (fun _ => none) where
  within v p part := by
    unfold removeParts at part
    split at part
    · simp_all
    · rename_i meets
      rw [overlaps_eq_false] at meets
      grind
  pairwise v := by
    unfold removeParts
    split_ifs <;> simp
    omega
  covers v x a := by
    unfold removeParts
    split <;> rename_i meets <;> rw [overlaps_eq_false] at meets
    · simp only [SlotView.covers_cons, SlotView.covers_nil, vmaView_hits, vmaView_val, or_false]
      grind
    · by_cases left : v.start < start <;> by_cases right : stop < v.stop <;>
        simp [left, right] <;> grind

/-- The parts made by `vma_protect`. -/
theorem protectParts_carves {start stop : Nat} (prot : UInt32) (proper : start < stop) :
    Carves (protectParts start stop prot) start stop (fun old => some { old with prot }) where
  within v p part := by
    unfold protectParts at part
    split at part
    · simp_all
    · rename_i meets
      rw [overlaps_eq_false] at meets
      grind
  pairwise v := by
    unfold protectParts
    split_ifs <;> simp <;> omega
  covers v x a := by
    unfold protectParts
    split <;> rename_i meets <;> rw [overlaps_eq_false] at meets
    · simp only [SlotView.covers_cons, SlotView.covers_nil, vmaView_hits, vmaView_val, or_false]
      grind
    · by_cases left : v.start < start <;> by_cases right : stop < v.stop <;>
        simp [left, right] <;> grind

/-! ## Insertion -/

/-- A range that the overlap test admits is separate from every area. -/
theorem vmaOverlaps_apart {start stop : Nat} (free : vmaOverlaps list start stop = false)
    (from_start : new.start = start) (to_stop : new.stop = stop) :
    ∀ c ∈ list.slots, c.used → vmaView.Apart new c := by
  intro c member used
  unfold vmaOverlaps at free
  split at free
  · contradiction
  have clear := any_eq_false.mp free c member
  simp only [used, Bool.true_and, Bool.not_eq_true, overlaps_eq_false] at clear
  rw [vmaView_apart]
  omega

/-- What an insertion does: it is refused, or a new area goes to an allocated slot of a list that
has no area there, and the list is merged. -/
inductive Insertion (host : VmaHost σ) (list : VmaList) (world : σ) (new : Vma) (retain : σ → σ) :
    Bool × VmaList × σ → Prop where
  | refused : Insertion host list world new retain (false, list, world)
  | done {index : Nat} {next : VmaList} {between : σ} (proper : new.start < new.stop)
    (free : vmaOverlaps list new.start new.stop = false)
    (allocated : allocSlot host list world = some (index, next, between)) :
    Insertion host list world new retain
      (true, mergeAdjacent host (next.setSlot index new) (retain between))

/-- What an insertion can do. -/
theorem vmaInsert_cases (host : VmaHost σ) (list : VmaList) (start stop : Nat)
    (prot flags : UInt32) (type : VmaType) (world : σ) :
    Insertion host list world { Vma.zero with used := true, start, stop, prot, flags, type } id
      (vmaInsert host list start stop prot flags type world) := by
  unfold vmaInsert addRaw
  by_cases empty : stop ≤ start
  · rw [if_pos empty]
    exact .refused
  rw [if_neg empty, if_neg empty]
  cases free : vmaOverlaps list start stop with
  | true => exact .refused
  | false =>
    cases allocated : allocSlot host list world with
    | none => exact .refused
    | some slot => exact .done (Nat.not_le.mp empty) free allocated

/-- The area that `vma_insert_file` makes. -/
def fileArea (start stop : Nat) (prot flags : UInt32) (node : VfsNode)
    (fileStart fileOffset fileSize : Nat) : Vma :=
  { used := true, start, stop, prot, flags, type := .file, fileNode := node, fileStart, fileOffset,
    fileSize }

/-- What an insertion of a file can do. -/
theorem vmaInsertFile_cases (host : VmaHost σ) (list : VmaList) (start stop : Nat)
    (prot flags : UInt32) (node : VfsNode) (fileStart fileOffset fileSize : Nat) (world : σ) :
    Insertion host list world (fileArea start stop prot flags node fileStart fileOffset fileSize)
      (retainFile host (fileArea start stop prot flags node fileStart fileOffset fileSize))
      (vmaInsertFile host list start stop prot flags (some node) fileStart fileOffset fileSize
        world) := by
  unfold vmaInsertFile
  by_cases refused : stop ≤ start ∨ node.isDir ∨ node.device ≠ .none
  · simp only [if_pos refused]
    exact .refused
  simp only [if_neg refused]
  cases free : vmaOverlaps list start stop with
  | true => exact .refused
  | false =>
    cases allocated : allocSlot host list world with
    | none => exact .refused
    | some slot => exact .done (Nat.not_le.mp (not_or.mp refused).1) free allocated

/-- What a rule says about insertions: only a new area that is retained as it is stored has to
fit. -/
theorem Insertion.keeps {fits : Vma → Prop} {holds : VmaList → σ → Prop}
    (rule : ListRule host fits holds) {outcome : Bool × VmaList × σ}
    (insertion : Insertion host list world new retain outcome) (held : holds list world)
    (store : ∀ {index : Nat} {next : VmaList} {between : σ},
      allocSlot host list world = some (index, next, between) → holds next between →
        holds (next.setSlot index new) (retain between)) : holds outcome.2.1 outcome.2.2 := by
  cases insertion with
  | refused => exact held
  | done proper free allocated =>
    exact rule.mergeAdjacent (store allocated (rule.allocSlot held allocated))

/-- Storing a new area in the allocated slot and merging is one change of the map. -/
theorem Insertion.outcome {outcome : Bool × VmaList × σ}
    (insertion : Insertion host list world new retain outcome) (tidy : vmaView.Tidy list.slots)
    (used : new.used) :
    Outcome list (fun map => overwrite map new.start new.stop fun _ => some new.attrs) outcome := by
  obtain - | ⟨proper, free, allocated⟩ := insertion
  · exact .refused tidy _ _
  rename_i between
  have apart := vmaOverlaps_apart free rfl rfl
  have added := allocSlot_fill allocated tidy proper apart
  have merged := mergeAdjacent_agrees host (retain between) added.tidy
  refine ⟨merged.tidy, ?_⟩
  rw [if_pos rfl, attrsAt_eq, attrsAt_eq]
  apply tidy.valueAt_overwrite merged.tidy
  · intro x low high a
    rw [merged.covers, added.covers, Option.some.injEq]
    constructor
    · rintro (⟨c, member, hit, -⟩ | ⟨-, value⟩)
      · -- The range was free, so no older area covers the address.
        exact ((apart c member hit.1).not_both ⟨used, low, high⟩ hit).elim
      · exact value
    · exact fun value => .inr ⟨⟨used, low, high⟩, value⟩
  · intro x outside a
    rw [merged.covers, added.covers]
    constructor
    · rintro (old | ⟨⟨-, low, high⟩, -⟩)
      · exact old
      · exact (outside ⟨low, high⟩).elim
    · exact .inl

/-- The attributes that `vma_insert` gives its range. -/
def insertedAttrs (prot flags : UInt32) (type : VmaType) : VmaAttrs where
  prot := prot
  flags := flags
  type := type
  file := if type = .file then some ⟨VfsNode.zero.key, 0, 0, 0⟩ else none

section

variable (host : VmaHost σ) (start stop : Nat)

/-- `vma_insert` gives a free range the attributes of its arguments. -/
theorem vmaInsert_outcome (prot flags : UInt32)
    (type : VmaType) (world : σ) (tidy : vmaView.Tidy list.slots) :
    Outcome list (fun map => overwrite map start stop fun _ =>
      some (insertedAttrs prot flags type))
      (vmaInsert host list start stop prot flags type world) := by
  exact (vmaInsert_cases host list start stop prot flags type world).outcome tidy rfl

/-- `vma_insert_file` gives a free range the file position of its arguments. -/
theorem vmaInsertFile_outcome (prot flags : UInt32)
    (node : Option VfsNode) (fileStart fileOffset fileSize : Nat) (world : σ)
    (tidy : vmaView.Tidy list.slots) :
    Outcome list (fun map => overwrite map start stop fun _ => node.map fun node =>
      { prot, flags, type := .file, file := some ⟨node.key, fileStart, fileOffset, fileSize⟩ })
      (vmaInsertFile host list start stop prot flags node fileStart fileOffset fileSize world) := by
  cases node with
  | none => exact .refused tidy _ _
  | some node =>
    exact (vmaInsertFile_cases host list start stop prot flags node fileStart fileOffset fileSize
      world).outcome tidy rfl

/-- `vma_remove` leaves its range without attributes. -/
theorem vmaRemove_outcome (world : σ) (tidy : vmaView.Tidy list.slots) :
    Outcome list (fun map => overwrite map start stop fun _ => none)
      (vmaRemove host list start stop world) := by
  unfold vmaRemove
  by_cases empty : stop ≤ start
  · rw [if_pos empty]
    exact .refused tidy _ _
  rw [if_neg empty]
  have carved : Outcome list _ (rebuild host (removeParts start stop) list world) :=
    rebuild_outcome (removeParts_carves (Nat.not_le.mp empty)) tidy
  simpa only [Option.bind_fun_none] using carved

/-- `vma_protect` replaces the rights in its range and nothing else. -/
theorem vmaProtect_outcome (prot : UInt32) (world : σ) (tidy : vmaView.Tidy list.slots) :
    Outcome list (fun map => overwrite map start stop fun old =>
      old.bind fun attrs => some { attrs with prot })
      (vmaProtect host list start stop prot world) := by
  unfold vmaProtect
  by_cases empty : stop ≤ start
  · rw [if_pos empty]
    exact .refused tidy _ _
  · rw [if_neg empty]
    exact rebuild_outcome (protectParts_carves prot (Nat.not_le.mp empty)) tidy

end

/-! ## Growth and copies -/

/-- `vma_clone` copies the map. -/
theorem vmaClone_outcome (cloned : vmaClone host list world = .ok (next, after))
    (tidy : vmaView.Tidy list.slots) : vmaView.Tidy next.slots ∧ attrsAt next = attrsAt list := by
  obtain ⟨tidy', covers⟩ := addParts_covers _ _ _ _ _ cloned .nil
    (fun p member => (mem_filter.mp member).2) tidy.pairwise_live (by simp [VmaList.init])
  refine ⟨tidy', ?_⟩
  rw [attrsAt_eq, attrsAt_eq]
  funext x
  refine tidy'.valueAt_congr tidy x fun a => ?_
  rw [covers]
  constructor
  · rintro (⟨p, none, -⟩ | ⟨p, member, hit⟩)
    · exact (not_mem_nil none).elim
    · exact ⟨p, (mem_filter.mp member).1, hit⟩
  · rintro ⟨p, member, hit, value⟩
    exact .inr ⟨p, mem_filter.mpr ⟨member, hit.1⟩, hit, value⟩

/-- The areas among which `vma_grow_down` takes the first. -/
def canGrow (page : Nat) (flags : UInt32) (vma : Vma) : Bool :=
  vma.used && decide (page < vma.start) && decide (vma.flags &&& flags = flags)

/-- An area that grows down to a page. -/
structure GrowsDown (list : VmaList) (page : Nat) (flags : UInt32) (vma : Vma) : Prop where
  /-- The page begins there. -/
  aligned : page % pageSize = 0
  /-- It is the first area that can. -/
  first : list.slots.find? (canGrow page flags) = some vma
  /-- It does not begin there. -/
  apart : (vma.start - page) / pageSize ≠ 0
  /-- It is not too far away. -/
  near : (vma.start - page) / pageSize ≤ maxGrowdownPages
  /-- Nothing is in between. -/
  free : vmaOverlaps list page vma.start = false

section Growth

variable {page : Nat} {flags : UInt32} {grown vma : Vma}

/-- The area that grows is a used one above the page with the flag. -/
theorem GrowsDown.can (grows : GrowsDown list page flags vma) :
    vma.used ∧ page < vma.start ∧ vma.flags &&& flags = flags := by
  have good := find?_some grows.first
  simp only [canGrow, Bool.and_eq_true, decide_eq_true_eq] at good
  exact ⟨good.1.1, good.1.2, good.2⟩

/-- What `vma_grow_down` does. -/
theorem vmaGrowDown_cases (grew : vmaGrowDown list page flags = some (grown, next)) :
    ∃ index vma, GrowsDown list page flags vma ∧ list.slots[index]? = some vma ∧
      grown = { vma with start := page } ∧
        next = list.setSlot index { vma with start := page } := by
  unfold vmaGrowDown at grew
  dsimp only at grew
  split at grew
  · contradiction
  rename_i aligned
  split at grew
  · contradiction
  rename_i index found
  split at grew
  · contradiction
  rename_i vma stored
  split at grew
  · contradiction
  rename_i limit
  split at grew
  · contradiction
  rename_i free
  simp only [Option.some.injEq, Prod.mk.injEq] at grew
  obtain ⟨inside, good, before⟩ := findIdx?_eq_some_iff_getElem.mp found
  obtain rfl : list.slots[index] = vma :=
    Option.some.inj ((getElem?_eq_getElem inside).symm.trans stored)
  have first : list.slots.find? (canGrow page flags) = some list.slots[index] := by
    rw [find?_eq_some_iff_getElem]
    refine ⟨good, index, inside, rfl, fun j earlier => ?_⟩
    rw [Bool.not_eq_true']
    exact Bool.eq_false_iff.mpr (before j earlier)
  simp only [not_or, Nat.not_lt] at limit
  exact ⟨index, _, ⟨not_not.mp aligned, first, limit.1, limit.2, by simpa using free⟩,
    stored, grew.1.symm, grew.2.symm⟩

/-- `vma_grow_down` extends an area downwards over a range that no area covers. -/
theorem vmaGrowDown_outcome (grew : vmaGrowDown list page flags = some (grown, next))
    (tidy : vmaView.Tidy list.slots) :
    ∃ vma ∈ list.slots, GrowsDown list page flags vma ∧ grown = { vma with start := page } ∧
      vmaView.Tidy next.slots ∧
      attrsAt next = overwrite (attrsAt list) page vma.start fun _ => some vma.attrs := by
  obtain ⟨index, vma, grows, stored, shape, rfl⟩ := vmaGrowDown_cases grew
  obtain ⟨used, above, -⟩ := grows.can
  refine ⟨vma, mem_of_getElem? stored, grows, shape, ?_⟩
  rw [attrsAt_eq, attrsAt_eq]
  refine tidy.widen stored used used above rfl rfl fun c member live => ?_
  have gap : vmaView.Apart { Vma.zero with start := page, stop := _ } c :=
    vmaOverlaps_apart grows.free rfl rfl c member live
  exact Or.symm gap

end Growth

end

end

end

end Host

/-! ## Runs -/

/-- A call of one of the list functions. -/
inductive VmaOp where
  | insert (start stop : Nat) (prot flags : UInt32) (type : VmaType)
  | insertFile (start stop : Nat) (prot flags : UInt32) (node : Option VfsNode)
      (fileStart fileOffset fileSize : Nat)
  | remove (start stop : Nat)
  | protect (start stop : Nat) (prot : UInt32)

/-- Make the call. -/
def VmaOp.apply {σ : Type} (host : VmaHost σ) :
    VmaOp → VmaList → σ → Bool × VmaList × σ
  | .insert start stop prot flags type, list, world =>
    vmaInsert host list start stop prot flags type world
  | .insertFile start stop prot flags node fileStart fileOffset fileSize, list, world =>
    vmaInsertFile host list start stop prot flags node fileStart fileOffset fileSize world
  | .remove start stop, list, world => vmaRemove host list start stop world
  | .protect start stop prot, list, world => vmaProtect host list start stop prot world

/-- The functional update that a successful call stands for. -/
def VmaOp.update : VmaOp → (Nat → Option VmaAttrs) → Nat → Option VmaAttrs
  | .insert start stop prot flags type, map =>
    overwrite map start stop fun _ => some (insertedAttrs prot flags type)
  | .insertFile start stop prot flags node fileStart fileOffset fileSize, map =>
    overwrite map start stop fun _ => node.map fun node =>
      { prot, flags, type := .file, file := some ⟨node.key, fileStart, fileOffset, fileSize⟩ }
  | .remove start stop, map => overwrite map start stop fun _ => none
  | .protect start stop prot, map =>
    overwrite map start stop fun old => old.bind fun attrs => some { attrs with prot }

/-- Run calls one after another, collecting their results. -/
def runVmaOps {σ : Type} (host : VmaHost σ) :
    List VmaOp → VmaList → σ → List Bool × VmaList × σ
  | [], list, world => ([], list, world)
  | op :: rest, list, world =>
    let (result, list, world) := op.apply host list world
    let (results, list, world) := runVmaOps host rest list world
    (result :: results, list, world)

/-- Replay the successful calls on a map. -/
def replay : List (VmaOp × Bool) → (Nat → Option VmaAttrs) → Nat → Option VmaAttrs
  | [], map => map
  | (op, result) :: rest, map => replay rest (if result then op.update map else map)

/-- One call updates the denoted map exactly when it succeeds, and keeps the list tidy. -/
theorem VmaOp.apply_outcome {σ : Type} (host : VmaHost σ) (op : VmaOp) (list : VmaList)
    (world : σ) (tidy : vmaView.Tidy list.slots) :
    Outcome list op.update (op.apply host list world) := by
  cases op with
  | insert => exact vmaInsert_outcome host _ _ _ _ _ world tidy
  | insertFile => exact vmaInsertFile_outcome host _ _ _ _ _ _ _ _ world tidy
  | remove => exact vmaRemove_outcome host _ _ world tidy
  | protect => exact vmaProtect_outcome host _ _ _ world tidy

/-- Every run of calls from a tidy list denotes the map that replaying its successful calls
gives. -/
theorem runVmaOps_attrsAt {σ : Type} (host : VmaHost σ) (ops : List VmaOp) :
    ∀ (list : VmaList) (world : σ), vmaView.Tidy list.slots →
      attrsAt (runVmaOps host ops list world).2.1 =
        replay (ops.zip (runVmaOps host ops list world).1) (attrsAt list) := by
  induction ops with
  | nil => exact fun _ _ _ => rfl
  | cons op rest ih =>
    intro list world tidy
    have step := op.apply_outcome host list world tidy
    have later := ih (op.apply host list world).2.1 (op.apply host list world).2.2 step.tidy
    simp only [runVmaOps, zip_cons_cons, replay]
    rw [later, step.attrs]

/-- For every sequence of calls on an initialised list, with any allocator, a lookup at every
address finds what the successful calls prescribe: nothing after a remove, the new rights
and otherwise the same attributes after a protect, the inserted attributes after an insert,
and no change from a call that failed or named another range. -/
theorem vma_lookup_refines_replay {σ : Type} (host : VmaHost σ) (ops : List VmaOp) (world : σ)
    (va : Nat) :
    (vmaLookup (runVmaOps host ops VmaList.init world).2.1 va).map Vma.attrs =
      replay (ops.zip (runVmaOps host ops VmaList.init world).1) (fun _ => none) va := by
  have run := runVmaOps_attrsAt host ops .init world .nil
  exact congrFun run va

end Spore.Mm
