import Spore.Mm.VmaMap

/-!
# Merging is complete

`merge_adjacent` takes each slot in turn and lets it absorb every area that adjoins it and is
compatible with it. After a merge the inner scan resumes at slot one, because the source sets
the index to zero before the loop increments it. Slot zero need not be looked at again: it had
its own turn before, and a slot that had its turn adjoins nothing compatible from then on,
whatever the later slots absorb.
-/

namespace Spore.Mm

open Spore.Lib List

variable {fuel rest : Nat}

/-- One of two areas begins where the other ends. -/
def Adjacent (a b : Vma) : Prop := a.stop = b.start ∨ b.stop = a.start

/-- What `compatible` compares. -/
theorem compatible_iff {a b : Vma} : compatible a b ↔ a.attrs = b.attrs := by
  refine ⟨compatible_attrs, fun same => ?_⟩
  simp only [Vma.attrs, VmaAttrs.mk.injEq] at same
  obtain ⟨prot, flags, type, file⟩ := same
  unfold compatible
  rw [if_neg (by simp [prot, flags, type])]
  by_cases kind : a.type = .file
  · rw [if_neg (by simp [kind])]
    rw [if_pos kind, if_pos (type ▸ kind)] at file
    simpa [VfsNode.key, and_assoc] using file
  · rw [if_pos kind]

/-- Slots `i` and `j` do not hold two areas that could be merged. -/
def Unjoinable (list : VmaList) (i j : Nat) : Prop :=
  ∀ a b, list.slots[i]? = some a → list.slots[j]? = some b → a.used = true → b.used = true →
    Adjacent a b → compatible a b = false

/-- The order of two slots does not matter. -/
theorem Unjoinable.symm {list : VmaList} {i j : Nat} (unjoinable : Unjoinable list i j) :
    Unjoinable list j i := by
  intro a b at_j at_i usedA usedB adjacent
  have other := unjoinable b a at_i at_j usedB usedA (Or.symm adjacent)
  rw [Bool.eq_false_iff, ne_eq, compatible_iff] at other ⊢
  exact fun same => other same.symm

/-- A slot that has had its turn: no other slot could be merged with it. -/
def Settled (list : VmaList) (i : Nat) : Prop := ∀ j, j ≠ i → Unjoinable list i j

/-- No two areas could be merged. -/
def Merged (list : VmaList) : Prop := ∀ i, Settled list i

section Host

variable {σ : Type} {host : VmaHost σ} {i j start stop : Nat} {list next : VmaList}
  {world after : σ} {prot flags : UInt32}

/-- Slots that are not merged could not be. -/
theorem mergePair_none (distinct : j ≠ i)
    (kept : mergePair host i j list world = none) : Unjoinable list i j := by
  intro a b at_i at_j _ usedB adjacent
  unfold mergePair at kept
  rw [at_i, at_j] at kept
  dsimp only at kept
  rw [if_neg (by simp [distinct.symm, usedB])] at kept
  by_contra joinable
  have same : compatible a b := by simpa using joinable
  split at kept
  · contradiction
  rename_i notBefore
  rcases adjacent with ends | ends
  · exact notBefore ⟨ends, same⟩
  · rw [if_pos ⟨ends, same⟩] at kept
    contradiction

/-- What one merge does to the slots: slot `i` takes over the range of slot `j`, which had a
compatible area, and slot `j` is free. -/
theorem mergePair_slots (merged : mergePair host i j list world = some (next, after)) :
    ∃ a b whole, list.slots[i]? = some a ∧ list.slots[j]? = some b ∧ i ≠ j ∧ b.used ∧
      Adjacent a b ∧ compatible a b ∧
      next.slots = (list.slots.set i whole).set j { b with used := false } ∧
      whole.attrs = a.attrs ∧ whole.used = a.used ∧
      (whole.start = a.start ∨ whole.start = b.start) ∧
      (whole.stop = a.stop ∨ whole.stop = b.stop) := by
  obtain ⟨a, b, whole, merge⟩ := mergePair_cases merged
  refine ⟨a, b, whole, merge.at_i, merge.at_j, merge.distinct, merge.used, ?_, merge.same,
    by rw [merge.slots]; rfl, ?_⟩
  · exact merge.joins.imp And.left And.left
  · rcases merge.joins with ⟨-, rfl⟩ | ⟨-, rfl⟩
    · exact ⟨rfl, rfl, .inl rfl, .inr rfl⟩
    · exact ⟨rfl, rfl, .inr rfl, .inl rfl⟩

/-- The slot whose turn it is stays in use. -/
theorem mergePair_used (merged : mergePair host i j list world = some (next, after))
    (used : UsedAt list i) : UsedAt next i := by
  obtain ⟨a, b, whole, merge⟩ := mergePair_cases merged
  obtain ⟨x, stored, live⟩ := used
  obtain rfl : x = a := Option.some.inj (stored.symm.trans merge.at_i)
  exact ⟨whole, merge.getElem_i, merge.whole_used.trans live⟩

/-- A slot that had its turn stays settled while another slot absorbs areas. -/
theorem Settled.mergePair {k : Nat} (settled : Settled list k) (other : k ≠ i)
    (used : UsedAt list i) (merged : mergePair host i j list world = some (next, after)) :
    Settled next k := by
  obtain ⟨a, b, whole, at_i, at_j, distinct, usedB, adjacent, same, slots, attrs, usedW, start,
    stop⟩ := mergePair_slots merged
  have usedA : a.used := by
    obtain ⟨x, stored, live⟩ := used
    rw [stored] at at_i
    exact Option.some.inj at_i ▸ live
  -- Slot `k` is not the one that is absorbed: it would be joinable with slot `i`.
  have notGone : k ≠ j := by
    rintro rfl
    have apart := (settled i (Ne.symm other)).symm a b at_i at_j usedA usedB adjacent
    rw [same] at apart
    contradiction
  intro l distinctL c d at_k at_l usedC usedD touches
  rw [slots] at at_k at_l
  rw [getElem?_set_ne (Ne.symm notGone), getElem?_set_ne (Ne.symm other)] at at_k
  by_cases absorbed : l = j
  · subst absorbed
    have inside : l < (list.slots.set i whole).length := by
      rw [length_set]
      exact (List.getElem?_eq_some_iff.mp at_j).1
    rw [getElem?_set_self inside] at at_l
    rw [← Option.some.inj at_l] at usedD
    contradiction
  rw [getElem?_set_ne (Ne.symm absorbed)] at at_l
  by_cases grown : l = i
  · subst grown
    rw [getElem?_set_self (List.getElem?_eq_some_iff.mp at_i).1] at at_l
    cases at_l
    -- The grown area adjoins what one of the two areas adjoined before.
    have nearA := settled l distinctL c a at_k at_i usedC usedA
    have nearB := settled j (Ne.symm notGone) c b at_k at_j usedC usedB
    rw [compatible_iff] at same
    simp only [Bool.eq_false_iff, ne_eq, compatible_iff, attrs] at nearA nearB ⊢
    rw [← same] at nearB
    rcases touches with ends | ends
    · rcases start with at_a | at_b
      · exact nearA (.inl (ends.trans at_a))
      · exact nearB (.inl (ends.trans at_b))
    · rcases stop with at_a | at_b
      · exact nearA (.inr (at_a.symm.trans ends))
      · exact nearB (.inr (at_b.symm.trans ends))
  · rw [getElem?_set_ne (Ne.symm grown)] at at_l
    exact settled l distinctL c d at_k at_l usedC usedD touches

section

variable (host)

/-- One turn: with enough rounds the slot is settled in the end, and so is every slot that was. -/
theorem mergeRow_settled : ∀ (j : Nat) (list : VmaList) (world : σ),
    usedCount list * (list.slots.length + 1) + (list.slots.length - j) < fuel → UsedAt list i →
    (i ≠ 0 → Settled list 0) → (∀ k < j, k ≠ i → Unjoinable list i k) →
    Settled (mergeRow host i fuel j list world).1 i ∧
      ∀ k, k ≠ i → Settled list k → Settled (mergeRow host i fuel j list world).1 k := by
  induction fuel with
  | zero => exact fun _ _ _ bound => absurd bound (Nat.not_lt_zero _)
  | succ fuel ih =>
    intro j list world bound used zero seen
    unfold mergeRow
    by_cases done : list.slots.length ≤ j
    · rw [if_pos done]
      refine ⟨fun k distinct => ?_, fun k _ settled => settled⟩
      by_cases inside : k < j
      · exact seen k inside distinct
      · intro a b _ at_k
        have inside := (List.getElem?_eq_some_iff.mp at_k).1
        dsimp only at inside
        omega
    rw [if_neg done]
    cases merged : mergePair host i j list world with
    | none =>
      refine ih (j + 1) list world (by omega) used zero fun k before distinct => ?_
      rcases Nat.lt_succ_iff_lt_or_eq.mp before with earlier | rfl
      · exact seen k earlier distinct
      · exact mergePair_none distinct merged
    | some outcome =>
      obtain ⟨next, after⟩ := outcome
      obtain ⟨fewer, same⟩ := mergePair_usedCount merged
      have kept : ∀ k, k ≠ i → Settled list k → Settled next k := fun k other settled =>
        settled.mergePair other used merged
      have zero' : i ≠ 0 → Settled next 0 := fun nonzero => kept 0 (Ne.symm nonzero) (zero nonzero)
      have enough : usedCount next * (next.slots.length + 1) + (next.slots.length - 1) < fuel := by
        rw [← fewer, Nat.succ_mul] at bound
        rw [same]
        omega
      obtain ⟨settled, others⟩ := ih 1 next after enough (mergePair_used merged used) zero' (by
        intro k before distinct
        obtain rfl : k = 0 := by omega
        exact (zero' (Ne.symm distinct) i (Ne.symm distinct)).symm)
      exact ⟨settled, fun k other was => others k other (kept k other was)⟩

/-- No slot comes or goes. -/
theorem mergeRow_length (i fuel : Nat) : ∀ (j : Nat) (list : VmaList) (world : σ),
    (mergeRow host i fuel j list world).1.slots.length = list.slots.length := by
  induction fuel with
  | zero => exact fun _ _ _ => rfl
  | succ fuel ih =>
    intro j list world
    unfold mergeRow
    split
    · rfl
    split
    · rename_i next after merged
      rw [ih, (mergePair_usedCount merged).2]
    · exact ih _ _ _

/-- The outer loop settles every slot from `i` on and keeps the earlier ones settled. -/
theorem mergeRows_settled : ∀ (i : Nat) (list : VmaList) (world : σ),
    list.slots.length ≤ i + rest → (∀ k < i, Settled list k) →
    Merged (mergeRows host rest i list world).1 := by
  have beyond : ∀ {list : VmaList} {k : Nat}, list.slots.length ≤ k → Settled list k := by
    intro list k outside j _ a b at_k
    have inside := (List.getElem?_eq_some_iff.mp at_k).1
    omega
  induction rest with
  | zero =>
    intro i list world reached settled k
    by_cases before : k < i
    · exact settled k before
    · exact beyond (by dsimp only [mergeRows]; omega)
  | succ rest ih =>
    intro i list world reached settled
    unfold mergeRows
    split
    · rename_i a stored
      split
      · rename_i used
        have few : usedCount list ≤ list.slots.length := countP_le_length
        have scaled := Nat.mul_le_mul_right (list.slots.length + 1) few
        have enough : usedCount list * (list.slots.length + 1) + (list.slots.length - 0) <
            mergeFuel list := by
          unfold mergeFuel
          rw [Nat.succ_mul]
          omega
        obtain ⟨own, others⟩ := mergeRow_settled host 0 list world enough
          ⟨a, stored, used⟩ (fun nonzero => settled 0 (by omega))
          fun k before => absurd before (Nat.not_lt_zero k)
        have size := mergeRow_length host i (mergeFuel list) 0 list world
        generalize mergeRow host i (mergeFuel list) 0 list world = result at own others size
        obtain ⟨swept, later⟩ := result
        dsimp only at own others size ⊢
        refine ih (i + 1) swept later (by omega) fun k before => ?_
        rcases Nat.lt_succ_iff_lt_or_eq.mp before with earlier | rfl
        · exact others k (by omega) (settled k earlier)
        · exact own
      · rename_i free
        refine ih (i + 1) list world (by omega) fun k before => ?_
        rcases Nat.lt_succ_iff_lt_or_eq.mp before with earlier | rfl
        · exact settled k earlier
        intro j _ x b at_k _ usedX
        rw [stored] at at_k
        rw [← Option.some.inj at_k] at usedX
        exact absurd usedX free
    · rename_i absent
      intro k
      by_cases before : k < i
      · exact settled k before
      refine beyond ?_
      have outside := getElem?_eq_none_iff.mp absent
      dsimp only
      omega

/-- `merge_adjacent` leaves nothing to merge, whatever the order of the slots. -/
theorem mergeAdjacent_merged : Merged (mergeAdjacent host list world).1 :=
  mergeRows_settled host 0 list world (by omega) fun k before => absurd before (Nat.not_lt_zero k)

/-! ## Every run -/

/-- After an insertion everything is merged. -/
theorem Insertion.merged {new : Vma} {retain : σ → σ} {outcome : Bool × VmaList × σ}
    (insertion : Insertion host list world new retain outcome) (done : outcome.1) :
    Merged outcome.2.1 := by
  cases insertion with
  | refused => contradiction
  | done => exact mergeAdjacent_merged host

/-- `vma_insert` leaves a merged list. -/
theorem vmaInsert_merged {type : VmaType}
    (done : (vmaInsert host list start stop prot flags type world).1) :
    Merged (vmaInsert host list start stop prot flags type world).2.1 := by
  have inserted := vmaInsert_cases host list start stop prot flags type world
  generalize vmaInsert host list start stop prot flags type world = outcome at done inserted ⊢
  exact inserted.merged host done

/-- So does `vma_insert_file`. -/
theorem vmaInsertFile_merged {node : Option VfsNode} {fileStart fileOffset fileSize : Nat}
    (done : (vmaInsertFile host list start stop prot flags node fileStart fileOffset fileSize
      world).1) :
    Merged (vmaInsertFile host list start stop prot flags node fileStart fileOffset fileSize
      world).2.1 := by
  cases node with
  | none => contradiction
  | some node =>
    have inserted := vmaInsertFile_cases host list start stop prot flags node fileStart fileOffset
      fileSize world
    generalize vmaInsertFile host list start stop prot flags (some node) fileStart fileOffset
      fileSize world = outcome at done inserted ⊢
    exact inserted.merged host done

/-- The common body of `vma_remove` and `vma_protect` ends with a merge. -/
theorem rebuild_merged {parts : Vma → List Vma} (done : (rebuild host parts list world).1) :
    Merged (rebuild host parts list world).2.1 := by
  unfold rebuild at done ⊢
  split at done
  · contradiction
  · exact mergeAdjacent_merged host

/-- So does `vma_remove`. -/
theorem vmaRemove_merged (done : (vmaRemove host list start stop world).1) :
    Merged (vmaRemove host list start stop world).2.1 := by
  unfold vmaRemove at done ⊢
  split at done
  · contradiction
  · rename_i proper
    rw [if_neg proper]
    exact rebuild_merged host done

/-- So does `vma_protect`. -/
theorem vmaProtect_merged (done : (vmaProtect host list start stop prot world).1) :
    Merged (vmaProtect host list start stop prot world).2.1 := by
  unfold vmaProtect at done ⊢
  split at done
  · contradiction
  · rename_i proper
    rw [if_neg proper]
    exact rebuild_merged host done

/-- A successful call leaves nothing to merge. -/
theorem VmaOp.apply_merged (op : VmaOp) (done : (op.apply host list world).1) :
    Merged (op.apply host list world).2.1 := by
  cases op with
  | insert => exact vmaInsert_merged host done
  | insertFile => exact vmaInsertFile_merged host done
  | remove => exact vmaRemove_merged host done
  | protect => exact vmaProtect_merged host done

end

end Host

/-- Areas are nonempty and disjoint. -/
structure WellFormed (list : VmaList) : Prop where
  /-- No area is empty. -/
  proper : ∀ vma ∈ list.slots, vma.used = true → vma.start < vma.stop
  /-- No two overlap. -/
  disjoint : ∀ (i j : Nat) (a b : Vma), list.slots[i]? = some a → list.slots[j]? = some b → i ≠ j →
    a.used = true → b.used = true → a.stop ≤ b.start ∨ b.stop ≤ a.start

/-- A step of a run: a call that changes areas, the growth of a stack, or the switch to a copy of
the list. -/
inductive VmaStep where
  | call (op : VmaOp)
  | growDown (page : Nat) (requiredFlags : UInt32)
  | clone

/-- Take the step. A copy that fails is destroyed, and the original is kept. -/
def VmaStep.take {σ : Type} (host : VmaHost σ) (state : VmaList × σ) : VmaStep → VmaList × σ
  | .call op => (op.apply host state.1 state.2).2
  | .growDown page requiredFlags =>
    match vmaGrowDown state.1 page requiredFlags with
    | none => state
    | some (_, list) => (list, state.2)
  | .clone =>
    match vmaClone host state.1 state.2 with
    | .ok copy => copy
    | .error world => (state.1, world)

/-- Every step keeps the list tidy. -/
theorem VmaStep.take_tidy {σ : Type} (host : VmaHost σ) (step : VmaStep) (state : VmaList × σ)
    (tidy : vmaView.Tidy state.1.slots) : vmaView.Tidy (step.take host state).1.slots := by
  cases step with
  | call op => exact (op.apply_outcome host state.1 state.2 tidy).tidy
  | growDown page requiredFlags =>
    unfold VmaStep.take
    dsimp only
    split
    · exact tidy
    · rename_i grown next grew
      obtain ⟨_, _, _, _, tidy', _⟩ := vmaGrowDown_outcome grew tidy
      exact tidy'
  | clone =>
    unfold VmaStep.take
    dsimp only
    split
    · rename_i copy cloned
      exact (vmaClone_outcome cloned tidy).1
    · exact tidy

/-- A run of calls keeps the list tidy. -/
theorem run_tidy {σ : Type} (host : VmaHost σ) (steps : List VmaStep) : ∀ state : VmaList × σ,
    vmaView.Tidy state.1.slots → vmaView.Tidy (steps.foldl (VmaStep.take host) state).1.slots := by
  induction steps with
  | nil => exact fun _ tidy => tidy
  | cons step rest ih => exact fun state tidy => ih _ (step.take_tidy host state tidy)

/-- Starting from the empty list, after any steps every area is nonempty and areas are disjoint,
and a call of insert, remove or protect that succeeds next leaves no two areas that are adjacent
and compatible. -/
theorem vma_list_well_formed {σ : Type} (host : VmaHost σ) (steps : List VmaStep) (world : σ) :
    WellFormed (steps.foldl (VmaStep.take host) (VmaList.init, world)).1 ∧
      ∀ op : VmaOp,
        (op.apply host (steps.foldl (VmaStep.take host) (VmaList.init, world)).1
          (steps.foldl (VmaStep.take host) (VmaList.init, world)).2).1 = true →
        Merged (op.apply host (steps.foldl (VmaStep.take host) (VmaList.init, world)).1
          (steps.foldl (VmaStep.take host) (VmaList.init, world)).2).2.1 := by
  have tidy := run_tidy host steps (VmaList.init, world) SlotView.Tidy.nil
  exact ⟨⟨tidy.proper, tidy.apart⟩, fun op done => op.apply_merged host done⟩

end Spore.Mm
