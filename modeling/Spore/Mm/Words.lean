import Spore.Mm.Vmm

/-!
# What each word function does to the fields of a word

Every function of `vmm.c` that makes a page-table word is described by four fields: whether the
word is valid, whether user code may write, whether it is marked copy-on-write, and its
physical address.
-/

namespace Spore.Mm

open Spore.Lib

variable {word key ap rest : BitVec 64} {pa : Nat} {flags : UInt32}

/-- Rights include writing. -/
def grantsWrite (prot : UInt32) : Bool := decide (prot &&& vmmUserWrite ≠ 0)

/-- The access bits for a right to write. -/
theorem apFor_eq (flags : UInt32) :
    apFor flags = if grantsWrite flags then pteApUserRw else pteApUserRo := by
  unfold apFor grantsWrite
  by_cases write : flags &&& vmmUserWrite ≠ 0 <;> simp [write]

/-- A field that the permission bits are not part of survives a new permission. -/
theorem leafWithAp_and (outside : pteApMask &&& key = 0)
    (value : ap &&& key = 0) : leafWithAp word ap &&& key = word &&& key := by
  rw [leafWithAp, or_and_of_disjoint value, clear_and_of_disjoint outside]

/-- The bit against execution is outside the other fields. -/
theorem xnFor_and (outside : pteUxn &&& key = 0) : xnFor flags &&& key = 0 := by
  unfold xnFor
  split
  · exact BitVec.zero_and
  · exact outside

/-- It is set or not. -/
theorem xnFor_cases : xnFor flags = 0 ∨ xnFor flags = pteUxn := by
  unfold xnFor
  split
  · exact .inl rfl
  · exact .inr rfl

/-- Access bits are within their mask. -/
theorem apFor_within (flags : UInt32) : apFor flags &&& pteApMask = apFor flags := by
  unfold apFor
  split <;> decide

/-- They say whether a leaf is writable. -/
theorem apFor_writable : (apFor flags == pteApUserRw) = grantsWrite flags := by
  rw [apFor_eq]
  cases grantsWrite flags <;> decide

/-! ## Addresses -/

/-- An address of a page in the 48-bit space is its own address field. -/
theorem ofNat_and_addrMask (aligned : pa % pageSize = 0) (small : pa < 2 ^ 48) :
    (BitVec.ofNat 64 pa &&& pteAddrMask).toNat = pa := by
  rw [BitVec.toNat_and, BitVec.toNat_ofNat, Nat.mod_eq_of_lt (by omega)]
  have high : pa / 2 ^ 12 < 2 ^ 36 := by omega
  have split : (pa / 2 ^ 12) <<< 12 = pa := by
    simp only [pageSize] at aligned
    omega
  have mask : pteAddrMask.toNat = (2 ^ 36 - 1) <<< 12 := by decide
  rw [← split, mask, ← Nat.shiftLeft_and_distrib, Nat.and_two_pow_sub_one_of_lt_two_pow high]

/-- An address below a bound is one of the words' address field when its page is tracked. -/
theorem small_of_page {pmm : Pmm} (bound : pmm.tracked ≤ 2 ^ 36) (aligned : pa % pageSize = 0)
    (inside : pa / pageSize < pmm.tracked) : pa < 2 ^ 48 := by
  simp only [pageSize] at aligned inside
  omega

/-! ## Fields of the words -/

/-- What a reader of a word sees. -/
structure Fields (word : BitVec 64) (valid writable cow : Bool) (pa : Nat) : Prop where
  /-- Whether it maps anything. -/
  valid : isValid word = valid
  /-- Whether the program may write. -/
  writable : isWritableLeaf word = writable
  /-- Whether a write copies. -/
  cow : isCow word = cow
  /-- The page it points to. -/
  addr : addrOf word = pa

/-- The fields depend on these bits only. -/
theorem Fields.same {other : BitVec 64} {valid writable cow : Bool}
    (fields : Fields word valid writable cow pa)
    (same : other &&& (pteValid ||| pteApMask ||| pteCow ||| pteAddrMask) =
      word &&& (pteValid ||| pteApMask ||| pteCow ||| pteAddrMask)) :
    Fields other valid writable cow pa := by
  have part (key : BitVec 64)
      (inside : (pteValid ||| pteApMask ||| pteCow ||| pteAddrMask) &&& key = key) :
      other &&& key = word &&& key := by
    rw [← inside, ← BitVec.and_assoc, same, BitVec.and_assoc]
  constructor
  · rw [isValid, part _ (by decide)]; exact fields.valid
  · rw [isWritableLeaf, part _ (by decide)]; exact fields.writable
  · rw [isCow, part _ (by decide)]; exact fields.cow
  · rw [addrOf, part _ (by decide)]; exact fields.addr

/-- The constant part of a word that maps a page. -/
theorem base_and (outside : pteAddrMask &&& key = 0) :
    ((BitVec.ofNat 64 pa &&& pteAddrMask) ||| rest) &&& key = rest &&& key := by
  rw [BitVec.and_or_distrib_right, BitVec.and_assoc, outside]
  simp

section

variable (aligned : pa % pageSize = 0) (small : pa < 2 ^ 48)

include aligned small

/-- An address with bits outside its mask. -/
theorem base_fields (outside : rest &&& pteAddrMask = 0) :
    Fields ((BitVec.ofNat 64 pa &&& pteAddrMask) ||| rest) (isValid rest) (isWritableLeaf rest)
      (isCow rest) pa := by
  constructor
  · rw [isValid, base_and (by decide)]; rfl
  · rw [isWritableLeaf, base_and (by decide)]; rfl
  · rw [isCow, base_and (by decide)]; rfl
  · rw [addrOf, or_and_of_disjoint outside, and_and_self, ofNat_and_addrMask aligned small]

/-- The word of a mapped page. -/
theorem mapWord_fields : Fields (mapWord pa flags) true (grantsWrite flags) false pa := by
  simp only [mapWord, BitVec.or_assoc, apFor_eq]
  rcases xnFor_cases with xn | xn <;> rw [xn] <;> cases grantsWrite flags <;>
    exact base_fields aligned small (by decide)

/-- The word of a page to copy on a write. -/
theorem mapCowWord_fields : Fields (mapCowWord pa flags) true false true pa := by
  simp only [mapCowWord, BitVec.or_assoc]
  rcases xnFor_cases with xn | xn <;> rw [xn] <;> exact base_fields aligned small (by decide)

/-- The word of a table. -/
theorem tableWord_fields :
    isTable (tableWord pa) ∧ isValid (tableWord pa) ∧ addrOf (tableWord pa) = pa := by
  have address : BitVec.ofNat 64 pa &&& pteAddrMask = BitVec.ofNat 64 pa := by
    apply BitVec.eq_of_toNat_eq
    rw [ofNat_and_addrMask aligned small, BitVec.toNat_ofNat, Nat.mod_eq_of_lt (by omega)]
  have shape : tableWord pa = (BitVec.ofNat 64 pa &&& pteAddrMask) ||| (pteValid ||| pteTable) := by
    rw [tableWord, address, BitVec.or_assoc]
  rw [shape]
  refine ⟨?_, ?_, (base_fields aligned small (by decide)).addr⟩
  · rw [isTable, base_and (by decide)]
    decide
  · rw [isValid, base_and (by decide)]
    decide

end

/-- A word whose validity and address are those of another. -/
theorem fields_of_leafWithAp (base : BitVec 64) (value : ap &&& pteApMask = ap) :
    Fields (leafWithAp base ap) (isValid base) (ap == pteApUserRw) (isCow base) (addrOf base) := by
  have inside : ∀ key : BitVec 64, pteApMask &&& key = 0 → ap &&& key = 0 := by
    intro key outside
    rw [← value, BitVec.and_assoc, outside]
    exact BitVec.and_zero
  constructor
  · rw [isValid, leafWithAp_and (by decide) (inside _ (by decide))]
    rfl
  · rw [isWritableLeaf, leafWithAp, assign_and_self value]
  · rw [isCow, leafWithAp_and (by decide) (inside _ (by decide))]
    rfl
  · rw [addrOf, leafWithAp_and (by decide) (inside _ (by decide))]
    rfl

/-- The mark of copying is cleared. -/
theorem uncow_fields (word : BitVec 64) : isValid (word &&& ~~~pteCow) = isValid word ∧
    isCow (word &&& ~~~pteCow) = false ∧ addrOf (word &&& ~~~pteCow) = addrOf word := by
  refine ⟨?_, ?_, ?_⟩
  · rw [isValid, clear_and_of_disjoint (by decide)]
    rfl
  · rw [isCow, clear_and_self]
    rfl
  · rw [addrOf, clear_and_of_disjoint (by decide)]
    rfl

/-- The word after a fault that needed no copy. -/
theorem takenWord_fields : Fields (takenWord word) (isValid word) true false (addrOf word) := by
  obtain ⟨valid, cow, addr⟩ := uncow_fields word
  have fields := fields_of_leafWithAp (word &&& ~~~pteCow)
    (show pteApUserRw &&& pteApMask = pteApUserRw by decide)
  rw [valid, cow, addr] at fields
  exact fields

/-- No leaf that a clone leaves behind is writable; those that were writable or marked are
marked. -/
theorem clonedWord_fields :
    Fields (clonedWord word) (isValid word) false (isWritableLeaf word || isCow word)
      (addrOf word) := by
  unfold clonedWord
  split
  · rename_i marked
    have fields := fields_of_leafWithAp (word ||| pteCow)
      (show pteApUserRo &&& pteApMask = pteApUserRo by decide)
    have valid : isValid (word ||| pteCow) = isValid word := by
      rw [isValid, or_and_of_disjoint (by decide)]; rfl
    have addr : addrOf (word ||| pteCow) = addrOf word := by
      rw [addrOf, or_and_of_disjoint (by decide)]; rfl
    have cow : isCow (word ||| pteCow) := by
      have split : (word ||| pteCow) &&& pteCow = pteCow := by
        rw [BitVec.and_or_distrib_right, BitVec.and_self, BitVec.or_comm]
        ext i inside
        simp
      rw [isCow, split]
      decide
    rw [valid, addr, cow] at fields
    rw [marked]
    exact fields
  · rename_i plain
    obtain ⟨readonly, unmarked⟩ : isWritableLeaf word = false ∧ isCow word = false := by
      simpa using plain
    rw [readonly, unmarked]
    exact ⟨rfl, readonly, unmarked, rfl⟩

/-- The word under new rights keeps its mark. -/
theorem protectedWord_fields :
    Fields (protectedWord word flags) (isValid word) (grantsWrite flags) (isCow word)
      (addrOf word) := by
  have fields := fields_of_leafWithAp word (apFor_within flags)
  rw [apFor_writable] at fields
  unfold protectedWord
  split
  · exact fields.same (clear_and_of_disjoint (by decide))
  · exact fields.same (or_and_of_disjoint (by decide))

/-- The word of a shared leaf after a clone. -/
theorem restoredWord_fields :
    Fields (restoredWord word flags) (isValid word) (grantsWrite flags) false (addrOf word) := by
  obtain ⟨valid, cow, addr⟩ := uncow_fields word
  have fields := fields_of_leafWithAp (word &&& ~~~pteCow) (apFor_within flags)
  rw [apFor_writable, valid, cow, addr] at fields
  apply fields.same
  rw [restoredWord, or_and_of_disjoint (xnFor_and (by decide)), clear_and_of_disjoint (by decide)]

/-- The word of a copied page. -/
theorem copiedWord_fields (aligned : pa % pageSize = 0) (small : pa < 2 ^ 48) :
    Fields (copiedWord word pa) (isValid word) true false pa := by
  have fields := fields_of_leafWithAp
    ((word &&& ~~~pteAddrMask &&& ~~~pteCow) ||| (BitVec.ofNat 64 pa &&& pteAddrMask))
    (show pteApUserRw &&& pteApMask = pteApUserRw by decide)
  have outside : ∀ key : BitVec 64, pteAddrMask &&& key = 0 →
      (BitVec.ofNat 64 pa &&& pteAddrMask) &&& key = 0 := by
    intro key disjoint
    rw [BitVec.and_assoc, disjoint]
    exact BitVec.and_zero
  refine ⟨fields.valid.trans ?_, fields.writable, fields.cow.trans ?_, fields.addr.trans ?_⟩
  · rw [isValid, or_and_of_disjoint (outside _ (by decide)), clear_and_of_disjoint (by decide),
      clear_and_of_disjoint (by decide)]
    rfl
  · rw [isCow, or_and_of_disjoint (outside _ (by decide)), clear_and_self]
    rfl
  have cleared : (word &&& ~~~pteAddrMask &&& ~~~pteCow) &&& pteAddrMask = 0#64 := by
    rw [clear_and_of_disjoint (by decide), clear_and_self]
  rw [addrOf, BitVec.and_or_distrib_right, cleared, and_and_self]
  simpa using ofNat_and_addrMask aligned small

/-- A table has the bits that make it one. -/
theorem and_of_isTable (table : isTable word) (inside : (pteValid ||| pteTable) &&& key = key) :
    word &&& key = key := by
  rw [isTable, beq_iff_eq] at table
  rw [← inside, ← BitVec.and_assoc, table]

/-- A table is valid. -/
theorem isValid_of_isTable (table : isTable word) : isValid word := by
  rw [isValid, and_of_isTable table (by decide)]
  decide

/-- A table is no block. -/
theorem not_leaf_of_isTable {level : Nat} (table : isTable word) (upper : level ≠ 3) :
    isLeafAtLevel word level = false := by
  rw [isLeafAtLevel, and_of_isTable table (by decide)]
  have other : (level == 3) = false := by simpa using upper
  rw [other]
  simp
  intro
  decide

/-- The address in a word is that of a page. -/
theorem addrOf_aligned : addrOf word % pageSize = 0 := by
  have low : pteAddrMask.toNat % 2 ^ 12 = 0 := by decide
  show (word &&& pteAddrMask).toNat % 2 ^ 12 = 0
  rw [BitVec.toNat_and, Nat.and_mod_two_pow, low, Nat.and_zero]

/-- At the last level every valid word is a leaf. -/
@[simp] theorem isLeafAtLevel_three : isLeafAtLevel word 3 = isValid word := by
  simp [isLeafAtLevel]

/-- Above the last level a valid word is a table, so a leaf is at the last level. -/
theorem isLeafAtLevel_iff {level : Nat} (valid : isValid word)
    (table : level ≠ 3 → isTable word) : isLeafAtLevel word level ↔ level = 3 := by
  by_cases last : level = 3
  · simp [last, valid]
  · simp [last, not_leaf_of_isTable (table last) last]

/-- The zero word is invalid. -/
@[simp] theorem isValid_zero : isValid 0#64 = false := by decide

end Spore.Mm
