import Mathlib

/-!
# Serial numbers modulo 2^32

Sequence numbers are compared through the sign of their wrapped difference. Two numbers that
lie within half the ring of a common start are ordered by that sign exactly as their natural
distances from the start are. Proofs about streams shorter than 2^31 use distances only.
-/

namespace Spore.Lib.Serial

variable {i j : Nat}

/-- The sign test `(int32_t)(a - b) < 0`. -/
def before (a b : UInt32) : Bool := decide ((a - b).toInt32 < 0)

/-- The sign test `(int32_t)(a - b) > 0`. -/
def after (a b : UInt32) : Bool := decide (0 < (a - b).toInt32)

/-- The number at a distance from a start. -/
def offset (start : UInt32) (distance : Nat) : UInt32 := start + UInt32.ofNat distance

/-- A wrapped difference is negative exactly in the upper half of the ring. -/
theorem before_iff (a b : UInt32) : before a b ↔ 2 ^ 31 ≤ (a - b).toNat := by
  have bound := (a - b).toNat_lt
  rw [before, decide_eq_true_iff, Int32.lt_iff_toInt_lt]
  change (a - b).toBitVec.toInt < 0 ↔ _
  rw [BitVec.toInt_eq_toNat_cond]
  change (if 2 * (a - b).toNat < 2 ^ 32 then ((a - b).toNat : Int)
    else (a - b).toNat - (2 ^ 32 : Nat)) < 0 ↔ _
  split <;> omega

section

variable (start : UInt32)

/-- Wrapped value of a number at a distance. -/
theorem offset_toNat (i : Nat) : (offset start i).toNat = (start.toNat + i) % 2 ^ 32 := by
  rw [offset, UInt32.toNat_add, UInt32.toNat_ofNat']
  omega

/-- Difference of two numbers at distances below the modulus. -/
theorem offset_sub_toNat (hi : i < 2 ^ 32) (hj : j < 2 ^ 32) :
    (offset start i - offset start j).toNat = if j ≤ i then i - j else 2 ^ 32 - (j - i) := by
  rw [UInt32.toNat_sub, offset_toNat, offset_toNat]
  split <;> omega

/-- Numbers at distances below half the ring compare as their distances do; the right one
may also be at exactly half the ring. -/
theorem before_offset (hi : i < 2 ^ 31) (hj : j ≤ 2 ^ 31) :
    before (offset start i) (offset start j) = decide (i < j) := by
  rw [Bool.eq_iff_iff, before_iff, offset_sub_toNat start (by omega) (by omega), decide_eq_true_iff]
  split <;> omega

/-- Distances below the modulus are determined by the number. -/
theorem offset_inj (hi : i < 2 ^ 32) (hj : j < 2 ^ 32) :
    offset start i = offset start j ↔ i = j := by
  constructor
  · intro same
    have nat := congrArg UInt32.toNat same
    rw [offset_toNat, offset_toNat] at nat
    omega
  · exact fun same => same ▸ rfl

/-- Distances add. -/
theorem offset_add (i j : Nat) : offset start (i + j) = offset start i + UInt32.ofNat j := by
  simp only [offset, UInt32.ofNat_add, UInt32.add_assoc]

/-- The start is at distance zero. -/
theorem offset_zero : offset start 0 = start := by
  simp [offset]

end

end Spore.Lib.Serial
