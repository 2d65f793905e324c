import Mathlib.Data.BitVec

/-!
# Fields of a word

A field of a machine word is selected by a mask. Clearing or setting bits outside a mask does
not change what the mask selects.
-/

namespace Spore.Lib

variable {w : Nat} {word value mask key : BitVec w}

/-- Bits set outside a mask are not selected by it. -/
theorem or_and_of_disjoint (outside : value &&& key = 0#w) :
    (word ||| value) &&& key = word &&& key := by
  rw [BitVec.and_or_distrib_right, outside, BitVec.or_zero]

/-- Bits cleared outside a mask do not change what it selects. -/
theorem clear_and_of_disjoint (outside : mask &&& key = 0#w) :
    (word &&& ~~~mask) &&& key = word &&& key := by
  have kept : ~~~mask &&& key = key := by
    ext i inside
    have bit := congrArg (fun v => v.getLsbD i) outside
    grind
  rw [BitVec.and_assoc, kept]

/-- Cleared bits are zero. -/
theorem clear_and_self : (word &&& ~~~mask) &&& mask = 0#w := by
  rw [BitVec.and_assoc, BitVec.and_comm (~~~mask)]
  simp

/-- Overwriting a field. -/
theorem assign_and_self (within : value &&& mask = value) :
    ((word &&& ~~~mask) ||| value) &&& mask = value := by
  rw [BitVec.and_or_distrib_right, clear_and_self, within, BitVec.zero_or]

/-- A field that only selects bits of a word is read back. -/
theorem and_and_self : (word &&& mask) &&& mask = word &&& mask := by
  rw [BitVec.and_assoc, BitVec.and_self]

end Spore.Lib
