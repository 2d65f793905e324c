import Mathlib.Init

/-!
# Counting loops that may stop early

`countUp` runs a body for `n` consecutive indices and stops at the first one that reports
failure, the way a C loop with an early `return false` does.
-/

namespace Spore.Lib

variable {State : Type _}

/-- Run the body for the indices `i`, `i + 1`, … while it succeeds, `n` times at most. -/
def countUp (body : Nat → State → Bool × State) : (n i : Nat) → State → Bool × State
  | 0, _, state => (true, state)
  | n + 1, i, state =>
    if (body i state).1 then countUp body n (i + 1) (body i state).2
    else (false, (body i state).2)

/-- The rule for the loop: one assertion at each index while rounds succeed, another one after a
round that failed. -/
theorem countUp_rule (body : Nat → State → Bool × State) (inv : Nat → State → Prop)
    (failed : State → Prop) (n : Nat) : ∀ (i : Nat) {state : State},
      (∀ k state, i ≤ k → k < i + n → inv k state →
        ((body k state).1 → inv (k + 1) (body k state).2) ∧
        ((body k state).1 = false → failed (body k state).2)) →
      inv i state →
      ((countUp body n i state).1 → inv (i + n) (countUp body n i state).2) ∧
      ((countUp body n i state).1 = false → failed (countUp body n i state).2) := by
  induction n with
  | zero => exact fun i state _ holds => ⟨fun _ => holds, fun stopped => (nomatch stopped)⟩
  | succ n ih =>
    intro i state step holds
    obtain ⟨moves, fails⟩ := step i state (Nat.le_refl i) (by omega) holds
    rw [countUp]
    split
    · rename_i good
      have rest := ih (i + 1) (fun k state low high => step k state (by omega) (by omega))
        (moves good)
      rwa [Nat.add_right_comm] at rest
    · rename_i bad
      have stopped : (body i state).1 = false := by simpa using bad
      exact ⟨fun good => (nomatch good), fun _ => fails stopped⟩

/-- An invariant of the body holds when the loop ends, however it ends. -/
theorem countUp_keeps {body : Nat → State → Bool × State} (inv : State → Prop)
    (n : Nat) (i : Nat) {state : State}
    (kept : ∀ k state, i ≤ k → k < i + n → inv state → inv (body k state).2)
    (holds : inv state) : inv (countUp body n i state).2 := by
  have both := countUp_rule body (fun _ => inv) inv n i
    (fun k state low high good => ⟨fun _ => kept k state low high good,
      fun _ => kept k state low high good⟩) holds
  cases ended : (countUp body n i state).1 with
  | true => exact both.1 ended
  | false => exact both.2 ended

/-- A loop that cannot fail: an invariant that depends on the index has moved on to the end. -/
theorem foldl_range_moves {body : State → Nat → State} (inv : Nat → State → Prop) {state : State}
    (n : Nat) (start : inv 0 state)
    (moves : ∀ k state, k < n → inv k state → inv (k + 1) (body state k)) :
    inv n ((List.range n).foldl body state) := by
  induction n with
  | zero => exact start
  | succ n ih =>
    rw [List.range_succ, List.foldl_append, List.foldl_cons, List.foldl_nil]
    exact moves n _ (Nat.lt_succ_self n) (ih fun k state low => moves k state (by omega))

end Spore.Lib
