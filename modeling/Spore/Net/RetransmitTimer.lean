import Spore.Net.Socket
import Spore.Lib.Run

/-!
# The retransmission timer (`proc/socket.c`)

The round-trip filter divides scaled values with truncation. Its fields stay in intervals that
every sample keeps, and inside them no product or sum of the filter leaves 32 bits.
-/

namespace Spore.Net

open Spore.Lib

namespace Rtt

/-- Before the first sample there is no estimate; from then on it is between 1 and 6000 ticks,
in eighths. The variance never passes the largest difference of two such times, in quarters. -/
structure Bounded (rtt : Rtt) : Prop where
  /-- An estimate that exists is at least one tick. -/
  low : rtt.srttX8 = 0 ∨ 8 * 1 ≤ rtt.srttX8
  /-- The estimate is at most the longest timeout. -/
  high : rtt.srttX8 ≤ 8 * 6000
  /-- The variance is at most the largest difference of two samples. -/
  variance : rtt.rttvarX4 ≤ 4 * 5999
  /-- The timeout is clamped. -/
  timeout : 10 ≤ rtt.rtoTicks ∧ rtt.rtoTicks ≤ 6000

/-- Every product and sum that the next sample computes in 32 bits fits them. -/
def Exact (rtt : Rtt) : Prop :=
  ∀ sentTick now, sample sentTick now * 8 < 2 ^ 32 ∧ rtt.srttX8 * 7 < 2 ^ 32 ∧
    rtt.rttvarX4 * 3 < 2 ^ 32 ∧ (rtt.noteSample sentTick now).srttX8 < 2 ^ 32 ∧
    (rtt.noteSample sentTick now).rttvarX4 < 2 ^ 32

/-- A sample counts as one tick at least and as the longest timeout at most. -/
theorem sample_bounds (sentTick now : Nat) :
    1 ≤ sample sentTick now ∧ sample sentTick now ≤ 6000 := by
  unfold sample tcpMaxRtoTicks
  dsimp only
  split <;> split <;> omega

/-- The clamp keeps every timeout in its interval. -/
theorem clampRto_bounds (ticks : Nat) : 10 ≤ tcpClampRto ticks ∧ tcpClampRto ticks ≤ 6000 := by
  unfold tcpClampRto tcpMinRtoTicks tcpMaxRtoTicks
  split
  · omega
  · split <;> omega

/-- One sample keeps the bounds. -/
theorem Bounded.noteSample {rtt : Rtt} (bounded : rtt.Bounded) (sentTick now : Nat) :
    (rtt.noteSample sentTick now).Bounded := by
  have ⟨low, high, variance, _⟩ := bounded
  have ⟨some_ticks, few⟩ := sample_bounds sentTick now
  unfold Rtt.noteSample
  split
  · exact bounded
  dsimp only
  split
  · constructor
    · exact .inr (by dsimp only; omega)
    · dsimp only; omega
    · dsimp only; omega
    · exact clampRto_bounds _
  · constructor
    · exact .inr (by dsimp only; omega)
    · dsimp only; omega
    · dsimp only
      split <;> omega
    · exact clampRto_bounds _

/-- A sample of a segment that was sent leaves an estimate of one tick or more, and no later
sample takes it away. -/
theorem Bounded.noteSample_estimates {rtt : Rtt} (bounded : rtt.Bounded) {sentTick : Nat}
    (now : Nat) (known : 8 * 1 ≤ rtt.srttX8 ∨ sentTick ≠ 0) :
    8 * 1 ≤ (rtt.noteSample sentTick now).srttX8 := by
  have low := bounded.low
  have some_ticks := (sample_bounds sentTick now).1
  unfold Rtt.noteSample
  split
  · omega
  · dsimp only
    split <;> dsimp only <;> omega

/-- The same along a sequence of samples: one that counts is enough. -/
theorem Bounded.samples_estimate (samples : List (Nat × Nat)) {rtt : Rtt} (bounded : rtt.Bounded)
    (known : 8 * 1 ≤ rtt.srttX8 ∨ ∃ sample ∈ samples, sample.1 ≠ 0) :
    8 * 1 ≤ (samples.foldl (fun rtt sample => rtt.noteSample sample.1 sample.2) rtt).srttX8 := by
  induction samples generalizing rtt with
  | nil => simpa using known
  | cons sample rest ih =>
    refine ih (bounded.noteSample sample.1 sample.2) ?_
    by_cases later : ∃ s ∈ rest, s.1 ≠ 0
    · exact .inr later
    · refine .inl (bounded.noteSample_estimates sample.2 (known.imp_right ?_))
      rintro ⟨s, mem, sent⟩
      rcases List.mem_cons.mp mem with rfl | mem
      · exact sent
      · exact absurd ⟨s, mem, sent⟩ later

/-- Inside the bounds the arithmetic of the filter does not wrap. -/
theorem Bounded.exact {rtt : Rtt} (bounded : rtt.Bounded) : rtt.Exact := by
  intro sentTick now
  have few := (sample_bounds sentTick now).2
  have next := bounded.noteSample sentTick now
  have high := bounded.high
  have variance := bounded.variance
  have nextHigh := next.high
  have nextVariance := next.variance
  omega

/-- The shift stops at the maximum. -/
theorem backoffRto_eq (rtt : Rtt) (retries : Nat) :
    rtt.backoffRto retries = min 6000 (rtt.currentRto * 2 ^ min retries 6) := by
  have shift : (if retries < tcpMaxRtoShift then retries else tcpMaxRtoShift) = min retries 6 := by
    unfold tcpMaxRtoShift
    split <;> omega
  unfold backoffRto
  dsimp only
  rw [shift, Nat.shiftRight_eq_div_pow, Nat.shiftLeft_eq]
  have fits := Nat.le_div_iff_mul_le (x := rtt.currentRto) (y := tcpMaxRtoTicks)
    (Nat.two_pow_pos (min retries 6))
  unfold tcpMaxRtoTicks at fits ⊢
  split <;> omega

end Rtt

/-- Along every sequence of samples the estimator keeps its bounds and computes exactly, and once
a segment that was sent has been measured the estimate is at least one tick; the backed-off
timeout grows with the retries up to its maximum. -/
theorem retransmission_timer_bounds (samples : List (Nat × Nat)) :
    EveryState (fun rtt sample => rtt.noteSample sample.1 sample.2)
      (fun rtt => rtt.Bounded ∧ rtt.Exact) Rtt.init samples ∧
    ((∃ sample ∈ samples, sample.1 ≠ 0) →
      8 * 1 ≤ (samples.foldl (fun rtt sample => rtt.noteSample sample.1 sample.2)
        Rtt.init).srttX8) ∧
    ∀ (rtt : Rtt) few many, few ≤ many →
      rtt.backoffRto few ≤ rtt.backoffRto many ∧ rtt.backoffRto many ≤ 6000 := by
  have start : Rtt.init.Bounded := ⟨.inl rfl, by decide, by decide, by decide⟩
  refine ⟨?_, fun sent => start.samples_estimate samples (.inr sent), ?_⟩
  · refine .mono (fun rtt bounded => ⟨bounded, bounded.exact⟩)
      (everyState_of_kept (fun rtt sample bounded => ?_) start)
    exact bounded.noteSample sample.1 sample.2
  · intro rtt few many more
    rw [rtt.backoffRto_eq, rtt.backoffRto_eq]
    have power : 2 ^ min few 6 ≤ 2 ^ min many 6 := Nat.pow_le_pow_right two_pos (by omega)
    have order := Nat.mul_le_mul_left rtt.currentRto power
    omega

end Spore.Net
