import Spore.Lib.Run

/-!
# The start rate limit (`userland/bin/init/service.c`)

A unit remembers its recent starts in an array of eight. A burst that fits the array bounds the
starts in every window of the interval's length; the count of remembered starts never reaches a
larger one, and then nothing is limited.
-/

namespace Spore.Init

open Spore.Lib List

/-- `START_LIMIT_HISTORY`. -/
def startLimitHistory : Nat := 8

/-- The fields of `struct unit` that limit its starts, `starts` up to `start_count`. -/
structure StartLimit where
  /-- `StartLimitBurst`. -/
  burst : Int
  /-- `StartLimitIntervalSec`. -/
  interval : Int
  /-- The remembered starts. -/
  starts : List Int

/-- The loop that keeps the recent starts. -/
def StartLimit.recent (unit : StartLimit) (now : Int) : List Int :=
  (unit.starts.take startLimitHistory).filter (now - · ≤ unit.interval)

/-- `rate_limit_ok`. -/
def rateLimitOk (unit : StartLimit) (now : Int) : Bool × StartLimit :=
  let kept := unit.recent now
  if 0 < unit.burst ∧ unit.burst ≤ kept.length then (false, { unit with starts := kept })
  else if kept.length < startLimitHistory then (true, { unit with starts := kept ++ [now] })
  else (true, { unit with starts := kept })

/-- `start_limit_exhausted`. -/
def startLimitExhausted (unit : StartLimit) (now : Int) : Bool × StartLimit :=
  if unit.burst ≤ 0 then (false, unit)
  else (unit.burst ≤ (unit.recent now).length, { unit with starts := unit.recent now })

/-- `spawn_service` starts the unit, or `reap_children` asks whether it may. -/
structure Attempt where
  /-- Whether it is `spawn_service`. -/
  spawns : Bool
  /-- Past the limit, `spawn_service` gets its pipe and its child. -/
  forks : Bool
  /-- The clock. -/
  now : Int

/-- A unit with all its starts and the last reading of the clock. -/
structure StartRun where
  /-- The unit. -/
  unit : StartLimit
  /-- The starts so far. -/
  spawned : List Int
  /-- The last reading of the clock. -/
  clock : Int

/-- An attempt, and the start when there is one. -/
def StartRun.step (run : StartRun) (attempt : Attempt) : StartRun :=
  if attempt.spawns then
    let asked := rateLimitOk run.unit attempt.now
    ⟨asked.2, if asked.1 && attempt.forks then run.spawned ++ [attempt.now] else run.spawned,
      attempt.now⟩
  else ⟨(startLimitExhausted run.unit attempt.now).2, run.spawned, attempt.now⟩

/-- The clock does not go back. -/
abbrev StartRun.Fits (run : StartRun) (attempt : Attempt) : Prop := run.clock ≤ attempt.now

/-- No window has more starts than the burst. -/
def StartRun.Limited (run : StartRun) : Prop :=
  ∀ first : Int, (run.spawned.countP
    (fun start => first ≤ start ∧ start ≤ first + run.unit.interval) : Int) ≤ run.unit.burst

/-- The array has room for the burst and keeps what a later look can still count. -/
structure StartRun.Sound (run : StartRun) : Prop where
  /-- Some start is allowed. -/
  positive : 0 < run.unit.burst
  /-- The burst fits the history. -/
  fits : run.unit.burst ≤ startLimitHistory
  /-- The history fits its array. -/
  length : run.unit.starts.length ≤ startLimitHistory
  /-- Starts that may still count are remembered. -/
  remembered : ∀ later, run.clock ≤ later →
    run.spawned.countP (later - · ≤ run.unit.interval) ≤
      run.unit.starts.countP (later - · ≤ run.unit.interval)
  /-- No interval has too many starts. -/
  limited : run.Limited

namespace StartRun.Sound

variable {run : StartRun} {now later : Int} (sound : run.Sound)

include sound

/-- The starts that count are those within the interval. -/
theorem recent_eq : run.unit.recent now = run.unit.starts.filter (now - · ≤ run.unit.interval) := by
  rw [StartLimit.recent, take_of_length_le sound.length]

section

variable (forward : run.clock ≤ now)

include forward

/-- What is dropped is too old for every later look. -/
theorem recent_remembered (after : now ≤ later) :
    run.spawned.countP (later - · ≤ run.unit.interval) ≤
      (run.unit.recent now).countP (later - · ≤ run.unit.interval) := by
  rw [sound.recent_eq, countP_filter]
  refine Nat.le_trans (sound.remembered later (Int.le_trans forward after)) (Nat.le_of_eq ?_)
  refine countP_congr fun start _ => ?_
  simp only [decide_eq_true_eq, Bool.and_eq_true]
  omega

/-- The starts in a window that goes on till now are recent. -/
theorem window_recent {first : Int} (inside : first ≤ now ∧ now ≤ first + run.unit.interval) :
    run.spawned.countP (fun start => first ≤ start ∧ start ≤ first + run.unit.interval) ≤
      (run.unit.recent now).length := by
  refine Nat.le_trans (countP_mono_left fun start _ near => ?_)
    (Nat.le_trans (sound.recent_remembered forward (Int.le_refl now)) countP_le_length)
  simp only [decide_eq_true_eq] at near ⊢
  omega

/-- Old starts are forgotten. -/
theorem look :
    Sound ⟨{ run.unit with starts := run.unit.recent now }, run.spawned, now⟩ where
  positive := sound.positive
  fits := sound.fits
  length := by
    rw [sound.recent_eq]
    exact Nat.le_trans (length_filter_le _ _) sound.length
  remembered later after := sound.recent_remembered forward after
  limited := sound.limited

/-- A start within the limit is remembered. -/
theorem spawn (forks : Bool) (room : ((run.unit.recent now).length : Int) < run.unit.burst) :
    Sound ⟨{ run.unit with starts := run.unit.recent now ++ [now] },
      if forks then run.spawned ++ [now] else run.spawned, now⟩ where
  positive := sound.positive
  fits := sound.fits
  length := by
    have few := sound.fits
    rw [length_append, length_singleton]
    omega
  remembered later after := by
    have before := sound.recent_remembered forward after
    dsimp only
    split <;> simp only [countP_append] <;> omega
  limited first := by
    have before := sound.limited first
    have most inside := sound.window_recent forward (inside : first ≤ now ∧ _)
    split
    · rw [countP_append, countP_singleton]
      simp only [decide_eq_true_eq] at most ⊢
      split <;> omega
    · exact before

end

/-- Each attempt keeps the history sound. -/
theorem step (attempt : Attempt) (forward : run.Fits attempt) : (run.step attempt).Sound := by
  unfold StartRun.step
  split
  · simp only [rateLimitOk]
    split
    · exact sound.look forward
    rename_i asked
    have room : ((run.unit.recent attempt.now).length : Int) < run.unit.burst :=
      Int.not_le.mp fun full => asked ⟨sound.positive, full⟩
    have few := sound.fits
    rw [if_pos (by omega)]
    exact sound.spawn forward attempt.forks room
  · rw [startLimitExhausted, if_neg (Int.not_le.mpr sound.positive)]
    exact sound.look forward

end StartRun.Sound

/-- With a burst that fits the array, every run of attempts keeps the limit. -/
theorem start_rate_limited (burst interval clock : Int) (positive : 0 < burst)
    (few : burst ≤ startLimitHistory) (attempts : List Attempt)
    (fits : EveryInput StartRun.step StartRun.Fits ⟨⟨burst, interval, []⟩, [], clock⟩ attempts) :
    EveryState StartRun.step StartRun.Limited ⟨⟨burst, interval, []⟩, [], clock⟩ attempts := by
  have start : StartRun.Sound ⟨⟨burst, interval, []⟩, [], clock⟩ :=
    ⟨positive, few, Nat.zero_le _, fun _ _ => Nat.le_refl _, fun _ => Int.le_of_lt positive⟩
  exact (everyState_of_everyInput (fun _ attempt sound => sound.step attempt) start fits).mono
    fun _ sound => sound.limited

/-- The default limit in a run of three attempts. -/
theorem default_burst_limited : EveryState StartRun.step StartRun.Limited
    ⟨⟨3, 10, []⟩, [], 0⟩ [⟨true, true, 1⟩, ⟨false, true, 2⟩, ⟨true, false, 12⟩] :=
  start_rate_limited 3 10 0 (by decide) (by decide) _ (by decide)

/-- With a burst of nine, ten starts in one second are all accepted. -/
theorem large_burst_not_limited : ¬ EveryState StartRun.step StartRun.Limited
    ⟨⟨9, 10, []⟩, [], 0⟩ (List.replicate 10 ⟨true, true, 0⟩) :=
  fun every => absurd (every.last 0) (by decide)

end Spore.Init
