import Spore.Lib.Run

/-!
# Timers (`userland/bin/init/service.c`)

`check_timers` fires a timer that is due and arms it again. A next firing that is set tells
`arm_timer` that `OnBootSec=` is over, and stays as it is when nothing else is configured: a timer
with `OnBootSec=` alone fires in every round once it is due. `OnUnitActiveSec=` comes before a
minute of the calendar, which then has no effect; and `arm_timer` reads the clock again, so that a
minute that passes between the two readings is left out.
-/

namespace Spore.Init

open Spore.Lib

/-- The fields of `struct unit` that say when a timer fires. A next firing of zero is unset. -/
structure TimerUnit where
  /-- Seconds after boot. -/
  onBootSec : Nat
  /-- Seconds after the unit was active. -/
  onUnitActiveSec : Nat
  /-- The minute of each hour. -/
  onCalendarMinute : Option (Fin 60)
  /-- When it is due. -/
  nextFire : Nat

/-- The next firing that `arm_timer` computes. In a time zone of whole hours, `mktime` answers
with a minute of the hour that the clock is in. -/
def TimerUnit.nextAfter (unit : TimerUnit) (now : Nat) : Nat :=
  if 0 < unit.onBootSec ∧ unit.nextFire = 0 then now + unit.onBootSec
  else if 0 < unit.onUnitActiveSec then now + unit.onUnitActiveSec
  else match unit.onCalendarMinute with
    | none => unit.nextFire
    | some minute =>
      let candidate := now - now % 3600 + 60 * minute
      if candidate ≤ now then candidate + 3600 else candidate

/-- The next elapse of a timer. -/
def armTimer (unit : TimerUnit) (now : Nat) : TimerUnit :=
  { unit with nextFire := unit.nextAfter now }

/-- A round of `check_timers`, with its reading of the clock and the later one of `arm_timer`. -/
structure Round where
  /-- The clock of the check. -/
  now : Nat
  /-- The clock when it is armed again. -/
  armed : Nat
  /-- The clock does not go back. -/
  forward : now ≤ armed

/-- A round in which the timer fired. -/
structure Firing extends Round where
  /-- When it was due. -/
  due : Nat

/-- An active timer and its firings, the last one first. -/
structure TimerRun where
  /-- The timer. -/
  unit : TimerUnit
  /-- The firings so far. -/
  fired : List Firing

/-- `check_timers` for one timer. -/
def TimerRun.step (run : TimerRun) (round : Round) : TimerRun :=
  if run.unit.nextFire = 0 ∨ round.now < run.unit.nextFire then run
  else ⟨armTimer run.unit round.armed, ⟨round, run.unit.nextFire⟩ :: run.fired⟩

/-- The timer has fired once for each due time, and what is next lies ahead. -/
structure TimerRun.Progress (run : TimerRun) : Prop where
  /-- A firing is due after the firings before it. -/
  once : run.fired.Pairwise fun next before => before.armed < next.due
  /-- The next firing lies after every firing so far. -/
  ahead : ∀ firing ∈ run.fired, firing.armed < run.unit.nextFire
  /-- With a minute of the calendar, the next firing is at that minute, an hour after the last
  firing at the latest. -/
  hourly : ∀ minute ∈ run.unit.onCalendarMinute, ∀ firing ∈ run.fired.head?,
    run.unit.nextFire ≤ firing.now + 3600 ∧ run.unit.nextFire % 3600 = 60 * minute

/-- A round in which the timer is due does not pass the minute of the calendar between its two
readings of the clock. -/
def TimerRun.Prompt (run : TimerRun) (round : Round) : Prop :=
  run.unit.nextFire ≠ 0 → run.unit.nextFire ≤ round.now →
    ∀ minute ∈ run.unit.onCalendarMinute, ∀ passed, round.now < passed → passed ≤ round.armed →
      passed % 3600 ≠ 60 * minute

/-- What the configuration has to give: a timer that is set can be set again, and a minute of the
calendar is not overruled. -/
structure TimerUnit.Steady (unit : TimerUnit) : Prop where
  /-- There is something to set it with. -/
  again : unit.nextFire = 0 ∨ 0 < unit.onUnitActiveSec ∨ unit.onCalendarMinute.isSome
  /-- `OnUnitActiveSec=` and `OnCalendar=` are not both set. -/
  single : unit.onUnitActiveSec = 0 ∨ unit.onCalendarMinute = none

namespace TimerUnit

variable {unit : TimerUnit}

/-- With `OnUnitActiveSec=` the next firing lies that much ahead. -/
theorem nextAfter_active (set : unit.nextFire ≠ 0) (now : Nat)
    (active : 0 < unit.onUnitActiveSec) : unit.nextAfter now = now + unit.onUnitActiveSec := by
  rw [nextAfter, if_neg fun unset => set unset.2, if_pos active]

/-- With a minute of the calendar alone, the next firing is the first time after the reading at
that minute. -/
theorem nextAfter_minute (set : unit.nextFire ≠ 0) (now : Nat) {minute : Fin 60}
    (alone : unit.onUnitActiveSec = 0) (configured : unit.onCalendarMinute = some minute) :
    now < unit.nextAfter now ∧ unit.nextAfter now ≤ now + 3600 ∧
      unit.nextAfter now % 3600 = 60 * minute := by
  have early := minute.isLt
  rw [nextAfter, if_neg fun unset => set unset.2, if_neg (by omega), configured]
  dsimp only
  split <;> omega

/-- A steady timer that is set again stays steady. -/
theorem Steady.armTimer (steady : unit.Steady) (set : unit.nextFire ≠ 0) (now : Nat) :
    (armTimer unit now).Steady :=
  ⟨.inr (steady.again.resolve_left set), steady.single⟩

end TimerUnit

namespace TimerRun

variable {run : TimerRun}

/-- A round keeps a steady timer steady. -/
theorem steady_step (steady : run.unit.Steady) (round : Round) :
    (run.step round).unit.Steady := by
  unfold step
  split
  · exact steady
  · rename_i due
    exact steady.armTimer (not_or.mp due).1 round.armed

/-- A round keeps up the progress of a steady timer exactly if it is prompt. -/
theorem progress_step_iff (steady : run.unit.Steady) (progress : run.Progress) (round : Round) :
    (run.step round).Progress ↔ run.Prompt round := by
  unfold step
  split
  · rename_i idle
    exact iff_of_true progress fun set due => absurd idle (by omega)
  rename_i due
  obtain ⟨set, late⟩ := not_or.mp due
  have forward := round.forward
  have again := steady.again.resolve_left set
  -- The hour of the last firing is the only part that the two readings can break.
  have ahead : round.armed < run.unit.nextAfter round.armed := by
    rcases Nat.eq_zero_or_pos run.unit.onUnitActiveSec with alone | active
    · obtain ⟨minute, configured⟩ := Option.isSome_iff_exists.mp (again.resolve_left (by omega))
      exact (TimerUnit.nextAfter_minute set _ alone configured).1
    · rw [TimerUnit.nextAfter_active set _ active]
      omega
  constructor
  · intro after _ _ minute configured passed low high same
    have hour := (after.hourly minute configured ⟨round, run.unit.nextFire⟩ rfl).1
    have alone := steady.single.resolve_right (by simp [Option.mem_def.mp configured])
    have next := TimerUnit.nextAfter_minute set round.armed alone configured
    have here : run.unit.nextAfter round.armed ≤ round.now + 3600 := hour
    omega
  · intro prompt
    refine ⟨List.pairwise_cons.mpr ⟨progress.ahead, progress.once⟩, fun firing member => ?_, ?_⟩
    · show firing.armed < run.unit.nextAfter round.armed
      rcases List.mem_cons.mp member with rfl | earlier
      · exact ahead
      · have before := progress.ahead firing earlier
        omega
    · rintro minute configured firing ⟨⟩
      have alone := steady.single.resolve_right fun unset => by
        have here : run.unit.onCalendarMinute = some minute := configured
        rw [unset] at here
        cases here
      have next := TimerUnit.nextAfter_minute set round.armed alone configured
      refine ⟨?_, next.2.2⟩
      show run.unit.nextAfter round.armed ≤ round.now + 3600
      refine Nat.not_lt.mp fun later => ?_
      exact prompt set (by omega) minute configured (run.unit.nextAfter round.armed - 3600)
        (by omega) (by omega) (by omega)

/-- Along a run a steady timer makes progress exactly if every round is prompt. -/
theorem progress_iff {rounds : List Round} (steady : run.unit.Steady) (progress : run.Progress) :
    EveryState step Progress run rounds ↔ EveryInput step Prompt run rounds := by
  refine everyState_iff_everyInput
    (fun (run : TimerRun) (holds : run.unit.Steady ∧ run.Progress) => holds.2) ?_ ?_
    ⟨steady, progress⟩
  · exact fun run round holds => progress_step_iff holds.1 holds.2 round
  · intro run round holds prompt
    exact ⟨steady_step holds.1 round, (progress_step_iff holds.1 holds.2 round).mpr prompt⟩

end TimerRun

/-- A timer that was just loaded and armed. -/
def loadedTimer (boot active : Nat) (minute : Option (Fin 60)) (clock : Nat) : TimerRun :=
  ⟨armTimer ⟨boot, active, minute, 0⟩ clock, []⟩

/-- The runs in which a timer makes progress are exactly those whose rounds are prompt, if the
timer has neither `OnBootSec=` alone nor both `OnUnitActiveSec=` and a minute of the calendar; and
only then. -/
theorem timers_progress_iff (boot active : Nat) (minute : Option (Fin 60)) :
    (∀ clock rounds,
      EveryState TimerRun.step TimerRun.Progress (loadedTimer boot active minute clock) rounds ↔
      EveryInput TimerRun.step TimerRun.Prompt (loadedTimer boot active minute clock) rounds) ↔
    (boot = 0 ∨ 0 < active ∨ minute.isSome) ∧ (active = 0 ∨ minute = none) := by
  constructor
  · intro every
    -- A round that reads the clock twice at the due time is prompt.
    have fires : ∀ clock, let due := (loadedTimer boot active minute clock).unit.nextFire
        ((loadedTimer boot active minute clock).step ⟨due, due, Nat.le_refl _⟩).Progress :=
      fun clock => ((every clock [⟨_, _, Nat.le_refl _⟩]).mpr
        ⟨fun _ _ _ _ passed low high => absurd low (Nat.not_lt.mpr high), trivial⟩).2
    constructor
    · have ahead := (fires 0).ahead
      cases minute with
      | some minute => simp
      | none =>
        rcases Nat.eq_zero_or_pos boot with unset | booted
        · exact .inl unset
        rcases Nat.eq_zero_or_pos active with rfl | again
        · simp [loadedTimer, TimerRun.step, armTimer, TimerUnit.nextAfter, booted,
            Nat.ne_of_gt booted] at ahead
        · exact .inr (.inl again)
    · cases minute with
      | none => simp
      | some minute =>
        rcases Nat.eq_zero_or_pos active with unset | again
        · exact .inl unset
        -- At two times in succession the timer cannot be set to the same minute.
        have set : ∀ clock, ((loadedTimer boot active (some minute) clock).unit.nextFire =
            clock + if 0 < boot then boot else active) := by
          intro clock
          simp only [loadedTimer, armTimer, TimerUnit.nextAfter, and_true, if_pos again]
          split <;> rfl
        have minutes : ∀ clock,
            (clock + (if 0 < boot then boot else active) + active) % 3600 = 60 * minute := by
          intro clock
          have positive : (loadedTimer boot active (some minute) clock).unit.nextFire ≠ 0 := by
            rw [set clock]
            split <;> omega
          have progress := fires clock
          dsimp only at progress
          unfold TimerRun.step at progress
          rw [if_neg (not_or.mpr ⟨positive, Nat.lt_irrefl _⟩)] at progress
          rw [← set clock, ← (progress.hourly minute rfl _ rfl).2]
          exact congrArg (· % 3600) (TimerUnit.nextAfter_active positive _ again).symm
        have early := minutes 0
        have late := minutes 1
        omega
  · rintro ⟨again, single⟩ clock rounds
    refine TimerRun.progress_iff ⟨?_, single⟩ ⟨.nil, by simp [loadedTimer], by simp [loadedTimer]⟩
    cases minute <;> grind [loadedTimer, armTimer, TimerUnit.nextAfter]

/-- Due at five, the timer fires at five and again at six. -/
theorem boot_timer_fires_again : ¬ EveryState TimerRun.step TimerRun.Progress
    (loadedTimer 5 0 none 0) [⟨5, 5, by decide⟩, ⟨6, 6, by decide⟩] :=
  fun every => absurd every.last.once (by decide)

end Spore.Init
