import Mathlib.Init

/-!
# Runs of a deterministic machine

A machine takes inputs one at a time. `EveryState` says that a predicate holds in every state
of a run, the first included, and `EveryInput` that every input is acceptable in the state
that receives it. The rules below turn a fact about one step into one about the whole run.
-/

namespace Spore.Lib

variable {State Input : Type _} {next : State → Input → State} {inv good : State → Prop}
  {fine : State → Input → Prop} {inputs : List Input}

/-- The predicate holds in every state of the run. -/
def EveryState (next : State → Input → State) (good : State → Prop) :
    State → List Input → Prop
  | state, [] => good state
  | state, input :: rest => good state ∧ EveryState next good (next state input) rest

/-- Every input is acceptable in the state that receives it. -/
def EveryInput (next : State → Input → State) (fine : State → Input → Prop) :
    State → List Input → Prop
  | _, [] => True
  | state, input :: rest => fine state input ∧ EveryInput next fine (next state input) rest

instance everyInputDecidable (next : State → Input → State) (fine : State → Input → Prop)
    [∀ state input, Decidable (fine state input)] : ∀ (state : State) (inputs : List Input),
    Decidable (EveryInput next fine state inputs)
  | _, [] => .isTrue trivial
  | state, input :: rest =>
    have := everyInputDecidable next fine (next state input) rest
    inferInstanceAs (Decidable (fine state input ∧ EveryInput next fine (next state input) rest))

/-- The first state of a run is one of its states. -/
theorem EveryState.start {state : State}
    (every : EveryState next good state inputs) : good state := by
  cases inputs with
  | nil => exact every
  | cons input rest => exact every.1

/-- A weaker predicate holds wherever a stronger one does. -/
theorem EveryState.mono (weaker : ∀ state, inv state → good state) :
    ∀ {state : State}, EveryState next inv state inputs → EveryState next good state inputs := by
  induction inputs with
  | nil => intro state every; exact weaker state every
  | cons input rest rest_holds =>
    intro state every
    exact ⟨weaker state every.1, rest_holds every.2⟩

/-- The last state of a run is one of its states. -/
theorem EveryState.last :
    ∀ {state : State}, EveryState next good state inputs → good (inputs.foldl next state) := by
  induction inputs with
  | nil => intro state every; exact every
  | cons input rest rest_holds => intro state every; exact rest_holds every.2

/-- A run of two parts. -/
theorem everyInput_append (first second : List Input) : ∀ {state : State},
    EveryInput next fine state (first ++ second) ↔
      EveryInput next fine state first ∧ EveryInput next fine (first.foldl next state) second := by
  induction first with
  | nil => exact fun {state} => ⟨fun every => ⟨trivial, every⟩, fun both => both.2⟩
  | cons input rest ih =>
    intro state
    exact (and_congr_right fun _ => ih).trans and_assoc.symm

/-- A weaker condition accepts whatever a stronger one does. -/
theorem EveryInput.mono {loose : State → Input → Prop}
    (weaker : ∀ state input, fine state input → loose state input) :
    ∀ {state : State}, EveryInput next fine state inputs → EveryInput next loose state inputs := by
  induction inputs with
  | nil => exact fun _ => trivial
  | cons input rest rest_holds =>
    exact fun every => ⟨weaker _ _ every.1, rest_holds every.2⟩

/-- An invariant that every acceptable input keeps holds along every run of acceptable
inputs. -/
theorem everyState_of_everyInput
    (kept : ∀ state input, inv state → fine state input → inv (next state input)) :
    ∀ {state : State}, inv state → EveryInput next fine state inputs →
      EveryState next inv state inputs := by
  induction inputs with
  | nil => intro state holds _; exact holds
  | cons input rest rest_holds =>
    intro state holds every
    exact ⟨holds, rest_holds (kept state input holds every.1) every.2⟩

/-- What an invariant says about one acceptable input holds of every input of a run of
acceptable inputs. -/
theorem everyInput_of_everyInput {answered : State → Input → Prop}
    (kept : ∀ state input, inv state → fine state input → inv (next state input))
    (answers : ∀ state input, inv state → fine state input → answered state input) :
    ∀ {state : State}, inv state → EveryInput next fine state inputs →
      EveryInput next answered state inputs := by
  induction inputs with
  | nil => intro state _ _; exact trivial
  | cons input rest rest_holds =>
    intro state holds every
    exact ⟨answers state input holds every.1, rest_holds (kept state input holds every.1) every.2⟩

/-- An invariant that every input keeps holds along every run. -/
theorem everyState_of_kept (kept : ∀ state input, inv state → inv (next state input)) :
    ∀ {state : State}, inv state → EveryState next inv state inputs := by
  induction inputs with
  | nil => exact fun holds => holds
  | cons input rest rest_holds =>
    exact fun {state} holds => ⟨holds, rest_holds (kept state input holds)⟩

/-- When an input of an invariant state leads to a good state exactly if it is acceptable, and then
keeps the invariant, the runs through good states are exactly those of acceptable inputs. -/
theorem everyState_iff_everyInput (sound : ∀ state, inv state → good state)
    (exact_step : ∀ state input, inv state → (good (next state input) ↔ fine state input))
    (kept : ∀ state input, inv state → fine state input → inv (next state input)) :
    ∀ {state : State}, inv state →
      (EveryState next good state inputs ↔ EveryInput next fine state inputs) := by
  induction inputs with
  | nil => intro state holds; exact ⟨fun _ => trivial, fun _ => sound state holds⟩
  | cons input rest rest_holds =>
    intro state holds
    constructor
    · intro every
      have accepted := (exact_step state input holds).mp every.2.start
      exact ⟨accepted, (rest_holds (kept state input holds accepted)).mp every.2⟩
    · intro every
      have after := rest_holds (kept state input holds every.1)
      exact ⟨sound state holds, after.mpr every.2⟩

/-- The states of a run are those that its prefixes lead to. -/
theorem everyState_iff_prefixes : ∀ {state : State}, EveryState next good state inputs ↔
    ∀ part, part <+: inputs → good (part.foldl next state) := by
  induction inputs with
  | nil =>
    intro state
    constructor
    · rintro holds part ⟨_, split⟩
      obtain rfl := (List.append_eq_nil_iff.mp split).1
      exact holds
    · exact fun every => every [] (List.prefix_refl [])
  | cons input rest ih =>
    intro state
    constructor
    · rintro ⟨here, later⟩ part shorter
      cases part with
      | nil => exact here
      | cons first part =>
        obtain ⟨rfl, inside⟩ := List.cons_prefix_cons.mp shorter
        exact ih.mp later part inside
    · intro every
      refine ⟨every [] List.nil_prefix, ih.mpr fun part shorter => ?_⟩
      exact every (input :: part) (List.cons_prefix_cons.mpr ⟨rfl, shorter⟩)

end Spore.Lib
