/-
Module: Goggles.Library.Runs
Purpose: Runs of a deterministic system: invariants of every state reached, and properties that hold
  all along a run exactly when every step meets a condition.
Trusted boundary: none
Main exports: run, run_invariant, AlongRun, EveryStep, alongRun_iff, everyStep_iff,
  alongRun_of_everyStep
-/
import Mathlib.Data.List.Basic

namespace Goggles

variable {σ ι : Type*} (step : σ → ι → σ)

/-- The state after the inputs, one after the other. -/
def run (state : σ) (inputs : List ι) : σ := inputs.foldl step state

/-- A property holds in every state of a run, the first one included. -/
def AlongRun (holds : σ → Prop) : σ → List ι → Prop
  | state, [] => holds state
  | state, input :: rest => holds state ∧ AlongRun holds (step state input) rest

/-- A condition holds of every step of a run, in the state the step starts from. -/
def EveryStep (condition : σ → ι → Prop) : σ → List ι → Prop
  | _, [] => True
  | state, input :: rest => condition state input ∧ EveryStep condition (step state input) rest

variable {step}

@[simp] theorem run_nil (state : σ) : run step state [] = state := rfl

@[simp] theorem run_cons (state : σ) (input : ι) (rest : List ι) :
    run step state (input :: rest) = run step (step state input) rest := rfl

theorem run_append (state : σ) (first second : List ι) :
    run step state (first ++ second) = run step (run step state first) second :=
  List.foldl_append

/-- What every step preserves holds after every run. -/
theorem run_invariant {holds : σ → Prop}
    (preserved : ∀ state input, holds state → holds (step state input)) {state : σ}
    (initial : holds state) (inputs : List ι) : holds (run step state inputs) := by
  induction inputs generalizing state with
  | nil => exact initial
  | cons input rest inductionHypothesis => exact inductionHypothesis (preserved state input initial)

/-- What every allowed step preserves holds after a run of allowed inputs. -/
theorem run_invariant_of {holds : σ → Prop} {allowed : ι → Prop}
    (preserved : ∀ state input, allowed input → holds state → holds (step state input)) {state : σ}
    (initial : holds state) {inputs : List ι} (within : ∀ input ∈ inputs, allowed input) :
    holds (run step state inputs) := by
  induction inputs generalizing state with
  | nil => exact initial
  | cons input rest inductionHypothesis =>
      exact inductionHypothesis (preserved state input (within input List.mem_cons_self) initial)
        fun other member => within other (List.mem_cons_of_mem input member)

theorem AlongRun.first {holds : σ → Prop} {state : σ} {inputs : List ι}
    (along : AlongRun step holds state inputs) : holds state := by
  cases inputs with
  | nil => exact along
  | cons input rest => exact along.1

theorem AlongRun.last {holds : σ → Prop} {state : σ} {inputs : List ι}
    (along : AlongRun step holds state inputs) : holds (run step state inputs) := by
  induction inputs generalizing state with
  | nil => exact along
  | cons input rest inductionHypothesis => exact inductionHypothesis along.2

/-- A property holds along a run exactly when it holds after every prefix of the inputs. -/
theorem alongRun_prefix_iff {holds : σ → Prop} {state : σ} {inputs : List ι} :
    AlongRun step holds state inputs ↔
      ∀ first, first <+: inputs → holds (run step state first) := by
  induction inputs generalizing state with
  | nil => simp [AlongRun]
  | cons input rest inductionHypothesis =>
      rw [AlongRun, inductionHypothesis]
      constructor
      · rintro ⟨now, later⟩ first isPrefix
        cases first with
        | nil => exact now
        | cons head others =>
            obtain ⟨same, tail⟩ := List.cons_prefix_cons.mp isPrefix
            exact same ▸ later others tail
      · intro all
        exact ⟨all [] List.nil_prefix, fun first isPrefix =>
          all (input :: first) (List.cons_prefix_cons.mpr ⟨rfl, isPrefix⟩)⟩

/-- If each step from a good state ends in a good state exactly when it meets the condition, the
states of a run are all good exactly when all its steps meet the condition. -/
theorem alongRun_iff {invariant good : σ → Prop} {condition : σ → ι → Prop}
    (preserved : ∀ state input, invariant state → invariant (step state input))
    (exact_ : ∀ state input, invariant state → good state →
      (good (step state input) ↔ condition state input))
    {state : σ} (initial : invariant state) (start : good state) (inputs : List ι) :
    AlongRun step good state inputs ↔ EveryStep step condition state inputs := by
  induction inputs generalizing state with
  | nil => simp [AlongRun, EveryStep, start]
  | cons input rest inductionHypothesis =>
      rw [AlongRun, EveryStep]
      constructor
      · rintro ⟨-, later⟩
        exact ⟨(exact_ state input initial start).mp later.first,
          (inductionHypothesis (preserved state input initial) later.first).mp later⟩
      · rintro ⟨met, later⟩
        have next := (exact_ state input initial start).mpr met
        exact ⟨start, (inductionHypothesis (preserved state input initial) next).mpr later⟩

/-- If a step that meets the condition keeps the invariant, so does a run of such steps. -/
theorem alongRun_of_everyStep {holds : σ → Prop} {condition : σ → ι → Prop}
    (preserved : ∀ state input, holds state → condition state input → holds (step state input))
    {state : σ} (initial : holds state) {inputs : List ι}
    (met : EveryStep step condition state inputs) : AlongRun step holds state inputs := by
  induction inputs generalizing state with
  | nil => exact initial
  | cons input rest inductionHypothesis =>
      exact ⟨initial, inductionHypothesis (preserved state input initial met.1) met.2⟩

end Goggles
