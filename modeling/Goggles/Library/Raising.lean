/-
Module: Goggles.Library.Raising
Purpose: Programs that change a state and may raise, with handlers and final blocks, and their rules
  of pre- and postconditions.
Trusted boundary: none
Main exports: handle, cleanup, Triple, Triple.bind, Triple.handle, Triple.cleanup, Triple.weaken
-/
import Mathlib.Logic.Basic

namespace Goggles

universe u

variable {ε σ α β : Type u}

/-- `try: program` with `except: handler`, which sees every exception. -/
def handle (program : EStateM ε σ α) (handler : ε → EStateM ε σ α) : EStateM ε σ α := fun state =>
  match program state with
  | .ok value next => .ok value next
  | .error exception next => handler exception next

/-- `try: program` with `finally: last`, which sees the pending exception.  What `last` raises
replaces it. -/
def cleanup (program : EStateM ε σ α) (last : Option ε → EStateM ε σ PUnit) : EStateM ε σ α :=
  fun state =>
    match program state with
    | .ok value next =>
        match last none next with
        | .ok _ final => .ok value final
        | .error raised final => .error raised final
    | .error exception next =>
        match last (some exception) next with
        | .ok _ final => .error exception final
        | .error raised final => .error raised final

/-- From a state with `before`, a program returns a value with `after` or raises an exception with
`raised`. -/
def Triple (before : σ → Prop) (program : EStateM ε σ α) (after : α → σ → Prop)
    (raised : ε → σ → Prop) : Prop :=
  ∀ state, before state →
    match program state with
    | .ok value next => after value next
    | .error exception next => raised exception next

namespace Triple

variable {before : σ → Prop} {after : α → σ → Prop} {raised : ε → σ → Prop}

theorem pure (value : α) (holds : ∀ state, before state → after value state) :
    Triple before (pure value : EStateM ε σ α) after raised := holds

theorem throw (exception : ε) (holds : ∀ state, before state → raised exception state) :
    Triple before (throw exception : EStateM ε σ α) after raised := holds

theorem modify (changed : σ → Prop) (change : σ → σ)
    (holds : ∀ state, before state → changed (change state)) :
    Triple before (modify change : EStateM ε σ PUnit) (fun _ => changed) raised := holds

/-- The state is read. -/
theorem get_bind {rest : σ → EStateM ε σ α}
    (holds : ∀ found, Triple (fun state => before state ∧ state = found) (rest found) after raised) :
    Triple before (get >>= rest) after raised := fun state held => holds state state ⟨held, rfl⟩

theorem weaken {program : EStateM ε σ α} {stronger : σ → Prop} {first : α → σ → Prop}
    {caught : ε → σ → Prop} (triple : Triple stronger program first caught)
    (entry : ∀ state, before state → stronger state)
    (exit : ∀ value state, first value state → after value state)
    (raising : ∀ exception state, caught exception state → raised exception state) :
    Triple before program after raised := by
  intro state holds
  have result := triple state (entry state holds)
  cases ran : program state with
  | ok value next =>
      rw [ran] at result
      exact exit value next result
  | error exception next =>
      rw [ran] at result
      exact raising exception next result

/-- The precondition is met by one of several. -/
theorem of_exists {ι : Sort*} {program : EStateM ε σ α} {entry : ι → σ → Prop}
    (each : ∀ index, Triple (entry index) program after raised) :
    Triple (fun state => ∃ index, entry index state) program after raised := by
  rintro state ⟨index, holds⟩
  exact each index state holds

theorem bind {program : EStateM ε σ α} {rest : α → EStateM ε σ β} {result : β → σ → Prop}
    (first : Triple before program after raised)
    (second : ∀ value, Triple (after value) (rest value) result raised) :
    Triple before (program >>= rest) result raised := by
  intro state holds
  have ran := first state holds
  change match EStateM.bind program rest state with
    | .ok value next => result value next
    | .error exception next => raised exception next
  unfold EStateM.bind
  cases done : program state with
  | ok value next =>
      rw [done] at ran
      exact second value next ran
  | error exception next =>
      rw [done] at ran
      exact ran

theorem handle {program : EStateM ε σ α} {handler : ε → EStateM ε σ α} {caught : ε → σ → Prop}
    (body : Triple before program after caught)
    (handled : ∀ exception, Triple (caught exception) (handler exception) after raised) :
    Triple before (Goggles.handle program handler) after raised := by
  intro state holds
  have ran := body state holds
  unfold Goggles.handle
  cases done : program state with
  | ok value next =>
      rw [done] at ran
      exact ran
  | error exception next =>
      rw [done] at ran
      exact handled exception next ran

/-- The final block ends in the postcondition, or in that of the pending exception, or raises. -/
theorem cleanup {program : EStateM ε σ α} {last : Option ε → EStateM ε σ PUnit}
    {returned : α → σ → Prop} {caught : ε → σ → Prop}
    (body : Triple before program returned caught)
    (normal : ∀ value, Triple (returned value) (last none) (fun _ => after value) raised)
    (pending : ∀ exception,
      Triple (caught exception) (last (some exception)) (fun _ => raised exception) raised) :
    Triple before (Goggles.cleanup program last) after raised := by
  intro state holds
  have ran := body state holds
  unfold Goggles.cleanup
  cases done : program state with
  | ok value next =>
      rw [done] at ran
      have ended := normal value next ran
      cases finished : last none next with
      | ok ignored final =>
          rw [finished] at ended
          simpa [finished] using ended
      | error exception final =>
          rw [finished] at ended
          simpa [finished] using ended
  | error exception next =>
      rw [done] at ran
      have ended := pending exception next ran
      cases finished : last (some exception) next with
      | ok ignored final =>
          rw [finished] at ended
          simpa [finished] using ended
      | error replaced final =>
          rw [finished] at ended
          simpa [finished] using ended

end Triple

end Goggles
