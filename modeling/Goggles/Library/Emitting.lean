/-
Module: Goggles.Library.Emitting
Purpose: Generators that emit items one after the other and may raise in between, characterised by the
  list of their attempts: what is emitted is what comes before the first attempt that raises.
Trusted boundary: none
Main exports: emittedOf, raisedBy, yieldItem, Emits, Emits.bind, Emits.handled
-/
import Goggles.Library.Raising
import Mathlib.Data.List.Basic

namespace Goggles

universe u

variable {ε α β γ : Type u}

/-! ### Attempts -/

/-- What is emitted before an attempt raises. -/
def emittedOf : List (Except ε β) → List β
  | .ok item :: rest => item :: emittedOf rest
  | _ => []

/-- The first exception. -/
def raisedBy : List (Except ε β) → Option ε
  | [] => none
  | .ok _ :: rest => raisedBy rest
  | .error exception :: _ => some exception

/-- Nothing raises exactly when there is an item for every attempt. -/
theorem raisedBy_eq_none_iff {attempts : List (Except ε β)} :
    raisedBy attempts = none ↔ (emittedOf attempts).length = attempts.length := by
  induction attempts with
  | nil => simp [raisedBy, emittedOf]
  | cons attempt rest inductionHypothesis =>
      cases attempt with
      | ok item => simpa [raisedBy, emittedOf] using inductionHypothesis
      | error exception => simp [raisedBy, emittedOf]

theorem raisedBy_map_ok (items : List β) : raisedBy (items.map .ok : List (Except ε β)) = none := by
  induction items with
  | nil => rfl
  | cons item rest inductionHypothesis => exact inductionHypothesis

theorem emittedOf_map_ok (items : List β) :
    emittedOf (items.map .ok : List (Except ε β)) = items := by
  induction items with
  | nil => rfl
  | cons item rest inductionHypothesis => exact congrArg (item :: ·) inductionHypothesis

theorem raisedBy_append (first second : List (Except ε β)) :
    raisedBy (first ++ second) = (raisedBy first).or (raisedBy second) := by
  induction first with
  | nil => rfl
  | cons attempt rest inductionHypothesis =>
      cases attempt with
      | ok item => exact inductionHypothesis
      | error exception => rfl

theorem emittedOf_append (first second : List (Except ε β)) :
    emittedOf (first ++ second) =
      emittedOf first ++ if (raisedBy first).isNone then emittedOf second else [] := by
  induction first with
  | nil => rfl
  | cons attempt rest inductionHypothesis =>
      cases attempt with
      | ok item => exact congrArg (item :: ·) inductionHypothesis
      | error exception => rfl

/-! ### Generators -/

/-- `yield item`, where producing the item may raise. -/
def yieldItem : Except ε β → EStateM ε (List β) PUnit
  | .ok item => modify (· ++ [item])
  | .error exception => throw exception

/-- A generator that makes these attempts, and returns the value unless one of them raises. -/
def Emits (program : EStateM ε (List β) α) (attempts : List (Except ε β)) (value : α) : Prop :=
  ∀ earlier, program earlier =
    match raisedBy attempts with
    | none => .ok value (earlier ++ emittedOf attempts)
    | some exception => .error exception (earlier ++ emittedOf attempts)

namespace Emits

theorem pure (value : α) : Emits (Pure.pure value : EStateM ε (List β) α) [] value := fun earlier =>
  congrArg (EStateM.Result.ok value) (List.append_nil earlier).symm

theorem throw (exception : ε) (value : α) :
    Emits (throw exception : EStateM ε (List β) α) [.error exception] value := fun earlier =>
  congrArg (EStateM.Result.error exception) (List.append_nil earlier).symm

theorem yieldItem (attempt : Except ε β) : Emits (yieldItem attempt) [attempt] ⟨⟩ := by
  cases attempt with
  | ok item => exact fun _ => rfl
  | error exception => exact throw exception ⟨⟩

/-- One generator after another. -/
theorem bind {program : EStateM ε (List β) α} {rest : α → EStateM ε (List β) γ}
    {first second : List (Except ε β)} {value : α} {result : γ} (head : Emits program first value)
    (tail : Emits (rest value) second result) :
    Emits (program >>= rest) (first ++ second) result := by
  intro earlier
  change EStateM.bind program rest earlier = _
  rw [EStateM.bind, head earlier, raisedBy_append, emittedOf_append]
  cases raisedBy first with
  | none =>
      rw [Option.none_or, Option.isNone_none, if_pos rfl, ← List.append_assoc]
      exact tail _
  | some exception =>
      rw [Option.some_or, Option.isNone_some, if_neg Bool.false_ne_true, List.append_nil]

/-- A generator under a handler that emits one last item: what was emitted before the exception, and
then that item. -/
theorem handled {program : EStateM ε (List β) PUnit} {attempts : List (Except ε β)} {last : β}
    (body : Emits program attempts ⟨⟩) :
    Emits (handle program fun _ => Goggles.yieldItem (.ok last))
      ((emittedOf attempts ++ if (raisedBy attempts).isNone then [] else [last]).map .ok) ⟨⟩ := by
  intro earlier
  rw [raisedBy_map_ok, emittedOf_map_ok, handle, body earlier]
  cases raisedBy attempts with
  | none =>
      rw [Option.isNone_none, if_pos rfl, List.append_nil]
  | some exception =>
      rw [Option.isNone_some, if_neg Bool.false_ne_true, ← List.append_assoc]
      rfl

end Emits

end Goggles
