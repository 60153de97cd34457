/-
Module: Goggles.Python.TracedJson
Purpose: The decoder of `json.loads` for any hooks, with the depth of arrays and objects it reaches
  before it succeeds or fails; with the hooks of the upload and without the depth it is the decoder of
  the upload.
Trusted boundary: the `json` module of Python's standard library, which goes one call deeper for each
  array or object it enters
Main exports: DecoderHooks, Decoding, traceValue, traceLoads, auditHooks, traceLoads_auditHooks
-/
import Goggles.Python.Json

namespace Goggles

/-! ### Hooks -/

/-- A character that is no quote and no bracket. -/
def isFlat (char : Nat) : Bool := [0x22, 0x5b, 0x5d, 0x7b, 0x7d].all (char != ·)

/-- What is left of a text after some of its characters, all of them flat. -/
def FlatBefore (text rest : Str) : Prop :=
  ∃ consumed, text = consumed ++ rest ∧ ∀ char ∈ consumed, isFlat char = true

namespace FlatBefore

theorem refl (text : Str) : FlatBefore text text := ⟨[], rfl, nofun⟩

theorem cons {char : Nat} {text rest : Str} (flat : isFlat char = true)
    (before : FlatBefore text rest) : FlatBefore (char :: text) rest := by
  obtain ⟨consumed, same, flats⟩ := before
  refine ⟨char :: consumed, by rw [same, List.cons_append], ?_⟩
  exact List.forall_mem_cons.mpr ⟨flat, flats⟩

theorem trans {text middle rest : Str} (first : FlatBefore text middle)
    (second : FlatBefore middle rest) : FlatBefore text rest := by
  obtain ⟨consumed, rfl, flats⟩ := first
  obtain ⟨more, rfl, others⟩ := second
  refine ⟨consumed ++ more, (List.append_assoc _ _ _).symm, ?_⟩
  exact List.forall_mem_append.mpr ⟨flats, others⟩

/-- Skipped characters of a flat class. -/
theorem dropWhile {skips : Nat → Bool} (flat : ∀ char, skips char = true → isFlat char = true)
    (text : Str) : FlatBefore text (text.dropWhile skips) := by
  refine ⟨text.takeWhile skips, List.takeWhile_append_dropWhile.symm, fun char member => ?_⟩
  exact flat char (List.all_eq_true.mp List.all_takeWhile char member)

end FlatBefore

/-- What a caller of `json.loads` chooses: how numbers and constants are read, and what is made of the
members of an object. -/
structure DecoderHooks where
  number : Str → Option (Json × Str)
  object : List (Str × Json) → Option Json
  /-- A number or a constant is read off the front of the text. -/
  flat : ∀ text value rest, number text = some (value, rest) → FlatBefore text rest

/-! ### The decoder -/

/-- What a call of the decoder comes to. -/
structure Decoding (α : Type) where
  depth : Nat
  result : Option (α × Str)

namespace Decoding

variable {α β : Type}

/-- A call that enters no array and no object. -/
def shallow (result : Option (α × Str)) : Decoding α := ⟨0, result⟩

/-- A call made inside an array or an object, whose value is then closed. -/
def inside (decoding : Decoding α) (close : α → Option β) : Decoding β where
  depth := decoding.depth + 1
  result := decoding.result.bind fun scanned => (close scanned.1).map (·, scanned.2)

/-- A call that follows another. -/
def after (decoding : Decoding α) (earlier : Nat) (change : α → β) : Decoding β where
  depth := max earlier decoding.depth
  result := decoding.result.map fun scanned => (change scanned.1, scanned.2)

@[simp] theorem inside_depth (decoding : Decoding α) (close : α → Option β) :
    (decoding.inside close).depth = decoding.depth + 1 := rfl

@[simp] theorem after_depth (decoding : Decoding α) (earlier : Nat) (change : α → β) :
    (decoding.after earlier change).depth = max earlier decoding.depth := rfl

end Decoding

section Trace

variable (hooks : DecoderHooks)

mutual

/-- One JSON value at the head of the text. -/
def traceValue : Nat → Str → Decoding Json
  | 0, _ => .shallow none
  | fuel + 1, text =>
      match text with
      | [] => .shallow none
      | char :: rest =>
          if char = 0x22 then
            .shallow ((scanString rest).map fun scanned => (.str (joinSurrogates scanned.1), scanned.2))
          else if char = 0x7b then
            match skipSpace rest with
            | [] => ⟨1, none⟩
            | next :: afterNext =>
                if next = 0x7d then ⟨1, (hooks.object []).map (·, afterNext)⟩
                else (traceMembers fuel (next :: afterNext)).inside hooks.object
          else if char = 0x5b then
            match skipSpace rest with
            | [] => ⟨1, none⟩
            | next :: afterNext =>
                if next = 0x5d then ⟨1, some (.list [], afterNext)⟩
                else (traceItems fuel (next :: afterNext)).inside fun items => some (.list items)
          else if char = 0x6e then .shallow (scanWord "null" .null text)
          else if char = 0x74 then .shallow (scanWord "true" (.bool true) text)
          else if char = 0x66 then .shallow (scanWord "false" (.bool false) text)
          else .shallow (hooks.number text)

/-- The items of a non-empty array, through its closing bracket. -/
def traceItems : Nat → Str → Decoding (List Json)
  | 0, _ => .shallow none
  | fuel + 1, text =>
      match traceValue fuel text with
      | ⟨depth, none⟩ => ⟨depth, none⟩
      | ⟨depth, some (item, afterItem)⟩ =>
          match skipSpace afterItem with
          | [] => ⟨depth, none⟩
          | char :: rest =>
              if char = 0x5d then ⟨depth, some ([item], rest)⟩
              else if char = 0x2c then (traceItems fuel (skipSpace rest)).after depth (item :: ·)
              else ⟨depth, none⟩

/-- The members of a non-empty object, through its closing brace. -/
def traceMembers : Nat → Str → Decoding (List (Str × Json))
  | 0, _ => .shallow none
  | fuel + 1, text =>
      match text with
      | [] => .shallow none
      | char :: rest =>
          if char ≠ 0x22 then .shallow none
          else
            match scanString rest with
            | none => .shallow none
            | some (key, afterKey) =>
                match skipSpace afterKey with
                | [] => .shallow none
                | colon :: afterColon =>
                    if colon ≠ 0x3a then .shallow none
                    else
                      match traceValue fuel (skipSpace afterColon) with
                      | ⟨depth, none⟩ => ⟨depth, none⟩
                      | ⟨depth, some (value, afterValue)⟩ =>
                          let member := (joinSurrogates key, value)
                          match skipSpace afterValue with
                          | [] => ⟨depth, none⟩
                          | next :: afterNext =>
                              if next = 0x7d then ⟨depth, some ([member], afterNext)⟩
                              else if next = 0x2c then
                                (traceMembers fuel (skipSpace afterNext)).after depth (member :: ·)
                              else ⟨depth, none⟩

end

/-- `json.loads(raw, ...)`: the value, if the text is one, and the depth reached. -/
def traceLoads (fuel : Nat) (raw : Str) : Nat × Option Json :=
  let decoding := traceValue hooks fuel (skipSpace raw)
  (decoding.depth, decoding.result.bind fun scanned =>
    if skipSpace scanned.2 = [] then some scanned.1 else none)

end Trace

/-! ### The hooks of the upload -/

theorem isFlat_of_isDigit {char : Nat} (digit : isDigit char = true) : isFlat char = true := by
  simp [isDigit] at digit
  simp [isFlat]
  omega

theorem flatBefore_scanWhole (text : Str) : FlatBefore text (scanWhole text).2 := by
  cases text with
  | nil => exact .refl []
  | cons char rest =>
      unfold scanWhole
      split
      · next zero =>
          cases Option.some.inj zero
          exact .cons rfl (.refl rest)
      · exact .dropWhile (fun _ => isFlat_of_isDigit) _

theorem flatBefore_scanFraction (text : Str) : FlatBefore text (scanFraction text).2 := by
  cases text with
  | nil => exact .refl []
  | cons char rest =>
      rw [scanFraction]
      split
      · next point =>
          rw [point.1]
          exact .cons rfl (.dropWhile (fun _ => isFlat_of_isDigit) rest)
      · exact .refl _

theorem flatBefore_scanExponent (text : Str) : FlatBefore text (scanExponent text).2 := by
  cases text with
  | nil => exact .refl []
  | cons char rest =>
      rw [scanExponent]
      split
      · next mark =>
          have marked : isFlat char = true := by
            obtain rfl | rfl := mark <;> rfl
          have unsigned : FlatBefore rest (if rest.head? = some 0x2b ∨ rest.head? = some 0x2d then
              rest.tail else rest) := by
            split
            · next sign =>
                cases rest with
                | nil => exact .refl []
                | cons first others =>
                    have signed : isFlat first = true := by
                      obtain plus | minus := sign
                      · cases Option.some.inj plus
                        rfl
                      · cases Option.some.inj minus
                        rfl
                    exact .cons signed (.refl others)
            · exact .refl rest
          dsimp only
          generalize (if rest.head? = some 0x2b ∨ rest.head? = some 0x2d then rest.tail
            else rest) = digits at unsigned ⊢
          split
          · exact .refl _
          · exact .cons marked (unsigned.trans (.dropWhile (fun _ => isFlat_of_isDigit) _))
      · exact .refl _

theorem flatBefore_scanNumber {text rest : Str} {value : Json}
    (scanned : scanNumber text = some (value, rest)) : FlatBefore text rest := by
  unfold scanNumber at scanned
  dsimp only at scanned
  have unsigned : FlatBefore text (if text.head? = some 0x2d then text.tail else text) := by
    split
    · next minus =>
        cases text with
        | nil => exact .refl []
        | cons char rest =>
            cases Option.some.inj minus
            exact .cons rfl (.refl rest)
    · exact .refl text
  generalize (if text.head? = some 0x2d then text.tail else text) = magnitude at unsigned scanned
  have left : FlatBefore text (scanExponent (scanFraction (scanWhole magnitude).2).2).2 :=
    unsigned.trans ((flatBefore_scanWhole _).trans
      ((flatBefore_scanFraction _).trans (flatBefore_scanExponent _)))
  split at scanned
  · cases scanned
  split at scanned
  · split at scanned
    · cases scanned
    · cases scanned
      exact left
  · cases scanned
    exact left

/-- `reject_constant` and `unique_object` of `loads_audit_json`. -/
def auditHooks : DecoderHooks where
  number := scanNumber
  object fields := if (fields.map Prod.fst).Nodup then some (.dict fields) else none
  flat _ _ _ := flatBefore_scanNumber

/-- Without the depths, the decoder is that of the upload. -/
structure Erases (fuel : Nat) : Prop where
  value : ∀ text, (traceValue auditHooks fuel text).result = scanValue fuel text
  items : ∀ text, (traceItems auditHooks fuel text).result = scanItems fuel text
  members : ∀ text, (traceMembers auditHooks fuel text).result = scanMembers fuel text

namespace Erases

variable {fuel : Nat}

theorem value_next (erases : Erases fuel) (text : Str) :
    (traceValue auditHooks (fuel + 1) text).result = scanValue (fuel + 1) text := by
  cases text with
  | nil => rw [traceValue.eq_def, scanValue.eq_def]; rfl
  | cons char rest =>
      rw [traceValue.eq_def, scanValue.eq_def]
      dsimp only
      by_cases quote : char = 0x22
      · rw [if_pos quote, if_pos quote]
        rfl
      rw [if_neg quote, if_neg quote]
      by_cases brace : char = 0x7b
      · rw [if_pos brace, if_pos brace]
        cases skipSpace rest with
        | nil => rfl
        | cons next afterNext =>
            dsimp only
            split
            · rfl
            · rw [Decoding.inside, erases.members]
              cases scanMembers fuel (next :: afterNext) with
              | none => rfl
              | some scanned =>
                  simp only [Option.bind_some, auditHooks]
                  split <;> rfl
      rw [if_neg brace, if_neg brace]
      by_cases bracket : char = 0x5b
      · rw [if_pos bracket, if_pos bracket]
        cases skipSpace rest with
        | nil => rfl
        | cons next afterNext =>
            dsimp only
            split
            · rfl
            · rw [Decoding.inside, erases.items]
              cases scanItems fuel (next :: afterNext) with
              | none => rfl
              | some scanned => rfl
      rw [if_neg bracket, if_neg bracket]
      split_ifs <;> rfl

theorem items_next (erases : Erases fuel) (text : Str) :
    (traceItems auditHooks (fuel + 1) text).result = scanItems (fuel + 1) text := by
  rw [traceItems.eq_def, scanItems.eq_def]
  dsimp only
  rw [← erases.value text]
  obtain ⟨depth, result⟩ := traceValue auditHooks fuel text
  cases result with
  | none => rfl
  | some scanned =>
      dsimp only
      cases skipSpace scanned.2 with
      | nil => rfl
      | cons char rest =>
          dsimp only
          split
          · rfl
          split
          · rw [Decoding.after, erases.items]
          · rfl

theorem members_next (erases : Erases fuel) (text : Str) :
    (traceMembers auditHooks (fuel + 1) text).result = scanMembers (fuel + 1) text := by
  rw [traceMembers.eq_def, scanMembers.eq_def]
  dsimp only
  cases text with
  | nil => rfl
  | cons char rest =>
      dsimp only
      split
      · rfl
      cases scanString rest with
      | none => rfl
      | some key =>
          dsimp only
          cases skipSpace key.2 with
          | nil => rfl
          | cons colon afterColon =>
              dsimp only
              split
              · rfl
              rw [← erases.value]
              obtain ⟨depth, result⟩ := traceValue auditHooks fuel (skipSpace afterColon)
              cases result with
              | none => rfl
              | some scanned =>
                  dsimp only
                  cases skipSpace scanned.2 with
                  | nil => rfl
                  | cons next afterNext =>
                      dsimp only
                      split
                      · rfl
                      split
                      · rw [Decoding.after, erases.members]
                      · rfl

end Erases

theorem erases (fuel : Nat) : Erases fuel := by
  induction fuel with
  | zero =>
      exact ⟨fun _ => by rw [traceValue, scanValue]; rfl, fun _ => by rw [traceItems, scanItems]; rfl,
        fun _ => by rw [traceMembers, scanMembers]; rfl⟩
  | succ fuel inductionHypothesis =>
      exact ⟨inductionHypothesis.value_next, inductionHypothesis.items_next,
        inductionHypothesis.members_next⟩

/-- The value that the upload's decoder finds. -/
theorem traceLoads_auditHooks (raw : Str) :
    (traceLoads auditHooks (2 * raw.length + 2) raw).2 = jsonLoads raw := by
  rw [traceLoads, jsonLoads, (erases _).value]
  cases scanValue (2 * raw.length + 2) (skipSpace raw) with
  | none => rfl
  | some scanned => rfl

end Goggles
