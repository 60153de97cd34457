/-
Module: Goggles.Python.PlainJson
Purpose: `json.loads` without hooks, and that it reads what the decoder of the upload reads, also when
  whitespace surrounds the value.
Trusted boundary: the `json` module of Python's standard library.  The value of the constant `NaN` is a
  parameter, and a text nested beyond the recursion limit is decoded
Main exports: plainLoads, plainLoads_padded, plainLoads_blank
-/
import Goggles.Python.ParsedText
import Mathlib.Data.List.TakeWhile

namespace Goggles

/-! ### The decoder -/

section Decoder

variable (nan : Json)

/-- A number, or one of the constants the standard decoder knows. -/
def plainNumber (text : Str) : Option (Json × Str) :=
  ((scanNumber text).or (scanWord "NaN" nan text)).or
    ((scanWord "Infinity" (.float (.infinite false)) text).or
      (scanWord "-Infinity" (.float (.infinite true)) text))

/-- `dict(pairs)`. -/
def pairsDict (pairs : List (Str × Json)) : Dict :=
  pairs.foldl (fun (dict : Dict) pair => dict.set pair.1 pair.2) []

mutual

/-- One JSON value at the head of the text.  The last of repeated members wins. -/
def plainValue : Nat → Str → Option (Json × Str)
  | 0, _ => none
  | fuel + 1, text =>
      match text with
      | [] => none
      | char :: rest =>
          if char = 0x22 then
            (scanString rest).map fun scanned => (.str (joinSurrogates scanned.1), scanned.2)
          else if char = 0x7b then
            match skipSpace rest with
            | [] => none
            | next :: afterNext =>
                if next = 0x7d then some (.dict [], afterNext)
                else (plainMembers fuel (next :: afterNext)).map fun scanned =>
                  (.dict (pairsDict scanned.1), scanned.2)
          else if char = 0x5b then
            match skipSpace rest with
            | [] => none
            | next :: afterNext =>
                if next = 0x5d then some (.list [], afterNext)
                else (plainItems fuel (next :: afterNext)).map fun scanned =>
                  (.list scanned.1, scanned.2)
          else if char = 0x6e then scanWord "null" .null text
          else if char = 0x74 then scanWord "true" (.bool true) text
          else if char = 0x66 then scanWord "false" (.bool false) text
          else plainNumber nan text

/-- The items of a non-empty array, through its closing bracket. -/
def plainItems : Nat → Str → Option (List Json × Str)
  | 0, _ => none
  | fuel + 1, text =>
      match plainValue fuel text with
      | none => none
      | some (item, afterItem) =>
          match skipSpace afterItem with
          | [] => none
          | char :: rest =>
              if char = 0x5d then some ([item], rest)
              else if char = 0x2c then
                (plainItems fuel (skipSpace rest)).map fun scanned =>
                  (item :: scanned.1, scanned.2)
              else none

/-- The members of a non-empty object, through its closing brace. -/
def plainMembers : Nat → Str → Option (List (Str × Json) × Str)
  | 0, _ => none
  | fuel + 1, text =>
      match text with
      | [] => none
      | char :: rest =>
          if char ≠ 0x22 then none
          else
            match scanString rest with
            | none => none
            | some (key, afterKey) =>
                match skipSpace afterKey with
                | [] => none
                | colon :: afterColon =>
                    if colon ≠ 0x3a then none
                    else
                      match plainValue fuel (skipSpace afterColon) with
                      | none => none
                      | some (value, afterValue) =>
                          let member := (joinSurrogates key, value)
                          match skipSpace afterValue with
                          | [] => none
                          | next :: afterNext =>
                              if next = 0x7d then some ([member], afterNext)
                              else if next = 0x2c then
                                (plainMembers fuel (skipSpace afterNext)).map fun scanned =>
                                  (member :: scanned.1, scanned.2)
                              else none

end

/-- `json.loads(raw)`; `none` is `ValueError`. -/
def plainLoads (raw : Str) : Option Json :=
  match plainValue nan (2 * raw.length + 2) (skipSpace raw) with
  | none => none
  | some (value, rest) => if skipSpace rest = [] then some value else none

end Decoder

/-! ### A value at the head of a longer text -/

/-- What follows a value in the text: whitespace, or nothing. -/
def Trailing (tail : Str) : Prop := ∀ char ∈ tail.head?, isSpace char = true

theorem isDigit_of_isSpace {char : Nat} (space : isSpace char = true) :
    isDigit char = false ∧ char ≠ 0x30 ∧ char ≠ 0x2b ∧ char ≠ 0x2d ∧ char ≠ 0x2e ∧ char ≠ 0x45 ∧
      char ≠ 0x65 ∧ char ≠ 0x22 ∧ char ≠ 0x49 ∧ char ≠ 0x4e ∧ char ≠ 0x5b ∧ char ≠ 0x66 ∧
      char ≠ 0x6e ∧ char ≠ 0x74 ∧ char ≠ 0x7b := by
  simp [isSpace] at space
  simp [isDigit]
  omega

theorem skipSpace_append {text rest : Str} {char : Nat} (found : skipSpace text = char :: rest)
    (tail : Str) : skipSpace (text ++ tail) = char :: (rest ++ tail) := by
  unfold skipSpace at found ⊢
  rw [List.dropWhile_append, found]
  rfl

theorem digits_append {tail : Str} (trailing : Trailing tail) (text : Str) :
    (text ++ tail).takeWhile isDigit = text.takeWhile isDigit ∧
      (text ++ tail).dropWhile isDigit = text.dropWhile isDigit ++ tail := by
  induction text with
  | nil =>
      cases tail with
      | nil => exact ⟨rfl, rfl⟩
      | cons char rest =>
          have stop := (isDigit_of_isSpace (trailing char rfl)).1
          simp [stop]
  | cons char rest inductionHypothesis =>
      cases digit : isDigit char with
      | true => simp [digit, inductionHypothesis]
      | false => simp [digit]

theorem scanWhole_append {tail : Str} (trailing : Trailing tail) (text : Str) :
    scanWhole (text ++ tail) = ((scanWhole text).1, (scanWhole text).2 ++ tail) := by
  obtain ⟨taken, dropped⟩ := digits_append trailing text
  cases text with
  | nil =>
      cases tail with
      | nil => rfl
      | cons char rest =>
          obtain ⟨stop, notZero, -⟩ := isDigit_of_isSpace (trailing char rfl)
          simp [scanWhole, stop, notZero]
  | cons char rest =>
      unfold scanWhole
      rw [taken, dropped]
      by_cases zero : char = 0x30
      · simp [zero]
      · simp [zero]

theorem scanFraction_append {tail : Str} (trailing : Trailing tail) (text : Str) :
    scanFraction (text ++ tail) = ((scanFraction text).1, (scanFraction text).2 ++ tail) := by
  cases text with
  | nil =>
      cases tail with
      | nil => rfl
      | cons char rest =>
          obtain ⟨-, -, -, -, notDot, -⟩ := isDigit_of_isSpace (trailing char rfl)
          simp [scanFraction, notDot]
  | cons char rest =>
      obtain ⟨taken, dropped⟩ := digits_append trailing rest
      rw [List.cons_append, scanFraction, scanFraction]
      rw [taken, dropped]
      by_cases pointed : char = 0x2e ∧ rest.takeWhile isDigit ≠ []
      · simp only [if_pos pointed]
      · simp only [if_neg pointed]
        rfl

theorem scanExponent_append {tail : Str} (trailing : Trailing tail) (text : Str) :
    scanExponent (text ++ tail) = ((scanExponent text).1, (scanExponent text).2 ++ tail) := by
  cases text with
  | nil =>
      cases tail with
      | nil => rfl
      | cons char rest =>
          obtain ⟨-, -, -, -, -, notUpper, notLower, -⟩ := isDigit_of_isSpace (trailing char rfl)
          simp [scanExponent, notUpper, notLower]
  | cons char rest =>
      have unsigned : (if (rest ++ tail).head? = some 0x2b ∨ (rest ++ tail).head? = some 0x2d
          then (rest ++ tail).tail else rest ++ tail) =
          (if rest.head? = some 0x2b ∨ rest.head? = some 0x2d then rest.tail else rest) ++ tail := by
        cases rest with
        | nil =>
            cases tail with
            | nil => rfl
            | cons first others =>
                obtain ⟨-, -, notPlus, notMinus, -⟩ := isDigit_of_isSpace (trailing first rfl)
                simp [notPlus, notMinus]
        | cons first others =>
            by_cases signed : first = 0x2b ∨ first = 0x2d
            · simp [signed]
            · simp [signed]
      have minus : (rest ++ tail).head? = some 0x2d ↔ rest.head? = some 0x2d := by
        cases rest with
        | nil =>
            cases tail with
            | nil => rfl
            | cons first others =>
                obtain ⟨-, -, -, notMinus, -⟩ := isDigit_of_isSpace (trailing first rfl)
                simp [notMinus]
        | cons first others => rfl
      rw [List.cons_append, scanExponent, scanExponent]
      dsimp only
      rw [unsigned]
      generalize (if rest.head? = some 0x2b ∨ rest.head? = some 0x2d then rest.tail else rest) =
        digits
      obtain ⟨taken, dropped⟩ := digits_append trailing digits
      rw [taken, dropped]
      simp only [minus]
      by_cases exponent : char = 0x65 ∨ char = 0x45
      · by_cases blank : digits.takeWhile isDigit = []
        · simp [exponent, blank]
        · simp [exponent, blank]
      · simp [exponent]

theorem scanNumber_append {text rest tail : Str} {value : Json} (trailing : Trailing tail)
    (scanned : scanNumber text = some (value, rest)) :
    scanNumber (text ++ tail) = some (value, rest ++ tail) := by
  cases text with
  | nil => simp [scanNumber, scanWhole] at scanned
  | cons char more =>
      unfold scanNumber at scanned ⊢
      have unsigned : (if (char :: more ++ tail).head? = some 0x2d then (char :: more ++ tail).tail
          else char :: more ++ tail) =
          (if (char :: more).head? = some 0x2d then (char :: more).tail else char :: more) ++ tail := by
        by_cases negative : char = 0x2d
        · simp [negative]
        · simp [negative]
      have minus : (char :: more ++ tail).head? = (char :: more).head? := rfl
      dsimp only at scanned ⊢
      rw [unsigned, minus]
      generalize (if (char :: more).head? = some 0x2d then (char :: more).tail else char :: more) =
        magnitude at scanned ⊢
      rw [scanWhole_append trailing, scanFraction_append trailing, scanExponent_append trailing]
      dsimp only
      split at scanned
      · cases scanned
      · next filled =>
          rw [if_neg filled]
          split at scanned
          · next plain =>
              rw [if_pos plain]
              split at scanned
              · cases scanned
              · next short =>
                  rw [if_neg short]
                  cases scanned
                  rfl
          · next real =>
              rw [if_neg real]
              cases scanned
              rfl

theorem scanWord_append {word text rest : Str} {value found : Json} (tail : Str)
    (scanned : scanWord word value text = some (found, rest)) :
    scanWord word value (text ++ tail) = some (found, rest ++ tail) := by
  unfold scanWord at scanned ⊢
  split at scanned
  · next starts =>
      cases scanned
      obtain ⟨others, rfl⟩ := List.isPrefixOf_iff_prefix.mp starts
      have longer : word.isPrefixOf (word ++ others ++ tail) = true := by
        rw [List.isPrefixOf_iff_prefix, List.append_assoc]
        exact List.prefix_append _ _
      rw [if_pos longer]
      simp
  · cases scanned

theorem scanString_append {text rest : Str} {units : List (Bool × Nat)} (tail : Str)
    (scanned : scanString text = some (units, rest)) :
    scanString (text ++ tail) = some (units, rest ++ tail) := by
  induction size : text.length using Nat.strong_induction_on generalizing text rest units with
  | h length inductionHypothesis =>
      cases text with
      | nil =>
          rw [scanString.eq_def] at scanned
          cases scanned
      | cons char more =>
          have step : ∀ {left : Str} {after : List (Bool × Nat) × Str}, left.length < length →
              scanString left = some after →
                scanString (left ++ tail) = some (after.1, after.2 ++ tail) := by
            intro left after shorter found
            exact inductionHypothesis left.length shorter found rfl
          rw [List.length_cons] at size
          rw [scanString.eq_def] at scanned
          rw [scanString.eq_def, List.cons_append]
          dsimp only at scanned ⊢
          split at scanned
          · next closing =>
              cases scanned
              rw [if_pos closing]
          next open_ =>
          rw [if_neg open_]
          split at scanned
          · cases scanned
          next printable =>
          rw [if_neg printable]
          split at scanned
          · next plain =>
              obtain ⟨after, found, same⟩ := Option.map_eq_some_iff.mp scanned
              cases same
              rw [if_pos plain, step (by omega) found]
              rfl
          · next escaped =>
              rw [if_neg escaped]
              cases more with
              | nil => cases scanned
              | cons letter afterEscape =>
                  rw [List.cons_append]
                  dsimp only at scanned ⊢
                  rw [List.length_cons] at size
                  split at scanned
                  · next unicode =>
                      rw [if_pos unicode]
                      rcases afterEscape with _ | ⟨a, _ | ⟨b, _ | ⟨c, _ | ⟨d, afterQuad⟩⟩⟩⟩
                      · cases scanned
                      · cases scanned
                      · cases scanned
                      · cases scanned
                      · simp only [List.cons_append]
                        dsimp only at scanned
                        simp only [List.length_cons] at size
                        cases quad : hexQuad a b c d with
                        | none =>
                            rw [quad] at scanned
                            cases scanned
                        | some unit =>
                            rw [quad] at scanned
                            obtain ⟨after, found, same⟩ := Option.map_eq_some_iff.mp scanned
                            cases same
                            dsimp only
                            rw [step (by omega) found]
                            rfl
                  · next simple =>
                      rw [if_neg simple]
                      cases known : simpleEscape letter with
                      | none =>
                          rw [known] at scanned
                          cases scanned
                      | some unit =>
                          rw [known] at scanned
                          obtain ⟨after, found, same⟩ := Option.map_eq_some_iff.mp scanned
                          cases same
                          dsimp only
                          rw [step (by omega) found]
                          rfl

theorem pairsDict_snoc (pairs : List (Str × Json)) (pair : Str × Json) :
    pairsDict (pairs ++ [pair]) = (pairsDict pairs).set pair.1 pair.2 := by
  simp [pairsDict]

/-- Members that are not repeated are kept as they are. -/
theorem pairsDict_of_nodup {pairs : List (Str × Json)} (once : (pairs.map Prod.fst).Nodup) :
    pairsDict pairs = pairs := by
  induction pairs using List.reverseRecOn with
  | nil => rfl
  | append_singleton pairs pair inductionHypothesis =>
      rw [List.map_append, List.nodup_append] at once
      obtain ⟨earlier, -, apart⟩ := once
      have fresh : Dict.hasKey pairs pair.1 = false := by
        rw [Dict.hasKey, Option.isSome_eq_false_iff, Option.isNone_iff_eq_none,
          List.lookup_eq_none_iff]
        intro entry member
        have other := apart entry.1 (List.mem_map_of_mem member) pair.1 (by simp)
        simpa using fun same : pair.1 = entry.1 => other same.symm
      rw [pairsDict_snoc, inductionHypothesis earlier, Dict.set, fresh]
      rfl

/-- The plain scanners read what the strict ones read, with more fuel and from a longer text. -/
structure ReadsAlike (nan : Json) (fuel : Nat) : Prop where
  value : ∀ {text rest tail : Str} {found : Json} (more : Nat), Trailing tail →
    scanValue fuel text = some (found, rest) →
      plainValue nan (fuel + more) (text ++ tail) = some (found, rest ++ tail)
  items : ∀ {text rest tail : Str} {found : List Json} (more : Nat), Trailing tail →
    scanItems fuel text = some (found, rest) →
      plainItems nan (fuel + more) (text ++ tail) = some (found, rest ++ tail)
  members : ∀ {text rest tail : Str} {found : List (Str × Json)} (more : Nat), Trailing tail →
    scanMembers fuel text = some (found, rest) →
      plainMembers nan (fuel + more) (text ++ tail) = some (found, rest ++ tail)

theorem scanValue_nil (fuel : Nat) : scanValue fuel [] = none := by
  cases fuel with
  | zero => rw [scanValue]
  | succ fuel => rw [scanValue.eq_def]

theorem scanItems_nil (fuel : Nat) : scanItems fuel [] = none := by
  cases fuel with
  | zero => rw [scanItems]
  | succ fuel => rw [scanItems, scanValue_nil]

theorem scanMembers_nil (fuel : Nat) : scanMembers fuel [] = none := by
  cases fuel with
  | zero => rw [scanMembers]
  | succ fuel => rw [scanMembers.eq_def]

section Steps

variable {nan : Json} {fuel : Nat} {text rest tail : Str}

theorem plainValue_of_scanValue (alike : ReadsAlike nan fuel) {found : Json} (more : Nat)
    (trailing : Trailing tail) (scanned : scanValue (fuel + 1) text = some (found, rest)) :
    plainValue nan (fuel + more + 1) (text ++ tail) = some (found, rest ++ tail) := by
  cases text with
  | nil =>
      rw [scanValue.eq_def] at scanned
      cases scanned
  | cons char left =>
      rw [scanValue.eq_def] at scanned
      rw [List.cons_append, plainValue.eq_def]
      dsimp only at scanned ⊢
      split at scanned
      · next quote =>
          obtain ⟨after, string, same⟩ := Option.map_eq_some_iff.mp scanned
          cases same
          rw [if_pos quote, scanString_append tail string]
          rfl
      next notQuote =>
      rw [if_neg notQuote]
      split at scanned
      · next brace =>
          rw [if_pos brace]
          cases next : skipSpace left with
          | nil =>
              rw [next] at scanned
              cases scanned
          | cons first afterNext =>
              rw [next] at scanned
              rw [skipSpace_append next]
              dsimp only at scanned ⊢
              split at scanned
              · next closing =>
                  cases scanned
                  rw [if_pos closing]
              · next filled =>
                  rw [if_neg filled]
                  cases members : scanMembers fuel (first :: afterNext) with
                  | none =>
                      rw [members] at scanned
                      cases scanned
                  | some result =>
                      rw [members] at scanned
                      dsimp only at scanned
                      split at scanned
                      · next once =>
                          cases scanned
                          rw [← List.cons_append, alike.members more trailing members,
                            Option.map_some, pairsDict_of_nodup once]
                      · cases scanned
      next notBrace =>
      rw [if_neg notBrace]
      split at scanned
      · next bracket =>
          rw [if_pos bracket]
          cases next : skipSpace left with
          | nil =>
              rw [next] at scanned
              cases scanned
          | cons first afterNext =>
              rw [next] at scanned
              rw [skipSpace_append next]
              dsimp only at scanned ⊢
              split at scanned
              · next closing =>
                  cases scanned
                  rw [if_pos closing]
              · next filled =>
                  obtain ⟨after, items, same⟩ := Option.map_eq_some_iff.mp scanned
                  cases same
                  rw [if_neg filled, ← List.cons_append, alike.items more trailing items,
                    Option.map_some]
      next notBracket =>
      rw [if_neg notBracket, ← List.cons_append]
      split at scanned
      · next letter => rw [if_pos letter, scanWord_append tail scanned]
      next notN =>
      rw [if_neg notN]
      split at scanned
      · next letter => rw [if_pos letter, scanWord_append tail scanned]
      next notT =>
      rw [if_neg notT]
      split at scanned
      · next letter => rw [if_pos letter, scanWord_append tail scanned]
      next notF =>
      rw [if_neg notF, plainNumber, scanNumber_append trailing scanned]
      rfl

theorem plainItems_of_scanItems (alike : ReadsAlike nan fuel) {found : List Json} (more : Nat)
    (trailing : Trailing tail) (scanned : scanItems (fuel + 1) text = some (found, rest)) :
    plainItems nan (fuel + more + 1) (text ++ tail) = some (found, rest ++ tail) := by
  rw [scanItems] at scanned
  rw [plainItems]
  cases item : scanValue fuel text with
  | none =>
      rw [item] at scanned
      cases scanned
  | some result =>
      obtain ⟨value, afterItem⟩ := result
      rw [item] at scanned
      rw [alike.value more trailing item]
      dsimp only at scanned ⊢
      cases next : skipSpace afterItem with
      | nil =>
          rw [next] at scanned
          cases scanned
      | cons char left =>
          rw [next] at scanned
          rw [skipSpace_append next]
          dsimp only at scanned ⊢
          split at scanned
          · next closing =>
              cases scanned
              rw [if_pos closing]
          next open_ =>
          rw [if_neg open_]
          split at scanned
          · next comma =>
              obtain ⟨others, items, same⟩ := Option.map_eq_some_iff.mp scanned
              cases same
              rw [if_pos comma]
              cases later : skipSpace left with
              | nil =>
                  rw [later, scanItems_nil] at items
                  cases items
              | cons first afterNext =>
                  rw [later] at items
                  rw [skipSpace_append later, ← List.cons_append, alike.items more trailing items,
                    Option.map_some]
          · cases scanned

theorem plainMembers_of_scanMembers (alike : ReadsAlike nan fuel) {found : List (Str × Json)}
    (more : Nat) (trailing : Trailing tail)
    (scanned : scanMembers (fuel + 1) text = some (found, rest)) :
    plainMembers nan (fuel + more + 1) (text ++ tail) = some (found, rest ++ tail) := by
  cases text with
  | nil =>
      rw [scanMembers_nil] at scanned
      cases scanned
  | cons char left =>
      rw [scanMembers.eq_def] at scanned
      rw [List.cons_append, plainMembers.eq_def]
      dsimp only at scanned ⊢
      split at scanned
      · cases scanned
      next quote =>
      rw [if_neg quote]
      cases key : scanString left with
      | none =>
          rw [key] at scanned
          cases scanned
      | some result =>
          obtain ⟨units, afterKey⟩ := result
          rw [key] at scanned
          rw [scanString_append tail key]
          dsimp only at scanned ⊢
          cases next : skipSpace afterKey with
          | nil =>
              rw [next] at scanned
              cases scanned
          | cons colon afterColon =>
              rw [next] at scanned
              rw [skipSpace_append next]
              dsimp only at scanned ⊢
              split at scanned
              · cases scanned
              next separated =>
              rw [if_neg separated]
              cases start : skipSpace afterColon with
              | nil =>
                  rw [start, scanValue_nil] at scanned
                  cases scanned
              | cons first others =>
                  rw [start] at scanned
                  rw [skipSpace_append start, ← List.cons_append]
                  cases item : scanValue fuel (first :: others) with
                  | none =>
                      rw [item] at scanned
                      cases scanned
                  | some result =>
                      obtain ⟨value, afterValue⟩ := result
                      rw [item] at scanned
                      rw [alike.value more trailing item]
                      dsimp only at scanned ⊢
                      cases last : skipSpace afterValue with
                      | nil =>
                          rw [last] at scanned
                          cases scanned
                      | cons stop after =>
                          rw [last] at scanned
                          rw [skipSpace_append last]
                          dsimp only at scanned ⊢
                          split at scanned
                          · next closing =>
                              cases scanned
                              rw [if_pos closing]
                          next open_ =>
                          rw [if_neg open_]
                          split at scanned
                          · next comma =>
                              obtain ⟨rested, members, same⟩ := Option.map_eq_some_iff.mp scanned
                              cases same
                              rw [if_pos comma]
                              cases later : skipSpace after with
                              | nil =>
                                  rw [later, scanMembers_nil] at members
                                  cases members
                              | cons head tokens =>
                                  rw [later] at members
                                  rw [skipSpace_append later, ← List.cons_append,
                                    alike.members more trailing members, Option.map_some]
                          · cases scanned

end Steps

theorem readsAlike (nan : Json) (fuel : Nat) : ReadsAlike nan fuel := by
  induction fuel with
  | zero =>
      constructor
      · intro text rest tail found more trailing scanned
        rw [scanValue] at scanned
        cases scanned
      · intro text rest tail found more trailing scanned
        rw [scanItems] at scanned
        cases scanned
      · intro text rest tail found more trailing scanned
        rw [scanMembers] at scanned
        cases scanned
  | succ fuel inductionHypothesis =>
      constructor
      · intro text rest tail found more trailing scanned
        rw [Nat.add_right_comm]
        exact plainValue_of_scanValue inductionHypothesis more trailing scanned
      · intro text rest tail found more trailing scanned
        rw [Nat.add_right_comm]
        exact plainItems_of_scanItems inductionHypothesis more trailing scanned
      · intro text rest tail found more trailing scanned
        rw [Nat.add_right_comm]
        exact plainMembers_of_scanMembers inductionHypothesis more trailing scanned

/-! ### Padded texts -/

/-- JSON whitespace is whitespace. -/
theorem isSpace_of_isJsonSpace {char : Nat} (space : isJsonSpace char = true) :
    isSpace char = true := by
  simp [isJsonSpace] at space
  simp [isSpace]
  omega

/-- No value starts with whitespace that is not JSON's. -/
theorem plainValue_of_space {nan : Json} {fuel char : Nat} {rest : Str} (space : isSpace char = true) :
    plainValue nan fuel (char :: rest) = none := by
  obtain ⟨notDigit, notZero, -, notMinus, -, -, -, notQuote, notI, notN, notBracket, notF, notLowerN,
    notT, notBrace⟩ := isDigit_of_isSpace space
  have noWord : ∀ {word : Str} {first : Nat} (value : Json), word.head? = some first →
      char ≠ first → scanWord word value (char :: rest) = none := by
    intro word first value starts apart
    cases word with
    | nil => cases starts
    | cons head others =>
        cases starts
        simp [scanWord, Ne.symm apart]
  have noNumber : scanNumber (char :: rest) = none := by
    simp [scanNumber, scanWhole, notDigit, notZero, notMinus]
  cases fuel with
  | zero => rw [plainValue]
  | succ fuel =>
      have constants : plainNumber nan (char :: rest) = none := by
        rw [plainNumber, noNumber, noWord nan (by decide) notN, noWord _ (by decide) notI,
          noWord _ (by decide) notMinus]
        rfl
      rw [plainValue.eq_def]
      dsimp only
      rw [if_neg notQuote, if_neg notBrace, if_neg notBracket, if_neg notLowerN, if_neg notT,
        if_neg notF, constants]

/-- A text that is only whitespace holds no value. -/
theorem plainLoads_blank {nan : Json} {text : Str} (blank : ∀ char ∈ text, isSpace char = true) :
    plainLoads nan text = none := by
  unfold plainLoads
  cases start : skipSpace text with
  | nil => rw [plainValue.eq_def]
  | cons char rest =>
      have member : char ∈ text := skipSpace_subset text (start ▸ List.mem_cons_self)
      rw [plainValue_of_space (blank char member)]

theorem skipSpace_eq_nil_iff {text : Str} :
    skipSpace text = [] ↔ ∀ char ∈ text, isJsonSpace char = true :=
  List.dropWhile_eq_nil_iff

/-- Whitespace before and after a value: `json.loads` reads the value when all of it is JSON's, and
fails when some of it is not. -/
theorem plainLoads_padded {nan : Json} {text before after : Str} {value : Json}
    (solid : ∀ char ∈ text.head?, isSpace char = false)
    (leading : ∀ char ∈ before, isSpace char = true)
    (trailing : ∀ char ∈ after, isSpace char = true) (loaded : jsonLoads text = some value) :
    plainLoads nan (before ++ (text ++ after)) =
      if ∀ char ∈ before ++ after, isJsonSpace char = true then some value else none := by
  have started : skipSpace text = text := by
    cases text with
    | nil => rfl
    | cons char rest =>
        have notJson : isJsonSpace char = false := by
          rw [← Bool.not_eq_true]
          intro space
          have visible := solid char rfl
          rw [isSpace_of_isJsonSpace space] at visible
          cases visible
        rw [skipSpace, List.dropWhile_cons_of_neg (by simp [notJson])]
  unfold jsonLoads at loaded
  rw [started] at loaded
  cases scanned : scanValue (2 * text.length + 2) text with
  | none =>
      rw [scanned] at loaded
      cases loaded
  | some result =>
      obtain ⟨found, rest⟩ := result
      rw [scanned] at loaded
      dsimp only at loaded
      split at loaded
      · next finished =>
          cases loaded
          unfold plainLoads
          by_cases opening : ∀ char ∈ before, isJsonSpace char = true
          · have start : skipSpace (before ++ (text ++ after)) = text ++ after := by
              cases text with
              | nil =>
                  rw [scanValue_nil] at scanned
                  cases scanned
              | cons char others =>
                  have skipped := skipSpace_eq_nil_iff.mpr opening
                  rw [skipSpace] at skipped started
                  rw [skipSpace, List.dropWhile_append, skipped, List.isEmpty_nil, if_pos rfl,
                    List.dropWhile_append, started]
                  rfl
            have fuel : 2 * (before ++ (text ++ after)).length + 2 =
                2 * text.length + 2 + (2 * before.length + 2 * after.length) := by
              simp only [List.length_append]
              omega
            have trails : Trailing after := fun char member =>
              trailing char (List.mem_of_mem_head? member)
            have left : skipSpace (rest ++ after) = skipSpace after := by
              rw [skipSpace, List.dropWhile_append]
              rw [skipSpace] at finished
              rw [finished]
              rfl
            rw [start, fuel, (readsAlike nan _).value _ trails scanned]
            dsimp only
            rw [left]
            have both : (∀ char ∈ before ++ after, isJsonSpace char = true) ↔
                ∀ char ∈ after, isJsonSpace char = true := by
              simp only [List.mem_append]
              exact ⟨fun all char member => all char (.inr member),
                fun all char member => member.elim (opening char) (all char)⟩
            simp only [both, skipSpace_eq_nil_iff]
          · have strange : ¬ ∀ char ∈ before ++ after, isJsonSpace char = true := fun all =>
              opening fun char member => all char (List.mem_append_left _ member)
            rw [if_neg strange]
            cases start : skipSpace before with
            | nil => exact absurd (skipSpace_eq_nil_iff.mp start) opening
            | cons char others =>
                have space := leading char (skipSpace_subset before (start ▸ List.mem_cons_self))
                rw [skipSpace_append start, plainValue_of_space space]
      · cases loaded

end Goggles
