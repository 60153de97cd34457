/-
Module: Goggles.Python.WideJson
Purpose: JSON whose integers have any number of digits, and that the decoder of the upload reads the
  same values, those with a longer integer than CPython converts apart.
Trusted boundary: none beyond the modules it imports
Main exports: wideLoads, Json.shortIntegers, jsonLoads_eq_wideLoads
-/
import Goggles.Python.RoundTrip
import Mathlib.Data.List.Induction

namespace Goggles

/-! ### The decoder -/

/-- A JSON number. -/
def wideNumber (text : Str) : Option (Json × Str) :=
  let negative := text.head? = some 0x2d
  let (whole, afterWhole) := scanWhole (if negative then text.tail else text)
  if whole = [] then none
  else
    let (fraction, afterFraction) := scanFraction afterWhole
    let (exponent, rest) := scanExponent afterFraction
    if fraction = [] ∧ exponent = none then
      let value : Int := digitsValue whole
      some (.int (if negative then -value else value), rest)
    else some (.float (floatOfParts negative whole fraction (exponent.getD 0)), rest)

mutual

/-- One JSON value at the head of the text.  No object repeats a member, and no number is one of the
constants that are not finite. -/
def wideValue : Nat → Str → Option (Json × Str)
  | 0, _ => none
  | fuel + 1, text =>
      match text with
      | [] => none
      | char :: rest =>
          if char = 0x22 then
            (scanString rest).map fun scanned => (.str (joinSurrogates scanned.1), scanned.2)
          else if char = 0x7b then
            match skipSpace rest with
            | [] => none
            | next :: afterNext =>
                if next = 0x7d then some (.dict [], afterNext)
                else
                  match wideMembers fuel (next :: afterNext) with
                  | none => none
                  | some (fields, remaining) =>
                      if (fields.map Prod.fst).Nodup then some (.dict fields, remaining) else none
          else if char = 0x5b then
            match skipSpace rest with
            | [] => none
            | next :: afterNext =>
                if next = 0x5d then some (.list [], afterNext)
                else (wideItems fuel (next :: afterNext)).map fun scanned =>
                  (.list scanned.1, scanned.2)
          else if char = 0x6e then scanWord "null" .null text
          else if char = 0x74 then scanWord "true" (.bool true) text
          else if char = 0x66 then scanWord "false" (.bool false) text
          else wideNumber text

/-- The items of a non-empty array, through its closing bracket. -/
def wideItems : Nat → Str → Option (List Json × Str)
  | 0, _ => none
  | fuel + 1, text =>
      match wideValue fuel text with
      | none => none
      | some (item, afterItem) =>
          match skipSpace afterItem with
          | [] => none
          | char :: rest =>
              if char = 0x5d then some ([item], rest)
              else if char = 0x2c then
                (wideItems fuel (skipSpace rest)).map fun scanned =>
                  (item :: scanned.1, scanned.2)
              else none

/-- The members of a non-empty object, through its closing brace. -/
def wideMembers : Nat → Str → Option (List (Str × Json) × Str)
  | 0, _ => none
  | fuel + 1, text =>
      match text with
      | [] => none
      | char :: rest =>
          if char ≠ 0x22 then none
          else
            match scanString rest with
            | none => none
            | some (key, afterKey) =>
                match skipSpace afterKey with
                | [] => none
                | colon :: afterColon =>
                    if colon ≠ 0x3a then none
                    else
                      match wideValue fuel (skipSpace afterColon) with
                      | none => none
                      | some (value, afterValue) =>
                          let member := (joinSurrogates key, value)
                          match skipSpace afterValue with
                          | [] => none
                          | next :: afterNext =>
                              if next = 0x7d then some ([member], afterNext)
                              else if next = 0x2c then
                                (wideMembers fuel (skipSpace afterNext)).map fun scanned =>
                                  (member :: scanned.1, scanned.2)
                              else none

end

/-- The JSON value that a text is. -/
def wideLoads (raw : Str) : Option Json :=
  match wideValue (2 * raw.length + 2) (skipSpace raw) with
  | none => none
  | some (value, rest) => if skipSpace rest = [] then some value else none

/-! ### Short integers -/

mutual

/-- Every integer in the value has few enough digits for CPython to convert it. -/
def Json.shortIntegers : Json → Bool
  | .int value => value.natAbs < 10 ^ intMaxStrDigits
  | .list items => itemsShort items
  | .dict fields => fieldsShort fields
  | .null | .bool _ | .float _ | .str _ => true

def itemsShort : List Json → Bool
  | [] => true
  | item :: rest => item.shortIntegers && itemsShort rest

def fieldsShort : List (Str × Json) → Bool
  | [] => true
  | (_, value) :: rest => value.shortIntegers && fieldsShort rest

end

theorem digitsValue_lt {digits : Str} (decimal : ∀ digit ∈ digits, isDigit digit = true) :
    digitsValue digits < 10 ^ digits.length := by
  induction digits using List.reverseRecOn with
  | nil => decide
  | append_singleton digits digit inductionHypothesis =>
      have front := inductionHypothesis fun other member =>
        decimal other (List.mem_append_left _ member)
      have last := decimal digit (by simp)
      simp only [isDigit, Bool.and_eq_true, decide_eq_true_eq] at last
      rw [digitsValue_append, List.length_append, List.length_singleton, Nat.pow_succ]
      omega

theorem le_digitsValue {first : Nat} {digits : Str} (digit : isDigit first = true)
    (leading : first ≠ 0x30) : 10 ^ digits.length ≤ digitsValue (first :: digits) := by
  induction digits using List.reverseRecOn with
  | nil =>
      simp only [isDigit, Bool.and_eq_true, decide_eq_true_eq] at digit
      simp only [digitsValue, List.foldl_cons, List.foldl_nil, List.length_nil]
      omega
  | append_singleton digits last inductionHypothesis =>
      rw [← List.cons_append, digitsValue_append, List.length_append, List.length_singleton,
        Nat.pow_succ]
      omega

/-- A whole part has no leading zero, so its digits can be counted in its value. -/
theorem scanWhole_short {text : Str} (present : (scanWhole text).1 ≠ []) :
    intMaxStrDigits < (scanWhole text).1.length ↔
      10 ^ intMaxStrDigits ≤ digitsValue (scanWhole text).1 := by
  unfold scanWhole at present ⊢
  split
  · next zero =>
      have small : digitsValue [0x30] < 10 ^ intMaxStrDigits := Nat.pow_pos (by decide)
      have short : ¬ intMaxStrDigits < [0x30].length := by decide
      exact iff_of_false short (Nat.not_le.mpr small)
  · next zero =>
      rw [if_neg zero] at present
      dsimp only at present ⊢
      have decimal : ∀ digit ∈ text.takeWhile isDigit, isDigit digit = true := by
        intro digit member
        exact List.all_eq_true.mp List.all_takeWhile digit member
      have below := digitsValue_lt decimal
      cases text with
      | nil => exact absurd rfl present
      | cons first rest =>
          cases digit : isDigit first with
          | false => simp [digit] at present
          | true =>
              have leading : first ≠ 0x30 := by simpa using zero
              rw [List.takeWhile_cons_of_pos digit] at below ⊢
              have above := @le_digitsValue first (rest.takeWhile isDigit) digit leading
              rw [List.length_cons] at below ⊢
              constructor
              · intro long
                exact (Nat.pow_le_pow_right (by decide) (Nat.lt_succ_iff.mp long)).trans above
              · intro large
                exact (Nat.pow_lt_pow_iff_right (by decide)).mp (large.trans_lt below)

/-! ### The two decoders -/

theorem scanNumber_eq (text : Str) :
    scanNumber text = (wideNumber text).filter fun found => found.1.shortIntegers := by
  unfold scanNumber wideNumber
  dsimp only
  generalize (if text.head? = some 0x2d then text.tail else text) = magnitude
  by_cases blank : (scanWhole magnitude).1 = []
  · simp [blank]
  · simp only [if_neg blank]
    split
    · split
      · next long =>
          have large := (scanWhole_short blank).mp long
          have rejected : ¬ digitsValue (scanWhole magnitude).1 < 10 ^ intMaxStrDigits :=
            Nat.not_lt.mpr large
          rw [Option.filter_some_neg]
          simp only [Json.shortIntegers]
          split <;> simpa using large
      · next short =>
          have small := Nat.not_le.mp fun large => short ((scanWhole_short blank).mpr large)
          rw [Option.filter_some_pos]
          simp only [Json.shortIntegers]
          split <;> simpa using small
    · rw [Option.filter_some_pos]
      rfl

/-- The decoders agree on the values whose integers are short. -/
structure ReadsShort (fuel : Nat) : Prop where
  value : ∀ text, scanValue fuel text =
    (wideValue fuel text).filter fun found => found.1.shortIntegers
  items : ∀ text, scanItems fuel text =
    (wideItems fuel text).filter fun found => itemsShort found.1
  members : ∀ text, scanMembers fuel text =
    (wideMembers fuel text).filter fun found => fieldsShort found.1

theorem scanWord_short {word text : Str} {value : Json} (short : value.shortIntegers = true) :
    scanWord word value text = (scanWord word value text).filter fun found =>
      found.1.shortIntegers := by
  unfold scanWord
  split
  · rw [Option.filter_some, if_pos short]
  · rfl

section Steps

variable {fuel : Nat}

theorem ReadsShort.value_next (alike : ReadsShort fuel) (text : Str) :
    scanValue (fuel + 1) text =
      (wideValue (fuel + 1) text).filter fun found => found.1.shortIntegers := by
  cases text with
  | nil => rw [scanValue.eq_def, wideValue.eq_def]; rfl
  | cons char rest =>
      rw [scanValue.eq_def, wideValue.eq_def]
      dsimp only
      split
      · cases scanString rest with
        | none => rfl
        | some scanned => rfl
      split
      · cases skipSpace rest with
        | nil => rfl
        | cons next afterNext =>
            dsimp only
            split
            · rfl
            · rw [alike.members]
              cases wideMembers fuel (next :: afterNext) with
              | none => rfl
              | some scanned =>
                  obtain ⟨fields, remaining⟩ := scanned
                  by_cases short : fieldsShort fields = true
                  · by_cases once : (fields.map Prod.fst).Nodup
                    · simp [Option.filter_some, short, once, Json.shortIntegers]
                    · simp [Option.filter_some, short, once]
                  · by_cases once : (fields.map Prod.fst).Nodup
                    · simp [Option.filter_some, short, once, Json.shortIntegers]
                    · simp [Option.filter_some, short, once]
      split
      · cases skipSpace rest with
        | nil => rfl
        | cons next afterNext =>
            dsimp only
            split
            · rfl
            · rw [alike.items]
              cases wideItems fuel (next :: afterNext) with
              | none => rfl
              | some scanned =>
                  by_cases short : itemsShort scanned.1 = true
                  · simp [Option.filter_some, short, Json.shortIntegers]
                  · simp [Option.filter_some, short, Json.shortIntegers]
      split
      · exact scanWord_short rfl
      split
      · exact scanWord_short rfl
      split
      · exact scanWord_short rfl
      · exact scanNumber_eq _

theorem ReadsShort.items_next (alike : ReadsShort fuel) (text : Str) :
    scanItems (fuel + 1) text =
      (wideItems (fuel + 1) text).filter fun found => itemsShort found.1 := by
  rw [scanItems, wideItems, alike.value]
  cases wideValue fuel text with
  | none => rfl
  | some scanned =>
      obtain ⟨item, afterItem⟩ := scanned
      by_cases short : item.shortIntegers = true
      · rw [Option.filter_some, if_pos short]
        dsimp only
        cases skipSpace afterItem with
        | nil => rfl
        | cons char rest =>
            dsimp only
            split
            · simp [Option.filter_some, itemsShort, short]
            split
            · rw [alike.items]
              cases wideItems fuel (skipSpace rest) with
              | none => rfl
              | some others =>
                  by_cases shortRest : itemsShort others.1 = true
                  · simp [Option.filter_some, itemsShort, short, shortRest]
                  · simp [Option.filter_some, itemsShort, shortRest]
            · rfl
      · -- a long item is in whatever list it begins
        rw [Option.filter_some, if_neg short]
        symm
        dsimp only
        cases skipSpace afterItem with
        | nil => rfl
        | cons char rest =>
            dsimp only
            split
            · simp [Option.filter_some, itemsShort, short]
            split
            · cases wideItems fuel (skipSpace rest) with
              | none => rfl
              | some others => simp [Option.filter_some, itemsShort, short]
            · rfl

theorem ReadsShort.members_next (alike : ReadsShort fuel) (text : Str) :
    scanMembers (fuel + 1) text =
      (wideMembers (fuel + 1) text).filter fun found => fieldsShort found.1 := by
  cases text with
  | nil => rw [scanMembers.eq_def, wideMembers.eq_def]; rfl
  | cons char rest =>
      rw [scanMembers.eq_def, wideMembers.eq_def]
      dsimp only
      split
      · rfl
      cases scanString rest with
      | none => rfl
      | some scannedKey =>
          obtain ⟨key, afterKey⟩ := scannedKey
          dsimp only
          cases skipSpace afterKey with
          | nil => rfl
          | cons colon afterColon =>
              dsimp only
              split
              · rfl
              rw [alike.value]
              cases wideValue fuel (skipSpace afterColon) with
              | none => rfl
              | some scanned =>
                  obtain ⟨value, afterValue⟩ := scanned
                  by_cases short : value.shortIntegers = true
                  · rw [Option.filter_some, if_pos short]
                    dsimp only
                    cases skipSpace afterValue with
                    | nil => rfl
                    | cons next afterNext =>
                        dsimp only
                        split
                        · simp [Option.filter_some, fieldsShort, short]
                        split
                        · rw [alike.members]
                          cases wideMembers fuel (skipSpace afterNext) with
                          | none => rfl
                          | some others =>
                              by_cases shortRest : fieldsShort others.1 = true
                              · simp [Option.filter_some, fieldsShort, short, shortRest]
                              · simp [Option.filter_some, fieldsShort, shortRest]
                        · rfl
                  · rw [Option.filter_some, if_neg short]
                    symm
                    dsimp only
                    cases skipSpace afterValue with
                    | nil => rfl
                    | cons next afterNext =>
                        dsimp only
                        split
                        · simp [Option.filter_some, fieldsShort, short]
                        split
                        · cases wideMembers fuel (skipSpace afterNext) with
                          | none => rfl
                          | some others => simp [Option.filter_some, fieldsShort, short]
                        · rfl

end Steps

theorem readsShort (fuel : Nat) : ReadsShort fuel := by
  induction fuel with
  | zero =>
      refine ⟨?_, ?_, ?_⟩
      · intro text
        rw [scanValue, wideValue]
        rfl
      · intro text
        rw [scanItems, wideItems]
        rfl
      · intro text
        rw [scanMembers, wideMembers]
        rfl
  | succ fuel alike => exact ⟨alike.value_next, alike.items_next, alike.members_next⟩

/-- The decoder of the upload reads the values whose integers are short, and no others. -/
theorem jsonLoads_eq_wideLoads (raw : Str) :
    jsonLoads raw = (wideLoads raw).filter Json.shortIntegers := by
  rw [jsonLoads, wideLoads, (readsShort _).value]
  cases wideValue (2 * raw.length + 2) (skipSpace raw) with
  | none => rfl
  | some scanned =>
      obtain ⟨value, rest⟩ := scanned
      by_cases short : value.shortIntegers = true
      · rw [Option.filter_some, if_pos short]
        dsimp only
        split
        · rw [Option.filter_some, if_pos short]
        · rfl
      · rw [Option.filter_some, if_neg short]
        symm
        dsimp only
        split
        · rw [Option.filter_some, if_neg short]
        · rfl

end Goggles
