/-
Module: Goggles.Python.Json
Purpose: The values `json.loads` returns, the Python operations the service applies to them, and
  the decoder itself with the two hooks of `loads_audit_json`.
Trusted boundary: the decoder follows CPython's `json` module (strict strings, ASCII digits, the
  4300-digit limit on integers, correctly rounded floats)
Main exports: PyFloat, Json, Dict, Dict.get, Json.truthy, jsonLoads, maxJsonNestingDepth,
  loadsAuditJson
-/
import Goggles.Python.Text

namespace Goggles

/-! ### Values -/

/-- A Python `float`: `mantissa * 2 ^ exponent`, or an infinity.  `json.loads` yields no NaN here,
since the hook of `loads_audit_json` rejects the constants. -/
inductive PyFloat where
  | finite (mantissa exponent : Int)
  | infinite (negative : Bool)
deriving Repr, DecidableEq

/-- `value.is_integer()`. -/
def PyFloat.isInteger : PyFloat → Bool
  | .finite mantissa exponent => 0 ≤ exponent || mantissa % (2 ^ exponent.natAbs : Nat) == 0
  | .infinite _ => false

/-- `bound <= value` for a non-negative integer bound on an integral float. -/
def PyFloat.atLeast (bound : Nat) : PyFloat → Bool
  | .finite mantissa exponent =>
      if 0 ≤ exponent then (bound : Int) ≤ mantissa * (2 ^ exponent.natAbs : Nat)
      else (bound : Int) * (2 ^ exponent.natAbs : Nat) ≤ mantissa
  | .infinite negative => !negative

/-- `value <= bound` for a non-negative integer bound on an integral float. -/
def PyFloat.atMost (bound : Nat) : PyFloat → Bool
  | .finite mantissa exponent =>
      if 0 ≤ exponent then mantissa * (2 ^ exponent.natAbs : Nat) ≤ (bound : Int)
      else mantissa ≤ (bound : Int) * (2 ^ exponent.natAbs : Nat)
  | .infinite negative => negative

/-- A decoded JSON value as Python holds it. -/
inductive Json where
  | null
  | bool (value : Bool)
  | int (value : Int)
  | float (value : PyFloat)
  | str (value : Str)
  | list (items : List Json)
  | dict (fields : List (Str × Json))
deriving Repr, Inhabited

/-- A Python `dict` with string keys, in insertion order. -/
abbrev Dict := List (Str × Json)

mutual

/-- Decidable equality of JSON values, constructor by constructor. -/
def Json.decEq : (left right : Json) → Decidable (left = right)
  | .null, .null => isTrue rfl
  | .bool left, .bool right =>
      if same : left = right then isTrue (same ▸ rfl)
      else isFalse fun equality => same (Json.bool.inj equality)
  | .int left, .int right =>
      if same : left = right then isTrue (same ▸ rfl)
      else isFalse fun equality => same (Json.int.inj equality)
  | .float left, .float right =>
      if same : left = right then isTrue (same ▸ rfl)
      else isFalse fun equality => same (Json.float.inj equality)
  | .str left, .str right =>
      if same : left = right then isTrue (same ▸ rfl)
      else isFalse fun equality => same (Json.str.inj equality)
  | .list left, .list right =>
      match Json.decEqItems left right with
      | isTrue same => isTrue (same ▸ rfl)
      | isFalse different => isFalse fun equality => different (Json.list.inj equality)
  | .dict left, .dict right =>
      match Json.decEqFields left right with
      | isTrue same => isTrue (same ▸ rfl)
      | isFalse different => isFalse fun equality => different (Json.dict.inj equality)
  | .null, .bool _ | .null, .int _ | .null, .float _ | .null, .str _ | .null, .list _
  | .null, .dict _ | .bool _, .null | .bool _, .int _ | .bool _, .float _ | .bool _, .str _
  | .bool _, .list _ | .bool _, .dict _ | .int _, .null | .int _, .bool _ | .int _, .float _
  | .int _, .str _ | .int _, .list _ | .int _, .dict _ | .float _, .null | .float _, .bool _
  | .float _, .int _ | .float _, .str _ | .float _, .list _ | .float _, .dict _ | .str _, .null
  | .str _, .bool _ | .str _, .int _ | .str _, .float _ | .str _, .list _ | .str _, .dict _
  | .list _, .null | .list _, .bool _ | .list _, .int _ | .list _, .float _ | .list _, .str _
  | .list _, .dict _ | .dict _, .null | .dict _, .bool _ | .dict _, .int _ | .dict _, .float _
  | .dict _, .str _ | .dict _, .list _ => isFalse nofun

/-- Decidable equality of item lists. -/
def Json.decEqItems : (left right : List Json) → Decidable (left = right)
  | [], [] => isTrue rfl
  | [], _ :: _ | _ :: _, [] => isFalse nofun
  | left :: lefts, right :: rights =>
      match Json.decEq left right, Json.decEqItems lefts rights with
      | isTrue head, isTrue tail => isTrue (head ▸ tail ▸ rfl)
      | isFalse different, _ => isFalse fun equality => different (List.cons.inj equality).1
      | _, isFalse different => isFalse fun equality => different (List.cons.inj equality).2

/-- Decidable equality of field lists. -/
def Json.decEqFields : (left right : List (Str × Json)) → Decidable (left = right)
  | [], [] => isTrue rfl
  | [], _ :: _ | _ :: _, [] => isFalse nofun
  | (leftKey, left) :: lefts, (rightKey, right) :: rights =>
      if keys : leftKey = rightKey then
        match Json.decEq left right, Json.decEqFields lefts rights with
        | isTrue head, isTrue tail => isTrue (keys ▸ head ▸ tail ▸ rfl)
        | isFalse different, _ => isFalse fun equality =>
            different (Prod.mk.inj (List.cons.inj equality).1).2
        | _, isFalse different => isFalse fun equality => different (List.cons.inj equality).2
      else isFalse fun equality => keys (Prod.mk.inj (List.cons.inj equality).1).1

end

instance : DecidableEq Json := Json.decEq

/-- `value.get(key)`: a missing key and an explicit null both read as `None`. -/
def Dict.get (dict : Dict) (key : Str) : Json := (dict.lookup key).getD .null

/-- `key in value`. -/
def Dict.hasKey (dict : Dict) (key : Str) : Bool := (dict.lookup key).isSome

/-- `dict[key] = value` on a dict that keeps one entry per key. -/
def Dict.set (dict : Dict) (key : Str) (value : Json) : Dict :=
  if dict.hasKey key then dict.map fun entry => if entry.1 = key then (key, value) else entry
  else dict ++ [(key, value)]

theorem lookup_cons_ite {κ ρ : Type*} [BEq κ] [LawfulBEq κ] [DecidableEq κ] (name field : κ)
    (value : ρ) (rest : List (κ × ρ)) :
    ((field, value) :: rest).lookup name = if name = field then some value else rest.lookup name := by
  by_cases same : name = field
  · simp [same]
  · rw [List.lookup_cons, beq_false_of_ne same, if_neg same]

/-- Overwriting the entries of one key is seen by a lookup of that key alone. -/
theorem Dict.lookup_overwrite (dict : Dict) (key name : Str) (value : Json) :
    (dict.map fun entry => if entry.1 = key then (key, value) else entry).lookup name =
      if name = key ∧ dict.hasKey key = true then some value else dict.lookup name := by
  induction dict with
  | nil => simp [Dict.hasKey]
  | cons head rest inductionHypothesis =>
      obtain ⟨field, old⟩ := head
      by_cases here : field = key
      · subst here
        by_cases asked : name = field <;>
          simp [lookup_cons_ite, inductionHypothesis, Dict.hasKey, asked]
      · by_cases asked : name = field
        · subst asked
          simp [here]
        · have carried : Dict.hasKey ((field, old) :: rest) key = Dict.hasKey rest key := by
            rw [Dict.hasKey, Dict.hasKey, lookup_cons_ite, if_neg (Ne.symm here)]
          simp [lookup_cons_ite, inductionHypothesis, carried, here, asked]

theorem Dict.lookup_set (dict : Dict) (key name : Str) (value : Json) :
    (dict.set key value).lookup name = if name = key then some value else dict.lookup name := by
  unfold Dict.set
  by_cases present : dict.hasKey key = true
  · simp [present, Dict.lookup_overwrite]
  · have absent : dict.lookup key = none := by
      rwa [Dict.hasKey, Bool.not_eq_true, Option.isSome_eq_false_iff, Option.isNone_iff_eq_none]
        at present
    rw [if_neg present, List.lookup_append]
    by_cases asked : name = key
    · subst asked
      simp [absent]
    · simp [lookup_cons_ite, asked]

@[simp] theorem Dict.get_set_self (dict : Dict) (key : Str) (value : Json) :
    (dict.set key value).get key = value := by
  simp [Dict.get, Dict.lookup_set]

theorem Dict.get_set_of_ne {dict : Dict} {key name : Str} {value : Json} (other : name ≠ key) :
    (dict.set key value).get name = dict.get name := by
  simp [Dict.get, Dict.lookup_set, other]

/-- Python truthiness. -/
def Json.truthy : Json → Bool
  | .null => false
  | .bool value => value
  | .int value => value != 0
  | .float (.finite mantissa _) => mantissa != 0
  | .float (.infinite _) => true
  | .str value => !value.isEmpty
  | .list items => !items.isEmpty
  | .dict fields => !fields.isEmpty

/-- `left or right`. -/
def Json.orElse (left right : Json) : Json := if left.truthy then left else right

/-- The value itself when it is a dict, and an empty dict otherwise. -/
def Json.dictOrEmpty : Json → Dict
  | .dict fields => fields
  | _ => []

/-- The value itself when it is a list, and an empty list otherwise. -/
def Json.listOrEmpty : Json → List Json
  | .list items => items
  | _ => []

/-- Decimal digits of a natural number. -/
def natText (value : Nat) : Str := (Nat.toDigits 10 value).map Char.toNat

/-- `str(value or "")`.  The projections call it on scalars; the accepted schema leaves no list,
dict or float in such a place, and for those the text is not modelled. -/
def Json.textOrEmpty : Json → Str
  | .str value => value
  | .int value =>
      if value = 0 then [] else if value < 0 then 0x2d :: natText value.natAbs
      else natText value.natAbs
  | .bool true => "True"
  | .null | .bool false | .float _ | .list _ | .dict _ => []

@[simp] theorem Json.textOrEmpty_str (value : Str) : (Json.str value).textOrEmpty = value := rfl

@[simp] theorem Json.textOrEmpty_null : Json.null.textOrEmpty = [] := rfl

/-! ### Numbers -/

/-- Divide and round half to even. -/
def roundHalfEven (numerator denominator : Nat) : Nat :=
  let quotient := numerator / denominator
  let remainder := numerator % denominator
  if 2 * remainder < denominator then quotient
  else if denominator < 2 * remainder then quotient + 1
  else if quotient % 2 = 0 then quotient else quotient + 1

/-- The nearest double to `numerator / denominator`, ties to even, with overflow to infinity. -/
def nearestDouble (negative : Bool) (numerator denominator : Nat) : PyFloat :=
  if numerator = 0 then .finite 0 0
  else
    let guess : Int := (numerator.log2 : Int) - denominator.log2
    let reaches : Bool :=
      if 0 ≤ guess then denominator * 2 ^ guess.natAbs ≤ numerator
      else denominator ≤ numerator * 2 ^ guess.natAbs
    let binade := if reaches then guess else guess - 1
    let exponent := max (binade - 52) (-1074)
    let mantissa :=
      if 0 ≤ exponent then roundHalfEven numerator (denominator * 2 ^ exponent.natAbs)
      else roundHalfEven (numerator * 2 ^ exponent.natAbs) denominator
    if 1024 ≤ binade || (exponent = 971 && mantissa = 2 ^ 53) then .infinite negative
    else .finite (if negative then -(mantissa : Int) else mantissa) exponent

/-- An ASCII decimal digit. -/
def isDigit (char : Nat) : Bool := 0x30 ≤ char && char ≤ 0x39

/-- The number a digit string denotes. -/
def digitsValue (digits : Str) : Nat :=
  digits.foldl (fun value digit => value * 10 + (digit - 0x30)) 0

/-- CPython's default `int_max_str_digits`: `int(text)` raises `ValueError` past it. -/
def intMaxStrDigits : Nat := 4300

/-- `float(text)` of a decimal literal, split into its parts. -/
def floatOfParts (negative : Bool) (whole fraction : Str) (exponent : Int) : PyFloat :=
  let digits := digitsValue (whole ++ fraction)
  let scale := exponent - fraction.length
  if 0 ≤ scale then nearestDouble negative (digits * 10 ^ scale.natAbs) 1
  else nearestDouble negative digits (10 ^ scale.natAbs)

/-- The optional fraction `(\.\d+)?` at the head of the text. -/
def scanFraction : Str → Str × Str
  | [] => ([], [])
  | char :: rest =>
      let digits := rest.takeWhile isDigit
      if char = 0x2e ∧ digits ≠ [] then (digits, rest.dropWhile isDigit)
      else ([], char :: rest)

/-- The optional exponent `([eE][-+]?\d+)?` at the head of the text. -/
def scanExponent : Str → Option Int × Str
  | [] => (none, [])
  | char :: rest =>
      if char = 0x65 ∨ char = 0x45 then
        let signed := rest.head? = some 0x2b ∨ rest.head? = some 0x2d
        let unsigned := if signed then rest.tail else rest
        let digits := unsigned.takeWhile isDigit
        if digits = [] then (none, char :: rest)
        else
          let value : Int := digitsValue digits
          (some (if rest.head? = some 0x2d then -value else value), unsigned.dropWhile isDigit)
      else (none, char :: rest)

/-- The whole part `(0|[1-9]\d*)`, or nothing. -/
def scanWhole (text : Str) : Str × Str :=
  if text.head? = some 0x30 then ([0x30], text.tail)
  else (text.takeWhile isDigit, text.dropWhile isDigit)

/-- A JSON number at the head of the text. -/
def scanNumber (text : Str) : Option (Json × Str) :=
  let negative := text.head? = some 0x2d
  let (whole, afterWhole) := scanWhole (if negative then text.tail else text)
  if whole = [] then none
  else
    let (fraction, afterFraction) := scanFraction afterWhole
    let (exponent, rest) := scanExponent afterFraction
    if fraction = [] ∧ exponent = none then
      if intMaxStrDigits < whole.length then none
      else
        let value : Int := digitsValue whole
        some (.int (if negative then -value else value), rest)
    else some (.float (floatOfParts negative whole fraction (exponent.getD 0)), rest)

/-! ### Strings -/

/-- The value of one hexadecimal digit. -/
def hexValue (char : Nat) : Option Nat :=
  if isDigit char then some (char - 0x30)
  else if 0x41 ≤ char ∧ char ≤ 0x46 then some (char - 0x41 + 10)
  else if 0x61 ≤ char ∧ char ≤ 0x66 then some (char - 0x61 + 10)
  else none

/-- The number a hexadecimal text denotes. -/
def hexNumber (digits : Str) : Nat :=
  digits.foldl (fun value digit => value * 16 + (hexValue digit).getD 0) 0

/-- The value of the four digits of a `\u` escape. -/
def hexQuad (a b c d : Nat) : Option Nat := do
  let a ← hexValue a
  let b ← hexValue b
  let c ← hexValue c
  let d ← hexValue d
  pure (((a * 16 + b) * 16 + c) * 16 + d)

/-- The one-character escapes. -/
def simpleEscape (char : Nat) : Option Nat :=
  if char = 0x22 ∨ char = 0x5c ∨ char = 0x2f then some char
  else if char = 0x62 then some 0x08
  else if char = 0x66 then some 0x0c
  else if char = 0x6e then some 0x0a
  else if char = 0x72 then some 0x0d
  else if char = 0x74 then some 0x09
  else none

/-- Scan to the closing quote.  Each unit keeps whether it came from a `\u` escape, since only two
escapes in a row can join into one code point. -/
def scanString : Str → Option (List (Bool × Nat) × Str)
  | [] => none
  | char :: rest =>
      if char = 0x22 then some ([], rest)
      else if char < 0x20 then none
      else if char ≠ 0x5c then
        (scanString rest).map fun scanned => ((false, char) :: scanned.1, scanned.2)
      else
        match rest with
        | [] => none
        | escape :: afterEscape =>
            if escape = 0x75 then
              match afterEscape with
              | a :: b :: c :: d :: afterQuad =>
                  match hexQuad a b c d with
                  | none => none
                  | some unit =>
                      (scanString afterQuad).map fun scanned =>
                        ((true, unit) :: scanned.1, scanned.2)
              | _ => none
            else
              match simpleEscape escape with
              | none => none
              | some unit =>
                  (scanString afterEscape).map fun scanned =>
                    ((false, unit) :: scanned.1, scanned.2)

/-- Join each escaped high surrogate with the escaped low surrogate right after it. -/
def joinSurrogates : List (Bool × Nat) → Str
  | [] => []
  | [(_, unit)] => [unit]
  | (escaped, unit) :: (escapedNext, next) :: rest =>
      if escaped ∧ escapedNext ∧ 0xD800 ≤ unit ∧ unit ≤ 0xDBFF ∧ 0xDC00 ≤ next ∧ next ≤ 0xDFFF then
        (0x10000 + (unit - 0xD800) * 0x400 + (next - 0xDC00)) :: joinSurrogates rest
      else unit :: joinSurrogates ((escapedNext, next) :: rest)

/-! ### The decoder -/

/-- JSON whitespace, which is not `str.isspace`. -/
def isJsonSpace (char : Nat) : Bool :=
  char == 0x20 || char == 0x09 || char == 0x0a || char == 0x0d

/-- Skip JSON whitespace. -/
def skipSpace (text : Str) : Str := text.dropWhile isJsonSpace

/-- Consume a keyword. -/
def scanWord (word : Str) (value : Json) (text : Str) : Option (Json × Str) :=
  if word.isPrefixOf text then some (value, text.drop word.length) else none

mutual

/-- One JSON value at the head of the text.  `parse_constant` rejects `NaN` and the infinities,
and `unique_object` a repeated member, so both are failures here. -/
def scanValue : Nat → Str → Option (Json × Str)
  | 0, _ => none
  | fuel + 1, text =>
      match text with
      | [] => none
      | char :: rest =>
          if char = 0x22 then
            (scanString rest).map fun scanned => (.str (joinSurrogates scanned.1), scanned.2)
          else if char = 0x7b then
            match skipSpace rest with
            | [] => none
            | next :: afterNext =>
                if next = 0x7d then some (.dict [], afterNext)
                else
                  match scanMembers fuel (next :: afterNext) with
                  | none => none
                  | some (fields, remaining) =>
                      if (fields.map Prod.fst).Nodup then some (.dict fields, remaining) else none
          else if char = 0x5b then
            match skipSpace rest with
            | [] => none
            | next :: afterNext =>
                if next = 0x5d then some (.list [], afterNext)
                else (scanItems fuel (next :: afterNext)).map fun scanned =>
                  (.list scanned.1, scanned.2)
          else if char = 0x6e then scanWord "null" .null text
          else if char = 0x74 then scanWord "true" (.bool true) text
          else if char = 0x66 then scanWord "false" (.bool false) text
          else scanNumber text

/-- The items of a non-empty array, through its closing bracket. -/
def scanItems : Nat → Str → Option (List Json × Str)
  | 0, _ => none
  | fuel + 1, text =>
      match scanValue fuel text with
      | none => none
      | some (item, afterItem) =>
          match skipSpace afterItem with
          | [] => none
          | char :: rest =>
              if char = 0x5d then some ([item], rest)
              else if char = 0x2c then
                (scanItems fuel (skipSpace rest)).map fun scanned =>
                  (item :: scanned.1, scanned.2)
              else none

/-- The members of a non-empty object, through its closing brace. -/
def scanMembers : Nat → Str → Option (List (Str × Json) × Str)
  | 0, _ => none
  | fuel + 1, text =>
      match text with
      | [] => none
      | char :: rest =>
          if char ≠ 0x22 then none
          else
            match scanString rest with
            | none => none
            | some (key, afterKey) =>
                match skipSpace afterKey with
                | [] => none
                | colon :: afterColon =>
                    if colon ≠ 0x3a then none
                    else
                      match scanValue fuel (skipSpace afterColon) with
                      | none => none
                      | some (value, afterValue) =>
                          let member := (joinSurrogates key, value)
                          match skipSpace afterValue with
                          | [] => none
                          | next :: afterNext =>
                              if next = 0x7d then some ([member], afterNext)
                              else if next = 0x2c then
                                (scanMembers fuel (skipSpace afterNext)).map fun scanned =>
                                  (member :: scanned.1, scanned.2)
                              else none

end

/-- `json.loads(raw, parse_constant=..., object_pairs_hook=...)`; `none` is any `ValueError`.
Every two levels of recursion consume a character, so the fuel covers every text. -/
def jsonLoads (raw : Str) : Option Json :=
  match scanValue (2 * raw.length + 2) (skipSpace raw) with
  | none => none
  | some (value, rest) => if skipSpace rest = [] then some value else none

/-! ### The nesting guard -/

/-- What `max_json_nesting_depth` keeps between characters. -/
structure NestingScan where
  depth : Nat
  maxDepth : Nat
  inString : Bool
  escaped : Bool

/-- One iteration of the scan. -/
def NestingScan.next (scan : NestingScan) (char : Nat) : NestingScan :=
  if scan.inString then
    if scan.escaped then { scan with escaped := false }
    else if char = 0x5c then { scan with escaped := true }
    else if char = 0x22 then { scan with inString := false }
    else scan
  else if char = 0x22 then { scan with inString := true }
  else if char = 0x5b ∨ char = 0x7b then
    { scan with depth := scan.depth + 1, maxDepth := max scan.maxDepth (scan.depth + 1) }
  else if char = 0x5d ∨ char = 0x7d then { scan with depth := scan.depth - 1 }
  else scan

/-- The maximum bracket nesting depth of a JSON text, brackets in strings ignored. -/
def maxJsonNestingDepth (raw : Str) : Nat :=
  (raw.foldl NestingScan.next ⟨0, 0, false, false⟩).maxDepth

/-- Deeper input is rejected before the decoder sees it. -/
def MAX_JSON_NESTING_DEPTH : Nat := 200

/-- Parse one JSONL line; `none` is the `ValueError` that its caller reads as malformed JSON. -/
def loadsAuditJson (raw : Str) : Option Json :=
  if MAX_JSON_NESTING_DEPTH < maxJsonNestingDepth raw then none else jsonLoads raw

example :
    loadsAuditJson "\x7b\"a\": [1, -2, \"\\ud83d\\ude00\\ud800\"], \"b\": \x7b\"c\": null\x7d\x7d " =
      some (.dict [(lit "a", .list [.int 1, .int (-2), .str [0x1f600, 0xd800]]),
        (lit "b", .dict [(lit "c", .null)])]) := by
  decide +kernel

end Goggles
