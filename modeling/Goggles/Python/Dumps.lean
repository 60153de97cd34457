/-
Module: Goggles.Python.Dumps
Purpose: The texts `json.dumps` writes.
Trusted boundary: CPython's `json` module.  `float.__repr__` is a parameter.  The sign of a zero is
  not kept by `PyFloat`, and an infinity is left to the parameter
Main exports: jsonQuote, jsonQuoteUnicode, jsonDumps
-/
import Goggles.Library.Replay
import Goggles.Python.Json

namespace Goggles

/-! ### Strings -/

/-- One lower-case hexadecimal digit. -/
def hexDigit (value : Nat) : Nat := if value < 10 then 0x30 + value else 0x61 + (value - 10)

/-- The escape of one UTF-16 unit. -/
def unitEscape (unit : Nat) : Str :=
  lit "\\u" ++ [hexDigit (unit / 4096 % 16), hexDigit (unit / 256 % 16), hexDigit (unit / 16 % 16),
    hexDigit (unit % 16)]

/-- The one-character escapes that `json.dumps` uses. -/
def shortEscape (char : Nat) : Option Str :=
  if char = 0x22 then some (lit "\\\"")
  else if char = 0x5c then some (lit "\\\\")
  else if char = 0x0a then some (lit "\\n")
  else if char = 0x0d then some (lit "\\r")
  else if char = 0x09 then some (lit "\\t")
  else if char = 0x0c then some (lit "\\f")
  else if char = 0x08 then some (lit "\\b")
  else none

/-- One character under `ensure_ascii=True`. -/
def escapeAscii (char : Nat) : Str :=
  match shortEscape char with
  | some escape => escape
  | none =>
      if 0x20 ≤ char ∧ char ≤ 0x7e then [char]
      else if char < 0x10000 then unitEscape char
      else unitEscape (0xD800 + (char - 0x10000) / 0x400) ++
        unitEscape (0xDC00 + (char - 0x10000) % 0x400)

/-- One character under `ensure_ascii=False`. -/
def escapeUnicode (char : Nat) : Str :=
  match shortEscape char with
  | some escape => escape
  | none => if char < 0x20 then unitEscape char else [char]

/-- `json.dumps(text)`. -/
def jsonQuote (text : Str) : Str := 0x22 :: text.flatMap escapeAscii ++ [0x22]

/-- `json.dumps(text, ensure_ascii=False)`. -/
def jsonQuoteUnicode (text : Str) : Str := 0x22 :: text.flatMap escapeUnicode ++ [0x22]

example : jsonQuote [0x61, 0x22, 0x0a, 0x1f600, 0xe9] = lit "\"a\\\"\\n\\ud83d\\ude00\\u00e9\"" := by
  decide +kernel

/-! ### Values -/

/-- `int.__repr__`, which raises a `ValueError` past the limit on digits. -/
def intText (value : Int) : Option Str :=
  let digits := natText value.natAbs
  if intMaxStrDigits < digits.length then none
  else some (if value < 0 then 0x2d :: digits else digits)

/-- Texts with commas between them. -/
def commaJoin (texts : List Str) : Str := List.intercalate [0x2c] texts

/-- A member of an object. -/
def memberText (member : Str × Str) : Str := jsonQuote member.1 ++ 0x3a :: member.2

section Dumps

variable (floatRepr : PyFloat → Str)

mutual

/-- `json.dumps(value, separators=(",", ":"), sort_keys=True, ensure_ascii=True)`; `none` is a
`ValueError`. -/
def jsonDumps : Json → Option Str
  | .null => some (lit "null")
  | .bool true => some (lit "true")
  | .bool false => some (lit "false")
  | .int value => intText value
  | .float value => some (floatRepr value)
  | .str text => some (jsonQuote text)
  | .list items => (dumpItems items).map fun texts => 0x5b :: commaJoin texts ++ [0x5d]
  | .dict fields => (dumpFields fields).map fun members =>
      0x7b :: commaJoin ((inOrder Prod.fst members).map memberText) ++ [0x7d]

/-- The texts of the items of a list. -/
def dumpItems : List Json → Option (List Str)
  | [] => some []
  | item :: rest => do
      let text ← jsonDumps item
      let texts ← dumpItems rest
      return text :: texts

/-- The keys of a dict, each with the text of its value. -/
def dumpFields : List (Str × Json) → Option (List (Str × Str))
  | [] => some []
  | (key, value) :: rest => do
      let text ← jsonDumps value
      let members ← dumpFields rest
      return (key, text) :: members

end

end Dumps

example : jsonDumps (fun _ => []) (.dict [(lit "b", .list [.int (-12), .null]),
    (lit "a", .bool true)]) = some (lit "\x7b\"a\":true,\"b\":[-12,null]\x7d") := by
  decide +kernel

end Goggles
