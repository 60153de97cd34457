/-
Module: Goggles.Python.Text
Purpose: Python text as the service handles it: strings of code points, whitespace stripping,
  the record split, strict UTF-8, and hexadecimal digits.
Trusted boundary: `str`, `bytes.decode`, `str.encode` and `str.strip` follow CPython's documented
  behaviour
Main exports: Str, lit, strip, splitOn, splitMax, decodeUtf8, encodeUtf8, isHexDigit
-/
import Mathlib.Algebra.Group.Int.Defs
import Mathlib.Algebra.GroupWithZero.Nat
import Mathlib.Data.List.Basic
import Mathlib.Data.List.Lex
import Mathlib.Order.Basic

namespace Goggles

/-- A Python `str`: its code points in order.  Unlike a Lean `String` it may hold an unpaired
surrogate, which `json.loads` produces from an escape such as `"\ud800"`. -/
abbrev Str := List Nat

/-- The bytes of an ASCII literal. -/
def asciiBytes (text : String) : List UInt8 := text.toByteArray.data.toList

/-- A string literal of the source.  Every one of them is ASCII, so its bytes are its code points,
and the kernel reads bytes off a literal faster than characters. -/
def lit (text : String) : Str := (asciiBytes text).map UInt8.toNat

instance : Coe String Str := ⟨lit⟩

instance : LawfulBEq Str := inferInstance

/-! ### Stripping -/

/-- `str.isspace` for one code point, the set `str.strip` removes. -/
def isSpace (char : Nat) : Bool :=
  (9 ≤ char && char ≤ 13) || (0x1c ≤ char && char ≤ 0x20) || char == 0x85 || char == 0xa0 ||
    char == 0x1680 || (0x2000 ≤ char && char ≤ 0x200a) || char == 0x2028 || char == 0x2029 ||
    char == 0x202f || char == 0x205f || char == 0x3000

/-- `text.strip()`. -/
def strip (text : Str) : Str :=
  ((text.dropWhile isSpace).reverse.dropWhile isSpace).reverse

/-! ### The record split -/

/-- `text.split(sep)` for a one-character separator. -/
def splitOn (sep : Nat) : Str → List Str
  | [] => [[]]
  | char :: rest =>
      match splitOn sep rest with
      | [] => [[char]]
      | line :: lines => if char = sep then [] :: line :: lines else (char :: line) :: lines

/-- `text.split(sep, room)` for a one-character separator. -/
def splitMax (sep : Nat) : (room : Nat) → Str → List Str
  | 0, text => [text]
  | room + 1, text =>
      match text.dropWhile (· ≠ sep) with
      | [] => [text]
      | _ :: rest => text.takeWhile (· ≠ sep) :: splitMax sep room rest

theorem splitMax_append {sep : Nat} {head : Str} (plain : sep ∉ head) (room : Nat) (rest : Str) :
    splitMax sep (room + 1) (head ++ sep :: rest) = head :: splitMax sep room rest := by
  have passed : ∀ char ∈ head, decide (char ≠ sep) = true := by
    intro char member
    rw [decide_eq_true_eq]
    rintro rfl
    exact plain member
  rw [splitMax, List.dropWhile_append_of_pos passed, List.takeWhile_append_of_pos passed]
  simp

/-- What was split off, and the rest. -/
theorem splitMax_eq_cons {sep room : Nat} {text head next : Str} {more : List Str}
    (split : splitMax sep (room + 1) text = head :: next :: more) :
    ∃ rest, text = head ++ sep :: rest ∧ sep ∉ head ∧ splitMax sep room rest = next :: more := by
  rw [splitMax] at split
  cases stop : text.dropWhile (· ≠ sep) with
  | nil =>
      rw [stop] at split
      simp at split
  | cons char rest =>
      rw [stop] at split
      obtain ⟨rfl, later⟩ := List.cons.inj split
      have separator : char = sep := by
        have stopped := List.head?_dropWhile_not (fun other : Nat => decide (other ≠ sep)) text
        rw [stop] at stopped
        simpa using stopped
      refine ⟨rest, ?_, ?_, later⟩
      · rw [← separator] at stop ⊢
        rw [← stop, List.takeWhile_append_dropWhile]
      · intro member
        have kept := List.all_eq_true.mp List.all_takeWhile sep member
        simp at kept

/-! ### UTF-8 -/

/-- What a UTF-8 decoder still owes: continuation bytes, the code point so far, and the range the
next byte must lie in. -/
structure Utf8Pending where
  owed : Nat
  codePoint : Nat
  low : Nat
  high : Nat

/-- The pending state after the first byte of a multi-byte sequence. -/
def utf8Lead (byte : Nat) : Option Utf8Pending :=
  if 0xC2 ≤ byte ∧ byte ≤ 0xDF then some ⟨1, byte - 0xC0, 0x80, 0xBF⟩
  else if byte = 0xE0 then some ⟨2, 0, 0xA0, 0xBF⟩
  else if byte = 0xED then some ⟨2, 0xD, 0x80, 0x9F⟩
  else if 0xE1 ≤ byte ∧ byte ≤ 0xEF then some ⟨2, byte - 0xE0, 0x80, 0xBF⟩
  else if byte = 0xF0 then some ⟨3, 0, 0x90, 0xBF⟩
  else if 0xF1 ≤ byte ∧ byte ≤ 0xF3 then some ⟨3, byte - 0xF0, 0x80, 0xBF⟩
  else if byte = 0xF4 then some ⟨3, 4, 0x80, 0x8F⟩
  else none

/-- Decode from a pending state; `none` is `UnicodeDecodeError`. -/
def decodeUtf8From : Option Utf8Pending → List UInt8 → Option Str
  | none, [] => some []
  | some _, [] => none
  | none, byte :: rest =>
      if byte.toNat < 0x80 then (decodeUtf8From none rest).map (byte.toNat :: ·)
      else
        match utf8Lead byte.toNat with
        | none => none
        | some pending => decodeUtf8From (some pending) rest
  | some pending, byte :: rest =>
      if pending.low ≤ byte.toNat ∧ byte.toNat ≤ pending.high then
        let codePoint := pending.codePoint * 64 + (byte.toNat - 0x80)
        if pending.owed ≤ 1 then (decodeUtf8From none rest).map (codePoint :: ·)
        else decodeUtf8From (some ⟨pending.owed - 1, codePoint, 0x80, 0xBF⟩) rest
      else none

/-- `data.decode("utf-8")`. -/
def decodeUtf8 (data : List UInt8) : Option Str := decodeUtf8From none data

/-- The UTF-8 bytes of one code point. -/
def encodeCodePoint (char : Nat) : List UInt8 :=
  if char < 0x80 then [.ofNat char]
  else if char < 0x800 then [.ofNat (0xC0 + char / 64), .ofNat (0x80 + char % 64)]
  else if char < 0x10000 then
    [.ofNat (0xE0 + char / 4096), .ofNat (0x80 + char / 64 % 64), .ofNat (0x80 + char % 64)]
  else
    [.ofNat (0xF0 + char / 262144), .ofNat (0x80 + char / 4096 % 64),
      .ofNat (0x80 + char / 64 % 64), .ofNat (0x80 + char % 64)]

/-- `text.encode("utf-8")` for text without unpaired surrogates, which is all the service
encodes: it only encodes what it decoded. -/
def encodeUtf8 (text : Str) : List UInt8 := text.flatMap encodeCodePoint

/-- The surrogate code points, which neither UTF-8 nor a PostgreSQL text column can hold alone. -/
def isSurrogate (char : Nat) : Bool := 0xD800 ≤ char && char ≤ 0xDFFF

/-- `text.encode("utf-8")`, which raises at an unpaired surrogate. -/
def encodeStrict (text : Str) : Option (List UInt8) :=
  if text.any isSurrogate then none else some (encodeUtf8 text)

/-- Only ASCII encodes as ASCII. -/
theorem encodeCodePoint_ascii {char : Nat}
    (ascii : ∀ byte ∈ encodeCodePoint char, byte.toNat < 0x80) : char < 0x80 := by
  unfold encodeCodePoint at ascii
  split at ascii
  · assumption
  · -- the last byte of a longer sequence is a continuation byte
    have last := ascii (.ofNat (0x80 + char % 64)) (by split <;> [skip; split] <;> simp)
    simp only [UInt8.toNat_ofNat'] at last
    omega

theorem encodeUtf8_of_ascii {text : Str} (ascii : ∀ char ∈ text, char < 0x80) :
    encodeUtf8 text = text.map UInt8.ofNat := by
  induction text with
  | nil => rfl
  | cons char rest inductionHypothesis =>
      rw [encodeUtf8, List.flatMap_cons, encodeCodePoint, if_pos (ascii char List.mem_cons_self)]
      exact congrArg (_ :: ·) (inductionHypothesis fun other member =>
        ascii other (List.mem_cons_of_mem char member))

/-- Text that encodes as some ASCII text is that text. -/
theorem eq_of_encodeUtf8_eq_ascii {text other : Str} (ascii : ∀ char ∈ other, char < 0x80)
    (same : encodeUtf8 text = encodeUtf8 other) : text = other := by
  have small : ∀ byte ∈ encodeUtf8 other, byte.toNat < 0x80 := by
    rw [encodeUtf8_of_ascii ascii]
    intro byte member
    obtain ⟨char, charMember, rfl⟩ := List.mem_map.mp member
    have bound := ascii char charMember
    rw [UInt8.toNat_ofNat']
    omega
  have asciiText : ∀ char ∈ text, char < 0x80 := fun char member =>
    encodeCodePoint_ascii fun byte byteMember =>
      small byte (same ▸ List.mem_flatMap.mpr ⟨char, member, byteMember⟩)
  rw [encodeUtf8_of_ascii ascii, encodeUtf8_of_ascii asciiText] at same
  have back : ∀ list : Str, (∀ char ∈ list, char < 0x80) →
      (list.map UInt8.ofNat).map UInt8.toNat = list := by
    intro list bounded
    rw [List.map_map]
    refine (List.map_congr_left fun char member => ?_).trans (List.map_id list)
    have bound := bounded char member
    rw [Function.comp_apply, UInt8.toNat_ofNat']
    exact Nat.mod_eq_of_lt (by omega)
  rw [← back text asciiText, same, back other ascii]

/-! ### Hexadecimal digits -/

/-- The character class `[0-9A-Fa-f]`. -/
def isHexDigit (char : Nat) : Bool :=
  (0x30 ≤ char && char ≤ 0x39) || (0x41 ≤ char && char ≤ 0x46) || (0x61 ≤ char && char ≤ 0x66)

/-- The character class `[0-9a-f]`. -/
def isLowerHexDigit (char : Nat) : Bool :=
  (0x30 ≤ char && char ≤ 0x39) || (0x61 ≤ char && char ≤ 0x66)

/-- `str.lower` on ASCII letters. -/
def asciiLower (char : Nat) : Nat := if 0x41 ≤ char ∧ char ≤ 0x5A then char + 32 else char

end Goggles
