/-
Module: Goggles.Python.Utf8
Purpose: What UTF-8 decodes to: text without surrogates, whose encoding is what was decoded.
Trusted boundary: none beyond the modules it imports
Main exports: IsScalar, decodeUtf8_spec
-/
import Goggles.Python.Text

namespace Goggles

/-- A Unicode scalar value. -/
def IsScalar (char : Nat) : Prop := char < 0x110000 ∧ isSurrogate char = false

/-- The first byte of a sequence of some bytes, and what it leaves to the next. -/
inductive IsLead (byte : Nat) : Utf8Pending → Prop where
  | two (least : 0xC2 ≤ byte) (most : byte ≤ 0xDF) : IsLead byte ⟨1, byte - 0xC0, 0x80, 0xBF⟩
  | three {low high : Nat} (least : 0xE0 ≤ byte) (most : byte ≤ 0xEF) (above : 0x80 ≤ low)
      (below : high ≤ 0xBF) (long : byte = 0xE0 → 0xA0 ≤ low)
      (scalar : byte = 0xED → high ≤ 0x9F) : IsLead byte ⟨2, byte - 0xE0, low, high⟩
  | four {low high : Nat} (least : 0xF0 ≤ byte) (most : byte ≤ 0xF4) (above : 0x80 ≤ low)
      (below : high ≤ 0xBF) (long : byte = 0xF0 → 0x90 ≤ low)
      (scalar : byte = 0xF4 → high ≤ 0x8F) : IsLead byte ⟨3, byte - 0xF0, low, high⟩

theorem isLead_of_utf8Lead {byte : Nat} {pending : Utf8Pending}
    (found : utf8Lead byte = some pending) : IsLead byte pending := by
  unfold utf8Lead at found
  split at found
  · next range =>
      cases found
      exact .two range.1 range.2
  split at found
  · next same =>
      cases found
      subst same
      exact .three (by omega) (by omega) (by omega) (by omega) (by omega) (by omega)
  split at found
  · next same =>
      cases found
      subst same
      exact .three (by omega) (by omega) (by omega) (by omega) (by omega) (by omega)
  split at found
  · next range =>
      cases found
      exact .three (by omega) (by omega) (by omega) (by omega) (by omega) (by omega)
  split at found
  · next same =>
      cases found
      subst same
      exact .four (by omega) (by omega) (by omega) (by omega) (by omega) (by omega)
  split at found
  · next range =>
      cases found
      exact .four (by omega) (by omega) (by omega) (by omega) (by omega) (by omega)
  split at found
  · next same =>
      cases found
      subst same
      exact .four (by omega) (by omega) (by omega) (by omega) (by omega) (by omega)
  · cases found

/-- A pending character takes a byte. -/
theorem decodeUtf8From_pending {owed codePoint low high : Nat} {data : List UInt8} {text : Str}
    (decoded : decodeUtf8From (some ⟨owed, codePoint, low, high⟩) data = some text) :
    ∃ byte rest, data = byte :: rest ∧ low ≤ byte.toNat ∧ byte.toNat ≤ high ∧
      (if owed ≤ 1 then ∃ more, decodeUtf8From none rest = some more ∧
          text = (codePoint * 64 + (byte.toNat - 0x80)) :: more
        else decodeUtf8From
          (some ⟨owed - 1, codePoint * 64 + (byte.toNat - 0x80), 0x80, 0xBF⟩) rest = some text) := by
  cases data with
  | nil => cases decoded
  | cons byte rest =>
      rw [decodeUtf8From] at decoded
      split at decoded
      · next range =>
          refine ⟨byte, rest, rfl, range.1, range.2, ?_⟩
          dsimp only at decoded
          split at decoded
          · next last =>
              obtain ⟨more, later, rfl⟩ := Option.map_eq_some_iff.mp decoded
              rw [if_pos last]
              exact ⟨more, later, rfl⟩
          · next owes =>
              rw [if_neg owes]
              exact decoded
      · cases decoded

theorem ofNat_eq {byte : UInt8} {value : Nat} (same : value = byte.toNat) :
    UInt8.ofNat value = byte := by
  rw [same, UInt8.ofNat_toNat]

theorem isScalar_of_bounds {char : Nat} (small : char < 0x110000)
    (apart : char < 0xD800 ∨ 0xDFFF < char) : IsScalar char := by
  refine ⟨small, ?_⟩
  rw [isSurrogate, Bool.and_eq_false_iff, decide_eq_false_iff_not, decide_eq_false_iff_not]
  omega

/-- The first character of decoded bytes, and the bytes it was decoded from. -/
theorem decodeUtf8From_cons {byte : UInt8} {rest : List UInt8} {text : Str}
    (decoded : decodeUtf8From none (byte :: rest) = some text) :
    ∃ char more later, IsScalar char ∧ text = char :: more ∧ later.length ≤ rest.length ∧
      byte :: rest = encodeCodePoint char ++ later ∧ decodeUtf8From none later = some more := by
  rw [decodeUtf8From] at decoded
  split at decoded
  · next ascii =>
      obtain ⟨more, later, rfl⟩ := Option.map_eq_some_iff.mp decoded
      refine ⟨_, more, rest, isScalar_of_bounds (by omega) (by omega), rfl, le_rfl, ?_, later⟩
      rw [encodeCodePoint, if_pos ascii, UInt8.ofNat_toNat, List.singleton_append]
  · split at decoded
    · cases decoded
    · next pending found =>
        cases isLead_of_utf8Lead found with
        | two least most =>
            obtain ⟨second, rest, rfl, above, below, decoded⟩ := decodeUtf8From_pending decoded
            rw [if_pos le_rfl] at decoded
            obtain ⟨more, later, rfl⟩ := decoded
            refine ⟨_, more, rest, isScalar_of_bounds (by omega) (by omega), rfl, by simp, ?_, later⟩
            rw [encodeCodePoint, if_neg (by omega), if_pos (by omega), @ofNat_eq byte,
              @ofNat_eq second]
            · rfl
            · omega
            · omega
        | three least most above below long scalar =>
            obtain ⟨second, rest, rfl, low, high, decoded⟩ := decodeUtf8From_pending decoded
            rw [if_neg (by omega)] at decoded
            obtain ⟨third, rest, rfl, lowThird, highThird, decoded⟩ :=
              decodeUtf8From_pending decoded
            rw [if_pos le_rfl] at decoded
            obtain ⟨more, later, rfl⟩ := decoded
            have apart : byte.toNat = 0xE0 ∨ byte.toNat = 0xED ∨
                byte.toNat ≠ 0xE0 ∧ byte.toNat ≠ 0xED := by omega
            have shorter : rest.length ≤ (second :: third :: rest).length := by
              simp only [List.length_cons]
              omega
            refine ⟨_, more, rest, isScalar_of_bounds (by omega) (by omega), rfl, shorter, ?_, later⟩
            rw [encodeCodePoint, if_neg (by omega), if_neg (by omega), if_pos (by omega),
              @ofNat_eq byte, @ofNat_eq second, @ofNat_eq third]
            · rfl
            · omega
            · omega
            · omega
        | four least most above below long scalar =>
            obtain ⟨second, rest, rfl, low, high, decoded⟩ := decodeUtf8From_pending decoded
            rw [if_neg (by omega)] at decoded
            obtain ⟨third, rest, rfl, lowThird, highThird, decoded⟩ :=
              decodeUtf8From_pending decoded
            rw [if_neg (by omega)] at decoded
            obtain ⟨fourth, rest, rfl, lowFourth, highFourth, decoded⟩ :=
              decodeUtf8From_pending decoded
            rw [if_pos le_rfl] at decoded
            obtain ⟨more, later, rfl⟩ := decoded
            have shorter : rest.length ≤ (second :: third :: fourth :: rest).length := by
              simp only [List.length_cons]
              omega
            refine ⟨_, more, rest, isScalar_of_bounds (by omega) (by omega), rfl, shorter, ?_, later⟩
            rw [encodeCodePoint, if_neg (by omega), if_neg (by omega), if_neg (by omega),
              @ofNat_eq byte, @ofNat_eq second, @ofNat_eq third,
              @ofNat_eq fourth]
            · rfl
            · omega
            · omega
            · omega
            · omega

/-- Decoded bytes are the encoding of scalar values. -/
theorem decodeUtf8_spec {data : List UInt8} {text : Str} (decoded : decodeUtf8 data = some text) :
    encodeUtf8 text = data ∧ ∀ char ∈ text, IsScalar char := by
  unfold decodeUtf8 at decoded
  induction size : data.length using Nat.strong_induction_on generalizing data text with
  | h length inductionHypothesis =>
      cases data with
      | nil =>
          cases decoded
          exact ⟨rfl, nofun⟩
      | cons byte rest =>
          obtain ⟨char, more, later, scalar, rfl, shorter, split, decodedLater⟩ :=
            decodeUtf8From_cons decoded
          have fewer : later.length < length := by
            rw [List.length_cons] at size
            omega
          obtain ⟨encoded, scalars⟩ := inductionHypothesis _ fewer decodedLater rfl
          constructor
          · rw [split, ← encoded]
            rfl
          · intro other member
            rcases List.mem_cons.mp member with rfl | inside
            · exact scalar
            · exact scalars other inside

end Goggles
