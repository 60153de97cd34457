/-
Module: Goggles.Python.RoundTrip
Purpose: What `json.loads` reads from the texts that `json.dumps` writes: the value, with the
  members of its objects in the order of their keys.
Trusted boundary: none beyond the modules it imports
Main exports: reloadText, Json.reload, Readable, ReadBack, scanItems_of_readBack,
  scanMembers_of_readBack, readBack_of_jsonDumps, jsonLoads_of_readBack
-/
import Goggles.Python.Dumps

namespace Goggles

/-! ### Strings -/

/-- The units a decoder makes of the text of a character. -/
def charUnits (char : Nat) : List (Bool × Nat) :=
  if (shortEscape char).isSome ∨ 0x20 ≤ char ∧ char ≤ 0x7e then [(false, char)]
  else if char < 0x10000 then [(true, char)]
  else
    [(true, (0xD800 + (char - 0x10000) / 0x400) % 0x10000),
      (true, 0xDC00 + (char - 0x10000) % 0x400)]

/-- A string as it is read back. -/
def reloadText (text : Str) : Str := joinSurrogates (text.flatMap charUnits)

theorem hexValue_hexDigit {value : Nat} (small : value < 16) :
    hexValue (hexDigit value) = some value := by
  have digits : ∀ value < 16, hexValue (hexDigit value) = some value := by decide
  exact digits value small

theorem hexQuad_unitEscape (unit : Nat) :
    hexQuad (hexDigit (unit / 4096 % 16)) (hexDigit (unit / 256 % 16)) (hexDigit (unit / 16 % 16))
      (hexDigit (unit % 16)) = some (unit % 0x10000) := by
  have small : ∀ value, value % 16 < 16 := fun value => Nat.mod_lt value (by decide)
  rw [hexQuad, hexValue_hexDigit (small _), hexValue_hexDigit (small _),
    hexValue_hexDigit (small _), hexValue_hexDigit (small _)]
  simp only [Option.bind_eq_bind, Option.bind_some, Option.pure_def, Option.some.injEq]
  omega

theorem scanString_unitEscape (unit : Nat) (rest : Str) :
    scanString (unitEscape unit ++ rest) =
      (scanString rest).map fun scanned => ((true, unit % 0x10000) :: scanned.1, scanned.2) := by
  have opening : unitEscape unit ++ rest = 0x5c :: 0x75 :: hexDigit (unit / 4096 % 16) ::
      hexDigit (unit / 256 % 16) :: hexDigit (unit / 16 % 16) :: hexDigit (unit % 16) :: rest := by
    have escape : lit "\\u" = [0x5c, 0x75] := by decide
    rw [unitEscape, escape]
    rfl
  rw [opening, scanString.eq_def]
  simp only [hexQuad_unitEscape]
  rfl

theorem scanString_shortEscape {char : Nat} {escape : Str} (short : shortEscape char = some escape)
    (rest : Str) : scanString (escape ++ rest) =
      (scanString rest).map fun scanned => ((false, char) :: scanned.1, scanned.2) := by
  have two : ∃ letter, escape = [0x5c, letter] ∧ letter ≠ 0x75 ∧ simpleEscape letter = some char := by
    unfold shortEscape at short
    repeat' split at short
    all_goals
      cases short
      try subst char
      try exact ⟨_, rfl, by decide, by decide⟩
  obtain ⟨letter, rfl, other, unit⟩ := two
  rw [List.cons_append, List.cons_append, List.nil_append, scanString.eq_def]
  simp only [if_neg other, unit]
  rfl

/-- One character is read as its units. -/
theorem scanString_escapeAscii (char : Nat) (rest : Str) :
    scanString (escapeAscii char ++ rest) =
      (scanString rest).map fun scanned => (charUnits char ++ scanned.1, scanned.2) := by
  cases short : shortEscape char with
  | some escape =>
      have units : charUnits char = [(false, char)] := by
        rw [charUnits, short]
        simp
      rw [escapeAscii, short, units]
      exact scanString_shortEscape short rest
  | none =>
      rw [escapeAscii, short, charUnits, short]
      simp only [Option.isSome_none, Bool.false_eq_true, false_or]
      split
      · next plain =>
          have quote : char ≠ 0x22 := by
            rintro rfl
            cases short
          have backslash : char ≠ 0x5c := by
            rintro rfl
            cases short
          rw [List.singleton_append, scanString.eq_def]
          simp only
          rw [if_neg quote, if_neg (by omega), if_pos backslash]
          rfl
      · split
        · next small =>
            rw [scanString_unitEscape, Nat.mod_eq_of_lt small]
            rfl
        · rw [List.append_assoc, scanString_unitEscape, scanString_unitEscape, Option.map_map]
          have low : (0xDC00 + (char - 0x10000) % 0x400) % 0x10000 =
              0xDC00 + (char - 0x10000) % 0x400 := by omega
          rw [low]
          rfl

theorem scanString_jsonQuote (text rest : Str) :
    scanString (text.flatMap escapeAscii ++ 0x22 :: rest) = some (text.flatMap charUnits, rest) := by
  induction text with
  | nil =>
      rw [List.flatMap_nil, List.nil_append, scanString.eq_def]
      rfl
  | cons char more inductionHypothesis =>
      rw [List.flatMap_cons, List.append_assoc, scanString_escapeAscii, inductionHypothesis]
      rfl

/-! ### Numbers -/

/-- What stands behind a value: nothing, or a comma or a closing bracket. -/
def EndsValue (rest : Str) : Prop := ∀ next ∈ rest.head?, next = 0x2c ∨ next = 0x5d ∨ next = 0x7d

theorem natText_eq (value : Nat) : natText value =
    if value < 10 then [0x30 + value] else natText (value / 10) ++ [0x30 + value % 10] := by
  have digit : ∀ value < 10, (Nat.digitChar value).toNat = 0x30 + value := by decide
  rw [natText, Nat.toDigits_eq_if (by decide)]
  split
  · next small =>
      rw [List.map_singleton, digit value small]
  · rw [List.map_append, List.map_singleton, digit _ (Nat.mod_lt value (by decide))]
    rfl

theorem isDigit_natText {value char : Nat} (member : char ∈ natText value) :
    isDigit char = true := by
  induction value using Nat.strong_induction_on with
  | h value inductionHypothesis =>
      rw [natText_eq] at member
      split at member
      · obtain rfl := List.mem_singleton.mp member
        simp [isDigit]
        omega
      · rcases List.mem_append.mp member with early | last
        · exact inductionHypothesis (value / 10) (by omega) early
        · obtain rfl := List.mem_singleton.mp last
          simp [isDigit]
          omega

theorem digitsValue_append (digits : Str) (digit : Nat) :
    digitsValue (digits ++ [digit]) = digitsValue digits * 10 + (digit - 0x30) := by
  rw [digitsValue, List.foldl_append]
  rfl

theorem digitsValue_natText (value : Nat) : digitsValue (natText value) = value := by
  induction value using Nat.strong_induction_on with
  | h value inductionHypothesis =>
      rw [natText_eq]
      split
      · simp [digitsValue]
      · rw [digitsValue_append, inductionHypothesis (value / 10) (by omega)]
        omega

/-- A number is written with its first digit first. -/
theorem natText_cons (value : Nat) : ∃ digit rest, natText value = digit :: rest ∧
    (digit = 0x30 → value = 0 ∧ rest = []) := by
  induction value using Nat.strong_induction_on with
  | h value inductionHypothesis =>
      rw [natText_eq]
      split
      · exact ⟨_, _, rfl, fun zero => ⟨by omega, rfl⟩⟩
      · obtain ⟨digit, rest, split, zero⟩ := inductionHypothesis (value / 10) (by omega)
        rw [split]
        exact ⟨digit, _, rfl, fun same => by have := zero same; omega⟩

theorem EndsValue.not_digit {rest : Str} (ends : EndsValue rest) {next : Nat}
    (first : rest.head? = some next) : isDigit next = false := by
  rcases ends next first with rfl | rfl | rfl <;> rfl

theorem scanWhole_natText (value : Nat) {rest : Str} (ends : EndsValue rest) :
    scanWhole (natText value ++ rest) = (natText value, rest) := by
  obtain ⟨digit, more, split, zero⟩ := natText_cons value
  by_cases same : digit = 0x30
  · obtain ⟨-, rfl⟩ := zero same
    rw [split, same]
    rfl
  · have digits : ∀ char ∈ natText value, isDigit char = true := fun _ => isDigit_natText
    have stop : rest.takeWhile isDigit = [] ∧ rest.dropWhile isDigit = rest := by
      cases rest with
      | nil => exact ⟨rfl, rfl⟩
      | cons next tail =>
          have other := ends.not_digit (rfl : (next :: tail).head? = some next)
          constructor <;> simp [other]
    have head : (natText value ++ rest).head? ≠ some 0x30 := by
      rw [split, List.cons_append, List.head?_cons]
      intro found
      exact same (Option.some.inj found)
    rw [scanWhole, if_neg head, List.takeWhile_append_of_pos digits,
      List.dropWhile_append_of_pos digits, stop.1, stop.2, List.append_nil]

theorem scanFraction_of_ends {rest : Str} (ends : EndsValue rest) :
    scanFraction rest = ([], rest) := by
  cases rest with
  | nil => rfl
  | cons next tail =>
      have other : next ≠ 0x2e := by
        rcases ends next rfl with rfl | rfl | rfl <;> decide
      rw [scanFraction]
      simp [other]

theorem scanExponent_of_ends {rest : Str} (ends : EndsValue rest) :
    scanExponent rest = (none, rest) := by
  cases rest with
  | nil => rfl
  | cons next tail =>
      have other : ¬(next = 0x65 ∨ next = 0x45) := by
        rcases ends next rfl with rfl | rfl | rfl <;> decide
      rw [scanExponent, if_neg other]

/-- An integer is read from its text. -/
theorem scanNumber_intText {value : Int} {text rest : Str} (written : intText value = some text)
    (ends : EndsValue rest) : scanNumber (text ++ rest) = some (.int value, rest) := by
  unfold intText at written
  dsimp only at written
  split at written
  · cases written
  · next small =>
      cases written
      obtain ⟨digit, more, split, -⟩ := natText_cons value.natAbs
      have filled : natText value.natAbs ≠ [] := by
        rw [split]
        exact List.cons_ne_nil _ _
      have digits : isDigit digit = true :=
        @isDigit_natText value.natAbs digit (by rw [split]; exact List.mem_cons_self)
      have unsigned : (natText value.natAbs).head? ≠ some 0x2d := by
        rw [split, List.head?_cons]
        rintro ⟨⟩
        cases digits
      by_cases negative : value < 0
      · have magnitude : -(value.natAbs : Int) = value := by omega
        rw [if_pos negative, scanNumber]
        generalize value.natAbs = size at magnitude small filled ⊢
        simp [scanWhole_natText _ ends, scanFraction_of_ends ends, scanExponent_of_ends ends,
          filled, small, digitsValue_natText, magnitude]
      · have magnitude : (value.natAbs : Int) = value := by omega
        rw [if_neg negative, scanNumber]
        generalize value.natAbs = size at magnitude small filled unsigned ⊢
        simp [unsigned, scanWhole_natText _ ends, scanFraction_of_ends ends,
          scanExponent_of_ends ends, filled, small, digitsValue_natText, magnitude]

/-! ### Values -/

/-- A text is read as a value, whatever ends the value. -/
structure ReadBack (text : Str) (value : Json) : Prop where
  starts : ∃ char more, text = char :: more ∧ isJsonSpace char = false ∧ char ≠ 0x5d
  scans : ∀ fuel rest, text.length < fuel → EndsValue rest →
    scanValue fuel (text ++ rest) = some (value, rest)

theorem skipSpace_cons {char : Nat} (solid : isJsonSpace char = false) (rest : Str) :
    skipSpace (char :: rest) = char :: rest := by
  rw [skipSpace, List.dropWhile_cons_of_neg (by simp [solid])]

theorem ReadBack.skipSpace {text : Str} {value : Json} (reads : ReadBack text value) (rest : Str) :
    Goggles.skipSpace (text ++ rest) = text ++ rest := by
  obtain ⟨char, more, rfl, solid, -⟩ := reads.starts
  exact skipSpace_cons solid (more ++ rest)

theorem endsValue_cons {next : Nat} {rest : Str} (ends : next = 0x2c ∨ next = 0x5d ∨ next = 0x7d) :
    EndsValue (next :: rest) := by
  rintro other ⟨⟩
  exact ends

theorem readBack_null : ReadBack (lit "null") .null where
  starts := ⟨0x6e, lit "ull", by decide, by decide, by decide⟩
  scans fuel rest enough _ := by
    cases fuel with
    | zero => cases enough
    | succ fuel => rfl

theorem readBack_true : ReadBack (lit "true") (.bool true) where
  starts := ⟨0x74, lit "rue", by decide, by decide, by decide⟩
  scans fuel rest enough _ := by
    cases fuel with
    | zero => cases enough
    | succ fuel => rfl

theorem readBack_false : ReadBack (lit "false") (.bool false) where
  starts := ⟨0x66, lit "alse", by decide, by decide, by decide⟩
  scans fuel rest enough _ := by
    cases fuel with
    | zero => cases enough
    | succ fuel => rfl

/-- A text that is neither a word, a string nor a container is a number. -/
theorem scanValue_number {char : Nat} (first : isDigit char = true ∨ char = 0x2d) (fuel : Nat)
    (rest : Str) : scanValue (fuel + 1) (char :: rest) = scanNumber (char :: rest) := by
  have range : 0x30 ≤ char ∧ char ≤ 0x39 ∨ char = 0x2d := by
    simpa [isDigit] using first
  rw [scanValue, if_neg (by omega), if_neg (by omega), if_neg (by omega),
    if_neg (by omega), if_neg (by omega), if_neg (by omega)]

theorem readBack_intText {value : Int} {text : Str} (written : intText value = some text) :
    ReadBack text (.int value) := by
  have opening : ∃ char more, text = char :: more ∧ (isDigit char = true ∨ char = 0x2d) := by
    unfold intText at written
    dsimp only at written
    split at written
    · cases written
    · cases written
      split
      · exact ⟨_, _, rfl, .inr rfl⟩
      · obtain ⟨digit, more, split, -⟩ := natText_cons value.natAbs
        exact ⟨digit, more, split, .inl (@isDigit_natText value.natAbs digit (by simp [split]))⟩
  obtain ⟨char, more, rfl, first⟩ := opening
  have range : 0x30 ≤ char ∧ char ≤ 0x39 ∨ char = 0x2d := by
    simpa [isDigit] using first
  refine ⟨⟨char, more, rfl, ?_, by omega⟩, ?_⟩
  · simp [isJsonSpace]
    omega
  · intro fuel rest enough ends
    cases fuel with
    | zero => cases enough
    | succ fuel =>
        rw [List.cons_append, scanValue_number first]
        exact scanNumber_intText written ends

theorem readBack_jsonQuote (text : Str) : ReadBack (jsonQuote text) (.str (reloadText text)) where
  starts := ⟨0x22, text.flatMap escapeAscii ++ [0x22], rfl, by decide, by decide⟩
  scans fuel rest enough _ := by
    cases fuel with
    | zero => cases enough
    | succ fuel =>
        have opening : jsonQuote text ++ rest =
            0x22 :: (text.flatMap escapeAscii ++ 0x22 :: rest) := by
          simp [jsonQuote]
        rw [opening, scanValue]
        simp [scanString_jsonQuote, reloadText]

/-! ### Lists and objects -/

theorem commaJoin_cons {first : Str} {texts : List Str} (filled : texts ≠ []) :
    commaJoin (first :: texts) = first ++ 0x2c :: commaJoin texts := by
  cases texts with
  | nil => exact absurd rfl filled
  | cons second rest => rfl

/-- Joined texts begin as the first of them does. -/
theorem commaJoin_starts {opening : Nat → Prop} {texts : List Str} (filled : texts ≠ [])
    (starts : ∀ text ∈ texts, ∃ char more, text = char :: more ∧ opening char) :
    ∃ char more, commaJoin texts = char :: more ∧ opening char := by
  cases texts with
  | nil => exact absurd rfl filled
  | cons first rest =>
      obtain ⟨char, more, rfl, opens⟩ := starts first List.mem_cons_self
      by_cases last : rest = []
      · subst last
        exact ⟨char, _, rfl, opens⟩
      · exact ⟨char, _, commaJoin_cons last, opens⟩

/-- The items of an array are read. -/
theorem scanItems_of_readBack {items : List (Str × Json)} (filled : items ≠ [])
    (reads : ∀ item ∈ items, ReadBack item.1 item.2) (fuel : Nat) (rest : Str)
    (enough : (commaJoin (items.map Prod.fst)).length + 1 < fuel) :
    scanItems fuel (commaJoin (items.map Prod.fst) ++ 0x5d :: rest) =
      some (items.map Prod.snd, rest) := by
  induction items generalizing fuel with
  | nil => exact absurd rfl filled
  | cons item more inductionHypothesis =>
      cases fuel with
      | zero => cases enough
      | succ fuel =>
          have first := reads item List.mem_cons_self
          by_cases last : more = []
          · subst last
            have joined : commaJoin ([item].map Prod.fst) = item.1 := List.append_nil _
            rw [joined] at enough ⊢
            rw [scanItems, first.scans fuel _ (by omega) (endsValue_cons (by simp))]
            simp only [skipSpace_cons (by decide : isJsonSpace 0x5d = false)]
            rfl
          · have joined : commaJoin ((item :: more).map Prod.fst) =
                item.1 ++ 0x2c :: commaJoin (more.map Prod.fst) :=
              commaJoin_cons (by simpa using last)
            rw [joined] at enough ⊢
            rw [List.length_append, List.length_cons] at enough
            have later := inductionHypothesis last
              (fun other member => reads other (List.mem_cons_of_mem _ member)) fuel (by omega)
            have starts : ∀ text ∈ more.map Prod.fst, ∃ char tail, text = char :: tail ∧
                isJsonSpace char = false := by
              intro text member
              obtain ⟨other, inside, rfl⟩ := List.mem_map.mp member
              obtain ⟨char, tail, split, solid, -⟩ :=
                (reads other (List.mem_cons_of_mem _ inside)).starts
              exact ⟨char, tail, split, solid⟩
            obtain ⟨char, tail, split, solid⟩ := commaJoin_starts (by simpa using last) starts
            rw [split, List.cons_append] at later
            rw [split, List.append_assoc, List.cons_append, List.cons_append, scanItems,
              first.scans fuel _ (by omega) (endsValue_cons (by simp))]
            simp only [skipSpace_cons (by decide : isJsonSpace 0x2c = false),
              skipSpace_cons solid, later]
            rfl

/-- A member that is written: its key, the text of its value, and the value that is read. -/
structure WrittenMember where
  key : Str
  text : Str
  value : Json

/-- The text of a member. -/
def WrittenMember.written (member : WrittenMember) : Str := memberText (member.key, member.text)

/-- A member as it is read. -/
def WrittenMember.entry (member : WrittenMember) : Str × Json :=
  (reloadText member.key, member.value)

theorem WrittenMember.written_append (member : WrittenMember) (rest : Str) :
    member.written ++ rest =
      0x22 :: (member.key.flatMap escapeAscii ++ 0x22 :: 0x3a :: (member.text ++ rest)) := by
  simp [WrittenMember.written, memberText, jsonQuote]

/-- The members of an object are read. -/
theorem scanMembers_of_readBack {members : List WrittenMember} (filled : members ≠ [])
    (reads : ∀ member ∈ members, ReadBack member.text member.value) (fuel : Nat) (rest : Str)
    (enough : (commaJoin (members.map WrittenMember.written)).length + 1 < fuel) :
    scanMembers fuel (commaJoin (members.map WrittenMember.written) ++ 0x7d :: rest) =
      some (members.map WrittenMember.entry, rest) := by
  induction members generalizing fuel with
  | nil => exact absurd rfl filled
  | cons member more inductionHypothesis =>
      cases fuel with
      | zero => cases enough
      | succ fuel =>
          have first := reads member List.mem_cons_self
          have shorter : member.text.length < member.written.length := by
            have size := congrArg List.length (member.written_append [])
            simp at size
            omega
          by_cases last : more = []
          · subst last
            have joined : commaJoin ([member].map WrittenMember.written) = member.written :=
              List.append_nil _
            rw [joined] at enough ⊢
            have scanned := first.scans fuel (0x7d :: rest) (by omega)
              (endsValue_cons (.inr (.inr rfl)))
            rw [member.written_append, scanMembers]
            simp only [scanString_jsonQuote,
              skipSpace_cons (by decide : isJsonSpace 0x3a = false), first.skipSpace, scanned,
              skipSpace_cons (by decide : isJsonSpace 0x7d = false)]
            rfl
          · have joined : commaJoin ((member :: more).map WrittenMember.written) =
                member.written ++ 0x2c :: commaJoin (more.map WrittenMember.written) :=
              commaJoin_cons (by simpa using last)
            rw [joined] at enough ⊢
            rw [List.length_append, List.length_cons] at enough
            have later := inductionHypothesis last
              (fun other inside => reads other (List.mem_cons_of_mem _ inside)) fuel (by omega)
            have starts : ∀ text ∈ more.map WrittenMember.written, ∃ char tail,
                text = char :: tail ∧ char = 0x22 := by
              intro text inside
              obtain ⟨other, -, rfl⟩ := List.mem_map.mp inside
              have opening := other.written_append []
              rw [List.append_nil] at opening
              exact ⟨_, _, opening, rfl⟩
            obtain ⟨_, tail, split, rfl⟩ := commaJoin_starts (by simpa using last) starts
            rw [split, List.cons_append] at later
            have scanned := first.scans fuel (0x2c :: 0x22 :: (tail ++ 0x7d :: rest)) (by omega)
              (endsValue_cons (.inl rfl))
            rw [split, List.append_assoc, List.cons_append, List.cons_append,
              member.written_append, scanMembers]
            simp only [scanString_jsonQuote,
              skipSpace_cons (by decide : isJsonSpace 0x3a = false), first.skipSpace, scanned,
              skipSpace_cons (by decide : isJsonSpace 0x2c = false),
              skipSpace_cons (by decide : isJsonSpace 0x22 = false), later]
            rfl

/-! ### Whole values -/

mutual

/-- A value as it is read back: the members of its objects are in the order of their keys. -/
def Json.reload : Json → Json
  | .null => .null
  | .bool value => .bool value
  | .int value => .int value
  | .float value => .float value
  | .str text => .str (reloadText text)
  | .list items => .list (reloadItems items)
  | .dict fields =>
      .dict ((inOrder Prod.fst (reloadFields fields)).map fun field =>
        (reloadText field.1, field.2))

/-- The items of a list as they are read back. -/
def reloadItems : List Json → List Json
  | [] => []
  | item :: rest => item.reload :: reloadItems rest

/-- The fields of a dict, each with its value as it is read back. -/
def reloadFields : List (Str × Json) → List (Str × Json)
  | [] => []
  | (key, value) :: rest => (key, value.reload) :: reloadFields rest

end

/-- The members of an object as they are read back. -/
def Dict.reload (fields : Dict) : Dict :=
  (inOrder Prod.fst (reloadFields fields)).map fun field => (reloadText field.1, field.2)

theorem Json.reload_dict (fields : Dict) : (Json.dict fields).reload = .dict fields.reload := rfl

section Readable

variable (floatRepr : PyFloat → Str)

mutual

/-- The texts of the numbers of a value that are not integers are read back as these numbers, and
the keys of its objects are told apart when they are read back. -/
def Readable : Json → Prop
  | .float value => ReadBack (floatRepr value) (.float value)
  | .list items => ItemsReadable items
  | .dict fields => (fields.map fun field => reloadText field.1).Nodup ∧ FieldsReadable fields
  | .null | .bool _ | .int _ | .str _ => True

/-- Every item of a list is readable. -/
def ItemsReadable : List Json → Prop
  | [] => True
  | item :: rest => Readable item ∧ ItemsReadable rest

/-- Every value of a dict is readable. -/
def FieldsReadable : List (Str × Json) → Prop
  | [] => True
  | (_, value) :: rest => Readable value ∧ FieldsReadable rest

end

end Readable

/-- A text in brackets is read as the list of its items. -/
theorem readBack_list {items : List (Str × Json)}
    (reads : ∀ item ∈ items, ReadBack item.1 item.2) :
    ReadBack (0x5b :: commaJoin (items.map Prod.fst) ++ [0x5d]) (.list (items.map Prod.snd)) where
  starts := ⟨0x5b, _, rfl, by decide, by decide⟩
  scans fuel rest enough _ := by
    cases fuel with
    | zero => cases enough
    | succ fuel =>
        by_cases blank : items = []
        · subst blank
          rfl
        · have starts : ∀ text ∈ items.map Prod.fst, ∃ char tail, text = char :: tail ∧
              (isJsonSpace char = false ∧ char ≠ 0x5d) := by
            intro text member
            obtain ⟨item, inside, rfl⟩ := List.mem_map.mp member
            exact (reads item inside).starts
          obtain ⟨char, tail, split, solid, other⟩ := commaJoin_starts (by simpa using blank) starts
          simp only [List.cons_append, List.length_cons, List.length_append] at enough
          have scanned := scanItems_of_readBack blank reads fuel rest (by simpa using enough)
          rw [split, List.cons_append] at scanned
          rw [split, scanValue.eq_def]
          simp only [List.cons_append, List.append_assoc, List.nil_append, skipSpace_cons solid,
            if_neg other, scanned]
          rfl

/-- A text in braces is read as the object of its members. -/
theorem readBack_dict {members : List WrittenMember}
    (reads : ∀ member ∈ members, ReadBack member.text member.value)
    (apart : (members.map fun member => reloadText member.key).Nodup) :
    ReadBack (0x7b :: commaJoin (members.map WrittenMember.written) ++ [0x7d])
      (.dict (members.map WrittenMember.entry)) where
  starts := ⟨0x7b, _, rfl, by decide, by decide⟩
  scans fuel rest enough _ := by
    cases fuel with
    | zero => cases enough
    | succ fuel =>
        by_cases blank : members = []
        · subst blank
          rfl
        · have starts : ∀ text ∈ members.map WrittenMember.written, ∃ char tail,
              text = char :: tail ∧ char = 0x22 := by
            intro text inside
            obtain ⟨member, -, rfl⟩ := List.mem_map.mp inside
            have opening := member.written_append []
            rw [List.append_nil] at opening
            exact ⟨_, _, opening, rfl⟩
          obtain ⟨_, tail, split, rfl⟩ := commaJoin_starts (by simpa using blank) starts
          simp only [List.cons_append, List.length_cons, List.length_append] at enough
          have scanned := scanMembers_of_readBack blank reads fuel rest (by simpa using enough)
          have keys : ((members.map WrittenMember.entry).map Prod.fst).Nodup := by
            rw [List.map_map]
            exact apart
          rw [split, List.cons_append] at scanned
          rw [split, scanValue.eq_def]
          simp only [List.cons_append, List.append_assoc, List.nil_append,
            skipSpace_cons (by decide : isJsonSpace 0x22 = false), scanned, keys]
          rfl

/-- The texts of the fields of a dict, with the values that are read. -/
structure WrittenFields (fields : Dict) (members : List (Str × Str))
    (written : List WrittenMember) : Prop where
  texts : members = written.map fun member => (member.key, member.text)
  values : reloadFields fields = written.map fun member => (member.key, member.value)
  reads : ∀ member ∈ written, ReadBack member.text member.value

theorem WrittenFields.keys {fields : Dict} {members : List (Str × Str)}
    {written : List WrittenMember} (holds : WrittenFields fields members written) :
    fields.map Prod.fst = written.map WrittenMember.key := by
  have kept : ∀ fields : Dict, (reloadFields fields).map Prod.fst = fields.map Prod.fst := by
    intro fields
    induction fields with
    | nil => rfl
    | cons field rest inductionHypothesis =>
        rw [reloadFields, List.map_cons, List.map_cons, inductionHypothesis]
  rw [← kept, holds.values, List.map_map]
  rfl

/-- The members in the order of their keys. -/
def sortedMembers (written : List WrittenMember) : List WrittenMember :=
  inOrder WrittenMember.key written

theorem WrittenFields.sorted_texts {fields : Dict} {members : List (Str × Str)}
    {written : List WrittenMember} (holds : WrittenFields fields members written) :
    (inOrder Prod.fst members).map memberText =
      (sortedMembers written).map WrittenMember.written := by
  have sorted : inOrder Prod.fst members =
      (sortedMembers written).map fun member => (member.key, member.text) := by
    rw [holds.texts]
    exact (map_inOrder Prod.fst (fun member : WrittenMember => (member.key, member.text)) _).symm
  rw [sorted, List.map_map]
  rfl

theorem WrittenFields.sorted_values {fields : Dict} {members : List (Str × Str)}
    {written : List WrittenMember} (holds : WrittenFields fields members written) :
    fields.reload = (sortedMembers written).map WrittenMember.entry := by
  have sorted : inOrder Prod.fst (reloadFields fields) =
      (sortedMembers written).map fun member => (member.key, member.value) := by
    rw [holds.values]
    exact (map_inOrder Prod.fst (fun member : WrittenMember => (member.key, member.value)) _).symm
  rw [Dict.reload, sorted, List.map_map]
  rfl

theorem WrittenFields.sorted_reads {fields : Dict} {members : List (Str × Str)}
    {written : List WrittenMember} (holds : WrittenFields fields members written) :
    ∀ member ∈ sortedMembers written, ReadBack member.text member.value := by
  intro member inside
  exact holds.reads member (mem_inOrder.mp inside)

theorem WrittenFields.sorted_apart {fields : Dict} {members : List (Str × Str)}
    {written : List WrittenMember} (holds : WrittenFields fields members written)
    (apart : (fields.map fun field => reloadText field.1).Nodup) :
    ((sortedMembers written).map fun member => reloadText member.key).Nodup := by
  have keys : (fields.map fun field => reloadText field.1) =
      written.map fun member => reloadText member.key := by
    have mapped := congrArg (List.map reloadText) holds.keys
    rwa [List.map_map, List.map_map] at mapped
  rw [keys] at apart
  exact ((perm_inOrder WrittenMember.key written).map _).nodup_iff.mpr apart

section Dumped

variable {floatRepr : PyFloat → Str}

mutual

/-- What is dumped is read back. -/
theorem readBack_of_jsonDumps :
    ∀ {value : Json} {text : Str}, Readable floatRepr value →
      jsonDumps floatRepr value = some text → ReadBack text value.reload
  | .null, _, _, dumped => by
      cases dumped
      exact readBack_null
  | .bool true, _, _, dumped => by
      cases dumped
      exact readBack_true
  | .bool false, _, _, dumped => by
      cases dumped
      exact readBack_false
  | .int value, _, _, dumped => by
      rw [jsonDumps] at dumped
      exact readBack_intText dumped
  | .float value, _, readable, dumped => by
      rw [jsonDumps] at dumped
      cases dumped
      exact readable
  | .str text, _, _, dumped => by
      rw [jsonDumps] at dumped
      cases dumped
      exact readBack_jsonQuote text
  | .list items, _, readable, dumped => by
      rw [jsonDumps, Option.map_eq_some_iff] at dumped
      obtain ⟨texts, dumped, rfl⟩ := dumped
      obtain ⟨pairs, rfl, values, reads⟩ := readBack_of_dumpItems readable dumped
      rw [Json.reload, values]
      exact readBack_list reads
  | .dict fields, _, readable, dumped => by
      rw [jsonDumps, Option.map_eq_some_iff] at dumped
      obtain ⟨members, dumped, rfl⟩ := dumped
      obtain ⟨written, holds⟩ := writtenFields_of_dumpFields readable.2 dumped
      rw [Json.reload_dict, holds.sorted_texts, holds.sorted_values]
      exact readBack_dict holds.sorted_reads (holds.sorted_apart readable.1)

/-- The dumped items of a list are read back. -/
theorem readBack_of_dumpItems :
    ∀ {items : List Json} {texts : List Str}, ItemsReadable floatRepr items →
      dumpItems floatRepr items = some texts →
        ∃ pairs : List (Str × Json), texts = pairs.map Prod.fst ∧
          reloadItems items = pairs.map Prod.snd ∧ ∀ pair ∈ pairs, ReadBack pair.1 pair.2
  | [], _, _, dumped => by
      cases dumped
      exact ⟨[], rfl, rfl, nofun⟩
  | item :: rest, _, readable, dumped => by
      simp only [dumpItems, Option.bind_eq_bind, Option.bind_eq_some_iff, Option.pure_def,
        Option.some.injEq] at dumped
      obtain ⟨text, first, texts, later, rfl⟩ := dumped
      obtain ⟨pairs, rfl, values, reads⟩ := readBack_of_dumpItems readable.2 later
      refine ⟨(text, item.reload) :: pairs, rfl, by rw [reloadItems, values]; rfl, ?_⟩
      rintro pair (_ | ⟨_, member⟩)
      · exact readBack_of_jsonDumps readable.1 first
      · exact reads pair member

/-- The dumped fields of a dict are read back. -/
theorem writtenFields_of_dumpFields :
    ∀ {fields : Dict} {members : List (Str × Str)}, FieldsReadable floatRepr fields →
      dumpFields floatRepr fields = some members →
        ∃ written, WrittenFields fields members written
  | [], _, _, dumped => by
      cases dumped
      exact ⟨[], rfl, rfl, nofun⟩
  | (key, value) :: rest, _, readable, dumped => by
      simp only [dumpFields, Option.bind_eq_bind, Option.bind_eq_some_iff, Option.pure_def,
        Option.some.injEq] at dumped
      obtain ⟨text, first, members, later, rfl⟩ := dumped
      obtain ⟨written, rfl, values, reads⟩ := writtenFields_of_dumpFields readable.2 later
      refine ⟨⟨key, text, value.reload⟩ :: written, rfl, by rw [reloadFields, values]; rfl, ?_⟩
      rintro member (_ | ⟨_, inside⟩)
      · exact readBack_of_jsonDumps readable.1 first
      · exact reads member inside

end

end Dumped

/-- A text that is read back is one JSON text. -/
theorem jsonLoads_of_readBack {text : Str} {value : Json} (reads : ReadBack text value) :
    jsonLoads text = some value := by
  have scanned := reads.scans (2 * text.length + 2) [] (by omega) (by rintro _ ⟨⟩)
  have solid := reads.skipSpace []
  rw [List.append_nil] at scanned solid
  rw [jsonLoads, solid, scanned]
  rfl

end Goggles
