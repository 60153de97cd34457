/-
Module: Goggles.Python.Nesting
Purpose: The nesting guard is sound and exact: on every text its scan keeps pace with the decoder, so
  that no decoder goes deeper than what the guard computes, and on a JSON text it computes the depth of
  the text.
Trusted boundary: none beyond the modules it imports; the grammar is that of RFC 8259
Main exports: IsJson, ValidJson, Follows, NestingGuarded, nestingGuarded
-/
import Goggles.Python.TracedJson

namespace Goggles

/-! ### JSON texts -/

/-- The characters of a string through its closing quote. -/
inductive StringBody : Str → Prop where
  | close : StringBody [0x22]
  | char {char : Nat} {rest : Str} (printable : 0x20 ≤ char) (notQuote : char ≠ 0x22)
      (notEscape : char ≠ 0x5c) (body : StringBody rest) : StringBody (char :: rest)
  | escape {char unit : Nat} {rest : Str} (simple : simpleEscape char = some unit)
      (body : StringBody rest) : StringBody (0x5c :: char :: rest)
  | unicode {a b c d unit : Nat} {rest : Str} (quad : hexQuad a b c d = some unit)
      (body : StringBody rest) : StringBody (0x5c :: 0x75 :: a :: b :: c :: d :: rest)

/-- A number: a sign, a whole part, a fraction and an exponent. -/
structure IsNumber (text : Str) : Prop where
  parts : ∃ sign whole fraction exponent, text = sign ++ whole ++ fraction ++ exponent ∧
    (sign = [] ∨ sign = [0x2d]) ∧
    (whole = [0x30] ∨ whole ≠ [] ∧ whole.head? ≠ some 0x30 ∧ ∀ char ∈ whole, isDigit char = true) ∧
    (fraction = [] ∨ ∃ digits, fraction = 0x2e :: digits ∧ digits ≠ [] ∧
      ∀ char ∈ digits, isDigit char = true) ∧
    (exponent = [] ∨ ∃ mark sign digits, exponent = mark :: sign ++ digits ∧
      (mark = 0x65 ∨ mark = 0x45) ∧ (sign = [] ∨ sign = [0x2b] ∨ sign = [0x2d]) ∧ digits ≠ [] ∧
      ∀ char ∈ digits, isDigit char = true)

/-- Whitespace of JSON. -/
def Blank (text : Str) : Prop := ∀ char ∈ text, isJsonSpace char = true

inductive JsonPart where
  | value
  | items
  | members

/-- A value, or what stands between the brackets of a non-empty array or object, and how deep its
arrays and objects nest. -/
inductive IsJson : JsonPart → Nat → Str → Prop where
  | word {text : Str} (word : text ∈ [lit "null", lit "true", lit "false"]) : IsJson .value 0 text
  | number {text : Str} (number : IsNumber text) : IsJson .value 0 text
  | string {body : Str} (string : StringBody body) : IsJson .value 0 (0x22 :: body)
  | emptyArray {space : Str} (blank : Blank space) : IsJson .value 1 (0x5b :: space ++ [0x5d])
  | emptyObject {space : Str} (blank : Blank space) : IsJson .value 1 (0x7b :: space ++ [0x7d])
  | array {depth : Nat} {before items after : Str} (leading : Blank before)
      (inner : IsJson .items depth items) (trailing : Blank after) :
      IsJson .value (depth + 1) (0x5b :: before ++ items ++ after ++ [0x5d])
  | object {depth : Nat} {before members after : Str} (leading : Blank before)
      (inner : IsJson .members depth members) (trailing : Blank after) :
      IsJson .value (depth + 1) (0x7b :: before ++ members ++ after ++ [0x7d])
  | lastItem {depth : Nat} {item : Str} (value : IsJson .value depth item) : IsJson .items depth item
  | item {depth others : Nat} {item before after rest : Str} (value : IsJson .value depth item)
      (leading : Blank before) (trailing : Blank after) (more : IsJson .items others rest) :
      IsJson .items (max depth others) (item ++ before ++ 0x2c :: after ++ rest)
  | lastMember {depth : Nat} {key before after value : Str} (name : StringBody key)
      (leading : Blank before) (trailing : Blank after) (child : IsJson .value depth value) :
      IsJson .members depth (0x22 :: key ++ before ++ 0x3a :: after ++ value)
  | member {depth others : Nat} {first before after rest : Str}
      (member : IsJson .members depth first) (leading : Blank before) (trailing : Blank after)
      (more : IsJson .members others rest) :
      IsJson .members (max depth others) (first ++ before ++ 0x2c :: after ++ rest)

/-- A JSON text that nests to a depth. -/
def ValidJson (depth : Nat) (text : Str) : Prop :=
  ∃ before value after, text = before ++ value ++ after ∧ Blank before ∧
    IsJson .value depth value ∧ Blank after

/-! ### The scan -/

/-- The scan of a text, from a state. -/
def NestingScan.scan (state : NestingScan) (text : Str) : NestingScan := text.foldl next state

/-- The state outside strings. -/
def outside (depth peak : Nat) : NestingScan := ⟨depth, peak, false, false⟩

/-- The state in a string. -/
def inString (depth peak : Nat) : NestingScan := ⟨depth, peak, true, false⟩

theorem maxJsonNestingDepth_eq (raw : Str) :
    maxJsonNestingDepth raw = ((outside 0 0).scan raw).maxDepth := rfl

theorem NestingScan.maxDepth_le_next (state : NestingScan) (char : Nat) :
    state.maxDepth ≤ (state.next char).maxDepth := by
  unfold next
  split_ifs <;> first | exact Nat.le_refl _ | exact Nat.le_max_left _ _

/-- The deepest only grows. -/
theorem NestingScan.maxDepth_le_scan (state : NestingScan) (text : Str) :
    state.maxDepth ≤ (state.scan text).maxDepth := by
  induction text generalizing state with
  | nil => exact Nat.le_refl _
  | cons char rest inductionHypothesis =>
      exact (state.maxDepth_le_next char).trans (inductionHypothesis (state.next char))

section Scan

variable (depth peak : Nat)

theorem scan_flat {char : Nat} (flat : isFlat char = true) (rest : Str) :
    (outside depth peak).scan (char :: rest) = (outside depth peak).scan rest := by
  have next : (outside depth peak).next char = outside depth peak := by
    simp only [isFlat, List.all_cons, List.all_nil, Bool.and_true, Bool.and_eq_true, bne_iff_ne] at flat
    simp [NestingScan.next, outside, flat]
  exact congrArg (NestingScan.scan · rest) next

theorem scan_flatBefore {text rest : Str} (flat : FlatBefore text rest) :
    (outside depth peak).scan text = (outside depth peak).scan rest := by
  obtain ⟨consumed, rfl, flats⟩ := flat
  induction consumed with
  | nil => rfl
  | cons char more inductionHypothesis =>
      obtain ⟨head, tail⟩ := List.forall_mem_cons.mp flats
      rw [List.cons_append, scan_flat depth peak head, inductionHypothesis tail]

theorem isFlat_of_isJsonSpace {char : Nat} (space : isJsonSpace char = true) :
    isFlat char = true := by
  simp [isJsonSpace] at space
  simp [isFlat]
  omega

theorem scan_skipSpace (text : Str) :
    (outside depth peak).scan text = (outside depth peak).scan (skipSpace text) :=
  scan_flatBefore depth peak (.dropWhile (fun _ => isFlat_of_isJsonSpace) text)

theorem scan_blank {space : Str} (blank : Blank space) (rest : Str) :
    (outside depth peak).scan (space ++ rest) = (outside depth peak).scan rest :=
  scan_flatBefore depth peak ⟨space, rfl, fun char member => isFlat_of_isJsonSpace (blank char member)⟩

theorem scan_open {char : Nat} (opens : char = 0x5b ∨ char = 0x7b) (rest : Str) :
    (outside depth peak).scan (char :: rest) =
      (outside (depth + 1) (max peak (depth + 1))).scan rest := by
  obtain rfl | rfl := opens <;> rfl

theorem scan_close {char : Nat} (closes : char = 0x5d ∨ char = 0x7d) (rest : Str) :
    (outside (depth + 1) peak).scan (char :: rest) = (outside depth peak).scan rest := by
  obtain rfl | rfl := closes <;> rfl

theorem scan_quote (rest : Str) :
    (outside depth peak).scan (0x22 :: rest) = (inString depth peak).scan rest := rfl

/-- Whatever a string holds, the scan leaves it where it ends. -/
theorem scan_stringBody {body : Str} (string : StringBody body) (rest : Str) :
    (inString depth peak).scan (body ++ rest) = (outside depth peak).scan rest := by
  induction string with
  | close => rfl
  | @char char more printable notQuote notEscape body inductionHypothesis =>
      have next : (inString depth peak).next char = inString depth peak := by
        simp [NestingScan.next, inString, notQuote, notEscape]
      rw [List.cons_append, ← inductionHypothesis]
      exact congrArg (NestingScan.scan · (more ++ rest)) next
  | escape simple body inductionHypothesis => exact inductionHypothesis
  | @unicode a b c d unit more quad body inductionHypothesis =>
      -- no hexadecimal digit is a quote or a backslash
      have digit : ∀ char, hexValue char ≠ none → ∀ text,
          (inString depth peak).scan (char :: text) = (inString depth peak).scan text := by
        intro char isDigit text
        have plain : char ≠ 0x22 ∧ char ≠ 0x5c := by
          constructor <;> rintro rfl <;> exact isDigit rfl
        have next : (inString depth peak).next char = inString depth peak := by
          simp [NestingScan.next, inString, plain]
        exact congrArg (NestingScan.scan · text) next
      simp only [hexQuad, Option.bind_eq_bind, Option.bind_eq_some_iff] at quad
      obtain ⟨_, first, _, second, _, third, _, fourth, -⟩ := quad
      change (inString depth peak).scan (a :: b :: c :: d :: (more ++ rest)) = _
      rw [digit a (by simp [first]), digit b (by simp [second]), digit c (by simp [third]),
        digit d (by simp [fourth]), inductionHypothesis]

end Scan

/-! ### The guard is exact -/

theorem IsNumber.flatBefore {text : Str} (number : IsNumber text) (rest : Str) :
    FlatBefore (text ++ rest) rest := by
  obtain ⟨sign, whole, fraction, exponent, rfl, signed, digits, fractional, raised⟩ := number.parts
  have flats : ∀ digits : Str, (∀ char ∈ digits, isDigit char = true) →
      ∀ char ∈ digits, isFlat char = true := fun digits all char member =>
    isFlat_of_isDigit (all char member)
  refine ⟨_, rfl, ?_⟩
  simp only [List.forall_mem_append]
  refine ⟨⟨⟨?_, ?_⟩, ?_⟩, ?_⟩
  · obtain rfl | rfl := signed <;> decide
  · obtain rfl | ⟨-, -, all⟩ := digits
    · decide
    · exact flats whole all
  · obtain rfl | ⟨digits, rfl, -, all⟩ := fractional
    · exact nofun
    · exact List.forall_mem_cons.mpr ⟨rfl, flats digits all⟩
  · obtain rfl | ⟨mark, sign, digits, rfl, marked, signed, -, all⟩ := raised
    · exact nofun
    · rw [List.forall_mem_append, List.forall_mem_cons]
      refine ⟨⟨?_, ?_⟩, flats digits all⟩
      · obtain rfl | rfl := marked <;> rfl
      · obtain rfl | rfl | rfl := signed <;> decide

/-- The scan of a part of a JSON text finds how deep the part nests. -/
theorem IsJson.scan_eq {part : JsonPart} {inner : Nat} {text : Str} (json : IsJson part inner text)
    {depth peak : Nat} (reached : depth ≤ peak) (rest : Str) :
    (outside depth peak).scan (text ++ rest) = (outside depth (max peak (depth + inner))).scan rest := by
  induction json generalizing depth peak rest with
  | @word text word =>
      rw [Nat.add_zero, Nat.max_eq_left reached]
      refine scan_flatBefore depth peak ⟨text, rfl, ?_⟩
      simp only [List.mem_cons, List.not_mem_nil, or_false] at word
      obtain rfl | rfl | rfl := word <;> decide +kernel
  | number number =>
      rw [Nat.add_zero, Nat.max_eq_left reached]
      exact scan_flatBefore depth peak (number.flatBefore rest)
  | string body =>
      rw [Nat.add_zero, Nat.max_eq_left reached]
      exact scan_stringBody depth peak body rest
  | emptyArray blank =>
      simp only [List.cons_append, List.append_assoc, List.nil_append]
      rw [scan_open _ _ (.inl rfl), scan_blank _ _ blank, scan_close _ _ (.inl rfl)]
  | emptyObject blank =>
      simp only [List.cons_append, List.append_assoc, List.nil_append]
      rw [scan_open _ _ (.inr rfl), scan_blank _ _ blank, scan_close _ _ (.inr rfl)]
  | array leading inner trailing inductionHypothesis =>
      simp only [List.cons_append, List.append_assoc, List.nil_append]
      rw [scan_open _ _ (.inl rfl), scan_blank _ _ leading, inductionHypothesis (by omega),
        scan_blank _ _ trailing, scan_close _ _ (.inl rfl)]
      congr 2
      omega
  | object leading inner trailing inductionHypothesis =>
      simp only [List.cons_append, List.append_assoc, List.nil_append]
      rw [scan_open _ _ (.inr rfl), scan_blank _ _ leading, inductionHypothesis (by omega),
        scan_blank _ _ trailing, scan_close _ _ (.inr rfl)]
      congr 2
      omega
  | lastItem value inductionHypothesis => exact inductionHypothesis reached rest
  | item value leading trailing more valueHypothesis moreHypothesis
  | member value leading trailing more valueHypothesis moreHypothesis =>
      simp only [List.cons_append, List.append_assoc]
      rw [valueHypothesis reached, scan_blank _ _ leading, scan_flat _ _ rfl, scan_blank _ _ trailing,
        moreHypothesis (by omega)]
      congr 2
      omega
  | lastMember name leading trailing child inductionHypothesis =>
      simp only [List.cons_append, List.append_assoc]
      rw [scan_quote, scan_stringBody _ _ name, scan_blank _ _ leading, scan_flat _ _ rfl,
        scan_blank _ _ trailing, inductionHypothesis reached]

/-- On a JSON text the guard computes how deep the text nests. -/
theorem maxJsonNestingDepth_of_validJson {depth : Nat} {text : Str} (valid : ValidJson depth text) :
    maxJsonNestingDepth text = depth := by
  obtain ⟨before, value, after, rfl, leading, json, trailing⟩ := valid
  rw [maxJsonNestingDepth_eq, List.append_assoc, scan_blank _ _ leading, json.scan_eq (Nat.le_refl 0),
    ← List.append_nil after, scan_blank _ _ trailing]
  simp [NestingScan.scan, outside]

/-! ### The decoder goes no deeper -/

/-- What a scanned string consumed is the body of a string. -/
theorem stringBody_of_scanString {text rest : Str} {units : List (Bool × Nat)}
    (scanned : scanString text = some (units, rest)) :
    ∃ body, text = body ++ rest ∧ StringBody body := by
  fun_induction scanString text generalizing units with
  | case1 | case3 | case5 | case6 | case8 | case9 => cases scanned
  | case2 more =>
      cases scanned
      exact ⟨_, rfl, .close⟩
  | case4 char more notQuote printable notEscape inductionHypothesis =>
      obtain ⟨after, found, same⟩ := Option.map_eq_some_iff.mp scanned
      cases same
      obtain ⟨body, rfl, string⟩ := inductionHypothesis found
      exact ⟨_, rfl, .char (Nat.le_of_not_lt printable) notQuote notEscape string⟩
  | case7 char notQuote printable escape a b c d afterQuad unit quad inductionHypothesis =>
      obtain ⟨after, found, same⟩ := Option.map_eq_some_iff.mp scanned
      cases same
      obtain ⟨body, rfl, string⟩ := inductionHypothesis found
      obtain rfl := not_not.mp escape
      exact ⟨_, rfl, .unicode quad string⟩
  | case10 char notQuote printable escape letter afterEscape notUnicode unit simple
      inductionHypothesis =>
      obtain ⟨after, found, same⟩ := Option.map_eq_some_iff.mp scanned
      cases same
      obtain ⟨body, rfl, string⟩ := inductionHypothesis found
      obtain rfl := not_not.mp escape
      exact ⟨_, rfl, .escape simple string⟩

/-- The scan of a text, from a depth, reaches at least as deep as a call of the decoder on the text;
where the call succeeds, the scan has then come to the depth `after` and has seen just the depth of
the call. -/
structure Follows {α : Type} (depth after : Nat) (text : Str) (decoding : Decoding α) : Prop where
  bound : ∀ peak, depth ≤ peak →
    depth + decoding.depth ≤ ((outside depth peak).scan text).maxDepth
  next : ∀ peak, depth ≤ peak → ∀ value rest, decoding.result = some (value, rest) →
    (outside depth peak).scan text = (outside after (max peak (depth + decoding.depth))).scan rest

namespace Follows

variable {α β : Type} {depth after : Nat} {text : Str}

/-- A successful call is followed when the scan comes to its end. -/
theorem of_next {reached : Nat} {value : α} {rest : Str}
    (next : ∀ peak, depth ≤ peak → (outside depth peak).scan text =
      (outside after (max peak (depth + reached))).scan rest) :
    Follows depth after text ⟨reached, some (value, rest)⟩ where
  bound peak enough := by
    rw [next peak enough]
    have top : max peak (depth + reached) ≤ _ :=
      NestingScan.maxDepth_le_scan (outside after (max peak (depth + reached))) rest
    exact (Nat.le_max_right _ _).trans top
  next := by
    rintro peak enough _ _ ⟨⟩
    exact next peak enough

/-- A call that fails is followed as far as it got. -/
theorem fail {decoding : Decoding α} (follows : Follows depth after text decoding) {last : Nat} :
    Follows depth last text (⟨decoding.depth, none⟩ : Decoding β) where
  bound := follows.bound
  next := nofun

/-- A call that enters nothing. -/
theorem shallow {result : Option (α × Str)}
    (next : ∀ value rest, result = some (value, rest) → ∀ peak,
      (outside depth peak).scan text = (outside depth peak).scan rest) :
    Follows depth depth text (.shallow result) := by
  cases result with
  | none =>
      refine ⟨fun peak enough => ?_, nofun⟩
      exact enough.trans (NestingScan.maxDepth_le_scan (outside depth peak) text)
  | some scanned =>
      apply of_next
      intro peak enough
      rw [next scanned.1 scanned.2 rfl peak, Nat.add_zero, Nat.max_eq_left enough]

theorem shallow_none : Follows depth after text (.shallow none : Decoding α) where
  bound peak enough := enough.trans (NestingScan.maxDepth_le_scan (outside depth peak) text)
  next := nofun

/-- A call on what is left after characters that change nothing. -/
theorem skip {decoding : Decoding α} {rest : Str} (follows : Follows depth after rest decoding)
    (same : ∀ peak, (outside depth peak).scan text = (outside depth peak).scan rest) :
    Follows depth after text decoding where
  bound peak enough := same peak ▸ follows.bound peak enough
  next peak enough value left found := same peak ▸ follows.next peak enough value left found

/-- An opening bracket and the call inside it. -/
theorem inside {decoding : Decoding α} {char : Nat} {rest : Str}
    (opens : char = 0x5b ∨ char = 0x7b) (follows : Follows (depth + 1) depth (skipSpace rest) decoding)
    (close : α → Option β) : Follows depth depth (char :: rest) (decoding.inside close) := by
  have entered : ∀ peak, (outside depth peak).scan (char :: rest) =
      (outside (depth + 1) (max peak (depth + 1))).scan (skipSpace rest) := by
    intro peak
    rw [scan_open _ _ opens, scan_skipSpace]
  constructor
  · intro peak _
    rw [entered]
    have bound := follows.bound (max peak (depth + 1)) (Nat.le_max_right _ _)
    rw [Decoding.inside_depth]
    omega
  · intro peak _ value left found
    obtain ⟨scanned, isScanned, closed⟩ := Option.bind_eq_some_iff.mp found
    obtain ⟨_, -, same⟩ := Option.map_eq_some_iff.mp closed
    cases same
    rw [entered, follows.next _ (Nat.le_max_right _ _) _ _ isScanned, Decoding.inside_depth]
    congr 2
    omega

/-- A bracket that opens and nothing more. -/
theorem opened {char : Nat} {rest : Str} (opens : char = 0x5b ∨ char = 0x7b) :
    Follows depth depth (char :: rest) (⟨1, none⟩ : Decoding α) where
  bound peak _ := by
    rw [scan_open _ _ opens]
    exact (Nat.le_max_right _ _).trans (NestingScan.maxDepth_le_scan (outside _ _) rest)
  next := nofun

/-- Two brackets with nothing between them. -/
theorem empty {char next : Nat} {rest left : Str} (opens : char = 0x5b ∨ char = 0x7b)
    (closes : next = 0x5d ∨ next = 0x7d) (found : skipSpace rest = next :: left) (result : Option α) :
    Follows depth depth (char :: rest) ⟨1, result.map (·, left)⟩ := by
  cases result with
  | none => exact opened opens
  | some value =>
      apply of_next
      intro peak _
      rw [scan_open _ _ opens, scan_skipSpace, found, scan_close _ _ closes]

/-- The last child of an array or object, and the bracket that closes it. -/
theorem last {decoding : Decoding α} {value : α} {left rest : Str} {char : Nat} {all : β}
    (follows : Follows (depth + 1) (depth + 1) text decoding)
    (found : decoding.result = some (value, left)) (closes : char = 0x5d ∨ char = 0x7d)
    (ends : skipSpace left = char :: rest) :
    Follows (depth + 1) depth text ⟨decoding.depth, some (all, rest)⟩ := by
  apply of_next
  intro peak enough
  rw [follows.next peak enough _ _ found, scan_skipSpace, ends, scan_close _ _ closes]

/-- A child, a comma, and the children after it. -/
theorem more {decoding : Decoding α} {others : Decoding β} {value : α} {left rest : Str}
    (follows : Follows (depth + 1) (depth + 1) text decoding)
    (found : decoding.result = some (value, left)) (comma : skipSpace left = 0x2c :: rest)
    (later : Follows (depth + 1) depth (skipSpace rest) others) (change : β → β) :
    Follows (depth + 1) depth text (others.after decoding.depth change) := by
  have passed : ∀ peak, depth + 1 ≤ peak → (outside (depth + 1) peak).scan text =
      (outside (depth + 1) (max peak (depth + 1 + decoding.depth))).scan (skipSpace rest) := by
    intro peak enough
    rw [follows.next peak enough _ _ found, scan_skipSpace, comma, scan_flat _ _ rfl, scan_skipSpace]
  constructor
  · intro peak enough
    rw [passed peak enough]
    have here : max peak (depth + 1 + decoding.depth) ≤ _ :=
      NestingScan.maxDepth_le_scan (outside (depth + 1) _) (skipSpace rest)
    have there := later.bound (max peak (depth + 1 + decoding.depth)) (by omega)
    rw [Decoding.after_depth]
    omega
  · intro peak enough scannedValue last result
    obtain ⟨scanned, isScanned, same⟩ := Option.map_eq_some_iff.mp result
    cases same
    rw [passed peak enough, later.next _ (by omega) _ _ isScanned, Decoding.after_depth]
    congr 2
    omega

end Follows

/-- The scan follows every call of the decoder. -/
structure ScanFollows (hooks : DecoderHooks) (fuel : Nat) : Prop where
  value : ∀ depth text, Follows depth depth text (traceValue hooks fuel text)
  items : ∀ depth text, Follows (depth + 1) depth text (traceItems hooks fuel text)
  members : ∀ depth text, Follows (depth + 1) depth text (traceMembers hooks fuel text)

namespace ScanFollows

variable {hooks : DecoderHooks} {fuel : Nat}

theorem scan_scanString {depth peak : Nat} {text rest : Str} {units : List (Bool × Nat)}
    (scanned : scanString text = some (units, rest)) :
    (outside depth peak).scan (0x22 :: text) = (outside depth peak).scan rest := by
  obtain ⟨body, rfl, string⟩ := stringBody_of_scanString scanned
  rw [scan_quote, scan_stringBody _ _ string]

theorem scan_scanWord {depth peak : Nat} {word text rest : Str} {value found : Json}
    (flat : ∀ char ∈ word, isFlat char = true)
    (scanned : scanWord word value text = some (found, rest)) :
    (outside depth peak).scan text = (outside depth peak).scan rest := by
  unfold scanWord at scanned
  split at scanned
  · next starts =>
      cases scanned
      obtain ⟨more, rfl⟩ := List.isPrefixOf_iff_prefix.mp starts
      rw [List.drop_left]
      exact scan_flatBefore depth peak ⟨word, rfl, flat⟩
  · cases scanned

theorem value_next (follows : ScanFollows hooks fuel) (depth : Nat) (text : Str) :
    Follows depth depth text (traceValue hooks (fuel + 1) text) := by
  cases text with
  | nil =>
      rw [traceValue.eq_def]
      exact .shallow_none
  | cons char rest =>
      rw [traceValue.eq_def]
      dsimp only
      split
      · next quote =>
          subst quote
          apply Follows.shallow
          intro value left found peak
          obtain ⟨scanned, isScanned, same⟩ := Option.map_eq_some_iff.mp found
          cases same
          exact scan_scanString isScanned
      split
      · next brace =>
          cases start : skipSpace rest with
          | nil => exact .opened (.inr brace)
          | cons next afterNext =>
              dsimp only
              split
              · next closed => exact .empty (.inr brace) (.inr closed) start (hooks.object [])
              · have inner := follows.members depth (next :: afterNext)
                rw [← start] at inner
                exact start ▸ inner.inside (.inr brace) _
      split
      · next bracket =>
          cases start : skipSpace rest with
          | nil => exact .opened (.inl bracket)
          | cons next afterNext =>
              dsimp only
              split
              · next closed => exact .empty (.inl bracket) (.inl closed) start (some (Json.list []))
              · have inner := follows.items depth (next :: afterNext)
                rw [← start] at inner
                exact start ▸ inner.inside (.inl bracket) _
      have word : ∀ (word : Str) (value : Json), (∀ char ∈ word, isFlat char = true) →
          Follows depth depth (char :: rest) (.shallow (scanWord word value (char :: rest))) := by
        intro word value flat
        exact .shallow fun found left scanned peak => scan_scanWord flat scanned
      split
      · exact word _ _ (by decide +kernel)
      split
      · exact word _ _ (by decide +kernel)
      split
      · exact word _ _ (by decide +kernel)
      · exact .shallow fun value left scanned peak =>
          scan_flatBefore depth peak (hooks.flat _ _ _ scanned)

theorem items_next (follows : ScanFollows hooks fuel) (depth : Nat) (text : Str) :
    Follows (depth + 1) depth text (traceItems hooks (fuel + 1) text) := by
  have first := follows.value (depth + 1) text
  rw [traceItems.eq_def]
  dsimp only
  split
  · next reached call =>
      rw [call] at first
      exact first.fail
  · next reached item afterItem call =>
      rw [call] at first
      split
      · exact first.fail
      · next char rest start =>
          split
          · next closed => exact first.last rfl (.inl closed) start
          split
          · next comma =>
              subst comma
              exact first.more rfl start (follows.items depth _) _
          · exact first.fail

theorem members_next (follows : ScanFollows hooks fuel) (depth : Nat) (text : Str) :
    Follows (depth + 1) depth text (traceMembers hooks (fuel + 1) text) := by
  rw [traceMembers.eq_def]
  dsimp only
  split
  · exact .shallow_none
  · next char rest =>
      split
      · exact .shallow_none
      · next quote =>
          obtain rfl := not_not.mp quote
          split
          · exact .shallow_none
          · next key afterKey name =>
              split
              · exact .shallow_none
              · next colon afterColon start =>
                  split
                  · exact .shallow_none
                  · next isColon =>
                      obtain rfl := not_not.mp isColon
                      have named : Follows (depth + 1) (depth + 1) (0x22 :: rest)
                          (traceValue hooks fuel (skipSpace afterColon)) := by
                        apply (follows.value (depth + 1) (skipSpace afterColon)).skip
                        intro peak
                        rw [scan_scanString name, scan_skipSpace, start, scan_flat _ _ rfl,
                          scan_skipSpace]
                      split
                      · next reached call =>
                          rw [call] at named
                          exact named.fail
                      · next reached value afterValue call =>
                          rw [call] at named
                          split
                          · exact named.fail
                          · next next afterNext ends =>
                              split
                              · next closed => exact named.last rfl (.inr closed) ends
                              split
                              · next comma =>
                                  subst comma
                                  exact named.more rfl ends (follows.members depth _) _
                              · exact named.fail

end ScanFollows

theorem scanFollows (hooks : DecoderHooks) (fuel : Nat) : ScanFollows hooks fuel := by
  induction fuel with
  | zero =>
      refine ⟨fun depth text => ?_, fun depth text => ?_, fun depth text => ?_⟩
      · rw [traceValue]
        exact .shallow_none
      · rw [traceItems]
        exact .shallow_none
      · rw [traceMembers]
        exact .shallow_none
  | succ fuel inductionHypothesis =>
      exact ⟨inductionHypothesis.value_next, inductionHypothesis.items_next,
        inductionHypothesis.members_next⟩

/-- No decoder goes deeper than what the guard computes. -/
theorem traceLoads_depth_le (hooks : DecoderHooks) (fuel : Nat) (raw : Str) :
    (traceLoads hooks fuel raw).1 ≤ maxJsonNestingDepth raw := by
  have bound := ((scanFollows hooks fuel).value 0 (skipSpace raw)).bound 0 (Nat.le_refl 0)
  rw [Nat.zero_add, ← scan_skipSpace] at bound
  exact bound

/-! ### The guard -/

/-- `loads_audit_json`, with the depth that its decoder reaches. -/
def traceAuditJson (fuel : Nat) (raw : Str) : Nat × Option Json :=
  if MAX_JSON_NESTING_DEPTH < maxJsonNestingDepth raw then (0, none)
  else traceLoads auditHooks fuel raw

theorem traceAuditJson_eq (raw : Str) :
    (traceAuditJson (2 * raw.length + 2) raw).2 = loadsAuditJson raw := by
  rw [traceAuditJson, loadsAuditJson]
  split
  · rfl
  · exact traceLoads_auditHooks raw

/-- What the guard of `loads_audit_json` promises of a text. -/
structure NestingGuarded (raw : Str) : Prop where
  sound : ∀ hooks fuel, (traceLoads hooks fuel raw).1 ≤ maxJsonNestingDepth raw
  guarded : ∀ fuel, (traceAuditJson fuel raw).1 ≤ MAX_JSON_NESTING_DEPTH
  exact : ∀ depth, ValidJson depth raw → maxJsonNestingDepth raw = depth

/-- Every text is guarded. -/
theorem nestingGuarded (raw : Str) : NestingGuarded raw where
  sound hooks fuel := traceLoads_depth_le hooks fuel raw
  guarded fuel := by
    rw [traceAuditJson]
    split
    · exact Nat.zero_le _
    · next passes => exact (traceLoads_depth_le auditHooks fuel raw).trans (Nat.le_of_not_lt passes)
  exact _ := maxJsonNestingDepth_of_validJson

end Goggles
