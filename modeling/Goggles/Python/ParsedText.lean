/-
Module: Goggles.Python.ParsedText
Purpose: The strings of a parsed object are written and read back as they are, since the decoder
  leaves no two surrogates that make a pair.
Trusted boundary: none beyond the modules it imports
Main exports: Unpaired, reloadText_of_unpaired, reloadText_of_ascii, unpaired_of_jsonLoads
-/
import Goggles.Python.RoundTrip
import Goggles.Python.Utf8
import Mathlib.Data.List.Chain

namespace Goggles

def IsHigh (unit : Nat) : Prop := 0xD800 ≤ unit ∧ unit ≤ 0xDBFF

def IsLow (unit : Nat) : Prop := 0xDC00 ≤ unit ∧ unit ≤ 0xDFFF

/-- A string in which no two surrogates make a pair. -/
structure Unpaired (text : Str) : Prop where
  bounded : ∀ char ∈ text, char < 0x110000
  apart : text.IsChain fun left right => ¬(IsHigh left ∧ IsLow right)

/-! ### Reading back -/

theorem joinSurrogates_single {escaped : Bool} {unit : Nat} {units : List (Bool × Nat)}
    (lone : ∀ next ∈ units.head?, ¬(escaped = true ∧ next.1 = true ∧ IsHigh unit ∧ IsLow next.2)) :
    joinSurrogates ((escaped, unit) :: units) = unit :: joinSurrogates units := by
  cases units with
  | nil => rfl
  | cons next rest =>
      obtain ⟨escapedNext, next⟩ := next
      rw [joinSurrogates, if_neg]
      rintro ⟨first, second, least, most, leastNext, mostNext⟩
      exact lone _ rfl ⟨first, second, ⟨least, most⟩, ⟨leastNext, mostNext⟩⟩

theorem joinSurrogates_pair {high low : Nat} (first : IsHigh high) (second : IsLow low)
    (units : List (Bool × Nat)) :
    joinSurrogates ((true, high) :: (true, low) :: units) =
      (0x10000 + (high - 0xD800) * 0x400 + (low - 0xDC00)) :: joinSurrogates units := by
  rw [joinSurrogates, if_pos ⟨rfl, rfl, first.1, first.2, second.1, second.2⟩]

/-- The first unit of a character is a low surrogate only when the character is. -/
theorem low_of_charUnits {char : Nat} (bounded : char < 0x110000) {rest : List (Bool × Nat)}
    {next : Bool × Nat} (first : (charUnits char ++ rest).head? = some next)
    (low : IsLow next.2) : IsLow char := by
  unfold charUnits at first
  split at first
  · cases first
    exact low
  split at first
  · cases first
    exact low
  · cases first
    obtain ⟨least, most⟩ := low
    dsimp only at least most
    omega

theorem reloadText_of_unpaired {text : Str} (unpaired : Unpaired text) :
    reloadText text = text := by
  unfold reloadText
  induction text with
  | nil => rfl
  | cons char rest inductionHypothesis =>
      have bounded := unpaired.bounded char List.mem_cons_self
      have later : joinSurrogates (rest.flatMap charUnits) = rest :=
        inductionHypothesis ⟨fun other member => unpaired.bounded other (List.mem_cons_of_mem _ member),
          unpaired.apart.tail⟩
      have lone : ∀ escaped, ∀ next ∈ (rest.flatMap charUnits).head?,
          ¬(escaped = true ∧ next.1 = true ∧ IsHigh char ∧ IsLow next.2) := by
        rintro escaped next first ⟨-, -, high, low⟩
        cases rest with
        | nil => cases first
        | cons second more =>
            have boundedSecond := unpaired.bounded second (by simp)
            have lowSecond := low_of_charUnits boundedSecond first low
            have apart := unpaired.apart
            rw [List.isChain_cons_cons] at apart
            exact apart.1 ⟨high, lowSecond⟩
      rw [List.flatMap_cons]
      generalize rest.flatMap charUnits = units at later lone ⊢
      unfold charUnits
      split
      · rw [List.singleton_append, joinSurrogates_single (lone false), later]
      split
      · rw [List.singleton_append, joinSurrogates_single (lone true), later]
      · have high : IsHigh ((0xD800 + (char - 0x10000) / 0x400) % 0x10000) := by
          constructor <;> omega
        have low : IsLow (0xDC00 + (char - 0x10000) % 0x400) := by
          constructor <;> omega
        have whole : 0x10000 + ((0xD800 + (char - 0x10000) / 0x400) % 0x10000 - 0xD800) * 0x400 +
            (0xDC00 + (char - 0x10000) % 0x400 - 0xDC00) = char := by omega
        rw [List.cons_append, List.cons_append, List.nil_append, joinSurrogates_pair high low, later,
          whole]

theorem unpaired_of_scalars {text : Str} (scalars : ∀ char ∈ text, IsScalar char) :
    Unpaired text where
  bounded char member := (scalars char member).1
  apart := by
    induction text with
    | nil => exact .nil
    | cons char rest inductionHypothesis =>
        have later := inductionHypothesis fun other member =>
          scalars other (List.mem_cons_of_mem _ member)
        refine List.isChain_cons.mpr ⟨?_, later⟩
        rintro next - ⟨⟨least, most⟩, -⟩
        have scalar := (scalars char List.mem_cons_self).2
        simp [isSurrogate] at scalar
        omega

theorem reloadText_of_ascii {text : Str} (ascii : ∀ char ∈ text, char < 0x80) :
    reloadText text = text := by
  apply reloadText_of_unpaired
  apply unpaired_of_scalars
  intro char member
  have small := ascii char member
  exact isScalar_of_bounds (by omega) (by omega)

/-! ### The strings of the decoder -/

/-- Only escapes are surrogates. -/
def PlainUnits (units : List (Bool × Nat)) : Prop :=
  ∀ unit ∈ units, unit.2 < 0x110000 ∧ (unit.1 = false → isSurrogate unit.2 = false)

theorem hexQuad_lt {a b c d unit : Nat} (found : hexQuad a b c d = some unit) :
    unit < 0x10000 := by
  have small : ∀ {char value : Nat}, hexValue char = some value → value < 16 := by
    intro char value found
    unfold hexValue isDigit at found
    split at found
    · next digit =>
        cases found
        simp at digit
        omega
    split at found
    · cases found
      omega
    split at found
    · cases found
      omega
    · cases found
  simp only [hexQuad, Option.bind_eq_bind, Option.bind_eq_some_iff, Option.pure_def,
    Option.some.injEq] at found
  obtain ⟨first, foundFirst, second, foundSecond, third, foundThird, fourth, foundFourth, rfl⟩ :=
    found
  have := small foundFirst
  have := small foundSecond
  have := small foundThird
  have := small foundFourth
  omega

theorem simpleEscape_lt {char unit : Nat} (found : simpleEscape char = some unit) :
    unit < 0x80 := by
  unfold simpleEscape at found
  repeat' split at found
  all_goals
    cases found
    try omega

theorem plainUnits_nil : PlainUnits [] := List.forall_mem_nil _

theorem plainUnits_cons {escaped : Bool} {unit : Nat} {units : List (Bool × Nat)}
    (bounded : unit < 0x110000) (scalar : escaped = false → isSurrogate unit = false)
    (later : PlainUnits units) : PlainUnits ((escaped, unit) :: units) := by
  rintro other (_ | ⟨_, member⟩)
  · exact ⟨bounded, scalar⟩
  · exact later other member

/-- What is scanned of a text of scalar values, and what is left. -/
theorem scanString_spec {text rest : Str} {units : List (Bool × Nat)}
    (scanned : scanString text = some (units, rest)) (scalars : ∀ char ∈ text, IsScalar char) :
    PlainUnits units ∧ rest ⊆ text := by
  induction size : text.length using Nat.strong_induction_on generalizing text rest units with
  | h length inductionHypothesis =>
      cases text with
      | nil =>
          rw [scanString.eq_def] at scanned
          cases scanned
      | cons char more =>
          have step : ∀ {tail : Str} {after : List (Bool × Nat) × Str}, tail.length < length →
              tail ⊆ char :: more → scanString tail = some after →
                PlainUnits after.1 ∧ after.2 ⊆ char :: more := by
            intro tail after shorter subset found
            have holds := inductionHypothesis tail.length shorter found
              (fun other member => scalars other (subset member)) rfl
            exact ⟨holds.1, List.Subset.trans holds.2 subset⟩
          rw [List.length_cons] at size
          rw [scanString.eq_def] at scanned
          dsimp only at scanned
          split at scanned
          · cases scanned
            exact ⟨plainUnits_nil, List.subset_cons_self _ _⟩
          split at scanned
          · cases scanned
          split at scanned
          · obtain ⟨after, found, same⟩ := Option.map_eq_some_iff.mp scanned
            cases same
            have holds := step (by omega) (List.subset_cons_self _ _) found
            have scalar := scalars char List.mem_cons_self
            exact ⟨plainUnits_cons scalar.1 (fun _ => scalar.2) holds.1, holds.2⟩
          · next escape =>
              cases more with
              | nil => cases scanned
              | cons letter afterEscape =>
                  dsimp only at scanned
                  rw [List.length_cons] at size
                  split at scanned
                  · rcases afterEscape with _ | ⟨a, _ | ⟨b, _ | ⟨c, _ | ⟨d, afterQuad⟩⟩⟩⟩
                    · cases scanned
                    · cases scanned
                    · cases scanned
                    · cases scanned
                    · dsimp only at scanned
                      simp only [List.length_cons] at size
                      cases quad : hexQuad a b c d with
                      | none =>
                          rw [quad] at scanned
                          cases scanned
                      | some unit =>
                          rw [quad] at scanned
                          obtain ⟨after, found, same⟩ := Option.map_eq_some_iff.mp scanned
                          cases same
                          have holds := step (by omega) (fun other member => by simp [member]) found
                          have small := hexQuad_lt quad
                          exact ⟨plainUnits_cons (by omega) (by simp) holds.1, holds.2⟩
                  · cases simple : simpleEscape letter with
                    | none =>
                        rw [simple] at scanned
                        cases scanned
                    | some unit =>
                        rw [simple] at scanned
                        obtain ⟨after, found, same⟩ := Option.map_eq_some_iff.mp scanned
                        cases same
                        have holds := step (by omega) (fun other member => by simp [member]) found
                        have small := simpleEscape_lt simple
                        have scalar := isScalar_of_bounds (by omega : unit < 0x110000) (by omega)
                        exact ⟨plainUnits_cons scalar.1 (fun _ => scalar.2) holds.1, holds.2⟩

/-- The first character of joined units is the first unit or lies beyond them. -/
theorem head_joinSurrogates {unit : Bool × Nat} {units : List (Bool × Nat)} {char : Nat}
    (first : (joinSurrogates (unit :: units)).head? = some char) :
    char = unit.2 ∨ 0x10000 ≤ char := by
  obtain ⟨escaped, unit⟩ := unit
  cases units with
  | nil =>
      cases first
      exact .inl rfl
  | cons next rest =>
      obtain ⟨escapedNext, next⟩ := next
      rw [joinSurrogates] at first
      split at first
      · rw [List.head?_cons, Option.some.injEq] at first
        omega
      · rw [List.head?_cons, Option.some.injEq] at first
        exact .inl first.symm

theorem unpaired_joinSurrogates {units : List (Bool × Nat)} (scanned : PlainUnits units) :
    Unpaired (joinSurrogates units) := by
  induction size : units.length using Nat.strong_induction_on generalizing units with
  | h length inductionHypothesis =>
      rcases units with _ | ⟨⟨escaped, unit⟩, _ | ⟨⟨escapedNext, next⟩, rest⟩⟩
      · exact ⟨nofun, .nil⟩
      · have bounded := (scanned _ List.mem_cons_self).1
        exact ⟨by simpa [joinSurrogates] using bounded, .singleton _⟩
      · simp only [List.length_cons] at size
        rw [joinSurrogates]
        split
        · next pair =>
            have later := inductionHypothesis rest.length (by omega)
              (fun other member => scanned other (by simp [member])) rfl
            constructor
            · intro char member
              rcases List.mem_cons.mp member with same | inside
              · omega
              · exact later.bounded char inside
            · refine List.isChain_cons.mpr ⟨?_, later.apart⟩
              rintro other - ⟨⟨least, most⟩, -⟩
              omega
        · next lone =>
            have later := inductionHypothesis (rest.length + 1) (by omega)
              (fun other member => scanned other (List.mem_cons_of_mem _ member)) rfl
            have here := scanned _ List.mem_cons_self
            have there := scanned (escapedNext, next) (by simp)
            constructor
            · rintro char (_ | ⟨_, member⟩)
              · exact here.1
              · exact later.bounded char member
            · refine List.isChain_cons.mpr ⟨?_, later.apart⟩
              rintro other first ⟨high, low⟩
              obtain ⟨least, most⟩ := high
              obtain ⟨leastNext, mostNext⟩ := low
              have same : other = next := by
                rcases head_joinSurrogates first with same | beyond
                · exact same
                · omega
              subst same
              have escapes : ∀ escaped unit, 0xD800 ≤ unit → unit ≤ 0xDFFF →
                  (escaped = false → isSurrogate unit = false) → escaped = true := by
                intro escaped unit above below scalar
                cases escaped with
                | true => rfl
                | false =>
                    have plain := scalar rfl
                    simp [isSurrogate] at plain
                    omega
              exact lone ⟨escapes _ _ (by omega) (by omega) here.2,
                escapes _ _ (by omega) (by omega) there.2, by omega, by omega, by omega, by omega⟩

/-! ### The decoder -/

theorem skipSpace_subset (text : Str) : skipSpace text ⊆ text := List.dropWhile_subset _

theorem scanWhole_subset (text : Str) : (scanWhole text).2 ⊆ text := by
  unfold scanWhole
  split
  · exact (List.tail_suffix text).subset
  · exact List.dropWhile_subset _

theorem scanFraction_subset (text : Str) : (scanFraction text).2 ⊆ text := by
  cases text with
  | nil => exact List.Subset.refl _
  | cons char rest =>
      rw [scanFraction]
      split
      · exact List.Subset.trans (List.dropWhile_subset _) (List.subset_cons_self _ _)
      · exact List.Subset.refl _

theorem scanExponent_subset (text : Str) : (scanExponent text).2 ⊆ text := by
  cases text with
  | nil => exact List.Subset.refl _
  | cons char rest =>
      rw [scanExponent]
      split
      · have unsigned : (if rest.head? = some 0x2b ∨ rest.head? = some 0x2d then rest.tail
            else rest) ⊆ char :: rest := by
          split
          · exact List.Subset.trans (List.tail_suffix rest).subset (List.subset_cons_self _ _)
          · exact List.subset_cons_self _ _
        dsimp only
        generalize (if rest.head? = some 0x2b ∨ rest.head? = some 0x2d then rest.tail
          else rest) = digits at unsigned ⊢
        split
        · exact List.Subset.refl _
        · exact List.Subset.trans (List.dropWhile_subset _) unsigned
      · exact List.Subset.refl _

/-- A value that is a string holds no surrogates that make a pair, nor does a string that is a
field of a value that is an object. -/
structure PlainValue (value : Json) : Prop where
  string : ∀ text, value = .str text → Unpaired text
  fields : ∀ fields, value = .dict fields → ∀ field ∈ fields, ∀ text, field.2 = .str text →
    Unpaired text

/-- A value that is neither a string nor an object. -/
theorem plainValue_of_ne {value : Json} (notString : ∀ text, value ≠ .str text)
    (notDict : ∀ fields, value ≠ .dict fields) : PlainValue value where
  string text same := absurd same (notString text)
  fields fields same := absurd same (notDict fields)

/-- A number is read from a part of the text. -/
theorem scanNumber_spec {text rest : Str} {value : Json}
    (scanned : scanNumber text = some (value, rest)) :
    rest ⊆ text ∧ PlainValue value := by
  unfold scanNumber at scanned
  dsimp only at scanned
  have unsigned : (if text.head? = some 0x2d then text.tail else text) ⊆ text := by
    split
    · exact (List.tail_suffix text).subset
    · exact List.Subset.refl _
  generalize (if text.head? = some 0x2d then text.tail else text) = magnitude at unsigned scanned
  have left : (scanExponent (scanFraction (scanWhole magnitude).2).2).2 ⊆ text :=
    List.Subset.trans (scanExponent_subset _) (List.Subset.trans (scanFraction_subset _)
      (List.Subset.trans (scanWhole_subset _) unsigned))
  split at scanned
  · cases scanned
  split at scanned
  · split at scanned
    · cases scanned
    · cases scanned
      exact ⟨left, plainValue_of_ne (by simp) (by simp)⟩
  · cases scanned
    exact ⟨left, plainValue_of_ne (by simp) (by simp)⟩

theorem scanWord_spec {word text rest : Str} {value found : Json}
    (scanned : scanWord word value text = some (found, rest)) : rest ⊆ text ∧ found = value := by
  unfold scanWord at scanned
  split at scanned
  · cases scanned
    exact ⟨List.drop_subset _ _, rfl⟩
  · cases scanned

/-- What a scanner leaves is a part of its text, and its strings are plain. -/
structure Scanners (fuel : Nat) : Prop where
  value : ∀ text found rest, (∀ char ∈ text, IsScalar char) →
    scanValue fuel text = some (found, rest) → rest ⊆ text ∧ PlainValue found
  items : ∀ text found rest, (∀ char ∈ text, IsScalar char) →
    scanItems fuel text = some (found, rest) → rest ⊆ text
  members : ∀ text found rest, (∀ char ∈ text, IsScalar char) →
    scanMembers fuel text = some (found, rest) →
      rest ⊆ text ∧ ∀ field ∈ found, PlainValue field.2

theorem scanValue_step {fuel : Nat} (scanners : Scanners fuel) {text rest : Str} {found : Json}
    (scalars : ∀ char ∈ text, IsScalar char)
    (scanned : scanValue (fuel + 1) text = some (found, rest)) :
    rest ⊆ text ∧ PlainValue found := by
  cases text with
  | nil =>
      rw [scanValue.eq_def] at scanned
      cases scanned
  | cons char more =>
      have inside : ∀ part, part ⊆ more → part ⊆ char :: more := fun part subset =>
        List.Subset.trans subset (List.subset_cons_self _ _)
      have spaced : skipSpace more ⊆ char :: more := inside _ (skipSpace_subset more)
      rw [scanValue.eq_def] at scanned
      dsimp only at scanned
      split at scanned
      · obtain ⟨after, string, same⟩ := Option.map_eq_some_iff.mp scanned
        cases same
        have holds := scanString_spec string fun other member =>
          scalars other (List.mem_cons_of_mem _ member)
        refine ⟨inside _ holds.2, ?_, by simp⟩
        rintro text ⟨⟩
        exact unpaired_joinSurrogates holds.1
      split at scanned
      · cases next : skipSpace more with
        | nil =>
            rw [next] at scanned
            cases scanned
        | cons first afterNext =>
            rw [next] at scanned spaced
            dsimp only at scanned
            split at scanned
            · cases scanned
              refine ⟨List.Subset.trans (List.subset_cons_self _ _) spaced, by simp, ?_⟩
              rintro fields ⟨⟩ field ⟨⟩
            · cases members : scanMembers fuel (first :: afterNext) with
              | none =>
                  rw [members] at scanned
                  cases scanned
              | some result =>
                  rw [members] at scanned
                  dsimp only at scanned
                  split at scanned
                  · cases scanned
                    have holds := scanners.members _ _ _
                      (fun other member => scalars other (spaced member)) members
                    refine ⟨List.Subset.trans holds.1 spaced, by simp, ?_⟩
                    rintro fields ⟨⟩ field member
                    exact (holds.2 field member).string
                  · cases scanned
      split at scanned
      · cases next : skipSpace more with
        | nil =>
            rw [next] at scanned
            cases scanned
        | cons first afterNext =>
            rw [next] at scanned spaced
            dsimp only at scanned
            split at scanned
            · cases scanned
              exact ⟨List.Subset.trans (List.subset_cons_self _ _) spaced,
                plainValue_of_ne (by simp) (by simp)⟩
            · obtain ⟨after, items, same⟩ := Option.map_eq_some_iff.mp scanned
              cases same
              have holds := scanners.items _ _ _
                (fun other member => scalars other (spaced member)) items
              exact ⟨List.Subset.trans holds spaced, plainValue_of_ne (by simp) (by simp)⟩
      split at scanned
      · obtain ⟨left, rfl⟩ := scanWord_spec scanned
        exact ⟨left, plainValue_of_ne (by simp) (by simp)⟩
      split at scanned
      · obtain ⟨left, rfl⟩ := scanWord_spec scanned
        exact ⟨left, plainValue_of_ne (by simp) (by simp)⟩
      split at scanned
      · obtain ⟨left, rfl⟩ := scanWord_spec scanned
        exact ⟨left, plainValue_of_ne (by simp) (by simp)⟩
      · exact scanNumber_spec scanned

theorem scanItems_step {fuel : Nat} (scanners : Scanners fuel) {text rest : Str}
    {found : List Json} (scalars : ∀ char ∈ text, IsScalar char)
    (scanned : scanItems (fuel + 1) text = some (found, rest)) : rest ⊆ text := by
  rw [scanItems] at scanned
  cases item : scanValue fuel text with
  | none =>
      rw [item] at scanned
      cases scanned
  | some result =>
      obtain ⟨value, afterItem⟩ := result
      have after := (scanners.value _ _ _ scalars item).1
      have spaced := List.Subset.trans (skipSpace_subset afterItem) after
      rw [item] at scanned
      dsimp only at scanned
      cases next : skipSpace afterItem with
      | nil =>
          rw [next] at scanned
          cases scanned
      | cons char tail =>
          rw [next] at scanned spaced
          have left := List.Subset.trans (List.subset_cons_self char tail) spaced
          dsimp only at scanned
          split at scanned
          · cases scanned
            exact left
          split at scanned
          · obtain ⟨more, items, same⟩ := Option.map_eq_some_iff.mp scanned
            cases same
            have subset := List.Subset.trans (skipSpace_subset tail) left
            exact List.Subset.trans (scanners.items _ _ _
              (fun other member => scalars other (subset member)) items) subset
          · cases scanned

theorem scanMembers_step {fuel : Nat} (scanners : Scanners fuel) {text rest : Str}
    {found : List (Str × Json)} (scalars : ∀ char ∈ text, IsScalar char)
    (scanned : scanMembers (fuel + 1) text = some (found, rest)) :
    rest ⊆ text ∧ ∀ field ∈ found, PlainValue field.2 := by
  cases text with
  | nil =>
      rw [scanMembers.eq_def] at scanned
      cases scanned
  | cons char more =>
      rw [scanMembers.eq_def] at scanned
      dsimp only at scanned
      split at scanned
      · cases scanned
      cases key : scanString more with
      | none =>
          rw [key] at scanned
          cases scanned
      | some result =>
          obtain ⟨units, afterKey⟩ := result
          have keyed := (scanString_spec key fun other member =>
            scalars other (List.mem_cons_of_mem _ member)).2
          have spaced := List.Subset.trans (skipSpace_subset afterKey)
            (List.Subset.trans keyed (List.subset_cons_self char more))
          rw [key] at scanned
          dsimp only at scanned
          cases next : skipSpace afterKey with
          | nil =>
              rw [next] at scanned
              cases scanned
          | cons colon afterColon =>
              rw [next] at scanned spaced
              dsimp only at scanned
              split at scanned
              · cases scanned
              have colonLeft := List.Subset.trans (skipSpace_subset afterColon)
                (List.Subset.trans (List.subset_cons_self colon afterColon) spaced)
              cases item : scanValue fuel (skipSpace afterColon) with
              | none =>
                  rw [item] at scanned
                  cases scanned
              | some result =>
                  obtain ⟨value, afterValue⟩ := result
                  obtain ⟨after, plain⟩ := scanners.value _ _ _
                    (fun other member => scalars other (colonLeft member)) item
                  have valueLeft := List.Subset.trans (skipSpace_subset afterValue)
                    (List.Subset.trans after colonLeft)
                  rw [item] at scanned
                  dsimp only at scanned
                  cases last : skipSpace afterValue with
                  | nil =>
                      rw [last] at scanned
                      cases scanned
                  | cons stop tail =>
                      rw [last] at scanned valueLeft
                      have left := List.Subset.trans (List.subset_cons_self stop tail) valueLeft
                      dsimp only at scanned
                      split at scanned
                      · cases scanned
                        refine ⟨left, ?_⟩
                        rintro field (_ | ⟨_, ⟨⟩⟩)
                        exact plain
                      split at scanned
                      · obtain ⟨rested, members, same⟩ := Option.map_eq_some_iff.mp scanned
                        cases same
                        have subset := List.Subset.trans (skipSpace_subset tail) left
                        have holds := scanners.members _ _ _
                          (fun other member => scalars other (subset member)) members
                        refine ⟨List.Subset.trans holds.1 subset, ?_⟩
                        rintro field (_ | ⟨_, member⟩)
                        · exact plain
                        · exact holds.2 field member
                      · cases scanned

theorem scanners_all (fuel : Nat) : Scanners fuel := by
  induction fuel with
  | zero =>
      constructor
      · intro text found rest _ scanned
        rw [scanValue] at scanned
        cases scanned
      · intro text found rest _ scanned
        rw [scanItems] at scanned
        cases scanned
      · intro text found rest _ scanned
        rw [scanMembers] at scanned
        cases scanned
  | succ fuel inductionHypothesis =>
      constructor
      · intro text found rest scalars scanned
        exact scanValue_step inductionHypothesis scalars scanned
      · intro text found rest scalars scanned
        exact scanItems_step inductionHypothesis scalars scanned
      · intro text found rest scalars scanned
        exact scanMembers_step inductionHypothesis scalars scanned

/-- The strings of an object that is parsed hold no surrogates that make a pair. -/
theorem unpaired_of_jsonLoads {raw : Str} {fields : Dict} (scalars : ∀ char ∈ raw, IsScalar char)
    (loaded : jsonLoads raw = some (.dict fields)) {key text : Str}
    (found : fields.lookup key = some (.str text)) : Unpaired text := by
  obtain ⟨before, after, rfl, -⟩ := List.lookup_eq_some_iff.mp found
  unfold jsonLoads at loaded
  cases scanned : scanValue (2 * raw.length + 2) (skipSpace raw) with
  | none =>
      rw [scanned] at loaded
      cases loaded
  | some result =>
      obtain ⟨value, rest⟩ := result
      rw [scanned] at loaded
      dsimp only at loaded
      split at loaded
      · cases loaded
        have plain := ((scanners_all _).value _ _ _
          (fun other member => scalars other (skipSpace_subset raw member)) scanned).2
        exact plain.fields _ rfl (key, .str text) (by simp) text rfl
      · cases loaded

end Goggles
