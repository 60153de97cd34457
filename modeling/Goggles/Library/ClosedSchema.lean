/-
Module: Goggles.Library.ClosedSchema
Purpose: Closed JSON schemas with the draft 2020-12 reading of the keywords a record format needs:
  `type`, `minLength`, `pattern`, `minimum`, `maximum`, `const`, `enum`, `items`, `required`,
  `properties` and `additionalProperties: false`.
Trusted boundary: keyword semantics of the Python `jsonschema` validator (integral floats are
  integers, `pattern` is `re.search`, `$` also matches before one trailing newline)
Main exports: HexPattern, Schema, Schema.valid, Schema.valid_dict_iff, Schema.property_cases,
  Schema.exists_text_of_requiresText
-/
import Goggles.Python.Json

namespace Goggles

/-- The anchored hexadecimal patterns of a record format. -/
inductive HexPattern where
  | oneOrMore
  | exactly (count : Nat)
deriving Repr, DecidableEq

/-- The text `re.search` matches between `^` and `$`: the whole string, or all of it but one
trailing newline. -/
def dollarBody (text : Str) : Str := if text.getLast? = some 0x0a then text.dropLast else text

/-- `re.search` of the pattern finds a match. -/
def HexPattern.search (pattern : HexPattern) (text : Str) : Bool :=
  (dollarBody text).all isHexDigit &&
    match pattern with
    | .oneOrMore => !(dollarBody text).isEmpty
    | .exactly count => (dollarBody text).length == count

/-- A closed schema: every object admits exactly its listed properties. -/
inductive Schema where
  | string (minLength : Nat)
  | pattern (hex : HexPattern)
  | integer (maximum : Option Nat)
  | boolean
  | const (text : Str)
  | enum (texts : List Str)
  | array (items : Schema)
  | object (required : List Str) (properties : List (Str × Schema))
deriving Repr, Inhabited

/-- `type: integer, minimum: 0` with an optional maximum.  A float with no fractional part is an
integer; a Boolean is not. -/
def validInteger (maximum : Option Nat) : Json → Bool
  | .int value => 0 ≤ value && maximum.all fun bound => value ≤ (bound : Int)
  | .float value => value.isInteger && value.atLeast 0 && maximum.all fun bound => value.atMost bound
  | _ => false

mutual

/-- `Draft202012Validator(schema).is_valid(value)`. -/
def Schema.valid : Schema → Json → Bool
  | .string minLength, .str text => minLength ≤ text.length
  | .pattern hex, .str text => hex.search text
  | .integer maximum, value => validInteger maximum value
  | .boolean, .bool _ => true
  | .const expected, .str text => text == expected
  | .enum texts, .str text => texts.contains text
  | .array items, .list values => values.all items.valid
  | .object required properties, .dict fields =>
      required.all (Dict.hasKey fields) &&
        (fields.all fun field => (properties.map Prod.fst).contains field.1) &&
        Schema.validProperties properties fields
  | _, _ => false

/-- The `properties` keyword: each listed property that is present is valid. -/
def Schema.validProperties : List (Str × Schema) → Dict → Bool
  | [], _ => true
  | (name, schema) :: rest, fields =>
      (match fields.lookup name with
        | none => true
        | some value => schema.valid value) &&
        Schema.validProperties rest fields

end

namespace Schema

example (schema : Schema) :
    (Schema.object [] [([0x61], schema)]).valid (.dict [([0x61], .null)]) = schema.valid .null := by
  simp [valid, validProperties]

theorem validProperties_iff {properties : List (Str × Schema)} {fields : Dict} :
    validProperties properties fields = true ↔
      ∀ entry ∈ properties, ∀ value, fields.lookup entry.1 = some value →
        entry.2.valid value = true := by
  induction properties with
  | nil => simp [validProperties]
  | cons head rest inductionHypothesis =>
      obtain ⟨name, schema⟩ := head
      rw [validProperties, Bool.and_eq_true, inductionHypothesis]
      cases found : fields.lookup name with
      | none => simp [found]
      | some value => simp [found]

/-- Validity of an object, keyword by keyword. -/
theorem valid_dict_iff {required : List Str} {properties : List (Str × Schema)} {fields : Dict} :
    (Schema.object required properties).valid (.dict fields) = true ↔
      (∀ name ∈ required, fields.hasKey name = true) ∧
        (∀ field ∈ fields, field.1 ∈ properties.map Prod.fst) ∧
        ∀ entry ∈ properties, ∀ value, fields.lookup entry.1 = some value →
          entry.2.valid value = true := by
  simp only [valid, Bool.and_eq_true, List.all_eq_true, validProperties_iff, and_assoc,
    List.contains_iff_mem]

theorem valid_list_iff {items : Schema} {values : List Json} :
    (Schema.array items).valid (.list values) = true ↔
      ∀ value ∈ values, items.valid value = true := by
  simp [valid]

theorem eq_dict_of_valid_object {required : List Str} {properties : List (Str × Schema)}
    {value : Json} (accepted : (Schema.object required properties).valid value = true) :
    ∃ fields, value = .dict fields := by
  cases value <;> simp_all [valid]

theorem eq_list_of_valid_array {items : Schema} {value : Json}
    (accepted : (Schema.array items).valid value = true) : ∃ values, value = .list values := by
  cases value <;> simp_all [valid]

/-- A value of one of the string schemas is a string. -/
theorem eq_str_of_valid_string {minLength : Nat} {value : Json}
    (accepted : (Schema.string minLength).valid value = true) :
    ∃ text, value = .str text ∧ minLength ≤ text.length := by
  cases value <;> simp_all [valid]

theorem eq_str_of_valid_pattern {hex : HexPattern} {value : Json}
    (accepted : (Schema.pattern hex).valid value = true) :
    ∃ text, value = .str text ∧ hex.search text = true := by
  cases value <;> simp_all [valid]

theorem eq_str_of_valid_enum {texts : List Str} {value : Json}
    (accepted : (Schema.enum texts).valid value = true) :
    ∃ text, value = .str text ∧ text ∈ texts := by
  cases value <;> simp_all [valid]

theorem eq_str_of_valid_const {expected : Str} {value : Json}
    (accepted : (Schema.const expected).valid value = true) : value = .str expected := by
  cases value <;> simp_all [valid]

theorem eq_bool_of_valid_boolean {value : Json} (accepted : Schema.boolean.valid value = true) :
    ∃ flag, value = .bool flag := by
  cases value <;> simp_all [valid]

/-- An integer value is a non-negative `int`, or an integral float. -/
theorem valid_integer_cases {maximum : Option Nat} {value : Json}
    (accepted : (Schema.integer maximum).valid value = true) :
    (∃ number : Nat, value = .int number) ∨ ∃ number, value = .float number := by
  cases value with
  | int number =>
      simp only [valid, validInteger, Bool.and_eq_true, decide_eq_true_eq] at accepted
      obtain ⟨natural, same⟩ := Int.eq_ofNat_of_zero_le accepted.1
      exact .inl ⟨natural, by rw [same]⟩
  | float number => exact .inr ⟨number, rfl⟩
  | null | bool | str | list | dict => simp [valid, validInteger] at accepted

/-- A present property of a valid object is valid under its own schema. -/
theorem valid_property {required : List Str} {properties : List (Str × Schema)} {fields : Dict}
    (accepted : (Schema.object required properties).valid (.dict fields) = true)
    (name : Str) (schema : Schema) (listed : (name, schema) ∈ properties) {value : Json}
    (found : fields.lookup name = some value) : schema.valid value = true :=
  (valid_dict_iff.mp accepted).2.2 (name, schema) listed value found

/-- A required property is present and valid under its own schema. -/
theorem valid_required {required : List Str} {properties : List (Str × Schema)} {fields : Dict}
    (accepted : (Schema.object required properties).valid (.dict fields) = true)
    (name : Str) (schema : Schema) (needed : name ∈ required)
    (listed : (name, schema) ∈ properties) :
    ∃ value, fields.lookup name = some value ∧ schema.valid value = true := by
  have present := (valid_dict_iff.mp accepted).1 name needed
  rw [Dict.hasKey, Option.isSome_iff_exists] at present
  obtain ⟨value, found⟩ := present
  exact ⟨value, found, valid_property accepted name schema listed found⟩

/-- A property the schema does not list is absent. -/
theorem lookup_eq_none_of_unlisted {required : List Str} {properties : List (Str × Schema)}
    {fields : Dict} (accepted : (Schema.object required properties).valid (.dict fields) = true)
    {name : Str} (unlisted : name ∉ properties.map Prod.fst) : fields.lookup name = none := by
  rw [List.lookup_eq_none_iff]
  intro field member
  have allowed := (valid_dict_iff.mp accepted).2.1 field member
  have different : name ≠ field.1 := fun same => unlisted (same ▸ allowed)
  simpa using different

end Schema

/-! ### Descending into a schema -/

namespace Schema

/-- The schema of a listed property. -/
def property : Schema → Str → Option Schema
  | .object _ properties, name => properties.lookup name
  | _, _ => none

/-- The schema of the items of an array. -/
def element : Schema → Option Schema
  | .array items => some items
  | _ => none

/-- The schema is an object that requires a property. -/
def requires : Schema → Str → Bool
  | .object required _, name => required.contains name
  | _, _ => false

/-- Every value of the schema is a non-empty string. -/
def isNonEmptyText : Schema → Bool
  | .string minLength => 1 ≤ minLength
  | .const text => !text.isEmpty
  | .enum texts => texts.all fun text => !text.isEmpty
  | _ => false

/-- The schema is an object that requires a non-empty string under a name. -/
def requiresText (schema : Schema) (name : Str) : Bool :=
  schema.requires name && (schema.property name).any isNonEmptyText

/-- A member of a valid object is valid under the schema listed for it; an unlisted one is absent. -/
theorem property_cases {schema : Schema} {fields : Dict}
    (accepted : schema.valid (.dict fields) = true) (name : Str) :
    fields.lookup name = none ∨
      ∃ inner value, schema.property name = some inner ∧ fields.lookup name = some value ∧
        inner.valid value = true := by
  cases schema with
  | object required properties =>
      cases listed : properties.lookup name with
      | none =>
          refine .inl (lookup_eq_none_of_unlisted accepted fun member => ?_)
          obtain ⟨entry, entryMember, same⟩ := List.mem_map.mp member
          have missed := List.lookup_eq_none_iff.mp listed entry entryMember
          simp [same] at missed
      | some inner =>
          cases found : fields.lookup name with
          | none => exact .inl rfl
          | some value =>
              obtain ⟨before, after, split, -⟩ := List.lookup_eq_some_iff.mp listed
              exact .inr ⟨inner, value, listed, rfl,
                valid_property accepted _ _ (by simp [split]) found⟩
  | string | pattern | integer | boolean | const | enum | array => simp [valid, validInteger] at accepted

/-- The items of a valid array are valid under its item schema. -/
theorem valid_of_mem_listOrEmpty {schema : Schema} {value item : Json}
    (accepted : schema.valid value = true) (member : item ∈ value.listOrEmpty) :
    ∃ inner, schema.element = some inner ∧ inner.valid item = true := by
  cases value with
  | list values =>
      cases schema with
      | array items => exact ⟨items, rfl, valid_list_iff.mp accepted item member⟩
      | string | pattern | integer | boolean | const | enum | object =>
          simp [valid, validInteger] at accepted
  | null | bool | int | float | str | dict => simp [Json.listOrEmpty] at member

theorem exists_text_of_isNonEmptyText {schema : Schema} {value : Json}
    (text : schema.isNonEmptyText = true) (accepted : schema.valid value = true) :
    ∃ content, value = .str content ∧ content ≠ [] := by
  cases schema with
  | string minLength =>
      obtain ⟨content, same, long⟩ := eq_str_of_valid_string accepted
      refine ⟨content, same, fun blank => ?_⟩
      simp only [isNonEmptyText, decide_eq_true_eq] at text
      simp only [blank, List.length_nil] at long
      omega
  | const expected =>
      refine ⟨expected, eq_str_of_valid_const accepted, ?_⟩
      simpa [isNonEmptyText] using text
  | enum texts =>
      obtain ⟨content, same, member⟩ := eq_str_of_valid_enum accepted
      simp only [isNonEmptyText, List.all_eq_true] at text
      exact ⟨content, same, by simpa using text content member⟩
  | pattern | integer | boolean | array | object => simp [isNonEmptyText] at text

/-- A required non-empty string of a valid object is there. -/
theorem exists_text_of_requiresText (schema : Schema) {name : Str} {fields : Dict}
    (needed : schema.requiresText name = true) (accepted : schema.valid (.dict fields) = true) :
    ∃ content, fields.get name = .str content ∧ content ≠ [] := by
  rw [requiresText, Bool.and_eq_true] at needed
  rcases property_cases accepted name with absent | ⟨inner, value, listed, found, valid⟩
  · cases schema with
    | object required properties =>
        have present := (valid_dict_iff.mp accepted).1 name
          (List.contains_iff_mem.mp (by simpa [requires] using needed.1))
        simp [Dict.hasKey, absent] at present
    | string | pattern | integer | boolean | const | enum | array => simp [requires] at needed
  · rw [listed, Option.any_some] at needed
    obtain ⟨content, same, present⟩ := exists_text_of_isNonEmptyText needed.2 valid
    exact ⟨content, by simp [Dict.get, found, same], present⟩

end Schema

end Goggles
