/-
Module: Goggles.Ingest.Readings
Purpose: What the normalizer reads of a schema-valid event, and exactly when it refuses a value: when
  the value exceeds its limit, or is one that the schema admits and the normalizer does not.
Trusted boundary: none beyond the modules it imports
Main exports: Reading, CopyType.odd, eventReadings, normalizeEvent_clean_iff
-/
import Goggles.Ingest.Accepted

namespace Goggles

/-! ### Readings -/

/-- A value that the normalizer reads, what it should be, and the limit on its length or its size. -/
structure Reading where
  type : CopyType
  limit : Option Nat
  value : Json
deriving Repr, DecidableEq

def isFloat : Json → Bool
  | .float _ => true
  | _ => false

def endsInNewline : Json → Bool
  | .str text => text.getLast? = some 0x0a
  | _ => false

/-- The values of a type's schema that a copy function refuses: an integral float, a text of
hexadecimal digits with a line feed behind it, and a blank text where one is needed. -/
def CopyType.odd : CopyType → Json → Bool
  | .nonEmptyStr, value => value = .str []
  | .int, value => isFloat value
  | .intList, .list items => items.any isFloat
  | .messageId, value => endsInNewline value
  | .messageIdList, .list items => items.any endsInNewline
  | .digest, value => endsInNewline value
  | _, _ => false

def Reading.odd (reading : Reading) : Bool := reading.type.odd reading.value

/-- The value is no longer, or no larger, than its limit. -/
def Reading.fits (reading : Reading) : Bool :=
  match reading.value with
  | .str text => reading.limit.all fun limit => text.length ≤ limit
  | .int value => reading.limit.all fun (limit : Nat) => value ≤ (limit : Int)
  | .float value => reading.limit.all fun limit => value.atMost limit
  | _ => true

/-- The limit of a copy function on the values of its type. -/
def CopyRule.limit (rule : CopyRule) : Option Nat :=
  match rule.type with
  | .nonEmptyStr | .str => stringLimit rule.dest
  | .int => modelIntFieldMax rule.dest
  | .messageId => some MSG_ID_MAX_LENGTH
  | _ => none

def CopyRule.reading (rule : CopyRule) (source : Dict) : Reading :=
  ⟨rule.type, rule.limit, source.get rule.field⟩

/-- What a statement of `normalize_kind` reads. -/
def Copy.readings (kind : Dict) : Copy → List Reading
  | .field rule => [rule.reading kind]
  | .within key rules => rules.map fun rule => rule.reading (kind.get key).dictOrEmpty
  | .outboundMessages => (kind.get "outbound_messages").listOrEmpty.map fun message =>
      ⟨.messageId, some MSG_ID_MAX_LENGTH, message.dictOrEmpty.get "msg_id"⟩
  | .relayUrl | .outboundWelcomeMsgIds | .winner | .peelerOutcome | .candidates => []

/-- What `normalize_event` reads before it looks at the context and the kind. -/
def envelopeReadings (data : Dict) : List Reading :=
  [⟨.str, stringLimit "recorder_session_id", data.get "recorder_session_id"⟩,
   ⟨.int, modelIntFieldMax "seq", data.get "seq"⟩,
   ⟨.int, some MAX_WALL_TIME_MS, data.get "wall_time_ms"⟩,
   ⟨.str, stringLimit "engine_id", data.get "engine_id"⟩,
   ⟨.str, some groupRefMaxLength, data.get "group_ref"⟩]

/-- What `normalize_context` reads. -/
def contextReadings (context : Dict) : List Reading :=
  (copyContextStr "operation_id" "context_operation_id").reading context ::
    (copyHumanActionFields.map fun rule =>
        rule.reading (context.get "human_action").dictOrEmpty) ++
      contextObjectRules.map fun rule => rule.reading context

/-- What `normalize_kind` reads. -/
def kindReadings (kind : Dict) : List Reading :=
  (kindCopies (valueIfStr (kind.get "type"))).flatMap (Copy.readings kind)

/-- What `normalize_event` reads. -/
def eventReadings (data : Dict) : List Reading :=
  envelopeReadings data ++ contextReadings (data.get "context").dictOrEmpty ++
    kindReadings (data.get "kind").dictOrEmpty

/-! ### Types and schemas -/

/-- The values of the schema are of the type, odd ones apart. -/
def CopyType.admits : CopyType → Schema → Bool
  | .nonEmptyStr, .string _ => true
  | .nonEmptyStr, .enum texts => !texts.contains []
  | .str, .string _ => true
  | .str, .enum _ => true
  | .int, .integer _ => true
  | .strList, .array (.string _) => true
  | .intList, .array (.integer _) => true
  | .messageId, .pattern (.exactly 64) => true
  | .messageIdList, .array (.pattern (.exactly 64)) => true
  | .digest, .pattern (.exactly 64) => true
  | .list, .array _ => true
  | .bool, .boolean => true
  | .dict, .object _ _ => true
  | _, _ => false

theorem valueIfInt_of_valid {maximum : Option Nat} {value : Json}
    (valid : (Schema.integer maximum).valid value = true) :
    (valueIfInt value).isSome = !isFloat value := by
  rcases Schema.valid_integer_cases valid with ⟨number, rfl⟩ | ⟨number, rfl⟩
  · simp [isFloat]
  · rfl

/-- A matched digest is one, unless a line feed follows it. -/
theorem isHexOfLength_of_valid {count : Nat} {value : Json}
    (valid : (Schema.pattern (.exactly count)).valid value = true) (some_ : 0 < count) :
    isHexOfLength count value = !endsInNewline value := by
  obtain ⟨text, rfl, matched⟩ := Schema.eq_str_of_valid_pattern valid
  rw [HexPattern.search, Bool.and_eq_true, beq_iff_eq] at matched
  obtain ⟨digits, long⟩ := matched
  by_cases newline : text.getLast? = some 0x0a
  · have longer : text.length ≠ count := by
      rw [dollarBody, if_pos newline, List.length_dropLast] at long
      omega
    simp [isHexOfLength, endsInNewline, newline, longer]
  · rw [dollarBody, if_neg newline] at digits long
    have present : text ≠ [] := by
      rintro rfl
      rw [List.length_nil] at long
      omega
    simp [isHexOfLength, hexFullmatch, endsInNewline, newline, long, digits, present]

theorem all_eq_not_any {items : List Json} {accepts odd : Json → Bool}
    (same : ∀ item ∈ items, accepts item = !odd item) : items.all accepts = !items.any odd := by
  rw [List.not_any_eq_all_not, Bool.eq_iff_iff, List.all_eq_true, List.all_eq_true]
  refine forall₂_congr fun item member => ?_
  rw [same item member]

/-- A copy function takes every value of the schema that is not odd. -/
theorem CopyType.accepts_of_valid {type : CopyType} {schema : Schema} {value : Json}
    (admits : type.admits schema = true) (valid : schema.valid value = true) :
    type.accepts value = !type.odd value := by
  unfold CopyType.admits at admits
  split at admits
  · obtain ⟨text, rfl, -⟩ := Schema.eq_str_of_valid_string valid
    cases text <;> rfl
  · obtain ⟨text, rfl, member⟩ := Schema.eq_str_of_valid_enum valid
    have present : text ≠ [] := by
      rintro rfl
      simp [member] at admits
    simp [CopyType.accepts, CopyType.odd, present]
  · obtain ⟨text, rfl, -⟩ := Schema.eq_str_of_valid_string valid
    rfl
  · obtain ⟨text, rfl, -⟩ := Schema.eq_str_of_valid_enum valid
    rfl
  · exact valueIfInt_of_valid valid
  · obtain ⟨values, rfl⟩ := Schema.eq_list_of_valid_array valid
    apply List.all_eq_true.mpr
    intro item member
    obtain ⟨text, rfl, -⟩ := Schema.eq_str_of_valid_string
      (Schema.valid_list_iff.mp valid item member)
    rfl
  · obtain ⟨values, rfl⟩ := Schema.eq_list_of_valid_array valid
    apply all_eq_not_any
    intro item member
    exact valueIfInt_of_valid (Schema.valid_list_iff.mp valid item member)
  · exact isHexOfLength_of_valid valid (by decide)
  · obtain ⟨values, rfl⟩ := Schema.eq_list_of_valid_array valid
    apply all_eq_not_any
    intro item member
    exact isHexOfLength_of_valid (Schema.valid_list_iff.mp valid item member) (by decide)
  · exact isHexOfLength_of_valid valid (by decide)
  · obtain ⟨values, rfl⟩ := Schema.eq_list_of_valid_array valid
    rfl
  · obtain ⟨flag, rfl⟩ := Schema.eq_bool_of_valid_boolean valid
    rfl
  · obtain ⟨fields, rfl⟩ := Schema.eq_dict_of_valid_object valid
    rfl
  · cases admits

theorem Schema.valid_null (schema : Schema) : schema.valid .null = false := by
  cases schema <;> simp [valid, validInteger]

/-! ### One rule -/

/-- A rule reads a property of the schema, which the schema requires when the rule does; a refused
value is reported, unless no value of the schema is refused. -/
def CopyRule.suits (rule : CopyRule) (schema : Schema) : Bool :=
  match schema.property rule.field with
  | some inner =>
      rule.type.admits inner && (rule.missing.isNone || schema.requires rule.field) &&
        (rule.mistyped.isSome || rule.type == .dict)
  | none => rule.missing.isNone

theorem Schema.lookup_of_requires {schema : Schema} {fields : Dict} {name : Str}
    (valid : schema.valid (.dict fields) = true) (requires : schema.requires name = true) :
    fields.lookup name ≠ none := by
  cases schema with
  | object required properties =>
      have present := (Schema.valid_dict_iff.mp valid).1 name (List.contains_iff_mem.mp requires)
      intro absent
      rw [Dict.hasKey, absent] at present
      cases present
  | string | pattern | integer | boolean | const | enum | array => cases requires

/-- A value of the right type passes the limit check exactly when it fits. -/
theorem CopyRule.limitError_eq_none_iff {rule : CopyRule} {value : Json}
    (accepted : rule.type.accepts value = true) :
    rule.limitError value = none ↔
      Reading.fits ⟨rule.type, rule.limit, value⟩ = true := by
  obtain ⟨field, dest, type, missing, mistyped⟩ := rule
  cases type with
  | nonEmptyStr | str =>
      cases value with
      | str text =>
          simp only [limitError, Reading.fits, limit, stringExceedsModelLimit_eq_none_iff]
          cases stringLimit dest <;> simp
      | null | bool | int | float | list | dict => cases accepted
  | int =>
      cases value with
      | int number =>
          simp only [CopyType.accepts, valueIfInt, Option.isSome_ite] at accepted
          obtain ⟨natural, rfl⟩ := Int.eq_ofNat_of_zero_le accepted
          simp only [limitError, Reading.fits, limit, intExceedsModelLimit_eq_none_iff]
          cases modelIntFieldMax dest <;> simp
      | null | bool | str | float | list | dict => cases accepted
  | messageId =>
      cases value with
      | str text => simp [limitError, Reading.fits, limit]
      | null | bool | int | float | list | dict => cases accepted
  | strList | intList | messageIdList | digest | list | bool | dict =>
      cases value <;> simp [limitError, Reading.fits, limit]

/-- On an object of the schema, a rule that suits it reports nothing exactly when what it reads fits
and is not odd. -/
theorem CopyRule.errorsFor_eq_nil_iff {rule : CopyRule} {schema : Schema} {source : Dict}
    (suits : rule.suits schema = true) (valid : schema.valid (.dict source) = true) :
    rule.errorsFor source = [] ↔
      (rule.reading source).fits = true ∧ (rule.reading source).odd = false := by
  unfold CopyRule.suits at suits
  rcases Schema.property_cases valid rule.field with absent | ⟨inner, value, listed, found, inside⟩
  · have nothing : source.get rule.field = .null := by rw [Dict.get, absent]; rfl
    have silent : rule.missing = none := by
      split at suits
      · simp only [Bool.and_eq_true, Bool.or_eq_true, Option.isNone_iff_eq_none] at suits
        rcases suits.1.2 with silent | requires
        · exact silent
        · exact absurd absent (Schema.lookup_of_requires valid requires)
      · exact Option.isNone_iff_eq_none.mp suits
    have plain : rule.type.odd .null = false := by cases rule.type <;> rfl
    simp [errorsFor, nothing, silent, Reading.fits, Reading.odd, reading, plain]
  · rw [listed] at suits
    simp only [Bool.and_eq_true, Bool.or_eq_true] at suits
    obtain ⟨⟨admits, -⟩, reports⟩ := suits
    have read : source.get rule.field = value := by rw [Dict.get, found]; rfl
    have present : value ≠ .null := by
      rintro rfl
      rw [Schema.valid_null] at inside
      cases inside
    have accepts := CopyType.accepts_of_valid admits inside
    rw [errorsFor, read, if_neg present, reading, read, accepts, Bool.not_not, Reading.odd]
    dsimp only
    cases odd : rule.type.odd value with
    | true =>
        have reported : rule.mistyped.isSome = true := by
          rcases reports with reported | isDict
          · exact reported
          · rw [beq_iff_eq] at isDict
            rw [isDict] at odd
            cases odd
        obtain ⟨error, same⟩ := Option.isSome_iff_exists.mp reported
        simp [same]
    | false =>
        rw [odd, Bool.not_false] at accepts
        rw [← limitError_eq_none_iff accepts]
        simp

/-- A clean copy of a value that is there stores it. -/
theorem CopyRule.run_get_of_suits {rule : CopyRule} {schema : Schema} {source : Dict}
    {state : Normalization} (suits : rule.suits schema = true)
    (valid : schema.valid (.dict source) = true)
    (clean : (rule.run source state).errors = []) (present : source.get rule.field ≠ .null) :
    (rule.run source state).normalized.get rule.dest = source.get rule.field := by
  rw [run_errors, List.append_eq_nil_iff] at clean
  obtain ⟨fits, notOdd⟩ := (errorsFor_eq_nil_iff suits valid).mp clean.2
  unfold CopyRule.suits at suits
  rcases Schema.property_cases valid rule.field with absent | ⟨inner, value, listed, found, inside⟩
  · exact absurd (by rw [Dict.get, absent]; rfl) present
  · rw [listed] at suits
    simp only [Bool.and_eq_true] at suits
    have read : source.get rule.field = value := by rw [Dict.get, found]; rfl
    have accepts := CopyType.accepts_of_valid suits.1.1 inside
    rw [Reading.odd, reading, read] at notOdd
    dsimp only at notOdd
    rw [notOdd, Bool.not_false] at accepts
    rw [reading, read] at fits
    have inLimit := (limitError_eq_none_iff accepts).mpr fits
    rw [run, read]
    rw [read] at present
    simp [present, accepts, inLimit]

/-! ### One statement -/

/-- The schema is an enumeration of allowed texts. -/
def Schema.enumWithin (allowed : List Str) : Schema → Bool
  | .enum texts => texts.all allowed.contains
  | _ => false

/-- The texts that `checkWinner` allows. -/
def winners : List Str := ["candidate", "incumbent", "missing_snapshot"]

/-- A statement suits the schema of the kinds it runs on, behind the statement before it. -/
def Copy.suits (schema : Schema) (previous : Option Copy) : Copy → Bool
  | .field rule => rule.suits schema
  | .within key rules => (schema.property key).all fun inner => rules.all (·.suits inner)
  | .relayUrl => (schema.property "relay_url").all CopyType.str.admits
  | .outboundMessages => (schema.property "outbound_messages").all fun inner =>
      inner.element.any copyMsgId.suits
  | .outboundWelcomeMsgIds => (schema.property "outbound_welcome_msg_ids").isNone
  | .winner =>
      previous == some (.field (copyStr "winner")) && schema.requires "winner" &&
        (schema.property "winner").any (Schema.enumWithin winners)
  | .peelerOutcome =>
      previous == some (.field (copyStr "outcome")) && schema.requires "outcome" &&
        (schema.property "outcome").any (Schema.enumWithin V4_PEELER_OUTCOMES)
  | .candidates =>
      schema.requires "candidates" && (schema.property "candidates").any (·.element.isSome)

/-- The reading is neither too large nor odd. -/
def Reading.Passes (reading : Reading) : Prop := reading.fits = true ∧ reading.odd = false

theorem exists_of_enumWithin {schema : Schema} {allowed : List Str} {fields : Dict} {name : Str}
    (valid : schema.valid (.dict fields) = true) (requires : schema.requires name = true)
    (within : (schema.property name).any (Schema.enumWithin allowed) = true) :
    ∃ text ∈ allowed, fields.get name = .str text := by
  rcases Schema.property_cases valid name with absent | ⟨inner, value, listed, found, inside⟩
  · exact absurd absent (Schema.lookup_of_requires valid requires)
  · rw [listed, Option.any_some] at within
    cases inner with
    | enum texts =>
        obtain ⟨text, rfl, member⟩ := Schema.eq_str_of_valid_enum inside
        have allowedText := List.all_eq_true.mp within text member
        exact ⟨text, List.contains_iff_mem.mp allowedText, by rw [Dict.get, found]; rfl⟩
    | string | pattern | integer | boolean | const | array | object => cases within

/-- What is read of an absent object passes. -/
theorem passes_of_blank (rule : CopyRule) : (rule.reading []).Passes := by
  refine ⟨rfl, ?_⟩
  rw [Reading.odd, CopyRule.reading]
  cases rule.type <;> rfl

theorem runRules_errors_eq_nil_iff {rules : List CopyRule} {schema : Schema} {source : Dict}
    {state : Normalization} (suits : ∀ rule ∈ rules, rule.suits schema = true)
    (valid : schema.valid (.dict source) = true) :
    (runRules rules source state).errors = [] ↔
      state.errors = [] ∧ ∀ rule ∈ rules, (rule.reading source).Passes := by
  rw [runRules_errors, List.append_eq_nil_iff, List.flatMap_eq_nil_iff]
  apply and_congr_right
  intro _
  refine forall₂_congr fun rule member => ?_
  exact CopyRule.errorsFor_eq_nil_iff (suits rule member) valid

theorem scanOutbound_errors {index : Nat} {messages : List Json} {scan : OutboundScan}
    (named : ∀ message ∈ messages, ∃ fields text, message = .dict fields ∧
      Dict.get fields "msg_id" = .str text ∧
        isValidMessageId (.str text) = !endsInNewline (.str text)) :
    (scanOutbound index messages scan).errors = [] ↔ scan.errors = [] ∧
      ∀ message ∈ messages, endsInNewline (message.dictOrEmpty.get "msg_id") = false := by
  induction messages generalizing index scan with
  | nil => simp [scanOutbound]
  | cons message rest inductionHypothesis =>
      rw [scanOutbound, inductionHypothesis fun other member =>
        named other (List.mem_cons_of_mem message member), List.forall_mem_cons, ← and_assoc]
      apply and_congr_left
      intro _
      obtain ⟨fields, text, rfl, found, valid⟩ := named message List.mem_cons_self
      have read : (Json.dict fields).dictOrEmpty.get "msg_id" = .str text := found
      rw [read, OutboundScan.next, found]
      dsimp only
      cases newline : endsInNewline (.str text) with
      | true =>
          rw [newline, Bool.not_true] at valid
          simp [valid]
      | false =>
          rw [newline, Bool.not_false] at valid
          have short : ¬ MSG_ID_MAX_LENGTH < text.length := by
            simp only [isValidMessageId, isHexOfLength, Bool.and_eq_true, beq_iff_eq] at valid
            rw [valid.1]
            decide
          simp only [valid, Bool.not_true, Bool.false_eq_true, if_false, if_neg short]
          split
          · simp
          · split
            · simp
            · simp

/-- A message of the schema is an object that names itself. -/
theorem exists_msgId_of_suits {item : Schema} {message : Json} (suits : copyMsgId.suits item = true)
    (valid : item.valid message = true) :
    ∃ fields text, message = .dict fields ∧ Dict.get fields "msg_id" = .str text ∧
      isValidMessageId (.str text) = !endsInNewline (.str text) := by
  cases item with
  | object required properties =>
      obtain ⟨fields, rfl⟩ := Schema.eq_dict_of_valid_object valid
      unfold CopyRule.suits at suits
      rcases Schema.property_cases valid "msg_id" with absent | ⟨inner, value, listed, found, inside⟩
      · split at suits
        · simp only [Bool.and_eq_true, Bool.or_eq_true] at suits
          rcases suits.1.2 with silent | requires
          · cases silent
          · exact absurd absent (Schema.lookup_of_requires valid requires)
        · cases suits
      · have named : (Schema.object required properties).property copyMsgId.field = some inner := listed
        rw [named] at suits
        simp only [Bool.and_eq_true] at suits
        obtain ⟨⟨admits, -⟩, -⟩ := suits
        have accepts := CopyType.accepts_of_valid admits inside
        cases inner with
        | pattern hex =>
            obtain ⟨text, rfl, -⟩ := Schema.eq_str_of_valid_pattern inside
            exact ⟨fields, text, rfl, by rw [Dict.get, found]; rfl, accepts⟩
        | string | integer | boolean | const | enum | array | object => cases admits
  | string | pattern | integer | boolean | const | enum | array => cases suits

/-- A message id that passes is as long as it should be. -/
theorem passes_msgId_iff {text : Str}
    (valid : isValidMessageId (.str text) = !endsInNewline (.str text)) :
    Reading.Passes ⟨.messageId, some MSG_ID_MAX_LENGTH, .str text⟩ ↔
      endsInNewline (.str text) = false := by
  constructor
  · intro passes
    exact passes.2
  · intro plain
    rw [plain, Bool.not_false] at valid
    simp only [isValidMessageId, isHexOfLength, Bool.and_eq_true, beq_iff_eq] at valid
    have short : text.length ≤ MSG_ID_MAX_LENGTH := by
      rw [valid.1]
      decide
    exact ⟨decide_eq_true short, plain⟩

section Statement

variable {schema : Schema} {kind : Dict} {previous : Option Copy} {state : Normalization}

/-- The statement before has stored what it read. -/
def Stored (kind : Dict) (previous : Option Copy) (state : Normalization) : Prop :=
  ∀ rule, previous = some (.field rule) → state.errors = [] → kind.get rule.field ≠ .null →
    state.normalized.get rule.dest = kind.get rule.field

/-- A value that its copy stored is still there for the membership test that follows. -/
theorem Stored.get_of_enumWithin {allowed : List Str} {field : Str}
    (stored : Stored kind previous state) (valid : schema.valid (.dict kind) = true)
    (suits : (previous == some (.field (copyStr field)) && schema.requires field &&
      (schema.property field).any (Schema.enumWithin allowed)) = true)
    (clean : state.errors = []) :
    ((allowed.map Json.str).contains (state.normalized.get field)) = true := by
  simp only [Bool.and_eq_true, beq_iff_eq] at suits
  obtain ⟨⟨same, requires⟩, within⟩ := suits
  obtain ⟨text, member, found⟩ := exists_of_enumWithin valid requires within
  have present : kind.get field ≠ .null := by simp [found]
  have kept : state.normalized.get field = kind.get field :=
    stored (copyStr field) same clean present
  rw [kept, found, List.contains_iff_mem]
  exact List.mem_map_of_mem member

theorem copyRelayUrl_errors (suits : (schema.property "relay_url").all CopyType.str.admits = true)
    (valid : schema.valid (.dict kind) = true) :
    (copyRelayUrl kind state).errors = state.errors := by
  rcases Schema.property_cases valid "relay_url" with absent | ⟨inner, value, listed, found, inside⟩
  · rw [copyRelayUrl, Dict.get, absent]
    rfl
  · rw [listed, Option.all_some] at suits
    have accepts := CopyType.accepts_of_valid suits inside
    rw [copyRelayUrl, Dict.get, found, Option.getD_some]
    cases value with
    | str text =>
        dsimp only
        split
        · rfl
        · rfl
    | null | bool | int | float | list | dict => cases accepts

theorem copyOutboundMessages_errors
    (suits : ((schema.property "outbound_messages").all fun inner =>
      inner.element.any copyMsgId.suits) = true)
    (valid : schema.valid (.dict kind) = true) :
    (copyOutboundMessages kind state).errors = [] ↔
      state.errors = [] ∧ ∀ reading ∈ Copy.outboundMessages.readings kind, reading.Passes := by
  rcases Schema.property_cases valid "outbound_messages" with absent |
    ⟨inner, value, listed, found, inside⟩
  · have nothing : kind.get "outbound_messages" = .null := by rw [Dict.get, absent]; rfl
    rw [copyOutboundMessages, Copy.readings, nothing]
    simp [Json.listOrEmpty]
  · rw [listed, Option.all_some, Option.any_eq_true] at suits
    obtain ⟨item, isItem, suits⟩ := suits
    cases inner with
    | array items =>
        cases isItem
        obtain ⟨messages, rfl⟩ := Schema.eq_list_of_valid_array inside
        have read : kind.get "outbound_messages" = .list messages := by rw [Dict.get, found]; rfl
        have named : ∀ message ∈ messages, ∃ fields text, message = .dict fields ∧
            Dict.get fields "msg_id" = .str text ∧
              isValidMessageId (.str text) = !endsInNewline (.str text) := by
          intro message member
          exact exists_msgId_of_suits suits (Schema.valid_list_iff.mp inside message member)
        rw [copyOutboundMessages, read]
        dsimp only
        have errors : ∀ other : Normalization, (if (scanOutbound 0 messages ⟨[], [], []⟩).welcomeIds ≠ []
            then other.put "outbound_welcome_msg_ids"
              (.list (scanOutbound 0 messages ⟨[], [], []⟩).welcomeIds)
            else other).errors = other.errors := by
          intro other
          split
          · rfl
          · rfl
        rw [errors]
        have reported : ∀ (test : Prop) [Decidable test] (other : Normalization) (value : Json),
            (if test then other.put "outbound_msg_id" value else other).errors = other.errors := by
          intro test _ other value
          split
          · rfl
          · rfl
        rw [reported]
        dsimp only
        rw [List.append_eq_nil_iff, scanOutbound_errors named, Copy.readings, read,
          List.forall_mem_map]
        apply and_congr_right
        intro _
        refine (and_iff_right rfl).trans (forall₂_congr fun message member => ?_)
        obtain ⟨fields, text, rfl, found, valid⟩ := named message member
        have same : (Json.dict fields).dictOrEmpty.get "msg_id" = .str text := found
        rw [same]
        exact (passes_msgId_iff valid).symm
    | string | pattern | integer | boolean | const | enum | object => cases isItem

/-- A statement that suits the schema reports nothing exactly when what it reads passes. -/
theorem Copy.run_errors_eq_nil_iff {copy : Copy} (suits : copy.suits schema previous = true)
    (valid : schema.valid (.dict kind) = true) (stored : Stored kind previous state) :
    (copy.run kind state).errors = [] ↔
      state.errors = [] ∧ ∀ reading ∈ copy.readings kind, reading.Passes := by
  cases copy with
  | field rule =>
      rw [run, CopyRule.run_errors, List.append_eq_nil_iff,
        CopyRule.errorsFor_eq_nil_iff suits valid]
      simp [readings, Reading.Passes]
  | within key rules =>
      simp only [run, readings, List.forall_mem_map]
      cases found : kind.get key with
      | dict nested =>
          rcases Schema.property_cases valid key with absent | ⟨inner, value, listed, there, inside⟩
          · rw [Dict.get, absent] at found
            cases found
          · rw [Copy.suits, listed, Option.all_some, List.all_eq_true] at suits
            have same : value = .dict nested := by
              rw [Dict.get, there] at found
              exact found
            exact runRules_errors_eq_nil_iff suits (same ▸ inside)
      | null | bool | int | float | str | list =>
          refine (and_iff_left ?_).symm
          intro rule _
          exact passes_of_blank rule
  | relayUrl =>
      rw [run, copyRelayUrl_errors suits valid]
      simp [readings]
  | outboundMessages =>
      exact copyOutboundMessages_errors suits valid
  | outboundWelcomeMsgIds =>
      have absent : kind.hasKey "outbound_welcome_msg_ids" = false := by
        rcases Schema.property_cases valid "outbound_welcome_msg_ids" with absent |
          ⟨inner, value, listed, -⟩
        · rw [Dict.hasKey, absent]
          rfl
        · rw [Copy.suits, listed] at suits
          cases suits
      rw [run, copyOutboundWelcomeMsgIds, absent]
      simp [readings]
  | winner =>
      simp only [run, readings, List.not_mem_nil, false_implies, implies_true, and_true]
      constructor
      · intro clean
        have earlier := (Copy.winner).run_errors_extend kind state
        rw [run, clean, List.prefix_nil] at earlier
        exact earlier
      · intro clean
        have known := stored.get_of_enumWithin valid suits clean
        have same : checkWinner kind state = state := if_pos known
        rw [same, clean]
  | peelerOutcome =>
      simp only [run, readings, List.not_mem_nil, false_implies, implies_true, and_true]
      constructor
      · intro clean
        have earlier := (Copy.peelerOutcome).run_errors_extend kind state
        rw [run, clean, List.prefix_nil] at earlier
        exact earlier
      · intro clean
        have known := stored.get_of_enumWithin valid suits clean
        have same : checkPeelerOutcome kind state = state := if_pos known
        rw [same, clean]
  | candidates =>
      rw [Copy.suits, Bool.and_eq_true, Option.any_eq_true] at suits
      obtain ⟨requires, inner, listed, isArray⟩ := suits
      rcases Schema.property_cases valid "candidates" with absent |
        ⟨other, value, otherListed, found, inside⟩
      · exact absurd absent (Schema.lookup_of_requires valid requires)
      · rw [listed, Option.some.injEq] at otherListed
        subst otherListed
        cases inner with
        | array items =>
            obtain ⟨candidates, rfl⟩ := Schema.eq_list_of_valid_array inside
            rw [run, copyCandidates, Dict.get, found]
            simp [readings]
        | string | pattern | integer | boolean | const | enum | object => cases isArray

/-- Every statement of a list suits the schema, each behind the one before it. -/
def suitsAll (schema : Schema) : Option Copy → List Copy → Bool
  | _, [] => true
  | previous, copy :: rest => copy.suits schema previous && suitsAll schema (some copy) rest

theorem Stored.next {copy : Copy} (suits : copy.suits schema previous = true)
    (valid : schema.valid (.dict kind) = true) : Stored kind (some copy) (copy.run kind state) := by
  intro rule same clean present
  cases same
  exact CopyRule.run_get_of_suits suits valid clean present

theorem runCopies_errors_eq_nil_iff {copies : List Copy}
    (suits : suitsAll schema previous copies = true) (valid : schema.valid (.dict kind) = true)
    (stored : Stored kind previous state) :
    (copies.foldl (fun state copy => copy.run kind state) state).errors = [] ↔
      state.errors = [] ∧ ∀ reading ∈ copies.flatMap (Copy.readings kind), reading.Passes := by
  induction copies generalizing previous state with
  | nil => simp
  | cons copy rest inductionHypothesis =>
      rw [suitsAll, Bool.and_eq_true] at suits
      rw [List.foldl_cons, inductionHypothesis suits.2 (.next suits.1 valid),
        Copy.run_errors_eq_nil_iff suits.1 valid stored, List.flatMap_cons, List.forall_mem_append,
        and_assoc]

end Statement

/-! ### One event -/

/-- The branch of each listed type suits the schema of the type. -/
theorem kindCopies_suit :
    ∀ entry ∈ auditEventKinds, suitsAll entry.2 none (kindCopies entry.1) = true := by
  decide +kernel

/-- The context is read as its schema has it. -/
theorem contextRules_suit :
    (copyContextStr "operation_id" "context_operation_id").suits auditEventContext = true ∧
      (∀ rule ∈ copyHumanActionFields, rule.suits auditHumanActionContext = true) ∧
      ∀ rule ∈ contextObjectRules, rule.suits auditEventContext = true := by
  decide +kernel

section Event

variable {data kind : Dict} {kindType : Str} {variant : Schema} {state : Normalization}

theorem normalizeHumanAction_errors_eq_nil_iff {context : Dict}
    (valid : auditEventContext.valid (.dict context) = true) :
    (normalizeHumanAction context state).errors = [] ↔ state.errors = [] ∧
      ∀ rule ∈ copyHumanActionFields,
        (rule.reading (context.get "human_action").dictOrEmpty).Passes := by
  have cases : context.get "human_action" = .null ∨ ∃ action,
      context.get "human_action" = .dict action ∧
        auditHumanActionContext.valid (.dict action) = true :=
    Schema.object_property_cases valid (by simp [auditHumanActionContext])
  rcases cases with absent | ⟨action, found, inside⟩
  · rw [normalizeHumanAction, absent]
    refine (and_iff_left ?_).symm
    intro rule _
    exact passes_of_blank rule
  · rw [normalizeHumanAction, found]
    exact runRules_errors_eq_nil_iff contextRules_suit.2.1 inside

theorem normalizeContext_errors_eq_nil_iff
    (classified : ClassifiedEvent data kind kindType variant) :
    (normalizeContext (data.get "context") state).errors = [] ↔ state.errors = [] ∧
      ∀ reading ∈ contextReadings (data.get "context").dictOrEmpty, reading.Passes := by
  have split : ∀ context : Dict,
      (∀ reading ∈ contextReadings context, reading.Passes) ↔
        ((copyContextStr "operation_id" "context_operation_id").reading context).Passes ∧
          (∀ rule ∈ copyHumanActionFields,
            (rule.reading (context.get "human_action").dictOrEmpty).Passes) ∧
          ∀ rule ∈ contextObjectRules, (rule.reading context).Passes := by
    intro context
    rw [contextReadings, List.forall_mem_append, List.forall_mem_cons, List.forall_mem_map,
      List.forall_mem_map, and_assoc]
  rcases classified.context_cases with absent | ⟨context, found, valid⟩
  · rw [absent, normalizeContext]
    refine (and_iff_left ?_).symm
    apply (split []).mpr
    exact ⟨passes_of_blank _, fun rule _ => passes_of_blank rule, fun rule _ => passes_of_blank rule⟩
  · obtain ⟨operation, -, objects⟩ := contextRules_suit
    rw [found, normalizeContext, runRules_errors_eq_nil_iff objects valid,
      normalizeHumanAction_errors_eq_nil_iff valid, CopyRule.run_errors, List.append_eq_nil_iff,
      CopyRule.errorsFor_eq_nil_iff operation valid, Json.dictOrEmpty, split]
    simp only [Normalization.put_errors, Reading.Passes, and_assoc]

theorem normalizeKind_errors_eq_nil_iff
    (classified : ClassifiedEvent data kind kindType variant) :
    (normalizeKind kindType kind state).errors = [] ↔
      state.errors = [] ∧ ∀ reading ∈ kindReadings kind, reading.Passes := by
  have stored : Stored kind none state := nofun
  rw [normalizeKind, runCopies_errors_eq_nil_iff (kindCopies_suit _ classified.mem)
    classified.variant_valid stored, kindReadings, classified.typeFound, valueIfStr_str]

/-- A text of the envelope, when there is one, is no longer than its limit. -/
theorem passes_text_iff {value : Json} {limit : Nat}
    (text : value = .null ∨ ∃ content, value = .str content) :
    Reading.Passes ⟨.str, some limit, value⟩ ↔ (valueIfStr value).length ≤ limit := by
  rcases text with rfl | ⟨content, rfl⟩
  · simp [Reading.Passes, Reading.fits, Reading.odd, CopyType.odd, valueIfStr]
  · simp [Reading.Passes, Reading.fits, Reading.odd, CopyType.odd]

/-- A number of the envelope is an integer and no larger than its limit. -/
theorem passes_number_iff {value : Json} {limit : Nat} (valid : u64.valid value = true) :
    Reading.Passes ⟨.int, some limit, value⟩ ↔
      ∃ number, valueIfInt value = some number ∧ number ≤ limit := by
  rcases Schema.valid_integer_cases valid with ⟨number, rfl⟩ | ⟨number, rfl⟩
  · simp [Reading.Passes, Reading.fits, Reading.odd, CopyType.odd, isFloat]
  · simp [Reading.Passes, Reading.odd, CopyType.odd, isFloat, valueIfInt]

theorem ClassifiedEvent.text_cases (classified : ClassifiedEvent data kind kindType variant)
    (name : Str) {inner : Schema} (listed : (auditEvent variant).property name = some inner)
    (texts : ∀ value, inner.valid value = true → ∃ content, value = .str content) :
    data.get name = .null ∨ ∃ content, data.get name = .str content := by
  rcases Schema.property_cases classified.valid name with absent | ⟨other, value, same, found, valid⟩
  · exact .inl (by rw [Dict.get, absent]; rfl)
  · rw [listed, Option.some.injEq] at same
    subst same
    obtain ⟨content, rfl⟩ := texts value valid
    exact .inr ⟨content, by rw [Dict.get, found]; rfl⟩

theorem ClassifiedEvent.number_valid (classified : ClassifiedEvent data kind kindType variant)
    (name : Str) (needed : (auditEvent variant).requires name = true)
    (listed : (auditEvent variant).property name = some u64) : u64.valid (data.get name) = true := by
  rcases Schema.property_cases classified.valid name with absent | ⟨other, value, same, found, valid⟩
  · exact absurd absent (Schema.lookup_of_requires classified.valid needed)
  · rw [listed, Option.some.injEq] at same
    subst same
    rw [Dict.get, found]
    exact valid

/-- The envelope fits when what is read of it passes. -/
theorem envelopeFits_iff (classified : ClassifiedEvent data kind kindType variant) :
    EnvelopeFits data ↔ ∀ reading ∈ envelopeReadings data, reading.Passes := by
  have anyString : ∀ (minLength : Nat) (value : Json),
      (Schema.string minLength).valid value = true → ∃ content, value = .str content := by
    intro minLength value valid
    obtain ⟨content, same, -⟩ := Schema.eq_str_of_valid_string valid
    exact ⟨content, same⟩
  have anyHex : ∀ value, hexString.valid value = true → ∃ content, value = .str content := by
    intro value valid
    obtain ⟨content, same, -⟩ := Schema.eq_str_of_valid_pattern valid
    exact ⟨content, same⟩
  have session := classified.text_cases "recorder_session_id" rfl (anyString 1)
  have engine := classified.text_cases "engine_id" rfl (anyString 1)
  have group := classified.text_cases "group_ref" rfl anyHex
  have seq := classified.number_valid "seq" rfl rfl
  have wallTime := classified.number_valid "wall_time_ms" rfl rfl
  obtain ⟨-, sessionLimit, seqLimit, -, engineLimit⟩ := envelopeLimits
  simp only [envelopeReadings, List.forall_mem_cons, List.not_mem_nil, false_implies, implies_true,
    and_true, sessionLimit, seqLimit, engineLimit, passes_text_iff session, passes_text_iff engine,
    passes_text_iff group, passes_number_iff seq, passes_number_iff wallTime]
  constructor
  · intro fits
    exact ⟨fits.recorderSessionId, fits.seq, fits.wallTimeMs, fits.engineId, fits.groupRef⟩
  · rintro ⟨sessionFits, seqFits, timeFits, engineFits, groupFits⟩
    have version : (valueIfStr (data.get "schema_version")).length ≤ 80 := by
      rw [classified.version]
      decide
    exact ⟨version, sessionFits, seqFits, timeFits, engineFits, groupFits⟩

/-- The normalizer refuses nothing of a schema-valid event but values that are too large or odd. -/
theorem normalizeEvent_clean_iff (classified : ClassifiedEvent data kind kindType variant) :
    (normalizeEvent data).errors = [] ↔ ∀ reading ∈ eventReadings data, reading.Passes := by
  rw [normalizeEvent_of_classified classified, normalizeKind_errors_eq_nil_iff classified,
    beforeKind, Normalization.put_errors, Normalization.put_errors,
    normalizeContext_errors_eq_nil_iff classified, normalizeEnvelope_clean_iff,
    envelopeFits_iff classified, eventReadings, List.forall_mem_append, List.forall_mem_append,
    classified.kindFound, Json.dictOrEmpty]

end Event

end Goggles
