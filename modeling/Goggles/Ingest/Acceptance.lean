/-
Module: Goggles.Ingest.Acceptance
Purpose: Which bodies of schema-valid records an upload accepts, and when its limits alone decide.
Trusted boundary: none beyond the modules it imports
Main exports: ValidBody, LimitsDecide, validateUpload_isOk_iff, limitsDecide_iff
-/
import Goggles.Ingest.Readings
import Goggles.Python.WideJson
import Goggles.Store.Upload
import Mathlib.Data.List.Forall2

namespace Goggles

/-! ### Valid events -/

/-- The event is valid against the schema, whose kinds are told apart by their type. -/
def ValidEvent (event : Dict) : Prop :=
  ∃ entry ∈ auditEventKinds, (auditEvent entry.2).valid (.dict event) = true

def Schema.isConst (expected : Str) : Schema → Bool
  | .const text => text == expected
  | _ => false

theorem auditEventKinds_named :
    (auditEventKinds.map Prod.fst).Nodup ∧
      ∀ entry ∈ auditEventKinds, entry.2.requires "type" = true ∧
        (entry.2.property "type").any (Schema.isConst entry.1) = true := by
  decide +kernel

theorem lookup_of_nodup {κ ρ : Type*} [BEq κ] [LawfulBEq κ] {entries : List (κ × ρ)}
    (once : (entries.map Prod.fst).Nodup) {entry : κ × ρ} (member : entry ∈ entries) :
    entries.lookup entry.1 = some entry.2 := by
  obtain ⟨before, after, rfl⟩ := List.append_of_mem member
  rw [List.lookup_eq_some_iff]
  refine ⟨before, after, rfl, ?_⟩
  intro other otherMember
  rw [List.map_append, List.nodup_append] at once
  have apart := once.2.2 other.1 (List.mem_map_of_mem otherMember) entry.1 (by simp)
  simpa using apart.symm

theorem exists_classified {event : Dict} (valid : ValidEvent event) :
    ∃ kind kindType variant, ClassifiedEvent event kind kindType variant := by
  obtain ⟨entry, member, accepted⟩ := valid
  obtain ⟨once, named⟩ := auditEventKinds_named
  obtain ⟨requires, isConst⟩ := named entry member
  obtain ⟨version, versionFound, versionValid⟩ := Schema.valid_required accepted
    "schema_version" (.const SCHEMA_VERSION) (by simp) (by simp)
  obtain ⟨kind, kindFound, kindValid⟩ := Schema.valid_required accepted
    "kind" entry.2 (by simp) (by simp)
  obtain ⟨kindType, variant⟩ := entry
  dsimp only at requires isConst kindFound kindValid accepted
  cases variant with
  | object required properties =>
      obtain ⟨fields, rfl⟩ := Schema.eq_dict_of_valid_object kindValid
      rcases Schema.property_cases kindValid "type" with absent |
        ⟨inner, value, listed, found, inside⟩
      · exact absurd absent (Schema.lookup_of_requires kindValid requires)
      · rw [listed, Option.any_some] at isConst
        cases inner with
        | const expected =>
            have same : expected = kindType := eq_of_beq isConst
            refine ⟨fields, kindType, _, ?_, ?_, ?_, lookup_of_nodup once member, accepted⟩
            · rw [Dict.get, versionFound]
              exact Schema.eq_str_of_valid_const versionValid
            · rw [Dict.get, kindFound]
              rfl
            · rw [Dict.get, found, ← same]
              exact Schema.eq_str_of_valid_const inside
        | string | pattern | integer | boolean | enum | array | object => cases isConst
  | string | pattern | integer | boolean | const | enum | array => cases requires

/-- Every value that the normalizer reads of the event is within its limit. -/
def WithinLimits (event : Dict) : Prop := ∀ reading ∈ eventReadings event, reading.fits = true

/-- The event holds a value that is refused although the schema admits it, whatever its size: one that
its copy function does not take, or an integer that Python does not convert. -/
def HoldsOdd (event : Dict) : Prop :=
  (∃ reading ∈ eventReadings event, reading.odd = true) ∨ (Json.dict event).shortIntegers = false

theorem normalizeEvent_clean_of_valid {event : Dict} (valid : ValidEvent event) :
    ((Json.dict event).shortIntegers = true ∧ (normalizeEvent event).errors = []) ↔
      WithinLimits event ∧ ¬ HoldsOdd event := by
  obtain ⟨kind, kindType, variant, classified⟩ := exists_classified valid
  rw [normalizeEvent_clean_iff classified, WithinLimits, HoldsOdd]
  constructor
  · rintro ⟨short, passes⟩
    refine ⟨fun reading member => (passes reading member).1, ?_⟩
    rintro (⟨reading, member, odd⟩ | long)
    · rw [(passes reading member).2] at odd
      cases odd
    · rw [short] at long
      cases long
  · rintro ⟨fits, plain⟩
    rw [not_or, Bool.not_eq_false] at plain
    refine ⟨plain.2, ?_⟩
    intro reading member
    refine ⟨fits reading member, ?_⟩
    rw [← Bool.not_eq_true]
    intro odd
    exact plain.1 ⟨reading, member, odd⟩

/-! ### Valid bodies -/

/-- The lines of a body that are not blank, stripped. -/
def recordLines (rawText : Str) : List Str :=
  ((iterJsonlRecordLines rawText).map strip).filter (· ≠ [])

/-- The body is text within the limits on bytes, lines, records and nesting, whose lines that are not
blank, at least one, are valid events that name one engine and at most one account. -/
structure ValidBody (env : Env) (dumpBytes : List UInt8) (rawText : Str) (events : List Dict) :
    Prop where
  bytes : dumpBytes.length ≤ env.settings.maxDumpBytes
  decoded : decodeUtf8 dumpBytes = some rawText
  lines : ∀ line ∈ iterJsonlRecordLines rawText, ¬ exceedsLineBytes env line
  records : (recordLines rawText).length ≤ env.settings.maxDumpRecords
  present : recordLines rawText ≠ []
  nested : ∀ line ∈ recordLines rawText, maxJsonNestingDepth line ≤ MAX_JSON_NESTING_DEPTH
  objects : List.Forall₂ (fun line event => wideLoads line = some (.dict event))
    (recordLines rawText) events
  valid : ∀ event ∈ events, ValidEvent event
  oneEngine : ∀ left ∈ events, ∀ right ∈ events, left.get "engine_id" = right.get "engine_id"
  oneAccount : ∀ left ∈ events, ∀ right ∈ events, left.hasKey "account_ref" = true →
    right.hasKey "account_ref" = true → left.get "account_ref" = right.get "account_ref"

/-- Within the limits on lines and records, each line that is not blank is parsed. -/
theorem exists_parseRecords {env : Env} {lines : List Str} {lineNumber parsedCount : Nat}
    (short : ∀ line ∈ lines, ¬ exceedsLineBytes env line)
    (few : parsedCount + ((lines.map strip).filter (· ≠ [])).length ≤
      env.settings.maxDumpRecords) :
    ∃ parsedLines, parseRecords env lineNumber parsedCount lines = some parsedLines ∧
      List.Forall₂ (fun parsed line => ∃ number, parsed = parseLine env number line) parsedLines
        ((lines.map strip).filter (· ≠ [])) := by
  induction lines generalizing lineNumber parsedCount with
  | nil => exact ⟨[], rfl, .nil⟩
  | cons line rest inductionHypothesis =>
      have shortRest : ∀ other ∈ rest, ¬ exceedsLineBytes env other := fun other member =>
        short other (List.mem_cons_of_mem line member)
      rw [parseRecords, if_neg (short line List.mem_cons_self), List.map_cons]
      rw [List.map_cons] at few
      by_cases blank : strip line = []
      · rw [if_pos blank, List.filter_cons_of_neg (by simpa using blank)]
        rw [List.filter_cons_of_neg (by simpa using blank)] at few
        exact inductionHypothesis shortRest few
      · rw [if_neg blank, List.filter_cons_of_pos (by simpa using blank)]
        rw [List.filter_cons_of_pos (by simpa using blank), List.length_cons] at few
        obtain ⟨others, found, parsed⟩ :=
          @inductionHypothesis (lineNumber + 1) (parsedCount + 1) shortRest (by omega)
        rw [if_neg (by omega), found]
        exact ⟨_, rfl, .cons ⟨lineNumber, rfl⟩ parsed⟩

/-- What relates two lists item by item carries a property from one to the other. -/
theorem forall_iff_of_forall₂ {α β : Type*} {related : α → β → Prop} {left : α → Prop}
    {right : β → Prop} {items : List α} {others : List β}
    (aligned : List.Forall₂ related items others)
    (same : ∀ item ∈ items, ∀ other ∈ others, related item other → (left item ↔ right other)) :
    (∀ item ∈ items, left item) ↔ ∀ other ∈ others, right other := by
  induction aligned with
  | nil => simp
  | cons here later inductionHypothesis =>
      rw [List.forall_mem_cons, List.forall_mem_cons,
        same _ List.mem_cons_self _ List.mem_cons_self here,
        inductionHypothesis fun item member other otherMember =>
          same item (List.mem_cons_of_mem _ member) other (List.mem_cons_of_mem _ otherMember)]

theorem exists_right_of_forall₂ {α β : Type*} {related : α → β → Prop} {items : List α}
    {others : List β} (aligned : List.Forall₂ related items others) {item : α}
    (member : item ∈ items) : ∃ other ∈ others, related item other := by
  induction aligned with
  | nil => cases member
  | cons here later inductionHypothesis =>
      rcases List.mem_cons.mp member with rfl | old
      · exact ⟨_, List.mem_cons_self, here⟩
      · obtain ⟨other, otherMember, relates⟩ := inductionHypothesis old
        exact ⟨other, List.mem_cons_of_mem _ otherMember, relates⟩

/-! ### One engine and one account -/

theorem identityConflict_eq_false {field : Str} {lines : List ParsedLine} {first : Option Json}
    (same : ∀ left ∈ lines, ∀ right ∈ lines, (left.normalized.get field).truthy = true →
      (right.normalized.get field).truthy = true →
        left.normalized.get field = right.normalized.get field)
    (begins : ∀ value ∈ first, ∀ line ∈ lines, (line.normalized.get field).truthy = true →
      value = line.normalized.get field) : identityConflict field first lines = false := by
  induction lines generalizing first with
  | nil => rfl
  | cons line rest inductionHypothesis =>
      have sameRest : ∀ left ∈ rest, ∀ right ∈ rest, (left.normalized.get field).truthy = true →
          (right.normalized.get field).truthy = true →
            left.normalized.get field = right.normalized.get field :=
        fun left leftMember right rightMember => same left (List.mem_cons_of_mem line leftMember)
          right (List.mem_cons_of_mem line rightMember)
      rw [identityConflict]
      cases named : (line.normalized.get field).truthy with
      | false =>
          apply inductionHypothesis sameRest
          intro value isFirst other member
          exact begins value isFirst other (List.mem_cons_of_mem line member)
      | true =>
          have agrees : first.any (· != line.normalized.get field) = false := by
            cases first with
            | none => rfl
            | some value =>
                rw [begins value rfl line List.mem_cons_self named]
                simp
          rw [if_pos rfl, agrees]
          apply inductionHypothesis sameRest
          rintro value ⟨⟩ other member otherNamed
          exact same line List.mem_cons_self other (List.mem_cons_of_mem line member) named otherNamed

/-! ### What is accepted -/

theorem loadsAuditJson_of_nested {line : Str}
    (nested : maxJsonNestingDepth line ≤ MAX_JSON_NESTING_DEPTH) :
    loadsAuditJson line = (wideLoads line).filter Json.shortIntegers := by
  rw [loadsAuditJson, if_neg (Nat.not_lt.mpr nested), jsonLoads_eq_wideLoads]

/-- The text is an event that the normalizer passes. -/
def CleanText (line : Str) : Prop :=
  ∃ event, wideLoads line = some (.dict event) ∧ (Json.dict event).shortIntegers = true ∧
    (normalizeEvent event).errors = []

theorem parseLine_clean_iff {env : Env} {number : Nat} {line : Str}
    (nested : maxJsonNestingDepth line ≤ MAX_JSON_NESTING_DEPTH) :
    (parseLine env number line).errors = [] ↔ CleanText line := by
  constructor
  · intro clean
    obtain ⟨event, loaded, normal, -⟩ := parseLine_clean clean
    rw [loadsAuditJson_of_nested nested, Option.filter_eq_some_iff] at loaded
    exact ⟨event, loaded.1, loaded.2, normal⟩
  · rintro ⟨event, loaded, short, normal⟩
    have read : loadsAuditJson line = some (.dict event) := by
      rw [loadsAuditJson_of_nested nested, loaded, Option.filter_some, if_pos short]
    rw [parseLine, read]
    exact normal

namespace ValidBody

variable {env : Env} {dumpBytes : List UInt8} {rawText : Str} {events : List Dict}
  {parsedLines : List ParsedLine}

theorem clean_iff (body : ValidBody env dumpBytes rawText events)
    (aligned : List.Forall₂ (fun parsed line => ∃ number, parsed = parseLine env number line)
      parsedLines (recordLines rawText)) :
    (∀ parsed ∈ parsedLines, parsed.errors = []) ↔
      ∀ event ∈ events, WithinLimits event ∧ ¬ HoldsOdd event := by
  have lines : (∀ parsed ∈ parsedLines, parsed.errors = []) ↔
      ∀ line ∈ recordLines rawText, CleanText line := by
    apply forall_iff_of_forall₂ aligned
    rintro _ - line member ⟨number, rfl⟩
    exact parseLine_clean_iff (body.nested line member)
  rw [lines]
  apply forall_iff_of_forall₂ body.objects
  intro line _ event member loaded
  rw [← normalizeEvent_clean_of_valid (body.valid event member)]
  constructor
  · rintro ⟨other, otherLoaded, clean⟩
    cases loaded.symm.trans otherLoaded
    exact clean
  · intro clean
    exact ⟨event, loaded, clean⟩

/-- A clean line names the engine and the account of its event. -/
theorem exists_identity (body : ValidBody env dumpBytes rawText events)
    (aligned : List.Forall₂ (fun parsed line => ∃ number, parsed = parseLine env number line)
      parsedLines (recordLines rawText)) {parsed : ParsedLine} (member : parsed ∈ parsedLines)
    (clean : parsed.errors = []) :
    ∃ event ∈ events,
      parsed.normalized.get "engine_id" = .str (valueIfStr (event.get "engine_id")) ∧
      parsed.normalized.get "account_ref" = .str (valueIfStr (event.get "account_ref")) := by
  obtain ⟨line, lineMember, number, rfl⟩ := exists_right_of_forall₂ aligned member
  obtain ⟨event, eventMember, loaded⟩ := exists_right_of_forall₂ body.objects lineMember
  obtain ⟨data, read, normal, same⟩ := parseLine_clean clean
  rw [loadsAuditJson_of_nested (body.nested line lineMember), Option.filter_eq_some_iff] at read
  cases loaded.symm.trans read.1
  obtain ⟨kind, kindType, variant, classified, fits⟩ := classified_of_clean normal
  refine ⟨event, eventMember, ?_, ?_⟩
  · rw [same]
    exact normalizeEvent_get_envelope classified fits (by decide)
  · rw [same]
    exact normalizeEvent_get_envelope classified fits (by decide)

theorem consistent (body : ValidBody env dumpBytes rawText events)
    (aligned : List.Forall₂ (fun parsed line => ∃ number, parsed = parseLine env number line)
      parsedLines (recordLines rawText)) (clean : ∀ parsed ∈ parsedLines, parsed.errors = []) :
    hasInconsistentIdentity parsedLines = false := by
  have engines : identityConflict "engine_id" none parsedLines = false := by
    apply identityConflict_eq_false
    · intro left leftMember right rightMember _ _
      obtain ⟨one, oneMember, oneNamed, -⟩ :=
        body.exists_identity aligned leftMember (clean left leftMember)
      obtain ⟨two, twoMember, twoNamed, -⟩ :=
        body.exists_identity aligned rightMember (clean right rightMember)
      rw [oneNamed, twoNamed, body.oneEngine one oneMember two twoMember]
    · simp
  have accounts : identityConflict "account_ref" none parsedLines = false := by
    have present : ∀ event : Dict,
        (Json.str (valueIfStr (event.get "account_ref"))).truthy = true →
          event.hasKey "account_ref" = true := by
      intro event named
      rw [Dict.hasKey]
      cases found : event.lookup (lit "account_ref") with
      | none =>
          rw [Dict.get, found] at named
          cases named
      | some value => rfl
    apply identityConflict_eq_false
    · intro left leftMember right rightMember leftNamed rightNamed
      obtain ⟨one, oneMember, -, oneNamed⟩ :=
        body.exists_identity aligned leftMember (clean left leftMember)
      obtain ⟨two, twoMember, -, twoNamed⟩ :=
        body.exists_identity aligned rightMember (clean right rightMember)
      rw [oneNamed] at leftNamed ⊢
      rw [twoNamed] at rightNamed ⊢
      rw [body.oneAccount one oneMember two twoMember (present one leftNamed) (present two rightNamed)]
    · simp
  simp [hasInconsistentIdentity, engines, accounts]

/-- A body of valid records is accepted exactly when all that is read of them is within its limits and
none of it odd. -/
theorem isOk_iff (body : ValidBody env dumpBytes rawText events) :
    (∃ accepted, validateUpload env dumpBytes = .ok accepted) ↔
      ∀ event ∈ events, WithinLimits event ∧ ¬ HoldsOdd event := by
  obtain ⟨parsedLines, parsed, aligned⟩ := @exists_parseRecords env _ 1 0 body.lines
    (by rw [Nat.zero_add]; exact body.records)
  rw [← body.clean_iff aligned]
  constructor
  · rintro ⟨⟨text, lines⟩, accepted⟩
    obtain ⟨-, decoded, found, -, clean, -⟩ := validateUpload_eq_ok_iff.mp accepted
    rw [body.decoded, Option.some.injEq] at decoded
    subst decoded
    cases parsed.symm.trans found
    exact clean
  · intro clean
    refine ⟨(rawText, parsedLines), validateUpload_eq_ok_iff.mpr ?_⟩
    refine ⟨body.bytes, body.decoded, parsed, ?_, clean, body.consistent aligned clean⟩
    rintro rfl
    exact body.present (List.forall₂_nil_left_iff.mp aligned)

end ValidBody

/-! ### The property and its condition -/

/-- The limits alone decide: a body whose values are within them is accepted, and one that is refused
for a storage limit has a value beyond it. -/
structure LimitsDecide (env : Env) (dumpBytes : List UInt8) (events : List Dict) : Prop where
  accepts : (∀ event ∈ events, WithinLimits event) →
    ∃ accepted, validateUpload env dumpBytes = .ok accepted
  refuses : ∀ lineNumber,
    validateUpload env dumpBytes = .error ⟨"storage_limit_exceeded", lineNumber⟩ →
      ∃ event ∈ events, ¬ WithinLimits event

/-- Of a body of valid records the limits alone decide if and only if some value is beyond them or no
record holds an odd value. -/
theorem limitsDecide_iff {env : Env} {dumpBytes : List UInt8} {rawText : Str} {events : List Dict}
    (body : ValidBody env dumpBytes rawText events) :
    LimitsDecide env dumpBytes events ↔
      (∃ event ∈ events, ¬ WithinLimits event) ∨ ∀ event ∈ events, ¬ HoldsOdd event := by
  constructor
  · intro decides
    by_cases within : ∀ event ∈ events, WithinLimits event
    · apply Or.inr
      intro event member
      exact ((body.isOk_iff.mp (decides.accepts within)) event member).2
    · push Not at within
      exact .inl within
  · intro condition
    have accepts : (∀ event ∈ events, WithinLimits event) →
        ∃ accepted, validateUpload env dumpBytes = .ok accepted := by
      intro within
      rcases condition with ⟨event, member, beyond⟩ | plain
      · exact absurd (within event member) beyond
      · exact body.isOk_iff.mpr fun event member => ⟨within event member, plain event member⟩
    refine ⟨accepts, ?_⟩
    intro lineNumber refused
    by_contra none_beyond
    push Not at none_beyond
    obtain ⟨accepted, same⟩ := accepts none_beyond
    rw [refused] at same
    cases same

/-- The object that a text is. -/
def recordOf (record : Str) : Dict := ((wideLoads record).getD .null).dictOrEmpty

/-- A body of one record, under the limits by default. -/
theorem validBody_of_record {env : Env} {record : Str} (byDefault : env.settings = {})
    (text : decodeUtf8 (encodeUtf8 record) = some record ∧ iterJsonlRecordLines record = [record] ∧
      strip record = record ∧ (encodeUtf8 record).length ≤ 67108864 ∧
      ¬ exceedsLineBytes env record ∧ maxJsonNestingDepth record ≤ MAX_JSON_NESTING_DEPTH)
    (loaded : wideLoads record = some (.dict (recordOf record)))
    (valid : (auditEventKinds.any fun entry =>
      (auditEvent entry.2).valid (.dict (recordOf record))) = true) :
    ValidBody env (encodeUtf8 record) record [recordOf record] := by
  obtain ⟨decoded, oneLine, stripped, bytes, short, nested⟩ := text
  have filled : record ≠ [] := by
    rintro rfl
    cases loaded
  have lines : recordLines record = [record] := by
    rw [recordLines, oneLine, List.map_singleton, stripped,
      List.filter_cons_of_pos (by simpa using filled)]
    rfl
  constructor
  · rw [byDefault]
    exact bytes
  · exact decoded
  · rw [oneLine]
    simpa using short
  · rw [lines, byDefault]
    exact Nat.le_add_left 1 262143
  · rw [lines]
    exact List.cons_ne_nil _ _
  · rw [lines]
    simpa using nested
  · rw [lines]
    exact .cons loaded .nil
  · rw [List.forall_mem_singleton]
    exact List.any_eq_true.mp valid
  · simp
  · simp

/-- A record of a send is accepted. -/
theorem limitsDecide_sendRecord :
    LimitsDecide sendEnv (encodeUtf8 (sendRecord (lit "e") 100))
      [recordOf (sendRecord (lit "e") 100)] := by
  have body : ValidBody sendEnv (encodeUtf8 (sendRecord (lit "e") 100)) (sendRecord (lit "e") 100)
      [recordOf (sendRecord (lit "e") 100)] :=
    validBody_of_record rfl (by decide +kernel) (by decide +kernel) (by decide +kernel)
  apply (limitsDecide_iff body).mpr
  apply Or.inr
  rw [List.forall_mem_singleton]
  simp only [HoldsOdd]
  decide +kernel

/-- The outcome of a message in epoch 1, which is written as a float. -/
def floatRecord : Str :=
  recordText (lit "e") (lit "ab") 100 []
    (lit "\x7b\"type\":\"ingest_outcome\",\"msg_id\":\"" ++ List.replicate 64 0x61 ++
      lit "\",\"outcome_kind\":\"ok\",\"epoch\":1.0\x7d")

/-- The schema takes the float for an integer, which is within its limit. -/
theorem limitsDecide_fails_floatRecord :
    ValidBody sendEnv (encodeUtf8 floatRecord) floatRecord [recordOf floatRecord] ∧
      WithinLimits (recordOf floatRecord) ∧
      validateUpload sendEnv (encodeUtf8 floatRecord) =
        .error ⟨lit "storage_limit_exceeded", some 1⟩ ∧
      ¬ LimitsDecide sendEnv (encodeUtf8 floatRecord) [recordOf floatRecord] := by
  have body : ValidBody sendEnv (encodeUtf8 floatRecord) floatRecord [recordOf floatRecord] :=
    validBody_of_record rfl (by decide +kernel) (by decide +kernel) (by decide +kernel)
  have within : WithinLimits (recordOf floatRecord) := by
    rw [WithinLimits]
    decide +kernel
  have rejection : validateUpload sendEnv (encodeUtf8 floatRecord) =
      .error ⟨lit "storage_limit_exceeded", some 1⟩ := by
    decide +kernel
  refine ⟨body, within, rejection, ?_⟩
  intro decides
  obtain ⟨accepted, same⟩ := decides.accepts (by simpa using within)
  rw [rejection] at same
  cases same

end Goggles
