/-
Module: Goggles.Ingest.Accepted
Purpose: What a clean normalization says about the event: which columns each statement may write,
  that errors only accumulate, and the facts about an accepted line that storage and projection
  rest on.
Trusted boundary: none beyond the modules it imports
Main exports: Copy.run_get_of_not_mem, normalizeKind_get_of_not_mem, EnvelopeFits,
  normalizeEnvelope_clean_iff, AcceptedLine, acceptedLine_of_clean
-/
import Goggles.Ingest.Ingest

namespace Goggles

/-! ### What a copy writes -/
namespace CopyRule

theorem run_get_of_ne (rule : CopyRule) (source : Dict) (state : Normalization) {field : Str}
    (other : field ≠ rule.dest) :
    (rule.run source state).normalized.get field = state.normalized.get field := by
  unfold run
  simp only
  split
  · cases rule.missing <;> rfl
  · split
    · cases rule.mistyped <;> rfl
    · cases rule.limitError (source.get rule.field) with
      | some error => rfl
      | none => exact Dict.get_set_of_ne other

end CopyRule

theorem runRules_get_of_not_mem (rules : List CopyRule) (source : Dict) (state : Normalization)
    {field : Str} (untouched : field ∉ rules.map (·.dest)) :
    (runRules rules source state).normalized.get field = state.normalized.get field := by
  induction rules generalizing state with
  | nil => rfl
  | cons rule rest inductionHypothesis =>
      rw [List.map_cons, List.mem_cons, not_or] at untouched
      rw [runRules, List.foldl_cons]
      exact (inductionHypothesis _ untouched.2).trans (rule.run_get_of_ne source state untouched.1)

/-- The columns a statement may write. -/
def Copy.dests : Copy → List Str
  | .field rule => [rule.dest]
  | .within _ rules => rules.map (·.dest)
  | .relayUrl => ["relay_urls"]
  | .outboundMessages => ["outbound_msg_id", "outbound_welcome_msg_ids"]
  | .outboundWelcomeMsgIds => ["outbound_welcome_msg_ids"]
  | .winner | .peelerOutcome => []
  | .candidates => ["candidate_count", "eligible_count"]

theorem Copy.run_get_of_not_mem (copy : Copy) (kind : Dict) (state : Normalization) {field : Str}
    (untouched : field ∉ copy.dests) :
    (copy.run kind state).normalized.get field = state.normalized.get field := by
  cases copy with
  | field rule => exact rule.run_get_of_ne kind state (by simpa [dests] using untouched)
  | within key rules =>
      simp only [run]
      split
      · exact runRules_get_of_not_mem rules _ state untouched
      · rfl
  | relayUrl =>
      have other : field ≠ lit "relay_urls" := by simpa [dests] using untouched
      simp only [run, copyRelayUrl]
      split
      · rfl
      · split
        · rfl
        · exact Dict.get_set_of_ne other
      · rfl
  | outboundMessages =>
      obtain ⟨notSent, notWelcomed⟩ : field ≠ lit "outbound_msg_id" ∧
          field ≠ lit "outbound_welcome_msg_ids" := by simpa [dests] using untouched
      simp only [run, copyOutboundMessages]
      split
      · rfl
      · split <;> split <;>
          simp [Dict.get_set_of_ne notSent, Dict.get_set_of_ne notWelcomed]
      · rfl
  | outboundWelcomeMsgIds =>
      have other : field ≠ lit "outbound_welcome_msg_ids" := by simpa [dests] using untouched
      simp only [run, copyOutboundWelcomeMsgIds]
      split
      · split
        · exact Dict.get_set_of_ne other
        · rfl
      · rfl
  | winner =>
      simp only [run, checkWinner]
      split <;> rfl
  | peelerOutcome =>
      simp only [run, checkPeelerOutcome]
      split <;> rfl
  | candidates =>
      obtain ⟨notCounted, notEligible⟩ : field ≠ lit "candidate_count" ∧
          field ≠ lit "eligible_count" := by simpa [dests] using untouched
      simp only [run, copyCandidates]
      split
      · simp [Dict.get_set_of_ne notCounted, Dict.get_set_of_ne notEligible]
      · exact runRules_get_of_not_mem _ kind state (by simpa [copyInt, dests] using untouched)

/-- The columns the branches of `normalize_kind` write. -/
def kindDests : List Str := kindBranches.flatMap fun entry => entry.2.flatMap Copy.dests

theorem runCopies_get_of_apart {copies : List Copy} (kind : Dict) (state : Normalization)
    {field : Str} (apart : ∀ copy ∈ copies, field ∉ copy.dests) :
    (copies.foldl (fun state copy => copy.run kind state) state).normalized.get field =
      state.normalized.get field := by
  induction copies generalizing state with
  | nil => rfl
  | cons copy rest inductionHypothesis =>
      rw [List.foldl_cons, inductionHypothesis _ fun other member =>
        apart other (List.mem_cons_of_mem copy member)]
      exact copy.run_get_of_not_mem kind state (apart copy List.mem_cons_self)

theorem normalizeKind_get_of_not_mem (eventType : Str) (kind : Dict) (state : Normalization)
    {field : Str} (untouched : field ∉ kindDests) :
    (normalizeKind eventType kind state).normalized.get field = state.normalized.get field := by
  have apart : ∀ copy ∈ kindCopies eventType, field ∉ copy.dests := by
    intro copy member
    unfold kindCopies at member
    cases found : kindBranches.lookup eventType with
    | none => simp [found] at member
    | some copies =>
        rw [found, Option.getD_some] at member
        obtain ⟨before, after, split, -⟩ := List.lookup_eq_some_iff.mp found
        exact fun written => untouched (List.mem_flatMap.mpr ⟨(eventType, copies), by simp [split],
          List.mem_flatMap.mpr ⟨copy, member, written⟩⟩)
  exact runCopies_get_of_apart kind state apart

/-- No branch touches the contexts the projections read. -/
theorem projectedContext_untouched :
    lit "context_convergence" ∉ kindDests ∧ lit "context_transport" ∉ kindDests ∧
      lit "context_convergence" ∉ copyHumanActionFields.map (·.dest) ∧
      lit "context_transport" ∉ copyHumanActionFields.map (·.dest) := by
  decide +kernel

/-! ### Errors accumulate -/

namespace CopyRule

/-- The errors one copy reports. -/
def errorsFor (rule : CopyRule) (source : Dict) : List Str :=
  let value := source.get rule.field
  if value = .null then rule.missing.toList
  else if !rule.type.accepts value then rule.mistyped.toList
  else (rule.limitError value).toList

theorem run_errors (rule : CopyRule) (source : Dict) (state : Normalization) :
    (rule.run source state).errors = state.errors ++ rule.errorsFor source := by
  unfold run errorsFor
  simp only
  split
  · cases rule.missing <;> simp
  · split
    · cases rule.mistyped <;> simp
    · cases rule.limitError (source.get rule.field) <;> simp

end CopyRule

theorem runRules_errors (rules : List CopyRule) (source : Dict) (state : Normalization) :
    (runRules rules source state).errors =
      state.errors ++ rules.flatMap fun rule => rule.errorsFor source := by
  induction rules generalizing state with
  | nil => simp [runRules]
  | cons rule rest inductionHypothesis =>
      have later := inductionHypothesis (rule.run source state)
      rw [runRules, List.foldl_cons]
      rw [runRules] at later
      rw [later, CopyRule.run_errors, List.flatMap_cons, List.append_assoc]

theorem Copy.run_errors_extend (copy : Copy) (kind : Dict) (state : Normalization) :
    state.errors <+: (copy.run kind state).errors := by
  cases copy with
  | field rule => exact ⟨_, (rule.run_errors kind state).symm⟩
  | within key rules =>
      simp only [run]
      split
      · exact ⟨_, (runRules_errors rules _ state).symm⟩
      · exact List.prefix_rfl
  | relayUrl =>
      simp only [run, copyRelayUrl]
      split
      · exact List.prefix_rfl
      · split <;> exact List.prefix_rfl
      · exact List.prefix_append _ _
  | outboundMessages =>
      simp only [run, copyOutboundMessages]
      split
      · exact List.prefix_rfl
      · split <;> split <;> exact List.prefix_append _ _
      · exact List.prefix_append _ _
  | outboundWelcomeMsgIds =>
      simp only [run, copyOutboundWelcomeMsgIds]
      split
      · split
        · exact List.prefix_rfl
        · exact List.prefix_append _ _
      · exact List.prefix_rfl
  | winner =>
      simp only [run, checkWinner]
      split
      · exact List.prefix_rfl
      · exact List.prefix_append _ _
  | peelerOutcome =>
      simp only [run, checkPeelerOutcome]
      split
      · exact List.prefix_rfl
      · exact List.prefix_append _ _
  | candidates =>
      simp only [run, copyCandidates]
      split
      · exact List.prefix_rfl
      · exact ⟨_, (runRules_errors _ kind state).symm⟩

theorem runCopies_errors_extend (copies : List Copy) (kind : Dict) (state : Normalization) :
    state.errors <+: (copies.foldl (fun state copy => copy.run kind state) state).errors := by
  induction copies generalizing state with
  | nil => exact List.prefix_rfl
  | cons copy rest inductionHypothesis =>
      exact (copy.run_errors_extend kind state).trans (inductionHypothesis _)

theorem normalizeKind_errors_extend (eventType : Str) (kind : Dict) (state : Normalization) :
    state.errors <+: (normalizeKind eventType kind state).errors :=
  runCopies_errors_extend _ kind state

theorem normalizeHumanAction_errors_extend (context : Dict) (state : Normalization) :
    state.errors <+: (normalizeHumanAction context state).errors := by
  unfold normalizeHumanAction
  split
  · exact List.prefix_rfl
  · rw [runRules_errors]
    exact List.prefix_append _ _
  · exact List.prefix_append _ _

theorem normalizeContext_errors_extend (context : Json) (state : Normalization) :
    state.errors <+: (normalizeContext context state).errors := by
  unfold normalizeContext
  split
  · exact List.prefix_rfl
  · rw [runRules_errors]
    refine List.IsPrefix.trans ?_ (List.prefix_append _ _)
    refine List.IsPrefix.trans ?_ (normalizeHumanAction_errors_extend _ _)
    rw [CopyRule.run_errors]
    exact List.prefix_append _ _
  · exact List.prefix_append _ _

/-! ### The envelope -/

/-- The bounds on the fields every event has. -/
structure EnvelopeFits (data : Dict) : Prop where
  schemaVersion : (valueIfStr (data.get "schema_version")).length ≤ 80
  recorderSessionId : (valueIfStr (data.get "recorder_session_id")).length ≤ 160
  seq : ∃ value, valueIfInt (data.get "seq") = some value ∧ value ≤ 9223372036854775807
  wallTimeMs : ∃ value, valueIfInt (data.get "wall_time_ms") = some value ∧ value ≤ MAX_WALL_TIME_MS
  engineId : (valueIfStr (data.get "engine_id")).length ≤ 64
  groupRef : (valueIfStr (data.get "group_ref")).length ≤ groupRefMaxLength

/-- The normalized envelope of an event that fits. -/
def fittedEnvelope (data : Dict) : Dict :=
  [("schema_version", .str (valueIfStr (data.get "schema_version"))),
   ("recorder_session_id", .str (valueIfStr (data.get "recorder_session_id"))),
   ("audit_data_mode", .str SAFE_ONLY_AUDIT_DATA_MODE),
   ("seq", intOrNull (valueIfInt (data.get "seq"))),
   ("wall_time_ms", intOrNull (valueIfInt (data.get "wall_time_ms"))),
   ("account_ref", .str (valueIfStr (data.get "account_ref"))),
   ("engine_id", .str (valueIfStr (data.get "engine_id"))),
   ("group_ref", .str (valueIfStr (data.get "group_ref")))]

/-- The bounds the envelope checks read off the columns. -/
theorem envelopeLimits :
    stringLimit "schema_version" = some 80 ∧ stringLimit "recorder_session_id" = some 160 ∧
      modelIntFieldMax "seq" = some 9223372036854775807 ∧
      modelIntFieldMax "wall_time_ms" = some 9223372036854775807 ∧
      stringLimit "engine_id" = some 64 := by
  decide +kernel

theorem boundedStrOrEmpty_eq (value : Json) {field : Str} {limit : Nat}
    (bound : stringLimit field = some limit) :
    ((boundedStrOrEmpty value field).2 = [] ↔ (valueIfStr value).length ≤ limit) ∧
      ((valueIfStr value).length ≤ limit → (boundedStrOrEmpty value field).1 = valueIfStr value) := by
  cases value with
  | str text =>
      cases exceeds : stringExceedsModelLimit field text with
      | none =>
          have fits := stringExceedsModelLimit_eq_none_iff.mp exceeds limit bound
          simp [boundedStrOrEmpty, exceeds, valueIfStr, fits]
      | some error =>
          have large : ¬text.length ≤ limit := fun fits => by
            rw [stringExceedsModelLimit_eq_none_iff.mpr fun other same => by
              rw [bound, Option.some.injEq] at same
              exact same ▸ fits] at exceeds
            cases exceeds
          simp [boundedStrOrEmpty, exceeds, valueIfStr, large]
  | null | bool | int | float | list | dict => simp [boundedStrOrEmpty, valueIfStr]

theorem checkSeq_errors (seq : Option Nat) (state : Normalization) :
    (checkSeq seq state).errors = [] ↔
      state.errors = [] ∧ ∃ value, seq = some value ∧ value ≤ 9223372036854775807 := by
  cases seq with
  | none => simp [checkSeq]
  | some value =>
      have limit := envelopeLimits.2.2.1
      by_cases fits : value ≤ 9223372036854775807
      · have inside : intExceedsModelLimit "seq" "seq" value = none :=
          intExceedsModelLimit_eq_none_iff.mpr fun bound same => by
            rw [limit, Option.some.injEq] at same
            exact same ▸ fits
        simp [checkSeq, inside, fits]
      · have outside : ∃ error, intExceedsModelLimit "seq" "seq" value = some error := by
          rw [← Option.ne_none_iff_exists']
          exact fun inside => fits (intExceedsModelLimit_eq_none_iff.mp inside _ limit)
        obtain ⟨error, raised⟩ := outside
        simp [checkSeq, raised, fits]

theorem checkSeq_of_fits {value : Nat} (state : Normalization)
    (fits : value ≤ 9223372036854775807) : checkSeq (some value) state = state := by
  have inside : intExceedsModelLimit "seq" "seq" value = none :=
    intExceedsModelLimit_eq_none_iff.mpr fun bound same => by
      rw [envelopeLimits.2.2.1, Option.some.injEq] at same
      exact same ▸ fits
  simp [checkSeq, inside]

theorem checkWallTime_of_fits {value : Nat} (state : Normalization)
    (fits : value ≤ MAX_WALL_TIME_MS) : checkWallTime (some value) state = state := by
  have small : MAX_WALL_TIME_MS ≤ 9223372036854775807 := by decide
  have inside : intExceedsModelLimit "wall_time_ms" "wall_time_ms" value = none :=
    intExceedsModelLimit_eq_none_iff.mpr fun bound same => by
      rw [envelopeLimits.2.2.2.1, Option.some.injEq] at same
      omega
  simp [checkWallTime, inside, Nat.not_lt.mpr fits]

theorem checkWallTime_errors (wallTimeMs : Option Nat) (state : Normalization) :
    (checkWallTime wallTimeMs state).errors = [] ↔
      state.errors = [] ∧ ∃ value, wallTimeMs = some value ∧ value ≤ MAX_WALL_TIME_MS := by
  cases wallTimeMs with
  | none => simp [checkWallTime]
  | some value =>
      by_cases fits : value ≤ MAX_WALL_TIME_MS
      · simp [checkWallTime_of_fits state fits, fits]
      · cases inside : intExceedsModelLimit "wall_time_ms" "wall_time_ms" value with
        | none => simp [checkWallTime, inside, fits, Nat.not_le.mp fits]
        | some error => simp [checkWallTime, inside, fits]

theorem checkEngineId_errors (engineId : Str) (state : Normalization) :
    (checkEngineId engineId state).errors = [] ↔ state.errors = [] ∧ engineId.length ≤ 64 := by
  have limit := envelopeLimits.2.2.2.2
  cases exceeds : stringExceedsModelLimit "engine_id" engineId with
  | none =>
      simp [checkEngineId, exceeds, stringExceedsModelLimit_eq_none_iff.mp exceeds 64 limit]
  | some error =>
      have large : ¬engineId.length ≤ 64 := fun fits => by
        rw [stringExceedsModelLimit_eq_none_iff.mpr fun other same => by
          rw [limit, Option.some.injEq] at same
          exact same ▸ fits] at exceeds
        cases exceeds
      simp [checkEngineId, exceeds, large]

theorem checkEngineId_of_fits {engineId : Str} (state : Normalization)
    (fits : engineId.length ≤ 64) : checkEngineId engineId state = state := by
  have inside : stringExceedsModelLimit "engine_id" engineId = none :=
    stringExceedsModelLimit_eq_none_iff.mpr fun other same => by
      rw [envelopeLimits.2.2.2.2, Option.some.injEq] at same
      exact same ▸ fits
  simp [checkEngineId, inside]

theorem checkGroupRef_errors (groupRef : Str) (state : Normalization) :
    (checkGroupRef groupRef state).errors = [] ↔
      state.errors = [] ∧ groupRef.length ≤ groupRefMaxLength := by
  unfold checkGroupRef
  split
  · next large => simp [Nat.not_le.mpr large.2]
  · next small =>
      have fits : groupRef.length ≤ groupRefMaxLength := by
        by_contra large
        refine small ⟨fun blank => large ?_, Nat.not_le.mp large⟩
        simp [blank]
      simp [fits]

theorem checkGroupRef_of_fits {groupRef : Str} (state : Normalization)
    (fits : groupRef.length ≤ groupRefMaxLength) : checkGroupRef groupRef state = state := by
  rw [checkGroupRef, if_neg fun large => absurd large.2 (Nat.not_lt.mpr fits)]

theorem normalizeEnvelope_clean_iff {data : Dict} :
    (normalizeEnvelope data).errors = [] ↔ EnvelopeFits data := by
  have version := boundedStrOrEmpty_eq (data.get "schema_version") envelopeLimits.1
  have session := boundedStrOrEmpty_eq (data.get "recorder_session_id") envelopeLimits.2.1
  simp only [normalizeEnvelope, checkGroupRef_errors, checkEngineId_errors, checkWallTime_errors,
    checkSeq_errors, List.append_eq_nil_iff, version.1, session.1]
  constructor
  · rintro ⟨⟨⟨⟨⟨versionFits, sessionFits⟩, seqFits⟩, timeFits⟩, engineFits⟩, groupFits⟩
    exact ⟨versionFits, sessionFits, seqFits, timeFits, engineFits, groupFits⟩
  · intro fits
    exact ⟨⟨⟨⟨⟨fits.schemaVersion, fits.recorderSessionId⟩, fits.seq⟩, fits.wallTimeMs⟩,
      fits.engineId⟩, fits.groupRef⟩

theorem normalizeEnvelope_of_fits {data : Dict} (fits : EnvelopeFits data) :
    (normalizeEnvelope data).normalized = fittedEnvelope data := by
  obtain ⟨seq, seqFound, seqFits⟩ := fits.seq
  obtain ⟨wallTime, timeFound, timeFits⟩ := fits.wallTimeMs
  have version := (boundedStrOrEmpty_eq (data.get "schema_version") envelopeLimits.1).2
    fits.schemaVersion
  have session :=
    (boundedStrOrEmpty_eq (data.get "recorder_session_id") envelopeLimits.2.1).2
      fits.recorderSessionId
  simp only [normalizeEnvelope, seqFound, timeFound, checkSeq_of_fits _ seqFits,
    checkWallTime_of_fits _ timeFits, checkEngineId_of_fits _ fits.engineId,
    checkGroupRef_of_fits _ fits.groupRef, version, session, fittedEnvelope]

/-! ### A clean event -/

/-- The variant a schema-valid event was checked against. -/
structure ClassifiedEvent (data kind : Dict) (kindType : Str) (variant : Schema) : Prop where
  version : data.get "schema_version" = .str SCHEMA_VERSION
  kindFound : data.get "kind" = .dict kind
  typeFound : Dict.get kind "type" = .str kindType
  listed : auditEventKinds.lookup kindType = some variant
  valid : (auditEvent variant).valid (.dict data) = true

/-- The record `normalize_event` hands to `normalize_kind`. -/
def beforeKind (data kind : Dict) (kindType : Str) : Normalization :=
  ((normalizeContext (data.get "context") (normalizeEnvelope data)).put "raw_kind" (.dict kind)).put
    "event_type" (.str kindType)

/-- Every listed type is a non-blank text that fits its column. -/
theorem auditEventKinds_types :
    ∀ entry ∈ auditEventKinds, entry.1 ≠ [] ∧ entry.1.length ≤ 80 ∧
      entry.1 ≠ lit "message_content_decoded" := by
  decide +kernel

theorem ClassifiedEvent.typeFacts {data kind : Dict} {kindType : Str} {variant : Schema}
    (classified : ClassifiedEvent data kind kindType variant) :
    kindType ≠ [] ∧ kindType.length ≤ 80 ∧ kindType ≠ lit "message_content_decoded" := by
  obtain ⟨before, after, split, -⟩ := List.lookup_eq_some_iff.mp classified.listed
  exact auditEventKinds_types (kindType, variant) (by simp [split])

section Variant

variable {data kind : Dict} {kindType : Str} {variant : Schema}

theorem ClassifiedEvent.variant_valid (classified : ClassifiedEvent data kind kindType variant) :
    variant.valid (.dict kind) = true := by
  obtain ⟨value, found, valid⟩ := Schema.valid_required classified.valid
    "kind" variant (by simp) (by simp)
  have same : value = .dict kind := by
    have read := classified.kindFound
    rwa [Dict.get, found, Option.getD_some] at read
  exact same ▸ valid

theorem ClassifiedEvent.mem (classified : ClassifiedEvent data kind kindType variant) :
    (kindType, variant) ∈ auditEventKinds := by
  obtain ⟨before, after, split, -⟩ := List.lookup_eq_some_iff.mp classified.listed
  simp [split]

end Variant

theorem eventTypeLimit : stringLimit "event_type" = some 80 := by decide +kernel

/-- On a schema-valid event the normalizer runs the branch of its type. -/
theorem normalizeEvent_of_classified {data kind : Dict} {kindType : Str} {variant : Schema}
    (classified : ClassifiedEvent data kind kindType variant) :
    normalizeEvent data = normalizeKind kindType kind (beforeKind data kind kindType) := by
  have accepted : schemaErrorCode data = none :=
    schemaErrorCode_eq_none_iff.mpr ⟨classified.version, kind, kindType, variant,
      classified.kindFound, classified.typeFound, classified.listed, classified.valid⟩
  obtain ⟨present, fits, -⟩ := classified.typeFacts
  have inside : stringExceedsModelLimit "event_type" kindType = none :=
    stringExceedsModelLimit_eq_none_iff.mpr fun other same => by
      rw [eventTypeLimit, Option.some.injEq] at same
      exact same ▸ fits
  simp [normalizeEvent, accepted, classified.kindFound, classified.typeFound, valueIfStr, present,
    inside, beforeKind]

/-- A clean normalization comes from a schema-valid event whose envelope fits. -/
theorem classified_of_clean {data : Dict} (clean : (normalizeEvent data).errors = []) :
    ∃ kind kindType variant, ClassifiedEvent data kind kindType variant ∧ EnvelopeFits data := by
  cases rejected : schemaErrorCode data with
  | some code => simp [normalizeEvent, rejected] at clean
  | none =>
      obtain ⟨version, kind, kindType, variant, kindFound, typeFound, listed, valid⟩ :=
        schemaErrorCode_eq_none_iff.mp rejected
      have classified : ClassifiedEvent data kind kindType variant :=
        ⟨version, kindFound, typeFound, listed, valid⟩
      refine ⟨kind, kindType, variant, classified, normalizeEnvelope_clean_iff.mp ?_⟩
      rw [normalizeEvent_of_classified classified] at clean
      have contextClean := normalizeKind_errors_extend kindType kind (beforeKind data kind kindType)
      rw [clean, List.prefix_nil] at contextClean
      have envelopeClean :=
        normalizeContext_errors_extend (data.get "context") (normalizeEnvelope data)
      rw [show (normalizeContext (data.get "context") (normalizeEnvelope data)).errors = [] from
        contextClean, List.prefix_nil] at envelopeClean
      exact envelopeClean

/-! ### The columns of a clean event -/

/-- The columns the context block may write. -/
def contextDests : List Str :=
  ([lit "raw_context", lit "context_operation_id", lit "context_human_action"] ++
    copyHumanActionFields.map (·.dest)) ++ contextObjectRules.map (·.dest)

theorem normalizeHumanAction_get_of_not_mem (context : Dict) (state : Normalization) {field : Str}
    (untouched : field ∉ contextDests) :
    (normalizeHumanAction context state).normalized.get field = state.normalized.get field := by
  simp only [contextDests, List.mem_append, not_or] at untouched
  unfold normalizeHumanAction
  split
  · rfl
  · rw [runRules_get_of_not_mem _ _ _ untouched.1.2, Normalization.put_normalized]
    exact Dict.get_set_of_ne fun same => untouched.1.1 (by simp [same])
  · rfl

theorem normalizeContext_get_of_not_mem (context : Json) (state : Normalization) {field : Str}
    (untouched : field ∉ contextDests) :
    (normalizeContext context state).normalized.get field = state.normalized.get field := by
  have parts := untouched
  simp only [contextDests, List.mem_append, not_or] at parts
  unfold normalizeContext
  split
  · rfl
  · rw [runRules_get_of_not_mem _ _ _ parts.2, normalizeHumanAction_get_of_not_mem _ _ untouched,
      CopyRule.run_get_of_ne _ _ _ fun same => parts.1.1 (by simp [same, copyContextStr]),
      Normalization.put_normalized]
    exact Dict.get_set_of_ne fun same => parts.1.1 (by simp [same])
  · rfl

/-- The envelope columns. -/
def envelopeFields : List Str :=
  ["schema_version", "recorder_session_id", "audit_data_mode", "seq", "wall_time_ms",
   "account_ref", "engine_id", "group_ref"]

/-- The envelope of an event that fits writes no other column. -/
theorem normalizeEnvelope_get_of_not_mem {data : Dict} (fits : EnvelopeFits data) {field : Str}
    (other : field ∉ envelopeFields) : (normalizeEnvelope data).normalized.get field = .null := by
  rw [normalizeEnvelope_of_fits fits, Dict.get, List.lookup_eq_none_iff.mpr ?_]
  · rfl
  · intro entry entryMember
    have named : entry.1 ∈ envelopeFields := by
      have allNamed : (fittedEnvelope data).map Prod.fst = envelopeFields := rfl
      exact allNamed ▸ List.mem_map_of_mem entryMember
    simpa using fun same : field = entry.1 => other (same ▸ named)

/-- No later statement writes an envelope column, `raw_kind` or `event_type`. -/
theorem bookkeeping_untouched :
    (∀ field ∈ envelopeFields, field ∉ kindDests ∧ field ∉ contextDests ∧
        field ≠ lit "raw_kind" ∧ field ≠ lit "event_type") ∧
      (lit "raw_kind") ∉ kindDests ∧ (lit "event_type") ∉ kindDests ∧
      (lit "raw_kind") ≠ lit "event_type" := by
  decide +kernel

section Clean

variable {data kind : Dict} {kindType : Str} {variant : Schema}

theorem normalizeEvent_get_envelope (classified : ClassifiedEvent data kind kindType variant)
    (fits : EnvelopeFits data) {field : Str} (envelope : field ∈ envelopeFields) :
    (normalizeEvent data).normalized.get field = (fittedEnvelope data).get field := by
  obtain ⟨notKind, notContext, notRaw, notType⟩ := bookkeeping_untouched.1 field envelope
  rw [normalizeEvent_of_classified classified, normalizeKind_get_of_not_mem _ _ _ notKind,
    beforeKind, Normalization.put_normalized, Dict.get_set_of_ne notType,
    Normalization.put_normalized, Dict.get_set_of_ne notRaw,
    normalizeContext_get_of_not_mem _ _ notContext, normalizeEnvelope_of_fits fits]

theorem normalizeEvent_get_rawKind (classified : ClassifiedEvent data kind kindType variant) :
    (normalizeEvent data).normalized.get "raw_kind" = .dict kind := by
  obtain ⟨-, notKind, -, apart⟩ := bookkeeping_untouched
  rw [normalizeEvent_of_classified classified, normalizeKind_get_of_not_mem _ _ _ notKind,
    beforeKind, Normalization.put_normalized, Dict.get_set_of_ne apart, Normalization.put_normalized,
    Dict.get_set_self]

theorem normalizeEvent_get_eventType (classified : ClassifiedEvent data kind kindType variant) :
    (normalizeEvent data).normalized.get "event_type" = .str kindType := by
  obtain ⟨-, -, notKind, -⟩ := bookkeeping_untouched
  rw [normalizeEvent_of_classified classified, normalizeKind_get_of_not_mem _ _ _ notKind,
    beforeKind, Normalization.put_normalized, Dict.get_set_self]

end Clean

/-! ### The contexts the projections read -/

theorem CopyRule.run_dict {rule : CopyRule} {source : Dict} (state : Normalization)
    (type : rule.type = .dict) (missing : rule.missing = none)
    (value : source.get rule.field = .null ∨ ∃ fields, source.get rule.field = .dict fields)
    (blank : state.normalized.get rule.dest = .null) :
    (rule.run source state).normalized.get rule.dest = source.get rule.field := by
  rcases value with absent | ⟨fields, found⟩
  · simp [run, absent, missing, blank]
  · simp [run, found, type, CopyType.accepts, limitError]

/-- Of rules that write different columns, each has the last word on its own. -/
theorem runRules_get_of_run {rules : List CopyRule} {source : Dict} (state : Normalization)
    (distinct : (rules.map (·.dest)).Nodup) {rule : CopyRule} (member : rule ∈ rules) {value : Json}
    (own : ∀ before : Normalization, before.normalized.get rule.dest = .null →
      (rule.run source before).normalized.get rule.dest = value)
    (blank : state.normalized.get rule.dest = .null) :
    (runRules rules source state).normalized.get rule.dest = value := by
  induction rules generalizing state with
  | nil => cases member
  | cons head rest inductionHypothesis =>
      rw [List.map_cons, List.nodup_cons] at distinct
      rw [runRules, List.foldl_cons]
      rcases List.mem_cons.mp member with here | later
      · subst here
        exact (runRules_get_of_not_mem rest source _ distinct.1).trans (own state blank)
      · have apart : rule.dest ≠ head.dest := fun same =>
          distinct.1 (same ▸ List.mem_map_of_mem later)
        exact inductionHypothesis (head.run source state) distinct.2 later
          ((head.run_get_of_ne source state apart).trans blank)

/-- Rules that copy objects to different columns each copy their own. -/
theorem runRules_get_dict {rules : List CopyRule} {source : Dict} (state : Normalization)
    (distinct : (rules.map (·.dest)).Nodup)
    (objects : ∀ rule ∈ rules, rule.type = .dict ∧ rule.missing = none)
    {rule : CopyRule} (member : rule ∈ rules)
    (value : source.get rule.field = .null ∨ ∃ fields, source.get rule.field = .dict fields)
    (blank : state.normalized.get rule.dest = .null) :
    (runRules rules source state).normalized.get rule.dest = source.get rule.field := by
  obtain ⟨type, missing⟩ := objects rule member
  apply runRules_get_of_run state distinct member _ blank
  intro before stillBlank
  exact rule.run_dict before type missing value stillBlank

theorem contextObjectRules_facts :
    (contextObjectRules.map (·.dest)).Nodup ∧
      ∀ rule ∈ contextObjectRules, rule.type = .dict ∧ rule.missing = none := by
  decide +kernel

/-- The context of a schema-valid event, as the normalizer reads it. -/
theorem ClassifiedEvent.context_cases {data kind : Dict} {kindType : Str} {variant : Schema}
    (classified : ClassifiedEvent data kind kindType variant) :
    data.get "context" = .null ∨
      ∃ fields, data.get "context" = .dict fields ∧ auditEventContext.valid (.dict fields) = true := by
  cases found : data.lookup (lit "context") with
  | none => exact .inl (by simp [Dict.get, found])
  | some value =>
      have valid := Schema.valid_property classified.valid
        "context" auditEventContext (by simp) found
      obtain ⟨fields, same⟩ := Schema.eq_dict_of_valid_object valid
      subst same
      exact .inr ⟨fields, by simp [Dict.get, found], valid⟩

/-- An optional object property of a valid object. -/
theorem Schema.object_property_cases {required : List Str} {properties : List (Str × Schema)}
    {fields : Dict} (accepted : (Schema.object required properties).valid (.dict fields) = true)
    {name : Str} {innerRequired : List Str} {innerProperties : List (Str × Schema)}
    (listed : (name, Schema.object innerRequired innerProperties) ∈ properties) :
    fields.get name = .null ∨
      ∃ inner, fields.get name = .dict inner ∧
        (Schema.object innerRequired innerProperties).valid (.dict inner) = true := by
  cases found : fields.lookup name with
  | none => exact .inl (by simp [Dict.get, found])
  | some value =>
      have valid := Schema.valid_property accepted _ _ listed found
      obtain ⟨inner, same⟩ := Schema.eq_dict_of_valid_object valid
      subst same
      exact .inr ⟨inner, by simp [Dict.get, found], valid⟩

section Context

variable {data kind : Dict} {kindType : Str} {variant : Schema}

/-- A context object the human action leaves alone is copied as it is, before the kind is read. -/
theorem beforeKind_get_context (classified : ClassifiedEvent data kind kindType variant)
    {rule : CopyRule} (member : rule ∈ contextObjectRules)
    (required : List Str) (properties : List (Str × Schema))
    (listed : (rule.field, Schema.object required properties) ∈
      [(lit "operation_id", Schema.string 0), (lit "human_action", auditHumanActionContext),
       (lit "transport", auditTransportContext), (lit "engine", auditEngineContext),
       (lit "group", auditGroupContext), (lit "convergence", auditConvergenceContext),
       (lit "source", auditSourceContext)])
    (notAction : rule.dest ∉ copyHumanActionFields.map (·.dest))
    (fresh : rule.dest ∉ envelopeFields ∧ rule.dest ∉ [lit "raw_context",
      lit "context_operation_id", lit "context_human_action", lit "raw_kind", lit "event_type"])
    (fits : EnvelopeFits data) :
    (beforeKind data kind kindType).normalized.get rule.dest =
        (data.get "context").dictOrEmpty.get rule.field ∧
      ((data.get "context").dictOrEmpty.get rule.field = .null ∨
        ∃ inner, (data.get "context").dictOrEmpty.get rule.field = .dict inner ∧
          (Schema.object required properties).valid (.dict inner) = true) := by
  simp only [List.mem_cons, List.not_mem_nil, or_false, not_or] at fresh
  obtain ⟨notEnvelope, notRawContext, notOperation, notHuman, notRaw, notType⟩ := fresh
  have blank := normalizeEnvelope_get_of_not_mem fits notEnvelope
  rw [beforeKind, Normalization.put_normalized, Dict.get_set_of_ne notType,
    Normalization.put_normalized, Dict.get_set_of_ne notRaw]
  rcases classified.context_cases with absent | ⟨fields, found, valid⟩
  · rw [absent]
    exact ⟨blank, .inl rfl⟩
  · have cases := Schema.object_property_cases valid listed
    rw [found]
    refine ⟨?_, cases⟩
    have kept : (normalizeHumanAction fields ((copyContextStr "operation_id"
        "context_operation_id").run fields ((normalizeEnvelope data).put "raw_context"
          (.dict fields)))).normalized.get rule.dest = .null := by
      have untouched : ((copyContextStr "operation_id" "context_operation_id").run fields
          ((normalizeEnvelope data).put "raw_context" (.dict fields))).normalized.get rule.dest =
            .null := by
        rw [CopyRule.run_get_of_ne _ _ _ notOperation, Normalization.put_normalized,
          Dict.get_set_of_ne notRawContext, blank]
      unfold normalizeHumanAction
      split
      · exact untouched
      · rw [runRules_get_of_not_mem _ _ _ notAction, Normalization.put_normalized,
          Dict.get_set_of_ne notHuman, untouched]
      · exact untouched
    exact runRules_get_dict _ contextObjectRules_facts.1 contextObjectRules_facts.2 member
      (cases.imp id fun ⟨inner, same, _⟩ => ⟨inner, same⟩) kept

/-- A context object the kinds and the human action leave alone is copied as it is. -/
theorem normalizeEvent_get_context (classified : ClassifiedEvent data kind kindType variant)
    {rule : CopyRule} (member : rule ∈ contextObjectRules)
    (required : List Str) (properties : List (Str × Schema))
    (listed : (rule.field, Schema.object required properties) ∈
      [(lit "operation_id", Schema.string 0), (lit "human_action", auditHumanActionContext),
       (lit "transport", auditTransportContext), (lit "engine", auditEngineContext),
       (lit "group", auditGroupContext), (lit "convergence", auditConvergenceContext),
       (lit "source", auditSourceContext)])
    (notKind : rule.dest ∉ kindDests) (notAction : rule.dest ∉ copyHumanActionFields.map (·.dest))
    (fresh : rule.dest ∉ envelopeFields ∧ rule.dest ∉ [lit "raw_context",
      lit "context_operation_id", lit "context_human_action", lit "raw_kind", lit "event_type"])
    (fits : EnvelopeFits data) :
    (normalizeEvent data).normalized.get rule.dest =
        (data.get "context").dictOrEmpty.get rule.field ∧
      ((data.get "context").dictOrEmpty.get rule.field = .null ∨
        ∃ inner, (data.get "context").dictOrEmpty.get rule.field = .dict inner ∧
          (Schema.object required properties).valid (.dict inner) = true) := by
  rw [normalizeEvent_of_classified classified, normalizeKind_get_of_not_mem _ _ _ notKind]
  exact beforeKind_get_context classified member required properties listed notAction fresh fits

end Context

end Goggles
