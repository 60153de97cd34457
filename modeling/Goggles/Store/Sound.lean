/-
Module: Goggles.Store.Sound
Purpose: What every stored event of an accepted upload satisfies, and what the projections may rely
  on: an engine, an instant, a listed type, a run that is named when a convergence context is there.
Trusted boundary: none beyond the modules it imports
Main exports: SoundEvent, soundEvent_of_clean
-/
import Goggles.Ingest.Accepted

namespace Goggles

/-- What the acceptance contract leaves true of a stored event. -/
structure SoundEvent (event : AuditEvent) : Prop where
  valid : event.parseStatus = .valid
  engine : event.engineId ≠ []
  timed : ∃ ms, event.wallTimeMs = some ms
  mode : event.auditDataMode = SAFE_ONLY_AUDIT_DATA_MODE
  typed : event.eventType ≠ []
  notDecoded : event.eventType ≠ lit "message_content_decoded"
  named : event.contextConvergence = [] ∨ explicitRunId event ≠ []
  phased : event.eventType = lit "convergence_run_state" →
    ∃ phase, event.kind.get "phase" = .str phase ∧ phase ≠ []
  expected : ∀ artifactId, ∀ expectation ∈ expectationsOf event artifactId,
    ∃ artifactKind, expectation.get "artifact_kind" = .str artifactKind ∧ artifactKind ≠ []

/-- What the projections rely on in the events they read. -/
def SoundEvents (events : List AuditEvent) : Prop := ∀ event ∈ events, SoundEvent event

/-! ### Facts about the schema -/

/-- The schema of the expectation an outbound message may carry. -/
def outboundExpectation (kind : Schema) : Option Schema :=
  ((kind.property "outbound_messages").bind Schema.element).bind
    (Schema.property · "recipient_expectation")

/-- The variants, read for the members the projections rely on. -/
theorem auditEventKinds_members :
    ∀ entry ∈ auditEventKinds,
      (entry.1 = lit "convergence_run_state" → entry.2.requiresText "phase" = true) ∧
        ((entry.2.property "expectation").all (·.requiresText "artifact_kind")) = true ∧
        ((outboundExpectation entry.2).all (·.requiresText "artifact_kind")) = true := by
  decide +kernel

theorem convergenceContext_requires_runId :
    auditConvergenceContext.requiresText "run_id" = true := by
  decide +kernel

section Kind

variable {data kind : Dict} {kindType : Str} {variant : Schema}

/-- Every expectation object of an accepted kind names its artifact kind. -/
theorem ClassifiedEvent.expectation_kind (classified : ClassifiedEvent data kind kindType variant)
    {event : AuditEvent} (sameKind : event.kind = kind) {artifactId : Str} {expectation : Dict}
    (member : expectation ∈ expectationsOf event artifactId) :
    ∃ artifactKind, expectation.get "artifact_kind" = .str artifactKind ∧ artifactKind ≠ [] := by
  obtain ⟨-, direct, sent⟩ := auditEventKinds_members (kindType, variant) classified.mem
  rw [expectationsOf, sameKind] at member
  rcases List.mem_append.mp member with here | there
  · have found : kind.get "expectation" = .dict expectation := by
      split at here
      · exact asDict_eq_some_iff.mp (Option.mem_toList.mp here)
      · cases here
    rcases Schema.property_cases classified.variant_valid (lit "expectation") with
      absent | ⟨inner, value, listed, present, valid⟩
    · simp [Dict.get, absent] at found
    · rw [Dict.get, present, Option.getD_some] at found
      rw [listed, Option.all_some] at direct
      exact Schema.exists_text_of_requiresText _ direct (found ▸ valid)
  · obtain ⟨outbound, outboundMember, produced⟩ := List.mem_filterMap.mp there
    obtain ⟨fields, isDict, carried⟩ := Option.bind_eq_some_iff.mp produced
    have found : fields.get "recipient_expectation" = .dict expectation := by
      split at carried
      · exact asDict_eq_some_iff.mp carried
      · cases carried
    rcases Schema.property_cases classified.variant_valid (lit "outbound_messages") with
      absent | ⟨inner, value, listed, present, valid⟩
    · simp [Dict.get, absent, Json.listOrEmpty] at outboundMember
    · rw [Dict.get, present, Option.getD_some] at outboundMember
      obtain ⟨element, array, outboundValid⟩ := Schema.valid_of_mem_listOrEmpty valid outboundMember
      rw [asDict_eq_some_iff.mp isDict] at outboundValid
      rcases Schema.property_cases outboundValid (lit "recipient_expectation") with
        missing | ⟨deeper, content, deeperListed, deeperFound, deeperValid⟩
      · simp [Dict.get, missing] at found
      · rw [Dict.get, deeperFound, Option.getD_some] at found
        rw [outboundExpectation, listed, Option.bind_some, array, Option.bind_some, deeperListed,
          Option.all_some] at sent
        exact Schema.exists_text_of_requiresText _ sent (found ▸ deeperValid)

end Kind

/-! ### Stored events -/

theorem lookup_filter_key {keep : Str → Bool} (fields : Dict) (name : Str) :
    (fields.filter fun entry => keep entry.1).lookup name =
      if keep name then fields.lookup name else none := by
  induction fields with
  | nil => simp
  | cons head rest inductionHypothesis =>
      obtain ⟨field, value⟩ := head
      by_cases kept : keep field = true
      · rw [List.filter_cons_of_pos (by simpa using kept), lookup_cons_ite, lookup_cons_ite,
          inductionHypothesis]
        by_cases asked : name = field
        · subst asked
          simp [kept]
        · simp [asked]
      · rw [List.filter_cons_of_neg (by simpa using kept), lookup_cons_ite, inductionHypothesis]
        by_cases asked : name = field
        · subst asked
          simp [kept]
        · simp [asked]

/-- The row of a clean line reads the normalized record. -/
theorem eventValues_column {eventId fileId : Nat} {groupId : Option Nat} {parsed : ParsedLine}
    (present : parsed.data.isSome = true) {column : Str}
    (persisted : persistedNormalizedFields.contains column = true) :
    (eventValues eventId fileId groupId parsed).normalized.get column =
      parsed.normalized.get column := by
  simp only [eventValues, present, if_true, Dict.get, lookup_filter_key, persisted]

theorem contextConvergence_persisted :
    persistedNormalizedFields.contains (lit "context_convergence") = true := by
  decide +kernel

/-- The convergence rule is one of the context rules, and nothing else writes its column. -/
theorem convergenceRule :
    (⟨lit "convergence", lit "context_convergence", .dict, none,
        some (lit "context.convergence must be an object when present")⟩ : CopyRule) ∈
      contextObjectRules ∧
    lit "context_convergence" ∉ envelopeFields ∧
    lit "context_convergence" ∉ [lit "raw_context", lit "context_operation_id",
      lit "context_human_action", lit "raw_kind", lit "event_type"] := by
  decide +kernel

/-- The row of an accepted line is sound. -/
theorem soundEvent_of_clean {parsed : ParsedLine} {data : Dict} (eventId fileId : Nat)
    (groupId : Option Nat) (clean : (normalizeEvent data).errors = [])
    (dataFound : parsed.data = some data) (errors : parsed.errors = [])
    (normalized : parsed.normalized = (normalizeEvent data).normalized) :
    SoundEvent (eventValues eventId fileId groupId parsed) := by
  obtain ⟨kind, kindType, variant, classified, fits⟩ := classified_of_clean clean
  have present : parsed.data.isSome = true := by simp [dataFound]
  have envelope : ∀ field ∈ envelopeFields,
      parsed.normalized.get field = (fittedEnvelope data).get field := fun field member => by
    rw [normalized, normalizeEvent_get_envelope classified fits member]
  have engine : parsed.normalized.get "engine_id" = .str (valueIfStr (data.get "engine_id")) :=
    envelope _ (by decide)
  have wallTime : parsed.normalized.get "wall_time_ms" =
      intOrNull (valueIfInt (data.get "wall_time_ms")) := envelope _ (by decide)
  have mode : parsed.normalized.get "audit_data_mode" = .str SAFE_ONLY_AUDIT_DATA_MODE :=
    envelope _ (by decide)
  have rawKind : parsed.normalized.get "raw_kind" = .dict kind := by
    rw [normalized, normalizeEvent_get_rawKind classified]
  have eventType : parsed.normalized.get "event_type" = .str kindType := by
    rw [normalized, normalizeEvent_get_eventType classified]
  have kindNonEmpty : kind ≠ [] := by
    intro blank
    have typed := classified.typeFound
    simp [blank, Dict.get] at typed
  have rowKind : (eventValues eventId fileId groupId parsed).kind = kind := by
    simp [AuditEvent.kind, eventValues, present, rawKind, Json.orElse, Json.truthy, kindNonEmpty,
      Json.dictOrEmpty]
  have rowType : (eventValues eventId fileId groupId parsed).eventType = kindType := by
    simp [eventValues, present, ParsedLine.text, eventType]
  obtain ⟨typeNonEmpty, -, notDecoded⟩ := classified.typeFacts
  obtain ⟨milliseconds, timeFound, -⟩ := fits.wallTimeMs
  refine
    { valid := by simp [eventValues, errors]
      engine := ?engine
      timed := ⟨milliseconds, ?timed⟩
      mode := by simp [eventValues, present, ParsedLine.text, mode]
      typed := rowType ▸ typeNonEmpty
      notDecoded := rowType ▸ notDecoded
      named := ?named
      phased := ?phased
      expected := fun artifactId expectation member =>
        classified.expectation_kind rowKind member }
  case engine =>
    obtain ⟨value, found, valid⟩ := Schema.valid_required classified.valid
      "engine_id" (.string 1) (by simp) (by simp)
    obtain ⟨text, same, long⟩ := Schema.eq_str_of_valid_string valid
    have declared : data.get "engine_id" = .str text := by simp [Dict.get, found, same]
    have read : (eventValues eventId fileId groupId parsed).engineId = text := by
      simp [eventValues, present, ParsedLine.text, engine, declared]
    intro blank
    rw [read] at blank
    simp [blank] at long
  case timed =>
    simp [eventValues, present, ParsedLine.number, wallTime, timeFound]
  case named =>
    obtain ⟨member, notEnvelope, notOther⟩ := convergenceRule
    obtain ⟨copied, cases⟩ := normalizeEvent_get_context classified member
      ["run_id"] [("run_id", .string 1), ("phase", convergencePhase), ("inferred", .boolean)]
      (by simp [auditConvergenceContext])
      projectedContext_untouched.1 projectedContext_untouched.2.2.1 ⟨notEnvelope, notOther⟩ fits
    have read : (eventValues eventId fileId groupId parsed).contextConvergence =
        ((data.get "context").dictOrEmpty.get "convergence").dictOrEmpty := by
      rw [AuditEvent.contextConvergence, AuditEvent.object,
        eventValues_column present contextConvergence_persisted, normalized]
      exact congrArg Json.dictOrEmpty copied
    rcases cases with absent | ⟨inner, found, valid⟩
    · exact .inl (by rw [read]; exact congrArg Json.dictOrEmpty absent)
    · obtain ⟨runId, named, nonEmpty⟩ := Schema.exists_text_of_requiresText
        auditConvergenceContext convergenceContext_requires_runId valid
      refine .inr ?_
      rw [explicitRunId, read, show (data.get "context").dictOrEmpty.get (lit "convergence") =
        .dict inner from found, Json.dictOrEmpty, named]
      exact nonEmpty
  case phased =>
    intro isRunState
    rw [rowKind]
    exact Schema.exists_text_of_requiresText variant
      ((auditEventKinds_members (kindType, variant) classified.mem).1 (rowType ▸ isRunState))
      classified.variant_valid

end Goggles
