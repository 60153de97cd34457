/-
Module: Goggles.Views.Payloads
Purpose: What a row of a group is shown as, by the pages of the API and by the export: its columns, the
  references to its evidence, what of it is sensitive, and its severity.
Trusted boundary: forensics/views.py, `sensitivity_payload` to `audit_data_mode_change_sensitive_field_paths`,
  the severities, `delivery_observation_payload` to `audit_data_mode_change_payload`;
  forensics/analysis.py, `audit_files_for_group`, `source_label_for_file`, `agent_source_row`,
  `agent_event_row`.  `str.lower` and `str` of a list are parameters; the labels of statuses and the
  constant column `missing_inferred` are left out
Main exports: AgentSourceRow, AgentEventRow, DeliveryArtifactPayload, NetworkObservationPayload,
  StateDeltaPayload, EpochTransitionPayload, AuditDataModeChangePayload
-/
import Goggles.Views.Delivery
import Goggles.Views.Listings

namespace Goggles

/-! ### Sensitivity -/

/-- `FULL_DATA_AUDIT_MODE`. -/
def FULL_DATA_AUDIT_MODE : Str := "full_data"

/-- `sensitivity_payload`, its constant `authorization` apart. -/
structure Sensitivity where
  containsSensitiveData : Bool
  containsFullData : Bool
  auditDataModes : List Str
  sensitiveFieldPaths : List Str
deriving Repr, DecidableEq

/-- `sensitivity_payload(field_paths, audit_data_modes=modes)`. -/
def sensitivityPayload (fieldPaths modes : List Str) : Sensitivity where
  containsSensitiveData := fieldPaths ≠ []
  containsFullData := modes.contains FULL_DATA_AUDIT_MODE
  auditDataModes := modes
  sensitiveFieldPaths := fieldPaths

/-- `[mode] if mode else []`. -/
def modeList (mode : Str) : List Str := if mode = [] then [] else [mode]

/-- The names of the columns that are not blank. -/
def filledNames (columns : List (Str × Str)) : List Str :=
  (columns.filter (·.2 ≠ [])).map Prod.fst

/-- `delivery_artifact_sensitive_field_paths`. -/
def deliveryArtifactSensitiveFieldPaths (artifact : DeliveryArtifact) : List Str :=
  let member (fields : Dict) (key path : Str) : List Str :=
    if (fields.get key).truthy then [path] else []
  (if artifact.decodedPayload ≠ [] then [lit "decoded_payload"] else []) ++
  (if artifact.decodedAppEvent ≠ [] then [lit "decoded_app_event"] else []) ++
  member artifact.author "account_pubkey_hex" "author.account_pubkey_hex" ++
  member artifact.author "npub" "author.npub" ++
  member artifact.decodedAppEvent "pubkey_hex" "decoded_app_event.pubkey_hex" ++
  member artifact.decodedAppEvent "content" "decoded_app_event.content"

/-- `network_sensitive_field_paths`. -/
def networkSensitiveFieldPaths (observation : NetworkObservation) : List Str :=
  filledNames
    [(lit "wire_id", observation.wireId), (lit "wire_pubkey_hex", observation.wirePubkeyHex),
      (lit "transport_group_id", observation.transportGroupId),
      (lit "nostr_event_id", observation.nostrEventId),
      (lit "nostr_pubkey_hex", observation.nostrPubkeyHex),
      (lit "gift_wrap_event_id", observation.giftWrapEventId),
      (lit "welcome_nostr_event_id", observation.welcomeNostrEventId),
      (lit "welcome_rumor_event_id", observation.welcomeRumorEventId),
      (lit "welcome_key_package_tag", observation.welcomeKeyPackageTag),
      (lit "publish_result_id", observation.publishResultId)]

/-- `convergence_sensitive_field_paths`. -/
def convergenceSensitiveFieldPaths (run : ConvergenceRun)
    (candidates : List (Str × ConvergenceCandidate)) : List Str :=
  (if run.accountRef ≠ [] then [lit "account_ref"] else []) ++
  (if candidates.any (fun candidate => candidate.2.tipCommitterPubkeyHex ≠ []) then
    [lit "candidates[]." ++ lit "tip_committer_pubkey_hex"]
  else [])

/-- `state_delta_sensitive_field_paths`. -/
def stateDeltaSensitiveFieldPaths (delta : StateDelta) : List Str :=
  filledNames [(lit "actor_pubkey_hex", delta.actorPubkeyHex),
    (lit "subject_pubkey_hex", delta.subjectPubkeyHex)] ++
  (if (Dict.get delta.value (lit "text")).truthy then [lit "value.text"] else [])

/-- `audit_data_mode_change_sensitive_field_paths`. -/
def auditDataModeChangeSensitiveFieldPaths (event : AuditEvent) : List Str :=
  filledNames [(lit "engine_id", event.engineId), (lit "account_ref", event.accountRef),
    (lit "recorder_session_id", event.recorderSessionId)]

/-! ### References to evidence -/

section References

variable (events : List AuditEvent)

/-- `evidence_refs_payload`. -/
def evidenceRefsPayload (evidence : Finset Nat) : List Dict :=
  (citedEvents events evidence).map evidenceRefPayload

/-- `evidence_ref_payload` of the event of a foreign key. -/
def evidenceRefOf (eventId : Nat) : Option Dict := (eventOf events eventId).map evidenceRefPayload

end References

/-! ### Delivery -/

/-- `delivery_observation_payload`. -/
structure DeliveryObservationPayload where
  engineId : Str
  accountRef : Str
  firstSeenMs : Option Nat
  lastSeenMs : Option Nat
  latestState : Str
  states : List (StateEntry × Option Dict)
  evidenceRefs : List Dict

/-- A row of the recipient matrix, with the observations and the reference it shows. -/
structure RecipientRowPayload where
  row : RecipientRow
  observations : List DeliveryObservationPayload
  evidenceRef : Option Dict

/-- `delivery_artifact_payload`. -/
structure DeliveryArtifactPayload where
  artifactId : Str
  artifact : DeliveryArtifact
  sensitivity : Sensitivity
  evidenceRefs : List Dict
  engineObservations : List DeliveryObservationPayload
  recipientExpectations : List (RecipientExpectation × Option Dict)
  recipientMatrix : List RecipientRowPayload
  severity : Str

/-- The statuses that make a delivery a warning. -/
def DeliveryStatus.warns : DeliveryStatus → Bool
  | .missingInferred | .missingCountInferred | .partialCountInferred
  | .observedCountExceedsExpected | .unobservedNoUploadedEngine => true
  | .observed | .unknown | .expectedCountSatisfied | .observedNotExpected => false

section Delivery

variable (lower : Str → Str) (events : List AuditEvent)

/-- `delivery_observation_state_payloads`. -/
def deliveryObservationStatePayloads (observation : DeliveryObservation) :
    List (StateEntry × Option Dict) :=
  observation.states.map fun state =>
    (state, (eventOf (citedEvents events observation.evidence) state.eventId).map evidenceRefPayload)

def deliveryObservationPayload (engineId : Str) (observation : DeliveryObservation) :
    DeliveryObservationPayload where
  engineId := engineId
  accountRef := observation.accountRef
  firstSeenMs := observation.firstSeenMs
  lastSeenMs := observation.lastSeenMs
  latestState := observation.latestState
  states := deliveryObservationStatePayloads events observation
  evidenceRefs := evidenceRefsPayload events observation.evidence

/-- `delivery_payload_severity`. -/
def deliveryPayloadSeverity (matrix : List RecipientRow) (latestStates : List Str) : Str :=
  if matrix.any (·.status.warns) then "warning" else severityFromValues lower latestStates

def deliveryArtifactPayload (tables : DeliveryTables) (index : DeliveryIdentityIndex)
    (entry : Str × DeliveryArtifact) : DeliveryArtifactPayload :=
  let observed := observedOf events tables entry.1
  let payloads := observed.map fun seen =>
    deliveryObservationPayload events seen.engineId seen.observation
  let matrix := artifactMatrix events tables index entry.1
  { artifactId := entry.1
    artifact := entry.2
    sensitivity := sensitivityPayload (deliveryArtifactSensitiveFieldPaths entry.2)
      entry.2.auditDataModes
    evidenceRefs := evidenceRefsPayload events entry.2.evidence
    engineObservations := payloads
    recipientExpectations := (expectationsFor events tables entry.1).map fun expected =>
      (expected.1, expected.2.map evidenceRefPayload)
    recipientMatrix := matrix.map fun row =>
      { row := row
        -- an engine observes an artifact once
        observations := payloads.filter fun payload => row.observations.contains payload.engineId
        evidenceRef := row.evidenceEvent.bind (evidenceRefOf events) }
    severity := deliveryPayloadSeverity lower matrix (observed.map (·.observation.latestState)) }

/-- `apply_delivery_artifact_filters`, over the artifacts of the group.  Each filter joins its rows
anew. -/
def filteredDeliveryArtifacts (tables : DeliveryTables) (filters : ApiFilters) :
    List (Str × DeliveryArtifact) :=
  (inOrder (fun entry => toLex (entry.2.firstSeenMs.isNone, toLex (entry.2.firstSeenMs.getD 0,
      entry.1))) tables.artifacts.entries).filter fun entry =>
    let observed := (observedOf events tables entry.1)
    let evidence := citedEvents events entry.2.evidence
    (filters.engineId = [] || observed.any (·.engineId = filters.engineId)) &&
    (filters.accountRef = [] || observed.any (·.observation.accountRef = filters.accountRef)) &&
    (filters.auditDataMode = [] || evidence.any (·.auditDataMode = filters.auditDataMode)) &&
    textFilter filters.messageId entry.1 &&
    (filters.eventType = [] || evidence.any (·.eventType = filters.eventType)) &&
    timeFilter filters.fromMs none entry.2.lastSeenMs && timeFilter none filters.toMs entry.2.firstSeenMs

end Delivery

/-! ### Network -/

/-- `network_observation_payload`. -/
structure NetworkObservationPayload where
  observation : NetworkObservation
  sensitivity : Sensitivity
  evidenceRef : Option Dict
  severity : Str

section Network

variable (lower : Str → Str) (events : List AuditEvent)

/-- `network_payload_severity`. -/
def networkPayloadSeverity (observation : NetworkObservation) : Str :=
  let severity := severityFromValues lower [observation.phase, observation.outcome]
  if severity = lit "error" then severity
  else if observation.metRequiredAcks = some false ∨ observation.failedRelays ≠ [] then "warning"
  else severity

def networkObservationPayload (observation : NetworkObservation) : NetworkObservationPayload where
  observation := observation
  sensitivity := sensitivityPayload (networkSensitiveFieldPaths observation)
    (((eventOf events observation.auditEvent).map (modeList ·.auditDataMode)).getD [])
  evidenceRef := evidenceRefOf events observation.auditEvent
  severity := networkPayloadSeverity lower observation

/-- `filtered_network_observations`, over the rows of the group. -/
def filteredNetworkObservations (network : List NetworkObservation) (filters : ApiFilters) :
    List NetworkObservation :=
  (inOrder (fun row => toLex (row.wallTimeMs.isNone, toLex (row.wallTimeMs.getD 0, row.engineId)))
      network).filter fun row =>
    textFilter filters.engineId row.engineId && textFilter filters.accountRef row.accountRef &&
    eventFilter (eventOf events row.auditEvent) filters.auditDataMode (·.auditDataMode) &&
    textFilter filters.messageId row.messageId && textFilter filters.eventType row.phase &&
    timeFilter filters.fromMs filters.toMs row.wallTimeMs

end Network

/-! ### Convergence -/

/-- `convergence_run_payload`, whole: each candidate and rule evaluation is shown with the references
to the decisions. -/
structure ConvergencePayload where
  payload : ConvergenceRunPayload
  sensitivity : Sensitivity
  decisionEvidenceRefs : List Dict
  severity : Str

section Convergence

variable (lower : Str → Str) (listText : List Json → Str) (events : List AuditEvent)

/-- `convergence_payload_severity`. -/
def convergencePayloadSeverity (run : ConvergenceRun) (candidates : List (Str × ConvergenceCandidate)) :
    Str :=
  let kinds := if run.errorKinds = [] then [] else listText run.errorKinds
  let severity := severityFromValues lower [run.phase, kinds]
  if severity = lit "error" then severity
  else if candidates.any fun candidate =>
      candidate.2.eligible = some false ∨ candidate.2.rejectionReasons ≠ [] then "warning"
  else severity

def convergencePayload (tables : ConvergenceTables) (entry : RunKey × ConvergenceRun) :
    ConvergencePayload where
  payload := convergenceRunPayload events tables entry
  sensitivity := sensitivityPayload
    (convergenceSensitiveFieldPaths entry.2 (candidatesOf tables entry.1)) []
  decisionEvidenceRefs := (evidenceRefsPayload events entry.2.evidence).filter fun ref =>
    ref.get (lit "event_type") = .str (lit "convergence_decision")
  severity := convergencePayloadSeverity lower listText entry.2 (candidatesOf tables entry.1)

end Convergence

/-! ### State -/

/-- `state_delta_payload`. -/
structure StateDeltaPayload where
  delta : StateDelta
  sensitivity : Sensitivity
  evidenceRef : Option Dict
  severity : Str

/-- `epoch_transition_payload`. -/
structure EpochTransitionPayload where
  transition : EpochStateTransition
  evidenceRef : Option Dict
  severity : Str

/-- `audit_data_mode_change_payload`. -/
structure AuditDataModeChangePayload where
  engineId : Str
  accountRef : Str
  recorderSessionId : Str
  wallTimeMs : Option Nat
  previousMode : Str
  newMode : Str
  reason : Str
  recorderRestarted : Option Bool
  auditDataMode : Str
  sensitivity : Sensitivity
  evidenceRef : Option Dict
  severity : Str

section State

variable (lower : Str → Str) (listText : List Json → Str) (strOf : Json → Str)
  (events : List AuditEvent)

def stateDeltaPayload (delta : StateDelta) : StateDeltaPayload where
  delta := delta
  sensitivity := sensitivityPayload (stateDeltaSensitiveFieldPaths delta)
    (modeList delta.auditDataMode)
  evidenceRef := evidenceRefOf events delta.auditEvent
  severity := severityFromValues lower
    [delta.changeKind, if delta.fields = [] then [] else listText delta.fields]

def epochTransitionPayload (transition : EpochStateTransition) : EpochTransitionPayload where
  transition := transition
  evidenceRef := evidenceRefOf events transition.auditEvent
  severity := severityFromValues lower
    [transition.previousState, transition.newState, transition.reason]

/-- `audit_data_mode_change_payload_severity`. -/
def auditDataModeChangePayloadSeverity (newMode reason : Str) : Str :=
  if newMode = FULL_DATA_AUDIT_MODE then "warning" else severityFromValues lower [reason]

/-- `str(value or "")`. -/
def textOr (value : Json) : Str := if value.truthy then strOf value else []

def auditDataModeChangePayload (event : AuditEvent) : AuditDataModeChangePayload :=
  let newMode := textOr strOf ((event.kind.get "new_mode").orElse (.str event.outcome))
  let reason := textOr strOf ((event.kind.get "reason").orElse (.str event.reason))
  { engineId := event.engineId
    accountRef := event.accountRef
    recorderSessionId := event.recorderSessionId
    wallTimeMs := event.wallTimeMs
    previousMode := textOr strOf (event.kind.get "previous_mode")
    newMode := newMode
    reason := reason
    recorderRestarted := boolOrNone (event.kind.get "recorder_restarted")
    auditDataMode := event.auditDataMode
    sensitivity := sensitivityPayload (auditDataModeChangeSensitiveFieldPaths event)
      (modeList event.auditDataMode)
    evidenceRef := some (evidenceRefPayload event)
    severity := auditDataModeChangePayloadSeverity lower newMode reason }

/-- `filtered_audit_data_mode_changes`. -/
def filteredAuditDataModeChanges (groupId : Nat) (filters : ApiFilters) : List AuditEvent :=
  (inOrder eventOrderKey (validGroupEvents events groupId)).filter fun event =>
    event.eventType = lit "audit_data_mode_changed" &&
    textFilter filters.engineId event.engineId && textFilter filters.accountRef event.accountRef &&
    textFilter filters.auditDataMode event.auditDataMode &&
    textFilter filters.eventType (lit "audit_data_mode_changed") &&
    timeFilter filters.fromMs filters.toMs event.wallTimeMs

end State

/-! ### Sources and events -/

/-- `audit_files_for_group`. -/
def auditFilesForGroup (store : Store) (groupId : Nat) : List AuditFile :=
  (inOrder (fun file => toLex (file.createdAt, file.id))
    (store.files.filter fun file => decide (groupId ∈ file.groups))).reverse

/-- `group_event_count`. -/
def groupEventCount (store : Store) (groupId : Nat) (file : AuditFile) : Nat :=
  store.events.countP fun event => event.auditFileId == file.id && event.groupId == some groupId

/-- `source_label_for_file`. -/
def sourceLabelForFile (file : AuditFile) : Str :=
  (lit " / ").intercalate <|
    [file.source.platform, file.source.hardwareModel,
      ((file.metadata.engineIds.headD []).take 12)].filter (· ≠ [])

/-- `agent_source_row`.  Uploads have no source name, so the one of the row is made of the id. -/
structure AgentSourceRow where
  id : Nat
  sourceName : Str
  sourceLabel : Str
  source : SourceMetadata
  localMemberRef : Option Str
  duplicateEventCount : Nat
  groupEventCount : Nat
  metadata : FileMetadata
  createdAt : Nat
deriving Repr, DecidableEq

def agentSourceRow (store : Store) (groupId : Nat) (file : AuditFile) : AgentSourceRow where
  id := file.id
  sourceName := lit "audit-file-" ++ natText file.id
  sourceLabel := sourceLabelForFile file
  source := file.source
  localMemberRef := nonBlank file.source.localMemberRef
  duplicateEventCount := file.duplicateEventCount
  groupEventCount := groupEventCount store groupId file
  metadata := file.metadata
  createdAt := file.createdAt

/-- `AGENT_EXPORT_NORMALIZED_FIELD_EXCLUDE`. -/
def AGENT_EXPORT_NORMALIZED_FIELD_EXCLUDE : List Str :=
  ["context_human_action", "context_transport", "context_engine", "context_group",
   "context_convergence", "context_source"]

/-- `agent_export_normalized_fields`. -/
def agentExportNormalizedFields : List Str :=
  persistedNormalizedFields.filter fun field =>
    !AGENT_EXPORT_NORMALIZED_FIELD_EXCLUDE.contains field

/-- `value in (None, "", [], {})`. -/
def isBlankValue : Json → Bool
  | .null | .str [] | .list [] | .dict [] => true
  | _ => false

/-- `agent_event_row`. -/
structure AgentEventRow where
  id : Nat
  fileId : Nat
  lineNumber : Nat
  lineHash : Str
  schemaVersion : Str
  seq : Option Nat
  wallTimeMs : Option Nat
  accountRef : Str
  engineId : Str
  groupRef : Str
  eventType : Str
  context : Json
  kind : Json
  normalized : Dict

def agentEventRow (event : AuditEvent) : AgentEventRow where
  id := event.id
  fileId := event.auditFileId
  lineNumber := event.lineNumber
  lineHash := event.lineHash
  schemaVersion := event.schemaVersion
  seq := event.seq
  wallTimeMs := event.wallTimeMs
  accountRef := event.accountRef
  engineId := event.engineId
  groupRef := event.groupRef
  eventType := event.eventType
  context := event.rawContext.orElse (.dict [])
  kind := event.rawKind.orElse (.dict [])
  normalized := (agentExportNormalizedFields.map fun field =>
    (field, event.normalized.get field)).filter fun entry => !isBlankValue entry.2

end Goggles
