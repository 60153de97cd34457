/-
Module: Goggles.Projection.Delivery
Purpose: The delivery projection: which messages an event refers to, and the artifact, observation
  and expectation rows it leaves.
Trusted boundary: forensics/projections.py, `message_refs_for_event` to
  `project_recipient_expectations`
Main exports: MessageRef, messageRefsForEvent, artifactForMessage, projectDeliveryObservation,
  deliveryStateForEvent, recipientExpectations, projectDelivery
-/
import Goggles.Store.Tables

namespace Goggles

/-! ### Message references -/

structure MessageRef where
  msgId : Str
  artifactKind : Str := []
deriving Repr, DecidableEq

/-- The inner `add`: a non-empty string not yet referred to. -/
def addRef (refs : List MessageRef) (msgId artifactKind : Json) : List MessageRef :=
  match msgId with
  | .str identifier =>
      if identifier ≠ [] ∧ ∀ ref ∈ refs, ref.msgId ≠ identifier then
        refs ++ [⟨identifier, valueIfStr artifactKind⟩]
      else refs
  | _ => refs

/-- The reference an outbound message of the kind makes. -/
def addOutboundRef (refs : List MessageRef) (outbound : Json) : List MessageRef :=
  match outbound with
  | .dict fields => addRef refs (Dict.get fields "msg_id") (Dict.get fields "artifact_kind")
  | _ => refs

/-- `message_refs_for_event`. -/
def messageRefsForEvent (event : AuditEvent) : List MessageRef :=
  let kind := event.kind
  let named := addRef [] (.str event.msgId) (kind.get "artifact_kind")
  let sent := addRef named (.str event.outboundMsgId) (.str [])
  let welcomed := event.outboundWelcomeMsgIds.foldl (addRef · · (.str "welcome")) sent
  let acted := event.humanActionMessageIds.foldl (addRef · · (.str [])) welcomed
  let invalidated := addRef acted (.str event.invalidatedMsgId) (.str [])
  let raw := addRef invalidated (kind.get "msg_id") (kind.get "artifact_kind")
  (kind.get "outbound_messages").listOrEmpty.foldl addOutboundRef raw

/-! ### Artifacts -/

/-- `if wall_time_ms is not None and (seen is None or wall_time_ms < seen)`. -/
def earlierMs (seen wallTimeMs : Option Nat) : Option Nat :=
  match wallTimeMs, seen with
  | none, _ => seen
  | some ms, none => some ms
  | some ms, some first => some (min ms first)

/-- `if wall_time_ms is not None and (seen is None or wall_time_ms > seen)`. -/
def laterMs (seen wallTimeMs : Option Nat) : Option Nat :=
  match wallTimeMs, seen with
  | none, _ => seen
  | some ms, none => some ms
  | some ms, some last => some (max ms last)

/-- `append_json_value`. -/
def appendJsonValue (values : List Str) (value : Str) : List Str :=
  if value = [] ∨ value ∈ values then values else inOrder id (values ++ [value])

/-- A dict of the kind, when it is one, over the stored one. -/
def overwriteDict (kind : Dict) (field : Str) (stored : Dict) : Dict :=
  match kind.get field with
  | .dict value => value
  | _ => stored

/-- A kind that a later reference may still replace. -/
def isUnknownKind (artifactKind : Str) : Prop := artifactKind = [] ∨ artifactKind = lit "unknown"

instance (artifactKind : Str) : Decidable (isUnknownKind artifactKind) :=
  inferInstanceAs (Decidable (_ ∨ _))

/-- The kind after one more reference. -/
def refineKind (artifactKind refKind : Str) : Str :=
  if refKind ≠ [] ∧ isUnknownKind artifactKind then refKind else artifactKind

/-- The row `get_or_create` makes for a first reference. -/
def newArtifact (event : AuditEvent) (ref : MessageRef) : DeliveryArtifact where
  artifactKind := ref.artifactKind
  firstSeenMs := event.wallTimeMs
  lastSeenMs := event.wallTimeMs
  auditDataModes := if event.auditDataMode = [] then [] else [event.auditDataMode]
  author := []
  decodedPayload := []
  decodedAppEvent := []
  evidence := ∅

/-- `artifact_for_message`: the row after the event, from the row found before it. -/
def artifactForMessage (event : AuditEvent) (ref : MessageRef)
    (found : Option DeliveryArtifact) : DeliveryArtifact :=
  let artifact := found.getD (newArtifact event ref)
  let decoded := event.eventType = lit "message_content_decoded"
  { artifactKind := refineKind artifact.artifactKind ref.artifactKind
    firstSeenMs := earlierMs artifact.firstSeenMs event.wallTimeMs
    lastSeenMs := laterMs artifact.lastSeenMs event.wallTimeMs
    auditDataModes := appendJsonValue artifact.auditDataModes event.auditDataMode
    author := if decoded then overwriteDict event.kind "author" artifact.author else artifact.author
    decodedPayload :=
      if decoded then overwriteDict event.kind "decoded_payload" artifact.decodedPayload
      else artifact.decodedPayload
    decodedAppEvent :=
      if decoded then overwriteDict event.kind "decoded_app_event" artifact.decodedAppEvent
      else artifact.decodedAppEvent
    evidence := insert event.id artifact.evidence }

/-! ### Observations -/

/-- `delivery_state_for_event`. -/
def deliveryStateForEvent (event : AuditEvent) : Str :=
  if event.eventType = lit "message_state_changed" ∧ event.newState ≠ [] then event.newState
  else if event.eventType = lit "ingest_outcome" ∧ event.outcomeKind ≠ [] then
    lit "ingest:" ++ event.outcomeKind
  else if event.eventType = lit "send_outcome" ∧ event.resultKind ≠ [] then
    lit "send:" ++ event.resultKind
  else if event.eventType = lit "publish_outcome" then
    if event.metRequiredAcks = some true then "publish:acked" else "publish:partial"
  else if event.eventType = lit "publish_failure" then "publish:failed"
  else if event.eventType = lit "message_content_decoded" then "decoded"
  else if event.eventType = lit "recipient_expectation" then "expected"
  else event.eventType

/-- The row `get_or_create` makes for an engine's first event about an artifact. -/
def newObservation (event : AuditEvent) : DeliveryObservation where
  accountRef := event.accountRef
  firstSeenMs := event.wallTimeMs
  lastSeenMs := event.wallTimeMs
  states := []
  latestState := []
  evidence := ∅

/-- `project_delivery_observation`: the row after the event, from the row found before it. -/
def projectDeliveryObservation (event : AuditEvent) (found : Option DeliveryObservation) :
    DeliveryObservation :=
  let observation := found.getD (newObservation event)
  let state := deliveryStateForEvent event
  { accountRef :=
      if event.accountRef ≠ [] ∧ observation.accountRef = [] then event.accountRef
      else observation.accountRef
    firstSeenMs := earlierMs observation.firstSeenMs event.wallTimeMs
    lastSeenMs := laterMs observation.lastSeenMs event.wallTimeMs
    states :=
      if state = [] then observation.states
      else observation.states ++ [⟨state, event.eventType, event.id, event.wallTimeMs⟩]
    latestState := if state = [] then observation.latestState else state
    evidence := insert event.id observation.evidence }

/-! ### Expectations -/

/-- One expectation object as the row it is stored as. -/
def newExpectation (event : AuditEvent) (artifactId artifactKind : Str)
    (expectation : Dict) : RecipientExpectation where
  artifactId := artifactId
  artifactKind := ((expectation.get "artifact_kind").orElse (.str artifactKind)).textOrEmpty
  recipientScope := ((expectation.get "recipient_scope").orElse (.str "unknown")).textOrEmpty
  membershipEpoch := valueIfInt (expectation.get "membership_epoch")
  basisCommitId := (expectation.get "basis_commit_id").textOrEmpty
  expectedMemberRefs := (expectation.get "expected_member_refs").listOrEmpty
  expectedPubkeysHex := (expectation.get "expected_pubkeys_hex").listOrEmpty
  expectedCount := valueIfInt (expectation.get "expected_count")
  evidenceEvent := event.id

/-- The value as an object, when it is one. -/
def asDict : Json → Option Dict
  | .dict fields => some fields
  | _ => none

/-- The expectation an outbound message carries, when it is for the artifact. -/
def outboundExpectationFor (artifactId : Str) (outbound : Json) : Option Dict :=
  (asDict outbound).bind fun fields =>
    if fields.get "msg_id" = .str artifactId then asDict (fields.get "recipient_expectation")
    else none

/-- The expectation objects an event carries for one artifact. -/
def expectationsOf (event : AuditEvent) (artifactId : Str) : List Dict :=
  let kind := event.kind
  let direct :=
    if event.eventType = lit "recipient_expectation" then (asDict (kind.get "expectation")).toList
    else []
  direct ++
    (kind.get "outbound_messages").listOrEmpty.filterMap (outboundExpectationFor artifactId)

theorem asDict_eq_some_iff {value : Json} {fields : Dict} :
    asDict value = some fields ↔ value = .dict fields := by
  cases value <;> simp [asDict]

/-- `project_recipient_expectations`: the rows it creates. -/
def recipientExpectations (event : AuditEvent) (artifactId artifactKind : Str) :
    List RecipientExpectation :=
  (expectationsOf event artifactId).map (newExpectation event artifactId artifactKind)

/-! ### One event -/

/-- The artifact rows after an event. -/
def projectArtifacts (event : AuditEvent) (artifacts : Keyed Str DeliveryArtifact) :
    Keyed Str DeliveryArtifact :=
  (messageRefsForEvent event).foldl
    (fun rows ref => rows.upsert ref.msgId (artifactForMessage event ref)) artifacts

/-- The observation rows after an event; an event without an engine observes nothing. -/
def projectObservations (event : AuditEvent) (observations : Keyed (Str × Str) DeliveryObservation) :
    Keyed (Str × Str) DeliveryObservation :=
  if event.engineId = [] then observations
  else
    (messageRefsForEvent event).foldl
      (fun rows ref => rows.upsert (ref.msgId, event.engineId) (projectDeliveryObservation event))
      observations

/-- The kind an artifact row shows. -/
def artifactKindOf (artifacts : Keyed Str DeliveryArtifact) (artifactId : Str) : Str :=
  ((artifacts.find artifactId).map (·.artifactKind)).getD []

/-- The delivery part of `project_event`. -/
def projectDelivery (event : AuditEvent) (tables : DeliveryTables) : DeliveryTables :=
  let artifacts := projectArtifacts event tables.artifacts
  { artifacts := artifacts
    observations := projectObservations event tables.observations
    expectations := tables.expectations ++ (messageRefsForEvent event).flatMap fun ref =>
      recipientExpectations event ref.msgId (artifactKindOf artifacts ref.msgId) }

end Goggles
