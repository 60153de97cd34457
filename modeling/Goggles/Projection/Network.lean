/-
Module: Goggles.Projection.Network
Purpose: The projections that create one row for one event: network observations, state deltas and
  epoch transitions.
Trusted boundary: forensics/projections.py, `project_network_observation`, `project_state_delta`,
  `project_epoch_transition`
Main exports: networkEventTypes, projectNetworkObservation, projectStateDelta,
  projectEpochTransition
-/
import Goggles.Projection.Delivery

namespace Goggles

/-! ### Network observations -/

/-- `NETWORK_EVENT_TYPES`. -/
def networkEventTypes : List Str :=
  ["transport_received", "ingest_entry", "ingest_outcome", "ingest_error", "publish_attempt",
   "publish_outcome", "publish_failure"]

/-- `wire_for_event`: the wire of the kind, else that of the transport context. -/
def wireForEvent (event : AuditEvent) (kind : Dict) : Dict :=
  match kind.get "transport" with
  | .dict wire => wire
  | _ => (event.contextTransport.get "wire").dictOrEmpty

/-- `context_delivery_plane`. -/
def contextDeliveryPlane (event : AuditEvent) : Str :=
  (event.contextTransport.get "delivery_plane").textOrEmpty

/-- The first relay of the first list that has one. -/
def firstRelay (event : AuditEvent) (kind : Dict) : Json :=
  let relays :=
    (kind.get "relay_urls").orElse
      ((event.normalized.get "relay_urls").orElse (event.normalized.get "accepted_relay_urls"))
  relays.listOrEmpty.head?.getD .null

/-- `relay_url_for_event`. -/
def relayUrlForEvent (event : AuditEvent) (kind wire : Dict) : Str :=
  if (wire.get "relay_url").truthy then (wire.get "relay_url").textOrEmpty
  else
    match kind.get "relay_url" with
    | .str (char :: rest) => char :: rest
    | _ =>
        match firstRelay event kind with
        | .str relay => relay
        | _ => (event.contextTransport.get "relay_url").textOrEmpty

/-- `network_direction`. -/
def networkDirection (eventType : Str) : Str :=
  if (lit "publish").isPrefixOf eventType ∨ eventType = lit "send_outcome" ∨
      eventType = lit "create_group_outcome" then "outbound"
  else "inbound"

/-- `network_outcome`: the first text that is not blank. -/
def networkOutcome (event : AuditEvent) : Str :=
  if event.outcome ≠ [] then event.outcome
  else if event.outcomeKind ≠ [] then event.outcomeKind
  else if event.resultKind ≠ [] then event.resultKind
  else if event.reason ≠ [] then event.reason
  else if event.metRequiredAcks = some true then "met_required_acks"
  else []

/-- `project_network_observation`: the row it creates.  The artifact is the first one the event
refers to, with the kind it has after the event. -/
def projectNetworkObservation (event : AuditEvent) (artifact : Option (Str × Str)) :
    NetworkObservation :=
  let kind := event.kind
  let wire := wireForEvent event kind
  { artifact := artifact.map Prod.fst
    auditEvent := event.id
    direction := networkDirection event.eventType
    phase := event.eventType
    messageId :=
      match artifact with
      | some (artifactId, _) => artifactId
      | none => ((kind.get "msg_id").orElse (.str event.msgId)).textOrEmpty
    artifactKind :=
      ((kind.get "artifact_kind").orElse (.str ((artifact.map Prod.snd).getD []))).textOrEmpty
    engineId := event.engineId
    accountRef := event.accountRef
    wallTimeMs := event.wallTimeMs
    transportSource := ((kind.get "transport_source").orElse (wire.get "transport")).textOrEmpty
    deliveryPlane :=
      ((wire.get "delivery_plane").orElse (.str (contextDeliveryPlane event))).textOrEmpty
    relayUrl := relayUrlForEvent event kind wire
    subscriptionId := (wire.get "subscription_id").textOrEmpty
    wireId := (wire.get "wire_id").textOrEmpty
    wireKind := (wire.get "wire_kind").textOrEmpty
    wirePubkeyHex := (wire.get "wire_pubkey_hex").textOrEmpty
    transportGroupId := (wire.get "transport_group_id").textOrEmpty
    nostrEventId := (wire.get "nostr_event_id").textOrEmpty
    nostrKind := valueIfInt (wire.get "nostr_kind")
    nostrPubkeyHex := (wire.get "nostr_pubkey_hex").textOrEmpty
    giftWrapEventId := (wire.get "gift_wrap_event_id").textOrEmpty
    welcomeNostrEventId := (wire.get "welcome_nostr_event_id").textOrEmpty
    welcomeRumorEventId := (wire.get "welcome_rumor_event_id").textOrEmpty
    welcomeKeyPackageTag := (wire.get "welcome_key_package_tag").textOrEmpty
    publishResultId := (wire.get "publish_result_id").textOrEmpty
    payloadLen := event.number "payload_len"
    payloadDigest := event.text "payload_digest"
    outcome := networkOutcome event
    acceptedRelayUrls := event.items "accepted_relay_urls"
    failedRelays := event.items "failed_relays"
    requiredAcks := event.number "required_acks"
    metRequiredAcks := event.metRequiredAcks }

/-- The network row of an event, when its type has one. -/
def networkRows (event : AuditEvent) (artifacts : Keyed Str DeliveryArtifact) :
    List NetworkObservation :=
  if networkEventTypes.contains event.eventType then
    [projectNetworkObservation event ((messageRefsForEvent event).head?.map fun ref =>
      (ref.msgId, artifactKindOf artifacts ref.msgId))]
  else []

/-! ### State and epoch rows -/

/-- `project_state_delta`: the row it creates. -/
def projectStateDelta (event : AuditEvent) : StateDelta :=
  let kind := event.kind
  { auditEvent := event.id
    epoch := event.number "epoch"
    changeKind := ((kind.get "change_kind").orElse (.str event.outcomeKind)).textOrEmpty
    membershipChangeSource := (kind.get "membership_change_source").textOrEmpty
    actorMemberRef := (kind.get "actor_member_ref").textOrEmpty
    actorPubkeyHex := (kind.get "actor_pubkey_hex").textOrEmpty
    subjectMemberRef := (kind.get "subject_member_ref").textOrEmpty
    subjectPubkeyHex := (kind.get "subject_pubkey_hex").textOrEmpty
    originCommitId := (kind.get "origin_commit_id").textOrEmpty
    fields := (kind.get "fields").listOrEmpty
    componentIds := (kind.get "component_ids").listOrEmpty
    value := (kind.get "value").dictOrEmpty
    auditDataMode := event.auditDataMode
    wallTimeMs := event.wallTimeMs }

/-- `project_epoch_transition`: the row it creates. -/
def projectEpochTransition (event : AuditEvent) : EpochStateTransition where
  auditEvent := event.id
  engineId := event.engineId
  accountRef := event.accountRef
  previousState := event.outcome
  newState := event.newState
  epoch := event.number "epoch"
  reason := event.reason
  pendingRef := event.number "pending_epoch"
  pendingKind := event.text "pending_kind"
  wallTimeMs := event.wallTimeMs

/-- The state rows of an event. -/
def stateDeltaRows (event : AuditEvent) : List StateDelta :=
  if event.eventType = lit "group_state_changed" then [projectStateDelta event] else []

/-- The epoch rows of an event. -/
def epochTransitionRows (event : AuditEvent) : List EpochStateTransition :=
  if event.eventType = lit "epoch_state_changed" then [projectEpochTransition event] else []

end Goggles
