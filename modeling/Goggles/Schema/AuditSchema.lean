/-
Module: Goggles.Schema.AuditSchema
Purpose: The v4 audit event schema and the acceptance contract over it.
Trusted boundary: docs/schemas/audit-log-event.v4.schema.json, each `$defs` entry under its own name
Main exports: auditEventKinds, auditEvent, schemaErrorCode, schemaErrorCode_eq_none_iff
-/
import Goggles.Library.ClosedSchema

namespace Goggles

/-! ### Shared definitions -/

def u64 : Schema := .integer none

def u16 : Schema := .integer (some 65535)

def hexString : Schema := .pattern .oneOrMore

def refHex16 : Schema := .pattern (.exactly 32)

def digestHex : Schema := .pattern (.exactly 64)

def messageId : Schema := digestHex

def pubkeyHex : Schema := .pattern (.exactly 64)

def stringArray : Schema := .array (.string 0)

def messageRefArray : Schema := .array messageId

/-! ### Event context -/

def auditHumanActionContext : Schema :=
  .object ["action", "origin"]
    [("action", .string 0), ("origin", .string 0), ("fields", stringArray),
     ("component_ids", .array u16), ("target_count", u64)]

def transportWireEnvelope : Schema :=
  .object []
    [("transport", .string 0), ("delivery_plane", .string 0), ("wire_id", .string 0),
     ("wire_kind", .string 0), ("wire_pubkey_hex", pubkeyHex), ("transport_group_id", .string 0),
     ("relay_url", .string 0), ("subscription_id", .string 0), ("nostr_event_id", digestHex),
     ("nostr_kind", u64), ("nostr_pubkey_hex", pubkeyHex), ("gift_wrap_event_id", digestHex),
     ("welcome_nostr_event_id", digestHex), ("welcome_rumor_event_id", digestHex),
     ("welcome_key_package_tag", .string 0), ("publish_result_id", .string 0)]

def auditTransportContext : Schema :=
  .object ["transport_source"]
    [("transport_source", .string 0), ("delivery_plane", .string 0), ("relay_url", .string 0),
     ("subscription_id", .string 0), ("wire", transportWireEnvelope)]

def auditEngineContext : Schema :=
  .object []
    [("ciphersuite", u16), ("max_past_epochs", u64), ("convergence_max_rewind_commits", u64),
     ("supported_app_component_count", u64), ("feature_count", u64)]

def auditGroupContext : Schema :=
  .object []
    [("epoch", u64), ("member_count", u64), ("required_app_component_count", u64),
     ("admin_count", u64), ("convergence_max_rewind_commits", u64)]

def convergencePhase : Schema :=
  .enum
    ["started", "waiting", "evaluating", "selected", "blocked", "applied", "failed", "stable",
     "unrecoverable"]

def auditConvergenceContext : Schema :=
  .object ["run_id"]
    [("run_id", .string 1), ("phase", convergencePhase), ("inferred", .boolean)]

def auditSourceContext : Schema :=
  .object []
    [("device_id", .string 0), ("hardware_model", .string 0), ("platform", .string 0),
     ("app_version", .string 0), ("upload_trigger", .string 0), ("local_member_ref", refHex16)]

def auditEventContext : Schema :=
  .object []
    [("operation_id", .string 0), ("human_action", auditHumanActionContext),
     ("transport", auditTransportContext), ("engine", auditEngineContext),
     ("group", auditGroupContext), ("convergence", auditConvergenceContext),
     ("source", auditSourceContext)]

/-! ### Messages and expectations -/

def messageArtifactKind : Schema :=
  .enum ["application_message", "commit", "proposal", "welcome", "group_info", "unknown"]

def recipientScope : Schema :=
  .enum
    ["all_current_group_members", "all_other_current_group_members", "added_member_only",
     "explicit_members", "self_only", "unknown"]

def recipientExpectation : Schema :=
  .object ["artifact_kind", "recipient_scope"]
    [("artifact_kind", messageArtifactKind), ("recipient_scope", recipientScope),
     ("membership_epoch", u64), ("basis_commit_id", messageId),
     ("expected_member_refs", .array refHex16), ("expected_count", u64)]

def outboundMessage : Schema :=
  .object ["msg_id", "artifact_kind"]
    [("msg_id", messageId), ("artifact_kind", messageArtifactKind),
     ("transport", transportWireEnvelope), ("recipient_expectation", recipientExpectation)]

/-! ### Group state and convergence -/

def groupStateChangeKind : Schema :=
  .enum
    ["member_added", "member_removed", "member_left", "admin_added", "admin_removed",
     "group_renamed", "group_avatar_changed", "message_retention_changed", "group_disbanded"]

def membershipChangeSource : Schema :=
  .enum ["self_leave", "admin_action", "convergence", "remote_commit", "unknown"]

def groupStateValue : Schema :=
  .object [] [("digest", digestHex), ("len", u64)]

def convergenceScore : Schema :=
  .object []
    [("valid_commit_depth", u64), ("effective_commit_depth", u64),
     ("witness_quorum_met", .boolean), ("app_witness_score", u64), ("tip_priority", .string 0),
     ("tip_committer_ref", refHex16), ("tip_digest", digestHex)]

def appWitness : Schema :=
  .object ["epoch"]
    [("epoch", u64), ("sender_ref", refHex16)]

def convergenceCandidate : Schema :=
  .object ["branch_id", "fork_epoch", "tip_epoch"]
    [("branch_id", .string 0), ("fork_epoch", u64), ("tip_epoch", u64),
     ("commit_ids", messageRefArray), ("commit_count", u64), ("state_digest", digestHex),
     ("tip_digest", digestHex), ("tip_priority", .string 0), ("tip_committer_ref", refHex16),
     ("retained_anchor_status", .string 0), ("last_input_time_ms", u64), ("eligible", .boolean),
     ("rejection_reasons", stringArray), ("score", convergenceScore),
     ("app_witnesses", .array appWitness)]

/-! ### Transport, peeling and backfill -/

def publishRelayFailure : Schema :=
  .object ["relay_url", "reason"]
    [("relay_url", .string 0), ("reason", .string 0)]

def relayRegistration : Schema :=
  .object ["relay_url", "accepted"]
    [("relay_url", .string 0), ("accepted", .boolean)]

def peelerOutcomeKind : Schema :=
  .enum
    ["success", "decrypt_failed", "stale_epoch", "malformed", "invalid_signature",
     "wrong_recipient", "other"]

def epochStallBackfillTrigger : Schema :=
  .enum ["undecryptable_threshold", "contested_fork_deferral", "resource_refusal"]

def epochBackfillExecutionSeam : Schema :=
  .enum ["startup", "receive", "explicit_catch_up", "maintenance"]

def epochBackfillReplayScope : Schema := .enum ["account_full_history"]

def epochBackfillActivationOutcome : Schema := .enum ["succeeded", "failed"]

def epochBackfillCompletionKind : Schema := .enum ["end_of_stored_events", "quiescence_fallback"]

def epochBackfillDeferredReason : Schema := .enum ["group_epoch_unavailable"]

/-! ### Event kinds -/

/-- One variant of the union: `type` is its constant and always required. -/
def variant (type : Str) (required : List Str) (properties : List (Str × Schema)) : Str × Schema :=
  (type, .object ("type" :: required) (("type", .const type) :: properties))

/-- The `auditEventKind` union: one closed object for each `kind.type`. -/
def auditEventKinds : List (Str × Schema) :=
  [ variant "recorder_started" ["recorder"] [("recorder", .string 0)],
    variant "source_context" ["source"] [("source", auditSourceContext)],
    variant "engine_context" ["context"] [("context", auditEngineContext)],
    variant "group_context" ["reason", "context"]
      [("reason", .string 0), ("context", auditGroupContext)],
    variant "recorder_health" ["serialization_failures", "write_failures", "flush_failures"]
      [("serialization_failures", u64), ("write_failures", u64), ("flush_failures", u64)],
    variant "human_action" ["action", "origin", "phase"]
      [("action", .string 0), ("origin", .string 0), ("phase", .string 0),
       ("fields", stringArray), ("component_ids", .array u16), ("target_count", u64),
       ("message_ids", messageRefArray), ("from_epoch", u64), ("to_epoch", u64),
       ("error_kind", .string 0), ("detail", .string 0)],
    variant "transport_received" ["transport", "payload_len", "payload_digest"]
      [("msg_id", messageId), ("transport", transportWireEnvelope), ("payload_len", u64),
       ("payload_digest", digestHex)],
    variant "ingest_entry"
      ["msg_id", "envelope_kind", "transport_source", "payload_len", "payload_digest"]
      [("msg_id", messageId), ("envelope_kind", .string 0), ("transport_source", .string 0),
       ("transport", transportWireEnvelope), ("payload_len", u64), ("payload_digest", digestHex)],
    variant "ingest_outcome" ["msg_id", "outcome_kind"]
      [("msg_id", messageId), ("outcome_kind", .string 0), ("stale_reason", .string 0),
       ("epoch", u64)],
    variant "ingest_error" ["msg_id", "error_kind"]
      [("msg_id", messageId), ("error_kind", .string 0), ("detail", .string 0)],
    variant "recipient_expectation" ["msg_id", "expectation"]
      [("msg_id", messageId), ("expectation", recipientExpectation)],
    variant "send_entry" ["intent_kind"] [("intent_kind", .string 0)],
    variant "send_outcome" ["intent_kind", "result_kind"]
      [("intent_kind", .string 0), ("result_kind", .string 0),
       ("outbound_messages", .array outboundMessage)],
    variant "send_error" ["intent_kind", "error_kind"]
      [("intent_kind", .string 0), ("error_kind", .string 0), ("detail", .string 0)],
    variant "create_group_entry"
      ["member_count", "required_feature_count", "app_component_count", "initial_admin_count"]
      [("member_count", u64), ("required_feature_count", u64), ("app_component_count", u64),
       ("initial_admin_count", u64)],
    variant "create_group_outcome" ["result_kind"]
      [("result_kind", .string 0), ("outbound_messages", .array outboundMessage)],
    variant "create_group_error" ["error_kind"] [("error_kind", .string 0), ("detail", .string 0)],
    variant "publish_attempt" ["msg_id", "target_kind", "required_acks"]
      [("msg_id", messageId), ("artifact_kind", messageArtifactKind), ("target_kind", .string 0),
       ("transport", transportWireEnvelope), ("relay_url", .string 0),
       ("relay_urls", stringArray), ("required_acks", u64)],
    variant "publish_outcome" ["msg_id", "target_kind", "required_acks", "met_required_acks"]
      [("msg_id", messageId), ("artifact_kind", messageArtifactKind), ("target_kind", .string 0),
       ("transport", transportWireEnvelope), ("relay_url", .string 0),
       ("accepted_relay_urls", stringArray), ("failed_relays", .array publishRelayFailure),
       ("required_acks", u64), ("met_required_acks", .boolean)],
    variant "publish_failure" ["msg_id", "stage", "target_kind", "reason"]
      [("msg_id", messageId), ("artifact_kind", messageArtifactKind), ("stage", .string 0),
       ("target_kind", .string 0), ("transport", transportWireEnvelope), ("relay_url", .string 0),
       ("relay_urls", stringArray), ("required_acks", u64), ("reason", .string 0),
       ("detail", .string 0)],
    variant "epoch_confirmed" ["from_epoch", "to_epoch", "pending_kind"]
      [("from_epoch", u64), ("to_epoch", u64), ("pending_kind", .string 0),
       ("origin_commit_id", messageId)],
    variant "epoch_rolled_back" ["pending_epoch", "restored_epoch", "pending_kind"]
      [("pending_epoch", u64), ("restored_epoch", u64), ("pending_kind", .string 0)],
    variant "epoch_state_changed" ["new_state", "epoch", "reason"]
      [("previous_state", .string 0), ("new_state", .string 0), ("epoch", u64),
       ("reason", .string 0), ("pending_ref", u64), ("pending_kind", .string 0)],
    variant "group_state_changed" ["epoch", "change_kind"]
      [("epoch", u64), ("change_kind", groupStateChangeKind),
       ("membership_change_source", membershipChangeSource), ("actor_member_ref", refHex16),
       ("subject_member_ref", refHex16), ("origin_commit_id", messageId), ("fields", stringArray),
       ("component_ids", .array u16), ("value", groupStateValue)],
    variant "pending_commit_recovered_on_open" ["recovered_epoch"] [("recovered_epoch", u64)],
    variant "group_hydration_quarantined" ["group_digest", "reason"]
      [("group_digest", digestHex), ("reason", .string 0)],
    variant "group_hydration_recovered" ["group_digest"] [("group_digest", digestHex)],
    variant "snapshot_created" ["snapshot_name", "source_epoch", "reason"]
      [("snapshot_name", .string 0), ("source_epoch", u64), ("reason", .string 0),
       ("state_digest", digestHex)],
    variant "fork_resolution" ["source_epoch", "candidate_digest", "winner"]
      [("source_epoch", u64), ("candidate_digest", digestHex), ("incumbent_digest", digestHex),
       ("winner", .enum ["candidate", "incumbent", "missing_snapshot"]),
       ("invalidated_msg_id", messageId)],
    variant "convergence_run_state" ["phase"]
      [("phase", convergencePhase), ("current_tip_epoch", u64), ("retained_anchor_horizon", u64),
       ("reason", .string 0), ("error_kind", .string 0)],
    variant "convergence_decision" ["current_tip_epoch", "max_rewind_commits", "candidates"]
      [("current_tip_epoch", u64), ("max_rewind_commits", u64),
       ("candidates", .array convergenceCandidate), ("decisive_rule", .string 0),
       ("selected_branch_id", .string 0), ("selected_fork_epoch", u64),
       ("selected_tip_epoch", u64), ("losing_branch_ids", stringArray),
       ("error_kinds", stringArray)],
    variant "peeler_outcome" ["msg_id", "outcome", "fallback_snapshot_used"]
      [("msg_id", messageId), ("outcome", peelerOutcomeKind),
       ("artifact_kind", messageArtifactKind), ("fallback_snapshot_used", .boolean),
       ("fallback_snapshot_name", .string 0), ("fallback_snapshot_source_epoch", u64),
       ("fallback_attempt_count", u64), ("error_kind", .string 0), ("detail", .string 0)],
    variant "auto_commit_decision" ["proposal_kind", "decision"]
      [("proposal_kind", .string 0), ("decision", .string 0), ("reason", .string 0)],
    variant "message_state_changed" ["msg_id", "new_state", "reason"]
      [("msg_id", messageId), ("artifact_kind", messageArtifactKind),
       ("previous_state", .string 0), ("new_state", .string 0), ("epoch", u64),
       ("reason", .string 0), ("retry_count", u64), ("residence_ms", u64)],
    variant "rejection" ["msg_id", "reason"] [("msg_id", messageId), ("reason", .string 0)],
    variant "subscription_rebuild" []
      [("since_secs", u64), ("lookback_secs", u64), ("relay_results", .array relayRegistration)],
    variant "sync_drain" ["duration_ms", "deliveries"]
      [("duration_ms", u64), ("deliveries", u64), ("skipped", u64), ("refused", u64),
       ("cursor_before_secs", u64), ("cursor_after_secs", u64)],
    variant "epoch_stall_backfill_armed" ["stalled_epoch", "threshold"]
      [("stalled_epoch", u64), ("threshold", u64), ("trigger", epochStallBackfillTrigger)],
    variant "epoch_stall_backfill_started" ["seam", "replay_scope", "retry_ordinal"]
      [("seam", epochBackfillExecutionSeam), ("replay_scope", epochBackfillReplayScope),
       ("retry_ordinal", u64)],
    variant "epoch_stall_backfill_completed"
      ["retry_ordinal", "duration_ms", "activation_outcome", "deliveries", "local_epoch_before",
       "local_epoch_after", "group_advanced"]
      [("retry_ordinal", u64), ("duration_ms", u64),
       ("activation_outcome", epochBackfillActivationOutcome),
       ("completion_kind", epochBackfillCompletionKind), ("deliveries", u64), ("skipped", u64),
       ("refused", u64), ("local_epoch_before", u64), ("local_epoch_after", u64),
       ("group_advanced", .boolean)],
    variant "epoch_stall_backfill_failed"
      ["retry_ordinal", "duration_ms", "activation_outcome", "deliveries", "local_epoch_before",
       "local_epoch_after", "group_advanced"]
      [("retry_ordinal", u64), ("duration_ms", u64),
       ("activation_outcome", epochBackfillActivationOutcome), ("error_kind", .string 0),
       ("deliveries", u64), ("skipped", u64), ("refused", u64), ("local_epoch_before", u64),
       ("local_epoch_after", u64), ("group_advanced", .boolean),
       ("group_advanced_observed", .boolean)],
    variant "epoch_stall_backfill_deferred" ["reason", "retry_ordinal"]
      [("reason", epochBackfillDeferredReason), ("retry_ordinal", u64)],
    variant "epoch_stall_backfill_escalated" ["stalled_epoch", "arms", "arm_threshold"]
      [("stalled_epoch", u64), ("arms", u64), ("arm_threshold", u64)],
    variant "convergence_pass_discarded" ["stale_base_epoch", "current_tip_epoch", "generation"]
      [("stale_base_epoch", u64), ("current_tip_epoch", u64), ("generation", u64)] ]

/-! ### The contract -/

def SCHEMA_VERSION : Str := "marmot-forensics-audit/v4"

/-- The root schema with the union narrowed to one variant, as `event_validators` builds it. -/
def auditEvent (kind : Schema) : Schema :=
  .object ["schema_version", "seq", "wall_time_ms", "engine_id", "kind"]
    [("schema_version", .const SCHEMA_VERSION), ("seq", u64), ("wall_time_ms", u64),
     ("recorder_session_id", .string 1), ("account_ref", refHex16), ("engine_id", .string 1),
     ("group_ref", hexString), ("context", auditEventContext), ("kind", kind)]

/-- `schema_error_code` on a JSON object. -/
def schemaErrorCode (event : Dict) : Option Str :=
  if event.get "schema_version" ≠ .str SCHEMA_VERSION then some "unsupported_schema"
  else
    match event.get "kind" with
    | .dict kind =>
        match Dict.get kind "type" with
        | .str kindType =>
            match auditEventKinds.lookup kindType with
            | none => some "invalid_v4_schema"
            | some variant =>
                if (auditEvent variant).valid (.dict event) then none
                else some "invalid_v4_schema"
        | _ => some "invalid_v4_schema"
    | _ => some "invalid_v4_schema"

/-- An accepted event names a listed kind and is valid under the schema narrowed to it. -/
theorem schemaErrorCode_eq_none_iff {event : Dict} :
    schemaErrorCode event = none ↔
      event.get "schema_version" = .str SCHEMA_VERSION ∧
        ∃ kind kindType variant, event.get "kind" = .dict kind ∧ Dict.get kind "type" = .str kindType ∧
          auditEventKinds.lookup kindType = some variant ∧
          (auditEvent variant).valid (.dict event) = true := by
  unfold schemaErrorCode
  constructor
  · intro accepted
    split at accepted
    · cases accepted
    · next version =>
        refine ⟨not_not.mp version, ?_⟩
        split at accepted
        · next kind kindFound =>
            split at accepted
            · next kindType typeFound =>
                split at accepted
                · cases accepted
                · next variant listed =>
                    split at accepted
                    · next valid => exact ⟨kind, kindType, variant, kindFound, typeFound, listed, valid⟩
                    · cases accepted
            · cases accepted
        · cases accepted
  · rintro ⟨version, kind, kindType, variant, kindFound, typeFound, listed, valid⟩
    simp [version, kindFound, typeFound, listed, valid]

/-- The other codes are the two operational ones. -/
theorem schemaErrorCode_cases {event : Dict} {code : Str}
    (rejected : schemaErrorCode event = some code) :
    code = "unsupported_schema" ∨ code = "invalid_v4_schema" := by
  unfold schemaErrorCode at rejected
  repeat' split at rejected
  all_goals simp_all

end Goggles
