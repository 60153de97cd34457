/-
Module: Goggles.Ingest.Columns
Purpose: The columns of `AuditEvent`, their PostgreSQL limits, and which of them the normalizer fills.
Trusted boundary: forensics/models.py (declaration order) and forensics/normalized_fields.py
Main exports: ColumnType, auditEventColumns, persistedNormalizedFields, stringExceedsModelLimit,
  intExceedsModelLimit
-/
import Goggles.Python.Json

namespace Goggles

/-- The Django field types of the evidence models. -/
inductive ColumnType where
  | char (maxLength : Nat)
  | text
  | positiveInteger
  | positiveBigInteger
  | boolean
  | json
  | dateTime
  | foreignKey
deriving Repr, DecidableEq

/-- `field.max_length`. -/
def ColumnType.maxLength : ColumnType → Option Nat
  | .char maxLength => some maxLength
  | _ => none

/-- The upper end of `BaseDatabaseOperations.integer_field_ranges`. -/
def ColumnType.intMax : ColumnType → Option Nat
  | .positiveInteger => some 2147483647
  | .positiveBigInteger => some 9223372036854775807
  | _ => none

/-- The local concrete fields of `AuditEvent`. -/
def auditEventColumns : List (Str × ColumnType) :=
  let column (name : Str) (type : ColumnType) : Str × ColumnType := (name, type)
  [ column "id" .foreignKey,
    column "group" .foreignKey,
    column "audit_file" .foreignKey,
    column "line_number" .positiveInteger,
    column "line_hash" (.char 64),
    column "raw_line" .text,
    column "raw_event" .json,
    column "raw_kind" .json,
    column "raw_context" .json,
    column "parse_status" (.char 16),
    column "validation_error" .text,
    column "schema_version" (.char 80),
    column "recorder_session_id" (.char 160),
    column "audit_data_mode" (.char 80),
    column "seq" .positiveBigInteger,
    column "wall_time_ms" .positiveBigInteger,
    column "account_ref" (.char 64),
    column "engine_id" (.char 64),
    column "group_ref" .text,
    column "event_type" (.char 80) ] ++
  [ column "context_operation_id" (.char 160),
    column "context_human_action" .json,
    column "context_transport" .json,
    column "context_engine" .json,
    column "context_group" .json,
    column "context_convergence" .json,
    column "context_source" .json,
    column "human_action_action" (.char 120),
    column "human_action_origin" (.char 80),
    column "human_action_phase" (.char 80),
    column "human_action_fields" .json,
    column "human_action_component_ids" .json,
    column "human_action_target_count" .positiveInteger,
    column "human_action_message_ids" .json,
    column "msg_id" .text,
    column "outbound_msg_id" .text,
    column "outbound_welcome_msg_ids" .json,
    column "target_kind" (.char 120),
    column "relay_urls" .json,
    column "accepted_relay_urls" .json,
    column "failed_relays" .json,
    column "required_acks" .positiveInteger,
    column "met_required_acks" .boolean ] ++
  [ column "epoch" .positiveBigInteger,
    column "source_epoch" .positiveBigInteger,
    column "from_epoch" .positiveBigInteger,
    column "to_epoch" .positiveBigInteger,
    column "pending_epoch" .positiveBigInteger,
    column "restored_epoch" .positiveBigInteger,
    column "current_tip_epoch" .positiveBigInteger,
    column "selected_fork_epoch" .positiveBigInteger,
    column "selected_tip_epoch" .positiveBigInteger,
    column "payload_len" .positiveBigInteger,
    column "payload_digest" (.char 128),
    column "candidate_digest" (.char 128),
    column "incumbent_digest" (.char 128),
    column "envelope_kind" (.char 120),
    column "outcome" (.char 120),
    column "outcome_kind" (.char 120),
    column "stale_reason" (.char 160),
    column "decision" (.char 120),
    column "reason" (.char 240),
    column "winner" (.char 120),
    column "new_state" (.char 120),
    column "pending_kind" (.char 120),
    column "intent_kind" (.char 120),
    column "result_kind" (.char 120),
    column "proposal_kind" (.char 120),
    column "snapshot_name" (.char 256),
    column "selected_branch_id" (.char 256),
    column "detail" .text,
    column "fallback_snapshot_used" .boolean,
    column "invalidated_msg_id" .text,
    column "max_rewind_commits" .positiveBigInteger,
    column "candidate_count" .positiveInteger,
    column "eligible_count" .positiveInteger,
    column "created_at" .dateTime ]

/-- `AuditEvent._meta.get_field(field)`. -/
def auditEventColumn (field : Str) : Option ColumnType := auditEventColumns.lookup field

/-- Columns filled by ingestion bookkeeping rather than by the copy loop. -/
def NON_NORMALIZED_AUDIT_EVENT_FIELDS : List Str :=
  ["id", "group", "audit_file", "line_number", "line_hash", "raw_line", "raw_event", "raw_kind",
   "raw_context", "parse_status", "validation_error", "schema_version", "recorder_session_id",
   "audit_data_mode", "seq", "wall_time_ms", "account_ref", "engine_id", "group_ref",
   "event_type", "created_at"]

/-- `persisted_normalized_fields()`. -/
def persistedNormalizedFields : List Str :=
  (auditEventColumns.map Prod.fst).filter fun field =>
    !NON_NORMALIZED_AUDIT_EVENT_FIELDS.contains field

/-- The bound `string_exceeds_model_limit` enforces on a field. -/
def stringLimit (field : Str) : Option Nat := (auditEventColumn field).bind ColumnType.maxLength

/-- `model_int_field_max(field)`. -/
def modelIntFieldMax (field : Str) : Option Nat := (auditEventColumn field).bind ColumnType.intMax

/-- The error `string_exceeds_model_limit` appends, when it does. -/
def stringExceedsModelLimit (field value : Str) : Option Str :=
  match stringLimit field with
  | some maxLength =>
      if maxLength < value.length then
        some (field ++ lit " must be at most " ++ natText maxLength ++ lit " characters")
      else none
  | none => none

/-- The error `int_exceeds_model_limit` appends, when it does.  The message names the source
field, the bound is that of the column it is stored in. -/
def intExceedsModelLimit (field modelField : Str) (value : Nat) : Option Str :=
  match modelIntFieldMax modelField with
  | some maxValue =>
      if maxValue < value then
        some (field ++ lit " must be a non-negative integer within range")
      else none
  | none => none

theorem stringExceedsModelLimit_eq_none_iff {field value : Str} :
    stringExceedsModelLimit field value = none ↔
      ∀ maxLength, stringLimit field = some maxLength → value.length ≤ maxLength := by
  unfold stringExceedsModelLimit
  cases stringLimit field with
  | none => simp
  | some maxLength => by_cases exceeds : maxLength < value.length <;> simp [exceeds]; omega

theorem intExceedsModelLimit_eq_none_iff {field modelField : Str} {value : Nat} :
    intExceedsModelLimit field modelField value = none ↔
      ∀ maxValue, modelIntFieldMax modelField = some maxValue → value ≤ maxValue := by
  unfold intExceedsModelLimit
  cases modelIntFieldMax modelField with
  | none => simp
  | some maxValue => by_cases exceeds : maxValue < value <;> simp [exceeds]; omega

example : persistedNormalizedFields.length = 56 := by decide +kernel

end Goggles
