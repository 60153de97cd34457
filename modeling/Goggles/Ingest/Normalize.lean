/-
Module: Goggles.Ingest.Normalize
Purpose: The normalizer: which fields of an accepted event are copied to columns, under which
  checks, and the error each failed check reports.
Trusted boundary: forensics/ingest.py, `normalize_event` and everything it calls, row by row in
  source order
Main exports: Normalization, CopyRule, Copy, kindCopies, normalizeContext, normalizeEvent
-/
import Goggles.Ingest.Columns
import Goggles.Schema.AuditSchema

namespace Goggles

/-! ### Values -/

def SAFE_ONLY_AUDIT_DATA_MODE : Str := "safe_only"

/-- Upper bound for hex message identifiers. -/
def MSG_ID_MAX_LENGTH : Nat := 512

/-- The year 2100, in milliseconds since the epoch. -/
def MAX_WALL_TIME_MS : Nat := 4102444800000

def V4_PEELER_OUTCOMES : List Str :=
  ["success", "decrypt_failed", "stale_epoch", "malformed", "other", "invalid_signature",
   "wrong_recipient"]

/-- `value_if_str`. -/
def valueIfStr : Json → Str
  | .str value => value
  | _ => []

/-- `value_if_int`: `type(value) is int`, so neither a Boolean nor a float. -/
def valueIfInt : Json → Option Nat
  | .int value => if 0 ≤ value then some value.natAbs else none
  | _ => none

@[simp] theorem valueIfStr_str (text : Str) : valueIfStr (.str text) = text := rfl

@[simp] theorem valueIfInt_natCast (value : Nat) : valueIfInt (.int value) = some value := by
  simp [valueIfInt]

/-- `HEX_RE.fullmatch`. -/
def hexFullmatch (text : Str) : Bool := !text.isEmpty && text.all isHexDigit

/-- `is_hex(value)`. -/
def isHex : Json → Bool
  | .str value => hexFullmatch value
  | _ => false

/-- `is_hex(value, exact_len=exactLen)`. -/
def isHexOfLength (exactLen : Nat) : Json → Bool
  | .str value => value.length == exactLen && hexFullmatch value
  | _ => false

/-- `is_valid_message_id`. -/
def isValidMessageId (value : Json) : Bool := isHexOfLength 64 value

/-- `message_id_requirement_label`. -/
def messageIdRequirementLabel : Str := "64 hex characters"

/-! ### The result being built -/

/-- The pair `normalize_event` returns, threaded through the copy functions. -/
structure Normalization where
  normalized : Dict
  errors : List Str
deriving Repr, DecidableEq

namespace Normalization

/-- `normalized[field] = value`. -/
def put (state : Normalization) (field : Str) (value : Json) : Normalization :=
  { state with normalized := state.normalized.set field value }

/-- `errors.append(error)`. -/
def fail (state : Normalization) (error : Str) : Normalization :=
  { state with errors := state.errors ++ [error] }

@[simp] theorem put_errors (state : Normalization) (field : Str) (value : Json) :
    (state.put field value).errors = state.errors := rfl

@[simp] theorem put_normalized (state : Normalization) (field : Str) (value : Json) :
    (state.put field value).normalized = state.normalized.set field value := rfl

@[simp] theorem fail_errors (state : Normalization) (error : Str) :
    (state.fail error).errors = state.errors ++ [error] := rfl

@[simp] theorem fail_normalized (state : Normalization) (error : Str) :
    (state.fail error).normalized = state.normalized := rfl

end Normalization

/-! ### Copy rules -/

/-- What a copy function accepts. -/
inductive CopyType where
  | nonEmptyStr
  | str
  | int
  | strList
  | intList
  | messageId
  | messageIdList
  | digest
  | list
  | bool
  | dict
deriving Repr, DecidableEq

/-- The type test of a copy function. -/
def CopyType.accepts : CopyType → Json → Bool
  | .nonEmptyStr, .str value => !value.isEmpty
  | .str, .str _ => true
  | .int, value => (valueIfInt value).isSome
  | .strList, .list items => items.all fun item => match item with | .str _ => true | _ => false
  | .intList, .list items => items.all fun item => (valueIfInt item).isSome
  | .messageId, value => isValidMessageId value
  | .messageIdList, .list items => items.all isValidMessageId
  | .digest, value => isHexOfLength 64 value
  | .list, .list _ => true
  | .bool, .bool _ => true
  | .dict, .dict _ => true
  | _, _ => false

/-- One copy of one field: the shape every `copy_*` function shares.  `missing` is the error for an
absent value, with none when the function returns silently; `mistyped` is the error for a present
value of the wrong type, with none when the source just skips it. -/
structure CopyRule where
  field : Str
  dest : Str
  type : CopyType
  missing : Option Str
  mistyped : Option Str
deriving Repr, DecidableEq

namespace CopyRule

/-- The storage limit a copy function enforces on a value of the right type.  Strings and integers
are bounded by the destination column, message identifiers by `MSG_ID_MAX_LENGTH`. -/
def limitError (rule : CopyRule) : Json → Option Str
  | .str value =>
      match rule.type with
      | .nonEmptyStr | .str => stringExceedsModelLimit rule.dest value
      | .messageId =>
          if MSG_ID_MAX_LENGTH < value.length then
            some (rule.field ++ lit " must be at most " ++ natText MSG_ID_MAX_LENGTH ++
              lit " characters")
          else none
      | _ => none
  | .int value =>
      match rule.type with
      | .int => intExceedsModelLimit rule.field rule.dest value.natAbs
      | _ => none
  | _ => none

/-- Run one copy function. -/
def run (rule : CopyRule) (source : Dict) (state : Normalization) : Normalization :=
  let value := source.get rule.field
  if value = .null then
    match rule.missing with
    | none => state
    | some error => state.fail error
  else if !rule.type.accepts value then
    match rule.mistyped with
    | none => state
    | some error => state.fail error
  else
    match rule.limitError value with
    | some error => state.fail error
    | none => state.put rule.dest value

end CopyRule

def copyStr (field : Str) (dest : Str := field) : CopyRule :=
  let error := field ++ lit " must be a non-empty string"
  ⟨field, dest, .nonEmptyStr, some error, some error⟩

def copyOptionalStr (field : Str) (dest : Str := field) : CopyRule :=
  ⟨field, dest, .str, none, some (field ++ lit " must be a string when present")⟩

def copyContextStr (field dest : Str) : CopyRule :=
  ⟨field, dest, .str, none, some (lit "context." ++ field ++ lit " must be a string when present")⟩

def copyHumanActionStr (field dest : Str) : CopyRule :=
  ⟨field, dest, .str, none,
    some (lit "human_action." ++ field ++ lit " must be a string when present")⟩

def copyInt (field : Str) : CopyRule :=
  let error := field ++ lit " must be a non-negative integer"
  ⟨field, field, .int, some error, some error⟩

def copyOptionalInt (field : Str) (dest : Str := field) : CopyRule :=
  ⟨field, dest, .int, none, some (field ++ lit " must be a non-negative integer when present")⟩

def copyOptionalStrList (field : Str) (dest : Str := field) : CopyRule :=
  ⟨field, dest, .strList, none, some (field ++ lit " must be a list of strings when present")⟩

def copyOptionalIntList (field dest : Str) : CopyRule :=
  ⟨field, dest, .intList, none,
    some (lit "human_action." ++ field ++ lit " must be a list of non-negative integers")⟩

def copyOptionalMsgIdList (field dest : Str) : CopyRule :=
  ⟨field, dest, .messageIdList, none,
    some (lit "human_action." ++ field ++ lit " must be a list of " ++ messageIdRequirementLabel)⟩

/-- `copy_msg_field`. -/
def copyMsgField (field : Str) (required : Bool) (dest : Str) : CopyRule :=
  ⟨field, dest, .messageId, if required then some (field ++ lit " is required") else none,
    some (field ++ lit " must be " ++ messageIdRequirementLabel)⟩

def copyMsgId : CopyRule := copyMsgField "msg_id" true "msg_id"

def copyOptionalMsgId (field : Str) (dest : Str := field) : CopyRule :=
  copyMsgField field false dest

def copyDigest (field : Str) : CopyRule :=
  let error := field ++ lit " must be 64 hex characters"
  ⟨field, field, .digest, some error, some error⟩

def copyOptionalDigest (field : Str) : CopyRule :=
  ⟨field, field, .digest, none, some (field ++ lit " must be 64 hex characters")⟩

/-- `if isinstance(value, dict): normalized[dest] = value`, silent otherwise. -/
def copyDict (field dest : Str) : CopyRule := ⟨field, dest, .dict, none, none⟩

/-- `copy_human_action_fields`. -/
def copyHumanActionFields : List CopyRule :=
  [ copyHumanActionStr "action" "human_action_action",
    copyHumanActionStr "origin" "human_action_origin",
    copyHumanActionStr "phase" "human_action_phase",
    copyOptionalStrList "fields" "human_action_fields",
    copyOptionalIntList "component_ids" "human_action_component_ids",
    copyOptionalInt "target_count" "human_action_target_count",
    copyOptionalMsgIdList "message_ids" "human_action_message_ids",
    copyOptionalInt "from_epoch",
    copyOptionalInt "to_epoch" ]

/-- Run the rules of a list in order. -/
def runRules (rules : List CopyRule) (source : Dict) (state : Normalization) : Normalization :=
  rules.foldl (fun state rule => rule.run source state) state

/-! ### Copies with a body of their own -/

/-- The loop of `copy_outbound_messages` over the messages of a list: the first identifier that is
not a welcome, the welcome identifiers, and the errors. -/
structure OutboundScan where
  outboundMsgId : Str
  welcomeIds : List Json
  errors : List Str
deriving Repr, DecidableEq

/-- `outbound_messages[index]`, as the messages name an entry. -/
def outboundLabel (index : Nat) : Str := lit "outbound_messages[" ++ natText index ++ lit "]"

/-- One iteration of the loop. -/
def OutboundScan.next (scan : OutboundScan) (index : Nat) (message : Json) : OutboundScan :=
  match message with
  | .dict fields =>
      match Dict.get fields "msg_id" with
      | .str msgId =>
          if !isValidMessageId (.str msgId) then
            { scan with errors := scan.errors ++
                [outboundLabel index ++ lit ".msg_id must be " ++ messageIdRequirementLabel] }
          else if MSG_ID_MAX_LENGTH < msgId.length then
            { scan with errors := scan.errors ++
                [outboundLabel index ++ lit ".msg_id must be at most " ++
                  natText MSG_ID_MAX_LENGTH ++ lit " characters"] }
          else if Dict.get fields "artifact_kind" = .str "welcome" then
            { scan with welcomeIds := scan.welcomeIds ++ [.str msgId] }
          else if scan.outboundMsgId = [] then { scan with outboundMsgId := msgId }
          else scan
      | _ =>
          { scan with errors := scan.errors ++
              [outboundLabel index ++ lit ".msg_id must be " ++ messageIdRequirementLabel] }
  | _ => { scan with errors := scan.errors ++ [outboundLabel index ++ lit " must be an object"] }

/-- The whole loop, from an index on. -/
def scanOutbound (index : Nat) (messages : List Json) (scan : OutboundScan) : OutboundScan :=
  match messages with
  | [] => scan
  | message :: rest => scanOutbound (index + 1) rest (scan.next index message)

/-- `copy_outbound_messages`. -/
def copyOutboundMessages (kind : Dict) (state : Normalization) : Normalization :=
  match kind.get "outbound_messages" with
  | .null => state
  | .list messages =>
      let scan := scanOutbound 0 messages ⟨[], [], []⟩
      let reported := { state with errors := state.errors ++ scan.errors }
      let named :=
        if scan.outboundMsgId ≠ [] ∧ !(reported.normalized.get "outbound_msg_id").truthy then
          reported.put "outbound_msg_id" (.str scan.outboundMsgId)
        else reported
      if scan.welcomeIds ≠ [] then named.put "outbound_welcome_msg_ids" (.list scan.welcomeIds)
      else named
  | _ => state.fail "outbound_messages must be a list when present"

/-- The `outbound_welcome_msg_ids` block of `send_outcome`. -/
def copyOutboundWelcomeMsgIds (kind : Dict) (state : Normalization) : Normalization :=
  if kind.hasKey "outbound_welcome_msg_ids" then
    let welcomeIds := kind.get "outbound_welcome_msg_ids"
    if CopyType.messageIdList.accepts welcomeIds then state.put "outbound_welcome_msg_ids" welcomeIds
    else
      state.fail (lit "outbound_welcome_msg_ids must be a list of " ++ messageIdRequirementLabel)
  else state

/-- The `relay_url` block of `copy_publish_fields`. -/
def copyRelayUrl (kind : Dict) (state : Normalization) : Normalization :=
  match kind.get "relay_url" with
  | .null => state
  | .str relayUrl =>
      if kind.hasKey "relay_urls" then state else state.put "relay_urls" (.list [.str relayUrl])
  | _ => state.fail "relay_url must be a string when present"

/-- The membership test that follows the copy of `winner`. -/
def checkWinner (_kind : Dict) (state : Normalization) : Normalization :=
  if [Json.str "candidate", .str "incumbent", .str "missing_snapshot"].contains
      (state.normalized.get "winner") then state
  else state.fail "winner must be candidate, incumbent, or missing_snapshot"

/-- The membership test that follows the copy of a peeler outcome. -/
def checkPeelerOutcome (_kind : Dict) (state : Normalization) : Normalization :=
  if (V4_PEELER_OUTCOMES.map Json.str).contains (state.normalized.get "outcome") then state
  else state.fail "outcome must be a known peeler outcome"

/-- `candidate.get("eligible") is True` for a dict. -/
def isEligible : Json → Bool
  | .dict fields => Dict.get fields "eligible" == .bool true
  | _ => false

/-- The candidate counts of a decision. -/
def copyCandidates (kind : Dict) (state : Normalization) : Normalization :=
  match kind.get "candidates" with
  | .list candidates =>
      (state.put "candidate_count" (.int candidates.length)).put "eligible_count"
        (.int (candidates.countP isEligible))
  | _ => runRules [copyInt "candidate_count", copyInt "eligible_count"] kind state

/-- The `failed_relays` block of `publish_outcome`. -/
def copyFailedRelays : CopyRule :=
  ⟨"failed_relays", "failed_relays", .list, none,
    some (lit "failed_relays must be a list when present")⟩

/-- The `met_required_acks` block of `publish_outcome`. -/
def copyMetRequiredAcks : CopyRule :=
  ⟨"met_required_acks", "met_required_acks", .bool, none,
    some (lit "met_required_acks must be a boolean when present")⟩

/-- The `fallback_snapshot_used` block of `peeler_outcome`. -/
def copyFallbackSnapshotUsed : CopyRule :=
  let error := lit "fallback_snapshot_used must be a boolean"
  ⟨"fallback_snapshot_used", "fallback_snapshot_used", .bool, some error, some error⟩

/-- The digest and length of a group state value. -/
def groupStateValueRules : List CopyRule :=
  [ ⟨"digest", "payload_digest", .digest, none,
      some (lit "value.digest must be 64 hex characters when present")⟩,
    copyOptionalInt "len" "payload_len" ]

/-! ### The table of `normalize_kind` -/

/-- One statement of a branch of `normalize_kind`. -/
inductive Copy where
  | field (rule : CopyRule)
  | within (key : Str) (rules : List CopyRule)
  | relayUrl
  | outboundMessages
  | outboundWelcomeMsgIds
  | winner
  | peelerOutcome
  | candidates
deriving Repr, DecidableEq

instance : Coe CopyRule Copy := ⟨Copy.field⟩

/-- Run one statement on the event kind. -/
def Copy.run (kind : Dict) (state : Normalization) : Copy → Normalization
  | .field rule => rule.run kind state
  | .within key rules =>
      match kind.get key with
      | .dict nested => runRules rules nested state
      | _ => state
  | .relayUrl => copyRelayUrl kind state
  | .outboundMessages => copyOutboundMessages kind state
  | .outboundWelcomeMsgIds => copyOutboundWelcomeMsgIds kind state
  | .winner => checkWinner kind state
  | .peelerOutcome => checkPeelerOutcome kind state
  | .candidates => copyCandidates kind state

/-- `copy_publish_fields`. -/
def copyPublishFields : List Copy :=
  [copyOptionalMsgId "msg_id", copyOptionalStr "target_kind", copyOptionalInt "required_acks",
   .relayUrl]

/-- One branch of the match. -/
def branch (eventType : Str) (copies : List Copy) : Str × List Copy := (eventType, copies)

/-- The branches of `normalize_kind`, a list of statements each.  A type without a branch copies
nothing. -/
def kindBranches : List (Str × List Copy) :=
  [ branch "recorder_started" [copyOptionalStr "recorder" "detail"],
    branch "audit_data_mode_changed" [copyOptionalStr "new_mode" "outcome", copyOptionalStr "reason"],
    branch "source_context" [copyDict "source" "context_source"],
    branch "engine_context" [copyDict "context" "context_engine"],
    branch "group_context" [copyDict "context" "context_group", copyOptionalStr "reason"],
    branch "transport_received"
      [copyOptionalMsgId "msg_id", copyOptionalInt "payload_len",
       copyOptionalDigest "payload_digest"],
    branch "ingest_entry"
      [copyMsgId, copyStr "envelope_kind", copyInt "payload_len", copyDigest "payload_digest"],
    branch "ingest_outcome"
      [copyMsgId, copyStr "outcome_kind", copyOptionalStr "stale_reason",
       copyOptionalInt "epoch"],
    branch "ingest_error" [copyMsgId, copyStr "error_kind" "outcome_kind", copyOptionalStr "detail"],
    branch "message_content_decoded" [copyMsgId, copyOptionalStr "artifact_kind" "target_kind"],
    branch "recipient_expectation"
      [copyMsgId, .within "expectation" [copyOptionalStr "artifact_kind" "target_kind"]],
    branch "send_entry" [copyStr "intent_kind"],
    branch "send_outcome"
      [copyStr "intent_kind", copyStr "result_kind", copyOptionalMsgId "outbound_msg_id",
       .outboundMessages, .outboundWelcomeMsgIds],
    branch "send_error"
      [copyStr "intent_kind", copyStr "error_kind" "outcome_kind", copyOptionalStr "detail"],
    branch "create_group_entry" [copyOptionalInt "member_count" "human_action_target_count"],
    branch "create_group_outcome" [copyStr "result_kind", .outboundMessages],
    branch "create_group_error" [copyStr "error_kind" "outcome_kind", copyOptionalStr "detail"],
    branch "human_action" (copyHumanActionFields.map Copy.field),
    branch "publish_attempt" (copyPublishFields ++ [.field (copyOptionalStrList "relay_urls")]),
    branch "publish_outcome"
      (copyPublishFields ++
        [copyOptionalStrList "accepted_relay_urls", copyFailedRelays, copyMetRequiredAcks].map
          Copy.field),
    branch "publish_failure"
      (copyPublishFields ++
        [copyOptionalStr "stage" "outcome_kind", copyOptionalStr "reason",
         copyOptionalStr "detail", copyOptionalStrList "relay_urls"].map Copy.field),
    branch "epoch_state_changed"
      [copyOptionalStr "previous_state" "outcome", copyStr "new_state", copyInt "epoch",
       copyStr "reason", copyOptionalInt "pending_ref" "pending_epoch",
       copyOptionalStr "pending_kind"],
    branch "group_state_changed"
      [copyInt "epoch", copyStr "change_kind" "outcome_kind",
       copyOptionalMsgId "origin_commit_id" "outbound_msg_id",
       .within "value" groupStateValueRules],
    branch "epoch_confirmed"
      [copyInt "from_epoch", copyInt "to_epoch", copyStr "pending_kind",
       copyOptionalMsgId "origin_commit_id" "outbound_msg_id"],
    branch "epoch_rolled_back"
      [copyInt "pending_epoch", copyInt "restored_epoch", copyStr "pending_kind"],
    branch "snapshot_created" [copyStr "snapshot_name", copyInt "source_epoch", copyStr "reason"],
    branch "fork_resolution"
      [copyInt "source_epoch", copyDigest "candidate_digest",
       copyOptionalDigest "incumbent_digest", copyStr "winner", .winner,
       copyOptionalMsgId "invalidated_msg_id"],
    branch "convergence_run_state"
      [copyStr "phase" "outcome", copyOptionalInt "current_tip_epoch", copyOptionalStr "reason",
       copyOptionalStr "error_kind" "outcome_kind"],
    branch "convergence_decision"
      [copyInt "current_tip_epoch", copyInt "max_rewind_commits",
       copyOptionalStr "selected_branch_id", copyOptionalInt "selected_fork_epoch",
       copyOptionalInt "selected_tip_epoch", .candidates],
    branch "peeler_outcome"
      [copyMsgId, copyStr "outcome", .peelerOutcome,
       copyFallbackSnapshotUsed,
       copyOptionalStr "detail"],
    branch "auto_commit_decision"
      [copyStr "proposal_kind", copyStr "decision", copyOptionalStr "reason"],
    branch "message_state_changed" [copyMsgId, copyStr "new_state", copyStr "reason"],
    branch "rejection" [copyMsgId, copyStr "reason"] ]

/-- The statements of the branch for a type. -/
def kindCopies (eventType : Str) : List Copy := (kindBranches.lookup eventType).getD []

/-- `normalize_kind`. -/
def normalizeKind (eventType : Str) (kind : Dict) (state : Normalization) : Normalization :=
  (kindCopies eventType).foldl (fun state copy => copy.run kind state) state

/-! ### Context -/

/-- The five context objects copied as they are. -/
def contextObjectRules : List CopyRule :=
  let rule (field dest error : Str) : CopyRule := ⟨field, dest, .dict, none, some error⟩
  [ rule "transport" "context_transport" "context.transport must be an object when present",
    rule "engine" "context_engine" "context.engine must be an object when present",
    rule "group" "context_group" "context.group must be an object when present",
    rule "convergence" "context_convergence"
      "context.convergence must be an object when present",
    rule "source" "context_source" "context.source must be an object when present" ]

/-- The human action block of `normalize_context`. -/
def normalizeHumanAction (context : Dict) (state : Normalization) : Normalization :=
  match context.get "human_action" with
  | .null => state
  | .dict humanAction =>
      runRules copyHumanActionFields humanAction
        (state.put "context_human_action" (.dict humanAction))
  | _ => state.fail "context.human_action must be an object when present"

/-- `normalize_context`. -/
def normalizeContext (context : Json) (state : Normalization) : Normalization :=
  match context with
  | .null => state
  | .dict fields =>
      let named := state.put "raw_context" (.dict fields)
      let operated := (copyContextStr "operation_id" "context_operation_id").run fields named
      runRules contextObjectRules fields (normalizeHumanAction fields operated)
  | _ => state.fail "context must be an object when present"

/-! ### Events -/

/-- `group_ref_max_length()`. -/
def groupRefMaxLength : Nat := 512

/-- `bounded_str_or_empty`. -/
def boundedStrOrEmpty (value : Json) (field : Str) : Str × List Str :=
  match value with
  | .str text =>
      match stringExceedsModelLimit field text with
      | some error => ([], [error])
      | none => (text, [])
  | _ => ([], [])

/-- The JSON form of an optional integer. -/
def intOrNull : Option Nat → Json
  | some value => .int value
  | none => .null

@[simp] theorem valueIfInt_intOrNull (value : Option Nat) :
    valueIfInt (intOrNull value) = value := by
  cases value with
  | none => rfl
  | some number => exact valueIfInt_natCast number

/-- The bounds on `seq`. -/
def checkSeq (seq : Option Nat) (state : Normalization) : Normalization :=
  match seq with
  | none => state.fail "seq must be a non-negative integer"
  | some value =>
      match intExceedsModelLimit "seq" "seq" value with
      | some error => (state.fail error).put "seq" .null
      | none => state

/-- The bounds on `wall_time_ms`. -/
def checkWallTime (wallTimeMs : Option Nat) (state : Normalization) : Normalization :=
  match wallTimeMs with
  | none => state.fail "wall_time_ms must be a non-negative integer"
  | some value =>
      match intExceedsModelLimit "wall_time_ms" "wall_time_ms" value with
      | some error => (state.fail error).put "wall_time_ms" .null
      | none =>
          if MAX_WALL_TIME_MS < value then
            (state.fail (lit "wall_time_ms must be a non-negative " ++
              lit "integer within range (at most " ++ natText MAX_WALL_TIME_MS ++ lit ")")).put
              "wall_time_ms" .null
          else state

/-- The bound on `engine_id`. -/
def checkEngineId (engineId : Str) (state : Normalization) : Normalization :=
  match stringExceedsModelLimit "engine_id" engineId with
  | some error => (state.fail error).put "engine_id" (.str [])
  | none => state

/-- The bound on `group_ref`. -/
def checkGroupRef (groupRef : Str) (state : Normalization) : Normalization :=
  if groupRef ≠ [] ∧ groupRefMaxLength < groupRef.length then
    (state.fail "group_ref exceeds storage limit").put "group_ref" (.str [])
  else state

/-- The first part of `normalize_event`: the fields every event has. -/
def normalizeEnvelope (data : Dict) : Normalization :=
  let (schemaVersion, versionErrors) :=
    boundedStrOrEmpty (data.get "schema_version") "schema_version"
  let (recorderSessionId, sessionErrors) :=
    boundedStrOrEmpty (data.get "recorder_session_id") "recorder_session_id"
  let seq := valueIfInt (data.get "seq")
  let wallTimeMs := valueIfInt (data.get "wall_time_ms")
  let engineId := valueIfStr (data.get "engine_id")
  let groupRef := valueIfStr (data.get "group_ref")
  let initial : Normalization :=
    { normalized :=
        [("schema_version", .str schemaVersion),
         ("recorder_session_id", .str recorderSessionId),
         ("audit_data_mode", .str SAFE_ONLY_AUDIT_DATA_MODE),
         ("seq", intOrNull seq),
         ("wall_time_ms", intOrNull wallTimeMs),
         ("account_ref", .str (valueIfStr (data.get "account_ref"))),
         ("engine_id", .str engineId),
         ("group_ref", .str groupRef)],
      errors := versionErrors ++ sessionErrors }
  checkGroupRef groupRef
    (checkEngineId engineId (checkWallTime wallTimeMs (checkSeq seq initial)))

/-- `normalize_event`. -/
def normalizeEvent (data : Dict) : Normalization :=
  match schemaErrorCode data with
  | some code => ⟨[], [code]⟩
  | none =>
      let state := normalizeContext (data.get "context") (normalizeEnvelope data)
      match data.get "kind" with
      | .dict kind =>
          let eventType := valueIfStr (Dict.get kind "type")
          let kept := state.put "raw_kind" (.dict kind)
          if eventType = [] then kept.fail "kind.type must be a non-empty string"
          else
            match stringExceedsModelLimit "event_type" eventType with
            | some error => kept.fail error
            | none => normalizeKind eventType kind (kept.put "event_type" (.str eventType))
      | _ => state.fail "kind must be an object"

end Goggles
