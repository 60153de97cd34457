/-
Module: Goggles.Store.Tables
Purpose: The rows of the evidence store and of the projections built from it, and the queries the
  projections share.
Trusted boundary: forensics/models.py.  Unique constraints are carried by `Keyed`; a foreign key is
  the key of the row it points to; `evidence_events` is the set of event ids.  The structural
  quarantine filter reads `AuditFile.validation_error`, which no write path sets, and is left out
Main exports: AuditGroup, AuditFile, AuditEvent, GroupProjections, Store, eventOrderKey,
  validGroupEvents
-/
import Goggles.Ingest.Validate
import Goggles.Library.Keyed
import Goggles.Library.Replay
import Mathlib.Data.Finset.Basic
import Mathlib.Data.Prod.Lex

namespace Goggles

/-! ### Evidence -/

structure AuditGroup where
  id : Nat
  name : Str
  slug : Str
  groupRef : Str
  divergentMessageCount : Nat
deriving Repr, DecidableEq

/-- What `file_metadata` computes for an upload. -/
structure FileMetadata where
  totalLineCount : Nat
  validEventCount : Nat
  invalidEventCount : Nat
  firstLineNumber : Option Nat
  lastLineNumber : Option Nat
  firstSeq : Option Nat
  lastSeq : Option Nat
  firstWallTimeMs : Option Nat
  lastWallTimeMs : Option Nat
  accountRefs : List Str
  engineIds : List Str
  groupRefs : List Str
  schemaVersions : List Str
  auditDataModes : List Str
deriving Repr, DecidableEq

/-- What `body_source_metadata` reads from the validated source contexts. -/
structure SourceMetadata where
  deviceId : Str
  hardwareModel : Str
  platform : Str
  appVersion : Str
  uploadTrigger : Str
  localMemberRef : Str
deriving Repr, DecidableEq

/-- An accepted upload.  `groups` is the many-to-many relation, each group id once. -/
structure AuditFile where
  id : Nat
  fileSha256 : Str
  byteSize : Nat
  rawText : Str
  duplicateEventCount : Nat
  metadata : FileMetadata
  source : SourceMetadata
  createdAt : Nat
  groups : List Nat
deriving Repr, DecidableEq

inductive ParseStatus where
  | valid
  | invalid
deriving Repr, DecidableEq

/-- One stored line.  `normalized` holds the columns of `normalized_fields()` that were copied; a
column without an entry has its default. -/
structure AuditEvent where
  id : Nat
  groupId : Option Nat
  auditFileId : Nat
  lineNumber : Nat
  lineHash : Str
  rawLine : Str
  rawEvent : Json
  rawKind : Json
  rawContext : Json
  parseStatus : ParseStatus
  validationError : Str
  schemaVersion : Str
  recorderSessionId : Str
  auditDataMode : Str
  seq : Option Nat
  wallTimeMs : Option Nat
  accountRef : Str
  engineId : Str
  groupRef : Str
  eventType : Str
  normalized : Dict
deriving Repr, DecidableEq

namespace AuditEvent

/-- A text column, blank by default. -/
def text (event : AuditEvent) (column : Str) : Str := valueIfStr (event.normalized.get column)

/-- A nullable integer column. -/
def number (event : AuditEvent) (column : Str) : Option Nat :=
  valueIfInt (event.normalized.get column)

/-- A nullable Boolean column. -/
def flag (event : AuditEvent) (column : Str) : Option Bool :=
  match event.normalized.get column with
  | .bool value => some value
  | _ => none

/-- A JSON column that defaults to an empty object, as the dict its readers take it for. -/
def object (event : AuditEvent) (column : Str) : Dict := (event.normalized.get column).dictOrEmpty

/-- A JSON column that defaults to an empty list. -/
def items (event : AuditEvent) (column : Str) : List Json :=
  (event.normalized.get column).listOrEmpty

/-- `event.raw_kind if isinstance(event.raw_kind, dict) else {}`. -/
def kind (event : AuditEvent) : Dict := event.rawKind.dictOrEmpty

def contextConvergence (event : AuditEvent) : Dict := event.object "context_convergence"

def contextTransport (event : AuditEvent) : Dict := event.object "context_transport"

def msgId (event : AuditEvent) : Str := event.text "msg_id"

def outboundMsgId (event : AuditEvent) : Str := event.text "outbound_msg_id"

def invalidatedMsgId (event : AuditEvent) : Str := event.text "invalidated_msg_id"

def outboundWelcomeMsgIds (event : AuditEvent) : List Json :=
  event.items "outbound_welcome_msg_ids"

def humanActionMessageIds (event : AuditEvent) : List Json :=
  event.items "human_action_message_ids"

def newState (event : AuditEvent) : Str := event.text "new_state"

def outcome (event : AuditEvent) : Str := event.text "outcome"

def outcomeKind (event : AuditEvent) : Str := event.text "outcome_kind"

def resultKind (event : AuditEvent) : Str := event.text "result_kind"

def reason (event : AuditEvent) : Str := event.text "reason"

def selectedBranchId (event : AuditEvent) : Str := event.text "selected_branch_id"

def metRequiredAcks (event : AuditEvent) : Option Bool := event.flag "met_required_acks"

end AuditEvent

/-! ### Projection rows -/

structure DeliveryArtifact where
  artifactKind : Str
  firstSeenMs : Option Nat
  lastSeenMs : Option Nat
  auditDataModes : List Str
  author : Dict
  decodedPayload : Dict
  decodedAppEvent : Dict
  evidence : Finset Nat
deriving DecidableEq

/-- One entry of `DeliveryObservation.states`. -/
structure StateEntry where
  state : Str
  eventType : Str
  eventId : Nat
  wallTimeMs : Option Nat
deriving Repr, DecidableEq

structure DeliveryObservation where
  accountRef : Str
  firstSeenMs : Option Nat
  lastSeenMs : Option Nat
  states : List StateEntry
  latestState : Str
  evidence : Finset Nat
deriving DecidableEq

structure RecipientExpectation where
  artifactId : Str
  artifactKind : Str
  recipientScope : Str
  membershipEpoch : Option Nat
  basisCommitId : Str
  expectedMemberRefs : List Json
  expectedPubkeysHex : List Json
  expectedCount : Option Nat
  evidenceEvent : Nat
deriving Repr, DecidableEq

structure NetworkObservation where
  artifact : Option Str
  auditEvent : Nat
  direction : Str
  phase : Str
  messageId : Str
  artifactKind : Str
  engineId : Str
  accountRef : Str
  wallTimeMs : Option Nat
  transportSource : Str
  deliveryPlane : Str
  relayUrl : Str
  subscriptionId : Str
  wireId : Str
  wireKind : Str
  wirePubkeyHex : Str
  transportGroupId : Str
  nostrEventId : Str
  nostrKind : Option Nat
  nostrPubkeyHex : Str
  giftWrapEventId : Str
  welcomeNostrEventId : Str
  welcomeRumorEventId : Str
  welcomeKeyPackageTag : Str
  publishResultId : Str
  payloadLen : Option Nat
  payloadDigest : Str
  outcome : Str
  acceptedRelayUrls : List Json
  failedRelays : List Json
  requiredAcks : Option Nat
  metRequiredAcks : Option Bool
deriving Repr, DecidableEq

structure ConvergenceRun where
  accountRef : Str
  inferred : Bool
  phase : Str
  startedAtMs : Option Nat
  endedAtMs : Option Nat
  currentTipEpoch : Option Nat
  selectedBranchId : Str
  selectedForkEpoch : Option Nat
  selectedTipEpoch : Option Nat
  maxRewindCommits : Option Nat
  losingBranchIds : List Json
  errorKinds : List Json
  evidence : Finset Nat
deriving DecidableEq

structure ConvergenceCandidate where
  forkEpoch : Option Nat
  tipEpoch : Option Nat
  commitIds : List Json
  commitCount : Option Nat
  stateDigest : Str
  tipDigest : Str
  tipPriority : Str
  tipCommitterRef : Str
  tipCommitterPubkeyHex : Str
  retainedAnchorStatus : Str
  lastInputTimeMs : Option Nat
  eligible : Option Bool
  rejectionReasons : List Json
  score : Dict
  appWitnesses : List Json
deriving Repr, DecidableEq

/-- The unique key of a run in its group: engine and run id. -/
abbrev RunKey := Str × Str

structure ConvergenceRuleEvaluation where
  run : RunKey
  ruleName : Str
  scope : Str
  candidateBranchId : Str
  otherCandidateBranchId : Str
  inputs : Dict
  result : Json
  decisive : Bool
  selectedBranchId : Str
  rejectedBranchId : Str
  sequence : Nat
deriving Repr, DecidableEq

structure StateDelta where
  auditEvent : Nat
  epoch : Option Nat
  changeKind : Str
  membershipChangeSource : Str
  actorMemberRef : Str
  actorPubkeyHex : Str
  subjectMemberRef : Str
  subjectPubkeyHex : Str
  originCommitId : Str
  fields : List Json
  componentIds : List Json
  value : Dict
  auditDataMode : Str
  wallTimeMs : Option Nat
deriving Repr, DecidableEq

structure EpochStateTransition where
  auditEvent : Nat
  engineId : Str
  accountRef : Str
  previousState : Str
  newState : Str
  epoch : Option Nat
  reason : Str
  pendingRef : Option Nat
  pendingKind : Str
  wallTimeMs : Option Nat
deriving Repr, DecidableEq

/-- The delivery rows of one group: artifacts by artifact id, observations by artifact and engine,
expectations in creation order. -/
structure DeliveryTables where
  artifacts : Keyed Str DeliveryArtifact
  observations : Keyed (Str × Str) DeliveryObservation
  expectations : List RecipientExpectation
deriving DecidableEq

/-- The convergence rows of one group: runs by engine and run id, candidates by run and branch. -/
structure ConvergenceTables where
  runs : Keyed RunKey ConvergenceRun
  candidates : Keyed (RunKey × Str) ConvergenceCandidate
  evaluations : List ConvergenceRuleEvaluation
deriving DecidableEq

/-- Every projection row of one group. -/
structure GroupProjections where
  delivery : DeliveryTables
  network : List NetworkObservation
  convergence : ConvergenceTables
  stateDeltas : List StateDelta
  epochTransitions : List EpochStateTransition
deriving DecidableEq

def DeliveryTables.empty : DeliveryTables := ⟨.empty, .empty, []⟩

def ConvergenceTables.empty : ConvergenceTables := ⟨.empty, .empty, []⟩

/-- What `clear_group_projections` leaves. -/
def GroupProjections.empty : GroupProjections := ⟨.empty, [], .empty, [], []⟩

/-! ### The store -/

structure UploadRejection where
  reason : Str
  statusCode : Nat
  lineNumber : Option Nat
  receivedBytes : Nat
  createdAt : Nat
deriving Repr, DecidableEq

/-- The database: evidence, the projection rows of each group id, refusals, and the sequences that
number new rows. -/
structure Store where
  groups : List AuditGroup
  files : List AuditFile
  events : List AuditEvent
  projections : Nat → GroupProjections
  rejections : List UploadRejection
  nextGroupId : Nat
  nextFileId : Nat
  nextEventId : Nat

/-- The database after migrations. -/
def Store.empty : Store := ⟨[], [], [], fun _ => .empty, [], 1, 1, 1⟩

/-! ### Queries -/

/-- `convergence_order_key`: time first with NULL last, then engine and line. -/
abbrev OrderKey := Bool ×ₗ Nat ×ₗ Str ×ₗ Nat

def convergenceOrderKey (event : AuditEvent) : OrderKey :=
  toLex (event.wallTimeMs.isNone, toLex (event.wallTimeMs.getD 0,
    toLex (event.engineId, event.lineNumber)))

/-- The column order `wall_time_ms, engine_id, line_number, id`. -/
def eventOrderKey (event : AuditEvent) : OrderKey ×ₗ Nat :=
  toLex (convergenceOrderKey event, event.id)

/-- A valid event of a group. -/
def AuditEvent.countsFor (event : AuditEvent) (groupId : Nat) : Bool :=
  event.groupId == some groupId && event.parseStatus == .valid

/-- The valid events of a group. -/
def validGroupEvents (events : List AuditEvent) (groupId : Nat) : List AuditEvent :=
  events.filter (·.countsFor groupId)

theorem AuditEvent.countsFor_iff {event : AuditEvent} {groupId : Nat} :
    event.countsFor groupId = true ↔
      event.groupId = some groupId ∧ event.parseStatus = .valid := by
  simp [countsFor]

end Goggles
