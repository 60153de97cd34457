/-
Module: Goggles.Investigation.Evidence
Purpose: The evidence an investigation adds up: records by the digest of their body, what a group
  selects of them, and the summary of the selection.
Trusted boundary: forensics/investigation_reader.py, `parse_body`, `session`, `identity`,
  `Evidence`.  The memo `_reconstruction`, which every `add` drops, is left out; SHA-256 is a
  parameter
Main exports: IncompleteEvidence, parseBody, Evidence, Evidence.add, Evidence.selected,
  Evidence.Holds, Evidence.reconstruct, Evidence.summary
-/
import Goggles.Analysis.MessageViews

namespace Goggles

def MAX_LINE_BYTES : Nat := 2 * 1024 * 1024

def MAX_SOURCE_BYTES : Nat := 64 * 1024 * 1024

def MAX_SOURCE_FILES : Nat := 256

def MAX_EVIDENCE_BYTES : Nat := 64 * 1024 * 1024

def MAX_RECORDS : Nat := MAX_SOURCE_BYTES / 256

/-- The exception of the reader, with its fixed reason. -/
structure IncompleteEvidence where
  reason : Str
deriving Repr, DecidableEq

/-! ### Records -/

/-- `parse_body`. -/
def parseBody (body : List UInt8) : Except IncompleteEvidence Dict :=
  if MAX_LINE_BYTES < body.length then .error ⟨"invalid_v4_body"⟩
  else
    match (decodeUtf8 body).bind loadsAuditJson with
    | some (.dict event) =>
        match schemaErrorCode event with
        | none => .ok event
        | some _ => .error ⟨"invalid_v4_body"⟩
    | _ => .error ⟨"invalid_v4_body"⟩

/-- An engine, an account and a recorder session. -/
structure Session where
  engineId : Str
  accountRef : Str
  recorderSessionId : Str
deriving Repr, DecidableEq

/-- `all(item)`. -/
def Session.complete (item : Session) : Bool :=
  item.engineId ≠ [] && item.accountRef ≠ [] && item.recorderSessionId ≠ []

/-- `session`. -/
def session (event : Dict) : Session where
  engineId := valueIfStr (event.get "engine_id")
  accountRef := valueIfStr (event.get "account_ref")
  recorderSessionId := valueIfStr (event.get "recorder_session_id")

/-- The number an integral JSON number stands for; `1` and `1.0` are one dict key. -/
def Json.integralValue : Json → Int
  | .int value => value
  | .float (.finite mantissa exponent) =>
      if 0 ≤ exponent then mantissa * (2 ^ exponent.natAbs : Nat)
      else mantissa / (2 ^ exponent.natAbs : Nat)
  | _ => 0

/-- `identity`. -/
def identity (event : Dict) : Session × Int := (session event, (event.get "seq").integralValue)

/-- `event.get("group_ref") == group`. -/
def inGroup (group : Str) (event : Dict) : Bool := event.get "group_ref" = .str group

/-! ### Evidence -/

/-- An entry of `records` and the one of `events` under the same digest, written together. -/
structure Record where
  body : List UInt8
  event : Dict
deriving Repr, DecidableEq

structure Evidence where
  records : Keyed Str Record
  occurrences : Keyed Str Nat
  bodyBytes : Nat
deriving DecidableEq

namespace Evidence

def empty : Evidence := ⟨Keyed.empty, Keyed.empty, 0⟩

/-- `occurrences[digest]` of a `Counter`. -/
def occurrence (evidence : Evidence) (digest : Str) : Nat :=
  (evidence.occurrences.find digest).getD 0

/-- `Evidence.add` of a body with its parsed event. -/
def add (env : Env) (evidence : Evidence) (body : List UInt8) (event : Dict) :
    Except IncompleteEvidence Evidence :=
  let digest := env.sha256 body
  let occurrences := evidence.occurrences.upsert digest fun found => found.getD 0 + 1
  if (evidence.records.find digest).isSome then .ok { evidence with occurrences := occurrences }
  else if MAX_RECORDS ≤ evidence.records.entries.length ∨
      MAX_EVIDENCE_BYTES < evidence.bodyBytes + body.length then
    .error ⟨"evidence_budget_exceeded"⟩
  else
    .ok
      { records := evidence.records.upsert digest fun _ => ⟨body, event⟩
        occurrences := occurrences
        bodyBytes := evidence.bodyBytes + body.length }

/-- `Evidence.add` of a body alone. -/
def addBody (env : Env) (evidence : Evidence) (body : List UInt8) :
    Except IncompleteEvidence Evidence := do
  let event ← parseBody body
  evidence.add env body event

/-- The sessions of the records of a group. -/
def groupSessions (evidence : Evidence) (group : Str) : List Session :=
  ((evidence.records.entries.filter fun entry => inGroup group entry.2.event).map fun entry =>
    session entry.2.event).dedup

/-- A record that `selected` keeps. -/
def selects (evidence : Evidence) (group : Str) (event : Dict) : Bool :=
  inGroup group event ||
    !(event.get "group_ref").truthy &&
      (session event).complete && (evidence.groupSessions group).contains (session event)

/-- `Evidence.selected`, without `context_incomplete`. -/
def selected (evidence : Evidence) (group : Str) : Keyed Str Record :=
  evidence.records.filterRows fun _ record => evidence.selects group record.event

/-- `context_incomplete`. -/
def contextIncomplete (evidence : Evidence) (group : Str) : Bool :=
  (evidence.groupSessions group).any fun item => !item.complete

/-! ### What evidence holds -/

/-- Bodies added one after the other. -/
def addBodies (env : Env) (bodies : List (List UInt8)) (evidence : Evidence) :
    Except IncompleteEvidence Evidence :=
  bodies.foldlM (addBody env) evidence

/-- The evidence of some bodies: how often each was added, and one record for each digest. -/
structure Holds (env : Env) (bodies : List (List UInt8)) (evidence : Evidence) : Prop where
  occurrences : ∀ digest,
    evidence.occurrence digest = bodies.countP fun body => env.sha256 body = digest
  sound : ∀ digest record, evidence.records.find digest = some record →
    record.body ∈ bodies ∧ env.sha256 record.body = digest ∧
      parseBody record.body = .ok record.event
  covered : ∀ body ∈ bodies, (evidence.records.find (env.sha256 body)).isSome

theorem holds_empty (env : Env) : Holds env [] empty where
  occurrences _ := rfl
  sound _ _ found := by cases found
  covered _ member := by cases member

theorem addBody_eq_ok_iff {env : Env} {evidence next : Evidence} {body : List UInt8} :
    evidence.addBody env body = .ok next ↔
      ∃ event, parseBody body = .ok event ∧ evidence.add env body event = .ok next := by
  unfold addBody
  cases parsed : parseBody body with
  | error incomplete => simp [bind, Except.bind]
  | ok event => simp [bind, Except.bind]

/-- What `add` leaves. -/
theorem add_spec {env : Env} {evidence next : Evidence} {body : List UInt8} {event : Dict}
    (added : evidence.add env body event = .ok next) :
    (∀ digest, next.occurrence digest =
      evidence.occurrence digest + if env.sha256 body = digest then 1 else 0) ∧
    ∀ digest, next.records.find digest = (evidence.records.find digest).or
      (if env.sha256 body = digest then some ⟨body, event⟩ else none) := by
  simp only [add] at added
  have counted : ∀ digest, ((evidence.occurrences.upsert (env.sha256 body) fun found =>
        found.getD 0 + 1).find digest).getD 0 =
      evidence.occurrence digest + if env.sha256 body = digest then 1 else 0 := by
    intro digest
    rw [Keyed.find_upsert]
    by_cases mine : digest = env.sha256 body
    · simp [mine, occurrence]
    · simp [mine, Ne.symm mine, occurrence]
  split at added
  · next known =>
      cases added
      refine ⟨counted, fun digest => ?_⟩
      by_cases mine : env.sha256 body = digest
      · obtain ⟨record, found⟩ := Option.isSome_iff_exists.mp known
        rw [mine] at found
        simp [found]
      · simp [mine]
  · next fresh =>
      split at added
      · cases added
      · cases added
        refine ⟨counted, fun digest => ?_⟩
        rw [Keyed.find_upsert]
        by_cases mine : digest = env.sha256 body
        · rw [Option.not_isSome_iff_eq_none] at fresh
          simp [mine, fresh]
        · simp [mine, Ne.symm mine]

/-- One more body. -/
theorem Holds.addBody {env : Env} {bodies : List (List UInt8)} {evidence next : Evidence}
    (holds : Holds env bodies evidence) {body : List UInt8}
    (added : evidence.addBody env body = .ok next) : Holds env (bodies ++ [body]) next := by
  obtain ⟨event, parsed, added⟩ := addBody_eq_ok_iff.mp added
  obtain ⟨counted, recorded⟩ := add_spec added
  constructor
  · intro digest
    rw [counted, holds.occurrences, List.countP_append, List.countP_singleton]
    simp
  · intro digest record found
    rw [recorded, Option.or_eq_some_iff] at found
    rcases found with old | ⟨-, new⟩
    · obtain ⟨member, same, parsedOld⟩ := holds.sound digest record old
      exact ⟨List.mem_append_left _ member, same, parsedOld⟩
    · split at new
      · next mine =>
          cases new
          exact ⟨by simp, mine, parsed⟩
      · cases new
  · intro other member
    rw [recorded]
    rcases List.mem_append.mp member with old | new
    · simp [holds.covered other old]
    · rw [List.mem_singleton.mp new]
      simp

/-- All bodies. -/
theorem Holds.addBodies {env : Env} {bodies more : List (List UInt8)} {evidence next : Evidence}
    (holds : Holds env bodies evidence) (added : addBodies env more evidence = .ok next) :
    Holds env (bodies ++ more) next := by
  induction more generalizing bodies evidence with
  | nil =>
      cases added
      simpa using holds
  | cons body rest inductionHypothesis =>
      rw [Evidence.addBodies, List.foldlM_cons] at added
      cases first : evidence.addBody env body with
      | error incomplete =>
          rw [first] at added
          cases added
      | ok middle =>
          rw [first] at added
          have later := inductionHypothesis (holds.addBody first) added
          rwa [List.append_assoc, List.singleton_append] at later

theorem addBodies_append {env : Env} {first second : List (List UInt8)}
    {before middle after : Evidence} (added : addBodies env first before = .ok middle)
    (rest : addBodies env second middle = .ok after) :
    addBodies env (first ++ second) before = .ok after := by
  unfold addBodies at added rest ⊢
  rw [List.foldlM_append, added]
  exact rest

/-- What some bodies add to evidence that is there. -/
theorem addBodies_spec {env : Env} {bodies : List (List UInt8)} {before after : Evidence}
    (added : addBodies env bodies before = .ok after) :
    (∀ digest, after.occurrence digest =
      before.occurrence digest + bodies.countP fun body => env.sha256 body = digest) ∧
    (∀ digest, (before.records.find digest).isSome → (after.records.find digest).isSome) ∧
    ∀ body ∈ bodies, (after.records.find (env.sha256 body)).isSome := by
  induction bodies generalizing before with
  | nil =>
      cases added
      exact ⟨fun _ => rfl, fun _ known => known, fun _ member => nomatch member⟩
  | cons body rest inductionHypothesis =>
      rw [addBodies, List.foldlM_cons] at added
      cases first : before.addBody env body with
      | error incomplete =>
          rw [first] at added
          cases added
      | ok middle =>
          rw [first] at added
          obtain ⟨event, -, addedOne⟩ := addBody_eq_ok_iff.mp first
          obtain ⟨counted, recorded⟩ := add_spec addedOne
          obtain ⟨counts, kept, covered⟩ := inductionHypothesis added
          have known : ∀ digest, (before.records.find digest).isSome →
              (middle.records.find digest).isSome := fun digest found => by
            simp [recorded, found]
          refine ⟨fun digest => ?_, fun digest found => kept digest (known digest found), ?_⟩
          · rw [counts, counted, List.countP_cons]
            simp only [decide_eq_true_eq]
            omega
          · intro other member
            rcases List.mem_cons.mp member with rfl | later
            · apply kept
              simp [recorded]
            · exact covered other later

/-! ### Reconstruction -/

/-- `AuditEvent(**normalized)`. -/
def auditEventOf (normalized : Dict) : AuditEvent where
  id := 0
  groupId := none
  auditFileId := 0
  lineNumber := 0
  lineHash := []
  rawLine := []
  rawEvent := .null
  rawKind := normalized.get "raw_kind"
  rawContext := normalized.get "raw_context"
  parseStatus := .valid
  validationError := []
  schemaVersion := valueIfStr (normalized.get "schema_version")
  recorderSessionId := valueIfStr (normalized.get "recorder_session_id")
  auditDataMode := valueIfStr (normalized.get "audit_data_mode")
  seq := valueIfInt (normalized.get "seq")
  wallTimeMs := valueIfInt (normalized.get "wall_time_ms")
  accountRef := valueIfStr (normalized.get "account_ref")
  engineId := valueIfStr (normalized.get "engine_id")
  groupRef := valueIfStr (normalized.get "group_ref")
  eventType := valueIfStr (normalized.get "event_type")
  normalized := normalized.filter fun entry => persistedNormalizedFields.contains entry.1

/-- What `reconstruct` returns beside the selection. -/
structure Reconstruction where
  modelRefs : List (Str × AuditEvent)
  traces : List MessageTrace
  kinds : Keyed Str Nat

/-- The selected records of the group itself, by digest. -/
def groupRecords (evidence : Evidence) (group : Str) : List (Str × Record) :=
  (inOrder Prod.fst (evidence.selected group).entries).filter fun entry =>
    inGroup group entry.2.event

/-- `event["kind"]["type"]`. -/
def kindType (event : Dict) : Str := valueIfStr ((event.get "kind").dictOrEmpty.get "type")

/-- `Evidence.reconstruct`. -/
def reconstruct (evidence : Evidence) (group : Str) : Except IncompleteEvidence Reconstruction :=
  let records := evidence.groupRecords group
  if records.any fun entry => (normalizeEvent entry.2.event).errors ≠ [] then
    .error ⟨"normalization_rejected"⟩
  else
    let modelRefs := records.map fun entry =>
      (entry.1, auditEventOf (normalizeEvent entry.2.event).normalized)
    let models := modelRefs.map Prod.snd
    .ok
      { modelRefs := modelRefs
        traces := messageTracesFromEvents models (models.map (·.engineId)).dedup
        kinds := Keyed.gather (fun found _ => found.getD 0 + 1)
          (records.map fun entry => (kindType entry.2.event, ())) }

/-! ### Summary -/

/-- Where the evidence was read from. -/
inductive Source where
  | jsonl
  | loki
deriving Repr, DecidableEq

/-- The fields of the summary that both readers fill. -/
structure Summary where
  source : Source
  scope : Str
  selectedDistinctBodies : Nat
  groupRecords : Nat
  supportingGrouplessContext : Nat
  duplicateOccurrences : Nat
  conflictingIdentities : Nat
  kindCounts : List (Str × Nat)
  messageTraceCount : Nat
  sourceEventTimeBoundsMs : Option (Json × Json)
  contextIncomplete : Bool
  receiptCutoffOmitted : Option Bool
  boundedRetrievalCompleted : Bool
  completeForRequestedScope : Bool
  limits : List Str
deriving Repr, DecidableEq

/-- `min` of JSON numbers, the first of equals. -/
def leastNumber : List Json → Option Json
  | [] => none
  | first :: rest => some (rest.foldl (fun least value =>
      if value.integralValue < least.integralValue then value else least) first)

/-- `max` of JSON numbers, the first of equals. -/
def greatestNumber : List Json → Option Json
  | [] => none
  | first :: rest => some (rest.foldl (fun greatest value =>
      if greatest.integralValue < value.integralValue then value else greatest) first)

/-- `identities`: the selected digests of each identity. -/
def identities (evidence : Evidence) (group : Str) : Keyed (Session × Int) (List Str) :=
  Keyed.gather Keyed.addItem
    ((evidence.selected group).entries.map fun entry => (identity entry.2.event, entry.1))

/-- `Evidence.summary`. -/
def summary (evidence : Evidence) (group : Str) (source : Source) (receiptCutoffOmitted : Bool) :
    Except IncompleteEvidence Summary := do
  let reconstruction ← evidence.reconstruct group
  let selected := evidence.selected group
  let sourceTimes := selected.entries.map fun entry => entry.2.event.get "wall_time_ms"
  let contextIncomplete := evidence.contextIncomplete group
  return {
    source := source
    scope := if source = .jsonl then "provided_files_only" else "queried_receipt_window"
    selectedDistinctBodies := selected.entries.length
    groupRecords := reconstruction.modelRefs.length
    supportingGrouplessContext := selected.entries.length - reconstruction.modelRefs.length
    duplicateOccurrences :=
      (selected.entries.map fun entry => evidence.occurrence entry.1 - 1).sum
    conflictingIdentities :=
      (evidence.identities group).entries.countP fun entry => 1 < entry.2.length
    kindCounts := inOrder Prod.fst reconstruction.kinds.entries
    messageTraceCount := reconstruction.traces.length
    sourceEventTimeBoundsMs :=
      match leastNumber sourceTimes, greatestNumber sourceTimes with
      | some least, some greatest => some (least, greatest)
      | _, _ => none
    contextIncomplete := contextIncomplete
    receiptCutoffOmitted := if source = .loki then some receiptCutoffOmitted else none
    boundedRetrievalCompleted := true
    completeForRequestedScope := source = .jsonl && !contextIncomplete
    limits :=
      if source = .jsonl then ["No receipt coverage can be inferred from JSONL files."]
      else ["No atomic Loki snapshot or late-arrival watermark is established."] }

end Evidence

end Goggles
