/-
Module: Goggles.Ingest.Ingest
Purpose: Storing an accepted upload: its groups, the lines that are not stored yet, the projections
  and the rollups of the touched groups, as one step of the store.
Trusted boundary: forensics/ingest.py, `ingest_audit_log_bytes` and everything it calls, one upload
  at a time; a failed transaction leaves the store as it was
Main exports: Upload, GroupKey, groupsForParsedLines, createEvents, refreshGroupRollups, storeUpload,
  ingest, afterUpload
-/
import Goggles.Ingest.Metadata
import Goggles.Projection.Project
import Goggles.Analysis.Divergence

namespace Goggles

/-- One request: the body, the fallback group of the request, and the instant it is received. -/
structure Upload where
  dumpBytes : List UInt8
  fallbackGroupSlug : Option Str := none
  fallbackGroupName : Str := []
  receivedAt : Nat
deriving Repr, DecidableEq

/-! ### Groups -/

/-- `("ref", value)` or `("slug", value)`. -/
inductive GroupKey where
  | ref (value : Str)
  | slug (value : Str)
deriving Repr, DecidableEq

/-- The tuple order the keys are sorted by. -/
def GroupKey.order : GroupKey → Bool ×ₗ Str
  | .ref value => toLex (false, value)
  | .slug value => toLex (true, value)

/-- `valid_group_ref`. -/
def validGroupRef (value : Json) : Bool :=
  isHex value && decide ((valueIfStr value).length ≤ groupRefMaxLength)

/-- `declared_invalid_group_ref`. -/
def declaredInvalidGroupRef (parsed : ParsedLine) : Bool :=
  match parsed.data with
  | none => false
  | some data =>
      let declared := data.get "group_ref"
      if declared = .null then false else !validGroupRef declared

/-- `group_key_for_parsed_line`. -/
def groupKeyForParsedLine (fallbackGroupSlug : Option Str) (parsed : ParsedLine) :
    Option GroupKey :=
  let groupRef := parsed.text "group_ref"
  if validGroupRef (.str groupRef) then some (.ref groupRef)
  else if declaredInvalidGroupRef parsed then none
  else
    match fallbackGroupSlug with
    | some (char :: rest) => some (.slug (char :: rest))
    | _ => none

/-- The group rows and the sequence that numbers them. -/
structure GroupTable where
  groups : List AuditGroup
  nextGroupId : Nat
deriving Repr, DecidableEq

/-- `AuditGroup.slug` holds this many characters. -/
def maxSlugLength : Nat := 160

/-- `group_slug_for_ref`. -/
def groupSlugForRef (env : Env) (groupRef : Str) : Str :=
  let slug := if env.slugify groupRef = [] then lit "incoming" else env.slugify groupRef
  if slug.length ≤ maxSlugLength then slug
  else
    let digest := (env.sha256 (encodeUtf8 groupRef)).take 32
    slug.take (maxSlugLength - digest.length - 1) ++ lit "-" ++ digest

/-- `group_name_from_slug`. -/
def groupNameFromSlug (env : Env) (slug : Str) : Str :=
  let name := env.title (strip (slug.map fun char => if char = 0x2d then 0x20 else char))
  if name = [] then "Incoming" else name

/-- Create a group row. -/
def GroupTable.create (table : GroupTable) (name slug groupRef : Str) : GroupTable where
  groups := table.groups ++ [⟨table.nextGroupId, name, slug, groupRef, 0⟩]
  nextGroupId := table.nextGroupId + 1

/-- `group.group_ref = group_ref; group.save(...)`. -/
def setGroupRef (groups : List AuditGroup) (groupId : Nat) (groupRef : Str) : List AuditGroup :=
  groups.map fun group => if group.id = groupId then { group with groupRef := groupRef } else group

/-- `group_for_ref`: the group with the reference, else the one with its slug, else a new one. -/
def groupForRef (env : Env) (table : GroupTable) (groupRef : Str) : GroupTable × Nat :=
  match table.groups.find? (·.groupRef = groupRef) with
  | some existing => (table, existing.id)
  | none =>
      let slug := groupSlugForRef env groupRef
      match table.groups.find? (·.slug = slug) with
      | some found =>
          if found.groupRef = [] then
            ({ table with groups := setGroupRef table.groups found.id groupRef }, found.id)
          else (table, found.id)
      | none => (table.create (lit "Group " ++ groupRef.take 12) slug groupRef, table.nextGroupId)

/-- `group_for_slug`. -/
def groupForSlug (env : Env) (fallbackGroupName : Str) (table : GroupTable) (slug : Str) :
    GroupTable × Nat :=
  match table.groups.find? (·.slug = slug) with
  | some found => (table, found.id)
  | none =>
      let name := if fallbackGroupName = [] then groupNameFromSlug env slug else fallbackGroupName
      (table.create name slug [], table.nextGroupId)

/-- `group_for_key`. -/
def groupForKey (env : Env) (fallbackGroupName : Str) (table : GroupTable) :
    GroupKey → GroupTable × Nat
  | .ref value => groupForRef env table value
  | .slug value => groupForSlug env fallbackGroupName table value

/-- Resolve the keys of a list one after the other. -/
def resolveGroupKeys (env : Env) (fallbackGroupName : Str) :
    GroupTable → List GroupKey → GroupTable × List (GroupKey × Nat)
  | table, [] => (table, [])
  | table, key :: rest =>
      let (resolved, groupId) := groupForKey env fallbackGroupName table key
      let (final, others) := resolveGroupKeys env fallbackGroupName resolved rest
      (final, (key, groupId) :: others)

/-- The distinct keys of an upload's lines, sorted. -/
def groupKeys (fallbackGroupSlug : Option Str) (parsedLines : List ParsedLine) : List GroupKey :=
  inOrder GroupKey.order (parsedLines.filterMap (groupKeyForParsedLine fallbackGroupSlug)).dedup

/-- `groups_for_parsed_lines`. -/
def groupsForParsedLines (env : Env) (upload : Upload) (parsedLines : List ParsedLine)
    (table : GroupTable) : GroupTable × List (GroupKey × Nat) :=
  resolveGroupKeys env upload.fallbackGroupName table (groupKeys upload.fallbackGroupSlug parsedLines)

/-! ### Events -/

/-- `existing_duplicate_events`: the stored pairs of hash and engine that share a line hash with
the upload.  Every stored file is valid, so the filter on its status keeps all of them. -/
def existingDuplicateEvents (stored : List AuditEvent) (parsedLines : List ParsedLine) :
    List (Str × Str) :=
  let lineHashes := parsedLines.map (·.lineHash)
  (stored.filter fun event => lineHashes.contains event.lineHash).map fun event =>
    (event.lineHash, event.engineId)

/-- `duplicate_event_exists`. -/
def duplicateEventExists (parsed : ParsedLine) (existing : List (Str × Str)) : Bool :=
  if parsed.engineId ≠ [] then existing.contains (parsed.lineHash, parsed.engineId)
  else existing.any (·.1 == parsed.lineHash)

/-- `"; ".join(errors)`. -/
def joinErrors : List Str → Str
  | [] => []
  | [error] => error
  | error :: rest => error ++ lit "; " ++ joinErrors rest

/-- `event_values`, with the row id the insert assigns. -/
def eventValues (eventId fileId : Nat) (groupId : Option Nat) (parsed : ParsedLine) :
    AuditEvent :=
  let present := parsed.data.isSome
  let text (field : Str) : Str := if present then parsed.text field else []
  let number (field : Str) : Option Nat := if present then parsed.number field else none
  let object (field : Str) : Json :=
    if present then (parsed.normalized.get field).orElse (.dict []) else .dict []
  { id := eventId
    groupId := groupId
    auditFileId := fileId
    lineNumber := parsed.lineNumber
    lineHash := parsed.lineHash
    rawLine := parsed.rawLine
    rawEvent := (parsed.data.map Json.dict).getD .null
    rawKind := object "raw_kind"
    rawContext := object "raw_context"
    parseStatus := if parsed.errors = [] then .valid else .invalid
    validationError := joinErrors parsed.errors
    schemaVersion := text "schema_version"
    recorderSessionId := text "recorder_session_id"
    auditDataMode := text "audit_data_mode"
    seq := number "seq"
    wallTimeMs := number "wall_time_ms"
    accountRef := text "account_ref"
    engineId := text "engine_id"
    groupRef := text "group_ref"
    eventType := text "event_type"
    normalized :=
      if present then
        parsed.normalized.filter fun entry => persistedNormalizedFields.contains entry.1
      else [] }

/-- What the loop of `create_events` carries: the known pairs, the new rows, the duplicates counted
and the groups resolved so far. -/
structure EventScan where
  existing : List (Str × Str)
  events : List AuditEvent
  duplicateCount : Nat
  groupIds : List Nat
deriving Repr, DecidableEq

/-- The group resolved for a line. -/
def groupOfLine (fallbackGroupSlug : Option Str) (groupsByKey : List (GroupKey × Nat))
    (parsed : ParsedLine) : Option Nat :=
  (groupKeyForParsedLine fallbackGroupSlug parsed).bind fun key => groupsByKey.lookup key

/-- One iteration of the loop. -/
def EventScan.next (groupOf : ParsedLine → Option Nat) (firstEventId fileId : Nat)
    (scan : EventScan) (parsed : ParsedLine) : EventScan :=
  let groupId := groupOf parsed
  let groupIds :=
    match groupId with
    | some id => scan.groupIds.insert id
    | none => scan.groupIds
  if duplicateEventExists parsed scan.existing then
    { scan with duplicateCount := scan.duplicateCount + 1, groupIds := groupIds }
  else
    { existing := scan.existing ++ [(parsed.lineHash, parsed.engineId)]
      events := scan.events ++ [eventValues (firstEventId + scan.events.length) fileId groupId parsed]
      duplicateCount := scan.duplicateCount
      groupIds := groupIds }

/-- The loop of `create_events`. -/
def createEvents (stored : List AuditEvent) (groupOf : ParsedLine → Option Nat)
    (firstEventId fileId : Nat) (parsedLines : List ParsedLine) : EventScan :=
  parsedLines.foldl (EventScan.next groupOf firstEventId fileId)
    ⟨existingDuplicateEvents stored parsedLines, [], 0, []⟩

/-! ### The transaction -/

/-- `refresh_group_rollups`. -/
def refreshGroupRollups (groups : List AuditGroup) (events : List AuditEvent)
    (groupIds : List Nat) : List AuditGroup :=
  groups.map fun group =>
    if group.id ∈ groupIds then
      { group with divergentMessageCount := divergentCount (validGroupEvents events group.id) }
    else group

/-- The file row of an upload. -/
def newFile (env : Env) (fileId : Nat) (upload : Upload) (rawText : Str)
    (parsedLines : List ParsedLine) (scan : EventScan) : AuditFile where
  id := fileId
  fileSha256 := env.sha256 upload.dumpBytes
  byteSize := upload.dumpBytes.length
  rawText := rawText
  duplicateEventCount := scan.duplicateCount
  metadata := fileMetadata parsedLines
  source := bodySourceMetadata parsedLines
  createdAt := upload.receivedAt
  groups := scan.groupIds

/-- The atomic block of `ingest_audit_log_bytes`; `none` when it raises and rolls back. -/
def storeUpload (env : Env) (store : Store) (upload : Upload) (rawText : Str)
    (parsedLines : List ParsedLine) : Option Store :=
  let (table, groupsByKey) :=
    groupsForParsedLines env upload parsedLines ⟨store.groups, store.nextGroupId⟩
  let scan := createEvents store.events (groupOfLine upload.fallbackGroupSlug groupsByKey)
    store.nextEventId store.nextFileId parsedLines
  let file := newFile env store.nextFileId upload rawText parsedLines scan
  let events := store.events ++ scan.events
  (rebuildFileProjections events store.projections file).map fun projections =>
    { groups := refreshGroupRollups table.groups events scan.groupIds
      files := store.files ++ [file]
      events := events
      projections := projections
      rejections := store.rejections
      nextGroupId := table.nextGroupId
      nextFileId := store.nextFileId + 1
      nextEventId := store.nextEventId + scan.events.length }

/-- What the caller gets. -/
inductive IngestionResult where
  | stored (fileId : Nat) (created : Bool)
  | refused (rejected : UploadRejected)
deriving Repr, DecidableEq

/-- `record_ingestion_rejection`. -/
def Store.recordRejection (store : Store) (upload : Upload) (rejected : UploadRejected) : Store :=
  { store with rejections := store.rejections ++
      [⟨rejected.code, rejected.statusCode, rejected.lineNumber, upload.dumpBytes.length,
        upload.receivedAt⟩] }

/-- `ingest_audit_log_bytes`. -/
def ingest (env : Env) (store : Store) (upload : Upload) : IngestionResult × Store :=
  match validateUpload env upload.dumpBytes with
  | .error rejected => (.refused rejected, store.recordRejection upload rejected)
  | .ok (rawText, parsedLines) =>
      match store.files.find? (·.fileSha256 = env.sha256 upload.dumpBytes) with
      | some existing => (.stored existing.id false, store)
      | none =>
          match storeUpload env store upload rawText parsedLines with
          | none =>
              let rejected : UploadRejected := ⟨"ingest_failed", none⟩
              (.refused rejected, store.recordRejection upload rejected)
          | some next => (.stored store.nextFileId true, next)

/-- The store after an upload. -/
def afterUpload (env : Env) (store : Store) (upload : Upload) : Store := (ingest env store upload).2

end Goggles
