/-
Module: Goggles.Concurrency.Protocol
Purpose: Uploads and rebuilds that run at the same time: each a transaction of statements on the rows
  committed so far and its own, with the locks it holds until it commits or rolls back.
Trusted boundary: forensics/ingest.py `ingest_audit_log_bytes` and forensics/ingestion_limits.py
  `begin_ingestion`, over PostgreSQL in READ COMMITTED mode: a statement sees the committed rows and
  those of its own transaction; row, advisory and unique-key locks last until the transaction ends;
  sequences never roll back.  The projection of a file and the refresh of the counts are one step
  each.  The pruner is not part of the cluster
Main exports: recorderKey, Lookup, Phase, Ingestion, Connection, Resource, Outcome, Ingestion.next,
  Served, Cluster, ClusterStep, Cluster.step
-/
import Goggles.Ingest.Ingest
import Goggles.Library.Sessions

namespace Goggles

/-! ### Locks -/

/-- `int.from_bytes(..., signed=True)` of eight bytes, read as a number without sign. -/
def signed64 (number : Nat) : Int := if number < 2 ^ 63 then number else (number : Int) - 2 ^ 64

/-- The key of a recorder's advisory lock. -/
def recorderKey (env : Env) (engineId : Str) : Int :=
  let digest := env.sha256 (encodeUtf8 (lit "goggles-ingest-recorder:" ++ engineId))
  signed64 (hexNumber (digest.take 16))

/-- What a transaction may hold until it ends: an advisory lock, the lock of a group row, and the
unique keys of rows it inserted. -/
inductive Resource where
  | recorder (key : Int)
  | group (groupId : Nat)
  | slug (slug : Str)
  | file (fileId : Nat)
  | fileHash (hash : Str)
  | event (eventId : Nat)
deriving Repr, DecidableEq

/-! ### The transaction of an upload -/

/-- The slug a key is looked up by. -/
def GroupKey.slugOf (env : Env) : GroupKey → Str
  | .ref value => groupSlugForRef env value
  | .slug value => value

/-- The second part of a key. -/
def GroupKey.value : GroupKey → Str
  | .ref value => value
  | .slug value => value

/-- The next statement for a group key: `filter(group_ref=...)`, the two halves of `get_or_create`, or
the update of a row without a reference. -/
inductive Lookup where
  | byRef
  | bySlug
  | insert
  | adopt (groupId : Nat)
deriving Repr, DecidableEq

/-- `group_for_ref` begins with the reference, `group_for_slug` with the slug. -/
def GroupKey.firstLookup : GroupKey → Lookup
  | .ref _ => .byRef
  | .slug _ => .bySlug

/-- `group_ref and not group.group_ref`, for the row that was read. -/
def GroupKey.adopts (key : GroupKey) (found : AuditGroup) : Bool :=
  match key with
  | .ref _ => found.groupRef == []
  | .slug _ => false

/-- The row `get_or_create` inserts for a key. -/
def GroupKey.newGroup (env : Env) (fallbackGroupName : Str) (groupId : Nat) : GroupKey → AuditGroup
  | .ref value => ⟨groupId, lit "Group " ++ value.take 12, groupSlugForRef env value, value, 0⟩
  | .slug value =>
      ⟨groupId, if fallbackGroupName = [] then groupNameFromSlug env value else fallbackGroupName,
        value, [], 0⟩

/-- The next statement of a transaction, with what the earlier ones left in its variables. -/
inductive Phase where
  | recorderLock (engineId : Str) (left : List Str)
  | groupLookup (key : GroupKey) (left : List GroupKey) (lookup : Lookup)
  | groupLocks
  | fileInsert
  | duplicateRead (fileId : Nat)
  | eventInsert (fileId : Nat) (scan : EventScan) (row : AuditEvent) (left : List AuditEvent)
  | projection (fileId : Nat) (scan : EventScan)
  | rollups (fileId : Nat) (scan : EventScan) (projections : Nat → GroupProjections)
  | commit (fileId : Nat) (scan : EventScan) (projections : Nat → GroupProjections)
      (counts : List (Nat × Nat))

/-- The file the transaction has inserted. -/
def Phase.fileId : Phase → Option Nat
  | .duplicateRead fileId | .eventInsert fileId _ _ _ | .projection fileId _
  | .rollups fileId _ _ | .commit fileId _ _ _ => some fileId
  | _ => none

/-- An upload that passed validation and whose hash was not stored, with the rows its transaction has
written and the locks it has taken. -/
structure Ingestion where
  upload : Upload
  rawText : Str
  lines : List ParsedLine
  recorderKeys : List Int := []
  createdGroups : List AuditGroup := []
  adoptedRefs : List (Nat × Str) := []
  groupsByKey : List (GroupKey × Nat) := []
  lockedGroups : List Nat := []
  events : List AuditEvent := []
  phase : Phase

namespace Ingestion

variable (env : Env) (ingestion : Ingestion)

/-- `file_sha256`. -/
def fileSha256 : Str := env.sha256 ingestion.upload.dumpBytes

/-- What the transaction holds. -/
def holds : List Resource :=
  ingestion.recorderKeys.map .recorder ++
    (ingestion.createdGroups.map (·.id) ++ ingestion.adoptedRefs.map Prod.fst ++
      ingestion.lockedGroups).map .group ++
    ingestion.createdGroups.map (.slug ·.slug) ++
    ingestion.events.map (.event ·.id) ++
    ingestion.phase.fileId.toList.flatMap fun fileId =>
      [.file fileId, .fileHash (ingestion.fileSha256 env)]

/-- The group rows a statement of the transaction sees. -/
def groupRows (committed : List AuditGroup) : List AuditGroup :=
  ingestion.adoptedRefs.foldl (fun groups entry => setGroupRef groups entry.1 entry.2)
    (committed ++ ingestion.createdGroups)

/-- The group resolved for a line. -/
def groupOf : ParsedLine → Option Nat :=
  groupOfLine ingestion.upload.fallbackGroupSlug ingestion.groupsByKey

/-! ### From one statement to the next -/

/-- On to the next group key, or to the locks of the groups. -/
def lookUpNext : List GroupKey → Phase
  | [] => .groupLocks
  | key :: left => .groupLookup key left key.firstLookup

/-- On to the next recorder's lock, or to the group keys. -/
def lockNext : List Str → Phase
  | [] => lookUpNext (groupKeys ingestion.upload.fallbackGroupSlug ingestion.lines)
  | engineId :: left => .recorderLock engineId left

/-- On to the next event row, or to the projection. -/
def insertNext (fileId : Nat) (scan : EventScan) : List AuditEvent → Phase
  | [] => .projection fileId scan
  | row :: left => .eventInsert fileId scan row left

/-- A key is resolved. -/
def resolve (key : GroupKey) (left : List GroupKey) (groupId : Nat) : Ingestion :=
  { ingestion with
    groupsByKey := ingestion.groupsByKey ++ [(key, groupId)]
    phase := lookUpNext left }

end Ingestion

/-- What the next statement does: it waits for another transaction, it is done, or the request ends
with it. -/
inductive Outcome where
  | waits
  | proceeds (store : Store) (ingestion : Ingestion)
  | ends (store : Store) (result : IngestionResult)

/-- `UploadRejected("ingest_busy")`. -/
def ingestBusy : UploadRejected := ⟨"ingest_busy", none⟩

/-- `UploadRejected("ingest_failed")`. -/
def ingestFailed : UploadRejected := ⟨"ingest_failed", none⟩

namespace Ingestion

variable (env : Env) (isFree : Resource → Bool) (store : Store) (ingestion : Ingestion)

/-- One statement of `group_for_key`. -/
def lookUp (key : GroupKey) (left : List GroupKey) : Lookup → Outcome
  | .byRef =>
      match (ingestion.groupRows store.groups).find? (·.groupRef = key.value) with
      | some existing => .proceeds store (ingestion.resolve key left existing.id)
      | none => .proceeds store { ingestion with phase := .groupLookup key left .bySlug }
  | .bySlug =>
      match (ingestion.groupRows store.groups).find? (·.slug = key.slugOf env) with
      | none => .proceeds store { ingestion with phase := .groupLookup key left .insert }
      | some found =>
          if key.adopts found then
            .proceeds store { ingestion with phase := .groupLookup key left (.adopt found.id) }
          else .proceeds store (ingestion.resolve key left found.id)
  | .insert =>
      let slug := key.slugOf env
      let numbered := { store with nextGroupId := store.nextGroupId + 1 }
      if !isFree (.slug slug) then .waits
      else if (ingestion.groupRows store.groups).any (·.slug == slug) then
        -- the savepoint rolls back on the unique key, and `get_or_create` reads again
        .proceeds numbered { ingestion with phase := .groupLookup key left .bySlug }
      else
        let group := key.newGroup env ingestion.upload.fallbackGroupName store.nextGroupId
        .proceeds numbered
          { ingestion.resolve key left group.id with
            createdGroups := ingestion.createdGroups ++ [group] }
  | .adopt groupId =>
      if !isFree (.group groupId) then .waits
      else
        .proceeds store
          { ingestion.resolve key left groupId with
            adoptedRefs := ingestion.adoptedRefs ++ [(groupId, key.value)] }

/-- The transaction's rows, committed: `counts` are those of `refresh_group_rollups`. -/
def committed (fileId : Nat) (scan : EventScan) (projections : Nat → GroupProjections)
    (counts : List (Nat × Nat)) : Store :=
  { store with
    groups := (ingestion.groupRows store.groups).map fun group =>
      match counts.lookup group.id with
      | some count => { group with divergentMessageCount := count }
      | none => group
    files := store.files ++
      [newFile env fileId ingestion.upload ingestion.rawText ingestion.lines scan]
    events := store.events ++ ingestion.events
    projections := fun groupId =>
      if groupId ∈ scan.groupIds then projections groupId else store.projections groupId }

/-- The next statement of the transaction, on the rows committed so far. -/
def next : Outcome :=
  match ingestion.phase with
  | .recorderLock engineId left =>
      let key := recorderKey env engineId
      if isFree (.recorder key) then
        .proceeds store
          { ingestion with
            recorderKeys := ingestion.recorderKeys ++ [key]
            phase := ingestion.lockNext left }
      else .ends store (.refused ingestBusy)
  | .groupLookup key left lookup => ingestion.lookUp env isFree store key left lookup
  | .groupLocks =>
      let groupIds := ingestion.groupsByKey.map Prod.snd
      if groupIds.all fun groupId => isFree (.group groupId) then
        .proceeds store { ingestion with lockedGroups := groupIds, phase := .fileInsert }
      else .ends store (.refused ingestBusy)
  | .fileInsert =>
      let hash := ingestion.fileSha256 env
      let numbered := { store with nextFileId := store.nextFileId + 1 }
      if !isFree (.fileHash hash) then .waits
      else
        match store.files.find? (·.fileSha256 = hash) with
        -- the unique hash: roll back and return the file that holds it
        | some existing => .ends numbered (.stored existing.id false)
        | none => .proceeds numbered { ingestion with phase := .duplicateRead store.nextFileId }
  | .duplicateRead fileId =>
      let scan := createEvents store.events ingestion.groupOf 0 fileId ingestion.lines
      .proceeds store { ingestion with phase := insertNext fileId scan scan.events }
  | .eventInsert fileId scan row left =>
      .proceeds { store with nextEventId := store.nextEventId + 1 }
        { ingestion with
          events := ingestion.events ++ [{ row with id := store.nextEventId }]
          phase := insertNext fileId scan left }
  | .projection fileId scan =>
      let file := newFile env fileId ingestion.upload ingestion.rawText ingestion.lines scan
      match rebuildFileProjections (store.events ++ ingestion.events) store.projections file with
      | none =>
          .ends (store.recordRejection ingestion.upload ingestFailed) (.refused ingestFailed)
      | some projections =>
          .proceeds store { ingestion with phase := .rollups fileId scan projections }
  | .rollups fileId scan projections =>
      let counts := scan.groupIds.map fun groupId =>
        (groupId, divergentCount (validGroupEvents (store.events ++ ingestion.events) groupId))
      .proceeds store { ingestion with phase := .commit fileId scan projections counts }
  | .commit fileId scan projections counts =>
      .ends (ingestion.committed env store fileId scan projections counts) (.stored fileId true)

end Ingestion

/-! ### The cluster -/

/-- A connection in a transaction: an upload, or `rebuild_group_projections` that holds its group. -/
inductive Connection where
  | ingest (ingestion : Ingestion)
  | rebuild (groupId : Nat)

/-- What a connection holds. -/
def Connection.holds (env : Env) : Connection → List Resource
  | .ingest ingestion => ingestion.holds env
  | .rebuild groupId => [.group groupId]

/-- What a request was answered with. -/
structure Answer where
  upload : Upload
  result : IngestionResult
deriving DecidableEq

/-- The committed rows and the answers given so far. -/
structure Served where
  store : Store
  answers : List Answer

/-- The database with the connections that are in a transaction. -/
abbrev Cluster := Sessions Served Connection

/-- The cluster after migrations. -/
def Cluster.fresh : Cluster := .idle ⟨.empty, []⟩

/-- How a request fails at any of its statements: a lock or statement deadline with the SQLSTATE of a
lock, another error, whose row may or may not be recorded, or the end of the process. -/
inductive Failure where
  | busy
  | failed (recorded : Bool)
  | killed
deriving Repr, DecidableEq

/-- One step of the cluster. -/
inductive ClusterStep where
  | request (session : Nat) (upload : Upload)
  | proceed (session : Nat)
  | fail (session : Nat) (failure : Failure)
  | rebuild (session : Nat) (groupId : Nat)

namespace Served

/-- Answer a request, with the rows it leaves. -/
def answer (served : Served) (upload : Upload) (store : Store) (result : IngestionResult) : Served :=
  ⟨store, served.answers ++ [⟨upload, result⟩]⟩

/-- What is left of a request that failed: its transaction rolled back. -/
def afterFailure (served : Served) (upload : Upload) : Failure → Served
  | .busy => served.answer upload served.store (.refused ingestBusy)
  | .failed true =>
      served.answer upload (served.store.recordRejection upload ingestFailed) (.refused ingestFailed)
  | .failed false => served.answer upload served.store (.refused ingestFailed)
  | .killed => served

end Served

namespace Cluster

variable (env : Env) (cluster : Cluster)

/-- A request arrives: it is refused, or its hash is stored, or its transaction begins. -/
def request (session : Nat) (upload : Upload) : Cluster :=
  let served := cluster.shared
  match validateUpload env upload.dumpBytes with
  | .error rejected =>
      { cluster with
        shared := served.answer upload (served.store.recordRejection upload rejected)
          (.refused rejected) }
  | .ok (rawText, lines) =>
      match served.store.files.find? (·.fileSha256 = env.sha256 upload.dumpBytes) with
      | some existing =>
          { cluster with
            shared := served.answer upload served.store (.stored existing.id false) }
      | none =>
          let ingestion : Ingestion := { upload, rawText, lines, phase := .groupLocks }
          let first := ingestion.lockNext (fileMetadata lines).engineIds
          cluster.proceed session served (.ingest { ingestion with phase := first })

/-- The next statement of an upload's transaction. -/
def advance (session : Nat) (ingestion : Ingestion) : Cluster :=
  let served := cluster.shared
  match ingestion.next env (cluster.isFree (Connection.holds env) session) served.store with
  | .waits => cluster
  | .proceeds store later => cluster.proceed session { served with store } (.ingest later)
  | .ends store result =>
      cluster.finish session (served.answer ingestion.upload store result)

/-- `rebuild_locked_group_projections` and the commit; without rows when it raises. -/
def finishRebuild (session groupId : Nat) : Cluster :=
  let served := cluster.shared
  match rebuildGroup served.store.events groupId with
  | none => cluster.finish session served
  | some rows =>
      let projections := Function.update served.store.projections groupId rows
      cluster.finish session { served with store := { served.store with projections } }

/-- One step; a step that waits, or that names no such session, changes nothing. -/
def step : ClusterStep → Cluster
  | .request session upload =>
      if (cluster.active.find session).isSome then cluster
      else cluster.request env session upload
  | .proceed session =>
      match cluster.active.find session with
      | none => cluster
      | some (.ingest ingestion) => cluster.advance env session ingestion
      | some (.rebuild groupId) => cluster.finishRebuild session groupId
  | .fail session failure =>
      match cluster.active.find session with
      | none => cluster
      | some (.ingest ingestion) =>
          cluster.finish session (cluster.shared.afterFailure ingestion.upload failure)
      | some (.rebuild _) => cluster.finish session cluster.shared
  | .rebuild session groupId =>
      -- `select_for_update().get(pk=...)` waits for the row and fails without one
      if (cluster.active.find session).isSome then cluster
      else if (cluster.shared.store.groups.any (·.id == groupId)) &&
          cluster.isFree (Connection.holds env) session (.group groupId) then
        cluster.proceed session cluster.shared (.rebuild groupId)
      else cluster

end Cluster

end Goggles
