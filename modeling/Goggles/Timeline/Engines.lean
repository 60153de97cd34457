/-
Module: Goggles.Timeline.Engines
Purpose: The engines of a timeline with their labels, and where the platform and the hardware in a
  label come from: source events of the sessions in view, and files for events without a session.
Trusted boundary: forensics/analysis.py, `color_index` to `timeline_engines`; what `str.upper` does is
  a parameter, and so are the database's `icontains` and text of a JSON key
Main exports: labelledEngines, engineIndex, sourceEvents, SourcesAgree, MetadataIsolated,
  metadataIsolated
-/
import Goggles.Timeline.Fields
import Goggles.Views.Quarantine

namespace Goggles

/-! ### The sessions in view -/

/-- The engine, the account and the session of an event. -/
def AuditEvent.session (event : AuditEvent) : RecorderSession :=
  (event.engineId, event.accountRef, event.recorderSessionId)

/-- `all(session)`. -/
def completeSession (session : RecorderSession) : Bool :=
  session.1 ≠ [] && session.2.1 ≠ [] && session.2.2 ≠ []

/-- The session that `timeline_engines` takes for an event.  Only this version of the schema has them. -/
def timelineSession (event : AuditEvent) : RecorderSession :=
  if event.schemaVersion ≠ SCHEMA_VERSION then (event.engineId, event.accountRef, [])
  else event.session

/-- `sessions`, a set. -/
def timelineSessions (events : List AuditEvent) : List RecorderSession :=
  ((attributedEvents events).map timelineSession).dedup

/-! ### The metadata of the engines -/

/-- The two fields of a source that a label shows. -/
inductive LabelField where
  | platform
  | hardwareModel
deriving Repr, DecidableEq

def LabelField.all : List LabelField := [.platform, .hardwareModel]

/-- The key of a field in a source context. -/
def LabelField.key : LabelField → Str
  | .platform => lit "platform"
  | .hardwareModel => lit "hardware_model"

/-- `getattr(event.audit_file, field)`. -/
def SourceMetadata.labelField (source : SourceMetadata) : LabelField → Str
  | .platform => source.platform
  | .hardwareModel => source.hardwareModel

/-- Values by engine and field. -/
abbrev EngineMetadata := Keyed (Str × LabelField) Str

/-- What a row of `session_source_contexts` states. -/
def contextItems (row : Str × List (Str × Option Str)) : List ((Str × LabelField) × Str) :=
  LabelField.all.filterMap fun field =>
    match row.2.lookup field.key with
    | some (some value) => if value = [] then none else some ((row.1, field), value)
    | _ => none

/-- What the file of an event states. -/
def fileItems (files : Nat → SourceMetadata) (event : AuditEvent) :
    List ((Str × LabelField) × Str) :=
  LabelField.all.filterMap fun field =>
    let value := (files event.auditFileId).labelField field
    if value = [] then none else some ((event.engineId, field), value)

/-- `fallback_metadata`: files stand in for events whose session is incomplete. -/
def fallbackMetadata (files : Nat → SourceMetadata) (events : List AuditEvent) : EngineMetadata :=
  Keyed.gather Keyed.setDefault
    (((attributedEvents events).filter fun event => !completeSession (timelineSession event)).flatMap
      (fileItems files))

/-! ### Their labels -/

/-- `VIZ_PALETTE_SIZE`. -/
def VIZ_PALETTE_SIZE : Nat := 8

/-- `color_index`. -/
def colorIndex (value : Str) : Nat :=
  value.foldl (fun hash char => (hash * 31 + char) % 2 ^ 32) 0 % VIZ_PALETTE_SIZE + 1

/-- `text.split(" / ")[0]`. -/
def beforeSlash : Str → Str
  | [] => []
  | char :: rest => if (lit " / ").isPrefixOf (char :: rest) then [] else char :: beforeSlash rest

/-- `text.split()`. -/
def words (text : Str) : List Str := (text.splitOnP isSpace).filter (· ≠ [])

/-- `engine_initials`. -/
def engineInitials (upper : Str → Str) (label engineId : Str) : Str :=
  match words (strip (beforeSlash label)) with
  | [] => upper (if engineId = [] then lit "?" else engineId.take 2)
  | found => upper ((found.take 2).flatMap (·.take 1))

/-- An entry of `engines`. -/
structure LabelledEngine extends TimelineEngine where
  label : Str
  colorIndex : Nat
  idx : Nat
  short : Str
  initials : Str
  fileIds : List Nat
deriving Repr, DecidableEq

section Engines

variable (icontains : Str → Str → Bool) (keyText : Dict → Str → Option Str) (upper : Str → Str)
  (evidence : RetainedEvidence) (files : Nat → SourceMetadata) (events : List AuditEvent)

/-- `source_metadata`: the sessions first, then the files. -/
def sourceMetadata : EngineMetadata :=
  Keyed.gather Keyed.setDefault
    ((sessionSourceContexts icontains keyText evidence (timelineSessions events)).flatMap contextItems ++
      (fallbackMetadata files events).entries)

/-- The label of an engine. -/
def engineLabel (engineId : Str) : Str :=
  let metadata := sourceMetadata icontains keyText evidence files events
  (lit " / ").intercalate
    ([(metadata.find (engineId, .platform)).getD [], (metadata.find (engineId, .hardwareModel)).getD [],
      engineId.take 12].filter (· ≠ []))

/-- What is added to an engine at its place. -/
def labelledEngine (entry : TimelineEngine × Nat) : LabelledEngine :=
  let label := engineLabel icontains keyText evidence files events entry.1.engineId
  let own := (attributedEvents events).filter (·.engineId = entry.1.engineId)
  { entry.1 with
    label := label
    colorIndex := colorIndex entry.1.engineId
    idx := entry.2
    short := entry.1.engineId.take 8
    initials := engineInitials upper label entry.1.engineId
    fileIds := inOrder id (own.map (·.auditFileId)).dedup }

/-- `timeline_engines`. -/
def labelledEngines : List LabelledEngine :=
  (timelineEngines events).zipIdx.map
    (labelledEngine icontains keyText upper evidence files events)

/-- `engine_idx`. -/
def engineIndex : EngineIndex where
  engineIds := (timelineEngines events).map (·.engineId)
  distinct := (timelineEngines_perm events).nodup_iff.mpr (nodup_enginesOf events)

/-- The index of an engine is its place. -/
theorem find_engineIndex {engine : LabelledEngine}
    (member : engine ∈ labelledEngines icontains keyText upper evidence files events) :
    (engineIndex events).find engine.engineId = some engine.idx := by
  obtain ⟨⟨info, idx⟩, place, rfl⟩ := List.mem_map.mp member
  have found : (engineIndex events).engineIds[idx]? = some info.engineId := by
    rw [engineIndex, List.getElem?_map, List.mk_mem_zipIdx_iff_getElem?.mp place]
    rfl
  exact EngineIndex.find_of_getElem? found

/-! ### What a label depends on -/

/-- The source events of the complete sessions among some. -/
def sourceEvents (sessions : List RecorderSession) : List AuditEvent :=
  (evidence.counted icontains).filter fun event =>
    sessions.contains event.session && completeSession event.session &&
      event.schemaVersion = SCHEMA_VERSION && event.parseStatus = .valid &&
      !event.contextSource.isEmpty

/-- Two stores and two tables of files say the same of an engine. -/
structure SourcesAgree (one two : RetainedEvidence) (filesOne filesTwo : Nat → SourceMetadata)
    (engineId : Str) : Prop where
  sources : ((sourceEvents icontains one (timelineSessions events)).filter
      (·.engineId = engineId)).Perm
    ((sourceEvents icontains two (timelineSessions events)).filter (·.engineId = engineId))
  files : ∀ event ∈ events, event.engineId = engineId →
    completeSession (timelineSession event) = false →
      filesOne event.auditFileId = filesTwo event.auditFileId

/-- Metadata stays with the identity it was recorded under. -/
structure MetadataIsolated : Prop where
  contexts : ∀ (evidence : RetainedEvidence) (sessions : List RecorderSession),
    (sessionSourceContexts icontains keyText evidence sessions).Perm
      ((sourceEvents icontains evidence sessions).map (sourceRow keyText))
  metadata : ∀ (one two : RetainedEvidence) (filesOne filesTwo : Nat → SourceMetadata)
    (events : List AuditEvent) (engineId : Str),
    SourcesAgree icontains events one two filesOne filesTwo engineId → ∀ field,
      (sourceMetadata icontains keyText one filesOne events).find (engineId, field) =
        (sourceMetadata icontains keyText two filesTwo events).find (engineId, field)
  engines : ∀ (one two : RetainedEvidence) (filesOne filesTwo : Nat → SourceMetadata)
    (events : List AuditEvent) (engineId : Str),
    SourcesAgree icontains events one two filesOne filesTwo engineId →
      (labelledEngines icontains keyText upper one filesOne events).filter (·.engineId = engineId) =
        (labelledEngines icontains keyText upper two filesTwo events).filter (·.engineId = engineId)

end Engines

/-! ### The query -/

section Query

variable {icontains : Str → Str → Bool} {keyText : Dict → Str → Option Str}
  {evidence : RetainedEvidence} {sessions : List RecorderSession} {event : AuditEvent}

/-- The conditions on the identities are met by the events of the sessions. -/
theorem matchesSessions_iff : matchesSessions sessions event = true ↔ event.session ∈ sessions := by
  have found : matchesSessions sessions event = true ↔ event.recorderSessionId ∈
      ((sessionsByIdentity sessions).find (event.engineId, event.accountRef)).getD [] := by
    rw [matchesSessions, List.any_eq_true]
    constructor
    · rintro ⟨⟨⟨engineId, accountRef⟩, sessionIds⟩, member, passes⟩
      simp only [Bool.and_eq_true, decide_eq_true_eq, List.contains_iff_mem] at passes
      obtain ⟨⟨rfl, rfl⟩, inside⟩ := passes
      rw [Keyed.find_eq_some_iff.mpr member]
      exact inside
    · intro inside
      cases identity : (sessionsByIdentity sessions).find (event.engineId, event.accountRef) with
      | none =>
          rw [identity] at inside
          cases inside
      | some sessionIds =>
          rw [identity, Option.getD_some] at inside
          refine ⟨_, Keyed.find_eq_some_iff.mp identity, ?_⟩
          simpa using inside
  rw [found, sessionsByIdentity, Keyed.getD_find_gather_appendItem]
  simp only [List.mem_map, List.mem_filter, decide_eq_true_eq]
  constructor
  · rintro ⟨_, ⟨⟨session, member, rfl⟩, identity⟩, sameId⟩
    obtain ⟨sameEngine, sameAccount⟩ := Prod.mk.inj identity
    have same : session = event.session := Prod.ext sameEngine (Prod.ext sameAccount sameId)
    exact same ▸ member
  · intro member
    exact ⟨_, ⟨⟨event.session, member, rfl⟩, rfl⟩, rfl⟩

theorem mem_identifiedSessions {session : RecorderSession} :
    session ∈ identifiedSessions sessions ↔ session ∈ sessions ∧ completeSession session = true := by
  rw [identifiedSessions, mem_inOrder, List.mem_dedup, List.mem_filter]
  rfl

theorem nodup_identifiedSessions (sessions : List RecorderSession) :
    (identifiedSessions sessions).Nodup :=
  (perm_inOrder _ _).nodup_iff.mpr (List.nodup_dedup _)

/-- The order of the rows of a chunk. -/
def sourceOrder (event : AuditEvent) : Bool ×ₗ Nat ×ₗ Nat :=
  toLex (event.seq.isNone, toLex (event.seq.getD 0, event.id))

theorem sourceOrder_distinguishes {events : List AuditEvent} (ids : (events.map (·.id)).Nodup) :
    Distinguishes sourceOrder events := by
  intro left leftMember right rightMember same
  have sameId : left.id = right.id := congrArg (fun key => (ofLex (ofLex key).2).2) same
  exact List.inj_on_of_nodup_map ids leftMember rightMember sameId

/-- The source events of the sessions of a chunk. -/
def chunkEvents (icontains : Str → Str → Bool) (evidence : RetainedEvidence)
    (chunk : List RecorderSession) : List AuditEvent :=
  (evidence.counted icontains).filter fun event =>
    chunk.contains event.session && event.schemaVersion = SCHEMA_VERSION &&
      event.parseStatus = .valid && !event.contextSource.isEmpty

theorem sessionSourceContexts_eq : sessionSourceContexts icontains keyText evidence sessions =
    ((identifiedSessions sessions).toChunks 100).flatMap fun chunk =>
      (inOrder sourceOrder (chunkEvents icontains evidence chunk)).map (sourceRow keyText) := by
  rw [sessionSourceContexts]
  refine List.flatMap_congr fun chunk _ => ?_
  have same : ∀ event, matchesSessions chunk event = chunk.contains event.session := by
    intro event
    rw [Bool.eq_iff_iff, matchesSessions_iff, List.contains_iff_mem]
  simp only [same, chunkEvents]
  rfl

/-- The events of all chunks are the source events of the sessions, each once. -/
theorem perm_chunkEvents (icontains : Str → Str → Bool) (evidence : RetainedEvidence)
    (sessions : List RecorderSession) :
    (((identifiedSessions sessions).toChunks 100).flatMap (chunkEvents icontains evidence)).Perm
      (sourceEvents icontains evidence sessions) := by
  set stored := (evidence.counted icontains).filter fun event =>
    event.schemaVersion = SCHEMA_VERSION && event.parseStatus = .valid &&
      !event.contextSource.isEmpty with storedEq
  have ofChunk : ∀ chunk, chunkEvents icontains evidence chunk =
      stored.filter fun event => chunk.contains event.session := by
    intro chunk
    rw [storedEq, List.filter_filter, chunkEvents]
    refine List.filter_congr fun event _ => ?_
    rw [Bool.and_assoc, Bool.and_assoc, ← Bool.and_assoc (decide (event.schemaVersion = _))]
  have whole : sourceEvents icontains evidence sessions =
      stored.filter fun event => (identifiedSessions sessions).contains event.session := by
    rw [storedEq, List.filter_filter, sourceEvents]
    refine List.filter_congr fun event _ => ?_
    have identified : (identifiedSessions sessions).contains event.session =
        (sessions.contains event.session && completeSession event.session) := by
      rw [Bool.eq_iff_iff, List.contains_iff_mem, mem_identifiedSessions, Bool.and_eq_true,
        List.contains_iff_mem]
    rw [identified, Bool.and_assoc, Bool.and_assoc, ← Bool.and_assoc (decide (event.schemaVersion = _))]
  have chunks : ((identifiedSessions sessions).toChunks 100).flatten = identifiedSessions sessions :=
    flatten_toChunks 100 _
  have distinct := nodup_identifiedSessions sessions
  rw [← chunks, List.nodup_flatten] at distinct
  have split : (((identifiedSessions sessions).toChunks 100).flatMap
        (chunkEvents icontains evidence)).Perm
      (((identifiedSessions sessions).toChunks 100).flatMap fun chunk =>
        chunk.flatMap fun session => stored.filter (AuditEvent.session · = session)) := by
    refine List.Perm.flatMap_left _ fun chunk member => ?_
    rw [ofChunk chunk]
    exact (perm_flatMap_filter_mem (distinct.1 chunk member) fun _ => List.contains_iff_mem).symm
  have joined : (((identifiedSessions sessions).toChunks 100).flatMap fun chunk =>
        chunk.flatMap fun session => stored.filter (AuditEvent.session · = session)) =
      (identifiedSessions sessions).flatMap fun session =>
        stored.filter (AuditEvent.session · = session) := by
    rw [← List.flatMap_assoc, List.flatMap_id', chunks]
  rw [whole]
  exact (split.trans (.of_eq joined)).trans
    (perm_flatMap_filter_mem (nodup_identifiedSessions sessions) fun _ => List.contains_iff_mem)

/-- One row for each source event of the sessions. -/
theorem perm_sessionSourceContexts (evidence : RetainedEvidence) (sessions : List RecorderSession) :
    (sessionSourceContexts icontains keyText evidence sessions).Perm
      ((sourceEvents icontains evidence sessions).map (sourceRow keyText)) := by
  rw [sessionSourceContexts_eq]
  refine List.Perm.trans ?_ ((perm_chunkEvents icontains evidence sessions).map (sourceRow keyText))
  rw [List.map_flatMap]
  refine List.Perm.flatMap_left _ fun chunk _ => ?_
  exact (perm_inOrder sourceOrder _).map _

/-- The rows of an engine come from its own source events. -/
theorem filter_sessionSourceContexts (engineId : Str) :
    (sessionSourceContexts icontains keyText evidence sessions).filter (·.1 = engineId) =
      ((identifiedSessions sessions).toChunks 100).flatMap fun chunk =>
        (inOrder sourceOrder (((sourceEvents icontains evidence sessions).filter
          (·.engineId = engineId)).filter fun event => chunk.contains event.session)).map
            (sourceRow keyText) := by
  rw [sessionSourceContexts_eq, List.filter_flatMap]
  refine List.flatMap_congr fun chunk member => ?_
  have distinct : Distinguishes sourceOrder (chunkEvents icontains evidence chunk) :=
    (sourceOrder_distinguishes evidence.ids).subset
      fun event inside => List.mem_of_mem_filter (List.mem_of_mem_filter inside)
  have ofEngine : ((inOrder sourceOrder (chunkEvents icontains evidence chunk)).map
        (sourceRow keyText)).filter (·.1 = engineId) =
      ((inOrder sourceOrder (chunkEvents icontains evidence chunk)).filter
        (·.engineId = engineId)).map (sourceRow keyText) := List.filter_map
  rw [ofEngine, inOrder_filter distinct]
  congr 2
  rw [chunkEvents, sourceEvents, List.filter_filter, List.filter_filter, List.filter_filter]
  refine List.filter_congr fun event _ => ?_
  cases inChunk : chunk.contains event.session with
  | false => simp
  | true =>
      have identified : event.session ∈ identifiedSessions sessions := by
        rw [← flatten_toChunks 100 (identifiedSessions sessions)]
        exact List.mem_flatten.mpr ⟨chunk, member, List.contains_iff_mem.mp inChunk⟩
      obtain ⟨requested, complete⟩ := mem_identifiedSessions.mp identified
      simp [requested, complete]

end Query

section Isolated

variable {icontains : Str → Str → Bool} {keyText : Dict → Str → Option Str}
  {one two : RetainedEvidence} {filesOne filesTwo : Nat → SourceMetadata}
  {events : List AuditEvent} {engineId : Str}

/-- The rows of an engine agree. -/
theorem SourcesAgree.rows
    (agree : SourcesAgree icontains events one two filesOne filesTwo engineId) :
    (sessionSourceContexts icontains keyText one (timelineSessions events)).filter (·.1 = engineId) =
      (sessionSourceContexts icontains keyText two (timelineSessions events)).filter
        (·.1 = engineId) := by
  rw [filter_sessionSourceContexts, filter_sessionSourceContexts]
  refine List.flatMap_congr fun chunk _ => ?_
  have distinct : Distinguishes sourceOrder (((sourceEvents icontains two
      (timelineSessions events)).filter (·.engineId = engineId)).filter fun event =>
        chunk.contains event.session) :=
    (sourceOrder_distinguishes two.ids).subset fun event inside =>
      List.mem_of_mem_filter (List.mem_of_mem_filter (List.mem_of_mem_filter
        (List.mem_of_mem_filter inside)))
  rw [inOrder_eq_of_perm distinct (agree.sources.filter _)]

/-- A row speaks of its own engine only. -/
theorem filter_flatMap_contextItems (rows : List (Str × List (Str × Option Str))) (field : LabelField) :
    (rows.flatMap contextItems).filter (·.1 = (engineId, field)) =
      ((rows.filter (·.1 = engineId)).flatMap contextItems).filter (·.1 = (engineId, field)) := by
  refine filter_flatMap_of_foreign fun row other => ?_
  refine List.filter_eq_nil_iff.mpr fun item member same => of_decide_eq_false other ?_
  obtain ⟨stated, -, made⟩ := List.mem_filterMap.mp member
  split at made
  · split at made
    · cases made
    · obtain rfl := Option.some.inj made
      exact (Prod.mk.inj (of_decide_eq_true same)).1
  · cases made

/-- A file speaks of the engine of its event only. -/
theorem filter_flatMap_fileItems (files : Nat → SourceMetadata) (own : List AuditEvent)
    (field : LabelField) :
    (own.flatMap (fileItems files)).filter (·.1 = (engineId, field)) =
      ((own.filter (·.engineId = engineId)).flatMap (fileItems files)).filter
        (·.1 = (engineId, field)) := by
  refine filter_flatMap_of_foreign fun event other => ?_
  refine List.filter_eq_nil_iff.mpr fun item member same => of_decide_eq_false other ?_
  obtain ⟨stated, -, made⟩ := List.mem_filterMap.mp member
  dsimp only at made
  split at made
  · cases made
  · obtain rfl := Option.some.inj made
    exact (Prod.mk.inj (of_decide_eq_true same)).1

/-- The fallback agrees. -/
theorem SourcesAgree.fallback
    (agree : SourcesAgree icontains events one two filesOne filesTwo engineId) (field : LabelField) :
    (fallbackMetadata filesOne events).find (engineId, field) =
      (fallbackMetadata filesTwo events).find (engineId, field) := by
  rw [fallbackMetadata, fallbackMetadata, Keyed.find_gather_setDefault, Keyed.find_gather_setDefault,
    filter_flatMap_fileItems filesOne, filter_flatMap_fileItems filesTwo]
  have sameItems : ∀ event ∈ ((attributedEvents events).filter fun event =>
        !completeSession (timelineSession event)).filter (·.engineId = engineId),
      fileItems filesOne event = fileItems filesTwo event := by
    intro event member
    obtain ⟨incomplete, own⟩ := List.mem_filter.mp member
    obtain ⟨attributed, lacks⟩ := List.mem_filter.mp incomplete
    rw [fileItems, fileItems, agree.files event (List.mem_of_mem_filter attributed)
      (of_decide_eq_true own) ((Bool.not_eq_true' _).mp lacks)]
  rw [List.flatMap_congr sameItems]

/-- What is known of an engine agrees. -/
theorem SourcesAgree.metadata
    (agree : SourcesAgree icontains events one two filesOne filesTwo engineId) (field : LabelField) :
    (sourceMetadata icontains keyText one filesOne events).find (engineId, field) =
      (sourceMetadata icontains keyText two filesTwo events).find (engineId, field) := by
  rw [sourceMetadata, sourceMetadata, Keyed.find_gather_setDefault, Keyed.find_gather_setDefault,
    List.filter_append, List.filter_append, filter_flatMap_contextItems, agree.rows,
    ← filter_flatMap_contextItems, Keyed.filter_key, Keyed.filter_key, agree.fallback]

theorem SourcesAgree.label
    (agree : SourcesAgree icontains events one two filesOne filesTwo engineId) :
    engineLabel icontains keyText one filesOne events engineId =
      engineLabel icontains keyText two filesTwo events engineId := by
  rw [engineLabel, engineLabel]
  simp only [agree.metadata]

/-- The entry of an engine agrees. -/
theorem SourcesAgree.engines
    (agree : SourcesAgree icontains events one two filesOne filesTwo engineId) (upper : Str → Str) :
    (labelledEngines icontains keyText upper one filesOne events).filter (·.engineId = engineId) =
      (labelledEngines icontains keyText upper two filesTwo events).filter
        (·.engineId = engineId) := by
  rw [labelledEngines, labelledEngines, List.filter_map, List.filter_map]
  refine List.map_congr_left fun entry member => ?_
  have own : entry.1.engineId = engineId := of_decide_eq_true (List.mem_filter.mp member).2
  rw [labelledEngine, labelledEngine, own, agree.label]

/-- Platform and hardware come from the sessions in view, or from the files of events without one. -/
theorem metadataIsolated (icontains : Str → Str → Bool) (keyText : Dict → Str → Option Str)
    (upper : Str → Str) : MetadataIsolated icontains keyText upper := by
  constructor
  · exact perm_sessionSourceContexts
  · intro one two filesOne filesTwo events engineId agree field
    exact agree.metadata field
  · intro one two filesOne filesTwo events engineId agree
    exact agree.engines upper

/-- An event of a session, with a platform in its source. -/
def sessionEvent (id : Nat) (session platform : Str) : AuditEvent :=
  let action := userAction id id []
  { action with
    schemaVersion := SCHEMA_VERSION
    accountRef := lit "account"
    recorderSessionId := session
    normalized := if platform = [] then [] else
      [(lit "context_source", .dict [(lit "platform", .str platform)])] }

/-- The start of the session in view, and of another one. -/
def startedSessions : RetainedEvidence where
  events := [sessionEvent 1 (lit "s2") (lit "android"), sessionEvent 2 (lit "s1") (lit "ios")]
  validationError := fun _ => []
  ids := by decide

/-- The platform is that of the own session, and neither the other session's nor the file's. -/
example : engineLabel asciiContains textOfKey startedSessions
    (fun _ => ⟨[], lit "model", lit "file", [], [], []⟩) [sessionEvent 3 (lit "s1") []] (lit "aa") =
      lit "ios / aa" := by decide +kernel

end Isolated

end Goggles
