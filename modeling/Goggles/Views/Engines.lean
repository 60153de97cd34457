/-
Module: Goggles.Views.Engines
Purpose: The engines of a group, with the accounts and the sources of each: they account for the events
  of the group.
Trusted boundary: forensics/views.py, `group_engine_rows` to `engine_sensitive_field_paths`.  `str.upper`
  and the text of a JSON key are parameters; texts are ordered by code point; every stored file is valid,
  so the exclusion of quarantined files keeps all events
Main exports: EngineRow, groupEngineRows, engineSourceValues, EventsRecorded, EngineTold, EnginesAccount,
  groupEngines_account
-/
import Goggles.Timeline.Engines
import Goggles.Views.GroupExport
import Mathlib.Algebra.BigOperators.Group.List.Lemmas

namespace Goggles

/-! ### Sources of engines -/

/-- A line of `ENGINE_SOURCE_FIELD_MAP`. -/
inductive EngineSourceField where
  | hardwareModels
  | deviceIds
  | platforms
  | appVersions
  | uploadTriggers
deriving Repr, DecidableEq

def ENGINE_SOURCE_FIELD_MAP : List EngineSourceField :=
  [.hardwareModels, .deviceIds, .platforms, .appVersions, .uploadTriggers]

/-- The column of a file. -/
def SourceMetadata.sourceField (source : SourceMetadata) : EngineSourceField → Str
  | .hardwareModels => source.hardwareModel
  | .deviceIds => source.deviceId
  | .platforms => source.platform
  | .appVersions => source.appVersion
  | .uploadTriggers => source.uploadTrigger

/-- The key in a source context. -/
def EngineSourceField.contextKey : EngineSourceField → Str
  | .hardwareModels => lit "hardware_model"
  | .deviceIds => lit "device_id"
  | .platforms => lit "platform"
  | .appVersions => lit "app_version"
  | .uploadTriggers => lit "upload_trigger"

/-- What was added to the sets of an engine. -/
structure EngineValues where
  accountRefs : List Str
  sources : List (EngineSourceField × Str)
deriving Repr, DecidableEq

/-- `empty_engine_source_metadata`. -/
def emptyEngineSourceMetadata : EngineValues := ⟨[], []⟩

/-- `append_engine_source_value`, for each field. -/
def EngineValues.append (values : EngineValues) (source : EngineSourceField → Option Str) :
    EngineValues :=
  { values with
    sources := values.sources ++ ENGINE_SOURCE_FIELD_MAP.filterMap fun field =>
      ((source field).filter (· ≠ [])).map (field, ·) }

/-- The values of a field, sorted. -/
def EngineValues.field (values : EngineValues) (field : EngineSourceField) : List Str :=
  inOrder id ((values.sources.filter (·.1 = field)).map Prod.snd).dedup

/-- The stored events, of files that are all valid.  Primary keys differ. -/
def Store.retained (store : Store) : RetainedEvidence :=
  if ids : (store.events.map (·.id)).Nodup then ⟨store.events, fun _ => [], ids⟩
  else ⟨[], fun _ => [], List.nodup_nil⟩

section Sources

variable (keyText : Dict → Str → Option Str) (store : Store) (groupId : Nat) (engineIds : List Str)

/-- `session_rows`. -/
def engineSessionRows : List (Nat × RecorderSession) :=
  (((store.groupEvents groupId).filter fun event =>
    event.schemaVersion = SCHEMA_VERSION && engineIds.contains event.engineId).map fun event =>
      (event.auditFileId, event.session)).dedup

/-- The loop over the engines of a file.  A file all of whose sessions are complete gives no values. -/
def addFileValues (rows : List (Nat × RecorderSession)) (values : Keyed Str EngineValues)
    (file : AuditFile) : Keyed Str EngineValues :=
  let sessionFiles := (rows.filter fun row => completeSession row.2).map Prod.fst
  let fallbackFiles := (rows.filter fun row => !completeSession row.2).map Prod.fst
  (file.metadata.engineIds.filter fun engineId =>
    engineId ≠ [] && engineIds.contains engineId).foldl (fun values engineId =>
      values.upsert engineId fun found =>
        let known := found.getD emptyEngineSourceMetadata
        if sessionFiles.contains file.id && !fallbackFiles.contains file.id then known
        else known.append fun field => some (file.source.sourceField field)) values

/-- The account of a session, for an engine that is known. -/
def addSessionAccount (values : Keyed Str EngineValues) (session : RecorderSession) :
    Keyed Str EngineValues :=
  if session.2.1 ≠ [] && (values.find session.1).isSome then
    values.upsert session.1 fun found =>
      let known := found.getD emptyEngineSourceMetadata
      { known with accountRefs := known.accountRefs ++ [session.2.1] }
  else values

/-- The source context of a session. -/
def addSessionSource (values : Keyed Str EngineValues) (row : Str × List (Str × Option Str)) :
    Keyed Str EngineValues :=
  values.upsert row.1 fun found =>
    (found.getD emptyEngineSourceMetadata).append fun field => (row.2.lookup field.contextKey).join

/-- `engine_source_values`.  No file has a validation error that could contain a text. -/
def engineSourceValues : Keyed Str EngineValues :=
  if engineIds = [] then .empty
  else
    let rows := engineSessionRows store groupId engineIds
    let files := store.files.filter fun file => decide (groupId ∈ file.groups)
    let sessions := rows.map Prod.snd
    let byFile := files.foldl (addFileValues engineIds rows) .empty
    (sessionSourceContexts (fun _ _ => false) keyText store.retained sessions).foldl addSessionSource
      (sessions.foldl addSessionAccount byFile)

end Sources

/-! ### The engines of a group -/

/-- What the database aggregates for an engine. -/
structure EngineStats where
  engineId : Str
  eventCount : Nat
  firstEventMs : Option Nat
  lastEventMs : Option Nat
  accountRef : Str
deriving Repr, DecidableEq

/-- The aggregate of an engine. -/
def engineStat (events : List AuditEvent) (engineId : Str) : EngineStats :=
  let own := events.filter (·.engineId = engineId)
  { engineId := engineId
    eventCount := own.length
    firstEventMs := (own.filterMap (·.wallTimeMs)).min?
    lastEventMs := (own.filterMap (·.wallTimeMs)).max?
    accountRef := (own.map (·.accountRef)).min?.getD [] }

/-- The aggregates, in order. -/
def engineStats (events : List AuditEvent) : List EngineStats :=
  inOrder (fun row => toLex (row.firstEventMs.isNone, toLex (row.firstEventMs.getD 0, row.engineId)))
    (((events.map (·.engineId)).filter (· ≠ [])).dedup.map (engineStat events))

/-- A row of `group_engine_rows`. -/
structure EngineRow where
  engineId : Str
  accountRef : Str
  accountRefs : List Str
  label : Str
  sourceMetadata : EngineValues
  colorIndex : Nat
  firstEventMs : Option Nat
  lastEventMs : Option Nat
  eventCount : Nat
  sensitivity : Sensitivity
  idx : Nat
  short : Str
  initials : Str
deriving Repr, DecidableEq

/-- `engine_display_label`. -/
def engineDisplayLabel (metadata : EngineValues) (engineId : Str) : Str :=
  (lit " / ").intercalate
    ([(metadata.field .platforms).headD [], (metadata.field .hardwareModels).headD [],
      engineId.take 12].filter (· ≠ []))

/-- `engine_sensitive_field_paths`. -/
def engineSensitiveFieldPaths (metadata : EngineValues) : List Str :=
  lit "engine_id" ::
    ((if metadata.accountRefs ≠ [] then [lit "account_refs"] else []) ++
      if metadata.field .deviceIds ≠ [] then [lit "source_metadata." ++ lit "device_ids"] else [])

section Rows

variable (keyText : Dict → Str → Option Str) (upper : Str → Str) (store : Store) (groupId : Nat)

/-- The row of an aggregate at its place. -/
def engineRow (values : Keyed Str EngineValues) (entry : EngineStats × Nat) : EngineRow :=
  let row := entry.1
  let metadata := (values.find row.engineId).getD emptyEngineSourceMetadata
  let label := engineDisplayLabel metadata row.engineId
  let accountRefs := sortedTexts (row.accountRef :: metadata.accountRefs)
  { engineId := row.engineId
    accountRef := if row.accountRef ≠ [] then row.accountRef else accountRefs.headD []
    accountRefs := accountRefs
    label := label
    sourceMetadata := metadata
    colorIndex := colorIndex row.engineId
    firstEventMs := row.firstEventMs
    lastEventMs := row.lastEventMs
    eventCount := row.eventCount
    sensitivity := sensitivityPayload (engineSensitiveFieldPaths metadata) []
    idx := entry.2
    short := row.engineId.take 8
    initials := engineInitials upper label row.engineId }

/-- `group_engine_rows`. -/
def groupEngineRows (limit : Option Nat) : List EngineRow :=
  let stats := engineStats (store.groupEvents groupId)
  let rows := (limit.map stats.take).getD stats
  rows.zipIdx.map (engineRow upper
    (engineSourceValues keyText store groupId (rows.map (·.engineId))))

/-- `engine_overflow_count`, of a preview of so many engines. -/
def engineOverflowCount (limit : Nat) : Nat :=
  (groupSummaryHeader store groupId).engineCount -
    (groupEngineRows keyText upper store groupId (some limit)).length

end Rows

/-! ### Stored events and their files -/

/-- An event has the version of the schema and a time within its bound, and its engine is among those of
its file. -/
structure RecordedEvent (files : List AuditFile) (event : AuditEvent) : Prop where
  version : event.schemaVersion = SCHEMA_VERSION
  dated : ∃ ms ≤ MAX_WALL_TIME_MS, event.wallTimeMs = some ms
  listed : ∃ file ∈ files, file.id = event.auditFileId ∧ event.engineId ∈ file.metadata.engineIds

/-- Every event is recorded. -/
def EventsRecorded (store : Store) : Prop :=
  ∀ event ∈ store.events, RecordedEvent store.files event

theorem eventValues_version {line : ParsedLine} (accepted : AcceptedLine line) (eventId fileId : Nat)
    (groupId : Option Nat) :
    (eventValues eventId fileId groupId line).schemaVersion = SCHEMA_VERSION := by
  obtain ⟨data, found, -⟩ := accepted.source
  rw [← accepted.version]
  simp [eventValues, found]

theorem eventValues_engineId_mem {lines : List ParsedLine} {line : ParsedLine} (member : line ∈ lines)
    (accepted : AcceptedLine line) (eventId fileId : Nat) (groupId : Option Nat) :
    (eventValues eventId fileId groupId line).engineId ∈ (fileMetadata lines).engineIds := by
  have sound := accepted.sound eventId fileId groupId
  obtain ⟨data, found, -⟩ := accepted.source
  have clean : line.errors = [] := by simpa [eventValues] using sound.valid
  have named := sound.engine
  simp only [eventValues, found, Option.isSome_some, if_true] at named ⊢
  simp only [fileMetadata, sortedTexts, mem_inOrder, List.mem_dedup, List.mem_filter]
  exact ⟨List.mem_map_of_mem (List.mem_filter.mpr ⟨member, decide_eq_true clean⟩),
    decide_eq_true named⟩

theorem eventValues_dated {line : ParsedLine} (accepted : AcceptedLine line) (eventId fileId : Nat)
    (groupId : Option Nat) :
    ∃ ms ≤ MAX_WALL_TIME_MS, (eventValues eventId fileId groupId line).wallTimeMs = some ms := by
  obtain ⟨data, found, clean, normalized⟩ := accepted.source
  obtain ⟨kind, kindType, variant, classified, fits⟩ := classified_of_clean clean
  obtain ⟨ms, timeFound, within⟩ := fits.wallTimeMs
  have read : line.normalized.get "wall_time_ms" =
      intOrNull (valueIfInt (data.get "wall_time_ms")) := by
    rw [normalized, normalizeEvent_get_envelope classified fits (by decide)]
    rfl
  refine ⟨ms, within, ?_⟩
  simp [eventValues, found, ParsedLine.number, read, timeFound]

theorem Serial.eventsRecorded {env : Env} {done : List Upload} {store : Store}
    (serial : Serial env done store) : EventsRecorded store := by
  induction serial with
  | empty =>
      intro event member
      cases member
  | @upload done store upload rawText lines fileId resolved new next before committed
      inductionHypothesis =>
      intro event member
      rw [committed.events] at member
      rw [committed.files]
      rcases List.mem_append.mp member with old | added
      · have recorded := inductionHypothesis event old
        obtain ⟨file, fileMember, owner, listed⟩ := recorded.listed
        exact ⟨recorded.version, recorded.dated,
          file, List.mem_append_left _ fileMember, owner, listed⟩
      · obtain ⟨line, lineMember, made⟩ := committed.origin added
        have accepted := committed.accepted line lineMember
        rw [made]
        exact ⟨eventValues_version accepted _ _ _, eventValues_dated accepted _ _ _, _,
          List.mem_append_right _ (List.mem_singleton.mpr rfl), rfl,
          eventValues_engineId_mem lineMember accepted _ _ _⟩
  | rebuild before rebuilt inductionHypothesis => exact inductionHypothesis
  | rejection upload rejected before inductionHypothesis => exact inductionHypothesis
  | sequences before groups files events inductionHypothesis => exact inductionHypothesis

/-! ### The accounts of an engine -/

section Accounts

variable {values : Keyed Str EngineValues} {engineIds : List Str}

/-- The accounts in the values of an engine. -/
def accountsIn (values : Keyed Str EngineValues) (engineId : Str) : List Str :=
  ((values.find engineId).getD emptyEngineSourceMetadata).accountRefs

/-- A change of the values of an engine that leaves its accounts. -/
theorem accountsIn_upsert {name : Str} {change : Option EngineValues → EngineValues}
    (keeps : ∀ found, (change found).accountRefs =
      (found.getD emptyEngineSourceMetadata).accountRefs) (engineId : Str) :
    accountsIn (values.upsert name change) engineId = accountsIn values engineId := by
  rw [accountsIn, Keyed.find_upsert]
  split
  · next same =>
      rw [Option.getD_some, keeps, same]
      rfl
  · rfl

theorem isSome_find_upsert (name : Str) (change : Option EngineValues → EngineValues) (engineId : Str) :
    ((values.upsert name change).find engineId).isSome = true ↔
      engineId = name ∨ (values.find engineId).isSome = true := by
  rw [Keyed.find_upsert]
  split
  · next same => simp [same]
  · next other => simp [other]

/-- A file names its engines, and gives them no accounts. -/
theorem addFileValues_facts (rows : List (Nat × RecorderSession)) (file : AuditFile)
    (engineId : Str) :
    accountsIn (addFileValues engineIds rows values file) engineId = accountsIn values engineId ∧
      (((addFileValues engineIds rows values file).find engineId).isSome = true ↔
        (values.find engineId).isSome = true ∨
          engineId ∈ file.metadata.engineIds ∧ engineId ≠ [] ∧ engineId ∈ engineIds) := by
  rw [addFileValues]
  have wanted : (engineId ∈ file.metadata.engineIds ∧ engineId ≠ [] ∧ engineId ∈ engineIds) ↔
      engineId ∈ file.metadata.engineIds.filter fun engineId =>
        engineId ≠ [] && engineIds.contains engineId := by
    simp [List.mem_filter]
  rw [wanted]
  generalize (file.metadata.engineIds.filter fun engineId =>
    engineId ≠ [] && engineIds.contains engineId) = names
  induction names generalizing values with
  | nil => simp
  | cons name rest inductionHypothesis =>
      rw [List.foldl_cons]
      obtain ⟨accounts, known⟩ := @inductionHypothesis (values.upsert name _)
      refine ⟨accounts.trans (accountsIn_upsert ?_ engineId), known.trans ?_⟩
      · intro found
        dsimp only
        split <;> rfl
      · rw [isSome_find_upsert, List.mem_cons]
        tauto

/-- A session gives its account to an engine that is known, and names none. -/
theorem addSessionAccount_facts (session : RecorderSession) (engineId account : Str) :
    (account ∈ accountsIn (addSessionAccount values session) engineId ↔
        account ∈ accountsIn values engineId ∨
          (values.find engineId).isSome = true ∧ engineId = session.1 ∧ account = session.2.1 ∧
            account ≠ []) ∧
      (((addSessionAccount values session).find engineId).isSome = true ↔
        (values.find engineId).isSome = true) := by
  rw [addSessionAccount]
  split
  · next given =>
      rw [Bool.and_eq_true, decide_eq_true_eq] at given
      obtain ⟨filled, known⟩ := given
      constructor
      · rw [accountsIn, Keyed.find_upsert]
        split
        · next same =>
            subst same
            simp only [Option.getD_some, List.mem_append, List.mem_singleton, accountsIn, known,
              true_and]
            constructor
            · rintro (old | rfl)
              · exact .inl old
              · exact .inr ⟨rfl, filled⟩
            · rintro (old | ⟨rfl, -⟩)
              · exact .inl old
              · exact .inr rfl
        · next other => simp [accountsIn, other]
      · rw [isSome_find_upsert]
        constructor
        · rintro (rfl | old)
          · exact known
          · exact old
        · exact .inr
  · next nothing =>
      refine ⟨⟨.inl, ?_⟩, Iff.rfl⟩
      rintro (old | ⟨known, rfl, rfl, filled⟩)
      · exact old
      · exact absurd (by simp [filled, known]) nothing

theorem accountsIn_addSessionSource (row : Str × List (Str × Option Str)) (engineId : Str) :
    accountsIn (addSessionSource values row) engineId = accountsIn values engineId := by
  apply accountsIn_upsert
  intro found
  rfl

theorem accountsIn_addSessionSources (rows : List (Str × List (Str × Option Str))) (engineId : Str) :
    accountsIn (rows.foldl addSessionSource values) engineId = accountsIn values engineId := by
  induction rows generalizing values with
  | nil => rfl
  | cons row rest inductionHypothesis =>
      exact inductionHypothesis.trans (accountsIn_addSessionSource row engineId)

theorem addFiles_facts (rows : List (Nat × RecorderSession)) (files : List AuditFile)
    (engineId : Str) :
    accountsIn (files.foldl (addFileValues engineIds rows) values) engineId =
        accountsIn values engineId ∧
      (((files.foldl (addFileValues engineIds rows) values).find engineId).isSome = true ↔
        (values.find engineId).isSome = true ∨ ∃ file ∈ files,
          engineId ∈ file.metadata.engineIds ∧ engineId ≠ [] ∧ engineId ∈ engineIds) := by
  induction files generalizing values with
  | nil => simp
  | cons file rest inductionHypothesis =>
      obtain ⟨accounts, known⟩ := @inductionHypothesis (addFileValues engineIds rows values file)
      obtain ⟨sameAccounts, step⟩ := @addFileValues_facts values engineIds rows file engineId
      refine ⟨accounts.trans sameAccounts, known.trans ?_⟩
      rw [step, List.exists_mem_cons_iff]
      exact or_assoc

theorem mem_accountsIn_addSessions (sessions : List RecorderSession) (engineId account : Str) :
    account ∈ accountsIn (sessions.foldl addSessionAccount values) engineId ↔
      account ∈ accountsIn values engineId ∨
        (values.find engineId).isSome = true ∧ account ≠ [] ∧
          ∃ session ∈ sessions, session.1 = engineId ∧ session.2.1 = account := by
  induction sessions generalizing values with
  | nil => simp
  | cons session rest inductionHypothesis =>
      obtain ⟨accounts, known⟩ := @addSessionAccount_facts values session engineId account
      rw [List.foldl_cons, inductionHypothesis, accounts, known, List.exists_mem_cons_iff]
      constructor
      · rintro ((old | ⟨isKnown, rfl, rfl, filled⟩) | ⟨isKnown, filled, later⟩)
        · exact .inl old
        · exact .inr ⟨isKnown, filled, .inl ⟨rfl, rfl⟩⟩
        · exact .inr ⟨isKnown, filled, .inr later⟩
      · rintro (old | ⟨isKnown, filled, ⟨rfl, rfl⟩ | later⟩)
        · exact .inl (.inl old)
        · exact .inl (.inr ⟨isKnown, rfl, rfl, filled⟩)
        · exact .inr ⟨isKnown, filled, later⟩

/-- The accounts in the values of an engine of the group are those of its events. -/
theorem mem_accountsIn_engineSourceValues {store : Store} {groupId : Nat} (formed : WellFormed store)
    (filed : EventsFiled store) (recorded : EventsRecorded store)
    (keyText : Dict → Str → Option Str) {engineId : Str} (wanted : engineId ∈ engineIds)
    (account : Str) :
    account ∈ accountsIn (engineSourceValues keyText store groupId engineIds) engineId ↔
      account ≠ [] ∧ ∃ event ∈ store.groupEvents groupId,
        event.engineId = engineId ∧ event.accountRef = account := by
  have something : engineIds ≠ [] := List.ne_nil_of_mem wanted
  rw [engineSourceValues, if_neg something]
  dsimp only
  rw [accountsIn_addSessionSources, mem_accountsIn_addSessions]
  obtain ⟨noAccounts, known⟩ := @addFiles_facts .empty engineIds
    (engineSessionRows store groupId engineIds)
    (store.files.filter fun file => decide (groupId ∈ file.groups)) engineId
  rw [noAccounts, known]
  have session_iff : (∃ session ∈ (engineSessionRows store groupId engineIds).map Prod.snd,
      session.1 = engineId ∧ session.2.1 = account) ↔ ∃ event ∈ store.groupEvents groupId,
        event.engineId = engineId ∧ event.accountRef = account := by
    simp only [engineSessionRows, List.mem_map, List.mem_dedup, List.mem_filter, Bool.and_eq_true,
      decide_eq_true_eq, List.contains_iff_mem]
    constructor
    · rintro ⟨session, ⟨row, ⟨event, ⟨member, -, -⟩, rfl⟩, rfl⟩, engine, ofAccount⟩
      exact ⟨event, member, engine, ofAccount⟩
    · rintro ⟨event, member, rfl, rfl⟩
      have version := (recorded event (List.mem_of_mem_filter member)).version
      exact ⟨event.session, ⟨(event.auditFileId, event.session),
        ⟨event, ⟨member, version, wanted⟩, rfl⟩, rfl⟩, rfl, rfl⟩
  rw [session_iff]
  constructor
  · rintro (impossible | ⟨-, filled, told⟩)
    · cases impossible
    · exact ⟨filled, told⟩
  · rintro ⟨filled, event, member, rfl, ofAccount⟩
    refine .inr ⟨.inr ?_, filled, event, member, rfl, ofAccount⟩
    -- the file that lists the engine is the one in the group, by its id
    have stored := List.mem_of_mem_filter member
    obtain ⟨file, fileMember, owner, listed⟩ := (recorded event stored).listed
    obtain ⟨other, otherMember, otherOwner, inGroup⟩ :=
      filed event stored groupId (AuditEvent.countsFor_iff.mp (List.mem_filter.mp member).2).1
    have same : file = other :=
      List.inj_on_of_nodup_map formed.fileIds fileMember otherMember (owner.trans otherOwner.symm)
    subst same
    exact ⟨file, List.mem_filter.mpr ⟨fileMember, decide_eq_true inGroup⟩, listed,
      (formed.sound event stored).engine, wanted⟩

end Accounts

/-! ### The engines of a group -/

section Stats

variable {events : List AuditEvent}

theorem mem_engineStats {row : EngineStats} : row ∈ engineStats events ↔
    row.engineId ≠ [] ∧ (∃ event ∈ events, event.engineId = row.engineId) ∧
      row = engineStat events row.engineId := by
  simp only [engineStats, mem_inOrder, List.mem_map, List.mem_dedup, List.mem_filter,
    decide_eq_true_eq]
  constructor
  · rintro ⟨engineId, ⟨⟨event, member, rfl⟩, filled⟩, rfl⟩
    exact ⟨filled, ⟨event, member, rfl⟩, rfl⟩
  · rintro ⟨filled, ⟨event, member, same⟩, made⟩
    exact ⟨row.engineId, ⟨⟨event, member, same⟩, filled⟩, made.symm⟩

theorem map_engineId_engineStats : ((engineStats events).map (·.engineId)).Perm
    ((events.map (·.engineId)).filter (· ≠ [])).dedup := by
  refine ((perm_inOrder _ _).map _).trans ?_
  rw [List.map_map]
  exact .of_eq (List.map_id _)

/-- The counts of the engines add up. -/
theorem sum_eventCount_engineStats : ((engineStats events).map (·.eventCount)).sum =
    ((events.map (·.engineId)).filter (· ≠ [])).length := by
  rw [engineStats, ((perm_inOrder _ _).map EngineStats.eventCount).sum_eq, List.map_map,
    ← List.sum_map_count_dedup_eq_length]
  refine congrArg List.sum (List.map_congr_left fun engineId member => ?_)
  have filled : engineId ≠ [] :=
    of_decide_eq_true (List.mem_filter.mp (List.mem_dedup.mp member)).2
  unfold List.count
  rw [List.countP_filter, List.countP_map, List.countP_eq_length_filter]
  refine congrArg List.length (List.filter_congr fun event _ => ?_)
  show decide (event.engineId = engineId) =
    (decide (event.engineId = engineId) && decide (event.engineId ≠ []))
  rw [← Bool.decide_and, decide_eq_decide]
  exact ⟨fun ofEngine => ⟨ofEngine, ofEngine ▸ filled⟩, And.left⟩

/-- The least and the greatest time of an engine bound the times of its events. -/
theorem engineStat_window {engineId : Str} (timed : ∀ event ∈ events, ∃ ms, event.wallTimeMs = some ms)
    (listed : ∃ event ∈ events, event.engineId = engineId) :
    ∃ first last, (engineStat events engineId).firstEventMs = some first ∧
      (engineStat events engineId).lastEventMs = some last ∧
      IsLeast {ms | ∃ event ∈ events, event.engineId = engineId ∧ event.wallTimeMs = some ms} first ∧
      IsGreatest {ms | ∃ event ∈ events, event.engineId = engineId ∧ event.wallTimeMs = some ms}
        last := by
  have times : {ms | ms ∈ (events.filter (·.engineId = engineId)).filterMap (·.wallTimeMs)} =
      {ms | ∃ event ∈ events, event.engineId = engineId ∧ event.wallTimeMs = some ms} := by
    ext ms
    simp [List.mem_filterMap, and_assoc]
  have something : (events.filter (·.engineId = engineId)).filterMap (·.wallTimeMs) ≠ [] := by
    obtain ⟨event, member, ofEngine⟩ := listed
    obtain ⟨ms, found⟩ := timed event member
    exact List.ne_nil_of_mem (List.mem_filterMap.mpr
      ⟨event, List.mem_filter.mpr ⟨member, decide_eq_true ofEngine⟩, found⟩)
  rw [← times]
  simp only [engineStat]
  generalize (events.filter (·.engineId = engineId)).filterMap (·.wallTimeMs) = instants at something
  obtain ⟨first, least⟩ := Option.ne_none_iff_exists'.mp (mt List.min?_eq_none_iff.mp something)
  obtain ⟨last, greatest⟩ := Option.ne_none_iff_exists'.mp (mt List.max?_eq_none_iff.mp something)
  exact ⟨first, last, least, greatest, List.min?_eq_some_iff.mp least,
    List.max?_eq_some_iff.mp greatest⟩

end Stats

section Account

variable (store : Store) (groupId : Nat)

/-- The times of the events of an engine in a group. -/
def engineTimes (engineId : Str) : Set Nat :=
  {ms | ∃ event ∈ store.events, event.groupId = some groupId ∧ event.engineId = engineId ∧
    event.wallTimeMs = some ms}

/-- The accounts that the events of an engine in a group name. -/
def engineAccounts (engineId : Str) : Set Str :=
  {account | account ≠ [] ∧ ∃ event ∈ store.events, event.groupId = some groupId ∧
    event.engineId = engineId ∧ event.accountRef = account}

/-- A row tells of its engine what the events of the group do. -/
structure EngineTold (row : EngineRow) : Prop where
  eventCount : row.eventCount = store.events.countP fun event =>
    event.groupId = some groupId ∧ event.engineId = row.engineId
  window : ∃ first last, row.firstEventMs = some first ∧ row.lastEventMs = some last ∧
    IsLeast (engineTimes store groupId row.engineId) first ∧
    IsGreatest (engineTimes store groupId row.engineId) last
  accounts : ∀ account, account ∈ row.accountRefs ↔
    account ∈ engineAccounts store groupId row.engineId
  account : row.accountRef = row.accountRefs.headD []

/-- The rows of engines account for the events of a group, and agree with its summary. -/
structure EnginesAccount (keyText : Dict → Str → Option Str) (upper : Str → Str) : Prop where
  listed : ∀ engineId, engineId ∈
      (groupEngineRows keyText upper store groupId none).map (·.engineId) ↔
    ∃ event ∈ store.events, event.groupId = some groupId ∧ event.engineId = engineId
  once : ((groupEngineRows keyText upper store groupId none).map (·.engineId)).Nodup
  ordered : (groupEngineRows keyText upper store groupId none).Pairwise fun one two =>
    toLex (one.firstEventMs.getD 0, one.engineId) ≤ toLex (two.firstEventMs.getD 0, two.engineId)
  engineCount : (groupEngineRows keyText upper store groupId none).length =
    (groupSummaryHeader store groupId).engineCount
  eventCount : ((groupEngineRows keyText upper store groupId none).map (·.eventCount)).sum =
    (groupSummaryHeader store groupId).eventCount
  told : ∀ limit, ∀ row ∈ groupEngineRows keyText upper store groupId limit,
    EngineTold store groupId row
  preview : ∀ limit, (groupEngineRows keyText upper store groupId (some limit)).map (·.engineId) =
    ((groupEngineRows keyText upper store groupId none).map (·.engineId)).take limit
  overflow : ∀ limit, (groupEngineRows keyText upper store groupId (some limit)).length +
      engineOverflowCount keyText upper store groupId limit =
    (groupSummaryHeader store groupId).engineCount

end Account

/-- The head of a list in order is its least member. -/
theorem headD_of_sorted {texts : List Str} (sorted : texts.Pairwise (· ≤ ·)) {least : Str}
    (member : least ∈ texts) (below : ∀ text ∈ texts, least ≤ text) (default : Str) :
    texts.headD default = least := by
  cases texts with
  | nil => cases member
  | cons head rest =>
      have above : head ≤ least := by
        rcases List.mem_cons.mp member with same | later
        · exact same.ge
        · exact (List.pairwise_cons.mp sorted).1 least later
      exact le_antisymm above (below head List.mem_cons_self)

theorem mem_sortedTexts {texts : List Str} {text : Str} :
    text ∈ sortedTexts texts ↔ text ∈ texts ∧ text ≠ [] := by
  simp [sortedTexts]

section Rows

variable {store : Store} {groupId : Nat} (keyText : Dict → Str → Option Str) (upper : Str → Str)

theorem mem_groupEvents_iff (sound : ∀ event ∈ store.events, event.parseStatus = .valid)
    {event : AuditEvent} :
    event ∈ store.groupEvents groupId ↔ event ∈ store.events ∧ event.groupId = some groupId := by
  rw [Store.groupEvents, validGroupEvents, List.mem_filter, AuditEvent.countsFor_iff]
  exact ⟨fun found => ⟨found.1, found.2.1⟩, fun found => ⟨found.1, found.2, sound event found.1⟩⟩

/-- The aggregates that a limit leaves. -/
def limitedStats (store : Store) (groupId : Nat) (limit : Option Nat) : List EngineStats :=
  (limit.map (engineStats (store.groupEvents groupId)).take).getD
    (engineStats (store.groupEvents groupId))

theorem limitedStats_subset {limit : Option Nat} {row : EngineStats}
    (member : row ∈ limitedStats store groupId limit) :
    row ∈ engineStats (store.groupEvents groupId) := by
  cases limit with
  | none => exact member
  | some limit => exact List.mem_of_mem_take member

/-- A column of the rows that is one of the aggregates. -/
theorem map_groupEngineRows {α : Type*} (column : EngineRow → α) (aggregate : EngineStats → α)
    (read : ∀ values entry, column (engineRow upper values entry) = aggregate entry.1)
    (limit : Option Nat) :
    (groupEngineRows keyText upper store groupId limit).map column =
      (limitedStats store groupId limit).map aggregate := by
  rw [groupEngineRows, List.map_map]
  show (limitedStats store groupId limit).zipIdx.map _ = _
  rw [show (column ∘ engineRow upper _ : EngineStats × Nat → α) = aggregate ∘ Prod.fst from
    funext fun entry => read _ entry, ← List.map_map, List.zipIdx_map_fst]

/-- A row is that of an aggregate. -/
theorem exists_engineStat {limit : Option Nat} {row : EngineRow}
    (member : row ∈ groupEngineRows keyText upper store groupId limit) :
    ∃ idx, row.engineId ∈ (limitedStats store groupId limit).map (·.engineId) ∧
      row = engineRow upper (engineSourceValues keyText store groupId
        ((limitedStats store groupId limit).map (·.engineId)))
          (engineStat (store.groupEvents groupId) row.engineId, idx) := by
  obtain ⟨⟨stat, idx⟩, entryMember, rfl⟩ := List.mem_map.mp member
  have statMember : stat ∈ limitedStats store groupId limit := List.fst_mem_of_mem_zipIdx entryMember
  obtain ⟨-, -, made⟩ := mem_engineStats.mp (limitedStats_subset statMember)
  refine ⟨idx, List.mem_map_of_mem statMember, ?_⟩
  show engineRow upper _ (stat, idx) = engineRow upper _ (engineStat _ stat.engineId, idx)
  rw [← made]
  rfl

/-- The least account of the events of an engine, where every event names one, is among the others. -/
theorem accountRef_engineStat {events : List AuditEvent} {engineId : Str}
    (filled : (engineStat events engineId).accountRef ≠ []) :
    (∃ event ∈ events, event.engineId = engineId ∧
        event.accountRef = (engineStat events engineId).accountRef) ∧
      ∀ event ∈ events, event.engineId = engineId →
        (engineStat events engineId).accountRef ≤ event.accountRef := by
  simp only [engineStat] at filled ⊢
  cases found : ((events.filter (·.engineId = engineId)).map (·.accountRef)).min? with
  | none =>
      rw [found] at filled
      exact absurd rfl filled
  | some least =>
      obtain ⟨listed, below⟩ := List.min?_eq_some_iff.mp found
      rw [Option.getD_some]
      constructor
      · obtain ⟨event, member, same⟩ := List.mem_map.mp listed
        obtain ⟨stored, ofEngine⟩ := List.mem_filter.mp member
        exact ⟨event, stored, of_decide_eq_true ofEngine, same⟩
      · intro event member ofEngine
        exact below _ (List.mem_map_of_mem
          (List.mem_filter.mpr ⟨member, decide_eq_true ofEngine⟩))

/-- A row tells what the events do when its values have the accounts of the events. -/
theorem engineTold_engineRow (sound : ∀ event ∈ store.events, SoundEvent event)
    {values : Keyed Str EngineValues} {engineId : Str}
    (listed : ∃ event ∈ store.groupEvents groupId, event.engineId = engineId)
    (told : ∀ account, account ∈ accountsIn values engineId ↔ account ≠ [] ∧
      ∃ event ∈ store.groupEvents groupId, event.engineId = engineId ∧ event.accountRef = account)
    (idx : Nat) : EngineTold store groupId
      (engineRow upper values (engineStat (store.groupEvents groupId) engineId, idx)) := by
  have ofGroup : ∀ event, event ∈ store.groupEvents groupId ↔
      event ∈ store.events ∧ event.groupId = some groupId :=
    fun event => mem_groupEvents_iff fun event member => (sound event member).valid
  have accounts : ∀ account, account ∈ sortedTexts
        ((engineStat (store.groupEvents groupId) engineId).accountRef :: accountsIn values engineId) ↔
      account ∈ engineAccounts store groupId engineId := by
    intro account
    rw [mem_sortedTexts, List.mem_cons, told]
    simp only [engineAccounts, ofGroup, Set.mem_ofPred_eq, and_assoc]
    constructor
    · rintro ⟨rfl | ⟨-, found⟩, filled⟩
      · obtain ⟨⟨event, member, ofEngine, same⟩, -⟩ := accountRef_engineStat filled
        obtain ⟨stored, inGroup⟩ := (ofGroup event).mp member
        exact ⟨filled, event, stored, inGroup, ofEngine, same⟩
      · exact ⟨filled, found⟩
    · rintro ⟨filled, found⟩
      exact ⟨.inr ⟨filled, found⟩, filled⟩
  refine ⟨?eventCount, ?window, accounts, ?account⟩
  case eventCount =>
    show ((store.groupEvents groupId).filter (·.engineId = engineId)).length = _
    rw [Store.groupEvents, validGroupEvents, List.filter_filter, ← List.countP_eq_length_filter]
    refine List.countP_congr fun event member => ?_
    rw [Bool.and_eq_true, AuditEvent.countsFor_iff, decide_eq_true_eq, decide_eq_true_eq]
    exact ⟨fun found => ⟨found.2.1, found.1⟩,
      fun found => ⟨found.2, found.1, (sound event member).valid⟩⟩
  case window =>
    have times : {ms | ∃ event ∈ store.groupEvents groupId, event.engineId = engineId ∧
        event.wallTimeMs = some ms} = engineTimes store groupId engineId := by
      simp only [engineTimes, ofGroup, and_assoc]
    have window := engineStat_window (fun event member =>
      (sound event ((ofGroup event).mp member).1).timed) listed
    rw [times] at window
    exact window
  case account =>
    show (if (engineStat (store.groupEvents groupId) engineId).accountRef ≠ [] then _ else _) = _
    split
    · next filled =>
        obtain ⟨-, below⟩ := accountRef_engineStat filled
        refine (headD_of_sorted (inOrder_sorted id _) ?_ (fun account member => ?_) []).symm
        · exact mem_sortedTexts.mpr ⟨List.mem_cons_self, filled⟩
        · obtain ⟨-, event, stored, inGroup, ofEngine, rfl⟩ := (accounts account).mp member
          exact below event ((ofGroup event).mpr ⟨stored, inGroup⟩) ofEngine
    · rfl

theorem engineTold_of_recorded (formed : WellFormed store) (filed : EventsFiled store)
    (recorded : EventsRecorded store) {limit : Option Nat} {row : EngineRow}
    (member : row ∈ groupEngineRows keyText upper store groupId limit) :
    EngineTold store groupId row := by
  obtain ⟨idx, wanted, made⟩ := exists_engineStat keyText upper member
  rw [made]
  apply engineTold_engineRow upper formed.sound
  · obtain ⟨stat, statMember, same⟩ := List.mem_map.mp wanted
    obtain ⟨-, listed, -⟩ := mem_engineStats.mp (limitedStats_subset statMember)
    exact same ▸ listed
  · exact mem_accountsIn_engineSourceValues formed filed recorded keyText wanted

theorem map_engineId_groupEngineRows (limit : Option Nat) :
    (groupEngineRows keyText upper store groupId limit).map (·.engineId) =
      (limitedStats store groupId limit).map (·.engineId) :=
  map_groupEngineRows keyText upper (·.engineId) (·.engineId) (fun _ _ => rfl) limit

/-- No event has a blank engine. -/
theorem filter_engineIds (formed : WellFormed store) :
    ((store.groupEvents groupId).map (·.engineId)).filter (· ≠ []) =
      (store.groupEvents groupId).map (·.engineId) := by
  apply List.filter_eq_self.mpr
  intro engineId listed
  obtain ⟨event, member, rfl⟩ := List.mem_map.mp listed
  exact decide_eq_true (formed.sound event (List.mem_of_mem_filter member)).engine

theorem perm_engineIds (formed : WellFormed store) :
    ((groupEngineRows keyText upper store groupId none).map (·.engineId)).Perm
      ((store.groupEvents groupId).map (·.engineId)).dedup := by
  rw [map_engineId_groupEngineRows, ← filter_engineIds formed]
  exact map_engineId_engineStats

theorem mem_engineIds_iff (formed : WellFormed store) {engineId : Str} :
    engineId ∈ (groupEngineRows keyText upper store groupId none).map (·.engineId) ↔
      ∃ event ∈ store.events, event.groupId = some groupId ∧ event.engineId = engineId := by
  rw [(perm_engineIds keyText upper formed).mem_iff, List.mem_dedup, List.mem_map]
  simp only [mem_groupEvents_iff fun event member => (formed.sound event member).valid, and_assoc]

theorem engineRows_sorted : (groupEngineRows keyText upper store groupId none).Pairwise
    fun one two =>
      toLex (one.firstEventMs.isNone, toLex (one.firstEventMs.getD 0, one.engineId)) ≤
        toLex (two.firstEventMs.isNone, toLex (two.firstEventMs.getD 0, two.engineId)) := by
  have columns := @map_groupEngineRows store groupId keyText upper _
    (fun row => toLex (row.firstEventMs.isNone, toLex (row.firstEventMs.getD 0, row.engineId)))
    (fun row => toLex (row.firstEventMs.isNone, toLex (row.firstEventMs.getD 0, row.engineId)))
    (fun _ _ => rfl) none
  have sorted : ((groupEngineRows keyText upper store groupId none).map fun row =>
      toLex (row.firstEventMs.isNone, toLex (row.firstEventMs.getD 0, row.engineId))).Pairwise
        (· ≤ ·) := by
    rw [columns]
    exact List.pairwise_map.mpr (inOrder_sorted _ _)
  exact List.pairwise_map.mp sorted

theorem length_engineStats : (engineStats (store.groupEvents groupId)).length =
    (groupSummaryHeader store groupId).engineCount := by
  have distinct : (store.groupEvents groupId).filterMap (fun event => nonBlank event.engineId) =
      ((store.groupEvents groupId).map (·.engineId)).filter (· ≠ []) := by
    rw [← List.filterMap_eq_filter, List.filterMap_map]
    refine List.filterMap_congr fun event _ => ?_
    by_cases blank : event.engineId = [] <;> simp [nonBlank, blank, Option.guard]
  rw [← List.length_map (·.engineId), map_engineId_engineStats.length_eq]
  show _ = (distinctValues (store.groupEvents groupId) fun event => nonBlank event.engineId).card
  rw [distinctValues, distinct, List.card_toFinset]

end Rows

/-- At every moment the engines of a group are those of its events, each once and in the order of their
first events, and a row has the number, the times and the accounts of the events of its engine. -/
theorem groupEngines_account (keyText : Dict → Str → Option Str) (upper : Str → Str) (env : Env)
    (steps : List ClusterStep) (groupId : Nat) :
    EnginesAccount (Cluster.after env steps).shared.store groupId keyText upper := by
  have serial := (cluster_guarded env steps).invariant.serial
  have formed := serial.consistent.formed
  have told := fun {limit row} => @engineTold_of_recorded _ groupId keyText upper formed
    serial.consistent.eventsFiled serial.eventsRecorded limit row
  generalize (Cluster.after env steps).shared.store = store at formed told
  have full := @map_engineId_groupEngineRows store groupId keyText upper none
  refine ⟨fun _ => mem_engineIds_iff keyText upper formed, ?once, ?ordered, ?engineCount, ?eventCount,
    fun _ _ => told, ?preview, ?overflow⟩
  case once => exact (perm_engineIds keyText upper formed).nodup_iff.mpr (List.nodup_dedup _)
  case ordered =>
    refine (engineRows_sorted keyText upper).imp_of_mem fun {one two} oneMember twoMember before => ?_
    obtain ⟨oneFirst, -, oneSome, -⟩ := (told oneMember).window
    obtain ⟨twoFirst, -, twoSome, -⟩ := (told twoMember).window
    simpa [oneSome, twoSome, Prod.Lex.toLex_le_toLex] using before
  case engineCount =>
    rw [← length_engineStats, ← List.length_map (·.engineId), full, List.length_map]
    rfl
  case eventCount =>
    rw [map_groupEngineRows keyText upper (·.eventCount) (·.eventCount) fun _ _ => rfl]
    refine sum_eventCount_engineStats.trans ?_
    rw [filter_engineIds formed, List.length_map]
    rfl
  case preview =>
    intro limit
    rw [full, map_engineId_groupEngineRows, ← List.map_take]
    rfl
  case overflow =>
    intro limit
    have within : (groupEngineRows keyText upper store groupId (some limit)).length ≤
        (groupSummaryHeader store groupId).engineCount := by
      rw [← length_engineStats, ← List.length_map (·.engineId), map_engineId_groupEngineRows,
        List.length_map]
      exact List.length_take_le' _ _
    rw [engineOverflowCount]
    omega

end Goggles
