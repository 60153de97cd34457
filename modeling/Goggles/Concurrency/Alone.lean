/-
Module: Goggles.Concurrency.Alone
Purpose: Statement after statement, with no other connection in its way, the transaction of an upload
  computes what `ingest` does at once.
Trusted boundary: none beyond the modules it imports
Main exports: Advances, RunsTo, runsTo_groupLocks, runsTo_projection, cluster_alone
-/
import Goggles.Concurrency.Safety
import Mathlib.Logic.Relation

namespace Goggles

/-! ### Statements with every resource free -/

/-- One statement, with every resource free. -/
def Advances (env : Env) (before after : Store × Ingestion) : Prop :=
  before.2.next env (fun _ => true) before.1 = .proceeds after.1 after.2

/-- Statement after statement. -/
abbrev RunsTo (env : Env) : Store × Ingestion → Store × Ingestion → Prop :=
  Relation.ReflTransGen (Advances env)

variable {env : Env} {done : List Upload} {store later : Store} {ingestion advanced : Ingestion}

/-- What a run of statements keeps. -/
structure KeptAlone (env : Env) (done : List Upload) (before after : Store × Ingestion) : Prop where
  serial : Serial env done after.1
  isolated : Isolated env after.1 after.2
  upload : after.2.upload = before.2.upload

theorem RunsTo.kept {before after : Store × Ingestion} (ran : RunsTo env before after)
    (serial : Serial env done before.1) (isolated : Isolated env before.1 before.2) :
    KeptAlone env done before after := by
  induction ran with
  | refl => exact ⟨serial, isolated, rfl⟩
  | tail _ advances kept =>
      have proceeds := next_proceeds kept.serial.consistent kept.isolated advances
      exact ⟨proceeds.drawn.serial kept.serial, proceeds.isolated, proceeds.upload.trans kept.upload⟩

/-- The lines of a transaction are those of its upload. -/
theorem Isolated.sameLines (isolated : Isolated env store ingestion)
    (other : Isolated env later advanced) (upload : advanced.upload = ingestion.upload) :
    advanced.rawText = ingestion.rawText ∧ advanced.lines = ingestion.lines := by
  have valid := other.valid
  rw [upload, isolated.valid] at valid
  simp only [Except.ok.injEq, Prod.mk.injEq] at valid
  exact ⟨valid.1.symm, valid.2.symm⟩

/-! ### Locks -/

theorem runsTo_lockNext (left : List Str) (ingestion : Ingestion) :
    RunsTo env (store, { ingestion with phase := ingestion.lockNext left })
      (store, { ingestion with
        recorderKeys := ingestion.recorderKeys ++ left.map (recorderKey env)
        phase := Ingestion.lookUpNext
          (groupKeys ingestion.upload.fallbackGroupSlug ingestion.lines) }) := by
  induction left generalizing ingestion with
  | nil =>
      rw [List.map_nil, List.append_nil]
      exact .refl
  | cons engineId rest inductionHypothesis =>
      have locked : Advances env
          (store, { ingestion with phase := ingestion.lockNext (engineId :: rest) })
          (store, { ingestion with
            recorderKeys := ingestion.recorderKeys ++ [recorderKey env engineId]
            phase := ingestion.lockNext rest }) := rfl
      have others := inductionHypothesis
        { ingestion with recorderKeys := ingestion.recorderKeys ++ [recorderKey env engineId] }
      rw [List.append_assoc] at others
      exact .head locked others

/-! ### Groups -/

theorem adoptAll_of_not_mem {adoptedRefs : List (Nat × Str)} {group : AuditGroup}
    (other : group.id ∉ adoptedRefs.map Prod.fst) : adoptAll adoptedRefs group = group := by
  induction adoptedRefs with
  | nil => rfl
  | cons entry rest inductionHypothesis =>
      rw [List.map_cons, List.mem_cons, not_or] at other
      rw [adoptAll_cons, if_neg other.1]
      exact inductionHypothesis other.2

/-- The group rows a statement of the transaction sees, with the sequence. -/
def Ingestion.table (ingestion : Ingestion) (store : Store) : GroupTable :=
  ⟨ingestion.groupRows store.groups, store.nextGroupId⟩

theorem Ingestion.groupRows_created {committed : List AuditGroup} {group : AuditGroup}
    (other : group.id ∉ ingestion.adoptedRefs.map Prod.fst) :
    Ingestion.groupRows { ingestion with createdGroups := ingestion.createdGroups ++ [group] }
        committed = ingestion.groupRows committed ++ [group] := by
  rw [Ingestion.groupRows_eq, Ingestion.groupRows_eq, ← List.append_assoc, List.map_append,
    List.map_singleton, adoptAll_of_not_mem other]

/-- No row has the reference of the key. -/
def GroupKey.Missed (key : GroupKey) (groups : List AuditGroup) : Prop :=
  ∀ value, key = .ref value → groups.find? (·.groupRef = value) = none

section ByKey

variable {table : GroupTable} {key : GroupKey} {fallbackGroupName : Str} {found : AuditGroup}

theorem groupForKey_adopts (missed : key.Missed table.groups)
    (read : table.groups.find? (·.slug = key.slugOf env) = some found)
    (adopts : key.adopts found = true) :
    groupForKey env fallbackGroupName table key =
      ({ table with groups := setGroupRef table.groups found.id key.value }, found.id) := by
  cases key with
  | slug value => cases adopts
  | ref value =>
      have blank : found.groupRef = [] := eq_of_beq adopts
      have bySlug : table.groups.find? (·.slug = groupSlugForRef env value) = _ := read
      simp only [groupForKey, groupForRef, missed value rfl, bySlug, if_pos blank, GroupKey.value]

theorem groupForKey_found (missed : key.Missed table.groups)
    (read : table.groups.find? (·.slug = key.slugOf env) = some found)
    (kept : ¬ key.adopts found = true) :
    groupForKey env fallbackGroupName table key = (table, found.id) := by
  cases key with
  | slug value =>
      have bySlug : table.groups.find? (·.slug = value) = _ := read
      simp only [groupForKey, groupForSlug, bySlug]
  | ref value =>
      have named : ¬ found.groupRef = [] := by simpa [GroupKey.adopts] using kept
      have bySlug : table.groups.find? (·.slug = groupSlugForRef env value) = _ := read
      simp only [groupForKey, groupForRef, missed value rfl, bySlug, if_neg named]

theorem groupForKey_creates (missed : key.Missed table.groups)
    (read : table.groups.find? (·.slug = key.slugOf env) = none) :
    groupForKey env fallbackGroupName table key =
      (⟨table.groups ++ [key.newGroup env fallbackGroupName table.nextGroupId],
        table.nextGroupId + 1⟩, table.nextGroupId) := by
  cases key with
  | slug value =>
      have bySlug : table.groups.find? (·.slug = value) = _ := read
      simp only [groupForKey, groupForSlug, bySlug, GroupTable.create, GroupKey.newGroup]
  | ref value =>
      have bySlug : table.groups.find? (·.slug = groupSlugForRef env value) = _ := read
      simp only [groupForKey, groupForRef, missed value rfl, bySlug, GroupTable.create,
        GroupKey.newGroup]

end ByKey

/-- What the statements of one key leave: the table and the group that `group_for_key` returns. -/
structure KeyResolved (env : Env) (store : Store) (ingestion : Ingestion) (key : GroupKey)
    (left : List GroupKey) (resolved : GroupTable × Nat) (advanced : Ingestion) : Prop where
  ran : RunsTo env (store, ingestion)
    ({ store with nextGroupId := resolved.1.nextGroupId }, advanced)
  groupRows : advanced.groupRows store.groups = resolved.1.groups
  groupsByKey : advanced.groupsByKey = ingestion.groupsByKey ++ [(key, resolved.2)]
  phase : advanced.phase = Ingestion.lookUpNext left

section Keys

variable {key : GroupKey} {left : List GroupKey}

/-- The key's row is found: nothing is written. -/
theorem KeyResolved.found {groupId : Nat} {before : Store × Ingestion}
    (ran : RunsTo env (store, ingestion) before)
    (advances : Advances env before (store, ingestion.resolve key left groupId)) :
    KeyResolved env store ingestion key left (ingestion.table store, groupId)
      (ingestion.resolve key left groupId) where
  ran := ran.tail advances
  groupRows := rfl
  groupsByKey := rfl
  phase := rfl

/-- The next statement for the same key. -/
def Ingestion.at (ingestion : Ingestion) (key : GroupKey) (left : List GroupKey) (lookup : Lookup) :
    Ingestion :=
  { ingestion with phase := .groupLookup key left lookup }

theorem advances_lookUp {lookup : Lookup}
    (stepped : ingestion.lookUp env (fun _ => true) store key left lookup = .proceeds later advanced) :
    Advances env (store, ingestion.at key left lookup) (later, advanced) := stepped

/-- The slug of a key, looked up: read, given a reference, or inserted. -/
theorem keyResolved_bySlug (isolated : Isolated env store ingestion)
    (table : store.groupTable.WellFormed) (missed : key.Missed (ingestion.groupRows store.groups))
    (ran : RunsTo env (store, ingestion) (store, ingestion.at key left .bySlug)) :
    ∃ advanced, KeyResolved env store ingestion key left
      (groupForKey env ingestion.upload.fallbackGroupName (ingestion.table store) key)
      advanced := by
  cases read : (ingestion.groupRows store.groups).find? (·.slug = key.slugOf env) with
  | some found =>
      by_cases adopts : key.adopts found = true
      · rw [groupForKey_adopts missed read adopts]
        have turn : Advances env (store, ingestion.at key left .bySlug)
            (store, ingestion.at key left (.adopt found.id)) := by
          apply advances_lookUp
          simp only [Ingestion.lookUp, read, if_pos adopts]
          rfl
        refine ⟨{ ingestion.resolve key left found.id with
          adoptedRefs := ingestion.adoptedRefs ++ [(found.id, key.value)] }, ?_, ?_, rfl, rfl⟩
        · exact (ran.tail turn).tail (advances_lookUp rfl)
        · exact List.foldl_append
      · rw [groupForKey_found missed read adopts]
        refine ⟨_, .found ran (advances_lookUp ?_)⟩
        simp only [Ingestion.lookUp, read, if_neg adopts]
  | none =>
      rw [groupForKey_creates missed read]
      have turn : Advances env (store, ingestion.at key left .bySlug)
          (store, ingestion.at key left .insert) := by
        apply advances_lookUp
        simp only [Ingestion.lookUp, read]
        rfl
      set group := key.newGroup env ingestion.upload.fallbackGroupName store.nextGroupId with made
      have absent : (ingestion.groupRows store.groups).any (·.slug == key.slugOf env) = false := by
        rw [List.any_eq_false]
        intro row member
        have unlike := List.find?_eq_none.mp read row member
        simpa using unlike
      have inserted : Advances env (store, ingestion.at key left .insert)
          ({ store with nextGroupId := store.nextGroupId + 1 },
            { ingestion.resolve key left group.id with
              createdGroups := ingestion.createdGroups ++ [group] }) := by
        apply advances_lookUp
        simp only [Ingestion.lookUp, absent]
        rfl
      refine ⟨_, (ran.tail turn).tail inserted, ?_, ?_, rfl⟩
      · refine Ingestion.groupRows_created fun listed => ?_
        obtain ⟨entry, member, same⟩ := List.mem_map.mp listed
        have below := isolated.groups.bound table
          (List.mem_map.mpr ⟨_, isolated.groups.adopted entry member, rfl⟩)
        rw [made, id_newGroup] at same
        exact absurd same (Nat.ne_of_lt below)
      · rw [made, id_newGroup]
        rfl

/-- One key: the statements of `group_for_key` leave the table and the group that it returns. -/
theorem keyResolved (isolated : Isolated env store ingestion)
    (table : store.groupTable.WellFormed)
    (phase : ingestion.phase = .groupLookup key left key.firstLookup) :
    ∃ advanced, KeyResolved env store ingestion key left
      (groupForKey env ingestion.upload.fallbackGroupName (ingestion.table store) key)
      advanced := by
  cases key with
  | slug value =>
      refine keyResolved_bySlug isolated table (by simp [GroupKey.Missed]) ?_
      have same : ingestion.at (.slug value) left .bySlug = ingestion := by
        rw [Ingestion.at, ← GroupKey.firstLookup, ← phase]
      rw [same]
  | ref value =>
      have first : ingestion.at (.ref value) left .byRef = ingestion := by
        rw [Ingestion.at, ← GroupKey.firstLookup, ← phase]
      have ran : RunsTo env (store, ingestion) (store, ingestion.at (.ref value) left .byRef) := by
        rw [first]
      cases read : (ingestion.groupRows store.groups).find? (·.groupRef = value) with
      | some existing =>
          have returned : groupForKey env ingestion.upload.fallbackGroupName
              (ingestion.table store) (.ref value) = (ingestion.table store, existing.id) := by
            have byRef : (ingestion.table store).groups.find? (·.groupRef = value) = _ := read
            simp only [groupForKey, groupForRef, byRef]
          rw [returned]
          refine ⟨_, .found ran (advances_lookUp ?_)⟩
          have byRef : (ingestion.groupRows store.groups).find?
            (·.groupRef = (GroupKey.ref value).value) = _ := read
          simp only [Ingestion.lookUp, byRef]
      | none =>
          refine keyResolved_bySlug isolated table ?_ (ran.tail (advances_lookUp ?_))
          · intro other same
            cases same
            exact read
          · have byRef : (ingestion.groupRows store.groups).find?
              (·.groupRef = (GroupKey.ref value).value) = _ := read
            simp only [Ingestion.lookUp, byRef]
            rfl

end Keys

/-- What the statements of the keys leave: the table and the groups that `resolve_group_keys`
returns. -/
structure KeysDone (env : Env) (store : Store) (ingestion : Ingestion)
    (resolved : GroupTable × List (GroupKey × Nat)) (advanced : Ingestion) : Prop where
  ran : RunsTo env (store, ingestion)
    ({ store with nextGroupId := resolved.1.nextGroupId }, advanced)
  groupRows : advanced.groupRows store.groups = resolved.1.groups
  groupsByKey : advanced.groupsByKey = ingestion.groupsByKey ++ resolved.2
  phase : advanced.phase = .groupLocks

theorem exists_keysDone (serial : Serial env done store) (isolated : Isolated env store ingestion)
    {keys : List GroupKey} (phase : ingestion.phase = Ingestion.lookUpNext keys) :
    ∃ advanced, KeysDone env store ingestion
      (resolveGroupKeys env ingestion.upload.fallbackGroupName (ingestion.table store) keys)
      advanced := by
  induction keys generalizing store ingestion with
  | nil => exact ⟨ingestion, .refl, rfl, (List.append_nil _).symm, phase⟩
  | cons key rest inductionHypothesis =>
      obtain ⟨next, first⟩ := keyResolved isolated serial.consistent.evidence.table phase
      have kept := first.ran.kept serial isolated
      obtain ⟨last, others⟩ := inductionHypothesis kept.serial kept.isolated first.phase
      have sameTable : next.table { store with
          nextGroupId := (groupForKey env ingestion.upload.fallbackGroupName
            (ingestion.table store) key).1.nextGroupId } =
          (groupForKey env ingestion.upload.fallbackGroupName (ingestion.table store) key).1 := by
        rw [Ingestion.table, first.groupRows]
      rw [sameTable, kept.upload] at others
      refine ⟨last, first.ran.trans others.ran, others.groupRows, ?_, others.phase⟩
      rw [others.groupsByKey, first.groupsByKey, List.append_assoc]
      rfl

/-! ### Events -/

/-- The rows under the next ids of the sequence. -/
def numbered : Nat → List AuditEvent → List AuditEvent
  | _, [] => []
  | eventId, row :: rest => { row with id := eventId } :: numbered (eventId + 1) rest

theorem eq_numbered {rows events : List AuditEvent} (renumbered : Renumbered rows events)
    {first : Nat} (ids : events.map (·.id) = List.range' first events.length) :
    events = numbered first rows := by
  induction renumbered generalizing first with
  | nil => rfl
  | @cons row event rows events same others inductionHypothesis =>
      simp only [List.map_cons, List.length_cons, List.range'_succ, List.cons.injEq] at ids
      rw [numbered, ← inductionHypothesis ids.2, ← ids.1, ← same]

/-- The rows are inserted one after the other. -/
theorem runsTo_projection (fileId : Nat) (scan : EventScan) (left : List AuditEvent) (store : Store)
    (ingestion : Ingestion) :
    RunsTo env (store, { ingestion with phase := Ingestion.insertNext fileId scan left })
      ({ store with nextEventId := store.nextEventId + left.length },
        { ingestion with
          events := ingestion.events ++ numbered store.nextEventId left
          phase := .projection fileId scan }) := by
  induction left generalizing store ingestion with
  | nil =>
      rw [numbered, List.append_nil]
      exact .refl
  | cons row rest inductionHypothesis =>
      have inserted : Advances env
          (store, { ingestion with phase := Ingestion.insertNext fileId scan (row :: rest) })
          ({ store with nextEventId := store.nextEventId + 1 },
            { ingestion with
              events := ingestion.events ++ [{ row with id := store.nextEventId }]
              phase := Ingestion.insertNext fileId scan rest }) := rfl
      have others := inductionHypothesis { store with nextEventId := store.nextEventId + 1 }
        { ingestion with events := ingestion.events ++ [{ row with id := store.nextEventId }] }
      simp only [List.append_assoc, List.singleton_append, Nat.add_assoc,
        Nat.add_comm 1] at others
      exact .head inserted others

/-- The groups are locked. -/
theorem advances_groupLocks (phase : ingestion.phase = .groupLocks) :
    Advances env (store, ingestion)
      (store, { ingestion with
        lockedGroups := ingestion.groupsByKey.map Prod.snd
        phase := .fileInsert }) := by
  simp [Advances, Ingestion.next, phase]

/-- A file whose hash is not stored is inserted. -/
theorem advances_fileInsert (phase : ingestion.phase = .fileInsert)
    (unseen : store.files.find? (·.fileSha256 = ingestion.fileSha256 env) = none) :
    Advances env (store, ingestion)
      ({ store with nextFileId := store.nextFileId + 1 },
        { ingestion with phase := .duplicateRead store.nextFileId }) := by
  simp [Advances, Ingestion.next, phase, unseen]

theorem advances_duplicateRead {fileId : Nat} (phase : ingestion.phase = .duplicateRead fileId) :
    let scan := createEvents store.events ingestion.groupOf 0 fileId ingestion.lines
    Advances env (store, ingestion)
      (store, { ingestion with phase := Ingestion.insertNext fileId scan scan.events }) := by
  simp [Advances, Ingestion.next, phase]

/-- From the locks of the groups to the projection. -/
theorem runsTo_inserted (phase : ingestion.phase = .groupLocks)
    (unseen : store.files.find? (·.fileSha256 = ingestion.fileSha256 env) = none) :
    let scan := createEvents store.events ingestion.groupOf 0 store.nextFileId ingestion.lines
    RunsTo env (store, ingestion)
      ({ store with
          nextFileId := store.nextFileId + 1
          nextEventId := store.nextEventId + scan.events.length },
        { ingestion with
          lockedGroups := ingestion.groupsByKey.map Prod.snd
          events := ingestion.events ++ numbered store.nextEventId scan.events
          phase := .projection store.nextFileId scan }) := by
  intro scan
  have locks := @advances_groupLocks env store ingestion phase
  have file := @advances_fileInsert env store
    { ingestion with lockedGroups := ingestion.groupsByKey.map Prod.snd, phase := .fileInsert } rfl
    unseen
  have read := @advances_duplicateRead env { store with nextFileId := store.nextFileId + 1 }
    { ingestion with
      lockedGroups := ingestion.groupsByKey.map Prod.snd
      phase := .duplicateRead store.nextFileId } store.nextFileId rfl
  have rows := @runsTo_projection env store.nextFileId scan scan.events
    { store with nextFileId := store.nextFileId + 1 }
    { ingestion with lockedGroups := ingestion.groupsByKey.map Prod.snd }
  exact .head locks (.head file (.head read rows))

/-! ### The whole transaction -/

/-- The transaction of an upload before its first statement. -/
def Ingestion.begin (upload : Upload) (rawText : Str) (lines : List ParsedLine) : Ingestion :=
  let ingestion : Ingestion := { upload, rawText, lines, phase := .groupLocks }
  { ingestion with phase := ingestion.lockNext (fileMetadata lines).engineIds }

/-- Up to the locks of the groups. -/
theorem exists_groupsLocked (serial : Serial env done store) {upload : Upload} {rawText : Str}
    {lines : List ParsedLine} (valid : validateUpload env upload.dumpBytes = .ok (rawText, lines)) :
    ∃ advanced, KeysDone env store (.begin upload rawText lines)
        (uploadGroups env store upload lines) advanced := by
  have initial : Isolated env store (.begin upload rawText lines) := Isolated.initial valid
  have locked : RunsTo env (store, Ingestion.begin upload rawText lines)
      (store,
        { upload := upload
          rawText := rawText
          lines := lines
          recorderKeys := [] ++ (fileMetadata lines).engineIds.map (recorderKey env)
          phase := Ingestion.lookUpNext (groupKeys upload.fallbackGroupSlug lines) }) :=
    runsTo_lockNext (fileMetadata lines).engineIds
      { upload, rawText, lines, phase := .groupLocks }
  have kept := RunsTo.kept locked serial initial
  obtain ⟨advanced, resolved⟩ := exists_keysDone serial kept.isolated rfl
  have sameTable : Ingestion.table
      { upload := upload
        rawText := rawText
        lines := lines
        recorderKeys := [] ++ (fileMetadata lines).engineIds.map (recorderKey env)
        phase := Ingestion.lookUpNext (groupKeys upload.fallbackGroupSlug lines) } store =
      ⟨store.groups, store.nextGroupId⟩ := by
    simp [Ingestion.table, Ingestion.groupRows]
  rw [sameTable] at resolved
  exact ⟨advanced, locked.trans resolved.ran, resolved.groupRows, resolved.groupsByKey,
    resolved.phase⟩

/-- The committed rows, after the upload has drawn its ids. -/
def drawnStore (env : Env) (store : Store) (upload : Upload) (lines : List ParsedLine) : Store :=
  { store with
    nextGroupId := (uploadGroups env store upload lines).1.nextGroupId
    nextFileId := store.nextFileId + 1
    nextEventId := store.nextEventId + (uploadScan env store upload lines).events.length }

/-- The file and its events are inserted: the rows are those `create_events` makes at once. -/
structure Inserted (env : Env) (store : Store) (upload : Upload) (rawText : Str)
    (lines : List ParsedLine) (scan : EventScan) (advanced : Ingestion) : Prop where
  ran : RunsTo env (store, .begin upload rawText lines) (drawnStore env store upload lines, advanced)
  sameUpload : advanced.upload = upload
  sameText : advanced.rawText = rawText
  sameLines : advanced.lines = lines
  groupRows : advanced.groupRows store.groups = (uploadGroups env store upload lines).1.groups
  events : advanced.events = (uploadScan env store upload lines).events
  duplicateCount : scan.duplicateCount = (uploadScan env store upload lines).duplicateCount
  groupIds : scan.groupIds = (uploadScan env store upload lines).groupIds
  phase : advanced.phase = .projection store.nextFileId scan

theorem exists_inserted (serial : Serial env done store) {upload : Upload} {rawText : Str}
    {lines : List ParsedLine} (valid : validateUpload env upload.dumpBytes = .ok (rawText, lines))
    (unseen : store.files.find? (·.fileSha256 = env.sha256 upload.dumpBytes) = none) :
    ∃ scan advanced, Inserted env store upload rawText lines scan advanced := by
  obtain ⟨resolved, keys⟩ := exists_groupsLocked serial valid
  have initial : Isolated env store (.begin upload rawText lines) := Isolated.initial valid
  have kept := RunsTo.kept keys.ran serial initial
  have sameUpload : resolved.upload = upload := kept.upload
  obtain ⟨sameText, sameLines⟩ := initial.sameLines kept.isolated kept.upload
  have empty : resolved.events = [] := by
    have holds := kept.isolated.phase
    unfold Ingestion.PhaseHolds at holds
    simp only [keys.phase] at holds
    exact holds.2.2
  have byKey : resolved.groupsByKey = (uploadGroups env store upload lines).2 := keys.groupsByKey
  have sameGroups : resolved.groupOf = uploadGroupOf env store upload lines := by
    rw [Ingestion.groupOf, byKey, sameUpload]
    rfl
  have accepted := initial.accepted
  have created : CreatedEvents (existingDuplicateEvents store.events lines)
      (uploadGroupOf env store upload lines) store.nextEventId store.nextFileId lines
      (uploadScan env store upload lines) := createEvents_spec accepted
  obtain ⟨rows, -, counted, grouped⟩ := renumbered_createEvents store.events
    (uploadGroupOf env store upload lines) 0 store.nextEventId store.nextFileId lines
  have ids := eq_numbered rows created.ids
  have hash : resolved.fileSha256 env = env.sha256 upload.dumpBytes := by
    rw [Ingestion.fileSha256, sameUpload]
  have inserted := @runsTo_inserted env
    { store with nextGroupId := (uploadGroups env store upload lines).1.nextGroupId } resolved
    keys.phase (by simpa only [hash] using unseen)
  have lengths := List.Forall₂.length_eq rows
  simp only [sameGroups, show resolved.lines = lines from sameLines, lengths] at inserted
  refine ⟨_, _, ⟨keys.ran.trans inserted, sameUpload, sameText, rfl, keys.groupRows, ?_, counted,
    grouped, rfl⟩⟩
  rw [empty, List.nil_append]
  exact ids.symm

section Ended

variable {upload : Upload} {rawText : Str} {lines : List ParsedLine} {scan : EventScan}

/-- The file row of a transaction that ran alone. -/
theorem Inserted.file (inserted : Inserted env store upload rawText lines scan advanced) :
    newFile env store.nextFileId upload rawText lines scan = uploadFile env store upload rawText lines := by
  rw [uploadFile, newFile, newFile, inserted.duplicateCount, inserted.groupIds]

/-- With the projection done, the commit is one statement away. -/
theorem Inserted.projects (inserted : Inserted env store upload rawText lines scan advanced)
    {projections : Nat → GroupProjections}
    (projected : rebuildFileProjections
      (store.events ++ (uploadScan env store upload lines).events) store.projections
      (uploadFile env store upload rawText lines) = some projections) :
    ∃ counts, RunsTo env (store, .begin upload rawText lines)
      (drawnStore env store upload lines,
        { advanced with phase := .commit store.nextFileId scan projections counts }) := by
  have project : Advances env (drawnStore env store upload lines, advanced)
      (drawnStore env store upload lines,
        { advanced with phase := .rollups store.nextFileId scan projections }) := by
    simp only [Advances, Ingestion.next, inserted.phase, inserted.events, inserted.sameUpload,
      inserted.sameText, inserted.sameLines, inserted.file, drawnStore, projected]
  exact ⟨_, (inserted.ran.tail project).tail rfl⟩

/-- The rows it commits are those of the sequential transaction. -/
theorem Inserted.commits (serial : Serial env done store)
    (valid : validateUpload env upload.dumpBytes = .ok (rawText, lines))
    (unseen : ∀ file ∈ store.files, file.fileSha256 ≠ env.sha256 upload.dumpBytes)
    (inserted : Inserted env store upload rawText lines scan advanced)
    {projections : Nat → GroupProjections} {counts : List (Nat × Nat)}
    (ran : RunsTo env (store, .begin upload rawText lines)
      (drawnStore env store upload lines,
        { advanced with phase := .commit store.nextFileId scan projections counts })) :
    StoredUpload env store upload rawText lines
      (advanced.committed env (drawnStore env store upload lines) store.nextFileId scan projections
        counts) := by
  have kept := RunsTo.kept ran serial (Isolated.initial valid)
  have holds := kept.isolated.phase
  unfold Ingestion.PhaseHolds at holds
  obtain ⟨locked, scanned, renumbered, projected, counted⟩ := holds
  have committing := Committing.mk (rfl : Phase.fileId (.commit _ _ _ _) = some store.nextFileId)
    locked scanned renumbered projected counted
  have sameFile : newFile env store.nextFileId advanced.upload advanced.rawText advanced.lines scan =
      uploadFile env store upload rawText lines := by
    rw [inserted.sameUpload, inserted.sameText, inserted.sameLines, inserted.file]
  exact
    { valid := valid
      unseen := unseen
      projected := by
        have current := committing.projections_eq kept.serial.consistent kept.isolated
        rw [Ingestion.file, sameFile] at current
        rw [← inserted.events]
        exact current
      groups := by
        have counts := refreshGroupRollups_lookup (uploadGroups env store upload lines).1.groups
          (store.events ++ (uploadScan env store upload lines).events) scan.groupIds
        rw [← inserted.groupIds, ← counts, counted, ← inserted.groupRows, ← inserted.events]
        rfl
      files := by
        rw [← sameFile]
        rfl
      events := by
        rw [← inserted.events]
        rfl
      rejections := rfl
      nextGroupId := rfl
      nextFileId := rfl
      nextEventId := rfl }

/-- A transaction that ran alone ends as `ingest` does: with the same rows, or with the same refusal. -/
theorem exists_ended (serial : Serial env done store)
    (valid : validateUpload env upload.dumpBytes = .ok (rawText, lines))
    (unseen : store.files.find? (·.fileSha256 = env.sha256 upload.dumpBytes) = none) :
    ∃ last : Store × Ingestion, RunsTo env (store, .begin upload rawText lines) last ∧
      ((∃ next, storeUpload env store upload rawText lines = some next ∧
          last.2.next env (fun _ => true) last.1 = .ends next (.stored store.nextFileId true)) ∨
        (storeUpload env store upload rawText lines = none ∧ Drawn store last.1 ∧
          last.2.next env (fun _ => true) last.1 =
            .ends (last.1.recordRejection upload ingestFailed) (.refused ingestFailed))) := by
  obtain ⟨scan, advanced, inserted⟩ := exists_inserted serial valid unseen
  cases projected : rebuildFileProjections
      (store.events ++ (uploadScan env store upload lines).events) store.projections
      (uploadFile env store upload rawText lines) with
  | none =>
      refine ⟨_, inserted.ran, .inr ⟨?_, ?_, ?_⟩⟩
      · rw [storeUpload]
        exact Option.map_eq_none_iff.mpr projected
      · have table := serial.consistent.evidence.table
        exact ⟨_, _, _, rfl, (uploadGroups_spec env upload lines table).bound, Nat.le_succ _,
          Nat.le_add_right _ _⟩
      · simp only [Ingestion.next, inserted.phase, inserted.events, inserted.sameUpload,
          inserted.sameText, inserted.sameLines, inserted.file, drawnStore, projected]
  | some projections =>
      obtain ⟨counts, ran⟩ := inserted.projects projected
      have fresh : ∀ file ∈ store.files, file.fileSha256 ≠ env.sha256 upload.dumpBytes :=
        fun file member same => List.find?_eq_none.mp unseen file member (decide_eq_true same)
      have stored := inserted.commits serial valid fresh ran
      exact ⟨_, ran, .inl ⟨_, stored.storeUpload_eq, rfl⟩⟩

end Ended

/-! ### Alone in the cluster -/

/-- One session is in the transaction of an upload, and no other is in any. -/
structure RunsAlone (cluster : Cluster) (session : Nat) (answers : List Answer)
    (state : Store × Ingestion) : Prop where
  shared : cluster.shared = ⟨state.1, answers⟩
  active : cluster.active.find session = some (.ingest state.2)
  alone : ∀ other, other ≠ session → cluster.active.find other = none

section Cluster

variable {cluster : Cluster} {session : Nat} {answers : List Answer}

/-- Every resource is free for it. -/
theorem RunsAlone.isFree {state : Store × Ingestion} (runs : RunsAlone cluster session answers state) :
    cluster.isFree (Connection.holds env) session = fun _ => true := by
  funext resource
  rw [Sessions.isFree_iff]
  intro other connection apart found
  rw [runs.alone other apart] at found
  cases found

theorem RunsAlone.proceed {before after : Store × Ingestion}
    (runs : RunsAlone cluster session answers before) (advances : Advances env before after) :
    RunsAlone (cluster.step env (.proceed session)) session answers after := by
  have stepped : cluster.step env (.proceed session) =
      Sessions.proceed cluster session ⟨after.1, answers⟩ (.ingest after.2) := by
    simp only [Cluster.step, runs.active, Cluster.advance, runs.isFree, runs.shared]
    rw [show before.2.next env (fun _ => true) before.1 = _ from advances]
  rw [stepped]
  constructor
  · rfl
  · rw [Sessions.find_proceed, if_pos rfl]
  · intro other apart
    rw [Sessions.find_proceed, if_neg apart]
    exact runs.alone other apart

theorem RunsAlone.run {before after : Store × Ingestion}
    (runs : RunsAlone cluster session answers before) (ran : RunsTo env before after) :
    ∃ count, RunsAlone (run (Cluster.step env) cluster (List.replicate count (.proceed session)))
      session answers after := by
  induction ran with
  | refl => exact ⟨0, runs⟩
  | tail _ advances inductionHypothesis =>
      obtain ⟨count, later⟩ := inductionHypothesis
      refine ⟨count + 1, ?_⟩
      rw [List.replicate_succ', run_append]
      exact later.proceed advances

/-- Its last statement ends the transaction. -/
theorem RunsAlone.finish {last : Store × Ingestion} {result : IngestionResult}
    (runs : RunsAlone cluster session answers last)
    (ended : last.2.next env (fun _ => true) last.1 = .ends store result) :
    let after := cluster.step env (.proceed session)
    after.shared = ⟨store, answers ++ [⟨last.2.upload, result⟩]⟩ ∧
      ∀ other, after.active.find other = none := by
  have stepped : cluster.step env (.proceed session) =
      Sessions.finish cluster session ⟨store, answers ++ [⟨last.2.upload, result⟩]⟩ := by
    simp only [Cluster.step, runs.active, Cluster.advance, runs.isFree, runs.shared, ended,
      Served.answer]
  intro after
  refine ⟨by rw [show after = _ from stepped]; rfl, fun other => ?_⟩
  rw [show after = _ from stepped, Sessions.find_finish]
  by_cases same : other = session
  · rw [if_pos same]
  · rw [if_neg same]
    exact runs.alone other same

end Cluster

theorem Drawn.recordRejection (drawn : Drawn store later) (upload : Upload)
    (rejected : UploadRejected) :
    Drawn (store.recordRejection upload rejected) (later.recordRejection upload rejected) := by
  obtain ⟨nextGroupId, nextFileId, nextEventId, rfl, groups, files, events⟩ := drawn
  exact ⟨nextGroupId, nextFileId, nextEventId, rfl, groups, files, events⟩

/-- With no other connection in a transaction, the statements of an upload leave what `ingest` leaves at
once, and the same answer; a refused one may have drawn ids. -/
theorem cluster_alone (env : Env) (steps : List ClusterStep) (session : Nat) (upload : Upload)
    (idle : ∀ other, (Cluster.after env steps).active.find other = none) :
    ∃ count,
      let before := (Cluster.after env steps).shared
      let after := Cluster.after env
        (steps ++ .request session upload :: List.replicate count (.proceed session))
      (∀ other, after.active.find other = none) ∧
        after.shared.answers = before.answers ++ [⟨upload, (ingest env before.store upload).1⟩] ∧
        Drawn (ingest env before.store upload).2 after.shared.store ∧
        (∀ fileId isNew, (ingest env before.store upload).1 = .stored fileId isNew →
          after.shared.store = (ingest env before.store upload).2) := by
  have serial := cluster_serial env steps
  simp only [Cluster.after, run_append, run_cons] at idle serial ⊢
  generalize run (Cluster.step env) Cluster.fresh steps = cluster at idle serial ⊢
  have requested : cluster.step env (.request session upload) =
      cluster.request env session upload := by
    simp [Cluster.step, idle]
  simp only [requested, Cluster.request, ingest]
  cases validated : validateUpload env upload.dumpBytes with
  | error rejected => exact ⟨0, idle, rfl, .refl _, by simp⟩
  | ok validUpload =>
      obtain ⟨rawText, lines⟩ := validUpload
      simp only
      cases seen : cluster.shared.store.files.find?
          (·.fileSha256 = env.sha256 upload.dumpBytes) with
      | some existing => exact ⟨0, idle, rfl, .refl _, fun _ _ _ => rfl⟩
      | none =>
          have runs : RunsAlone (Sessions.proceed cluster session cluster.shared
              (.ingest (.begin upload rawText lines))) session cluster.shared.answers
              (cluster.shared.store, .begin upload rawText lines) := by
            refine ⟨rfl, ?_, fun other apart => ?_⟩
            · rw [Sessions.find_proceed, if_pos rfl]
            · rw [Sessions.find_proceed, if_neg apart]
              exact idle other
          obtain ⟨last, ran, ended⟩ := exists_ended serial validated seen
          obtain ⟨count, later⟩ := runs.run ran
          have sameUpload : last.2.upload = upload :=
            (RunsTo.kept ran serial (Isolated.initial validated)).upload
          refine ⟨count + 1, ?_⟩
          rw [List.replicate_succ', run_append]
          rcases ended with ⟨next, stored, ended⟩ | ⟨failed, drawn, ended⟩
          · obtain ⟨shared, nobody⟩ := later.finish ended
            refine ⟨nobody, ?_⟩
            simp only [Ingestion.begin] at shared
            simp only [run_cons, run_nil, stored]
            rw [shared, sameUpload]
            exact ⟨rfl, .refl next, fun _ _ _ => rfl⟩
          · obtain ⟨shared, nobody⟩ := later.finish ended
            refine ⟨nobody, ?_⟩
            simp only [Ingestion.begin] at shared
            simp only [run_cons, run_nil, failed]
            rw [shared, sameUpload]
            exact ⟨rfl, drawn.recordRejection upload ingestFailed, by simp⟩

/-- The first log of an engine, in an empty store. -/
theorem cluster_alone_shortLog :
    ∃ count,
      let before := (Cluster.after sendEnv []).shared
      let after := Cluster.after sendEnv
        ([] ++ .request 1 (shortLog 0) :: List.replicate count (.proceed 1))
      (∀ other, after.active.find other = none) ∧
        after.shared.answers =
          before.answers ++ [⟨shortLog 0, (ingest sendEnv before.store (shortLog 0)).1⟩] ∧
        Drawn (ingest sendEnv before.store (shortLog 0)).2 after.shared.store ∧
        (∀ fileId isNew, (ingest sendEnv before.store (shortLog 0)).1 = .stored fileId isNew →
          after.shared.store = (ingest sendEnv before.store (shortLog 0)).2) :=
  cluster_alone sendEnv [] 1 (shortLog 0) fun _ => rfl

end Goggles
