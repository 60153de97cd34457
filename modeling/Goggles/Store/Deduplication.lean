/-
Module: Goggles.Store.Deduplication
Purpose: What a sequence of accepted uploads leaves in the evidence tables: one event for each pair of
  line hash and engine, counts and group links that add up, and a set of pairs that does not depend
  on the order of the uploads.
Trusted boundary: the hash of a body is injective on the bodies of the run
Main exports: Accepted, CollisionFree, EvidenceOf, evidenceOf_run, dedup_invariant
-/
import Goggles.Store.Groups

namespace Goggles

/-! ### Accepted runs -/

/-- The upload is accepted: a file is stored for it, or its hash is already stored. -/
def Accepted (env : Env) (store : Store) (upload : Upload) : Prop :=
  ∃ fileId created, (ingest env store upload).1 = .stored fileId created

/-- The hash tells the bodies of the uploads apart. -/
def CollisionFree (env : Env) (uploads : List Upload) : Prop :=
  ∀ left ∈ uploads, ∀ right ∈ uploads, env.sha256 left.dumpBytes = env.sha256 right.dumpBytes →
    left.dumpBytes = right.dumpBytes

/-- The lines of an upload, when it passes validation. -/
def uploadLines (env : Env) (upload : Upload) : List ParsedLine :=
  match validateUpload env upload.dumpBytes with
  | .ok (_, lines) => lines
  | .error _ => []

/-- The store after a sequence of uploads. -/
def storeAfter (env : Env) (uploads : List Upload) : Store := run (afterUpload env) .empty uploads

/-- The number of stored events a file owns. -/
def ownedEventCount (store : Store) (file : AuditFile) : Nat :=
  store.events.countP (·.auditFileId == file.id)

/-! ### The invariant -/

/-- How a stored file relates to the upload it came from. -/
structure FileOf (env : Env) (store : Store) (upload : Upload) (file : AuditFile) : Prop where
  validated : ∃ lines, validateUpload env upload.dumpBytes = .ok (file.rawText, lines)
  hash : file.fileSha256 = env.sha256 upload.dumpBytes
  total : file.metadata.totalLineCount = (uploadLines env upload).length
  counted : ownedEventCount store file + file.duplicateEventCount = file.metadata.totalLineCount
  resolved : ∀ line ∈ uploadLines env upload, ∀ key,
    groupKeyForParsedLine upload.fallbackGroupSlug line = some key →
      ∃ groupId, groupIdOfKey env store.groups key = some groupId
  groups : ∀ groupId, groupId ∈ file.groups ↔
    ∃ line ∈ uploadLines env upload, ∃ key,
      groupKeyForParsedLine upload.fallbackGroupSlug line = some key ∧
        groupIdOfKey env store.groups key = some groupId
  eventGroups : ∀ event ∈ store.events, event.auditFileId = file.id →
    ∀ groupId, event.groupId = some groupId → groupId ∈ file.groups

/-- What the uploads done so far have left in the store. -/
structure EvidenceOf (env : Env) (done : List Upload) (store : Store) : Prop where
  formed : WellFormed store
  table : store.groupTable.WellFormed
  files : ∀ file ∈ store.files, ∃ upload ∈ done, FileOf env store upload file
  pairs : ∀ pair, pair ∈ store.events.map AuditEvent.pair ↔
    ∃ upload ∈ done, ∃ line ∈ uploadLines env upload, line.pair = pair

theorem evidenceOf_empty (env : Env) : EvidenceOf env [] .empty :=
  ⟨.empty, ⟨by simp [Store.groupTable, Store.empty], by simp [Store.groupTable, Store.empty]⟩,
    by simp [Store.empty], by simp [Store.empty]⟩

section Step

variable {env : Env} {store next : Store} {upload : Upload} {rawText : Str}
  {lines : List ParsedLine}

theorem uploadLines_eq (valid : validateUpload env upload.dumpBytes = .ok (rawText, lines)) :
    uploadLines env upload = lines := by
  simp [uploadLines, valid]

/-- The events an older file owns are the same after a file was added. -/
theorem ownedEventCount_old {newFile file : AuditFile} {new : List AuditEvent}
    (added : FileAdded store newFile new next) (member : file ∈ store.files) :
    ownedEventCount next file = ownedEventCount store file := by
  rw [ownedEventCount, added.events, List.countP_append]
  have noNew : new.countP (·.auditFileId == file.id) = 0 := by
    rw [List.countP_eq_zero]
    intro event eventMember
    rw [added.owned event eventMember, beq_iff_eq]
    exact Ne.symm (added.fileFresh file member)
  rw [noNew, Nat.add_zero]
  rfl

/-- The new file owns exactly the new events. -/
theorem ownedEventCount_new {newFile : AuditFile} {new : List AuditEvent} (formed : WellFormed store)
    (added : FileAdded store newFile new next) : ownedEventCount next newFile = new.length := by
  rw [ownedEventCount, added.events, List.countP_append]
  have noOld : store.events.countP (·.auditFileId == newFile.id) = 0 := by
    rw [List.countP_eq_zero]
    intro event eventMember
    obtain ⟨file, fileMember, owner⟩ := formed.owned event eventMember
    rw [← owner, beq_iff_eq]
    exact added.fileFresh file fileMember
  rw [noOld, Nat.zero_add, List.countP_eq_length]
  intro event eventMember
  rw [added.owned event eventMember, beq_self_eq_true]

/-- A key that stood for a group before a stored upload stands for it afterwards. -/
theorem groupIdOfKey_stable (table : store.groupTable.WellFormed)
    (stored : StoredUpload env store upload rawText lines next) {key : GroupKey}
    (named : key.isNamed) {groupId : Nat}
    (known : groupIdOfKey env store.groups key = some groupId) :
    groupIdOfKey env next.groups key = some groupId := by
  rw [stored.groups, groupIdOfKey_refreshGroupRollups]
  exact (uploadGroups_spec env upload lines table).stable key named
    groupId known

/-- A file keeps its relation to its upload when another is added and no key loses its group. -/
theorem FileOf.kept {origin : Upload} {file newFile : AuditFile} {new : List AuditEvent}
    (known : FileOf env store origin file) (member : file ∈ store.files)
    (added : FileAdded store newFile new next)
    (stable : ∀ key : GroupKey, key.isNamed → ∀ groupId,
      groupIdOfKey env store.groups key = some groupId →
        groupIdOfKey env next.groups key = some groupId) : FileOf env next origin file where
  validated := known.validated
  hash := known.hash
  total := known.total
  counted := by
    rw [ownedEventCount_old added member]
    exact known.counted
  resolved := fun line lineMember key found => by
    obtain ⟨groupId, stands⟩ := known.resolved line lineMember key found
    exact ⟨groupId, stable key (isNamed_of_groupKeyForParsedLine found) groupId stands⟩
  groups := fun groupId => by
    rw [known.groups]
    constructor
    · rintro ⟨line, lineMember, key, found, stands⟩
      exact ⟨line, lineMember, key, found,
        stable key (isNamed_of_groupKeyForParsedLine found) groupId stands⟩
    · rintro ⟨line, lineMember, key, found, stands⟩
      obtain ⟨before, stood⟩ := known.resolved line lineMember key found
      have same := stable key (isNamed_of_groupKeyForParsedLine found) before stood
      rw [stands, Option.some.injEq] at same
      exact ⟨line, lineMember, key, found, same ▸ stood⟩
  eventGroups := fun event eventMember owner groupId grouped => by
    rw [added.events] at eventMember
    rcases List.mem_append.mp eventMember with old | new
    · exact known.eventGroups event old owner groupId grouped
    · exact absurd (owner.symm.trans (added.owned event new)) (added.fileFresh file member)

/-- The file just added, with the events of its lines and the groups they resolve to. -/
theorem FileOf.ofAdded {resolved : GroupTable × List (GroupKey × Nat)} {scan : EventScan}
    {fileId : Nat} {new : List AuditEvent} (formed : WellFormed store)
    (valid : validateUpload env upload.dumpBytes = .ok (rawText, lines))
    (added : FileAdded store (newFile env fileId upload rawText lines scan) new next)
    (resolution : ResolvedAll env store.groupTable (groupKeys upload.fallbackGroupSlug lines)
      resolved)
    (sameKeys : ∀ key, groupIdOfKey env next.groups key = groupIdOfKey env resolved.1.groups key)
    (counted : new.length + scan.duplicateCount = lines.length)
    (linked : ∀ groupId, groupId ∈ scan.groupIds ↔
      ∃ line ∈ lines, groupOfLine upload.fallbackGroupSlug resolved.2 line = some groupId)
    (grouped : ∀ event ∈ new, ∀ groupId, event.groupId = some groupId → groupId ∈ scan.groupIds) :
    FileOf env next upload (newFile env fileId upload rawText lines scan) where
  validated := ⟨lines, valid⟩
  hash := rfl
  total := by
    rw [uploadLines_eq valid]
    rfl
  counted := by
    rw [ownedEventCount_new formed added]
    exact counted
  resolved := fun line lineMember key found => by
    rw [uploadLines_eq valid] at lineMember
    have listed : key ∈ resolved.2.map Prod.fst := by
      rw [resolution.keys]
      exact mem_groupKeys.mpr ⟨line, lineMember, found⟩
    obtain ⟨entry, entryMember, same⟩ := List.mem_map.mp listed
    refine ⟨entry.2, ?_⟩
    rw [sameKeys, ← same]
    exact resolution.resolves entry entryMember
  groups := fun groupId => by
    rw [uploadLines_eq valid]
    simp only [sameKeys]
    refine (linked groupId).trans (exists_congr fun line => ?_)
    exact and_congr_right fun lineMember => resolution.groupOfLine_eq_some_iff lineMember
  eventGroups := fun event eventMember owner groupId inGroup => by
    rw [added.events] at eventMember
    rcases List.mem_append.mp eventMember with old | new
    · obtain ⟨file, fileMember, owned⟩ := formed.owned event old
      exact absurd (owned.trans owner) (added.fileFresh file fileMember)
    · exact grouped event new groupId inGroup

theorem FileOf.afterStored (formed : WellFormed store) (table : store.groupTable.WellFormed)
    (stored : StoredUpload env store upload rawText lines next) {origin : Upload}
    {file : AuditFile} (member : file ∈ store.files) (known : FileOf env store origin file) :
    FileOf env next origin file :=
  known.kept member (formed.fileAdded stored) fun _ named _ stands =>
    groupIdOfKey_stable table stored named stands

theorem FileOf.created (formed : WellFormed store) (table : store.groupTable.WellFormed)
    (stored : StoredUpload env store upload rawText lines next) :
    FileOf env next upload (uploadFile env store upload rawText lines) := by
  apply FileOf.ofAdded formed stored.valid (formed.fileAdded stored)
    (uploadGroups_spec env upload lines table) _ stored.created.counted stored.created.groups
  · intro event member groupId grouped
    exact stored.created.group_mem member grouped
  · intro key
    rw [stored.groups, groupIdOfKey_refreshGroupRollups]

/-- The pairs after a file was added whose events are those of lines, each line's pair among them. -/
theorem pairs_added {done : List Upload} {newFile : AuditFile} {new : List AuditEvent}
    (pairs : ∀ pair, pair ∈ store.events.map AuditEvent.pair ↔
      ∃ source ∈ done, ∃ line ∈ uploadLines env source, line.pair = pair)
    (valid : validateUpload env upload.dumpBytes = .ok (rawText, lines))
    (added : FileAdded store newFile new next)
    (origin : ∀ event ∈ new, ∃ line ∈ lines, event.pair = line.pair)
    (covered : ∀ line ∈ lines, line.pair ∈ (store.events ++ new).map AuditEvent.pair)
    (pair : Str × Str) :
    pair ∈ next.events.map AuditEvent.pair ↔
      ∃ source ∈ done ++ [upload], ∃ line ∈ uploadLines env source, line.pair = pair := by
  rw [added.events]
  constructor
  · intro member
    rw [List.map_append] at member
    rcases List.mem_append.mp member with old | new
    · obtain ⟨source, sourceMember, found⟩ := (pairs pair).mp old
      exact ⟨source, List.mem_append_left _ sourceMember, found⟩
    · obtain ⟨event, eventMember, samePair⟩ := List.mem_map.mp new
      obtain ⟨line, lineMember, linePair⟩ := origin event eventMember
      exact ⟨upload, by simp, line, uploadLines_eq valid ▸ lineMember, linePair ▸ samePair⟩
  · rintro ⟨source, sourceMember, line, lineMember, rfl⟩
    rcases List.mem_append.mp sourceMember with old | new
    · rw [List.map_append]
      exact List.mem_append_left _ ((pairs _).mpr ⟨source, old, line, lineMember, rfl⟩)
    · rw [List.mem_singleton.mp new, uploadLines_eq valid] at lineMember
      exact covered line lineMember

end Step

/-- One accepted upload, on a store that holds what the earlier ones left. -/
theorem EvidenceOf.step {env : Env} {done : List Upload} {store : Store} {upload : Upload}
    (evidence : EvidenceOf env done store) (accepted : Accepted env store upload)
    (distinct : CollisionFree env (done ++ [upload])) :
    EvidenceOf env (done ++ [upload]) (afterUpload env store upload) := by
  have earlier : ∀ {other}, other ∈ done → other ∈ done ++ [upload] :=
    fun member => List.mem_append_left _ member
  obtain ⟨fileId, fresh, result⟩ := accepted
  rcases ingest_cases env store upload with ⟨rejected, same⟩ |
    ⟨file, fileMember, rawText, lines, valid, sameHash, same⟩ |
    ⟨rawText, lines, next, stored, same⟩
  · rw [same] at result
    cases result
  · -- the same hash is stored, so the same body was accepted before
    have unchanged : afterUpload env store upload = store := by rw [afterUpload, same]
    rw [unchanged]
    obtain ⟨origin, originMember, known⟩ := evidence.files file fileMember
    have sameBody : origin.dumpBytes = upload.dumpBytes :=
      distinct origin (earlier originMember) upload (by simp) (known.hash ▸ sameHash)
    have sameLines : uploadLines env origin = uploadLines env upload := by
      rw [uploadLines, uploadLines, sameBody]
    refine ⟨evidence.formed, evidence.table, fun other member => ?_, fun pair => ?_⟩
    · obtain ⟨source, sourceMember, relation⟩ := evidence.files other member
      exact ⟨source, earlier sourceMember, relation⟩
    · rw [evidence.pairs]
      constructor
      · rintro ⟨source, sourceMember, found⟩
        exact ⟨source, earlier sourceMember, found⟩
      · rintro ⟨source, sourceMember, found⟩
        rcases List.mem_append.mp sourceMember with old | new
        · exact ⟨source, old, found⟩
        · rw [List.mem_singleton.mp new, ← sameLines] at found
          exact ⟨origin, originMember, found⟩
  · have after : afterUpload env store upload = next := by rw [afterUpload, same]
    rw [after]
    refine
      { formed := evidence.formed.storedUpload stored
        table := stored.groupTable_wellFormed evidence.table
        files := fun file member => ?_
        pairs := fun pair => ?_ }
    · rw [stored.files] at member
      rcases List.mem_append.mp member with old | new
      · obtain ⟨origin, originMember, known⟩ := evidence.files file old
        exact ⟨origin, earlier originMember,
          known.afterStored evidence.formed evidence.table stored old⟩
      · rw [List.mem_singleton.mp new]
        exact ⟨upload, by simp, .created evidence.formed evidence.table stored⟩
    · exact pairs_added evidence.pairs stored.valid (evidence.formed.fileAdded stored)
        (fun event member => stored.created.pair_of_mem stored.accepted member)
        (fun line member => stored.created.line_stored member) pair

/-- The invariant after every run of accepted uploads. -/
theorem evidenceOf_run {env : Env} {done uploads : List Upload} {store : Store}
    (evidence : EvidenceOf env done store)
    (accepted : EveryStep (afterUpload env) (Accepted env) store uploads)
    (distinct : CollisionFree env (done ++ uploads)) :
    EvidenceOf env (done ++ uploads) (run (afterUpload env) store uploads) := by
  induction uploads generalizing done store with
  | nil => simpa using evidence
  | cons upload rest inductionHypothesis =>
      have regroup : done ++ upload :: rest = (done ++ [upload]) ++ rest := by simp
      rw [regroup] at distinct ⊢
      have first : CollisionFree env (done ++ [upload]) := fun left leftMember right rightMember =>
        distinct left (List.mem_append_left rest leftMember) right
          (List.mem_append_left rest rightMember)
      exact inductionHypothesis (evidence.step accepted.1 first) accepted.2 distinct

/-! ### The invariant, part by part -/

/-- After every sequence of accepted uploads: one event for each pair; an event for every line of
every accepted body; counts that add up; group links that are the groups of all lines; and the same
stored pairs for every order of the uploads. -/
theorem dedup_invariant (env : Env) (uploads : List Upload)
    (accepted : EveryStep (afterUpload env) (Accepted env) .empty uploads)
    (distinct : CollisionFree env uploads) :
    ((storeAfter env uploads).events.map AuditEvent.pair).Nodup ∧
    (∀ upload ∈ uploads, ∀ line ∈ uploadLines env upload,
      ∃ event ∈ (storeAfter env uploads).events,
        event.lineHash = line.lineHash ∧ event.engineId = line.engineId) ∧
    (∀ file ∈ (storeAfter env uploads).files,
      ownedEventCount (storeAfter env uploads) file + file.duplicateEventCount =
        file.metadata.totalLineCount) ∧
    (∀ file ∈ (storeAfter env uploads).files, ∃ upload ∈ uploads,
      file.fileSha256 = env.sha256 upload.dumpBytes ∧
      file.metadata.totalLineCount = (uploadLines env upload).length ∧
      (∀ groupId, groupId ∈ file.groups ↔
        ∃ line ∈ uploadLines env upload, ∃ key,
          groupKeyForParsedLine upload.fallbackGroupSlug line = some key ∧
            groupIdOfKey env (storeAfter env uploads).groups key = some groupId) ∧
      ∀ event ∈ (storeAfter env uploads).events, event.auditFileId = file.id →
        ∀ groupId, event.groupId = some groupId → groupId ∈ file.groups) ∧
    ∀ others : List Upload, others.Perm uploads →
      EveryStep (afterUpload env) (Accepted env) .empty others →
      ∀ pair, pair ∈ (storeAfter env others).events.map AuditEvent.pair ↔
        pair ∈ (storeAfter env uploads).events.map AuditEvent.pair := by
  have evidence : EvidenceOf env uploads (storeAfter env uploads) :=
    evidenceOf_run (evidenceOf_empty env) accepted distinct
  refine ⟨evidence.formed.pairs, ?stored, ?counted, ?linked, ?reordered⟩
  case stored =>
    intro upload uploadMember line lineMember
    have known := (evidence.pairs line.pair).mpr ⟨upload, uploadMember, line, lineMember, rfl⟩
    obtain ⟨event, eventMember, same⟩ := List.mem_map.mp known
    exact ⟨event, eventMember, congrArg Prod.fst same, congrArg Prod.snd same⟩
  case counted =>
    intro file member
    obtain ⟨upload, -, known⟩ := evidence.files file member
    exact known.counted
  case linked =>
    intro file member
    obtain ⟨upload, uploadMember, known⟩ := evidence.files file member
    exact ⟨upload, uploadMember, known.hash, known.total, known.groups, known.eventGroups⟩
  case reordered =>
    intro others perm othersAccepted pair
    have othersDistinct : CollisionFree env others := fun left leftMember right rightMember =>
      distinct left (perm.subset leftMember) right (perm.subset rightMember)
    have otherEvidence : EvidenceOf env others (storeAfter env others) :=
      evidenceOf_run (evidenceOf_empty env) othersAccepted othersDistinct
    rw [evidence.pairs, otherEvidence.pairs]
    simp only [perm.mem_iff]

/-- A log that grows between two uploads and is sent again keeps each line once. -/
theorem dedup_invariant_growingLog :
    ((storeAfter sendEnv [shortLog 0, longLog 0, shortLog 0]).events.map AuditEvent.pair).Nodup ∧
      (storeAfter sendEnv [shortLog 0, longLog 0, shortLog 0]).files.map (·.duplicateEventCount) =
        [0, 1] := by
  have accepted : EveryStep (afterUpload sendEnv) (Accepted sendEnv) .empty
      [shortLog 0, longLog 0, shortLog 0] :=
    ⟨⟨1, true, by decide +kernel⟩, ⟨2, true, by decide +kernel⟩, ⟨1, false, by decide +kernel⟩,
      trivial⟩
  have distinct : CollisionFree sendEnv [shortLog 0, longLog 0, shortLog 0] := by
    unfold CollisionFree
    decide +kernel
  exact ⟨(dedup_invariant sendEnv _ accepted distinct).1, by decide +kernel⟩

end Goggles
