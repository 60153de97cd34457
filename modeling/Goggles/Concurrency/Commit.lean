/-
Module: Goggles.Concurrency.Commit
Purpose: An upload as one atomic step between committed states whose ids were drawn beforehand, and
  what a sequence of such steps, of rebuilds and of refusals leaves in the store.
Trusted boundary: none beyond the modules it imports
Main exports: Renumbered, CommittedUpload, StoredUpload.committed, Serial, Consistent,
  Serial.consistent
-/
import Goggles.Projection.Provenance
import Goggles.Store.GroupIdentity
import Goggles.Retention.Rollup
import Goggles.Refinement.ExactlyOnce

namespace Goggles

/-! ### Rows under other ids -/

/-- The rows, stored under other ids. -/
def Renumbered (rows events : List AuditEvent) : Prop :=
  List.Forall₂ (fun row event => event = { row with id := event.id }) rows events

namespace Renumbered

variable {rows events : List AuditEvent}

theorem map_eq {α : Type*} {value : AuditEvent → α} (renumbered : Renumbered rows events)
    (blind : ∀ (row : AuditEvent) eventId, value { row with id := eventId } = value row) :
    events.map value = rows.map value := by
  induction renumbered with
  | nil => rfl
  | @cons row event rows events same others inductionHypothesis =>
      have here : value event = value row := by rw [same, blind]
      rw [List.map_cons, List.map_cons, here, inductionHypothesis]

theorem exists_row (renumbered : Renumbered rows events) {event : AuditEvent}
    (member : event ∈ events) : ∃ row ∈ rows, event = { row with id := event.id } := by
  induction renumbered with
  | nil => cases member
  | @cons row head rows events same others inductionHypothesis =>
      rcases List.mem_cons.mp member with rfl | later
      · exact ⟨row, List.mem_cons_self, same⟩
      · obtain ⟨found, foundMember, sameFound⟩ := inductionHypothesis later
        exact ⟨found, List.mem_cons_of_mem row foundMember, sameFound⟩

theorem append {more moreEvents : List AuditEvent} (renumbered : Renumbered rows events)
    (others : Renumbered more moreEvents) : Renumbered (rows ++ more) (events ++ moreEvents) :=
  List.rel_append renumbered others

end Renumbered

/-- The loop of `create_events` numbers its rows from the first id on, whatever that is. -/
theorem renumbered_createEvents (stored : List AuditEvent) (groupOf : ParsedLine → Option Nat)
    (first other fileId : Nat) (lines : List ParsedLine) :
    let left := createEvents stored groupOf first fileId lines
    let right := createEvents stored groupOf other fileId lines
    Renumbered left.events right.events ∧ left.existing = right.existing ∧
      left.duplicateCount = right.duplicateCount ∧ left.groupIds = right.groupIds := by
  simp only [createEvents]
  generalize existingDuplicateEvents stored lines = base
  induction lines using List.reverseRecOn with
  | nil => exact ⟨.nil, rfl, rfl, rfl⟩
  | append_singleton lines line inductionHypothesis =>
      obtain ⟨rows, existing, counted, grouped⟩ := inductionHypothesis
      simp only [List.foldl_append, List.foldl_cons, List.foldl_nil, EventScan.next, existing,
        counted, grouped]
      split
      · exact ⟨rows, rfl, rfl, rfl⟩
      · exact ⟨rows.append (.cons rfl .nil), rfl, rfl, rfl⟩

/-! ### One upload -/

/-- The loop of `create_events` over the rows committed so far. -/
def commitScan (store : Store) (upload : Upload) (lines : List ParsedLine) (fileId : Nat)
    (groupsByKey : List (GroupKey × Nat)) : EventScan :=
  createEvents store.events (groupOfLine upload.fallbackGroupSlug groupsByKey) 0 fileId lines

/-- An upload was committed: the file, the rows of the lines that were not stored, the projections
and the counts are those the transaction computes on the rows committed before it.  The ids are any
that were free, and the group table is any in which the upload's keys are resolved. -/
structure CommittedUpload (env : Env) (store : Store) (upload : Upload) (rawText : Str)
    (lines : List ParsedLine) (fileId : Nat) (resolved : GroupTable × List (GroupKey × Nat))
    (new : List AuditEvent) (next : Store) : Prop where
  valid : validateUpload env upload.dumpBytes = .ok (rawText, lines)
  unseen : ∀ file ∈ store.files, file.fileSha256 ≠ env.sha256 upload.dumpBytes
  resolution : ResolvedAll env store.groupTable (groupKeys upload.fallbackGroupSlug lines) resolved
  registers : ∀ known, Registers env store.groups known → Registers env resolved.1.groups
    fun groupRef => known groupRef ∨ .ref groupRef ∈ groupKeys upload.fallbackGroupSlug lines
  renumbered : Renumbered (commitScan store upload lines fileId resolved.2).events new
  ids : (new.map (·.id)).Pairwise (· < ·)
  idFresh : ∀ event ∈ new, ∀ old ∈ store.events, old.id ≠ event.id
  idBound : ∀ event ∈ new, event.id < next.nextEventId
  eventSequence : store.nextEventId ≤ next.nextEventId
  fileFresh : ∀ file ∈ store.files, file.id ≠ fileId
  fileBound : fileId < next.nextFileId
  fileSequence : store.nextFileId ≤ next.nextFileId
  nextGroupId : next.nextGroupId = resolved.1.nextGroupId
  projected : rebuildFileProjections next.events store.projections
    (newFile env fileId upload rawText lines (commitScan store upload lines fileId resolved.2)) =
      some next.projections
  groups : next.groups = refreshGroupRollups resolved.1.groups next.events
    (commitScan store upload lines fileId resolved.2).groupIds
  files : next.files = store.files ++
    [newFile env fileId upload rawText lines (commitScan store upload lines fileId resolved.2)]
  events : next.events = store.events ++ new
  rejections : next.rejections = store.rejections

section Committed

variable {env : Env} {store next : Store} {upload : Upload} {rawText : Str}
  {lines : List ParsedLine} {fileId : Nat} {resolved : GroupTable × List (GroupKey × Nat)}
  {new : List AuditEvent}

namespace CommittedUpload

theorem accepted
    (committed : CommittedUpload env store upload rawText lines fileId resolved new next) :
    ∀ line ∈ lines, AcceptedLine line :=
  have valid := validateUpload_eq_ok_iff.mp committed.valid
  acceptedLines valid.2.2.1 valid.2.2.2.2.1

theorem created
    (committed : CommittedUpload env store upload rawText lines fileId resolved new next) :
    CreatedEvents (existingDuplicateEvents store.events lines)
      (groupOfLine upload.fallbackGroupSlug resolved.2) 0 fileId lines
      (commitScan store upload lines fileId resolved.2) :=
  createEvents_spec committed.accepted

/-- A new row is the row of a line. -/
theorem origin
    (committed : CommittedUpload env store upload rawText lines fileId resolved new next)
    {event : AuditEvent} (member : event ∈ new) :
    ∃ line ∈ lines, event = eventValues event.id fileId
      (groupOfLine upload.fallbackGroupSlug resolved.2 line) line := by
  obtain ⟨row, rowMember, same⟩ := committed.renumbered.exists_row member
  obtain ⟨line, lineMember, eventId, made⟩ := committed.created.origin row rowMember
  refine ⟨line, lineMember, ?_⟩
  rw [same, made]
  rfl

theorem pair_origin
    (committed : CommittedUpload env store upload rawText lines fileId resolved new next)
    {event : AuditEvent} (member : event ∈ new) : ∃ line ∈ lines, event.pair = line.pair := by
  obtain ⟨line, lineMember, made⟩ := committed.origin member
  exact ⟨line, lineMember, made ▸ (committed.accepted line lineMember).row_pair _ _ _⟩

theorem map_pair
    (committed : CommittedUpload env store upload rawText lines fileId resolved new next) :
    new.map AuditEvent.pair =
      (commitScan store upload lines fileId resolved.2).events.map AuditEvent.pair :=
  committed.renumbered.map_eq fun _ _ => rfl

theorem added (formed : WellFormed store)
    (committed : CommittedUpload env store upload rawText lines fileId resolved new next) :
    FileAdded store
      (newFile env fileId upload rawText lines (commitScan store upload lines fileId resolved.2))
      new next where
  files := committed.files
  events := committed.events
  pairs := by
    rw [List.map_append, committed.map_pair, ← List.map_append]
    exact committed.created.pairs_nodup committed.accepted formed.pairs
  ids := committed.ids.imp Nat.ne_of_lt
  idFresh := committed.idFresh
  idBound := committed.idBound
  eventSequence := committed.eventSequence
  fileFresh := committed.fileFresh
  fileBound := committed.fileBound
  fileSequence := committed.fileSequence
  unseen := committed.unseen
  owned := fun event member => by
    obtain ⟨line, -, made⟩ := committed.origin member
    rw [made]
    rfl
  sound := fun event member => by
    obtain ⟨line, lineMember, made⟩ := committed.origin member
    exact made ▸ (committed.accepted line lineMember).sound _ _ _

theorem appended (formed : WellFormed store)
    (committed : CommittedUpload env store upload rawText lines fileId resolved new next) :
    FileAppended store
      (newFile env fileId upload rawText lines (commitScan store upload lines fileId resolved.2))
      new next := by
  apply (committed.added formed).appended formed
  · exact schemaVersions_newFile committed.accepted
      (validateUpload_eq_ok_iff.mp committed.valid).2.2.2.1 _ _ _ _ _
  · exact committed.projected

/-- The groups of the new rows are linked to the file. -/
theorem group_mem
    (committed : CommittedUpload env store upload rawText lines fileId resolved new next)
    {event : AuditEvent} (member : event ∈ new) {groupId : Nat}
    (grouped : event.groupId = some groupId) :
    groupId ∈ (commitScan store upload lines fileId resolved.2).groupIds := by
  obtain ⟨line, lineMember, made⟩ := committed.origin member
  apply (committed.created.groups groupId).mpr
  refine ⟨line, lineMember, ?_⟩
  rw [made] at grouped
  exact grouped

theorem groupIdOfKey_eq
    (committed : CommittedUpload env store upload rawText lines fileId resolved new next)
    (key : GroupKey) :
    groupIdOfKey env next.groups key = groupIdOfKey env resolved.1.groups key := by
  rw [committed.groups, groupIdOfKey_refreshGroupRollups]

theorem groupIdOfKey_stable
    (committed : CommittedUpload env store upload rawText lines fileId resolved new next)
    (key : GroupKey) (named : key.isNamed) (groupId : Nat)
    (known : groupIdOfKey env store.groups key = some groupId) :
    groupIdOfKey env next.groups key = some groupId := by
  rw [committed.groupIdOfKey_eq]
  exact committed.resolution.stable key named groupId known

theorem groupTable_wellFormed
    (committed : CommittedUpload env store upload rawText lines fileId resolved new next) :
    next.groupTable.WellFormed := by
  have formed := committed.resolution.formed
  constructor
  · rw [Store.groupTable, committed.groups, map_id_refreshGroupRollups]
    exact formed.ids
  · intro group member
    have idMember : group.id ∈ next.groups.map (·.id) := List.mem_map_of_mem member
    rw [committed.groups, map_id_refreshGroupRollups] at idMember
    obtain ⟨old, oldMember, same⟩ := List.mem_map.mp idMember
    rw [Store.groupTable, committed.nextGroupId]
    exact same ▸ formed.bound old oldMember

theorem fileOf (formed : WellFormed store)
    (committed : CommittedUpload env store upload rawText lines fileId resolved new next) :
    FileOf env next upload (newFile env fileId upload rawText lines
      (commitScan store upload lines fileId resolved.2)) := by
  have lengths : new.length = (commitScan store upload lines fileId resolved.2).events.length :=
    (List.Forall₂.length_eq committed.renumbered).symm
  apply FileOf.ofAdded formed committed.valid (committed.added formed) committed.resolution
    committed.groupIdOfKey_eq _ committed.created.groups
  · intro event member groupId grouped
    exact committed.group_mem member grouped
  · rw [lengths]
    exact committed.created.counted

/-- Every line has its event afterwards. -/
theorem line_stored
    (committed : CommittedUpload env store upload rawText lines fileId resolved new next)
    {line : ParsedLine} (member : line ∈ lines) :
    line.pair ∈ (store.events ++ new).map AuditEvent.pair := by
  rw [List.map_append, committed.map_pair, ← List.map_append]
  exact committed.created.line_stored member

end CommittedUpload

theorem EvidenceOf.committed {done : List Upload} (evidence : EvidenceOf env done store)
    (committed : CommittedUpload env store upload rawText lines fileId resolved new next) :
    EvidenceOf env (done ++ [upload]) next where
  formed := evidence.formed.added (committed.added evidence.formed)
  table := committed.groupTable_wellFormed
  files := fun file member => by
    rw [committed.files] at member
    rcases List.mem_append.mp member with old | new
    · obtain ⟨origin, originMember, known⟩ := evidence.files file old
      exact ⟨origin, List.mem_append_left _ originMember,
        known.kept old (committed.added evidence.formed) committed.groupIdOfKey_stable⟩
    · rw [List.mem_singleton.mp new]
      exact ⟨upload, by simp, committed.fileOf evidence.formed⟩
  pairs := pairs_added evidence.pairs committed.valid (committed.added evidence.formed)
    (fun _ member => committed.pair_origin member) (fun _ member => committed.line_stored member)

/-- The counts of the linked groups are refreshed, and no other group has a new event. -/
theorem RollupsCurrent.committed (current : RollupsCurrent store)
    (committed : CommittedUpload env store upload rawText lines fileId resolved new next) :
    RollupsCurrent next := by
  have spec := committed.resolution
  intro group member
  rw [committed.groups, refreshGroupRollups] at member
  obtain ⟨row, rowMember, rfl⟩ := List.mem_map.mp member
  by_cases touched : row.id ∈ (commitScan store upload lines fileId resolved.2).groupIds
  · rw [if_pos touched]
  · have noNew : validGroupEvents new row.id = [] := by
      apply List.filter_eq_nil_iff.mpr
      intro event eventMember counts
      exact touched (committed.group_mem eventMember (AuditEvent.countsFor_iff.mp counts).1)
    rw [if_neg touched, committed.events, validGroupEvents_append, noNew, List.append_nil]
    rcases spec.origin row rowMember with stands | ⟨old, oldMember, sameId, sameCount⟩
    · -- a key of the upload stands for this group, so one of its lines is linked to it
      obtain ⟨⟨key, groupId⟩, entryMember, rfl⟩ := List.mem_map.mp stands
      have listed : key ∈ groupKeys upload.fallbackGroupSlug lines :=
        spec.keys ▸ List.mem_map_of_mem entryMember
      obtain ⟨line, lineMember, found⟩ := mem_groupKeys.mp listed
      refine absurd ((committed.created.groups _).mpr ⟨line, lineMember, ?_⟩) touched
      exact (spec.groupOfLine_eq_some_iff lineMember).mpr
        ⟨key, found, spec.resolves _ entryMember⟩
    · rw [← sameCount, ← sameId]
      exact current old oldMember

/-- The sequential transaction is one such step. -/
theorem StoredUpload.committed (formed : WellFormed store) (table : store.groupTable.WellFormed)
    (stored : StoredUpload env store upload rawText lines next) :
    CommittedUpload env store upload rawText lines store.nextFileId
      (uploadGroups env store upload lines) (uploadScan env store upload lines).events next := by
  have added := formed.fileAdded stored
  obtain ⟨rows, -, counted, grouped⟩ := renumbered_createEvents store.events
    (uploadGroupOf env store upload lines) 0 store.nextEventId store.nextFileId lines
  have sameFile : newFile env store.nextFileId upload rawText lines
      (commitScan store upload lines store.nextFileId (uploadGroups env store upload lines).2) =
        uploadFile env store upload rawText lines := by
    simp only [newFile, uploadFile]
    rw [show (commitScan store upload lines store.nextFileId
      (uploadGroups env store upload lines).2).duplicateCount = _ from counted,
      show (commitScan store upload lines store.nextFileId
      (uploadGroups env store upload lines).2).groupIds = _ from grouped]
    rfl
  exact
    { valid := stored.valid
      unseen := stored.unseen
      resolution := uploadGroups_spec env upload lines table
      registers := fun known registers => by
        refine registers_resolveGroupKeys table registers upload.fallbackGroupName ?_
        intro key member
        obtain ⟨line, -, found⟩ := mem_groupKeys.mp member
        exact isNamed_of_groupKeyForParsedLine found
      renumbered := rows
      ids := by
        rw [stored.created.ids]
        exact List.pairwise_lt_range'
      idFresh := added.idFresh
      idBound := added.idBound
      eventSequence := added.eventSequence
      fileFresh := added.fileFresh
      fileBound := added.fileBound
      fileSequence := added.fileSequence
      nextGroupId := stored.nextGroupId
      projected := by
        rw [sameFile, stored.events]
        exact stored.projected
      groups := by
        rw [stored.groups, ← stored.events]
        exact congrArg (refreshGroupRollups _ next.events) grouped.symm
      files := by rw [sameFile, stored.files]
      events := stored.events
      rejections := stored.rejections }

/-! ### The evidence of the rows -/

/-- The event is one of the group's. -/
def Store.InGroup (store : Store) (groupId eventId : Nat) : Prop :=
  ∃ event ∈ store.groupEvents groupId, event.id = eventId

/-- The rows of every group are about its stored events. -/
def StoreEvidenced (store : Store) : Prop :=
  ∀ groupId, (store.projections groupId).Evidenced (store.InGroup groupId)

theorem evidenced_rebuilt {events : List AuditEvent} {groupId : Nat} {rows : GroupProjections}
    (rebuilt : rebuildGroup events groupId = some rows) :
    rows.Evidenced fun eventId => ∃ event ∈ validGroupEvents events groupId, event.id = eventId := by
  obtain ⟨final, replayed, rfl⟩ := Option.map_eq_some_iff.mp rebuilt
  exact evidenced_replay (fun event member => ⟨event, mem_inOrder.mp member, rfl⟩) replayed (.empty _)

theorem StoreEvidenced.appended {file : AuditFile} (evidenced : StoreEvidenced store)
    (appended : FileAppended store file new next) : StoreEvidenced next := by
  intro groupId
  rcases appended.projected_group groupId with ⟨-, rebuilt⟩ | ⟨-, extended⟩
  · exact evidenced_rebuilt rebuilt
  · obtain ⟨final, replayed, same⟩ := extended.replayed
    rw [same]
    refine evidenced_replay (fun event member => ?_) replayed ((evidenced groupId).mono ?_)
    · refine ⟨event, ?_, rfl⟩
      rw [appended.groupEvents_next]
      exact List.mem_append_right _ (mem_inOrder.mp member)
    · rintro eventId ⟨event, member, named⟩
      refine ⟨event, ?_, named⟩
      rw [appended.groupEvents_next]
      exact List.mem_append_left _ member

end Committed

/-! ### Sequences of atomic steps -/

/-- The references an upload's lines name. -/
def ResolvedRef (env : Env) (done : List Upload) (groupRef : Str) : Prop :=
  ∃ upload ∈ done, .ref groupRef ∈ groupKeys upload.fallbackGroupSlug (uploadLines env upload)

/-- The committed state after some uploads, each an atomic step, in the order they committed; between
them groups are rebuilt, refusals recorded and sequence values drawn. -/
inductive Serial (env : Env) : List Upload → Store → Prop where
  | empty : Serial env [] .empty
  | upload {done store upload rawText lines fileId resolved new next} (before : Serial env done store)
      (committed : CommittedUpload env store upload rawText lines fileId resolved new next) :
      Serial env (done ++ [upload]) next
  | rebuild {done store} {groupId : Nat} {rows : GroupProjections} (before : Serial env done store)
      (rebuilt : rebuildGroup store.events groupId = some rows) :
      Serial env done
        { store with projections := Function.update store.projections groupId rows }
  | rejection {done store} (upload : Upload) (rejected : UploadRejected)
      (before : Serial env done store) : Serial env done (store.recordRejection upload rejected)
  | sequences {done store} {nextGroupId nextFileId nextEventId : Nat}
      (before : Serial env done store) (groups : store.nextGroupId ≤ nextGroupId)
      (files : store.nextFileId ≤ nextFileId) (events : store.nextEventId ≤ nextEventId) :
      Serial env done { store with nextGroupId, nextFileId, nextEventId }

/-- What is true of the committed state after some uploads. -/
structure Consistent (env : Env) (done : List Upload) (store : Store) : Prop where
  evidence : EvidenceOf env done store
  registers : Registers env store.groups (ResolvedRef env done)
  rollups : RollupsCurrent store
  once : OnceInvariant store
  evidenced : StoreEvidenced store

namespace Consistent

variable {env : Env} {done : List Upload} {store next : Store}

theorem empty (env : Env) : Consistent env [] .empty where
  evidence := evidenceOf_empty env
  registers := (Registers.empty env).congr fun groupRef => by simp [ResolvedRef]
  rollups := by simp [RollupsCurrent, Store.empty]
  once := onceInvariant_empty
  evidenced := fun groupId => .empty _

theorem formed (consistent : Consistent env done store) : WellFormed store :=
  consistent.evidence.formed

theorem upload {upload : Upload} {rawText : Str} {lines : List ParsedLine} {fileId : Nat}
    {resolved : GroupTable × List (GroupKey × Nat)} {new : List AuditEvent}
    (consistent : Consistent env done store)
    (committed : CommittedUpload env store upload rawText lines fileId resolved new next) :
    Consistent env (done ++ [upload]) next := by
  have evidence := consistent.evidence.committed committed
  have appended := committed.appended consistent.formed
  exact
    { evidence := evidence
      registers := by
        rw [committed.groups]
        have registers := committed.registers _ consistent.registers
        apply (registers.refreshGroupRollups _ _).congr
        intro groupRef
        simp only [ResolvedRef, List.mem_append, List.mem_singleton, or_and_right, exists_or,
          exists_eq_left, uploadLines_eq committed.valid]
      rollups := consistent.rollups.committed committed
      once :=
        { delivery := ⟨evidence.formed,
            DeliveryOrdered.appended consistent.once.delivery.order appended⟩
          network := consistent.once.network.appended leafTable_network appended
          stateDeltas := consistent.once.stateDeltas.appended leafTable_stateDeltas appended
          epochTransitions :=
            consistent.once.epochTransitions.appended leafTable_epochTransitions appended }
      evidenced := consistent.evidenced.appended appended }

end Consistent

/-- The evidence tables are the same; sequence values may have been drawn. -/
structure SameEvidence (store next : Store) : Prop where
  groups : next.groups = store.groups
  files : next.files = store.files
  events : next.events = store.events
  nextGroupId : store.nextGroupId ≤ next.nextGroupId
  nextFileId : store.nextFileId ≤ next.nextFileId
  nextEventId : store.nextEventId ≤ next.nextEventId

namespace SameEvidence

variable {env : Env} {done : List Upload} {store next : Store}

theorem wellFormed (kept : SameEvidence store next) (formed : WellFormed store) :
    WellFormed next where
  pairs := kept.events ▸ formed.pairs
  eventIds := kept.events ▸ formed.eventIds
  eventIdBound := fun event member =>
    (formed.eventIdBound event (kept.events ▸ member)).trans_le kept.nextEventId
  fileIds := kept.files ▸ formed.fileIds
  fileIdBound := fun file member =>
    (formed.fileIdBound file (kept.files ▸ member)).trans_le kept.nextFileId
  hashes := kept.files ▸ formed.hashes
  owned := kept.files ▸ kept.events ▸ formed.owned
  sound := kept.events ▸ formed.sound

theorem fileOf (kept : SameEvidence store next) {origin : Upload} {file : AuditFile}
    (known : FileOf env store origin file) : FileOf env next origin file where
  validated := known.validated
  hash := known.hash
  total := known.total
  counted := by
    rw [ownedEventCount, kept.events]
    exact known.counted
  resolved := by
    rw [kept.groups]
    exact known.resolved
  groups := by
    rw [kept.groups]
    exact known.groups
  eventGroups := by
    rw [kept.events]
    exact known.eventGroups

theorem evidenceOf (kept : SameEvidence store next) (evidence : EvidenceOf env done store) :
    EvidenceOf env done next where
  formed := kept.wellFormed evidence.formed
  table := by
    refine ⟨?_, fun group member => ?_⟩
    · rw [Store.groupTable, kept.groups]
      exact evidence.table.ids
    · rw [Store.groupTable, kept.groups] at member
      exact (evidence.table.bound group member).trans_le kept.nextGroupId
  files := fun file member => by
    obtain ⟨origin, originMember, known⟩ := evidence.files file (kept.files ▸ member)
    exact ⟨origin, originMember, kept.fileOf known⟩
  pairs := by
    rw [kept.events]
    exact evidence.pairs

end SameEvidence

namespace Consistent

variable {env : Env} {done : List Upload} {store next : Store}

/-- The rows of a group are those they were, or those of a rebuild. -/
theorem kept (consistent : Consistent env done store) (kept : SameEvidence store next)
    (rows : ∀ groupId, next.projections groupId = store.projections groupId ∨
      rebuildGroup store.events groupId = some (next.projections groupId)) :
    Consistent env done next := by
  have sameEvents : ∀ groupId, next.groupEvents groupId = store.groupEvents groupId := by
    intro groupId
    rw [Store.groupEvents, kept.events]
    rfl
  have leaf : ∀ {leaf : GroupProjections → List Nat} {kind : AuditEvent → Bool},
      LeafTable leaf kind → LeafCurrent leaf kind store → LeafCurrent leaf kind next := by
    intro leaf kind table current groupId
    rw [sameEvents]
    rcases rows groupId with same | rebuilt
    · rw [same]
      exact current groupId
    · exact table.rebuilt rebuilt
  have evidence := kept.evidenceOf consistent.evidence
  exact
    { evidence := evidence
      registers := kept.groups ▸ consistent.registers
      rollups := by
        rw [RollupsCurrent, kept.groups, kept.events]
        exact consistent.rollups
      once :=
        { delivery :=
            { formed := evidence.formed
              order := fun groupId => by
                rw [sameEvents]
                rcases rows groupId with same | rebuilt
                · rw [same]
                  exact consistent.once.delivery.order groupId
                · exact ⟨_, perm_inOrder _ _, rebuildGroup_delivery rebuilt⟩ }
          network := leaf leafTable_network consistent.once.network
          stateDeltas := leaf leafTable_stateDeltas consistent.once.stateDeltas
          epochTransitions := leaf leafTable_epochTransitions consistent.once.epochTransitions }
      evidenced := fun groupId => by
        have sameGroup : next.InGroup groupId = store.InGroup groupId := by
          funext eventId
          rw [Store.InGroup, sameEvents, Store.InGroup]
        rw [sameGroup]
        rcases rows groupId with same | rebuilt
        · rw [same]
          exact consistent.evidenced groupId
        · exact evidenced_rebuilt rebuilt }

end Consistent

/-- Every sequence of atomic steps leaves a consistent state. -/
theorem Serial.consistent {env : Env} {done : List Upload} {store : Store}
    (serial : Serial env done store) : Consistent env done store := by
  induction serial with
  | empty => exact .empty env
  | upload before committed inductionHypothesis => exact inductionHypothesis.upload committed
  | @rebuild done store groupId rows before rebuilt inductionHypothesis =>
      refine inductionHypothesis.kept ⟨rfl, rfl, rfl, le_rfl, le_rfl, le_rfl⟩ fun other => ?_
      by_cases here : other = groupId
      · subst here
        simp only [Function.update_self]
        exact .inr rebuilt
      · exact .inl (Function.update_of_ne here _ _)
  | rejection upload rejected before inductionHypothesis =>
      exact inductionHypothesis.kept ⟨rfl, rfl, rfl, le_rfl, le_rfl, le_rfl⟩ fun _ => .inl rfl
  | sequences before groups files events inductionHypothesis =>
      exact inductionHypothesis.kept ⟨rfl, rfl, rfl, groups, files, events⟩ fun _ => .inl rfl

end Goggles
