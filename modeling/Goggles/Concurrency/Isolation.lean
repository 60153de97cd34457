/-
Module: Goggles.Concurrency.Isolation
Purpose: What a transaction relies on at each of its statements, and that the commits of others leave
  it true: the recorders' locks keep what the dedup read found, the locks of the groups keep what the
  projection and the counts were computed from.
Trusted boundary: none beyond the modules it imports
Main exports: GroupsHeld, FileOwned, Isolated, Within, Isolated.stable
-/
import Goggles.Concurrency.Protocol
import Goggles.Concurrency.Commit
import Goggles.Concurrency.Locality

namespace Goggles

/-! ### The group rows of a transaction -/

/-- A row after the updates of its reference. -/
def adoptAll (adoptedRefs : List (Nat × Str)) (group : AuditGroup) : AuditGroup :=
  adoptedRefs.foldl
    (fun row entry => if row.id = entry.1 then { row with groupRef := entry.2 } else row) group

theorem adoptAll_cons (entry : Nat × Str) (rest : List (Nat × Str)) (group : AuditGroup) :
    adoptAll (entry :: rest) group =
      adoptAll rest (if group.id = entry.1 then { group with groupRef := entry.2 } else group) := rfl

/-- Nothing but the reference changes. -/
theorem adoptAll_eq (adoptedRefs : List (Nat × Str)) (group : AuditGroup) :
    ∃ groupRef, adoptAll adoptedRefs group = { group with groupRef := groupRef } ∧
      (groupRef = group.groupRef ∨ (group.id, groupRef) ∈ adoptedRefs) ∧
      (group.id ∈ adoptedRefs.map Prod.fst → (group.id, groupRef) ∈ adoptedRefs) := by
  induction adoptedRefs generalizing group with
  | nil => exact ⟨group.groupRef, rfl, .inl rfl, by simp⟩
  | cons entry rest inductionHypothesis =>
      rw [adoptAll_cons]
      by_cases mine : group.id = entry.1
      · rw [if_pos mine]
        obtain ⟨groupRef, same, origin, later⟩ :=
          inductionHypothesis { group with groupRef := entry.2 }
        have listed : (group.id, groupRef) ∈ entry :: rest := by
          rcases origin with kept | listed
          · exact List.mem_cons.mpr (.inl (by rw [kept, mine]))
          · exact List.mem_cons_of_mem entry listed
        exact ⟨groupRef, same, .inr listed, fun _ => listed⟩
      · rw [if_neg mine]
        obtain ⟨groupRef, same, origin, later⟩ := inductionHypothesis group
        refine ⟨groupRef, same, origin.imp_right (List.mem_cons_of_mem entry), fun member => ?_⟩
        rcases List.mem_cons.mp member with here | there
        · exact absurd here mine
        · exact List.mem_cons_of_mem entry (later there)

@[simp] theorem id_adoptAll (adoptedRefs : List (Nat × Str)) (group : AuditGroup) :
    (adoptAll adoptedRefs group).id = group.id := by
  obtain ⟨groupRef, same, -⟩ := adoptAll_eq adoptedRefs group
  rw [same]

@[simp] theorem slug_adoptAll (adoptedRefs : List (Nat × Str)) (group : AuditGroup) :
    (adoptAll adoptedRefs group).slug = group.slug := by
  obtain ⟨groupRef, same, -⟩ := adoptAll_eq adoptedRefs group
  rw [same]

@[simp] theorem divergentMessageCount_adoptAll (adoptedRefs : List (Nat × Str))
    (group : AuditGroup) :
    (adoptAll adoptedRefs group).divergentMessageCount = group.divergentMessageCount := by
  obtain ⟨groupRef, same, -⟩ := adoptAll_eq adoptedRefs group
  rw [same]

theorem Ingestion.groupRows_eq (ingestion : Ingestion) (committed : List AuditGroup) :
    ingestion.groupRows committed =
      (committed ++ ingestion.createdGroups).map (adoptAll ingestion.adoptedRefs) := by
  rw [Ingestion.groupRows]
  generalize committed ++ ingestion.createdGroups = rows
  induction ingestion.adoptedRefs generalizing rows with
  | nil =>
      rw [List.foldl_nil]
      exact (List.map_id rows).symm
  | cons entry rest inductionHypothesis =>
      rw [List.foldl_cons, inductionHypothesis, setGroupRef, List.map_map]
      rfl

/-! ### What a transaction relies on -/

/-- The groups a transaction has resolved, created, given a reference and locked. -/
structure GroupsHeld (env : Env) (store : Store) (ingestion : Ingestion) : Prop where
  createdIds : (ingestion.createdGroups.map (·.id)).Nodup
  createdSlugs : (ingestion.createdGroups.map (·.slug)).Nodup
  createdBound : ∀ group ∈ ingestion.createdGroups, group.id < store.nextGroupId
  createdFresh : ∀ group ∈ ingestion.createdGroups, ∀ old ∈ store.groups,
    old.id ≠ group.id ∧ old.slug ≠ group.slug
  createdOrigin : ∀ group ∈ ingestion.createdGroups, group.id ∈ ingestion.groupsByKey.map Prod.snd ∧
    (group.groupRef ≠ [] → group.slug = groupSlugForRef env group.groupRef ∧
      .ref group.groupRef ∈ ingestion.groupsByKey.map Prod.fst)
  adopted : ∀ entry ∈ ingestion.adoptedRefs, (.ref entry.2, entry.1) ∈ ingestion.groupsByKey
  keys : ∀ entry ∈ ingestion.groupsByKey,
    entry.1 ∈ groupKeys ingestion.upload.fallbackGroupSlug ingestion.lines
  /-- The row of a resolved key, and that the row of a reference has one. -/
  resolved : ∀ entry ∈ ingestion.groupsByKey, ∃ group ∈ store.groups ++ ingestion.createdGroups,
    group.id = entry.2 ∧ group.slug = entry.1.slugOf env ∧
      (∀ value, entry.1 = .ref value →
        group.groupRef ≠ [] ∨ group.id ∈ ingestion.adoptedRefs.map Prod.fst)
  locked : ∀ groupId ∈ ingestion.lockedGroups, groupId ∈ ingestion.groupsByKey.map Prod.snd

/-- The inserted file is new, by id and by hash. -/
structure FileOwned (env : Env) (store : Store) (ingestion : Ingestion) (fileId : Nat) : Prop where
  bound : fileId < store.nextFileId
  fresh : ∀ file ∈ store.files, file.id ≠ fileId
  unseen : ∀ file ∈ store.files, file.fileSha256 ≠ ingestion.fileSha256 env

/-- The inserted rows have ascending ids of their own. -/
structure EventsNumbered (store : Store) (events : List AuditEvent) : Prop where
  ascending : (events.map (·.id)).Pairwise (· < ·)
  bound : ∀ event ∈ events, event.id < store.nextEventId
  fresh : ∀ event ∈ events, ∀ old ∈ store.events, old.id ≠ event.id

namespace Ingestion

variable (env : Env) (store : Store) (ingestion : Ingestion)

/-- The locks of all recorders are held. -/
def RecordersLocked : Prop :=
  ∀ line ∈ ingestion.lines, recorderKey env line.engineId ∈ ingestion.recorderKeys

/-- Every key is resolved. -/
def KeysResolved : Prop :=
  ingestion.groupsByKey.map Prod.fst =
    groupKeys ingestion.upload.fallbackGroupSlug ingestion.lines

/-- All is locked that the upload needs. -/
structure Locked : Prop where
  recorders : ingestion.RecordersLocked env
  keys : ingestion.KeysResolved
  groups : ∀ entry ∈ ingestion.groupsByKey, entry.2 ∈ ingestion.lockedGroups

/-- The loop of `create_events` would do now what it did when it ran. -/
structure Scanned (fileId : Nat) (scan : EventScan) : Prop where
  events : scan.events =
    (createEvents store.events ingestion.groupOf 0 fileId ingestion.lines).events
  duplicateCount : scan.duplicateCount =
    (createEvents store.events ingestion.groupOf 0 fileId ingestion.lines).duplicateCount
  groupIds : scan.groupIds =
    (createEvents store.events ingestion.groupOf 0 fileId ingestion.lines).groupIds

/-- The file row as it will be committed. -/
def file (fileId : Nat) (scan : EventScan) : AuditFile :=
  newFile env fileId ingestion.upload ingestion.rawText ingestion.lines scan

/-- The projection would leave now, in the file's groups, the rows it left when it ran. -/
def Projected (fileId : Nat) (scan : EventScan) (projections : Nat → GroupProjections) : Prop :=
  ∃ result, rebuildFileProjections (store.events ++ ingestion.events) store.projections
      (ingestion.file env fileId scan) = some result ∧
    ∀ groupId ∈ scan.groupIds, projections groupId = result groupId

/-- The counts of the file's groups, over the rows there are now. -/
def currentCounts (scan : EventScan) : List (Nat × Nat) :=
  scan.groupIds.map fun groupId =>
    (groupId, divergentCount (validGroupEvents (store.events ++ ingestion.events) groupId))

/-- What holds before the next statement. -/
def PhaseHolds : Prop :=
  match ingestion.phase with
  | .recorderLock engineId left =>
      (∀ line ∈ ingestion.lines, line.engineId ∈ engineId :: left ∨
        recorderKey env line.engineId ∈ ingestion.recorderKeys) ∧
      ingestion.groupsByKey = [] ∧ ingestion.events = []
  | .groupLookup key left lookup =>
      ingestion.RecordersLocked env ∧
      ingestion.groupsByKey.map Prod.fst ++ key :: left =
        groupKeys ingestion.upload.fallbackGroupSlug ingestion.lines ∧
      (∀ groupId, lookup = .adopt groupId →
        (∃ value, key = .ref value) ∧ ∃ group ∈ store.groups ++ ingestion.createdGroups,
          group.id = groupId ∧ group.slug = key.slugOf env) ∧
      (lookup = .byRef → ∃ value, key = .ref value) ∧
      ingestion.events = []
  | .groupLocks =>
      ingestion.RecordersLocked env ∧ ingestion.KeysResolved ∧ ingestion.events = []
  | .fileInsert => ingestion.Locked env ∧ ingestion.events = []
  | .duplicateRead _ => ingestion.Locked env ∧ ingestion.events = []
  | .eventInsert fileId scan row left =>
      ingestion.Locked env ∧ ingestion.Scanned store fileId scan ∧
      ∃ done, scan.events = done ++ row :: left ∧ Renumbered done ingestion.events
  | .projection fileId scan =>
      ingestion.Locked env ∧ ingestion.Scanned store fileId scan ∧
      Renumbered scan.events ingestion.events
  | .rollups fileId scan projections =>
      ingestion.Locked env ∧ ingestion.Scanned store fileId scan ∧
      Renumbered scan.events ingestion.events ∧
      ingestion.Projected env store fileId scan projections
  | .commit fileId scan projections counts =>
      ingestion.Locked env ∧ ingestion.Scanned store fileId scan ∧
      Renumbered scan.events ingestion.events ∧
      ingestion.Projected env store fileId scan projections ∧
      counts = ingestion.currentCounts store scan

end Ingestion

/-- What a transaction relies on. -/
structure Isolated (env : Env) (store : Store) (ingestion : Ingestion) : Prop where
  valid : validateUpload env ingestion.upload.dumpBytes = .ok (ingestion.rawText, ingestion.lines)
  groups : GroupsHeld env store ingestion
  file : ∀ fileId, ingestion.phase.fileId = some fileId → FileOwned env store ingestion fileId
  numbered : EventsNumbered store ingestion.events
  phase : ingestion.PhaseHolds env store

/-! ### The commits of others -/

/-- Committed rows changed within what a transaction held: its groups, one file, its events, the
projections of its groups. -/
structure Within (env : Env) (held : List Resource) (before after : Store) : Prop where
  groupsKept : ∀ group ∈ before.groups, ∃ later ∈ after.groups,
    later.id = group.id ∧ later.slug = group.slug ∧ (group.groupRef ≠ [] → later.groupRef ≠ [])
  groupsNew : ∀ group ∈ after.groups,
    (∃ old ∈ before.groups, old.id = group.id ∧ old.slug = group.slug) ∨
      .group group.id ∈ held ∧ .slug group.slug ∈ held
  files : ∃ new, after.files = before.files ++ new ∧
    ∀ file ∈ new, .file file.id ∈ held ∧ .fileHash file.fileSha256 ∈ held
  events : ∃ new, after.events = before.events ++ new ∧
    ∀ event ∈ new, (∀ old ∈ before.events, old.id ≠ event.id) ∧ .event event.id ∈ held ∧
      .recorder (recorderKey env event.engineId) ∈ held ∧ .file event.auditFileId ∈ held ∧
      ∀ groupId, event.groupId = some groupId → .group groupId ∈ held
  projections : ∀ groupId, .group groupId ∉ held →
    after.projections groupId = before.projections groupId
  nextGroupId : before.nextGroupId ≤ after.nextGroupId
  nextFileId : before.nextFileId ≤ after.nextFileId
  nextEventId : before.nextEventId ≤ after.nextEventId

theorem Within.refl (env : Env) (held : List Resource) (store : Store) :
    Within env held store store where
  groupsKept := fun group member => ⟨group, member, rfl, rfl, id⟩
  groupsNew := fun group member => .inl ⟨group, member, rfl, rfl⟩
  files := ⟨[], by simp⟩
  events := ⟨[], by simp⟩
  projections := fun _ _ => rfl
  nextGroupId := le_rfl
  nextFileId := le_rfl
  nextEventId := le_rfl

/-- What a transaction holds, resource by resource. -/
def Ingestion.Holding (env : Env) (ingestion : Ingestion) : Resource → Prop
  | .recorder key => key ∈ ingestion.recorderKeys
  | .group groupId => groupId ∈ ingestion.createdGroups.map (·.id) ∨
      groupId ∈ ingestion.adoptedRefs.map Prod.fst ∨ groupId ∈ ingestion.lockedGroups
  | .slug slug => slug ∈ ingestion.createdGroups.map (·.slug)
  | .file fileId => ingestion.phase.fileId = some fileId
  | .fileHash hash => ingestion.phase.fileId.isSome ∧ hash = ingestion.fileSha256 env
  | .event eventId => eventId ∈ ingestion.events.map (·.id)

theorem Ingestion.mem_holds {env : Env} {ingestion : Ingestion} {resource : Resource} :
    resource ∈ ingestion.holds env ↔ ingestion.Holding env resource := by
  cases found : ingestion.phase.fileId with
  | none => cases resource <;> simp [Ingestion.holds, Ingestion.Holding, found]
  | some fileId =>
      cases resource <;> simp [Ingestion.holds, Ingestion.Holding, found, eq_comm]

/-! ### The dedup read -/

/-- The loop over known pairs that tell the same about its lines. -/
theorem foldl_next_congr {groupOf : ParsedLine → Option Nat} {first fileId : Nat}
    {lines : List ParsedLine} (accepted : ∀ line ∈ lines, AcceptedLine line)
    {left right : EventScan} (events : left.events = right.events)
    (duplicateCount : left.duplicateCount = right.duplicateCount)
    (groupIds : left.groupIds = right.groupIds)
    (agree : ∀ line ∈ lines, line.pair ∈ left.existing ↔ line.pair ∈ right.existing) :
    let before := lines.foldl (EventScan.next groupOf first fileId) left
    let after := lines.foldl (EventScan.next groupOf first fileId) right
    before.events = after.events ∧ before.duplicateCount = after.duplicateCount ∧
      before.groupIds = after.groupIds := by
  induction lines generalizing left right with
  | nil => exact ⟨events, duplicateCount, groupIds⟩
  | cons line rest inductionHypothesis =>
      have isAccepted := accepted line List.mem_cons_self
      have restAccepted : ∀ other ∈ rest, AcceptedLine other := fun other member =>
        accepted other (List.mem_cons_of_mem line member)
      have restAgree : ∀ other ∈ rest, other.pair ∈ left.existing ↔ other.pair ∈ right.existing :=
        fun other member => agree other (List.mem_cons_of_mem line member)
      have same : duplicateEventExists line left.existing =
          duplicateEventExists line right.existing := by
        rw [Bool.eq_iff_iff, duplicateEventExists_iff isAccepted, duplicateEventExists_iff isAccepted]
        exact agree line List.mem_cons_self
      simp only [List.foldl_cons]
      apply inductionHypothesis restAccepted
      all_goals simp only [EventScan.next, same, events, groupIds, duplicateCount]
      · split <;> rfl
      · split <;> rfl
      · split <;> rfl
      · intro other member
        split
        · exact restAgree other member
        · rw [List.mem_append, List.mem_append, restAgree other member]

/-- Events of other recorders are no duplicates of the lines. -/
theorem createEvents_others {old theirs : List AuditEvent} {groupOf : ParsedLine → Option Nat}
    {first fileId : Nat} {lines : List ParsedLine} (accepted : ∀ line ∈ lines, AcceptedLine line)
    (others : ∀ event ∈ theirs, ∀ line ∈ lines, event.engineId ≠ line.engineId) :
    let before := createEvents old groupOf first fileId lines
    let after := createEvents (old ++ theirs) groupOf first fileId lines
    before.events = after.events ∧ before.duplicateCount = after.duplicateCount ∧
      before.groupIds = after.groupIds := by
  refine @foldl_next_congr groupOf first fileId lines accepted
    ⟨existingDuplicateEvents old lines, [], 0, []⟩
    ⟨existingDuplicateEvents (old ++ theirs) lines, [], 0, []⟩ rfl rfl rfl fun line member => ?_
  simp only [mem_existingDuplicateEvents, List.map_append, List.mem_append]
  apply and_congr_right
  intro _
  refine ⟨.inl, fun known => known.resolve_right ?_⟩
  intro theirPair
  obtain ⟨event, eventMember, same⟩ := List.mem_map.mp theirPair
  exact others event eventMember line member (congrArg Prod.snd same)

/-! ### Stability -/

section Stable

variable {env : Env} {before after : Store} {ingestion : Ingestion} {held : List Resource}

theorem GroupsHeld.stable (groups : GroupsHeld env before ingestion)
    (within : Within env held before after) (apart : held.Disjoint (ingestion.holds env)) :
    GroupsHeld env after ingestion where
  createdIds := groups.createdIds
  createdSlugs := groups.createdSlugs
  createdBound := fun group member => (groups.createdBound group member).trans_le within.nextGroupId
  createdFresh := fun group member later known => by
    rcases within.groupsNew later known with ⟨old, oldMember, sameId, sameSlug⟩ | ⟨theirId, theirSlug⟩
    · rw [← sameId, ← sameSlug]
      exact groups.createdFresh group member old oldMember
    · refine ⟨fun same => ?_, fun same => ?_⟩
      · exact apart theirId (Ingestion.mem_holds.mpr (.inl (same ▸ List.mem_map_of_mem member)))
      · refine apart theirSlug (Ingestion.mem_holds.mpr ?_)
        rw [Ingestion.Holding, same]
        exact List.mem_map_of_mem member
  createdOrigin := groups.createdOrigin
  adopted := groups.adopted
  keys := groups.keys
  resolved := fun entry member => by
    obtain ⟨group, known, sameId, sameSlug, named⟩ := groups.resolved entry member
    rcases List.mem_append.mp known with committed | created
    · obtain ⟨later, laterMember, laterId, laterSlug, laterNamed⟩ :=
        within.groupsKept group committed
      refine ⟨later, List.mem_append_left _ laterMember, laterId.trans sameId,
        laterSlug.trans sameSlug, fun value same => ?_⟩
      rw [laterId]
      exact (named value same).imp_left laterNamed
    · exact ⟨group, List.mem_append_right _ created, sameId, sameSlug, named⟩
  locked := groups.locked

theorem FileOwned.stable {fileId : Nat} (owned : FileOwned env before ingestion fileId)
    (inserted : ingestion.phase.fileId = some fileId) (within : Within env held before after)
    (apart : held.Disjoint (ingestion.holds env)) : FileOwned env after ingestion fileId where
  bound := owned.bound.trans_le within.nextFileId
  fresh := fun file member same => by
    obtain ⟨new, split, theirs⟩ := within.files
    rw [split] at member
    rcases List.mem_append.mp member with old | added
    · exact owned.fresh file old same
    · exact apart (theirs file added).1 (Ingestion.mem_holds.mpr (same ▸ inserted))
  unseen := fun file member same => by
    obtain ⟨new, split, theirs⟩ := within.files
    rw [split] at member
    rcases List.mem_append.mp member with old | added
    · exact owned.unseen file old same
    · refine apart (theirs file added).2 (Ingestion.mem_holds.mpr ⟨?_, same⟩)
      rw [inserted]
      rfl

theorem EventsNumbered.stable (numbered : EventsNumbered before ingestion.events)
    (within : Within env held before after) (apart : held.Disjoint (ingestion.holds env)) :
    EventsNumbered after ingestion.events where
  ascending := numbered.ascending
  bound := fun event member => (numbered.bound event member).trans_le within.nextEventId
  fresh := fun event member old known same => by
    obtain ⟨new, split, theirs⟩ := within.events
    rw [split] at known
    rcases List.mem_append.mp known with earlier | added
    · exact numbered.fresh event member old earlier same
    · refine apart (theirs old added).2.1 (Ingestion.mem_holds.mpr ?_)
      rw [Ingestion.Holding, same]
      exact List.mem_map_of_mem member

theorem Isolated.accepted (isolated : Isolated env before ingestion) :
    ∀ line ∈ ingestion.lines, AcceptedLine line :=
  have valid := validateUpload_eq_ok_iff.mp isolated.valid
  acceptedLines valid.2.2.1 valid.2.2.2.2.1

theorem Isolated.created (isolated : Isolated env before ingestion) (fileId : Nat) :
    CreatedEvents (existingDuplicateEvents before.events ingestion.lines) ingestion.groupOf 0 fileId
      ingestion.lines (createEvents before.events ingestion.groupOf 0 fileId ingestion.lines) :=
  createEvents_spec isolated.accepted

/-- The group of a line is that of a resolved key. -/
theorem Ingestion.exists_key_of_groupOf {line : ParsedLine} {groupId : Nat}
    (grouped : ingestion.groupOf line = some groupId) :
    ∃ key, (key, groupId) ∈ ingestion.groupsByKey := by
  obtain ⟨key, -, listed⟩ := Option.bind_eq_some_iff.mp grouped
  obtain ⟨front, back, split, -⟩ := List.lookup_eq_some_iff.mp listed
  exact ⟨key, by simp [split]⟩

/-- The groups of a scan are locked. -/
theorem Ingestion.Scanned.group_held (isolated : Isolated env before ingestion)
    (locked : ingestion.Locked env) {fileId : Nat} {scan : EventScan}
    (scanned : ingestion.Scanned before fileId scan) {groupId : Nat}
    (listed : groupId ∈ scan.groupIds) : .group groupId ∈ ingestion.holds env := by
  rw [scanned.groupIds, (isolated.created fileId).groups] at listed
  obtain ⟨line, -, grouped⟩ := listed
  obtain ⟨key, member⟩ := Ingestion.exists_key_of_groupOf grouped
  exact Ingestion.mem_holds.mpr (.inr (.inr (locked.groups (key, groupId) member)))

/-- The recorders' locks: what others committed is no duplicate of the upload's lines. -/
theorem Ingestion.Scanned.stable (isolated : Isolated env before ingestion)
    (within : Within env held before after) (apart : held.Disjoint (ingestion.holds env))
    (locked : ingestion.RecordersLocked env) {fileId : Nat} {scan : EventScan}
    (scanned : ingestion.Scanned before fileId scan) : ingestion.Scanned after fileId scan := by
  obtain ⟨new, split, theirs⟩ := within.events
  have others : ∀ event ∈ new, ∀ line ∈ ingestion.lines, event.engineId ≠ line.engineId := by
    intro event member line lineMember same
    refine apart (theirs event member).2.2.1 (Ingestion.mem_holds.mpr ?_)
    rw [Ingestion.Holding, same]
    exact locked line lineMember
  obtain ⟨events, duplicateCount, groupIds⟩ :=
    @createEvents_others before.events new ingestion.groupOf 0 fileId _ isolated.accepted others
  rw [← split] at events duplicateCount groupIds
  exact ⟨scanned.events.trans events, scanned.duplicateCount.trans duplicateCount,
    scanned.groupIds.trans groupIds⟩

/-- The events a transaction inserted are rows of its scan. -/
theorem Ingestion.Scanned.rows (isolated : Isolated env before ingestion) {fileId : Nat}
    {scan : EventScan} (scanned : ingestion.Scanned before fileId scan)
    (renumbered : Renumbered scan.events ingestion.events) {event : AuditEvent}
    (member : event ∈ ingestion.events) :
    event.auditFileId = fileId ∧ (∃ line ∈ ingestion.lines, event.engineId = line.engineId) ∧
      ∀ groupId, event.groupId = some groupId → groupId ∈ scan.groupIds := by
  have created := isolated.created fileId
  obtain ⟨row, rowMember, same⟩ := renumbered.exists_row member
  rw [scanned.events] at rowMember
  obtain ⟨line, lineMember, eventId, made⟩ := created.origin row rowMember
  refine ⟨?_, ⟨line, lineMember, ?_⟩, fun groupId grouped => ?_⟩
  · rw [same, made]
    rfl
  · rw [same, made]
    exact (isolated.accepted line lineMember).row_engineId _ _ _
  · rw [scanned.groupIds]
    rw [same] at grouped
    exact created.group_mem rowMember grouped

/-- A file is projected in the groups of its scan. -/
theorem Ingestion.mem_of_touched {done : List Upload} (consistent : Consistent env done before)
    (isolated : Isolated env before ingestion) {fileId : Nat} {scan : EventScan}
    (owned : FileOwned env before ingestion fileId)
    (scanned : ingestion.Scanned before fileId scan)
    (renumbered : Renumbered scan.events ingestion.events) {groupId : Nat}
    (touched : groupId ∈ touchedGroups (before.events ++ ingestion.events)
      (ingestion.file env fileId scan)) : groupId ∈ scan.groupIds := by
  rcases List.mem_union_iff.mp touched with linked | grouped
  · exact linked
  · simp only [eventGroups, List.mem_dedup, List.mem_filterMap, List.mem_filter, beq_iff_eq,
      List.mem_append] at grouped
    obtain ⟨event, ⟨old | mine, owner⟩, inGroup⟩ := grouped
    · obtain ⟨file, fileMember, same⟩ := consistent.formed.owned event old
      exact absurd (same.trans owner) (owned.fresh file fileMember)
    · exact (scanned.rows isolated renumbered mine).2.2 groupId inGroup

/-- What others commit while the file is projected. -/
theorem Isolated.beside {done : List Upload} (consistent : Consistent env done before)
    (isolated : Isolated env before ingestion) (apart : held.Disjoint (ingestion.holds env))
    (locked : ingestion.Locked env) {fileId : Nat} {scan : EventScan}
    (inserted : ingestion.phase.fileId = some fileId)
    (scanned : ingestion.Scanned before fileId scan)
    (renumbered : Renumbered scan.events ingestion.events) {new : List AuditEvent}
    (theirs : ∀ event ∈ new, (∀ old ∈ before.events, old.id ≠ event.id) ∧ .event event.id ∈ held ∧
      .recorder (recorderKey env event.engineId) ∈ held ∧ .file event.auditFileId ∈ held ∧
      ∀ groupId, event.groupId = some groupId → .group groupId ∈ held) :
    Beside before.events new ingestion.events before.projections
      (ingestion.file env fileId scan) where
  owner := fun event member same =>
    apart (theirs event member).2.2.2.1 (Ingestion.mem_holds.mpr (same ▸ inserted))
  group := fun event member groupId touched same => by
    have listed := Ingestion.mem_of_touched consistent isolated (isolated.file fileId inserted)
      scanned renumbered touched
    exact apart ((theirs event member).2.2.2.2 groupId same) (scanned.group_held isolated locked listed)
  uncited := fun event member groupId _ run row found cited => by
    obtain ⟨old, oldMember, same⟩ := (consistent.evidenced groupId).cites.runs (run, row)
      (Keyed.find_eq_some_iff.mp found) event.id cited
    exact (theirs event member).1 old (List.mem_of_mem_filter oldMember) same

/-- The locks of the groups: the projection would leave the same rows. -/
theorem Ingestion.Projected.stable {done : List Upload} (consistent : Consistent env done before)
    (isolated : Isolated env before ingestion) (within : Within env held before after)
    (apart : held.Disjoint (ingestion.holds env)) (locked : ingestion.Locked env) {fileId : Nat}
    {scan : EventScan} (inserted : ingestion.phase.fileId = some fileId)
    (scanned : ingestion.Scanned before fileId scan)
    (renumbered : Renumbered scan.events ingestion.events)
    {projections : Nat → GroupProjections}
    (projected : ingestion.Projected env before fileId scan projections) :
    ingestion.Projected env after fileId scan projections := by
  obtain ⟨new, split, theirs⟩ := within.events
  have beside := isolated.beside consistent apart locked inserted scanned renumbered theirs
  have inScan := fun {groupId} touched => @Ingestion.mem_of_touched env before ingestion done
    consistent isolated fileId scan (isolated.file fileId inserted) scanned renumbered groupId touched
  obtain ⟨result, ran, left⟩ := projected
  obtain ⟨again, reran, inside, outside⟩ := rebuildFileProjections_beside beside
    (fun groupId touched => (within.projections groupId fun theirGroup =>
      apart theirGroup (scanned.group_held isolated locked (inScan touched))).symm) ran
  refine ⟨again, split ▸ reran, fun groupId listed => ?_⟩
  have touched : groupId ∈ touchedGroups (before.events ++ ingestion.events)
      (ingestion.file env fileId scan) := List.mem_union_iff.mpr (.inl listed)
  rw [left groupId listed, inside groupId touched]

/-- The locks of the groups: the counts would be the same. -/
theorem Ingestion.currentCounts_stable (isolated : Isolated env before ingestion)
    (within : Within env held before after) (apart : held.Disjoint (ingestion.holds env))
    (locked : ingestion.Locked env) {fileId : Nat} {scan : EventScan}
    (scanned : ingestion.Scanned before fileId scan) :
    ingestion.currentCounts after scan = ingestion.currentCounts before scan := by
  obtain ⟨new, split, theirs⟩ := within.events
  refine List.map_congr_left fun groupId listed => ?_
  have same : validGroupEvents (after.events ++ ingestion.events) groupId =
      validGroupEvents (before.events ++ ingestion.events) groupId := by
    rw [split]
    apply filter_between
    intro event member
    rw [← Bool.not_eq_true]
    intro counts
    exact apart ((theirs event member).2.2.2.2 groupId (AuditEvent.countsFor_iff.mp counts).1)
      (scanned.group_held isolated locked listed)
  rw [same]

/-- A transaction keeps what it relies on while others commit. -/
theorem Isolated.stable {done : List Upload} (consistent : Consistent env done before)
    (isolated : Isolated env before ingestion) (within : Within env held before after)
    (apart : held.Disjoint (ingestion.holds env)) : Isolated env after ingestion where
  valid := isolated.valid
  groups := isolated.groups.stable within apart
  file := fun fileId inserted => (isolated.file fileId inserted).stable inserted within apart
  numbered := isolated.numbered.stable within apart
  phase := by
    have holds := isolated.phase
    unfold Ingestion.PhaseHolds at holds ⊢
    cases phase : ingestion.phase with
    | recorderLock engineId left => simpa only [phase] using holds
    | groupLookup key left lookup =>
        simp only [phase] at holds ⊢
        obtain ⟨recorders, keys, adopts, refers, empty⟩ := holds
        refine ⟨recorders, keys, fun groupId same => ?_, refers, empty⟩
        obtain ⟨isRef, group, known, sameId, sameSlug⟩ := adopts groupId same
        refine ⟨isRef, ?_⟩
        rcases List.mem_append.mp known with committed | created
        · obtain ⟨later, laterMember, laterId, laterSlug, -⟩ := within.groupsKept group committed
          exact ⟨later, List.mem_append_left _ laterMember, laterId.trans sameId,
            laterSlug.trans sameSlug⟩
        · exact ⟨group, List.mem_append_right _ created, sameId, sameSlug⟩
    | groupLocks => simpa only [phase] using holds
    | fileInsert => simpa only [phase] using holds
    | duplicateRead fileId => simpa only [phase] using holds
    | eventInsert fileId scan row left =>
        simp only [phase] at holds ⊢
        obtain ⟨locked, scanned, inserted⟩ := holds
        exact ⟨locked, scanned.stable isolated within apart locked.recorders, inserted⟩
    | projection fileId scan =>
        simp only [phase] at holds ⊢
        obtain ⟨locked, scanned, renumbered⟩ := holds
        exact ⟨locked, scanned.stable isolated within apart locked.recorders, renumbered⟩
    | rollups fileId scan projections =>
        simp only [phase] at holds ⊢
        obtain ⟨locked, scanned, renumbered, projected⟩ := holds
        exact ⟨locked, scanned.stable isolated within apart locked.recorders, renumbered,
          projected.stable consistent isolated within apart locked (by rw [phase]; rfl) scanned
            renumbered⟩
    | commit fileId scan projections counts =>
        simp only [phase] at holds ⊢
        obtain ⟨locked, scanned, renumbered, projected, counted⟩ := holds
        exact ⟨locked, scanned.stable isolated within apart locked.recorders, renumbered,
          projected.stable consistent isolated within apart locked (by rw [phase]; rfl) scanned
            renumbered,
          counted.trans (Ingestion.currentCounts_stable isolated within apart locked scanned).symm⟩

end Stable

end Goggles
