/-
Module: Goggles.Views.GroupList
Purpose: The index of groups, whose numbers are aggregated over all groups at once: they agree with
  the summary of each group, and with its events.
Trusted boundary: forensics/analysis.py, `group_list_rows` to `display_group_ref`.  The groups stand
  in the order of their table; a time is a date up to the year 9999; every stored file is valid, so
  the exclusion of quarantined files keeps all events
Main exports: eventStatsForGroups, auditFileCountsForGroups, GroupListRow, groupListRows,
  GroupRowAgrees, groupList_agrees
-/
import Goggles.Library.Grouping
import Goggles.Views.Engines

namespace Goggles

/-! ### Aggregates over all groups -/

/-- `GROUP_EPOCH_RANGE_FIELDS`. -/
def GROUP_EPOCH_RANGE_FIELDS : List Str :=
  [lit "epoch", lit "source_epoch", lit "from_epoch", lit "to_epoch", lit "pending_epoch",
    lit "restored_epoch", lit "current_tip_epoch", lit "selected_fork_epoch",
    lit "selected_tip_epoch"]

/-- What the database aggregates for a group. -/
structure GroupEventStats where
  eventCount : Nat
  engineCount : Nat
  lastActivityMs : Option Nat
  epochMin : Option Nat
  epochMax : Option Nat
deriving Repr, DecidableEq

/-- The aggregate of the events of a group. -/
def groupEventStats (events : List AuditEvent) : GroupEventStats where
  eventCount := (events.map (·.id)).dedup.length
  engineCount := (distinctValues events fun event => nonBlank event.engineId).card
  lastActivityMs := (events.filterMap (·.wallTimeMs)).max?
  epochMin := (GROUP_EPOCH_RANGE_FIELDS.filterMap fun field =>
    (events.filterMap (·.number field)).min?).min?
  epochMax := (GROUP_EPOCH_RANGE_FIELDS.filterMap fun field =>
    (events.filterMap (·.number field)).max?).max?

section Aggregates

variable (store : Store) (groups : List AuditGroup)

/-- `[group.pk for group in groups if group.pk]`. -/
def listedGroupIds : List Nat := (groups.map (·.id)).filter (· ≠ 0)

/-- `valid_events`. -/
def listedEvents : List AuditEvent :=
  store.events.filter fun event =>
    event.groupId.any (listedGroupIds groups).contains && event.parseStatus = .valid

/-- Events under their groups. -/
def byGroup (events : List AuditEvent) : List (Nat × AuditEvent) :=
  events.filterMap fun event => event.groupId.map (·, event)

/-- `event_stats_for_groups`: the aggregates of the groups with events, and the groups with forks. -/
def eventStatsForGroups : Keyed Nat GroupEventStats × List Nat :=
  if listedGroupIds groups = [] then (.empty, [])
  else
    let validEvents := listedEvents store groups
    (Keyed.aggregate groupEventStats (byGroup validEvents),
      ((validEvents.filter fun event =>
        [lit "fork_resolution", lit "epoch_rolled_back"].contains event.eventType).filterMap
          (·.groupId)).dedup)

/-- The rows of `AuditFile.groups.through`. -/
def fileMemberships : List (Nat × Nat) :=
  store.files.flatMap fun file => file.groups.dedup.map (·, file.id)

/-- `audit_file_counts_for_groups`. -/
def auditFileCountsForGroups : Keyed Nat Nat :=
  if listedGroupIds groups = [] then .empty
  else
    Keyed.aggregate (fun fileIds => fileIds.dedup.length) ((fileMemberships store).filter fun row =>
      (listedGroupIds groups).contains row.1)

end Aggregates

/-! ### The rows -/

/-- `display_group_ref`. -/
def displayGroupRef (value : Str) : Str :=
  if value.length ≤ 80 then value
  else value.take 32 ++ lit "..." ++ value.drop (value.length - 32)

/-- `_last_activity_datetime`, as the milliseconds of a time that is a date. -/
def lastActivityDatetime (lastActivityMs : Option Nat) : Option Nat :=
  lastActivityMs.filter (· < 253402300800000)

/-- A row of `group_list_rows`. -/
structure GroupListRow where
  group : AuditGroup
  searchRef : Str
  displayRef : Str
  auditFileCount : Nat
  eventCount : Nat
  engineCount : Nat
  epochMin : Option Nat
  epochMax : Option Nat
  lastActivityMs : Option Nat
  hasForkActivity : Bool
  divergentCount : Nat
  lastActivity : Option Nat
deriving Repr, DecidableEq

/-- A group in the loop of `group_list_rows`, with what is looked up for it. -/
def groupListRow (fileCount : Option Nat) (stats : Option GroupEventStats) (hasForkActivity : Bool)
    (group : AuditGroup) : GroupListRow :=
  let searchRef := if group.groupRef ≠ [] then group.groupRef else group.slug
  let lastActivityMs := stats.bind (·.lastActivityMs)
  { group := group
    searchRef := searchRef
    displayRef := displayGroupRef searchRef
    auditFileCount := fileCount.getD 0
    eventCount := (stats.map (·.eventCount)).getD 0
    engineCount := (stats.map (·.engineCount)).getD 0
    epochMin := stats.bind (·.epochMin)
    epochMax := stats.bind (·.epochMax)
    lastActivityMs := lastActivityMs
    hasForkActivity := hasForkActivity
    divergentCount := group.divergentMessageCount
    lastActivity := lastActivityDatetime lastActivityMs }

/-- `group_list_rows`. -/
def groupListRows (store : Store) : List GroupListRow :=
  let fileCounts := auditFileCountsForGroups store store.groups
  let eventStats := eventStatsForGroups store store.groups
  store.groups.map fun group =>
    groupListRow (fileCounts.find group.id) (eventStats.1.find group.id)
      (eventStats.2.contains group.id) group

/-! ### Extremes of several lists -/

section Extremes

variable {κ : Type*} {keys : List κ} {values : κ → List Nat}

theorem min?_filterMap_min?_iff {least : Nat} :
    (keys.filterMap fun key => (values key).min?).min? = some least ↔
      IsLeast {value | ∃ key ∈ keys, value ∈ values key} least := by
  rw [List.min?_eq_some_iff]
  simp only [List.mem_filterMap]
  constructor
  · rintro ⟨⟨key, listed, ofKey⟩, below⟩
    refine ⟨⟨key, listed, (List.min?_eq_some_iff.mp ofKey).1⟩, ?_⟩
    rintro value ⟨other, otherListed, member⟩
    cases found : (values other).min? with
    | none => simp [List.min?_eq_none_iff.mp found] at member
    | some first =>
        exact (below first ⟨other, otherListed, found⟩).trans
          ((List.min?_eq_some_iff.mp found).2 value member)
  · rintro ⟨⟨key, listed, member⟩, below⟩
    constructor
    · refine ⟨key, listed, List.min?_eq_some_iff.mpr ⟨member, fun value other => ?_⟩⟩
      exact below ⟨key, listed, other⟩
    · rintro value ⟨other, otherListed, ofOther⟩
      exact below ⟨other, otherListed, (List.min?_eq_some_iff.mp ofOther).1⟩

theorem max?_filterMap_max?_iff {greatest : Nat} :
    (keys.filterMap fun key => (values key).max?).max? = some greatest ↔
      IsGreatest {value | ∃ key ∈ keys, value ∈ values key} greatest := by
  rw [List.max?_eq_some_iff]
  simp only [List.mem_filterMap]
  constructor
  · rintro ⟨⟨key, listed, ofKey⟩, above⟩
    refine ⟨⟨key, listed, (List.max?_eq_some_iff.mp ofKey).1⟩, ?_⟩
    rintro value ⟨other, otherListed, member⟩
    cases found : (values other).max? with
    | none => simp [List.max?_eq_none_iff.mp found] at member
    | some last =>
        exact ((List.max?_eq_some_iff.mp found).2 value member).trans
          (above last ⟨other, otherListed, found⟩)
  · rintro ⟨⟨key, listed, member⟩, above⟩
    constructor
    · refine ⟨key, listed, List.max?_eq_some_iff.mpr ⟨member, fun value other => ?_⟩⟩
      exact above ⟨key, listed, other⟩
    · rintro value ⟨other, otherListed, ofOther⟩
      exact above ⟨other, otherListed, (List.max?_eq_some_iff.mp ofOther).1⟩

end Extremes

/-! ### One group among all -/

section Lookup

variable {store : Store} {groups : List AuditGroup} {groupId : Nat}

/-- The events of a group among those that are aggregated. -/
theorem filter_listedEvents (listed : groupId ∈ listedGroupIds groups) :
    (listedEvents store groups).filter (fun event => event.groupId = some groupId) =
      store.groupEvents groupId := by
  rw [listedEvents, List.filter_filter, Store.groupEvents, validGroupEvents]
  refine List.filter_congr fun event _ => ?_
  rw [Bool.eq_iff_iff, AuditEvent.countsFor_iff]
  simp only [Bool.and_eq_true, decide_eq_true_eq]
  constructor
  · rintro ⟨ofGroup, -, valid⟩
    exact ⟨ofGroup, valid⟩
  · rintro ⟨ofGroup, valid⟩
    refine ⟨ofGroup, ?_, valid⟩
    rw [ofGroup]
    exact List.contains_iff_mem.mpr listed

theorem map_filter_byGroup (events : List AuditEvent) :
    ((byGroup events).filter (·.1 = groupId)).map (·.2) =
      events.filter fun event => event.groupId = some groupId := by
  rw [byGroup, List.filter_filterMap, List.map_filterMap, ← List.filterMap_eq_filter]
  refine List.filterMap_congr fun event _ => ?_
  cases named : event.groupId with
  | none => simp [Option.guard, named]
  | some other => by_cases same : other = groupId <;> simp [Option.guard, named, same]

/-- The aggregate of a listed group. -/
theorem find_eventStatsForGroups (listed : groupId ∈ listedGroupIds groups) :
    (eventStatsForGroups store groups).1.find groupId =
      if store.groupEvents groupId = [] then none
      else some (groupEventStats (store.groupEvents groupId)) := by
  rw [eventStatsForGroups, if_neg (List.ne_nil_of_mem listed)]
  show (Keyed.aggregate groupEventStats (byGroup (listedEvents store groups))).find groupId = _
  rw [Keyed.find_aggregate, map_filter_byGroup, filter_listedEvents listed]

theorem mem_forkGroupIds (listed : groupId ∈ listedGroupIds groups) :
    groupId ∈ (eventStatsForGroups store groups).2 ↔ ∃ event ∈ store.groupEvents groupId,
      event.eventType = lit "fork_resolution" ∨ event.eventType = lit "epoch_rolled_back" := by
  rw [eventStatsForGroups, if_neg (List.ne_nil_of_mem listed)]
  show groupId ∈ (((listedEvents store groups).filter _).filterMap _).dedup ↔ _
  rw [← filter_listedEvents listed]
  simp only [List.mem_dedup, List.mem_filterMap, List.mem_filter, List.contains_iff_mem,
    List.mem_cons, List.not_mem_nil, or_false, decide_eq_true_eq, and_right_comm, and_assoc]

/-- The files of a group among the memberships. -/
theorem map_filter_fileMemberships : ((fileMemberships store).filter (·.1 = groupId)).map (·.2) =
    (store.files.filter fun file => decide (groupId ∈ file.groups)).map (·.id) := by
  rw [fileMemberships]
  induction store.files with
  | nil => rfl
  | cons file rest inductionHypothesis =>
      have own : ((file.groups.dedup.map (·, file.id)).filter (·.1 = groupId)).map (·.2) =
          if groupId ∈ file.groups then [file.id] else [] := by
        rw [List.filter_map, List.map_map]
        show (file.groups.dedup.filter (· = groupId)).map (fun _ => file.id) = _
        rw [List.filter_eq, List.count_dedup]
        split <;> rfl
      rw [List.flatMap_cons, List.filter_append, List.map_append, inductionHypothesis, own]
      by_cases member : groupId ∈ file.groups <;> simp [member]

theorem getD_auditFileCounts (ids : (store.files.map (·.id)).Nodup)
    (listed : groupId ∈ listedGroupIds groups) :
    ((auditFileCountsForGroups store groups).find groupId).getD 0 =
      store.files.countP fun file => decide (groupId ∈ file.groups) := by
  have own : (((fileMemberships store).filter fun row =>
      (listedGroupIds groups).contains row.1).filter (·.1 = groupId)).map (·.2) =
        (store.files.filter fun file => decide (groupId ∈ file.groups)).map (·.id) := by
    rw [List.filter_filter, ← map_filter_fileMemberships]
    refine congrArg (List.map _) (List.filter_congr fun row _ => ?_)
    by_cases same : row.1 = groupId
    · simp [same, listed]
    · simp [same]
  have distinct : ((store.files.filter fun file => decide (groupId ∈ file.groups)).map
      (·.id)).Nodup := ids.sublist (List.filter_sublist.map AuditFile.id)
  rw [auditFileCountsForGroups, if_neg (List.ne_nil_of_mem listed), Keyed.find_aggregate, own,
    distinct.dedup, List.length_map, ← List.countP_eq_length_filter]
  split
  · next nothing =>
      rw [List.map_eq_nil_iff] at nothing
      rw [List.countP_eq_length_filter, nothing]
      rfl
  · rfl

end Lookup

/-! ### The rows and the groups -/

section Rows

variable (store : Store) (groupId : Nat)

/-- The times of the events of a group. -/
def groupTimes : Set Nat :=
  {ms | ∃ event ∈ store.events, event.groupId = some groupId ∧ event.wallTimeMs = some ms}

/-- The epochs that the events of a group name. -/
def groupEpochs : Set Nat :=
  {epoch | ∃ event ∈ store.events, event.groupId = some groupId ∧
    ∃ field ∈ GROUP_EPOCH_RANGE_FIELDS, event.number field = some epoch}

/-- A row agrees with the summary of its group, and with its events. -/
structure GroupRowAgrees (row : GroupListRow) : Prop where
  eventCount : row.eventCount = (groupSummaryHeader store row.group.id).eventCount
  engineCount : row.engineCount = (groupSummaryHeader store row.group.id).engineCount
  auditFileCount : row.auditFileCount = (groupSummaryHeader store row.group.id).fileCount
  divergentCount : row.divergentCount = (groupMessages (store.groupEvents row.group.id)).countP
    (Diverges (store.groupEvents row.group.id) ·)
  epochMin : ∀ epoch, row.epochMin = some epoch ↔ IsLeast (groupEpochs store row.group.id) epoch
  epochMax : ∀ epoch, row.epochMax = some epoch ↔ IsGreatest (groupEpochs store row.group.id) epoch
  lastActivityMs : ∀ ms, row.lastActivityMs = some ms ↔
    IsGreatest (groupTimes store row.group.id) ms
  lastActivity : row.lastActivity = row.lastActivityMs
  hasForkActivity : row.hasForkActivity = true ↔
    ∃ event ∈ store.events, event.groupId = some row.group.id ∧
      (event.eventType = lit "fork_resolution" ∨ event.eventType = lit "epoch_rolled_back")

/-- The list has a row for each group, which agrees with it.  A primary key is not 0. -/
structure GroupListAgrees : Prop where
  groups : (groupListRows store).map (·.group) = store.groups
  rows : ∀ row ∈ groupListRows store, row.group.id ≠ 0 → GroupRowAgrees store row

end Rows

section Agreement

variable {store : Store}

/-- A row is that of the aggregate of the group's events, also where there are none to look up. -/
theorem groupListRow_eq {groups : List AuditGroup} {group : AuditGroup}
    (listed : group.id ∈ listedGroupIds groups) (fileCount : Option Nat) (hasForkActivity : Bool) :
    groupListRow fileCount ((eventStatsForGroups store groups).1.find group.id) hasForkActivity
        group =
      groupListRow fileCount (some (groupEventStats (store.groupEvents group.id))) hasForkActivity
        group := by
  rw [find_eventStatsForGroups listed]
  split
  · next nothing =>
      rw [nothing]
      rfl
  · rfl

/-- The row of a group agrees with it. -/
theorem groupRowAgrees (formed : WellFormed store) (rollups : RollupsCurrent store)
    (recorded : EventsRecorded store) {group : AuditGroup} (isGroup : group ∈ store.groups)
    (isKey : group.id ≠ 0) :
    GroupRowAgrees store
      (groupListRow ((auditFileCountsForGroups store store.groups).find group.id)
        ((eventStatsForGroups store store.groups).1.find group.id)
        ((eventStatsForGroups store store.groups).2.contains group.id) group) := by
  have listed : group.id ∈ listedGroupIds store.groups :=
    List.mem_filter.mpr ⟨List.mem_map_of_mem isGroup, decide_eq_true isKey⟩
  rw [groupListRow_eq listed]
  have ofGroup : ∀ event, event ∈ store.groupEvents group.id ↔
      event ∈ store.events ∧ event.groupId = some group.id :=
    fun event => mem_groupEvents_iff fun event member => (formed.sound event member).valid
  have ids : ((store.groupEvents group.id).map (·.id)).Nodup :=
    formed.eventIds.sublist (List.filter_sublist.map AuditEvent.id)
  have epochs : {epoch | ∃ field ∈ GROUP_EPOCH_RANGE_FIELDS,
      epoch ∈ (store.groupEvents group.id).filterMap (·.number field)} =
        groupEpochs store group.id := by
    ext epoch
    simp only [groupEpochs, Set.mem_ofPred_eq, List.mem_filterMap, ofGroup]
    constructor
    · rintro ⟨field, isField, event, ⟨stored, inGroup⟩, named⟩
      exact ⟨event, stored, inGroup, field, isField, named⟩
    · rintro ⟨event, stored, inGroup, field, isField, named⟩
      exact ⟨field, isField, event, ⟨stored, inGroup⟩, named⟩
  have activity : ∀ ms, ((store.groupEvents group.id).filterMap (·.wallTimeMs)).max? = some ms ↔
      IsGreatest (groupTimes store group.id) ms := by
    intro ms
    have times : {ms | ms ∈ (store.groupEvents group.id).filterMap (·.wallTimeMs)} =
        groupTimes store group.id := by
      ext ms
      simp only [groupTimes, Set.mem_ofPred_eq, List.mem_filterMap, ofGroup, and_assoc]
    rw [← times]
    exact List.max?_eq_some_iff
  constructor
  case eventCount =>
    show ((store.groupEvents group.id).map (·.id)).dedup.length = _
    rw [ids.dedup, List.length_map]
    rfl
  case engineCount => rfl
  case auditFileCount => exact getD_auditFileCounts formed.fileIds listed
  case divergentCount => exact (rollups group isGroup).trans (divergentCount_eq _)
  case epochMin =>
    intro epoch
    show _ ↔ IsLeast (groupEpochs store group.id) epoch
    rw [← epochs]
    exact min?_filterMap_min?_iff
  case epochMax =>
    intro epoch
    show _ ↔ IsGreatest (groupEpochs store group.id) epoch
    rw [← epochs]
    exact max?_filterMap_max?_iff
  case lastActivityMs => exact activity
  case lastActivity =>
    show lastActivityDatetime ((store.groupEvents group.id).filterMap (·.wallTimeMs)).max? =
      ((store.groupEvents group.id).filterMap (·.wallTimeMs)).max?
    cases latest : ((store.groupEvents group.id).filterMap (·.wallTimeMs)).max? with
    | none => rfl
    | some ms =>
        obtain ⟨event, stored, -, timed⟩ := ((activity ms).mp latest).1
        obtain ⟨time, within, found⟩ := (recorded event stored).dated
        have same : time = ms := Option.some.inj (found.symm.trans timed)
        have bound : MAX_WALL_TIME_MS < 253402300800000 := by decide
        exact if_pos (decide_eq_true (by omega))
  case hasForkActivity =>
    refine List.contains_iff_mem.trans ((mem_forkGroupIds listed).trans ?_)
    simp only [ofGroup, and_assoc]
    rfl

end Agreement

/-- At every moment the list of groups, which is aggregated over all groups at once, agrees with the
summaries of the groups, and its divergent counts, stored when the groups last changed, with the
events as they are. -/
theorem groupList_agrees (env : Env) (steps : List ClusterStep) :
    GroupListAgrees (Cluster.after env steps).shared.store := by
  have serial := (cluster_guarded env steps).invariant.serial
  have consistent := serial.consistent
  constructor
  · show ((List.map _ _).map _) = _
    rw [List.map_map]
    exact List.map_id _
  · intro row member isKey
    obtain ⟨group, isGroup, rfl⟩ := List.mem_map.mp member
    exact groupRowAgrees consistent.formed consistent.rollups serial.eventsRecorded isGroup isKey

end Goggles
