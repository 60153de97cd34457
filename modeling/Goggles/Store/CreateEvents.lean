/-
Module: Goggles.Store.CreateEvents
Purpose: What the loop of `create_events` does: the rows it inserts, the duplicates it counts, and the
  groups it links, for the lines of an accepted upload.
Trusted boundary: none beyond the modules it imports
Main exports: AuditEvent.pair, ParsedLine.pair, AcceptedLine, acceptedLines, CreatedEvents,
  createEvents_spec
-/
import Goggles.Store.Sound

namespace Goggles

/-! ### Accepted lines -/

/-- The dedup key of a stored event. -/
def AuditEvent.pair (event : AuditEvent) : Str × Str := (event.lineHash, event.engineId)

/-- The dedup key of a parsed line. -/
def ParsedLine.pair (parsed : ParsedLine) : Str × Str := (parsed.lineHash, parsed.engineId)

/-- A line the normalizer passed. -/
structure AcceptedLine (parsed : ParsedLine) : Prop where
  errors : parsed.errors = []
  source : ∃ data, parsed.data = some data ∧ (normalizeEvent data).errors = [] ∧
    parsed.normalized = (normalizeEvent data).normalized

namespace AcceptedLine

variable {parsed : ParsedLine}

theorem sound (accepted : AcceptedLine parsed) (eventId fileId : Nat) (groupId : Option Nat) :
    SoundEvent (eventValues eventId fileId groupId parsed) := by
  obtain ⟨data, found, clean, normalized⟩ := accepted.source
  exact soundEvent_of_clean eventId fileId groupId clean found accepted.errors normalized

theorem row_engineId (accepted : AcceptedLine parsed) (eventId fileId : Nat)
    (groupId : Option Nat) : (eventValues eventId fileId groupId parsed).engineId = parsed.engineId := by
  obtain ⟨data, found, -⟩ := accepted.source
  simp [eventValues, found, ParsedLine.text, ParsedLine.engineId]

theorem row_pair (accepted : AcceptedLine parsed) (eventId fileId : Nat) (groupId : Option Nat) :
    (eventValues eventId fileId groupId parsed).pair = parsed.pair := by
  rw [AuditEvent.pair, accepted.row_engineId eventId fileId groupId]
  rfl

theorem engineId_ne_nil (accepted : AcceptedLine parsed) : parsed.engineId ≠ [] :=
  accepted.row_engineId 0 0 none ▸ (accepted.sound 0 0 none).engine

end AcceptedLine

/-- The lines of an accepted upload are accepted lines. -/
theorem acceptedLines {env : Env} {rawText : Str} {parsedLines : List ParsedLine}
    (parsed : parseJsonl env rawText = some parsedLines)
    (clean : ∀ line ∈ parsedLines, line.errors = []) : ∀ line ∈ parsedLines, AcceptedLine line := by
  intro line member
  obtain ⟨number, raw, -, same⟩ := exists_of_mem_parseRecords parsed member
  obtain ⟨data, -, normal, shape⟩ := parseLine_clean (same ▸ clean line member)
  rw [same, shape]
  exact ⟨rfl, data, rfl, normal, rfl⟩

/-! ### The loop -/

/-- The state of the loop after some lines: `base` are the pairs known before it. -/
structure CreatedEvents (base : List (Str × Str)) (groupOf : ParsedLine → Option Nat)
    (firstEventId fileId : Nat) (lines : List ParsedLine) (scan : EventScan) : Prop where
  existing : scan.existing = base ++ scan.events.map AuditEvent.pair
  ids : scan.events.map (·.id) = List.range' firstEventId scan.events.length
  origin : ∀ event ∈ scan.events, ∃ line ∈ lines, ∃ eventId,
    event = eventValues eventId fileId (groupOf line) line
  fresh : ∀ event ∈ scan.events, event.pair ∉ base
  distinct : (scan.events.map AuditEvent.pair).Nodup
  covered : ∀ line ∈ lines, line.pair ∈ scan.existing
  counted : scan.events.length + scan.duplicateCount = lines.length
  groups : ∀ groupId, groupId ∈ scan.groupIds ↔ ∃ line ∈ lines, groupOf line = some groupId
  groupsOnce : scan.groupIds.Nodup

theorem duplicateEventExists_iff {parsed : ParsedLine} (accepted : AcceptedLine parsed)
    (existing : List (Str × Str)) :
    duplicateEventExists parsed existing = true ↔ parsed.pair ∈ existing := by
  rw [duplicateEventExists, if_pos accepted.engineId_ne_nil, List.contains_iff_mem]
  rfl

/-- The group ids after one more line. -/
theorem mem_insert_group {groupIds : List Nat} {found : Option Nat} {groupId : Nat} :
    groupId ∈ (match found with
        | some id => groupIds.insert id
        | none => groupIds) ↔
      groupId ∈ groupIds ∨ found = some groupId := by
  cases found with
  | none => simp
  | some id =>
      simp only [List.mem_insert_iff, Option.some.injEq, eq_comm (a := id)]
      exact or_comm

theorem createdEvents_next {base : List (Str × Str)} {groupOf : ParsedLine → Option Nat}
    {firstEventId fileId : Nat} {lines : List ParsedLine} {scan : EventScan} {line : ParsedLine}
    (accepted : AcceptedLine line)
    (sofar : CreatedEvents base groupOf firstEventId fileId lines scan) :
    CreatedEvents base groupOf firstEventId fileId (lines ++ [line])
      (scan.next groupOf firstEventId fileId line) := by
  have groups : ∀ groupId, groupId ∈ (match groupOf line with
        | some id => scan.groupIds.insert id
        | none => scan.groupIds) ↔ ∃ other ∈ lines ++ [line], groupOf other = some groupId := by
    intro groupId
    rw [mem_insert_group, sofar.groups]
    simp [or_and_right, exists_or]
  have groupsOnce : (match groupOf line with
        | some id => scan.groupIds.insert id
        | none => scan.groupIds).Nodup := by
    cases groupOf line with
    | none => exact sofar.groupsOnce
    | some id => exact sofar.groupsOnce.insert
  by_cases known : duplicateEventExists line scan.existing = true
  · have pairKnown := (duplicateEventExists_iff accepted scan.existing).mp known
    simp only [EventScan.next, known, if_true]
    exact
      { existing := sofar.existing
        ids := sofar.ids
        origin := fun event member =>
          let ⟨other, otherMember, made⟩ := sofar.origin event member
          ⟨other, List.mem_append_left [line] otherMember, made⟩
        fresh := sofar.fresh
        distinct := sofar.distinct
        covered := fun other member => by
          rcases List.mem_append.mp member with old | new
          · exact sofar.covered other old
          · exact List.mem_singleton.mp new ▸ pairKnown
        counted := by
          have := sofar.counted
          simp only [List.length_append, List.length_cons, List.length_nil]
          omega
        groups := groups
        groupsOnce := groupsOnce }
  · have pairNew : line.pair ∉ scan.existing :=
      fun member => known ((duplicateEventExists_iff accepted scan.existing).mpr member)
    rw [sofar.existing, List.mem_append, not_or] at pairNew
    have rowPair := accepted.row_pair (firstEventId + scan.events.length) fileId (groupOf line)
    simp only [EventScan.next, known, if_false, Bool.false_eq_true]
    exact
      { existing := by
          rw [List.map_append, List.map_singleton, rowPair, ← List.append_assoc, ← sofar.existing]
          rfl
        ids := by
          rw [List.map_append, sofar.ids, List.length_append, List.length_singleton,
            List.range'_concat]
          simp [eventValues]
        origin := fun event member => by
          rcases List.mem_append.mp member with old | new
          · obtain ⟨other, otherMember, made⟩ := sofar.origin event old
            exact ⟨other, List.mem_append_left [line] otherMember, made⟩
          · exact ⟨line, by simp, _, List.mem_singleton.mp new⟩
        fresh := fun event member => by
          rcases List.mem_append.mp member with old | new
          · exact sofar.fresh event old
          · rw [List.mem_singleton.mp new, rowPair]
            exact pairNew.1
        distinct := by
          rw [List.map_append, List.map_singleton, rowPair]
          exact List.nodup_append.mpr ⟨sofar.distinct, List.nodup_singleton _,
            fun left leftMember right rightMember same =>
              pairNew.2 (List.mem_singleton.mp rightMember ▸ same ▸ leftMember)⟩
        covered := fun other member => by
          rw [List.mem_append]
          rcases List.mem_append.mp member with old | new
          · exact .inl (sofar.covered other old)
          · rw [List.mem_singleton.mp new]
            exact .inr (List.mem_singleton.mpr rfl)
        counted := by
          have := sofar.counted
          simp only [List.length_append, List.length_cons, List.length_nil]
          omega
        groups := groups
        groupsOnce := groupsOnce }

/-- The loop over all lines of an accepted upload. -/
theorem createEvents_spec {stored : List AuditEvent} {groupOf : ParsedLine → Option Nat}
    {firstEventId fileId : Nat} {lines : List ParsedLine}
    (accepted : ∀ line ∈ lines, AcceptedLine line) :
    CreatedEvents (existingDuplicateEvents stored lines) groupOf firstEventId fileId lines
      (createEvents stored groupOf firstEventId fileId lines) := by
  unfold createEvents
  generalize existingDuplicateEvents stored lines = base
  induction lines using List.reverseRecOn with
  | nil =>
      exact ⟨by simp, by simp, by simp, by simp, by simp, by simp, by simp, by simp, by simp⟩
  | append_singleton lines line inductionHypothesis =>
      rw [List.foldl_append, List.foldl_cons, List.foldl_nil]
      exact createdEvents_next (accepted line (by simp))
        (inductionHypothesis fun other member => accepted other (List.mem_append_left [line] member))

/-- The known pairs are those of the stored events that share a line hash. -/
theorem mem_existingDuplicateEvents {stored : List AuditEvent} {lines : List ParsedLine}
    {pair : Str × Str} :
    pair ∈ existingDuplicateEvents stored lines ↔
      (∃ line ∈ lines, line.lineHash = pair.1) ∧ pair ∈ stored.map AuditEvent.pair := by
  simp only [existingDuplicateEvents, List.mem_map, List.mem_filter, List.contains_iff_mem]
  constructor
  · rintro ⟨event, ⟨member, line, lineMember, same⟩, rfl⟩
    exact ⟨⟨line, lineMember, same⟩, event, member, rfl⟩
  · rintro ⟨⟨line, lineMember, same⟩, event, member, rfl⟩
    exact ⟨event, ⟨member, line, lineMember, same⟩, rfl⟩

namespace CreatedEvents

variable {stored : List AuditEvent} {groupOf : ParsedLine → Option Nat} {firstEventId fileId : Nat}
  {lines : List ParsedLine} {scan : EventScan}

/-- Every line's pair is stored afterwards. -/
theorem line_stored
    (created : CreatedEvents (existingDuplicateEvents stored lines) groupOf firstEventId fileId
      lines scan) {line : ParsedLine} (member : line ∈ lines) :
    line.pair ∈ (stored ++ scan.events).map AuditEvent.pair := by
  have known := created.covered line member
  rw [created.existing] at known
  rw [List.map_append]
  rcases List.mem_append.mp known with old | new
  · exact List.mem_append_left _ (mem_existingDuplicateEvents.mp old).2
  · exact List.mem_append_right _ new

/-- Every new pair is that of a line. -/
theorem pair_of_mem (accepted : ∀ line ∈ lines, AcceptedLine line)
    {base : List (Str × Str)} (created : CreatedEvents base groupOf firstEventId fileId lines scan)
    {event : AuditEvent} (member : event ∈ scan.events) :
    ∃ line ∈ lines, event.pair = line.pair := by
  obtain ⟨line, lineMember, eventId, made⟩ := created.origin event member
  exact ⟨line, lineMember, made ▸ (accepted line lineMember).row_pair eventId fileId (groupOf line)⟩

/-- New pairs are not stored yet. -/
theorem pair_fresh (accepted : ∀ line ∈ lines, AcceptedLine line)
    (created : CreatedEvents (existingDuplicateEvents stored lines) groupOf firstEventId fileId
      lines scan) {event : AuditEvent} (member : event ∈ scan.events) :
    event.pair ∉ stored.map AuditEvent.pair := by
  intro old
  obtain ⟨line, lineMember, same⟩ := created.pair_of_mem accepted member
  refine created.fresh event member (mem_existingDuplicateEvents.mpr ⟨⟨line, lineMember, ?_⟩, old⟩)
  rw [same]
  rfl

/-- One event for each pair, before and after. -/
theorem pairs_nodup (accepted : ∀ line ∈ lines, AcceptedLine line)
    (created : CreatedEvents (existingDuplicateEvents stored lines) groupOf firstEventId fileId
      lines scan) (once : (stored.map AuditEvent.pair).Nodup) :
    ((stored ++ scan.events).map AuditEvent.pair).Nodup := by
  rw [List.map_append]
  refine List.nodup_append.mpr ⟨once, created.distinct, fun left leftMember right rightMember => ?_⟩
  obtain ⟨event, member, same⟩ := List.mem_map.mp rightMember
  exact fun equal => created.pair_fresh accepted member (same ▸ equal ▸ leftMember)

/-- The new rows are sound. -/
theorem sound (accepted : ∀ line ∈ lines, AcceptedLine line)
    {base : List (Str × Str)} (created : CreatedEvents base groupOf firstEventId fileId lines scan)
    {event : AuditEvent} (member : event ∈ scan.events) : SoundEvent event := by
  obtain ⟨line, lineMember, eventId, made⟩ := created.origin event member
  exact made ▸ (accepted line lineMember).sound eventId fileId (groupOf line)

theorem auditFileId_eq {base : List (Str × Str)}
    (created : CreatedEvents base groupOf firstEventId fileId lines scan) {event : AuditEvent}
    (member : event ∈ scan.events) : event.auditFileId = fileId := by
  obtain ⟨line, lineMember, eventId, made⟩ := created.origin event member
  rw [made]
  rfl

/-- A new row's group is among the groups the loop collected. -/
theorem group_mem {base : List (Str × Str)}
    (created : CreatedEvents base groupOf firstEventId fileId lines scan) {event : AuditEvent}
    (member : event ∈ scan.events) {groupId : Nat} (grouped : event.groupId = some groupId) :
    groupId ∈ scan.groupIds := by
  obtain ⟨line, lineMember, eventId, made⟩ := created.origin event member
  refine (created.groups groupId).mpr ⟨line, lineMember, ?_⟩
  rw [made] at grouped
  exact grouped

theorem id_mem_range {base : List (Str × Str)}
    (created : CreatedEvents base groupOf firstEventId fileId lines scan) {event : AuditEvent}
    (member : event ∈ scan.events) :
    firstEventId ≤ event.id ∧ event.id < firstEventId + scan.events.length := by
  have inRange : event.id ∈ scan.events.map (·.id) := List.mem_map_of_mem member
  rw [created.ids, List.mem_range'_1] at inRange
  exact inRange

theorem ids_nodup {base : List (Str × Str)}
    (created : CreatedEvents base groupOf firstEventId fileId lines scan) :
    (scan.events.map (·.id)).Nodup := by
  rw [created.ids]
  exact List.nodup_range'

end CreatedEvents

end Goggles
