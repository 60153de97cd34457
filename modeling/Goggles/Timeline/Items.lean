/-
Module: Goggles.Timeline.Items
Purpose: Every event of a timeline is placed once: as an item, in a burst of retries, or among the
  excluded ones.
Trusted boundary: forensics/analysis.py, `timeline_items` to `timeline_item_sort_key`
Main exports: timelineItems, timelineItemForEvent, timelinePeelerRetryBurstItem, TimelineConserved,
  timelineItems_conserved
-/
import Goggles.Timeline.Fields

namespace Goggles

/-! ### The items -/

/-- `is_timeline_peeler_retry_event`. -/
def isTimelinePeelerRetryEvent (event : AuditEvent) : Bool :=
  (event.eventType = lit "peeler_outcome" && PEELER_WARNING_OUTCOMES.contains event.outcome) ||
    (event.eventType = lit "message_state_changed" &&
      DEFERRED_MESSAGE_STATES.contains event.newState)

/-- The fields of the item of an event. -/
def timelineItemFields (env : Env) (roles : TimelineRoles) (event : AuditEvent) (engine : Nat) : Dict :=
  let action := event.humanActionAction
  [(lit "id", .int event.id), (lit "engine", .int engine), (lit "t", intOrNull event.wallTimeMs),
    (lit "seq", intOrNull event.seq), (lit "type", .str event.eventType),
    (lit "tone", .str (eventTone event)),
    (lit "role", ((roles.find event.id).map fun role => Json.str role.text).getD .null),
    (lit "epoch", intOrNull (eventEpoch event)), (lit "msg_id", primaryMsgId event),
    (lit "message_ids", .list (eventMessageIdValues event)),
    (lit "related_key", (Json.str (firstText [event.msgId, event.outboundMsgId])).orElse
      (event.firstHumanActionMessageId.orElse
        (.str (firstText [event.text "candidate_digest", event.text "payload_digest"])))),
    (lit "operation_id", .str (event.contextOperationId)),
    (lit "human_action", .str action), (lit "human_action_label", .str (actionLabel env action)),
    (lit "human_action_origin", .str (event.humanActionOrigin)),
    (lit "human_action_phase", .str (event.humanActionPhase)),
    (lit "human_action_fields", .list (event.items "human_action_fields")),
    (lit "target_kind", .str (event.text "target_kind")),
    (lit "relay_summary", .str (relaySummary event)),
    (lit "envelope_kind", .str (event.text "envelope_kind")),
    (lit "intent_kind", .str (event.text "intent_kind")),
    (lit "result_kind", .str event.resultKind),
    (lit "proposal_kind", .str (event.text "proposal_kind")),
    (lit "snapshot_name", .str (event.text "snapshot_name")),
    (lit "payload_len", intOrNull (event.number "payload_len")),
    (lit "digest", .str (primaryDigest event)), (lit "outcome", .str (primaryOutcome event)),
    (lit "reason", .str (primaryReason event)), (lit "summary", .str (eventSummary env event)),
    (lit "line", .int event.lineNumber), (lit "file_id", .int event.auditFileId)]

/-- `timeline_item_for_event`. -/
def timelineItemForEvent (env : Env) (roles : TimelineRoles) (event : AuditEvent) (engine : Nat) :
    Dict := compactItem (timelineItemFields env roles event engine)

/-- The order of the events of a burst. -/
def burstEventKey (event : AuditEvent) : Nat ×ₗ Nat ×ₗ Nat :=
  toLex (event.wallTimeMs.getD 0, toLex (event.lineNumber, event.id))

/-- The fields of the item of a burst, whose events are in order. -/
def peelerRetryBurstFields (first : AuditEvent) (ordered : List AuditEvent) (engine : Nat) : Dict :=
  let leastId : Nat := (ordered.map (·.id)).min?.getD first.id
  let leastLine : Nat := (ordered.map (·.lineNumber)).min?.getD first.lineNumber
  let messageIds := uniqueInOrder (ordered.flatMap eventMessageIdValues)
  let messageCount := messageIds.length
  let eventCount := ordered.length
  [(lit "id", .int leastId), (lit "engine", .int engine),
    (lit "t", intOrNull first.wallTimeMs), (lit "seq", intOrNull first.seq),
    (lit "type", .str (lit "peeler_retry_burst")), (lit "tone", .str (lit "warning")),
    (lit "msg_id", if messageCount = 1 then messageIds.headD .null else .str []),
    (lit "message_ids", .list messageIds), (lit "message_count", .int messageCount),
    (lit "event_count", .int eventCount),
    (lit "source_event_ids", .list (ordered.map fun event => .int event.id)),
    (lit "outcome", .str (lit "deferred")),
    (lit "outcome_summary", .str (summarizeCounts (ordered.map primaryOutcome) 3)),
    (lit "reason", .str (summarizeCounts (ordered.map primaryReason) 3)),
    (lit "summary", .str (lit "peeler retry/defer burst" ++ middleDot ++ natText messageCount ++
      lit " message" ++ plural messageCount ++ middleDot ++ natText eventCount ++ lit " event" ++
      plural eventCount)),
    (lit "line", .int leastLine),
    (lit "file_id", .int first.auditFileId)] ++
  if messageCount = 1 then [(lit "related_key", messageIds.headD .null)] else []

/-- `timeline_peeler_retry_burst_item`, which has to have an event. -/
def timelinePeelerRetryBurstItem (events : List AuditEvent) (engine : Nat) : Option Dict :=
  let ordered := inOrder burstEventKey events
  ordered.head?.map fun first => compactItem (peelerRetryBurstFields first ordered engine)

/-- `timeline_item_sort_key`. -/
def timelineItemSortKey (item : Dict) : Nat ×ₗ Nat ×ₗ Nat :=
  toLex ((valueIfInt (item.get "t")).getD 0, toLex ((valueIfInt (item.get "line")).getD 0,
    (valueIfInt (item.get "id")).getD 0))

/-- What is known after some events. -/
structure ItemScan where
  items : List Dict
  excludedIds : List Nat
  noWallTime : Nat
  noEngine : Nat
  peelerBursts : Keyed (Nat × Nat) (List AuditEvent)

/-- `excluded`. -/
structure ExcludedEvents where
  count : Nat
  noWallTime : Nat
  noEngine : Nat
  eventIds : List Nat
deriving Repr, DecidableEq

section Timeline

variable (env : Env) (index : EngineIndex) (roles : TimelineRoles)

/-- The loop over the events. -/
def ItemScan.addEvent (scan : ItemScan) (event : AuditEvent) : ItemScan :=
  match event.wallTimeMs with
  | none => { scan with
      noWallTime := scan.noWallTime + 1
      excludedIds := scan.excludedIds ++ [event.id] }
  | some instant =>
      match index.find event.engineId with
      | none => { scan with
          noEngine := scan.noEngine + 1
          excludedIds := scan.excludedIds ++ [event.id] }
      | some engine =>
          if isTimelinePeelerRetryEvent event then { scan with
            peelerBursts := scan.peelerBursts.upsert (engine, instant / 1000)
              fun found => Keyed.appendItem found event }
          else { scan with items := scan.items ++ [timelineItemForEvent env roles event engine] }

def ItemScan.ofEvents (events : List AuditEvent) : ItemScan :=
  events.foldl (ItemScan.addEvent env index roles) ⟨[], [], 0, 0, .empty⟩

/-- The loop over the bursts.  A burst of one event is an item like the others. -/
def burstItem (bucket : (Nat × Nat) × List AuditEvent) : Option Dict :=
  match bucket.2 with
  | [event] => (index.find event.engineId).map (timelineItemForEvent env roles event)
  | burstEvents => timelinePeelerRetryBurstItem burstEvents bucket.1.1

/-- `timeline_items`: none stands for an index or a key that is missing. -/
def timelineItems (events : List AuditEvent) : Option (List Dict × ExcludedEvents) :=
  let scan := ItemScan.ofEvents env index roles events
  (scan.peelerBursts.entries.mapM (burstItem env index roles)).map fun bursts =>
    (inOrder timelineItemSortKey (scan.items ++ bursts),
      { count := scan.excludedIds.length
        noWallTime := scan.noWallTime
        noEngine := scan.noEngine
        eventIds := scan.excludedIds })

end Timeline

/-! ### Where an event goes -/

/-- The bucket of an event that has a time and an engine. -/
def bucketOf (index : EngineIndex) (event : AuditEvent) : Option (Nat × Nat) :=
  match event.wallTimeMs, index.find event.engineId with
  | some instant, some engine => some (engine, instant / 1000)
  | _, _ => none

/-- An event without a time or an engine. -/
def isExcluded (index : EngineIndex) (event : AuditEvent) : Bool := (bucketOf index event).isNone

/-- A retry with its bucket. -/
def bucketed (index : EngineIndex) (event : AuditEvent) : Option ((Nat × Nat) × AuditEvent) :=
  if isTimelinePeelerRetryEvent event then (bucketOf index event).map (·, event) else none

section Scan

variable {env : Env} {index : EngineIndex} {roles : TimelineRoles} {events : List AuditEvent}

/-- The item of an event that is neither excluded nor a retry. -/
def placed (env : Env) (index : EngineIndex) (roles : TimelineRoles) (event : AuditEvent) :
    Option Dict :=
  if isTimelinePeelerRetryEvent event then none
  else (bucketOf index event).map fun bucket => timelineItemForEvent env roles event bucket.1

/-- What the loop has found. -/
structure ItemsScanned (env : Env) (index : EngineIndex) (roles : TimelineRoles)
    (events : List AuditEvent) (scan : ItemScan) : Prop where
  items : scan.items = events.filterMap (placed env index roles)
  excludedIds : scan.excludedIds = (events.filter (isExcluded index)).map (·.id)
  reasons : scan.noWallTime + scan.noEngine = scan.excludedIds.length
  peelerBursts : scan.peelerBursts =
    Keyed.gather Keyed.appendItem (events.filterMap (bucketed index))

/-- One more event. -/
theorem itemsScanned_addEvent {scan : ItemScan} (scanned : ItemsScanned env index roles events scan)
    (event : AuditEvent) :
    ItemsScanned env index roles (events ++ [event]) (scan.addEvent env index roles event) := by
  obtain ⟨items, excludedIds, reasons, peelerBursts⟩ := scanned
  unfold ItemScan.addEvent
  cases timed : event.wallTimeMs with
  | none =>
      have unplaced : bucketOf index event = none := by rw [bucketOf, timed]
      constructor
      · simp [items, placed, unplaced]
      · simp [excludedIds, isExcluded, unplaced]
      · simp [← reasons]
        omega
      · simp [peelerBursts, bucketed, unplaced]
  | some instant =>
      cases found : index.find event.engineId with
      | none =>
          have unplaced : bucketOf index event = none := by rw [bucketOf, timed, found]
          constructor
          · simp [items, placed, unplaced]
          · simp [excludedIds, isExcluded, unplaced]
          · simp [← reasons]
            omega
          · simp [peelerBursts, bucketed, unplaced]
      | some engine =>
          have bucket : bucketOf index event = some (engine, instant / 1000) := by
            rw [bucketOf, timed, found]
          cases retried : isTimelinePeelerRetryEvent event with
          | true =>
              constructor
              · simp [items, placed, retried]
              · simp [excludedIds, isExcluded, bucket]
              · simpa using reasons
              · simp [peelerBursts, bucketed, bucket, retried, Keyed.gather_append]
          | false =>
              constructor
              · simp [items, placed, bucket, retried]
              · simp [excludedIds, isExcluded, bucket]
              · simpa using reasons
              · simp [peelerBursts, bucketed, retried]

theorem itemsScanned_ofEvents (events : List AuditEvent) :
    ItemsScanned env index roles events (ItemScan.ofEvents env index roles events) := by
  induction events using List.reverseRecOn with
  | nil => exact ⟨rfl, rfl, rfl, rfl⟩
  | append_singleton older event inductionHypothesis =>
      rw [ItemScan.ofEvents, List.foldl_append, List.foldl_cons, List.foldl_nil]
      exact itemsScanned_addEvent inductionHypothesis event

end Scan

/-! ### What an item accounts for -/

/-- Only a burst lists the events it stands for. -/
def isBurst (item : Dict) : Bool := item.hasKey "source_event_ids"

def sourceEventIds (item : Dict) : List Nat :=
  (item.get "source_event_ids").listOrEmpty.filterMap valueIfInt

def itemId (item : Dict) : Nat := (valueIfInt (item.get "id")).getD 0

/-- The events of a burst, or the event that is the subject of the item. -/
def accountedIds (item : Dict) : List Nat :=
  if isBurst item then sourceEventIds item else [itemId item]

/-- The keys of the order are there. -/
structure SortKeyed (item : Dict) : Prop where
  t : ∃ instant : Nat, item.lookup (lit "t") = some (.int instant)
  line : ∃ line : Nat, item.lookup (lit "line") = some (.int line)
  id : ∃ id : Nat, item.lookup (lit "id") = some (.int id)

section Fields

variable {env : Env} {roles : TimelineRoles} {event : AuditEvent} {engine : Nat}

theorem isBurst_timelineItemForEvent : isBurst (timelineItemForEvent env roles event engine) = false := by
  rw [isBurst, Dict.hasKey, timelineItemForEvent, lookup_compactItem_none rfl]
  rfl

theorem itemId_timelineItemForEvent : itemId (timelineItemForEvent env roles event engine) = event.id := by
  rw [itemId, timelineItemForEvent, get_compactItem_int rfl, Option.getD_some]

theorem accountedIds_timelineItemForEvent :
    accountedIds (timelineItemForEvent env roles event engine) = [event.id] := by
  rw [accountedIds, isBurst_timelineItemForEvent, if_neg Bool.false_ne_true,
    itemId_timelineItemForEvent]

theorem sortKeyed_timelineItemForEvent {instant : Nat} (timed : event.wallTimeMs = some instant) :
    SortKeyed (timelineItemForEvent env roles event engine) := by
  have stated : (timelineItemFields env roles event engine).lookup (lit "t") =
      some (intOrNull event.wallTimeMs) := rfl
  rw [timed] at stated
  exact ⟨⟨instant, lookup_compactItem stated rfl⟩, ⟨event.lineNumber, lookup_compactItem rfl rfl⟩,
    ⟨event.id, lookup_compactItem rfl rfl⟩⟩

variable {events : List AuditEvent}

/-- A burst lists its events. -/
theorem timelinePeelerRetryBurstItem_places (filled : events ≠ [])
    (timed : ∀ event ∈ events, event.wallTimeMs.isSome = true) :
    ∃ item, timelinePeelerRetryBurstItem events engine = some item ∧ isBurst item = true ∧
      item.lookup (lit "engine") = some (.int engine) ∧
      (sourceEventIds item).Perm (events.map (·.id)) ∧ itemId item ∈ sourceEventIds item ∧
      SortKeyed item := by
  have same := perm_inOrder burstEventKey events
  rw [timelinePeelerRetryBurstItem]
  generalize inOrder burstEventKey events = ordered at same
  cases ordered with
  | nil => exact absurd same.nil_eq.symm filled
  | cons first rest =>
      refine ⟨_, rfl, ?_⟩
      obtain ⟨instant, firstTimed⟩ := Option.isSome_iff_exists.mp
        (timed first (same.subset List.mem_cons_self))
      have listed : (compactItem (peelerRetryBurstFields first (first :: rest) engine)).lookup
          (lit "source_event_ids") =
            some (.list ((first :: rest).map fun event => .int event.id)) :=
        lookup_compactItem rfl rfl
      have sources : sourceEventIds (compactItem (peelerRetryBurstFields first (first :: rest) engine)) =
          (first :: rest).map (·.id) := by
        rw [sourceEventIds, Dict.get, listed, Option.getD_some, Json.listOrEmpty, List.filterMap_map]
        have read : valueIfInt ∘ (fun event : AuditEvent => Json.int event.id) =
            some ∘ fun event => event.id := funext fun event => valueIfInt_natCast event.id
        rw [read, List.filterMap_eq_map]
      have least : ((first :: rest).map (·.id)).min?.getD first.id ∈ (first :: rest).map (·.id) := by
        cases smallest : ((first :: rest).map (·.id)).min? with
        | none => exact List.mem_cons_self
        | some value => exact List.min?_mem smallest
      refine ⟨?_, lookup_compactItem rfl rfl, ?_, ?_, ?_⟩
      · rw [isBurst, Dict.hasKey, listed]
        rfl
      · rw [sources]
        exact same.map _
      · rw [sources, itemId, get_compactItem_int rfl, Option.getD_some]
        exact least
      · have stated : (peelerRetryBurstFields first (first :: rest) engine).lookup (lit "t") =
            some (intOrNull first.wallTimeMs) := rfl
        rw [firstTimed] at stated
        exact ⟨⟨instant, lookup_compactItem stated rfl⟩, ⟨_, lookup_compactItem rfl rfl⟩,
          ⟨_, lookup_compactItem rfl rfl⟩⟩

end Fields

/-! ### Every event once -/

/-- The retries of an engine within a second. -/
def retriesOf (events : List AuditEvent) (engineId : Str) (second : Nat) : List AuditEvent :=
  events.filter fun event => isTimelinePeelerRetryEvent event && event.engineId = engineId &&
    event.wallTimeMs.map (· / 1000) = some second

/-- A burst stands for all retries of its engine within a second, and for more than one. -/
def IsBurstOf (index : EngineIndex) (events : List AuditEvent) (item : Dict) : Prop :=
  ∃ engineId engine second, index.find engineId = some engine ∧
    item.lookup (lit "engine") = some (.int engine) ∧
    (sourceEventIds item).Perm ((retriesOf events engineId second).map (·.id)) ∧
    2 ≤ (sourceEventIds item).length

/-- An item that is no burst is the item of an event. -/
def IsItemOf (env : Env) (index : EngineIndex) (roles : TimelineRoles) (events : List AuditEvent)
    (item : Dict) : Prop :=
  ∃ event ∈ events, ∃ engine, index.find event.engineId = some engine ∧
    item = timelineItemForEvent env roles event engine

/-- The events of a timeline, each placed once. -/
structure TimelineConserved (env : Env) (index : EngineIndex) (roles : TimelineRoles)
    (events : List AuditEvent) (items : List Dict) (excluded : ExcludedEvents) : Prop where
  once : (items.flatMap accountedIds ++ excluded.eventIds).Perm (events.map (·.id))
  subjects : ∀ item ∈ items, isBurst item = false → IsItemOf env index roles events item
  bursts : ∀ item ∈ items, isBurst item = true → IsBurstOf index events item
  excludedIds : excluded.eventIds = (events.filter (isExcluded index)).map (·.id)
  count : excluded.count = excluded.eventIds.length
  byReason : excluded.count = excluded.noWallTime + excluded.noEngine
  keyed : ∀ item ∈ items, SortKeyed item
  sorted : (items.map timelineItemSortKey).Pairwise (· < ·)
  distinct : (items.map itemId).Nodup

section Conserved

variable {env : Env} {index : EngineIndex} {roles : TimelineRoles} {events : List AuditEvent}

theorem bucketOf_eq_some_iff {event : AuditEvent} {bucket : Nat × Nat} :
    bucketOf index event = some bucket ↔ index.find event.engineId = some bucket.1 ∧
      event.wallTimeMs.map (· / 1000) = some bucket.2 := by
  rw [bucketOf]
  cases event.wallTimeMs with
  | none => simp
  | some instant =>
      cases index.find event.engineId with
      | none => simp
      | some engine => simp [Prod.ext_iff]

/-- The bursts by engine and second, in the order of their first events. -/
def peelerBursts (index : EngineIndex) (events : List AuditEvent) :
    Keyed (Nat × Nat) (List AuditEvent) :=
  Keyed.gather Keyed.appendItem (events.filterMap (bucketed index))

theorem mem_peelerBursts {bucket : (Nat × Nat) × List AuditEvent}
    (member : bucket ∈ (peelerBursts index events).entries) :
    bucket.2 ≠ [] ∧ bucket.2 = events.filter fun event =>
      isTimelinePeelerRetryEvent event && bucketOf index event = some bucket.1 := by
  obtain ⟨filled, own⟩ := Keyed.mem_gather_appendItem.mp member
  refine ⟨filled, own.trans ?_⟩
  rw [List.filter_filterMap, List.map_filterMap, ← List.filterMap_eq_filter]
  congr 1
  funext event
  rw [bucketed, Option.guard]
  cases retried : isTimelinePeelerRetryEvent event with
  | false => simp
  | true =>
      cases placed : bucketOf index event with
      | none => simp
      | some found => by_cases same : found = bucket.1 <;> simp [Option.filter, same]

/-- A bucket holds the retries of an engine within a second. -/
theorem bucket_eq_retriesOf {bucket : (Nat × Nat) × List AuditEvent}
    (member : bucket ∈ (peelerBursts index events).entries) :
    ∃ engineId, index.find engineId = some bucket.1.1 ∧
      bucket.2 = retriesOf events engineId bucket.1.2 := by
  obtain ⟨filled, own⟩ := mem_peelerBursts member
  obtain ⟨event, inside⟩ := List.exists_mem_of_ne_nil _ filled
  rw [own, List.mem_filter, Bool.and_eq_true, decide_eq_true_eq, bucketOf_eq_some_iff] at inside
  obtain ⟨-, -, found, -⟩ := inside
  refine ⟨event.engineId, found, own.trans ?_⟩
  refine List.filter_congr fun other _ => ?_
  rw [Bool.and_assoc]
  congr 1
  rw [Bool.eq_iff_iff, Bool.and_eq_true, decide_eq_true_eq, decide_eq_true_eq, decide_eq_true_eq,
    bucketOf_eq_some_iff]
  refine and_congr_left' ⟨fun otherFound => EngineIndex.find_inj otherFound found, ?_⟩
  rintro same
  rw [same]
  exact found

/-- What an item says of the events it stands for. -/
structure Places (item : Dict) (own : List AuditEvent) : Prop where
  accounted : (accountedIds item).Perm (own.map (·.id))
  named : itemId item ∈ accountedIds item
  keyed : SortKeyed item

theorem places_timelineItemForEvent {event : AuditEvent} {bucket : Nat × Nat}
    (located : bucketOf index event = some bucket) (engine : Nat) :
    Places (timelineItemForEvent env roles event engine) [event] := by
  obtain ⟨-, timed⟩ := bucketOf_eq_some_iff.mp located
  obtain ⟨instant, known, -⟩ := Option.map_eq_some_iff.mp timed
  constructor
  · rw [accountedIds_timelineItemForEvent]
    exact .refl _
  · rw [accountedIds_timelineItemForEvent, itemId_timelineItemForEvent]
    exact List.mem_singleton.mpr rfl
  · exact sortKeyed_timelineItemForEvent known

/-- The item of a bucket. -/
structure PlacesBucket (env : Env) (index : EngineIndex) (roles : TimelineRoles)
    (events : List AuditEvent) (bucket : (Nat × Nat) × List AuditEvent) (item : Dict) : Prop
    extends Places item bucket.2 where
  subject : isBurst item = false → IsItemOf env index roles events item
  burst : isBurst item = true → IsBurstOf index events item

/-- No bucket fails. -/
theorem exists_burstItem {bucket : (Nat × Nat) × List AuditEvent}
    (member : bucket ∈ (peelerBursts index events).entries) :
    ∃ item, burstItem env index roles bucket = some item ∧
      PlacesBucket env index roles events bucket item := by
  obtain ⟨filled, kept⟩ := mem_peelerBursts member
  obtain ⟨engineId, found, retries⟩ := bucket_eq_retriesOf member
  obtain ⟨key, own⟩ := bucket
  have located : ∀ event ∈ own, event ∈ events ∧ bucketOf index event = some key := by
    intro event inside
    have found : event ∈ events.filter fun event =>
        isTimelinePeelerRetryEvent event && bucketOf index event = some key := kept ▸ inside
    obtain ⟨isEvent, passes⟩ := List.mem_filter.mp found
    exact ⟨isEvent, of_decide_eq_true (Bool.and_eq_true_iff.mp passes).2⟩
  have timed : ∀ event ∈ own, event.wallTimeMs.isSome = true := by
    intro event inside
    have time := (bucketOf_eq_some_iff.mp (located event inside).2).2
    rw [← Option.isSome_map, time]
    rfl
  cases own with
  | nil => exact absurd rfl filled
  | cons event others =>
      cases others with
      | nil =>
          obtain ⟨isEvent, bucket⟩ := located event List.mem_cons_self
          have own := (bucketOf_eq_some_iff.mp bucket).1
          refine ⟨timelineItemForEvent env roles event key.1, ?_,
            places_timelineItemForEvent bucket key.1, ?_, ?_⟩
          · show (index.find event.engineId).map (timelineItemForEvent env roles event) = _
            rw [own]
            rfl
          · exact fun _ => ⟨event, isEvent, key.1, own, rfl⟩
          · intro burst
            rw [isBurst_timelineItemForEvent] at burst
            cases burst
      | cons second rest =>
          obtain ⟨item, made, burst, engine, sources, named, keyed⟩ :=
            @timelinePeelerRetryBurstItem_places key.1 (event :: second :: rest) filled timed
          have accounted : accountedIds item = sourceEventIds item := by
            rw [accountedIds, if_pos burst]
          refine ⟨item, made, ⟨accounted ▸ sources, accounted ▸ named, keyed⟩, ?_, ?_⟩
          · intro single
            rw [burst] at single
            cases single
          · intro _
            refine ⟨engineId, key.1, key.2, found, engine, ?_, ?_⟩
            · rw [← retries]
              exact sources
            · rw [sources.length_eq, List.length_map, List.length_cons, List.length_cons]
              omega

/-- The bursts of the scan are made. -/
theorem exists_bursts (env : Env) (index : EngineIndex) (roles : TimelineRoles)
    (events : List AuditEvent) :
    ∃ bursts, (peelerBursts index events).entries.mapM (burstItem env index roles) = some bursts ∧
      List.Forall₂ (PlacesBucket env index roles events) (peelerBursts index events).entries bursts := by
  have made := fun bucket member => @exists_burstItem env index roles events bucket member
  generalize (peelerBursts index events).entries = buckets at made
  induction buckets with
  | nil => exact ⟨[], rfl, .nil⟩
  | cons bucket rest inductionHypothesis =>
      obtain ⟨item, itemMade, placesItem⟩ := made bucket List.mem_cons_self
      obtain ⟨items, itemsMade, placesItems⟩ := inductionHypothesis fun other member =>
        made other (List.mem_cons_of_mem bucket member)
      refine ⟨item :: items, ?_, .cons placesItem placesItems⟩
      rw [List.mapM_cons, itemMade, itemsMade]
      rfl

/-- The events that are neither excluded nor in a bucket. -/
def isPlaced (index : EngineIndex) (event : AuditEvent) : Bool :=
  !isTimelinePeelerRetryEvent event && !isExcluded index event

theorem placed_eq_some {event : AuditEvent} {item : Dict}
    (made : placed env index roles event = some item) :
    ∃ bucket, bucketOf index event = some bucket ∧
      item = timelineItemForEvent env roles event bucket.1 := by
  rw [placed] at made
  split at made
  · cases made
  · obtain ⟨bucket, located, rfl⟩ := Option.map_eq_some_iff.mp made
    exact ⟨bucket, located, rfl⟩

theorem accountedIds_placed (events : List AuditEvent) :
    (events.filterMap (placed env index roles)).flatMap accountedIds =
      (events.filter (isPlaced index)).map (·.id) := by
  induction events with
  | nil => rfl
  | cons event rest inductionHypothesis =>
      rw [List.filterMap_cons, List.filter_cons, placed, isPlaced, isExcluded]
      cases isTimelinePeelerRetryEvent event with
      | true => exact inductionHypothesis
      | false =>
          cases bucketOf index event with
          | none => exact inductionHypothesis
          | some bucket =>
              rw [Bool.not_false, Bool.true_and, Option.isNone_some, Bool.not_false, if_pos rfl,
                List.map_cons, ← inductionHypothesis]
              exact congrArg (· ++ _) accountedIds_timelineItemForEvent

/-- The events that are in a bucket. -/
def isBucketed (index : EngineIndex) (event : AuditEvent) : Bool :=
  isTimelinePeelerRetryEvent event && !isExcluded index event

theorem map_bucketed (events : List AuditEvent) :
    (events.filterMap (bucketed index)).map (·.2) = events.filter (isBucketed index) := by
  rw [List.map_filterMap, ← List.filterMap_eq_filter]
  congr 1
  funext event
  rw [bucketed, Option.guard, isBucketed, isExcluded]
  cases isTimelinePeelerRetryEvent event with
  | false => rfl
  | true => cases bucketOf index event <;> rfl

/-- An event is placed, in a bucket or excluded. -/
theorem perm_filters (events : List AuditEvent) :
    (events.filter (isPlaced index) ++ events.filter (isBucketed index) ++
      events.filter (isExcluded index)).Perm events := by
  have kept := List.filter_append_perm isTimelinePeelerRetryEvent
    (events.filter fun event => !isExcluded index event)
  rw [List.filter_filter, List.filter_filter] at kept
  have whole := List.filter_append_perm (fun event => !isExcluded index event) events
  simp only [Bool.not_not] at whole
  refine List.Perm.trans (List.Perm.append_right _ ?_) whole
  exact List.perm_append_comm.trans kept

/-- What the bursts account for. -/
theorem accountedIds_bursts {bursts : List Dict}
    (made : List.Forall₂ (PlacesBucket env index roles events) (peelerBursts index events).entries
      bursts) :
    (bursts.flatMap accountedIds).Perm ((events.filter (isBucketed index)).map (·.id)) := by
  have listed : (bursts.flatMap accountedIds).Perm
      ((peelerBursts index events).entries.flatMap fun bucket => bucket.2.map (·.id)) :=
    perm_flatMap_of_forall₂ made fun bucket _ item places => places.accounted
  have split := (Keyed.perm_gather_appendItem (events.filterMap (bucketed index))).map (·.id)
  rw [map_bucketed, List.map_flatMap] at split
  exact listed.trans split

theorem timelineItemSortKey_id {left right : Dict}
    (same : timelineItemSortKey left = timelineItemSortKey right) : itemId left = itemId right :=
  congrArg (fun key => (ofLex (ofLex key).2).2) same

/-- Each event is the subject of an item, listed by a burst or excluded, and only once. -/
theorem timelineItems_conserved (env : Env) (index : EngineIndex) (roles : TimelineRoles)
    (events : List AuditEvent) (ids : (events.map (·.id)).Nodup) :
    ∃ items excluded, timelineItems env index roles events = some (items, excluded) ∧
      TimelineConserved env index roles events items excluded := by
  obtain ⟨bursts, made, places⟩ := exists_bursts env index roles events
  have scanned := @itemsScanned_ofEvents env index roles events
  set scan := ItemScan.ofEvents env index roles events with scanEq
  have computed : timelineItems env index roles events =
      some (inOrder timelineItemSortKey (scan.items ++ bursts),
        ⟨scan.excludedIds.length, scan.noWallTime, scan.noEngine, scan.excludedIds⟩) := by
    rw [timelineItems, ← scanEq, scanned.peelerBursts, ← peelerBursts, made]
    rfl
  refine ⟨_, _, computed, ?_⟩
  have split : ∀ item ∈ inOrder timelineItemSortKey (scan.items ++ bursts),
      (∃ event ∈ events, ∃ bucket, bucketOf index event = some bucket ∧
        item = timelineItemForEvent env roles event bucket.1) ∨
      ∃ bucket, PlacesBucket env index roles events bucket item := by
    intro item member
    rw [mem_inOrder, List.mem_append] at member
    rcases member with single | burst
    · rw [scanned.items] at single
      obtain ⟨event, isEvent, isItem⟩ := List.mem_filterMap.mp single
      exact .inl ⟨event, isEvent, placed_eq_some isItem⟩
    · obtain ⟨bucket, -, placesItem⟩ := exists_of_forall₂ places burst
      exact .inr ⟨bucket, placesItem⟩
  have once : ((inOrder timelineItemSortKey (scan.items ++ bursts)).flatMap accountedIds ++
      scan.excludedIds).Perm (events.map (·.id)) := by
    have parts := (@perm_filters index events).map (·.id)
    rw [List.map_append, List.map_append, ← scanned.excludedIds,
      ← @accountedIds_placed env index roles, ← scanned.items] at parts
    refine List.Perm.trans (List.Perm.append_right _ ?_) parts
    refine ((perm_inOrder timelineItemSortKey _).flatMap_right _).trans ?_
    rw [List.flatMap_append]
    exact (accountedIds_bursts places).append_left _
  have named : ∀ item ∈ inOrder timelineItemSortKey (scan.items ++ bursts),
      itemId item ∈ accountedIds item := by
    intro item member
    rcases split item member with ⟨event, -, bucket, located, rfl⟩ | ⟨bucket, placesItem⟩
    · exact (places_timelineItemForEvent located bucket.1).named
    · exact placesItem.named
  have distinct : ((inOrder timelineItemSortKey (scan.items ++ bursts)).map itemId).Nodup :=
    nodup_map_of_nodup_flatMap (once.nodup_iff.mpr ids).of_append_left named
  constructor
  · exact once
  · intro item member single
    rcases split item member with ⟨event, isEvent, bucket, located, rfl⟩ | ⟨bucket, placesItem⟩
    · exact ⟨event, isEvent, bucket.1, (bucketOf_eq_some_iff.mp located).1, rfl⟩
    · exact placesItem.subject single
  · intro item member burst
    rcases split item member with ⟨event, -, bucket, -, rfl⟩ | ⟨bucket, placesItem⟩
    · rw [isBurst_timelineItemForEvent] at burst
      cases burst
    · exact placesItem.burst burst
  · exact scanned.excludedIds
  · rfl
  · exact scanned.reasons.symm
  · intro item member
    rcases split item member with ⟨event, -, bucket, located, rfl⟩ | ⟨bucket, placesItem⟩
    · exact (places_timelineItemForEvent located bucket.1).keyed
    · exact placesItem.keyed
  · rw [List.pairwise_map]
    refine ((inOrder_sorted timelineItemSortKey _).and (List.pairwise_map.mp distinct)).imp
      fun both => lt_of_le_of_ne both.1 fun same => both.2 (timelineItemSortKey_id same)
  · exact distinct

/-- A message whose peeling is put off. -/
def deferredMessage (id : Nat) (instant : Option Nat) (newState : Str) : AuditEvent :=
  let action := userAction id 0 []
  { action with
    wallTimeMs := instant
    eventType := lit "message_state_changed"
    normalized := [(lit "new_state", .str newState)] }

/-- The engine of the messages. -/
def oneEngine : EngineIndex := ⟨[lit "aa"], by decide⟩

/-- Two retries within a second, one in the next second, a failure and a retry without a time. -/
def deferredMessages : List AuditEvent :=
  [deferredMessage 1 (some 1999) (lit "peel_deferred"),
    deferredMessage 2 (some 2000) (lit "failed"),
    deferredMessage 3 (some 1000) (lit "peel_deferred"),
    deferredMessage 4 (some 2000) (lit "peel_deferred"), deferredMessage 5 none (lit "peel_deferred")]

theorem timelineItems_deferredMessages :
    (∃ items excluded, timelineItems plainEnv oneEngine .empty deferredMessages =
        some (items, excluded) ∧
      TimelineConserved plainEnv oneEngine .empty deferredMessages items excluded) ∧
      (timelineItems plainEnv oneEngine .empty deferredMessages).map
        (fun found => (found.1.map accountedIds, found.2.eventIds)) =
          some ([[3, 1], [2], [4]], [5]) :=
  ⟨timelineItems_conserved plainEnv oneEngine .empty deferredMessages (by decide), by decide +kernel⟩

end Conserved

end Goggles
