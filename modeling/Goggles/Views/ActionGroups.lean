/-
Module: Goggles.Views.ActionGroups
Purpose: Human actions are split by operation: what a group says of its events, which events share a
  group, and the order of the groups.
Trusted boundary: none beyond Goggles.Views.Actions
Main exports: Merges, InValidEventsOrder, GroupedByOperation, humanActionGroups_groupedByOperation,
  scannedActionEvents_groupedByOperation
-/
import Goggles.Library.Grouping
import Goggles.Views.Actions

namespace Goggles

/-! ### What a group says -/

/-- The times of some events that have one. -/
def timesOf (events : List AuditEvent) : List Nat := events.filterMap (·.wallTimeMs)

/-- What the fold makes of the events of a group. -/
structure Merges (group : HumanActionGroup) (members : List AuditEvent) : Prop where
  events : group.events = members
  firstWallTimeMs : group.firstWallTimeMs = (timesOf members).head?
  lastWallTimeMs : group.lastWallTimeMs = (timesOf members).max?
  messageIds : ∀ messageId, messageId ∈ group.messageIds ↔
    ∃ event ∈ members, messageId ∈ (eventMessageIdValues event).map valueIfStr
  sorted : group.messageIds.Pairwise (· < ·)
  targetCount : group.targetCount = members.findSome? (·.number "human_action_target_count")
  fromEpoch : group.fromEpoch = members.findSome? (·.number "from_epoch")
  toEpoch : group.toEpoch = members.findSome? (·.number "to_epoch")

theorem mem_sortedSet {text : Str} {texts : List Str} : text ∈ sortedSet texts ↔ text ∈ texts := by
  rw [sortedSet, mem_inOrder, List.mem_dedup]

theorem sortedSet_sorted (texts : List Str) : (sortedSet texts).Pairwise (· < ·) := by
  have distinct : (sortedSet texts).Nodup := (perm_inOrder id _).nodup_iff.mpr texts.nodup_dedup
  have sorted : (sortedSet texts).Pairwise (· ≤ ·) := inOrder_sorted id _
  exact (sorted.and distinct).imp fun both => lt_of_le_of_ne both.1 both.2

theorem max?_append_singleton (values : List Nat) (value : Nat) :
    (values ++ [value]).max? = some (max (values.max?.getD value) value) := by
  cases values with
  | nil => simp
  | cons first rest =>
      rw [List.cons_append, List.max?_cons', List.foldl_append, List.max?_cons', Option.getD_some,
        List.foldl_cons, List.foldl_nil]

variable {env : Env}

/-- A value that is set stays, and an event sets a value that is missing. -/
theorem findSome?_append_singleton (read : AuditEvent → Option Nat) (older : List AuditEvent)
    (event : AuditEvent) :
    (older ++ [event]).findSome? read = (older.findSome? read).or (read event) := by
  rw [List.findSome?_append, List.findSome?_singleton]

theorem timesOf_append_singleton (older : List AuditEvent) (event : AuditEvent) :
    timesOf (older ++ [event]) = timesOf older ++ event.wallTimeMs.toList := by
  rw [timesOf, List.filterMap_append]
  rfl

/-- The first event of a group. -/
theorem merges_first (event : AuditEvent) : Merges (HumanActionGroup.add env none event) [event] := by
  constructor
  · rfl
  · cases timed : event.wallTimeMs <;>
      simp [HumanActionGroup.add, HumanActionGroup.start, timesOf, timed]
  · cases timed : event.wallTimeMs <;>
      simp [HumanActionGroup.add, HumanActionGroup.start, timesOf, timed]
  · intro messageId
    simp [HumanActionGroup.add, HumanActionGroup.start, mem_sortedSet]
  · exact sortedSet_sorted _
  · rw [List.findSome?_singleton]
    exact Option.or_self
  · rw [List.findSome?_singleton]
    exact Option.or_self
  · rw [List.findSome?_singleton]
    exact Option.or_self

/-- An event that joins is merged. -/
theorem merges_add {group : HumanActionGroup} {older : List AuditEvent} (event : AuditEvent)
    (merged : Merges group older) :
    Merges (HumanActionGroup.add env (some group) event) (older ++ [event]) := by
  constructor
  · exact congrArg (· ++ [event]) merged.events
  · rw [timesOf_append_singleton, List.head?_append, ← merged.firstWallTimeMs, Option.head?_toList]
    rfl
  · rw [timesOf_append_singleton]
    have last := merged.lastWallTimeMs
    cases timed : event.wallTimeMs with
    | none => simpa [HumanActionGroup.add, timed] using last
    | some instant =>
        rw [Option.toList_some, max?_append_singleton, ← last]
        simp [HumanActionGroup.add, timed]
  · intro messageId
    have known := merged.messageIds messageId
    simp only [HumanActionGroup.add, Option.getD_some, mem_sortedSet, List.mem_append, known,
      List.mem_singleton, or_and_right, exists_or, exists_eq_left]
  · exact sortedSet_sorted _
  · rw [findSome?_append_singleton, ← merged.targetCount]
    rfl
  · rw [findSome?_append_singleton, ← merged.fromEpoch]
    rfl
  · rw [findSome?_append_singleton, ← merged.toEpoch]
    rfl

/-- The row of a key is merged from the events of that key. -/
theorem merges_foldl {members : List AuditEvent} {group : HumanActionGroup}
    (folded : members.foldl (fun found event => some (HumanActionGroup.add env found event)) none =
      some group) :
    Merges group members := by
  induction members using List.reverseRecOn generalizing group with
  | nil => cases folded
  | append_singleton older event inductionHypothesis =>
      rw [List.foldl_append, List.foldl_cons, List.foldl_nil, Option.some.injEq] at folded
      subst folded
      cases found : older.foldl (fun found event => some (HumanActionGroup.add env found event))
          none with
      | none =>
          rw [Keyed.foldl_some_eq_none_iff] at found
          subst found
          exact merges_first event
      | some opened => exact merges_add event (inductionHypothesis found)

/-! ### The groups of a list of events -/

/-- The events with a human action. -/
def humanActions (events : List AuditEvent) : List AuditEvent :=
  events.filter (·.humanActionAction ≠ [])

/-- The events of a key. -/
def actionsUnder (events : List AuditEvent) (key : ActionKey) : List AuditEvent :=
  (humanActions events).filter (actionKey · = key)

variable {events : List AuditEvent}

theorem items_actionGroups (key : ActionKey) :
    ((((humanActions events).map fun event => (actionKey event, event)).filter
      (·.1 = key)).map (·.2)) = actionsUnder events key := by
  rw [List.filter_map, List.map_map, actionsUnder]
  exact List.map_id _

theorem merges_of_mem {entry : ActionKey × HumanActionGroup}
    (member : entry ∈ humanActionGroupsForGroup env events) :
    Merges entry.2 (actionsUnder events entry.1) := by
  rw [humanActionGroupsForGroup, mem_inOrder, actionGroups, Keyed.mem_gather_iff] at member
  have folded := merges_foldl member
  rw [← items_actionGroups]
  exact folded

theorem mem_keys_humanActionGroups {key : ActionKey} :
    key ∈ (humanActionGroupsForGroup env events).map Prod.fst ↔
      key ∈ (humanActions events).map actionKey := by
  have sameKeys := (perm_inOrder (fun entry : ActionKey × HumanActionGroup => entry.2.order)
    (actionGroups env events).entries).map Prod.fst
  rw [humanActionGroupsForGroup, sameKeys.mem_iff, actionGroups, Keyed.mem_keys_gather,
    List.map_map]
  rfl

theorem mem_events_iff {entry : ActionKey × HumanActionGroup}
    (member : entry ∈ humanActionGroupsForGroup env events) {event : AuditEvent} :
    event ∈ entry.2.events ↔ event ∈ humanActions events ∧ actionKey event = entry.1 := by
  rw [(merges_of_mem member).events, actionsUnder, List.mem_filter, decide_eq_true_eq]

/-- Two events have one key when they carry the same operation or are the same event. -/
theorem actionKey_eq_iff (ids : (events.map (·.id)).Nodup) {one two : AuditEvent}
    (oneMember : one ∈ events) (twoMember : two ∈ events) :
    actionKey one = actionKey two ↔
      one = two ∨ one.contextOperationId ≠ [] ∧ one.contextOperationId = two.contextOperationId := by
  have sameEvent : one.id = two.id ↔ one = two :=
    ⟨fun same => List.inj_on_of_nodup_map ids oneMember twoMember same, congrArg _⟩
  unfold actionKey
  by_cases oneOperation : one.contextOperationId = []
  · by_cases twoOperation : two.contextOperationId = []
    · simp [oneOperation, twoOperation, sameEvent]
    · simp only [oneOperation, twoOperation, ne_eq, not_true_eq_false, not_false_eq_true, if_false,
        if_true, reduceCtorEq, false_and, or_false, false_iff]
      rintro rfl
      exact twoOperation oneOperation
  · by_cases twoOperation : two.contextOperationId = []
    · simp only [oneOperation, twoOperation, ne_eq, not_true_eq_false, not_false_eq_true, if_false,
        if_true, reduceCtorEq, and_false, or_false, false_iff]
      rintro rfl
      exact oneOperation twoOperation
    · simp only [oneOperation, twoOperation, ne_eq, not_false_eq_true, if_true, ActionKey.op.injEq,
        true_and, iff_or_self]
      rintro rfl
      rfl

/-! ### The order -/

/-- The order of `valid_events_for_group`: `wall_time_ms, engine_id, line_number, id`, with the missing
times last, as one database has them. -/
def MissingTimesLast (events : List AuditEvent) : Prop :=
  events.Pairwise fun left right => eventOrderKey left < eventOrderKey right

/-- The same columns with the missing times first, as the other database has them. -/
def MissingTimesFirst (events : List AuditEvent) : Prop :=
  events.Pairwise fun left right =>
    toLex (left.wallTimeMs.isSome, eventOrderKey left) <
      toLex (right.wallTimeMs.isSome, eventOrderKey right)

/-- `valid_events_for_group` has ordered the events. -/
def InValidEventsOrder (events : List AuditEvent) : Prop :=
  MissingTimesLast events ∨ MissingTimesFirst events

theorem wallTimeMs_le {left right : AuditEvent} {first second : Nat}
    (ordered : eventOrderKey left < eventOrderKey right) (leftTime : left.wallTimeMs = some first)
    (rightTime : right.wallTimeMs = some second) : first ≤ second := by
  simp only [eventOrderKey, convergenceOrderKey, leftTime, rightTime, Prod.Lex.toLex_lt_toLex,
    toLex_inj, Prod.mk.injEq] at ordered
  simp only [Option.isNone_some, Option.getD_some, lt_irrefl, false_or, true_and] at ordered
  omega

/-- The times of ordered events ascend. -/
theorem timesOf_ascending (ordered : InValidEventsOrder events) :
    (timesOf events).Pairwise (· ≤ ·) := by
  rw [timesOf, List.pairwise_filterMap]
  rcases ordered with last | first
  · refine last.imp fun less first leftTime second rightTime => ?_
    exact wallTimeMs_le less leftTime rightTime
  · refine first.imp fun less first leftTime second rightTime => ?_
    rw [leftTime, rightTime, Prod.Lex.toLex_lt_toLex] at less
    rcases less with earlier | ⟨-, later⟩
    · exact absurd earlier (lt_irrefl _)
    · exact wallTimeMs_le later leftTime rightTime

/-- Where the first event of a group stands. -/
def firstAppearance (events : List AuditEvent) (group : HumanActionGroup) : Nat :=
  events.findIdx (group.events.contains ·)

/-- Two positions among the kept events are ordered as they are among all. -/
theorem findIdx_lt_of_filter {keep one two : AuditEvent → Bool}
    (less : (events.filter keep).findIdx one < (events.filter keep).findIdx two) :
    events.findIdx (fun event => keep event && one event) <
      events.findIdx (fun event => keep event && two event) := by
  induction events with
  | nil => simp at less
  | cons event rest inductionHypothesis =>
      rw [List.filter_cons] at less
      cases kept : keep event with
      | false =>
          rw [kept, if_neg Bool.false_ne_true] at less
          simpa [List.findIdx_cons, kept] using inductionHypothesis less
      | true =>
          rw [kept, if_pos rfl, List.findIdx_cons, List.findIdx_cons] at less
          rw [List.findIdx_cons, List.findIdx_cons, kept, Bool.true_and, Bool.true_and]
          cases twoHolds : two event with
          | true =>
              rw [twoHolds, cond_true] at less
              cases Nat.not_lt_zero _ less
          | false =>
              rw [twoHolds, cond_false] at less
              cases oneHolds : one event with
              | true => exact Nat.succ_pos _
              | false =>
                  rw [oneHolds, cond_false] at less
                  exact Nat.succ_lt_succ (inductionHypothesis (Nat.lt_of_succ_lt_succ less))

theorem findIdx_congr {one two : AuditEvent → Bool} (same : ∀ event ∈ events, one event = two event) :
    events.findIdx one = events.findIdx two := by
  induction events with
  | nil => rfl
  | cons event rest inductionHypothesis =>
      rw [List.findIdx_cons, List.findIdx_cons, same event List.mem_cons_self,
        inductionHypothesis fun other member => same other (List.mem_cons_of_mem event member)]

theorem firstAppearance_eq {entry : ActionKey × HumanActionGroup}
    (member : entry ∈ humanActionGroupsForGroup env events) :
    firstAppearance events entry.2 = events.findIdx fun event =>
      decide (event.humanActionAction ≠ []) && decide (actionKey event = entry.1) := by
  rw [firstAppearance]
  have same : ∀ event ∈ events, entry.2.events.contains event =
      (decide (event.humanActionAction ≠ []) && decide (actionKey event = entry.1)) := by
    intro event isEvent
    rw [Bool.eq_iff_iff, List.contains_iff_mem, mem_events_iff member, humanActions,
      List.mem_filter, Bool.and_eq_true, decide_eq_true_eq]
    rw [decide_eq_true_eq, and_iff_right isEvent]
  exact findIdx_congr same

theorem pairwise_humanActionGroups :
    (humanActionGroupsForGroup env events).Pairwise fun left right =>
      left.2.order < right.2.order ∨ left.2.order = right.2.order ∧
        firstAppearance events left.2 < firstAppearance events right.2 := by
  have opened := Keyed.pairwise_gather (HumanActionGroup.add env)
    ((humanActions events).map fun event => (actionKey event, event))
  have sorted := @inOrder_stable _ _ _ (fun entry : ActionKey × HumanActionGroup => entry.2.order)
    _ _ opened
  refine sorted.imp_of_mem fun leftMember rightMember ordered => ?_
  refine ordered.imp_right fun tied => ⟨tied.1, ?_⟩
  rw [firstAppearance_eq leftMember, firstAppearance_eq rightMember]
  apply findIdx_lt_of_filter
  have earlier := tied.2
  rw [List.map_map, List.idxOf, List.idxOf, List.findIdx_map, List.findIdx_map] at earlier
  exact earlier

/-! ### A partition by operation -/

/-- What a group says of its events. -/
structure SumsUp (group : HumanActionGroup) : Prop where
  firstWallTimeMs : group.firstWallTimeMs = (timesOf group.events).min?
  lastWallTimeMs : group.lastWallTimeMs = (timesOf group.events).max?
  messageIds : ∀ messageId, messageId ∈ group.messageIds ↔
    ∃ event ∈ group.events, messageId ∈ (eventMessageIdValues event).map valueIfStr
  sorted : group.messageIds.Pairwise (· < ·)
  targetCount : group.targetCount = group.events.findSome? (·.number "human_action_target_count")
  fromEpoch : group.fromEpoch = group.events.findSome? (·.number "from_epoch")
  toEpoch : group.toEpoch = group.events.findSome? (·.number "to_epoch")

/-- Groups split the human actions by operation. -/
structure GroupedByOperation (events : List AuditEvent) (groups : List HumanActionGroup) : Prop where
  conserved : (groups.flatMap (·.events)).Perm (humanActions events)
  once : ∀ event ∈ humanActions events, ∃! group, group ∈ groups ∧ event ∈ group.events
  together : ∀ one ∈ humanActions events, ∀ two ∈ humanActions events,
    (∃ group ∈ groups, one ∈ group.events ∧ two ∈ group.events) ↔
      one = two ∨ one.contextOperationId ≠ [] ∧ one.contextOperationId = two.contextOperationId
  nonempty : ∀ group ∈ groups, group.events ≠ []
  sumsUp : ∀ group ∈ groups, SumsUp group
  ordered : groups.Pairwise fun left right => left.order < right.order ∨
    left.order = right.order ∧ firstAppearance events left < firstAppearance events right

theorem timesOf_sublist {some : List AuditEvent} (sublist : some.Sublist events) :
    (timesOf some).Sublist (timesOf events) := sublist.filterMap _

theorem Merges.sumsUp {group : HumanActionGroup} {members : List AuditEvent}
    (merged : Merges group members) (ascending : (timesOf members).Pairwise (· ≤ ·)) :
    SumsUp group := by
  obtain rfl := merged.events
  constructor
  · rw [merged.firstWallTimeMs, head?_eq_min? ascending]
  · exact merged.lastWallTimeMs
  · exact merged.messageIds
  · exact merged.sorted
  · exact merged.targetCount
  · exact merged.fromEpoch
  · exact merged.toEpoch

theorem perm_events_humanActionGroups :
    ((humanActionGroupsForGroup env events).flatMap (·.2.events)).Perm (humanActions events) := by
  have keys : ((humanActionGroupsForGroup env events).map Prod.fst).Nodup :=
    ((perm_inOrder _ _).map Prod.fst).nodup_iff.mpr (actionGroups env events).unique
  have own : (humanActionGroupsForGroup env events).flatMap (·.2.events) =
      ((humanActionGroupsForGroup env events).map Prod.fst).flatMap fun key =>
        (humanActions events).filter (actionKey · = key) := by
    rw [List.flatMap_map]
    exact List.flatMap_congr fun entry member => (merges_of_mem member).events
  rw [own]
  refine perm_flatMap_filter keys fun event isAction => ?_
  exact mem_keys_humanActionGroups.mpr (List.mem_map_of_mem isAction)

/-- Only the times have to ascend. -/
theorem groupedByOperation_of_ascending (ids : (events.map (·.id)).Nodup)
    (ascending : (timesOf events).Pairwise (· ≤ ·)) :
    GroupedByOperation events ((humanActionGroupsForGroup env events).map Prod.snd) := by
  have keys : ((humanActionGroupsForGroup env events).map Prod.fst).Nodup :=
    ((perm_inOrder _ _).map Prod.fst).nodup_iff.mpr (actionGroups env events).unique
  have home : ∀ event ∈ humanActions events, ∃ entry ∈ humanActionGroupsForGroup env events,
      event ∈ entry.2.events := by
    intro event isAction
    obtain ⟨entry, member, own⟩ := List.mem_map.mp
      (mem_keys_humanActionGroups.mpr (List.mem_map_of_mem isAction))
    exact ⟨entry, member, (mem_events_iff member).mpr ⟨isAction, own.symm⟩⟩
  constructor
  · rw [List.flatMap_map]
    exact perm_events_humanActionGroups
  · intro event isAction
    obtain ⟨entry, member, inside⟩ := home event isAction
    refine ⟨entry.2, ⟨List.mem_map_of_mem member, inside⟩, ?_⟩
    rintro group ⟨isGroup, alsoInside⟩
    obtain ⟨other, otherMember, rfl⟩ := List.mem_map.mp isGroup
    have sameKey : other.1 = entry.1 :=
      ((mem_events_iff otherMember).mp alsoInside).2.symm.trans ((mem_events_iff member).mp inside).2
    rw [List.inj_on_of_nodup_map keys otherMember member sameKey]
  · intro one oneAction two twoAction
    rw [← actionKey_eq_iff ids (List.mem_of_mem_filter oneAction) (List.mem_of_mem_filter twoAction)]
    constructor
    · rintro ⟨group, isGroup, oneInside, twoInside⟩
      obtain ⟨entry, member, rfl⟩ := List.mem_map.mp isGroup
      exact ((mem_events_iff member).mp oneInside).2.trans ((mem_events_iff member).mp twoInside).2.symm
    · intro sameKey
      obtain ⟨entry, member, inside⟩ := home one oneAction
      refine ⟨entry.2, List.mem_map_of_mem member, inside, (mem_events_iff member).mpr ⟨twoAction, ?_⟩⟩
      exact sameKey.symm.trans ((mem_events_iff member).mp inside).2
  · intro group isGroup
    obtain ⟨entry, member, rfl⟩ := List.mem_map.mp isGroup
    obtain ⟨event, isAction, own⟩ := List.mem_map.mp
      (mem_keys_humanActionGroups.mp (List.mem_map_of_mem member))
    exact List.ne_nil_of_mem ((mem_events_iff member).mpr ⟨isAction, own⟩)
  · intro group isGroup
    obtain ⟨entry, member, rfl⟩ := List.mem_map.mp isGroup
    refine (merges_of_mem member).sumsUp (ascending.sublist ?_)
    exact timesOf_sublist (List.filter_sublist.trans List.filter_sublist)
  · rw [List.pairwise_map]
    exact pairwise_humanActionGroups

/-- Every event with a human action is in one group, with the events of its operation. -/
theorem humanActionGroups_groupedByOperation (env : Env) (events : List AuditEvent)
    (ids : (events.map (·.id)).Nodup) (ordered : InValidEventsOrder events) :
    GroupedByOperation events ((humanActionGroupsForGroup env events).map Prod.snd) :=
  groupedByOperation_of_ascending ids (timesOf_ascending ordered)

/-- An action of an operation, whose times may be missing. -/
def operationAction (id : Nat) (instant : Option Nat) (operationId : Str) : AuditEvent :=
  let action := userAction id 0 (lit "send_message")
  { action with
    wallTimeMs := instant
    normalized := (lit "context_operation_id", .str operationId) ::
      (lit "human_action_target_count", .int id) :: action.normalized }

/-- One operation around a lone action, and an operation whose id looks like a key. -/
def operations : List AuditEvent :=
  [operationAction 0 (some 10) (lit "op"), operationAction 1 (some 10) [],
    operationAction 2 (some 30) (lit "op"), operationAction 3 none (lit "event:1")]

theorem humanActionGroups_operations :
    GroupedByOperation operations ((humanActionGroupsForGroup plainEnv operations).map Prod.snd) ∧
      ((humanActionGroupsForGroup plainEnv operations).map fun entry =>
        (entry.2.events.map (·.id), entry.2.firstWallTimeMs, entry.2.lastWallTimeMs,
          entry.2.targetCount)) =
        [([0, 2], some 10, some 30, some 0), ([1], some 10, some 10, some 1),
          ([3], none, none, some 3)] :=
  ⟨humanActionGroups_groupedByOperation plainEnv operations (by decide)
    (.inl (by unfold MissingTimesLast; decide +kernel)), by decide +kernel⟩

/-! ### The groups of the listing -/

theorem missingTimesLast_inOrder (ids : (events.map (·.id)).Nodup) :
    MissingTimesLast (inOrder eventOrderKey events) := by
  have distinct : (inOrder eventOrderKey events).Pairwise fun left right => left.id ≠ right.id := by
    have sorted : ((inOrder eventOrderKey events).map (·.id)).Nodup :=
      ((perm_inOrder eventOrderKey events).map _).nodup_iff.mpr ids
    exact List.pairwise_map.mp sorted
  refine ((inOrder_sorted eventOrderKey events).and distinct).imp fun both => ?_
  refine lt_of_le_of_ne both.1 fun same => both.2 ?_
  exact congrArg (fun key => (ofLex key).2) same

section Window

variable {groupId maxEvents : Nat} {filters : ActionFilters}

theorem scannedActionEvents_sublist :
    (scannedActionEvents maxEvents events groupId filters).Sublist
      (inOrder eventOrderKey (filteredActionEvents events groupId filters)) := by
  have window : (((newestActionEvents maxEvents events groupId filters).take maxEvents).reverse).Sublist
      (inOrder eventOrderKey (filteredActionEvents events groupId filters)) := by
    rw [← List.reverse_sublist, List.reverse_reverse]
    exact (List.take_sublist _ _).trans (List.take_sublist _ _)
  rw [scannedActionEvents]
  split
  · exact window
  · exact List.filter_sublist.trans window

/-- The groups of the listing split the events of its window by operation. -/
theorem scannedActionEvents_groupedByOperation (ids : (events.map (·.id)).Nodup) :
    GroupedByOperation (scannedActionEvents maxEvents events groupId filters)
      ((humanActionGroupsForGroup env
        (scannedActionEvents maxEvents events groupId filters)).map Prod.snd) := by
  have filtered : ((filteredActionEvents events groupId filters).map (·.id)).Nodup :=
    ids.sublist ((List.filter_sublist.trans (List.filter_sublist.trans List.filter_sublist)).map _)
  have sorted : ((inOrder eventOrderKey (filteredActionEvents events groupId filters)).map
      (·.id)).Nodup := ((perm_inOrder _ _).map _).nodup_iff.mpr filtered
  apply groupedByOperation_of_ascending
  · exact sorted.sublist (scannedActionEvents_sublist.map _)
  · apply timesOf_ascending
    exact .inl ((missingTimesLast_inOrder filtered).sublist scannedActionEvents_sublist)

end Window

end Goggles
