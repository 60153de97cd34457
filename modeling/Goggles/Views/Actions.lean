/-
Module: Goggles.Views.Actions
Purpose: The action attributions of a group, grouped from the newest window of its action events and
  paged by kind; and the next offsets, which never end once the window is cut.
Trusted boundary: forensics/views.py, `action_event_queryset` to `attribution_pagination_payload`;
  forensics/analysis.py, `human_action_groups_for_group`.  Of a group's payload the references to
  evidence, the sensitivity and the relay rows are left out, which only the page shows
Main exports: actionGroupsForApi, actionAttributionSection, attributionPaginationPayload,
  AttributionProgress, attributionProgress_iff
-/
import Goggles.Analysis.Divergence
import Goggles.Views.Filters
import Goggles.Views.Pagination

namespace Goggles

/-! ### The action events -/

def AuditEvent.humanActionAction (event : AuditEvent) : Str := event.text "human_action_action"

def AuditEvent.humanActionOrigin (event : AuditEvent) : Str := event.text "human_action_origin"

def AuditEvent.humanActionPhase (event : AuditEvent) : Str := event.text "human_action_phase"

def AuditEvent.contextOperationId (event : AuditEvent) : Str := event.text "context_operation_id"

/-- `action_event_queryset`, not ordered yet.  An action that repeats the type of its event is no
attribution. -/
def actionEvents (events : List AuditEvent) (groupId : Nat) : List AuditEvent :=
  (validGroupEvents events groupId).filter fun event =>
    event.humanActionAction ≠ [] && event.humanActionAction ≠ event.eventType

/-- The conditions of `filtered_action_events`. -/
def ActionFilters.admits (filters : ActionFilters) (event : AuditEvent) : Bool :=
  textFilter filters.engineId event.engineId && textFilter filters.accountRef event.accountRef &&
  textFilter filters.auditDataMode event.auditDataMode &&
  textFilter filters.eventType event.eventType &&
  epochFilter filters.epoch [event.number "from_epoch", event.number "to_epoch"] &&
  textFilter filters.origin event.humanActionOrigin &&
  textFilter filters.action event.humanActionAction &&
  timeFilter filters.fromMs filters.toMs event.wallTimeMs

/-- `filtered_action_events`. -/
def filteredActionEvents (events : List AuditEvent) (groupId : Nat) (filters : ActionFilters) :
    List AuditEvent :=
  (actionEvents events groupId).filter filters.admits

/-- `action_event_message_ids`. -/
def actionEventMessageIds (event : AuditEvent) : List Json :=
  ([event.msgId, event.outboundMsgId, event.invalidatedMsgId].map Json.str ++
    event.outboundWelcomeMsgIds ++ event.humanActionMessageIds).filter Json.truthy

/-! ### Their groups -/

/-- The events of an operation are one group; an event without an operation is its own. -/
inductive ActionKey where
  | op (operationId : Str)
  | event (id : Nat)
deriving Repr, DecidableEq

def actionKey (event : AuditEvent) : ActionKey :=
  if event.contextOperationId ≠ [] then .op event.contextOperationId else .event event.id

/-- `sorted(set(...))`. -/
def sortedSet (texts : List Str) : List Str := inOrder id texts.dedup

structure HumanActionGroup where
  operationId : Str
  action : Str
  actionLabel : Str
  origin : Str
  phase : Str
  fields : List Str
  componentIds : List Nat
  targetCount : Option Nat
  fromEpoch : Option Nat
  toEpoch : Option Nat
  messageIds : List Str
  events : List AuditEvent
  firstWallTimeMs : Option Nat
  lastWallTimeMs : Option Nat
deriving Repr, DecidableEq

/-- The group that an event opens. -/
def HumanActionGroup.start (env : Env) (event : AuditEvent) : HumanActionGroup where
  operationId := event.contextOperationId
  action := event.humanActionAction
  actionLabel := Goggles.actionLabel env event.humanActionAction
  origin := event.humanActionOrigin
  phase := event.humanActionPhase
  fields := (event.items "human_action_fields").map valueIfStr
  componentIds := (event.items "human_action_component_ids").filterMap valueIfInt
  targetCount := event.number "human_action_target_count"
  fromEpoch := event.number "from_epoch"
  toEpoch := event.number "to_epoch"
  messageIds := []
  events := []
  firstWallTimeMs := event.wallTimeMs
  lastWallTimeMs := event.wallTimeMs

/-- An event joins its group, and opens it when it is the first. -/
def HumanActionGroup.add (env : Env) (found : Option HumanActionGroup) (event : AuditEvent) :
    HumanActionGroup :=
  let group := found.getD (start env event)
  { group with
    origin := if group.origin ≠ [] then group.origin else event.humanActionOrigin
    phase := if group.phase ≠ [] then group.phase else event.humanActionPhase
    fields := sortedSet (group.fields ++ (event.items "human_action_fields").map valueIfStr)
    componentIds := inOrder id (group.componentIds ++
      (event.items "human_action_component_ids").filterMap valueIfInt).dedup
    targetCount := group.targetCount.or (event.number "human_action_target_count")
    fromEpoch := group.fromEpoch.or (event.number "from_epoch")
    toEpoch := group.toEpoch.or (event.number "to_epoch")
    messageIds := sortedSet (group.messageIds ++ (eventMessageIdValues event).map valueIfStr)
    events := group.events ++ [event]
    firstWallTimeMs := group.firstWallTimeMs.or event.wallTimeMs
    lastWallTimeMs := match event.wallTimeMs with
      | none => group.lastWallTimeMs
      | some instant => some (max (group.lastWallTimeMs.getD instant) instant) }

/-- The groups by key, in the order they were opened. -/
def actionGroups (env : Env) (events : List AuditEvent) : Keyed ActionKey HumanActionGroup :=
  Keyed.gather (HumanActionGroup.add env)
    ((events.filter (·.humanActionAction ≠ [])).map fun event => (actionKey event, event))

/-- The order of the groups: by first time, those without one last. -/
def HumanActionGroup.order (group : HumanActionGroup) : Lex (Bool × Nat) :=
  toLex (group.firstWallTimeMs.isNone, group.firstWallTimeMs.getD 0)

/-- `human_action_groups_for_group`, each group with its key. -/
def humanActionGroupsForGroup (env : Env) (events : List AuditEvent) :
    List (ActionKey × HumanActionGroup) :=
  inOrder (fun entry => entry.2.order) (actionGroups env events).entries

/-! ### The payloads -/

/-- The keys of `ACTION_ATTRIBUTION_PAGE_KEYS`. -/
inductive AttributionKind where
  | user
  | system
  | other
deriving Repr, DecidableEq

/-- `action_attribution_kind`. -/
def actionAttributionKind (origin : Str) : AttributionKind :=
  if origin = lit "local_user" then .user
  else if origin = lit "system" then .system
  else .other

/-- `action_group_payload`. -/
structure ActionGroupPayload where
  key : ActionKey
  attributionKind : AttributionKind
  group : HumanActionGroup
  auditDataModes : List Str
  summaries : List Str
deriving Repr, DecidableEq

def actionGroupPayload (env : Env) (entry : ActionKey × HumanActionGroup) : ActionGroupPayload where
  key := entry.1
  attributionKind := actionAttributionKind entry.2.origin
  group := entry.2
  auditDataModes := sortedTexts (entry.2.events.map (·.auditDataMode))
  summaries := entry.2.events.map (eventSummary env)

/-- `action_attribution_payload_severity`. -/
def actionAttributionPayloadSeverity (lower : Str → Str) (payload : ActionGroupPayload) : Str :=
  severityFromValues lower
    ([payload.group.action, payload.group.origin, payload.group.phase] ++ payload.summaries)

/-- `ActionGroupCollection`. -/
structure ActionGroupCollection where
  groups : List ActionGroupPayload
  truncated : Bool
deriving Repr, DecidableEq

section Api

variable (env : Env) (lower : Str → Str) (maxEvents : Nat) (events : List AuditEvent) (groupId : Nat)

/-- The newest events, one more than the maximum. -/
def newestActionEvents (filters : ActionFilters) : List AuditEvent :=
  ((inOrder eventOrderKey (filteredActionEvents events groupId filters)).reverse).take (maxEvents + 1)

/-- The window of events the groups are made from, in chronological order. -/
def scannedActionEvents (filters : ActionFilters) : List AuditEvent :=
  let window := ((newestActionEvents maxEvents events groupId filters).take maxEvents).reverse
  if filters.messageId = [] then window
  else window.filter fun event => (actionEventMessageIds event).contains (.str filters.messageId)

/-- `action_groups_for_api`. -/
def actionGroupsForApi (filters : ActionFilters) : ActionGroupCollection :=
  let groups := (humanActionGroupsForGroup env
    (scannedActionEvents maxEvents events groupId filters)).map (actionGroupPayload env)
  { groups := if filters.severity = [] then groups
      else groups.filter (actionAttributionPayloadSeverity lower · = filters.severity)
    truncated := maxEvents < (newestActionEvents maxEvents events groupId filters).length }

end Api

/-- The groups of one kind. -/
def ActionGroupCollection.ofKind (collection : ActionGroupCollection) (kind : AttributionKind) :
    List ActionGroupPayload :=
  collection.groups.filter (·.attributionKind = kind)

/-- `action_attribution_section`. -/
def actionAttributionSection (collection : ActionGroupCollection) (kind : AttributionKind)
    (filters : ActionFilters) : List ActionGroupPayload :=
  ((collection.ofKind kind).drop filters.offset).take filters.limit

/-- `attribution_pagination_payload`. -/
structure AttributionPagination where
  pages : AttributionKind → Pagination
  scanTruncated : Bool
  scanLimit : Nat

def attributionPaginationPayload (maxEvents : Nat) (collection : ActionGroupCollection)
    (filters : ActionFilters) : AttributionPagination where
  pages kind :=
    let total := (collection.ofKind kind).length
    -- `max(total - offset, 0)` is subtraction of natural numbers
    let returned := min (total - filters.offset) filters.limit
    paginationPayload filters.limit filters.offset returned
      (filters.offset + filters.limit < total || collection.truncated)
  scanTruncated := collection.truncated
  scanLimit := maxEvents

/-! ### Following the next offsets -/

section Progress

variable (env : Env) (lower : Str → Str) (maxEvents : Nat) (events : List AuditEvent) (groupId : Nat)
variable (filters : ActionFilters)

/-- A request for the same groups from another offset. -/
def ActionFilters.from (filters : ActionFilters) (offset : Nat) : ActionFilters :=
  { filters with offset := offset }

/-- The page object of a kind, from an offset. -/
def attributionPagination (kind : AttributionKind) (offset : Nat) : Pagination :=
  (attributionPaginationPayload maxEvents
    (actionGroupsForApi env lower maxEvents events groupId (filters.from offset))
    (filters.from offset)).pages kind

/-- The rows of a kind from an offset, and the offset to go on from. -/
def attributionPage (kind : AttributionKind) (offset : Nat) : List ActionGroupPayload × Option Nat :=
  (actionAttributionSection
    (actionGroupsForApi env lower maxEvents events groupId (filters.from offset)) kind
    (filters.from offset),
   (attributionPagination env lower maxEvents events groupId filters kind offset).nextOffset)

/-- The pages of a kind advance, and the walk along them ends with every group of the window. -/
structure AttributionProgress (kind : AttributionKind) : Prop where
  advances : ∀ offset,
    (attributionPagination env lower maxEvents events groupId filters kind offset).hasMore = true →
      ∃ next, (attributionPagination env lower maxEvents events groupId filters kind
        offset).nextOffset = some next ∧ offset < next
  walk : ∃ pages, Walk (attributionPage env lower maxEvents events groupId filters kind) 0 pages ∧
    pages.flatten = (actionGroupsForApi env lower maxEvents events groupId filters).ofKind kind
  once : (((actionGroupsForApi env lower maxEvents events groupId filters).ofKind kind).map
    (·.key)).Nodup

variable {env lower maxEvents events groupId filters}

/-- The offset and the limit choose no group. -/
theorem actionGroupsForApi_from (offset : Nat) :
    actionGroupsForApi env lower maxEvents events groupId (filters.from offset) =
      actionGroupsForApi env lower maxEvents events groupId filters := rfl

/-- The window is cut when more events pass the filters than it holds. -/
theorem truncated_iff :
    (actionGroupsForApi env lower maxEvents events groupId filters).truncated = true ↔
      maxEvents < (filteredActionEvents events groupId filters).length := by
  have found : (newestActionEvents maxEvents events groupId filters).length =
      min (maxEvents + 1) (filteredActionEvents events groupId filters).length := by
    rw [newestActionEvents, List.length_take, List.length_reverse,
      (perm_inOrder eventOrderKey _).length_eq]
  rw [actionGroupsForApi, decide_eq_true_eq, found]
  omega

/-- Every group has a key of its own. -/
theorem nodup_ofKind (kind : AttributionKind) :
    (((actionGroupsForApi env lower maxEvents events groupId filters).ofKind kind).map
      (·.key)).Nodup := by
  have whole : ((humanActionGroupsForGroup env
      (scannedActionEvents maxEvents events groupId filters)).map Prod.fst).Nodup := by
    apply ((perm_inOrder _ _).map Prod.fst).nodup_iff.mpr
    exact (actionGroups env _).unique
  have payloads : (((humanActionGroupsForGroup env
      (scannedActionEvents maxEvents events groupId filters)).map
        (actionGroupPayload env)).map (·.key)).Nodup := by
    rw [List.map_map]
    exact whole
  refine List.Nodup.sublist (List.Sublist.map _ ?_) payloads
  apply List.filter_sublist.trans
  rw [actionGroupsForApi]
  split
  · exact List.Sublist.refl _
  · exact List.filter_sublist

/-- The pages of a kind are the slices of its groups while the window is whole. -/
theorem slicePages_of_whole
    (whole : (actionGroupsForApi env lower maxEvents events groupId filters).truncated = false)
    (kind : AttributionKind) :
    SlicePages ((actionGroupsForApi env lower maxEvents events groupId filters).ofKind kind)
      filters.limit (attributionPage env lower maxEvents events groupId filters kind) := by
  intro offset
  unfold attributionPage attributionPagination actionAttributionSection attributionPaginationPayload
  rw [actionGroupsForApi_from]
  generalize actionGroupsForApi env lower maxEvents events groupId filters = collection at whole ⊢
  have limit : (filters.from offset).limit = filters.limit := rfl
  have start : (filters.from offset).offset = offset := rfl
  simp only [limit, start, whole, Bool.or_false, paginationPayload, decide_eq_true_eq,
    Prod.mk.injEq, true_and]
  split
  · rw [Nat.min_eq_right (by omega)]
  · rfl

/-- A page that has a next one, while the window is whole, is full. -/
theorem advances_of_whole (positive : 1 ≤ filters.limit)
    (whole : (actionGroupsForApi env lower maxEvents events groupId filters).truncated = false)
    (kind : AttributionKind) (offset : Nat)
    (more : (attributionPagination env lower maxEvents events groupId filters kind
      offset).hasMore = true) :
    ∃ next, (attributionPagination env lower maxEvents events groupId filters kind
      offset).nextOffset = some next ∧ offset < next := by
  unfold attributionPagination attributionPaginationPayload at more ⊢
  rw [actionGroupsForApi_from] at more ⊢
  generalize actionGroupsForApi env lower maxEvents events groupId filters = collection at *
  have limit : (filters.from offset).limit = filters.limit := rfl
  have start : (filters.from offset).offset = offset := rfl
  simp only [limit, start, whole, Bool.or_false, paginationPayload, decide_eq_true_eq] at more ⊢
  rw [if_pos more]
  refine ⟨_, rfl, ?_⟩
  omega

/-- Once the window is cut every page has a next one, and past the last group it is the same page. -/
theorem nextOffset_of_truncated
    (cut : (actionGroupsForApi env lower maxEvents events groupId filters).truncated = true)
    (kind : AttributionKind) (offset : Nat) :
    (attributionPagination env lower maxEvents events groupId filters kind offset).nextOffset =
      some (offset + min (((actionGroupsForApi env lower maxEvents events groupId filters).ofKind
        kind).length - offset) filters.limit) := by
  unfold attributionPagination attributionPaginationPayload
  rw [actionGroupsForApi_from]
  simp only [cut, Bool.or_true, paginationPayload, if_true]
  rfl

/-- No walk ends once the window is cut. -/
theorem no_walk_of_truncated
    (cut : (actionGroupsForApi env lower maxEvents events groupId filters).truncated = true)
    (kind : AttributionKind) (offset : Nat) (pages : List (List ActionGroupPayload)) :
    ¬ Walk (attributionPage env lower maxEvents events groupId filters kind) offset pages := by
  apply no_walk_of_always_next
  intro start
  rw [attributionPage, nextOffset_of_truncated cut]
  exact Option.some_ne_none _

/-- The pages of a kind advance to the end of its groups exactly when the window holds every event
that passes the filters. -/
theorem attributionProgress_iff (env : Env) (lower : Str → Str) (maxEvents : Nat)
    (events : List AuditEvent) (groupId : Nat) (filters : ActionFilters)
    (positive : 1 ≤ filters.limit) (kind : AttributionKind) :
    AttributionProgress env lower maxEvents events groupId filters kind ↔
      (filteredActionEvents events groupId filters).length ≤ maxEvents := by
  rw [← Nat.not_lt, ← @truncated_iff env lower maxEvents events groupId filters, Bool.not_eq_true]
  constructor
  · intro progress
    rw [← Bool.not_eq_true]
    intro cut
    obtain ⟨pages, walk, -⟩ := progress.walk
    exact no_walk_of_truncated cut kind 0 pages walk
  · intro whole
    refine ⟨advances_of_whole positive whole kind, ?_, nodup_ofKind kind⟩
    exact (slicePages_of_whole whole kind).walk positive

/-- An action of a user. -/
def userAction (id instant : Nat) (action : Str) : AuditEvent where
  id := id
  groupId := some 1
  auditFileId := 1
  lineNumber := id
  lineHash := []
  rawLine := []
  rawEvent := .null
  rawKind := .null
  rawContext := .null
  parseStatus := .valid
  validationError := []
  schemaVersion := []
  recorderSessionId := []
  auditDataMode := []
  seq := some id
  wallTimeMs := some instant
  accountRef := []
  engineId := lit "aa"
  groupRef := []
  eventType := lit "ingest_entry"
  normalized := [(lit "human_action_action", .str action),
    (lit "human_action_origin", .str (lit "local_user"))]

/-- An environment that changes no text. -/
def plainEnv : Env where
  sha256 := fun _ => []
  slugify := id
  title := id

/-- Two actions and a window of one. -/
def cutHistory : List AuditEvent :=
  [userAction 1 1000 (lit "send_message"), userAction 2 2000 (lit "rename_group")]

theorem attributionProgress_whole :
    AttributionProgress plainEnv id 2 cutHistory 1 defaultActionFilters .user :=
  (attributionProgress_iff plainEnv id 2 cutHistory 1 defaultActionFilters (by decide) .user).mpr
    (by decide +kernel)

/-- The page after the one action of the window is empty, and its next offset is its own. -/
theorem attribution_never_ends :
    attributionPage plainEnv id 1 cutHistory 1 defaultActionFilters .user 1 = ([], some 1) ∧
      ¬ AttributionProgress plainEnv id 1 cutHistory 1 defaultActionFilters .user := by
  constructor
  · decide +kernel
  · intro progress
    obtain ⟨next, found, later⟩ := progress.advances 1 (by decide +kernel)
    have same : (attributionPagination plainEnv id 1 cutHistory 1 defaultActionFilters .user
        1).nextOffset = some 1 := by
      decide +kernel
    rw [same, Option.some.injEq] at found
    omega

end Progress

end Goggles
