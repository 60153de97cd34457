/-
Module: Goggles.Views.Projections
Purpose: The pages of the projections of a group, from the request on: whatever is asked for, the pages
  of a section are what a reader of the export finds by filtering its rows.
Trusted boundary: forensics/views.py, `api_filter_values` to `bounded_nonnegative_int`,
  `bounded_positive_int`, `group_projection_payload`.  `str.lower` and the `int` of a text are
  parameters; the queries answer, whatever the offset; the sections of the action attribution are in
  Goggles.Views.Actions; all pages are read from one state
Main exports: apiFilterValues, groupProjectionPayload, ExportPayload.admitted, localAnswer,
  projections_walked
-/
import Goggles.Ingest.Acceptance
import Goggles.Retention.Exports
import Goggles.Views.Pagination

namespace Goggles

/-! ### The request -/

/-- `GROUP_PROJECTION_API_MAX_LIMIT`. -/
def GROUP_PROJECTION_API_MAX_LIMIT : Nat := 500

section Request

variable (lower : Str → Str) (int : Str → Option Int) (get : Str → Option Str)

/-- `optional_positive_int`. -/
def optionalPositiveInt (value : Option Str) : Option Nat :=
  match value with
  | none | some [] => none
  | some text => (int text).bind fun parsed => if parsed < 0 then none else some parsed.toNat

/-- `bounded_nonnegative_int`. -/
def boundedNonnegativeInt (value : Option Str) : Nat :=
  match value with
  | none | some [] => 0
  | some text => (max ((int text).getD 0) 0).toNat

/-- `bounded_positive_int`.  A blank text is no number. -/
def boundedPositiveInt (value : Option Str) (default maximum : Nat) : Nat :=
  let parsed : Int := match value with
    | none => default
    | some text => (int text).getD default
  min (max parsed 1).toNat maximum

/-- `api_filter_values`, of the parameters of a request. -/
def apiFilterValues : ApiFilters where
  engineId := (get "engine_id").getD []
  accountRef := (get "account_ref").getD []
  auditDataMode := (get "audit_data_mode").getD []
  messageId := (get "message_id").getD []
  eventType := (get "event_type").getD []
  severity := lower ((get "severity").getD [])
  epoch := optionalPositiveInt int (get "epoch")
  fromMs := optionalPositiveInt int (get "from_ms")
  toMs := optionalPositiveInt int (get "to_ms")
  limit := boundedPositiveInt int (get "limit") GROUP_PROJECTION_API_DEFAULT_LIMIT
    GROUP_PROJECTION_API_MAX_LIMIT
  offset := boundedNonnegativeInt int (get "offset")

/-- Every request asks for at least one row, and for no more than the maximum. -/
theorem limit_apiFilterValues : 1 ≤ (apiFilterValues lower int get).limit ∧
    (apiFilterValues lower int get).limit ≤ GROUP_PROJECTION_API_MAX_LIMIT := by
  refine ⟨?_, Nat.min_le_right _ _⟩
  apply Nat.le_min.mpr
  refine ⟨?_, by decide⟩
  have positive : ∀ parsed : Int, 1 ≤ (max parsed 1).toNat := by
    intro parsed
    omega
  exact positive _

end Request

/-! ### The pages -/

/-- `payload["severity"]`. -/
def ExportPayload.severity : ExportPayload → Str
  | .source _ | .event _ => []
  | .deliveryArtifact payload => payload.severity
  | .networkObservation payload => payload.severity
  | .convergenceRun payload => payload.severity
  | .stateDelta payload => payload.severity
  | .epochStateTransition payload => payload.severity
  | .auditDataModeChange payload => payload.severity

/-- `convergence_payload_matches_filters`, which is asked of runs only. -/
def ExportPayload.matchesFilters (filters : ApiFilters) : ExportPayload → Bool
  | .convergenceRun payload => convergencePayloadMatchesFilters payload.payload filters
  | _ => true

/-- A section of the projections: its rows in the order of its pages, and what its payloads are
filtered by. -/
structure ProjectionSection where
  name : Str
  rows : List ExportRow
  payloadFilter : Option (ExportPayload → Bool)

/-- The request for a later page. -/
def ApiFilters.from (filters : ApiFilters) (offset : Nat) : ApiFilters := { filters with offset }

/-- The order of the pages of mode changes. -/
abbrev ModeChangeOrder := Bool ×ₗ Nat ×ₗ Str ×ₗ Nat

section Pages

variable (keyText : Dict → Str → Option Str) (lower : Str → Str) (listText : List Json → Str)
  (strOf : Json → Str) (store : Store) (groupId : Nat) (filters : ApiFilters)

/-- The arguments of the calls of `paginated_payloads`. -/
def projectionSections : List ProjectionSection :=
  let rows := store.projections groupId
  [⟨lit "delivery_artifacts",
      (filteredDeliveryArtifacts store.events rows.delivery filters).map .deliveryArtifact, none⟩,
    ⟨lit "network_observations",
      (filteredNetworkObservations store.events rows.network filters).map .networkObservation, none⟩,
    ⟨lit "convergence_runs",
      (inOrder (fun entry => toLex (entry.2.startedAtMs.isNone, toLex (entry.2.startedAtMs.getD 0,
        toLex entry.1))) (filteredConvergenceRuns store.events rows.convergence filters)).map
          .convergenceRun,
      if filters.messageId = [] then none else some (·.matchesFilters filters)⟩,
    ⟨lit "state_deltas",
      (inOrder (fun delta => toLex (toLex (delta.epoch.isNone, delta.epoch.getD 0),
        toLex (delta.wallTimeMs.isNone, delta.wallTimeMs.getD 0)))
          (filteredStateDeltas store.events rows.stateDeltas filters)).map .stateDelta, none⟩,
    ⟨lit "epoch_state_transitions",
      (inOrder (fun row => toLex (toLex (row.wallTimeMs.isNone, row.wallTimeMs.getD 0), row.engineId))
        (filteredEpochTransitions store.events rows.epochTransitions filters)).map
          .epochStateTransition, none⟩,
    -- the pages are ordered by id where the export is ordered by line
    ⟨lit "audit_data_mode_changes",
      (inOrder (fun event : AuditEvent => (toLex (event.wallTimeMs.isNone,
        toLex (event.wallTimeMs.getD 0, toLex (event.engineId, event.id))) : ModeChangeOrder))
          (filteredAuditDataModeChanges store.events groupId filters)).map .auditDataModeChange,
      none⟩]

/-- `group_projection_payload`: each section with its page and its pagination. -/
def groupProjectionPayload : List (Str × List ExportPayload × Pagination) :=
  (projectionSections store groupId filters).map fun part =>
    (part.name, paginatedPayloads (exportPayload keyText lower listText strOf store groupId)
      ExportPayload.severity ⟨filters.limit, filters.severity, part.payloadFilter⟩ part.rows
        filters.offset)

/-- The page of a section at an offset, and the next offset. -/
def projectionPage (name : Str) (offset : Nat) : List ExportPayload × Option Nat :=
  (((groupProjectionPayload keyText lower listText strOf store groupId
    (filters.from offset)).lookup name).map (Prod.map id Pagination.nextOffset)).getD ([], none)

end Pages

/-! ### The answer of a reader of the export -/

/-- The payloads of an export, by section. -/
abbrev ExportDocument := List (Str × List ExportPayload)

/-- The payloads of a section. -/
def ExportDocument.part (document : ExportDocument) (recordType : Str) : List ExportPayload :=
  (document.lookup recordType).getD []

/-- The row of an event. -/
def ExportPayload.eventRow : ExportPayload → Option AgentEventRow
  | .event row => some row
  | _ => none

/-- The rows of the events of an export. -/
def ExportDocument.eventRows (document : ExportDocument) : List AgentEventRow :=
  (document.part "event").filterMap ExportPayload.eventRow

def AgentEventRow.text (row : AgentEventRow) (column : Str) : Str :=
  valueIfStr (Dict.get row.normalized column)

def AgentEventRow.number (row : AgentEventRow) (column : Str) : Option Nat :=
  valueIfInt (Dict.get row.normalized column)

/-- The id is in one of the three columns that hold one id each. -/
def AgentEventRow.inIdColumns (messageId : Str) (row : AgentEventRow) : Bool :=
  row.text "msg_id" = messageId || row.text "outbound_msg_id" = messageId ||
    row.text "invalidated_msg_id" = messageId

/-- A reference to evidence shows a value. -/
def refsFilter (refs : List Dict) (wanted column : Str) : Bool :=
  wanted = [] || refs.any fun ref => ref.get column = .str wanted

/-- The event that a row refers to shows a value. -/
def rowFilter (row : Option AgentEventRow) (wanted : Str) (column : AgentEventRow → Str) : Bool :=
  wanted = [] || row.any fun row => column row = wanted

section Reader

variable (rows : List AgentEventRow) (filters : ApiFilters)

/-- The event that a reference is to. -/
def referredRow (ref : Dict) : Option AgentEventRow :=
  rows.find? fun row => ref.get (lit "event_id") = .int row.id

def DeliveryArtifactPayload.asked (payload : DeliveryArtifactPayload) : Bool :=
  (filters.engineId = [] || payload.engineObservations.any (·.engineId = filters.engineId)) &&
  (filters.accountRef = [] || payload.engineObservations.any (·.accountRef = filters.accountRef)) &&
  refsFilter payload.evidenceRefs filters.auditDataMode "audit_data_mode" &&
  textFilter filters.messageId payload.artifactId &&
  refsFilter payload.evidenceRefs filters.eventType "event_type" &&
  timeFilter filters.fromMs none payload.artifact.lastSeenMs &&
  timeFilter none filters.toMs payload.artifact.firstSeenMs

def NetworkObservationPayload.asked (payload : NetworkObservationPayload) : Bool :=
  let observation := payload.observation
  textFilter filters.engineId observation.engineId &&
  textFilter filters.accountRef observation.accountRef &&
  refsFilter payload.evidenceRef.toList filters.auditDataMode "audit_data_mode" &&
  textFilter filters.messageId observation.messageId &&
  textFilter filters.eventType observation.phase &&
  timeFilter filters.fromMs filters.toMs observation.wallTimeMs

def ConvergencePayload.asked (payload : ConvergencePayload) : Bool :=
  let shown := payload.payload
  textFilter filters.engineId shown.key.1 && textFilter filters.accountRef shown.run.accountRef &&
  refsFilter shown.evidenceRefs filters.auditDataMode "audit_data_mode" &&
  epochFilter filters.epoch
    ([shown.run.currentTipEpoch, shown.run.selectedForkEpoch, shown.run.selectedTipEpoch] ++
      shown.candidates.flatMap (fun candidate => [candidate.2.forkEpoch, candidate.2.tipEpoch]) ++
      (shown.evidenceRefs.filterMap (referredRow rows)).flatMap (fun row =>
        [row.number "epoch", row.number "current_tip_epoch", row.number "selected_fork_epoch",
          row.number "selected_tip_epoch"])) &&
  refsFilter shown.evidenceRefs filters.eventType "event_type" &&
  timeFilter filters.fromMs none shown.run.endedAtMs &&
  timeFilter none filters.toMs shown.run.startedAtMs &&
  convergencePayloadMatchesFilters shown filters

def StateDeltaPayload.asked (payload : StateDeltaPayload) : Bool :=
  let delta := payload.delta
  let row := payload.evidenceRef.bind (referredRow rows)
  rowFilter row filters.engineId (·.engineId) && rowFilter row filters.accountRef (·.accountRef) &&
  textFilter filters.auditDataMode delta.auditDataMode &&
  (filters.messageId = [] || delta.originCommitId = filters.messageId ||
    row.any (·.inIdColumns filters.messageId)) &&
  epochFilter filters.epoch [delta.epoch] && textFilter filters.eventType delta.changeKind &&
  timeFilter filters.fromMs filters.toMs delta.wallTimeMs

def EpochTransitionPayload.asked (payload : EpochTransitionPayload) : Bool :=
  let transition := payload.transition
  let row := payload.evidenceRef.bind (referredRow rows)
  textFilter filters.engineId transition.engineId &&
  textFilter filters.accountRef transition.accountRef &&
  refsFilter payload.evidenceRef.toList filters.auditDataMode "audit_data_mode" &&
  (filters.messageId = [] || row.any (·.inIdColumns filters.messageId)) &&
  epochFilter filters.epoch [transition.epoch] &&
  textFilter filters.eventType transition.newState &&
  timeFilter filters.fromMs filters.toMs transition.wallTimeMs

def AuditDataModeChangePayload.asked (payload : AuditDataModeChangePayload) : Bool :=
  textFilter filters.engineId payload.engineId && textFilter filters.accountRef payload.accountRef &&
  textFilter filters.auditDataMode payload.auditDataMode &&
  textFilter filters.eventType (lit "audit_data_mode_changed") &&
  timeFilter filters.fromMs filters.toMs payload.wallTimeMs

/-- A payload of an export is one that the filters ask for. -/
def ExportPayload.admitted (payload : ExportPayload) : Bool :=
  (filters.severity = [] || payload.severity = filters.severity) &&
    match payload with
    | .source _ | .event _ => true
    | .deliveryArtifact payload => payload.asked filters
    | .networkObservation payload => payload.asked filters
    | .convergenceRun payload => payload.asked rows filters
    | .stateDelta payload => payload.asked rows filters
    | .epochStateTransition payload => payload.asked rows filters
    | .auditDataModeChange payload => payload.asked filters

end Reader

/-- Where a mode change stands in its pages. -/
def ExportPayload.modeChangeOrder : ExportPayload → ModeChangeOrder
  | .auditDataModeChange payload =>
      toLex (payload.wallTimeMs.isNone, toLex (payload.wallTimeMs.getD 0, toLex (payload.engineId,
        ((payload.evidenceRef.bind fun ref => valueIfInt (ref.get (lit "event_id"))).getD 0))))
  | _ => toLex (true, toLex (0, toLex ([], 0)))

/-- What a reader of the export takes for the answer to a request: the rows of each section that are
asked for.  Only the mode changes are put in another order. -/
def localAnswer (document : ExportDocument) (filters : ApiFilters) : ExportDocument :=
  let kept (recordType : Str) :=
    (document.part recordType).filter (·.admitted document.eventRows filters)
  [(lit "delivery_artifacts", kept "delivery_artifact"),
    (lit "network_observations", kept "network_observation"),
    (lit "convergence_runs", kept "convergence_run"),
    (lit "state_deltas", kept "state_delta"),
    (lit "epoch_state_transitions", kept "epoch_state_transition"),
    (lit "audit_data_mode_changes",
      inOrder ExportPayload.modeChangeOrder (kept "audit_data_mode_change"))]

section Document

variable (keyText : Dict → Str → Option Str) (lower : Str → Str) (listText : List Json → Str)
  (strOf : Json → Str) (store : Store) (groupId : Nat)

/-- The export of a group, as it is downloaded. -/
def exportDocument : ExportDocument :=
  (exportRows store groupId).map fun part =>
    (part.1, part.2.map (exportPayload keyText lower listText strOf store groupId))

/-- The pages of the rows show what a reader keeps of a section of the export. -/
def Answered (filters : ApiFilters) (rows : List ExportRow)
    (payloadFilter : Option (ExportPayload → Bool)) (recordType : Str) : Prop :=
  passing (exportPayload keyText lower listText strOf store groupId) ExportPayload.severity
      ⟨filters.limit, filters.severity, payloadFilter⟩ rows =
    ((exportDocument keyText lower listText strOf store groupId).part recordType).filter
      (·.admitted (exportDocument keyText lower listText strOf store groupId).eventRows filters)

end Document

/-! ### The rows of events -/

theorem lookup_map_of_mem {κ ρ : Type*} [BEq κ] [LawfulBEq κ] [DecidableEq κ] (value : κ → ρ)
    {names : List κ} {name : κ} (member : name ∈ names) :
    (names.map fun field => (field, value field)).lookup name = some (value name) := by
  induction names with
  | nil => cases member
  | cons field rest inductionHypothesis =>
      rw [List.map_cons, lookup_cons_ite]
      by_cases here : name = field
      · rw [if_pos here, here]
      · rw [if_neg here]
        exact inductionHypothesis ((List.mem_cons.mp member).resolve_left here)

/-- A blank column is not shown. -/
theorem get_agentEventRow (event : AuditEvent) {column : Str}
    (exported : column ∈ agentExportNormalizedFields) :
    Dict.get (agentEventRow event).normalized column =
      if isBlankValue (event.normalized.get column) then .null else event.normalized.get column := by
  have shown : (agentEventRow event).normalized =
      (agentExportNormalizedFields.map fun field => (field, event.normalized.get field)).filter
        fun entry => !isBlankValue (event.normalized.get entry.1) := by
    apply List.filter_congr
    intro entry member
    obtain ⟨field, -, rfl⟩ := List.mem_map.mp member
    rfl
  rw [shown, Dict.get, @lookup_filter_key fun name => !isBlankValue (event.normalized.get name),
    lookup_map_of_mem (fun field => event.normalized.get field) exported]
  cases isBlankValue (event.normalized.get column) <;> rfl

/-- The columns that the filters ask for are exported. -/
theorem askedColumns_exported : ∀ column ∈ [lit "msg_id", lit "outbound_msg_id",
    lit "invalidated_msg_id", lit "epoch", lit "current_tip_epoch", lit "selected_fork_epoch",
    lit "selected_tip_epoch"], column ∈ agentExportNormalizedFields := by
  decide +kernel

theorem isBlankValue_cases {value : Json} (blank : isBlankValue value = true) :
    value = .null ∨ value = .str [] ∨ value = .list [] ∨ value = .dict [] := by
  unfold isBlankValue at blank
  split at blank
  · exact .inl rfl
  · exact .inr (.inl rfl)
  · exact .inr (.inr (.inl rfl))
  · exact .inr (.inr (.inr rfl))
  · cases blank

section Row

variable {event : AuditEvent} {column : Str} (exported : column ∈ agentExportNormalizedFields)
include exported

theorem text_agentEventRow : (agentEventRow event).text column = event.text column := by
  rw [AgentEventRow.text, AuditEvent.text, get_agentEventRow event exported]
  split
  · next blank => rcases isBlankValue_cases blank with same | same | same | same <;> rw [same] <;> rfl
  · rfl

theorem number_agentEventRow : (agentEventRow event).number column = event.number column := by
  rw [AgentEventRow.number, AuditEvent.number, get_agentEventRow event exported]
  split
  · next blank => rcases isBlankValue_cases blank with same | same | same | same <;> rw [same] <;> rfl
  · rfl

end Row

theorem inIdColumns_agentEventRow (messageId : Str) (event : AuditEvent) :
    (agentEventRow event).inIdColumns messageId = inIdColumns messageId event := by
  rw [AgentEventRow.inIdColumns, inIdColumns,
    text_agentEventRow (askedColumns_exported (lit "msg_id") (by simp)),
    text_agentEventRow (askedColumns_exported (lit "outbound_msg_id") (by simp)),
    text_agentEventRow (askedColumns_exported (lit "invalidated_msg_id") (by simp))]
  rfl

/-! ### One section -/

section Sections

variable (keyText : Dict → Str → Option Str) (lower : Str → Str) (listText : List Json → Str)
  (strOf : Json → Str) {store : Store} {groupId : Nat}

theorem eventRows_exportDocument :
    (exportDocument keyText lower listText strOf store groupId).eventRows =
      (inOrder eventOrderKey (store.groupEvents groupId)).map agentEventRow := by
  have part : (exportDocument keyText lower listText strOf store groupId).part "event" =
      ((inOrder eventOrderKey (store.groupEvents groupId)).map .event).map
        (exportPayload keyText lower listText strOf store groupId) := rfl
  rw [ExportDocument.eventRows, part, List.map_map, List.filterMap_map, ← List.filterMap_eq_map]
  rfl

/-- A reference to an event of the group leads to its row. -/
theorem referredRow_eq (ids : (store.events.map (·.id)).Nodup) {event : AuditEvent}
    (member : event ∈ store.groupEvents groupId) :
    referredRow (exportDocument keyText lower listText strOf store groupId).eventRows
      (evidenceRefPayload event) = some (agentEventRow event) := by
  have distinct : ((inOrder eventOrderKey (store.groupEvents groupId)).map AuditEvent.id).Nodup :=
    ((perm_inOrder _ _).map _).nodup_iff.mpr (ids.sublist (List.filter_sublist.map _))
  have found := find?_of_nodup distinct (mem_inOrder.mpr member)
  rw [referredRow, eventRows_exportDocument, List.find?_map]
  have same : ((fun row : AgentEventRow => decide ((evidenceRefPayload event).get (lit "event_id") =
      .int row.id)) ∘ agentEventRow) = fun other => decide (other.id = event.id) := by
    funext other
    show decide (Json.int event.id = .int other.id) = _
    simp [eq_comm, Int.natCast_inj]
  rw [same, found, Option.map_some]

theorem referredRows_eq (ids : (store.events.map (·.id)).Nodup) {evidence : Finset Nat}
    (known : ∀ eventId ∈ evidence, store.InGroup groupId eventId) :
    ((citedEvents store.events evidence).map evidenceRefPayload).filterMap
        (referredRow (exportDocument keyText lower listText strOf store groupId).eventRows) =
      (citedEvents store.events evidence).map agentEventRow := by
  rw [List.filterMap_map, ← List.filterMap_eq_map]
  apply List.filterMap_congr
  intro event cited
  exact referredRow_eq keyText lower listText strOf ids (mem_groupEvents_of_cited ids known cited)

/-- The event of a row, and its row in the export. -/
theorem exists_referredRow (ids : (store.events.map (·.id)).Nodup) {eventId : Nat}
    (known : store.InGroup groupId eventId) :
    ∃ event, eventOf store.events eventId = some event ∧
      (evidenceRefOf store.events eventId).bind
        (referredRow (exportDocument keyText lower listText strOf store groupId).eventRows) =
          some (agentEventRow event) := by
  obtain ⟨event, member, rfl⟩ := known
  have found := eventOf_eq ids (List.mem_of_mem_filter member)
  refine ⟨event, found, ?_⟩
  rw [evidenceRefOf, found, Option.map_some, Option.bind_some]
  exact referredRow_eq keyText lower listText strOf ids member

/-- Filtering the rows for the pages is filtering the payloads that are shown of all. -/
theorem passing_map_filter {σ ρ π : Type*} {payloadFactory : ρ → π} {severityFactory : π → Str}
    {query : PageQuery π} {items : List σ} {row : σ → ρ} {keep shown : σ → Bool} {admitted : π → Bool}
    (same : ∀ item ∈ items, (keep item && query.passes severityFactory (payloadFactory (row item))) =
      (shown item && admitted (payloadFactory (row item)))) :
    passing payloadFactory severityFactory query ((items.filter keep).map row) =
      (((items.filter shown).map row).map payloadFactory).filter admitted := by
  rw [passing, List.map_map, List.map_map, List.filter_map, List.filter_map, List.filter_filter,
    List.filter_filter]
  refine congrArg (List.map _) (List.filter_congr fun item member => ?_)
  exact (Bool.and_comm _ _).trans ((same item member).trans (Bool.and_comm _ _))

theorem passing_inOrder_filter {σ ρ π α : Type*} [LinearOrder α] {payloadFactory : ρ → π}
    {severityFactory : π → Str} {query : PageQuery π} {key : σ → α} {items : List σ} {row : σ → ρ}
    {keep shown : σ → Bool} {admitted : π → Bool}
    (same : ∀ item ∈ items, (keep item && query.passes severityFactory (payloadFactory (row item))) =
      (shown item && admitted (payloadFactory (row item)))) :
    passing payloadFactory severityFactory query ((inOrder key (items.filter keep)).map row) =
      (((inOrder key (items.filter shown)).map row).map payloadFactory).filter admitted := by
  rw [← filter_inOrder, ← filter_inOrder]
  exact passing_map_filter fun item member => same item (mem_inOrder.mp member)

/-- The pages in another order. -/
theorem passing_inOrder {σ ρ π α : Type*} [LinearOrder α] {payloadFactory : ρ → π}
    {severityFactory : π → Str} {query : PageQuery π} (key : π → α) (items : List σ) (row : σ → ρ) :
    passing payloadFactory severityFactory query
        ((inOrder (fun item => key (payloadFactory (row item))) items).map row) =
      inOrder key (passing payloadFactory severityFactory query (items.map row)) := by
  rw [passing, passing, List.map_map, List.map_map]
  have sorted := map_inOrder key (payloadFactory ∘ row) items
  simp only [Function.comp_apply] at sorted
  rw [sorted, filter_inOrder]

/-- References show the columns of their events. -/
theorem refsFilter_map (events : List AuditEvent) (wanted column : Str) {read : AuditEvent → Str}
    (shows : ∀ event, (evidenceRefPayload event).get column = .str (read event)) :
    refsFilter (events.map evidenceRefPayload) wanted column =
      (wanted = [] || events.any fun event => read event = wanted) := by
  rw [refsFilter, List.any_map]
  simp [Function.comp_def, shows]

theorem refsFilter_toList (event : Option AuditEvent) (wanted column : Str) {read : AuditEvent → Str}
    (shows : ∀ event, (evidenceRefPayload event).get column = .str (read event)) :
    refsFilter (event.map evidenceRefPayload).toList wanted column = eventFilter event wanted read := by
  cases event <;> simp [refsFilter, eventFilter, shows]

/-! The default filters ask for nothing. -/

theorem textFilter_nil (column : Str) : textFilter [] column = true := rfl

theorem eventFilter_nil (event : Option AuditEvent) (column : AuditEvent → Str) :
    eventFilter event [] column = true := rfl

theorem epochFilter_none (columns : List (Option Nat)) : epochFilter none columns = true := rfl

theorem timeFilter_none (wallTimeMs : Option Nat) : timeFilter none none wallTimeMs = true := rfl

section Asked

variable (filters : ApiFilters)

theorem deliveryArtifacts_answered :
    Answered keyText lower listText strOf store groupId filters
      ((filteredDeliveryArtifacts store.events (store.projections groupId).delivery filters).map
        .deliveryArtifact) none "delivery_artifact" := by
  apply passing_map_filter
  intro entry _
  simp only [PageQuery.passes, Option.all_none, ExportPayload.admitted, exportPayload,
    ExportPayload.severity, DeliveryArtifactPayload.asked, deliveryArtifactPayload,
    evidenceRefsPayload, Bool.and_true]
  rw [refsFilter_map _ _ (lit "audit_data_mode") fun _ => rfl,
    refsFilter_map _ _ (lit "event_type") fun _ => rfl]
  simp only [List.any_map, Function.comp_def, deliveryObservationPayload, defaultApiFilters,
    textFilter_nil, timeFilter_none, decide_true, Bool.true_or, Bool.and_self, Bool.true_and]
  exact Bool.and_comm _ _

theorem networkObservations_answered :
    Answered keyText lower listText strOf store groupId filters
      ((filteredNetworkObservations store.events (store.projections groupId).network filters).map
        .networkObservation) none "network_observation" := by
  apply passing_map_filter
  intro observation _
  simp only [PageQuery.passes, Option.all_none, ExportPayload.admitted, exportPayload,
    ExportPayload.severity, NetworkObservationPayload.asked, networkObservationPayload,
    evidenceRefOf, Bool.and_true]
  rw [refsFilter_toList _ _ (lit "audit_data_mode") fun _ => rfl]
  simp only [defaultApiFilters, textFilter_nil, eventFilter_nil, timeFilter_none, Bool.and_self,
    Bool.true_and]
  exact Bool.and_comm _ _

theorem convergenceRuns_answered (ids : (store.events.map (·.id)).Nodup)
    (cites : (store.projections groupId).Cites (store.InGroup groupId)) :
    Answered keyText lower listText strOf store groupId filters
      ((inOrder (fun entry => toLex (entry.2.startedAtMs.isNone, toLex (entry.2.startedAtMs.getD 0,
        toLex entry.1))) (filteredConvergenceRuns store.events (store.projections groupId).convergence
          filters)).map .convergenceRun)
      (if filters.messageId = [] then none else some (·.matchesFilters filters)) "convergence_run" := by
  apply passing_inOrder_filter
  intro entry stored
  have rows := referredRows_eq keyText lower listText strOf ids (cites.runs entry stored)
  have epochs : ∀ event : AuditEvent,
      [(agentEventRow event).number "epoch", (agentEventRow event).number "current_tip_epoch",
        (agentEventRow event).number "selected_fork_epoch",
        (agentEventRow event).number "selected_tip_epoch"] =
      [event.number "epoch", event.number "current_tip_epoch", event.number "selected_fork_epoch",
        event.number "selected_tip_epoch"] := by
    intro event
    rw [number_agentEventRow (askedColumns_exported _ (by simp)),
      number_agentEventRow (askedColumns_exported _ (by simp)),
      number_agentEventRow (askedColumns_exported _ (by simp)),
      number_agentEventRow (askedColumns_exported _ (by simp))]
  have asked : ∀ payload, PageQuery.passes
      (⟨filters.limit, filters.severity, if filters.messageId = [] then none
        else some fun shown : ExportPayload => shown.matchesFilters filters⟩ : PageQuery ExportPayload)
        ExportPayload.severity (.convergenceRun payload) =
      ((filters.severity = [] || payload.severity = filters.severity) &&
        convergencePayloadMatchesFilters payload.payload filters) := by
    intro payload
    by_cases blank : filters.messageId = []
    · rw [if_pos blank, convergencePayloadMatchesFilters, decide_eq_true blank, Bool.true_or,
        Bool.true_or]
      rfl
    · rw [if_neg blank]
      rfl
  simp only [exportPayload, asked, ExportPayload.admitted, ConvergencePayload.asked,
    convergencePayload, convergenceRunPayload, rows, List.flatMap_map, epochs, ExportPayload.severity]
  rw [refsFilter_map _ _ (lit "audit_data_mode") fun _ => rfl,
    refsFilter_map _ _ (lit "event_type") fun _ => rfl]
  simp only [defaultApiFilters, textFilter_nil, epochFilter_none, timeFilter_none, decide_true,
    Bool.true_or, Bool.and_self, Bool.true_and]
  ac_rfl

theorem stateDeltas_answered (ids : (store.events.map (·.id)).Nodup)
    (cites : (store.projections groupId).Cites (store.InGroup groupId)) :
    Answered keyText lower listText strOf store groupId filters
      ((inOrder (fun delta => toLex (toLex (delta.epoch.isNone, delta.epoch.getD 0),
        toLex (delta.wallTimeMs.isNone, delta.wallTimeMs.getD 0))) (filteredStateDeltas store.events
          (store.projections groupId).stateDeltas filters)).map .stateDelta) none "state_delta" := by
  apply passing_inOrder_filter
  intro delta stored
  obtain ⟨event, found, row⟩ :=
    exists_referredRow keyText lower listText strOf ids (cites.stateDeltas delta stored)
  simp only [PageQuery.passes, Option.all_none, ExportPayload.admitted, exportPayload,
    ExportPayload.severity, StateDeltaPayload.asked, stateDeltaPayload, found, row, rowFilter,
    eventFilter, Option.any_some, inIdColumns_agentEventRow, Bool.and_true]
  simp only [defaultApiFilters, textFilter_nil, epochFilter_none, timeFilter_none, decide_true,
    Bool.true_or, Bool.and_self, Bool.true_and]
  exact Bool.and_comm _ _

theorem epochTransitions_answered (ids : (store.events.map (·.id)).Nodup)
    (cites : (store.projections groupId).Cites (store.InGroup groupId)) :
    Answered keyText lower listText strOf store groupId filters
      ((inOrder (fun row => toLex (toLex (row.wallTimeMs.isNone, row.wallTimeMs.getD 0), row.engineId))
        (filteredEpochTransitions store.events (store.projections groupId).epochTransitions
          filters)).map .epochStateTransition) none "epoch_state_transition" := by
  apply passing_inOrder_filter
  intro transition stored
  obtain ⟨event, found, row⟩ :=
    exists_referredRow keyText lower listText strOf ids (cites.epochTransitions transition stored)
  simp only [PageQuery.passes, Option.all_none, ExportPayload.admitted, exportPayload,
    ExportPayload.severity, EpochTransitionPayload.asked, epochTransitionPayload, row,
    Option.any_some, inIdColumns_agentEventRow, Bool.and_true]
  rw [evidenceRefOf, refsFilter_toList _ _ (lit "audit_data_mode") fun _ => rfl]
  simp only [found, defaultApiFilters, textFilter_nil, eventFilter_nil, epochFilter_none,
    timeFilter_none, Option.any_some, decide_true, Bool.true_or, Bool.and_self, Bool.true_and]
  exact Bool.and_comm _ _

theorem auditDataModeChanges_answered :
    passing (exportPayload keyText lower listText strOf store groupId) ExportPayload.severity
        ⟨filters.limit, filters.severity, none⟩
        ((inOrder (fun event : AuditEvent => (toLex (event.wallTimeMs.isNone,
          toLex (event.wallTimeMs.getD 0, toLex (event.engineId, event.id))) : ModeChangeOrder))
            (filteredAuditDataModeChanges store.events groupId filters)).map .auditDataModeChange) =
      inOrder ExportPayload.modeChangeOrder
        (((exportDocument keyText lower listText strOf store groupId).part
          "audit_data_mode_change").filter (·.admitted
            (exportDocument keyText lower listText strOf store groupId).eventRows filters)) := by
  have order : (fun event : AuditEvent => (toLex (event.wallTimeMs.isNone,
      toLex (event.wallTimeMs.getD 0, toLex (event.engineId, event.id))) : ModeChangeOrder)) =
      fun event => ExportPayload.modeChangeOrder
        (exportPayload keyText lower listText strOf store groupId (.auditDataModeChange event)) := by
    funext event
    show _ = (toLex (event.wallTimeMs.isNone, toLex (event.wallTimeMs.getD 0,
      toLex (event.engineId, (valueIfInt (.int event.id)).getD 0))) : ModeChangeOrder)
    rw [valueIfInt_natCast, Option.getD_some]
  have kept : Answered keyText lower listText strOf store groupId filters
      ((filteredAuditDataModeChanges store.events groupId filters).map .auditDataModeChange) none
        "audit_data_mode_change" := by
    apply passing_map_filter
    intro event _
    simp only [PageQuery.passes, Option.all_none, ExportPayload.admitted, exportPayload,
      ExportPayload.severity, AuditDataModeChangePayload.asked, auditDataModeChangePayload,
      Bool.and_true]
    simp only [defaultApiFilters, textFilter_nil, timeFilter_none, Bool.and_true]
    ac_rfl
  rw [order, passing_inOrder, kept]

end Asked

end Sections

/-! ### The answer -/

section Answer

variable (keyText : Dict → Str → Option Str) (lower : Str → Str) (listText : List Json → Str)
  (strOf : Json → Str)

/-- Following the next offsets of each section from its first page reads what a reader of the export
takes for the answer. -/
def PagesAnswer (store : Store) (groupId : Nat) (filters : ApiFilters) : Prop :=
  (groupProjectionPayload keyText lower listText strOf store groupId filters).map Prod.fst =
      (localAnswer (exportDocument keyText lower listText strOf store groupId) filters).map Prod.fst ∧
    ∀ answer ∈ localAnswer (exportDocument keyText lower listText strOf store groupId) filters,
      ∃ pages, Walk (projectionPage keyText lower listText strOf store groupId filters answer.1) 0
        pages ∧ pages.flatten = answer.2

variable {store : Store} {groupId : Nat} {filters : ApiFilters}

/-- The pages of a section, at any offset. -/
theorem projectionPage_eq {part : ProjectionSection}
    (member : part ∈ projectionSections store groupId filters) :
    projectionPage keyText lower listText strOf store groupId filters part.name = fun offset =>
      (paginatedPayloads (exportPayload keyText lower listText strOf store groupId)
        ExportPayload.severity ⟨filters.limit, filters.severity, part.payloadFilter⟩ part.rows
          offset).map id Pagination.nextOffset := by
  funext offset
  have once : ((groupProjectionPayload keyText lower listText strOf store groupId
      (filters.from offset)).map Prod.fst).Nodup := by
    have names : (groupProjectionPayload keyText lower listText strOf store groupId
        (filters.from offset)).map Prod.fst = [lit "delivery_artifacts", lit "network_observations",
          lit "convergence_runs", lit "state_deltas", lit "epoch_state_transitions",
          lit "audit_data_mode_changes"] := rfl
    rw [names]
    decide
  have later : part ∈ projectionSections store groupId (filters.from offset) := member
  have found := lookup_of_nodup once (List.mem_map_of_mem later)
  rw [projectionPage, found]
  rfl

/-- A section whose rows pass as a reader keeps them. -/
theorem exists_walk (positive : 1 ≤ filters.limit) {part : ProjectionSection}
    (member : part ∈ projectionSections store groupId filters) {answer : List ExportPayload}
    (kept : passing (exportPayload keyText lower listText strOf store groupId)
      ExportPayload.severity ⟨filters.limit, filters.severity, part.payloadFilter⟩ part.rows = answer) :
    ∃ pages, Walk (projectionPage keyText lower listText strOf store groupId filters part.name) 0
      pages ∧ pages.flatten = answer := by
  rw [projectionPage_eq keyText lower listText strOf member, ← kept]
  exact (paginatedPayloads_walk _ _ ⟨filters.limit, filters.severity, part.payloadFilter⟩ _
    positive).1

theorem StoreLinked.pagesAnswer (linked : StoreLinked store) (positive : 1 ≤ filters.limit) :
    PagesAnswer keyText lower listText strOf store groupId filters := by
  have ids := linked.formed.eventIds
  have cites := linked.cites groupId
  have read : ∀ part ∈ projectionSections store groupId filters, ∀ answer,
      passing (exportPayload keyText lower listText strOf store groupId) ExportPayload.severity
          ⟨filters.limit, filters.severity, part.payloadFilter⟩ part.rows = answer →
        ∃ pages, Walk (projectionPage keyText lower listText strOf store groupId filters part.name)
          0 pages ∧ pages.flatten = answer :=
    fun part member answer kept => exists_walk keyText lower listText strOf positive member kept
  simp only [projectionSections, List.forall_mem_cons] at read
  obtain ⟨artifacts, network, runs, deltas, transitions, changes, -⟩ := read
  refine ⟨rfl, ?_⟩
  simp only [localAnswer, List.forall_mem_cons]
  exact ⟨artifacts _ (deliveryArtifacts_answered keyText lower listText strOf filters),
    network _ (networkObservations_answered keyText lower listText strOf filters),
    runs _ (convergenceRuns_answered keyText lower listText strOf filters ids cites),
    deltas _ (stateDeltas_answered keyText lower listText strOf filters ids cites),
    transitions _ (epochTransitions_answered keyText lower listText strOf filters ids cites),
    changes _ (auditDataModeChanges_answered keyText lower listText strOf filters),
    fun _ member => absurd member List.not_mem_nil⟩

end Answer

/-- Whatever uploads, deletions of files and rebuilds are committed, and whatever a request for the
projections of a group asks for, the pages that it leads to are the rows of the export that are asked
for. -/
theorem projections_walked (keyText : Dict → Str → Option Str) (lower : Str → Str)
    (listText : List Json → Str) (strOf : Json → Str) (int : Str → Option Int) (env : Env)
    (turns : List Turn) (groupId : Nat) (get : Str → Option Str) :
    PagesAnswer keyText lower listText strOf (run (Store.turn env) .empty turns) groupId
      (apiFilterValues lower int get) := by
  have linked : StoreLinked (run (Store.turn env) .empty turns) :=
    run_invariant (fun _ turn linked => linked.turn env turn) storeLinked_empty turns
  exact linked.pagesAnswer keyText lower listText strOf (limit_apiFilterValues lower int get).1

end Goggles
