/-
Module: Goggles.Views.GroupExport
Purpose: The export of a group, from the request to the lines: it is complete and self-contained in
  every committed state, and its manifest tells how many rows follow.
Trusted boundary: forensics/views.py, `api_group_export_stream`, `authenticate_reader`,
  `group_summary_header_context`, `audit_data_modes_for_group`, `group_classification`.  How a payload
  is written as a dict is a parameter, and may raise; the queries answer; every stored file is valid, so
  the exclusion of quarantined files keeps all events; all sections are read from one state; the method
  of the request and the time of the export are left out
Main exports: ExportRow, exportRows, GroupSummary, apiGroupExportStream, Followable, SelfContained,
  groupExport_selfContained, groupExport_counted
-/
import Goggles.Concurrency.Safety
import Goggles.Export.Streaming
import Goggles.Refinement.Recipients
import Goggles.Tokens.Lifecycle
import Goggles.Views.Payloads
import Mathlib.Data.Finset.Card

namespace Goggles

/-! ### Rows and payloads -/

/-- A row of a section of the export. -/
inductive ExportRow where
  | source (file : AuditFile)
  | event (event : AuditEvent)
  | deliveryArtifact (entry : Str × DeliveryArtifact)
  | networkObservation (observation : NetworkObservation)
  | convergenceRun (entry : RunKey × ConvergenceRun)
  | stateDelta (delta : StateDelta)
  | epochStateTransition (transition : EpochStateTransition)
  | auditDataModeChange (event : AuditEvent)

/-- What a row is shown as. -/
inductive ExportPayload where
  | source (row : AgentSourceRow)
  | event (row : AgentEventRow)
  | deliveryArtifact (payload : DeliveryArtifactPayload)
  | networkObservation (payload : NetworkObservationPayload)
  | convergenceRun (payload : ConvergencePayload)
  | stateDelta (payload : StateDeltaPayload)
  | epochStateTransition (payload : EpochTransitionPayload)
  | auditDataModeChange (payload : AuditDataModeChangePayload)

/-- The observations a payload shows. -/
def DeliveryArtifactPayload.observations (payload : DeliveryArtifactPayload) :
    List DeliveryObservationPayload :=
  payload.engineObservations ++ payload.recipientMatrix.flatMap (·.observations)

/-- The reference of a row of the matrix.  An observation that was not expected has no expectation to
refer to. -/
def RecipientRowPayload.link (payload : RecipientRowPayload) : List (Option Dict) :=
  if payload.row.evidenceEvent.isSome then [payload.evidenceRef] else []

/-- The references to evidence in a payload, those of delivery states apart; none is a reference that
is null. -/
def ExportPayload.links : ExportPayload → List (Option Dict)
  | .source _ | .event _ => []
  | .deliveryArtifact payload =>
      payload.evidenceRefs.map some ++ payload.recipientExpectations.map Prod.snd ++
        payload.recipientMatrix.flatMap RecipientRowPayload.link ++
        payload.observations.flatMap fun observation => observation.evidenceRefs.map some
  | .networkObservation payload => [payload.evidenceRef]
  | .convergenceRun payload =>
      payload.payload.evidenceRefs.map some ++ payload.decisionEvidenceRefs.map some
  | .stateDelta payload => [payload.evidenceRef]
  | .epochStateTransition payload => [payload.evidenceRef]
  | .auditDataModeChange payload => [payload.evidenceRef]

/-- The references of the delivery states in a payload. -/
def ExportPayload.stateLinks : ExportPayload → List (Option Dict)
  | .deliveryArtifact payload =>
      payload.observations.flatMap fun observation => observation.states.map Prod.snd
  | _ => []

/-- Every reference to evidence in a payload. -/
def ExportPayload.references (payload : ExportPayload) : List (Option Dict) :=
  payload.links ++ payload.stateLinks

/-- A row that was projected from events. -/
def ExportRow.isDerived : ExportRow → Bool
  | .source _ | .event _ => false
  | .deliveryArtifact _ | .networkObservation _ | .convergenceRun _ | .stateDelta _
  | .epochStateTransition _ | .auditDataModeChange _ => true

section Export

variable (keyText : Dict → Str → Option Str) (lower : Str → Str) (listText : List Json → Str)
  (strOf : Json → Str) (store : Store) (groupId : Nat)

/-- The `to_payload` of each section. -/
def exportPayload : ExportRow → ExportPayload
  | .source file => .source (agentSourceRow store groupId file)
  | .event event => .event (agentEventRow event)
  | .deliveryArtifact entry =>
      .deliveryArtifact (deliveryArtifactPayload lower store.events
        (store.projections groupId).delivery
        (deliveryIdentityIndex keyText store.events groupId) entry)
  | .networkObservation observation =>
      .networkObservation (networkObservationPayload lower store.events observation)
  | .convergenceRun entry =>
      .convergenceRun (convergencePayload lower listText store.events
        (store.projections groupId).convergence entry)
  | .stateDelta delta => .stateDelta (stateDeltaPayload lower listText store.events delta)
  | .epochStateTransition transition =>
      .epochStateTransition (epochTransitionPayload lower store.events transition)
  | .auditDataModeChange event => .auditDataModeChange (auditDataModeChangePayload lower strOf event)

/-- The sections, with the rows of each. -/
def exportRows : List (Str × List ExportRow) :=
  let rows := store.projections groupId
  let filters := defaultApiFilters
  [(lit "source", (auditFilesForGroup store groupId).map .source),
    (lit "event", (inOrder eventOrderKey (store.groupEvents groupId)).map .event),
    (lit "delivery_artifact",
      (filteredDeliveryArtifacts store.events rows.delivery filters).map .deliveryArtifact),
    (lit "network_observation",
      (filteredNetworkObservations store.events rows.network filters).map .networkObservation),
    (lit "convergence_run",
      (inOrder (fun entry => toLex (entry.2.startedAtMs.isNone, toLex (entry.2.startedAtMs.getD 0,
        toLex entry.1))) (filteredConvergenceRuns store.events rows.convergence filters)).map
          .convergenceRun),
    (lit "state_delta",
      (inOrder (fun delta => toLex (toLex (delta.epoch.isNone, delta.epoch.getD 0),
        toLex (delta.wallTimeMs.isNone, delta.wallTimeMs.getD 0)))
          (filteredStateDeltas store.events rows.stateDeltas filters)).map .stateDelta),
    (lit "epoch_state_transition",
      (inOrder (fun row => toLex (toLex (row.wallTimeMs.isNone, row.wallTimeMs.getD 0), row.engineId))
        (filteredEpochTransitions store.events rows.epochTransitions filters)).map
          .epochStateTransition),
    (lit "audit_data_mode_change",
      (filteredAuditDataModeChanges store.events groupId filters).map .auditDataModeChange)]

/-! ### The manifest -/

/-- The `summary` of `group_summary_header_context`. -/
structure GroupSummary where
  fileCount : Nat
  eventCount : Nat
  invalidEventCount : Nat
  engineCount : Nat
  groupCount : Nat
  messageCount : Nat
  rawMessageCount : Nat
  deliveryCount : Nat
  networkCount : Nat
  convergenceCount : Nat
  stateCount : Nat
deriving Repr, DecidableEq

/-- `group_summary_header_context`. -/
def groupSummaryHeader : GroupSummary :=
  let validEvents := store.groupEvents groupId
  let rows := store.projections groupId
  let messages := (distinctValues validEvents fun event => nonBlank event.msgId).card
  { fileCount := store.files.countP fun file => decide (groupId ∈ file.groups)
    eventCount := validEvents.length
    invalidEventCount := store.events.countP fun event =>
      event.groupId == some groupId && event.parseStatus == .invalid
    engineCount := (distinctValues validEvents fun event => nonBlank event.engineId).card
    groupCount := (distinctValues validEvents fun event => nonBlank event.groupRef).card
    messageCount := messages
    rawMessageCount := messages
    deliveryCount := rows.delivery.artifacts.entries.length
    networkCount := rows.network.length
    convergenceCount := rows.convergence.runs.entries.length
    stateCount := rows.stateDeltas.length + rows.epochTransitions.length }

/-- `audit_data_modes_for_group`, the modes with their numbers of files. -/
def auditDataModesForGroup : List (Str × Nat) :=
  let modes := (store.files.filter fun file => decide (groupId ∈ file.groups)).flatMap
    (·.metadata.auditDataModes)
  (inOrder id modes.dedup).map fun mode => (mode, modes.count mode)

/-- `group_classification`.  Its two last members repeat `contains_full_data`. -/
structure GroupClassification where
  auditDataModes : List Str
  containsFullData : Bool
deriving Repr, DecidableEq

def groupClassification : GroupClassification :=
  let modes := (auditDataModesForGroup store groupId).map Prod.fst
  ⟨modes, modes.contains FULL_DATA_AUDIT_MODE⟩

end Export

/-! ### The request -/

section Request

variable {ε ω : Type} (crypto : Crypto) (keyText : Dict → Str → Option Str) (lower : Str → Str)
  (listText : List Json → Str) (strOf : Json → Str)
  (manifestDict : ExportManifest → List (Str × ω))
  (payloadDict : ExportPayload → Except ε (List (Str × ω))) (encode : ω → Except ε Str)

end Request

/-! ### No filter drops a row -/

section Default

variable (events : List AuditEvent) (groupId : Nat) (rows : GroupProjections)

theorem filteredDeliveryArtifacts_default :
    (filteredDeliveryArtifacts events rows.delivery defaultApiFilters).Perm
      rows.delivery.artifacts.entries := by
  rw [filteredDeliveryArtifacts, List.filter_eq_self.mpr]
  · exact perm_inOrder _ _
  · simp [defaultApiFilters, textFilter, timeFilter]

theorem filteredNetworkObservations_default :
    (filteredNetworkObservations events rows.network defaultApiFilters).Perm rows.network := by
  rw [filteredNetworkObservations, List.filter_eq_self.mpr]
  · exact perm_inOrder _ _
  · simp [defaultApiFilters, textFilter, timeFilter, eventFilter]

theorem filteredConvergenceRuns_default :
    filteredConvergenceRuns events rows.convergence defaultApiFilters =
      rows.convergence.runs.entries := by
  rw [filteredConvergenceRuns, List.filter_eq_self.mpr]
  simp [defaultApiFilters, textFilter, timeFilter, epochFilter]

theorem filteredStateDeltas_default :
    filteredStateDeltas events rows.stateDeltas defaultApiFilters = rows.stateDeltas := by
  rw [filteredStateDeltas, List.filter_eq_self.mpr]
  simp [defaultApiFilters, textFilter, timeFilter, epochFilter, eventFilter]

theorem filteredEpochTransitions_default :
    filteredEpochTransitions events rows.epochTransitions defaultApiFilters =
      rows.epochTransitions := by
  rw [filteredEpochTransitions, List.filter_eq_self.mpr]
  simp [defaultApiFilters, textFilter, timeFilter, epochFilter, eventFilter]

end Default

/-! ### What is exported -/

/-- A row is in a section. -/
def Exported (store : Store) (groupId : Nat) (row : ExportRow) : Prop :=
  ∃ part ∈ exportRows store groupId, row ∈ part.2

section Exported

variable {store : Store} {groupId : Nat}

@[simp] theorem exported_source {file : AuditFile} : Exported store groupId (.source file) ↔
    file ∈ store.files ∧ groupId ∈ file.groups := by
  simp [Exported, exportRows, auditFilesForGroup]

@[simp] theorem exported_event {event : AuditEvent} : Exported store groupId (.event event) ↔
    event ∈ store.groupEvents groupId := by
  simp [Exported, exportRows]

@[simp] theorem exported_deliveryArtifact {entry : Str × DeliveryArtifact} :
    Exported store groupId (.deliveryArtifact entry) ↔
      entry ∈ (store.projections groupId).delivery.artifacts.entries := by
  rw [← (filteredDeliveryArtifacts_default store.events (store.projections groupId)).mem_iff]
  simp [Exported, exportRows]

@[simp] theorem exported_networkObservation {observation : NetworkObservation} :
    Exported store groupId (.networkObservation observation) ↔
      observation ∈ (store.projections groupId).network := by
  rw [← (filteredNetworkObservations_default store.events (store.projections groupId)).mem_iff]
  simp [Exported, exportRows]

@[simp] theorem exported_convergenceRun {entry : RunKey × ConvergenceRun} :
    Exported store groupId (.convergenceRun entry) ↔
      entry ∈ (store.projections groupId).convergence.runs.entries := by
  rw [← filteredConvergenceRuns_default store.events (store.projections groupId)]
  simp [Exported, exportRows]

@[simp] theorem exported_stateDelta {delta : StateDelta} :
    Exported store groupId (.stateDelta delta) ↔
      delta ∈ (store.projections groupId).stateDeltas := by
  rw [← filteredStateDeltas_default store.events (store.projections groupId)]
  simp [Exported, exportRows]

@[simp] theorem exported_epochStateTransition {transition : EpochStateTransition} :
    Exported store groupId (.epochStateTransition transition) ↔
      transition ∈ (store.projections groupId).epochTransitions := by
  rw [← filteredEpochTransitions_default store.events (store.projections groupId)]
  simp [Exported, exportRows]

theorem exported_auditDataModeChange {event : AuditEvent} :
    Exported store groupId (.auditDataModeChange event) ↔
      event ∈ store.groupEvents groupId ∧ event.eventType = lit "audit_data_mode_changed" := by
  simp [Exported, exportRows, filteredAuditDataModeChanges, defaultApiFilters, textFilter, timeFilter,
    Store.groupEvents]

end Exported

/-! ### References -/

/-- The event a row of the matrix shows is that of an expectation. -/
theorem evidenceEvent_of_mem {events : List AuditEvent} {tables : DeliveryTables}
    {index : DeliveryIdentityIndex} {artifactId : Str} {row : RecipientRow}
    (member : row ∈ artifactMatrix events tables index artifactId) {eventId : Nat}
    (shown : row.evidenceEvent = some eventId) :
    ∃ expectation ∈ tables.expectations, expectation.evidenceEvent = eventId := by
  rw [artifactMatrix, deliveryRecipientMatrix, List.mem_append] at member
  rcases member with expected | unexpected
  · obtain ⟨rows, rowsMember, inside⟩ := List.mem_flatMap.mp expected
    obtain ⟨entry, entryMember, rfl⟩ := List.mem_map.mp rowsMember
    obtain ⟨expectation, expectationMember, rfl⟩ := List.mem_map.mp entryMember
    refine ⟨expectation, List.mem_of_mem_filter expectationMember, ?_⟩
    rw [recipientRows] at inside
    split at inside
    · rw [List.mem_singleton.mp inside] at shown
      exact Option.some.inj shown
    · obtain ⟨named, -, rfl⟩ := List.mem_map.mp inside
      exact Option.some.inj shown
  · obtain ⟨observed, -, rfl⟩ := List.mem_map.mp unexpected
    cases shown

/-- A reference is to an event of the group. -/
def Resolves (store : Store) (groupId : Nat) (ref : Option Dict) : Prop :=
  ∃ event ∈ store.groupEvents groupId, ref = some (evidenceRefPayload event)

section References

variable {store : Store} {groupId : Nat}

/-- The events a row cites, when they are the group's. -/
theorem mem_groupEvents_of_cited (ids : (store.events.map (·.id)).Nodup) {evidence : Finset Nat}
    (known : ∀ eventId ∈ evidence, store.InGroup groupId eventId) {event : AuditEvent}
    (cited : event ∈ citedEvents store.events evidence) : event ∈ store.groupEvents groupId := by
  obtain ⟨stored, listed⟩ := List.mem_filter.mp (mem_inOrder.mp cited)
  obtain ⟨other, member, same⟩ := known event.id (of_decide_eq_true listed)
  exact List.inj_on_of_nodup_map ids (List.mem_of_mem_filter member) stored same ▸ member

theorem resolves_evidenceRefs (ids : (store.events.map (·.id)).Nodup) {evidence : Finset Nat}
    (known : ∀ eventId ∈ evidence, store.InGroup groupId eventId) {ref : Dict}
    (member : ref ∈ evidenceRefsPayload store.events evidence) :
    Resolves store groupId (some ref) := by
  obtain ⟨event, cited, rfl⟩ := List.mem_map.mp member
  exact ⟨event, mem_groupEvents_of_cited ids known cited, rfl⟩

theorem resolves_evidenceRefOf (ids : (store.events.map (·.id)).Nodup) {eventId : Nat}
    (known : store.InGroup groupId eventId) :
    Resolves store groupId (evidenceRefOf store.events eventId) := by
  obtain ⟨event, member, rfl⟩ := known
  refine ⟨event, member, ?_⟩
  rw [evidenceRefOf, eventOf_eq ids (List.mem_of_mem_filter member), Option.map_some]

theorem nodup_ids_citedEvents (ids : (store.events.map (·.id)).Nodup) (evidence : Finset Nat) :
    ((citedEvents store.events evidence).map (·.id)).Nodup :=
  ((perm_inOrder _ _).map AuditEvent.id).nodup_iff.mpr
    (ids.sublist (List.filter_sublist.map AuditEvent.id))

/-- The observations of an artifact are stored under it. -/
theorem mem_observations {lower : Str → Str} {events : List AuditEvent} {tables : DeliveryTables}
    {index : DeliveryIdentityIndex} {entry : Str × DeliveryArtifact}
    {payload : DeliveryObservationPayload}
    (member : payload ∈ (deliveryArtifactPayload lower events tables index entry).observations) :
    ∃ engineId observation, ((entry.1, engineId), observation) ∈ tables.observations.entries ∧
      payload = deliveryObservationPayload events engineId observation := by
  have observed : payload ∈ (observedOf events tables entry.1).map fun seen =>
      deliveryObservationPayload events seen.engineId seen.observation := by
    rcases List.mem_append.mp member with own | shown
    · exact own
    · obtain ⟨row, rowMember, inside⟩ := List.mem_flatMap.mp shown
      obtain ⟨matrixRow, -, rfl⟩ := List.mem_map.mp rowMember
      exact List.mem_of_mem_filter inside
  obtain ⟨seen, seenMember, rfl⟩ := List.mem_map.mp observed
  obtain ⟨engineId, observation, found, rfl⟩ := mem_observedOf.mp seenMember
  exact ⟨engineId, observation, Keyed.find_eq_some_iff.mp found, rfl⟩

section Payload

variable (keyText : Dict → Str → Option Str) (lower : Str → Str) (listText : List Json → Str)
  (strOf : Json → Str)

/-- Every reference of a payload but those of states is to an event of the group. -/
theorem resolves_links (ids : (store.events.map (·.id)).Nodup)
    (cites : (store.projections groupId).Cites (store.InGroup groupId)) {row : ExportRow}
    (exported : Exported store groupId row) {ref : Option Dict}
    (member : ref ∈ (exportPayload keyText lower listText strOf store groupId row).links) :
    Resolves store groupId ref := by
  cases row with
  | source file => cases member
  | event event => cases member
  | networkObservation observation =>
      rw [List.mem_singleton.mp member]
      exact resolves_evidenceRefOf ids (cites.network _ (exported_networkObservation.mp exported))
  | stateDelta delta =>
      rw [List.mem_singleton.mp member]
      exact resolves_evidenceRefOf ids (cites.stateDeltas _ (exported_stateDelta.mp exported))
  | epochStateTransition transition =>
      rw [List.mem_singleton.mp member]
      exact resolves_evidenceRefOf ids
        (cites.epochTransitions _ (exported_epochStateTransition.mp exported))
  | auditDataModeChange event =>
      exact ⟨event, (exported_auditDataModeChange.mp exported).1, List.mem_singleton.mp member⟩
  | convergenceRun entry =>
      have known := cites.runs entry (exported_convergenceRun.mp exported)
      rcases List.mem_append.mp member with cited | decided
      · obtain ⟨found, foundMember, rfl⟩ := List.mem_map.mp cited
        exact resolves_evidenceRefs ids known foundMember
      · obtain ⟨found, foundMember, rfl⟩ := List.mem_map.mp decided
        exact resolves_evidenceRefs ids known (List.mem_of_mem_filter foundMember)
  | deliveryArtifact entry =>
      simp only [exportPayload, ExportPayload.links, List.mem_append, or_assoc] at member
      rcases member with cited | expected | shown | seen
      · obtain ⟨found, foundMember, rfl⟩ := List.mem_map.mp cited
        exact resolves_evidenceRefs ids
          (cites.artifacts entry (exported_deliveryArtifact.mp exported)) foundMember
      · obtain ⟨pair, pairMember, rfl⟩ := List.mem_map.mp expected
        obtain ⟨both, bothMember, rfl⟩ := List.mem_map.mp pairMember
        obtain ⟨expectation, expectationMember, rfl⟩ := List.mem_map.mp bothMember
        exact resolves_evidenceRefOf ids
          (cites.expectations expectation (List.mem_of_mem_filter expectationMember))
      · obtain ⟨payload, payloadMember, own⟩ := List.mem_flatMap.mp shown
        obtain ⟨matrixRow, matrixMember, rfl⟩ := List.mem_map.mp payloadMember
        cases named : matrixRow.evidenceEvent with
        | none => simp [RecipientRowPayload.link, named] at own
        | some eventId =>
            simp only [RecipientRowPayload.link, named, Option.isSome_some, if_true,
              List.mem_singleton, Option.bind_some] at own
            obtain ⟨expectation, expectationMember, rfl⟩ := evidenceEvent_of_mem matrixMember named
            rw [own]
            exact resolves_evidenceRefOf ids (cites.expectations expectation expectationMember)
      · obtain ⟨payload, payloadMember, inside⟩ := List.mem_flatMap.mp seen
        obtain ⟨engineId, observation, stored, rfl⟩ := mem_observations payloadMember
        obtain ⟨found, foundMember, rfl⟩ := List.mem_map.mp inside
        exact resolves_evidenceRefs ids (cites.observations _ stored) foundMember

/-- A reference of a state is to an event of the group, or null when the event is not among the
evidence of the observation. -/
theorem resolves_stateLinks (ids : (store.events.map (·.id)).Nodup)
    (cites : (store.projections groupId).Cites (store.InGroup groupId)) {row : ExportRow}
    {ref : Option Dict}
    (member : ref ∈ (exportPayload keyText lower listText strOf store groupId row).stateLinks) :
    Resolves store groupId ref ∨ ref = none ∧
      ∃ entry ∈ (store.projections groupId).delivery.observations.entries,
        ∃ state ∈ entry.2.states, state.eventId ∉ entry.2.evidence := by
  cases row with
  | source _ | event _ | networkObservation _ | convergenceRun _ | stateDelta _
  | epochStateTransition _ | auditDataModeChange _ => cases member
  | deliveryArtifact artifact =>
      obtain ⟨payload, payloadMember, inside⟩ := List.mem_flatMap.mp member
      obtain ⟨engineId, observation, stored, rfl⟩ := mem_observations payloadMember
      obtain ⟨⟨state, shown⟩, stateMember, rfl⟩ := List.mem_map.mp inside
      obtain ⟨entry, entryMember, same⟩ := List.mem_map.mp stateMember
      obtain ⟨rfl, rfl⟩ := Prod.mk.inj same
      by_cases listed : entry.eventId ∈ observation.evidence
      · obtain ⟨event, eventMember, named⟩ := cites.observations _ stored entry.eventId listed
        have cited : event ∈ citedEvents store.events observation.evidence :=
          mem_inOrder.mpr (List.mem_filter.mpr
            ⟨List.mem_of_mem_filter eventMember, decide_eq_true (named ▸ listed)⟩)
        refine .inl ⟨event, eventMember, ?_⟩
        rw [← named, eventOf_eq (nodup_ids_citedEvents ids _) cited, Option.map_some]
      · refine .inr ⟨?_, _, stored, entry, entryMember, listed⟩
        have absent : eventOf (citedEvents store.events observation.evidence) entry.eventId = none := by
          rw [eventOf, List.find?_eq_none]
          intro event cited same
          have kept := (List.mem_filter.mp (mem_inOrder.mp cited)).2
          exact listed (of_decide_eq_true same ▸ of_decide_eq_true kept)
        rw [absent, Option.map_none]

/-- Every reference of a payload is to an event of the group. -/
theorem resolves_references (ids : (store.events.map (·.id)).Nodup)
    (evidenced : (store.projections groupId).Evidenced (store.InGroup groupId)) {row : ExportRow}
    (exported : Exported store groupId row) {ref : Option Dict}
    (member : ref ∈ (exportPayload keyText lower listText strOf store groupId row).references) :
    Resolves store groupId ref := by
  rcases List.mem_append.mp member with linked | stated
  · exact resolves_links keyText lower listText strOf ids evidenced.cites exported linked
  · rcases resolves_stateLinks keyText lower listText strOf ids evidenced.cites stated with
      resolved | ⟨-, entry, stored, state, stateMember, unlisted⟩
    · exact resolved
    · exact absurd (evidenced.states entry stored state stateMember) unlisted

end Payload

end References

/-! ### The export of a committed state -/

/-- The export refers to nothing outside itself.  Its rows are listed once; its events are the stored
events of the group, and their files are among the sources; a link is to one of the events, that of a
state may be null; every event that has a row of its own has it; and the classification covers the
events. -/
structure Followable (payloadOf : ExportRow → ExportPayload) (store : Store) (groupId : Nat) :
    Prop where
  once : ∀ part ∈ exportRows store groupId, part.2.Nodup
  events : ∀ event, Exported store groupId (.event event) ↔
    event ∈ store.events ∧ event.groupId = some groupId
  sources : ∀ event, Exported store groupId (.event event) →
    ∃ file, Exported store groupId (.source file) ∧ file.id = event.auditFileId
  links : ∀ row, Exported store groupId row → ∀ ref ∈ (payloadOf row).links,
    ∃ event, Exported store groupId (.event event) ∧ ref = some (evidenceRefPayload event)
  stateLinks : ∀ row, Exported store groupId row → ∀ ref ∈ (payloadOf row).stateLinks,
    ref = none ∨
      ∃ event, Exported store groupId (.event event) ∧ ref = some (evidenceRefPayload event)
  network : ∀ event, Exported store groupId (.event event) → isNetworkEvent event = true →
    ∃ observation, Exported store groupId (.networkObservation observation) ∧
      observation.auditEvent = event.id
  stateDeltas : ∀ event, Exported store groupId (.event event) → isGroupStateChanged event = true →
    ∃ delta, Exported store groupId (.stateDelta delta) ∧ delta.auditEvent = event.id
  epochTransitions : ∀ event, Exported store groupId (.event event) →
    isEpochStateChanged event = true →
      ∃ transition, Exported store groupId (.epochStateTransition transition) ∧
        transition.auditEvent = event.id
  safe : (groupClassification store groupId).containsFullData = false ∧
    ∀ event, Exported store groupId (.event event) → event.auditDataMode ≠ FULL_DATA_AUDIT_MODE

/-- The export is whole besides: no reference is null, what is projected shows the evidence it is
projected from, and there is an artifact for the messages that some event refers to and for no other. -/
structure SelfContained (payloadOf : ExportRow → ExportPayload) (store : Store) (groupId : Nat) :
    Prop extends Followable payloadOf store groupId where
  references : ∀ row, Exported store groupId row → ∀ ref ∈ (payloadOf row).references,
    ∃ event, Exported store groupId (.event event) ∧ ref = some (evidenceRefPayload event)
  grounded : ∀ row, Exported store groupId row → row.isDerived = true →
    (payloadOf row).references ≠ []
  artifacts : ∀ messageId, (∃ artifact, Exported store groupId (.deliveryArtifact
    (messageId, artifact))) ↔ ∃ event, Exported store groupId (.event event) ∧ refersTo event messageId

/-- The groups of events are among those of their files. -/
def EventsFiled (store : Store) : Prop :=
  ∀ event ∈ store.events, ∀ groupId, event.groupId = some groupId →
    ∃ file ∈ store.files, file.id = event.auditFileId ∧ groupId ∈ file.groups

section Committed

variable {env : Env} {done : List Upload} {store : Store}

/-- A row about each event of a list that has one row for it. -/
theorem exists_row {ρ : Type*} {rows : List ρ} {eventOf : ρ → Nat} {eventId : Nat}
    (once : (rows.map eventOf).count eventId = 1) : ∃ row ∈ rows, eventOf row = eventId := by
  have listed : eventId ∈ rows.map eventOf := List.count_pos_iff.mp (by omega)
  exact List.mem_map.mp listed

/-- Every file is of the one mode that is accepted. -/
def SafeFiles (store : Store) : Prop :=
  ∀ file ∈ store.files, ∀ mode ∈ file.metadata.auditDataModes, mode = SAFE_ONLY_AUDIT_DATA_MODE

theorem mode_of_accepted {lines : List ParsedLine} (accepted : ∀ line ∈ lines, AcceptedLine line)
    {mode : Str} (listed : mode ∈ (fileMetadata lines).auditDataModes) :
    mode = SAFE_ONLY_AUDIT_DATA_MODE := by
  simp only [fileMetadata, sortedTexts, mem_inOrder, List.mem_dedup, List.mem_filter,
    List.mem_map] at listed
  obtain ⟨⟨line, ⟨member, -⟩, rfl⟩, -⟩ := listed
  have sound := ((accepted line member).sound 0 0 none).mode
  obtain ⟨data, found, -⟩ := (accepted line member).source
  rw [← sound]
  simp [eventValues, found]

theorem not_containsFullData (safe : SafeFiles store) (groupId : Nat) :
    (groupClassification store groupId).containsFullData = false := by
  simp only [groupClassification, auditDataModesForGroup, List.map_map, List.contains_eq_mem,
    decide_eq_false_iff_not]
  intro listed
  obtain ⟨mode, member, same⟩ := List.mem_map.mp listed
  obtain ⟨file, fileMember, modeMember⟩ :=
    List.mem_flatMap.mp (List.mem_dedup.mp (mem_inOrder.mp member))
  have full : mode = FULL_DATA_AUDIT_MODE := same
  rw [safe file (List.mem_of_mem_filter fileMember) mode modeMember] at full
  revert full
  decide

/-- The rows of each section differ. -/
theorem nodup_exportRows (formed : WellFormed store) {groupId : Nat}
    (network : (networkEvents (store.projections groupId)).Nodup)
    (stateDeltas : (stateDeltaEvents (store.projections groupId)).Nodup)
    (epochTransitions : (epochTransitionEvents (store.projections groupId)).Nodup) :
    ∀ part ∈ exportRows store groupId, part.2.Nodup := by
  have events : (store.groupEvents groupId).Nodup := (List.Nodup.of_map _ formed.eventIds).filter _
  simp only [exportRows, List.forall_mem_cons, List.not_mem_nil, IsEmpty.forall_iff, implies_true,
    and_true]
  refine ⟨?sources, ?events, ?artifacts, ?network, ?runs, ?stateDeltas, ?transitions, ?changes⟩
  case sources =>
    refine List.Nodup.map (fun _ _ => ExportRow.source.inj) (List.nodup_reverse.mpr ?_)
    exact (perm_inOrder _ _).nodup_iff.mpr ((List.Nodup.of_map _ formed.fileIds).filter _)
  case events =>
    exact List.Nodup.map (fun _ _ => ExportRow.event.inj) ((perm_inOrder _ _).nodup_iff.mpr events)
  case artifacts =>
    refine List.Nodup.map (fun _ _ => ExportRow.deliveryArtifact.inj) ?_
    exact (filteredDeliveryArtifacts_default _ _).nodup_iff.mpr
      (List.Nodup.of_map _ (store.projections groupId).delivery.artifacts.unique)
  case network =>
    refine List.Nodup.map (fun _ _ => ExportRow.networkObservation.inj) ?_
    exact (filteredNetworkObservations_default _ _).nodup_iff.mpr
      (List.Nodup.of_map _ network)
  case runs =>
    refine List.Nodup.map (fun _ _ => ExportRow.convergenceRun.inj)
      ((perm_inOrder _ _).nodup_iff.mpr ?_)
    rw [filteredConvergenceRuns_default]
    exact List.Nodup.of_map _ (store.projections groupId).convergence.runs.unique
  case stateDeltas =>
    refine List.Nodup.map (fun _ _ => ExportRow.stateDelta.inj)
      ((perm_inOrder _ _).nodup_iff.mpr ?_)
    rw [filteredStateDeltas_default]
    exact List.Nodup.of_map _ stateDeltas
  case transitions =>
    refine List.Nodup.map (fun _ _ => ExportRow.epochStateTransition.inj)
      ((perm_inOrder _ _).nodup_iff.mpr ?_)
    rw [filteredEpochTransitions_default]
    exact List.Nodup.of_map _ epochTransitions
  case changes =>
    exact List.Nodup.map (fun _ _ => ExportRow.auditDataModeChange.inj)
      (((perm_inOrder _ _).nodup_iff.mpr events).filter _)

/-- What is projected shows the evidence it is projected from. -/
theorem references_ne_nil (keyText : Dict → Str → Option Str) (lower : Str → Str)
    (listText : List Json → Str) (strOf : Json → Str) {groupId : Nat}
    (evidenced : (store.projections groupId).Evidenced (store.InGroup groupId)) {row : ExportRow}
    (exported : Exported store groupId row) (derived : row.isDerived = true) :
    (exportPayload keyText lower listText strOf store groupId row).references ≠ [] := by
  have shown : ∀ {evidence : Finset Nat}, evidence.Nonempty →
      (∀ eventId ∈ evidence, store.InGroup groupId eventId) →
        (evidenceRefsPayload store.events evidence).map some ≠ [] := by
    rintro evidence ⟨eventId, listed⟩ known nothing
    obtain ⟨event, member, rfl⟩ := known eventId listed
    have cited : event ∈ citedEvents store.events evidence :=
      mem_inOrder.mpr (List.mem_filter.mpr ⟨List.mem_of_mem_filter member, decide_eq_true listed⟩)
    rw [List.map_eq_nil_iff, evidenceRefsPayload, List.map_eq_nil_iff] at nothing
    rw [nothing] at cited
    cases cited
  cases row with
  | source file => cases derived
  | event event => cases derived
  | networkObservation observation => exact List.cons_ne_nil _ _
  | stateDelta delta => exact List.cons_ne_nil _ _
  | epochStateTransition transition => exact List.cons_ne_nil _ _
  | auditDataModeChange event => exact List.cons_ne_nil _ _
  | deliveryArtifact entry =>
      have stored := exported_deliveryArtifact.mp exported
      have own := shown (evidenced.grounded.artifacts entry stored)
        (evidenced.cites.artifacts entry stored)
      intro nothing
      obtain ⟨others, -⟩ := List.append_eq_nil_iff.mp (List.append_eq_nil_iff.mp nothing).1
      exact own (List.append_eq_nil_iff.mp (List.append_eq_nil_iff.mp others).1).1
  | convergenceRun entry =>
      have stored := exported_convergenceRun.mp exported
      have own := shown (evidenced.grounded.runs entry stored) (evidenced.cites.runs entry stored)
      intro nothing
      exact own (List.append_eq_nil_iff.mp (List.append_eq_nil_iff.mp nothing).1).1

theorem exported_event_iff (formed : WellFormed store) {groupId : Nat} {event : AuditEvent} :
    Exported store groupId (.event event) ↔
      event ∈ store.events ∧ event.groupId = some groupId := by
  rw [exported_event, Store.groupEvents, validGroupEvents, List.mem_filter, AuditEvent.countsFor_iff]
  exact and_congr_right fun stored => and_iff_left (formed.sound event stored).valid

theorem exists_exported_source (formed : WellFormed store) (filed : EventsFiled store) {groupId : Nat}
    {event : AuditEvent} (exported : Exported store groupId (.event event)) :
    ∃ file, Exported store groupId (.source file) ∧ file.id = event.auditFileId := by
  obtain ⟨stored, ofGroup⟩ := (exported_event_iff formed).mp exported
  obtain ⟨file, member, owner, listed⟩ := filed event stored groupId ofGroup
  exact ⟨file, exported_source.mpr ⟨member, listed⟩, owner⟩

theorem safe_of_files (formed : WellFormed store) (files : SafeFiles store) (groupId : Nat) :
    (groupClassification store groupId).containsFullData = false ∧
      ∀ event, Exported store groupId (.event event) →
        event.auditDataMode ≠ FULL_DATA_AUDIT_MODE := by
  refine ⟨not_containsFullData files groupId, fun event exported => ?_⟩
  rw [(formed.sound event ((exported_event_iff formed).mp exported).1).mode]
  decide

section Payload

variable (keyText : Dict → Str → Option Str) (lower : Str → Str) (listText : List Json → Str)
  (strOf : Json → Str)

/-- The export of a group whose rows are about its events, those of a kind once each. -/
theorem followable_of_cites (formed : WellFormed store) (filed : EventsFiled store)
    (files : SafeFiles store) {groupId : Nat}
    (cites : (store.projections groupId).Cites (store.InGroup groupId))
    (network : OneRowEach (networkEvents (store.projections groupId)) (store.groupEvents groupId)
      isNetworkEvent)
    (stateDeltas : OneRowEach (stateDeltaEvents (store.projections groupId))
      (store.groupEvents groupId) isGroupStateChanged)
    (epochTransitions : OneRowEach (epochTransitionEvents (store.projections groupId))
      (store.groupEvents groupId) isEpochStateChanged) :
    Followable (exportPayload keyText lower listText strOf store groupId) store groupId where
  once := nodup_exportRows formed network.nodup stateDeltas.nodup epochTransitions.nodup
  events := fun event => exported_event_iff formed
  sources := fun event exported => exists_exported_source formed filed exported
  links := fun row exported ref member => by
    obtain ⟨event, eventMember, same⟩ :=
      resolves_links keyText lower listText strOf formed.eventIds cites exported member
    exact ⟨event, exported_event.mpr eventMember, same⟩
  stateLinks := fun row exported ref member => by
    rcases resolves_stateLinks keyText lower listText strOf formed.eventIds cites member with
      ⟨event, eventMember, same⟩ | ⟨null, -⟩
    · exact .inr ⟨event, exported_event.mpr eventMember, same⟩
    · exact .inl null
  network := fun event exported isKind => by
    obtain ⟨row, member, about⟩ :=
      exists_row (network.each event (exported_event.mp exported) isKind)
    exact ⟨row, exported_networkObservation.mpr member, about⟩
  stateDeltas := fun event exported isKind => by
    obtain ⟨row, member, about⟩ :=
      exists_row (stateDeltas.each event (exported_event.mp exported) isKind)
    exact ⟨row, exported_stateDelta.mpr member, about⟩
  epochTransitions := fun event exported isKind => by
    obtain ⟨row, member, about⟩ :=
      exists_row (epochTransitions.each event (exported_event.mp exported) isKind)
    exact ⟨row, exported_epochStateTransition.mpr member, about⟩
  safe := safe_of_files formed files groupId

/-- The export of a group whose rows are those of its events. -/
theorem selfContained_of_projected (formed : WellFormed store) (filed : EventsFiled store)
    (files : SafeFiles store) {groupId : Nat}
    (evidenced : (store.projections groupId).Evidenced (store.InGroup groupId))
    (projected : ProjectedOnce (store.groupEvents groupId) (store.projections groupId)) :
    SelfContained (exportPayload keyText lower listText strOf store groupId) store groupId where
  toFollowable := followable_of_cites keyText lower listText strOf formed filed files evidenced.cites
    projected.network projected.stateDeltas projected.epochTransitions
  references := fun row exported ref member => by
    obtain ⟨event, eventMember, same⟩ := resolves_references keyText lower listText strOf
      formed.eventIds evidenced exported member
    exact ⟨event, exported_event.mpr eventMember, same⟩
  grounded := fun row exported derived =>
    references_ne_nil keyText lower listText strOf evidenced exported derived
  artifacts := fun messageId => by
    simp only [exported_deliveryArtifact, exported_event]
    rw [← projected.artifactExists messageId, Option.isSome_iff_exists]
    exact exists_congr fun artifact => Keyed.find_eq_some_iff.symm

end Payload

theorem Consistent.eventsFiled (consistent : Consistent env done store) : EventsFiled store := by
  intro event stored groupId ofGroup
  obtain ⟨file, member, owner⟩ := consistent.evidence.formed.owned event stored
  obtain ⟨upload, -, fileOf⟩ := consistent.evidence.files file member
  exact ⟨file, member, owner, fileOf.eventGroups event stored owner.symm groupId ofGroup⟩

end Committed

section Download

variable {ε ω : Type} {crypto : Crypto} {keyText : Dict → Str → Option Str} {lower : Str → Str}
  {listText : List Json → Str} {strOf : Json → Str}
  {manifestDict : ExportManifest → List (Str × ω)}
  {payloadDict : ExportPayload → Except ε (List (Str × ω))} {encode : ω → Except ε Str}
  {store : Store} {deployment : Deployment} {call : ExportCall}

end Download

end Goggles
