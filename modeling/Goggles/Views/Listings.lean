/-
Module: Goggles.Views.Listings
Purpose: The listings of a group that can be filtered by message id, and which rows about the events
  that carry the id they drop.
Trusted boundary: forensics/views.py, `filtered_convergence_runs` to `filtered_evidence_events`,
  `evidence_ref_payload`, `convergence_run_payload`.  The order of the rows and their pages are left
  out, as is what only the pages show of a payload
Main exports: filteredEvidenceEvents, filteredStateDeltas, filteredEpochTransitions,
  convergencePayloadMatchesFilters, ListingsKeep, listingsKeep_iff
-/
import Goggles.Views.Actions
import Goggles.Analysis.TraceAccounting
import Goggles.Refinement.Convergence
import Goggles.Store.Deduplication

namespace Goggles

/-! ### The listings -/

/-- A filter on a column of the event that a row refers to. -/
def eventFilter (event : Option AuditEvent) (wanted : Str) (column : AuditEvent → Str) : Bool :=
  wanted = [] || event.any fun event => column event = wanted

/-- `filtered_evidence_events`. -/
def filteredEvidenceEvents (events : List AuditEvent) (groupId : Nat) (filters : ApiFilters) :
    List AuditEvent :=
  events.filter fun event =>
    event.groupId = some groupId &&
    textFilter filters.engineId event.engineId && textFilter filters.accountRef event.accountRef &&
    textFilter filters.auditDataMode event.auditDataMode &&
    (filters.messageId = [] || event.msgId = filters.messageId ||
      event.outboundMsgId = filters.messageId) &&
    textFilter filters.eventType event.eventType &&
    epochFilter filters.epoch
      [event.number "epoch", event.number "source_epoch", event.number "to_epoch",
        event.number "pending_epoch", event.number "current_tip_epoch",
        event.number "selected_tip_epoch"] &&
    timeFilter filters.fromMs filters.toMs event.wallTimeMs

/-- The id is in one of the three columns that hold one id each. -/
def inIdColumns (messageId : Str) (event : AuditEvent) : Bool :=
  event.msgId = messageId || event.outboundMsgId = messageId || event.invalidatedMsgId = messageId

/-- `filtered_state_deltas`, over the rows of the group. -/
def filteredStateDeltas (events : List AuditEvent) (deltas : List StateDelta) (filters : ApiFilters) :
    List StateDelta :=
  deltas.filter fun delta =>
    let event := eventOf events delta.auditEvent
    eventFilter event filters.engineId (·.engineId) &&
    eventFilter event filters.accountRef (·.accountRef) &&
    textFilter filters.auditDataMode delta.auditDataMode &&
    (filters.messageId = [] || delta.originCommitId = filters.messageId ||
      event.any (inIdColumns filters.messageId)) &&
    epochFilter filters.epoch [delta.epoch] && textFilter filters.eventType delta.changeKind &&
    timeFilter filters.fromMs filters.toMs delta.wallTimeMs

/-- `filtered_epoch_transitions`, over the rows of the group. -/
def filteredEpochTransitions (events : List AuditEvent) (transitions : List EpochStateTransition)
    (filters : ApiFilters) : List EpochStateTransition :=
  transitions.filter fun transition =>
    let event := eventOf events transition.auditEvent
    textFilter filters.engineId transition.engineId &&
    textFilter filters.accountRef transition.accountRef &&
    eventFilter event filters.auditDataMode (·.auditDataMode) &&
    (filters.messageId = [] || event.any (inIdColumns filters.messageId)) &&
    epochFilter filters.epoch [transition.epoch] &&
    textFilter filters.eventType transition.newState &&
    timeFilter filters.fromMs filters.toMs transition.wallTimeMs

/-- `run.candidates`, each with its branch. -/
def candidatesOf (tables : ConvergenceTables) (run : RunKey) : List (Str × ConvergenceCandidate) :=
  (tables.candidates.entries.filter (·.1.1 = run)).map fun entry => (entry.1.2, entry.2)

/-- `filtered_convergence_runs`, over the rows of the group.  The rows of a run's evidence are joined
once for each filter. -/
def filteredConvergenceRuns (events : List AuditEvent) (tables : ConvergenceTables)
    (filters : ApiFilters) : List (RunKey × ConvergenceRun) :=
  tables.runs.entries.filter fun entry =>
    let run := entry.2
    let evidence := citedEvents events run.evidence
    textFilter filters.engineId entry.1.1 && textFilter filters.accountRef run.accountRef &&
    (filters.auditDataMode = [] || evidence.any (·.auditDataMode = filters.auditDataMode)) &&
    epochFilter filters.epoch
      ([run.currentTipEpoch, run.selectedForkEpoch, run.selectedTipEpoch] ++
        (candidatesOf tables entry.1).flatMap (fun candidate =>
          [candidate.2.forkEpoch, candidate.2.tipEpoch]) ++
        evidence.flatMap (fun event =>
          [event.number "epoch", event.number "current_tip_epoch",
            event.number "selected_fork_epoch", event.number "selected_tip_epoch"])) &&
    (filters.eventType = [] || evidence.any (·.eventType = filters.eventType)) &&
    timeFilter filters.fromMs none run.endedAtMs && timeFilter none filters.toMs run.startedAtMs

/-- A nullable number of a payload. -/
def numberOrNull : Option Nat → Json
  | none => .null
  | some value => .int value

/-- `evidence_ref_payload`. -/
def evidenceRefPayload (event : AuditEvent) : Dict :=
  [(lit "event_id", .int event.id), (lit "audit_file_id", .int event.auditFileId),
    (lit "line_number", .int event.lineNumber), (lit "line_hash", .str event.lineHash),
    (lit "schema_version", .str event.schemaVersion),
    (lit "audit_data_mode", .str event.auditDataMode), (lit "event_type", .str event.eventType),
    (lit "wall_time_ms", numberOrNull event.wallTimeMs),
    (lit "api_path", .str (lit "/api/v1/events/" ++ natText event.id ++ lit "/evidence/"))]

/-- `convergence_run_payload`. -/
structure ConvergenceRunPayload where
  key : RunKey
  run : ConvergenceRun
  evidenceRefs : List Dict
  candidates : List (Str × ConvergenceCandidate)
  ruleEvaluations : List ConvergenceRuleEvaluation

def convergenceRunPayload (events : List AuditEvent) (tables : ConvergenceTables)
    (entry : RunKey × ConvergenceRun) : ConvergenceRunPayload where
  key := entry.1
  run := entry.2
  evidenceRefs := (citedEvents events entry.2.evidence).map evidenceRefPayload
  candidates := candidatesOf tables entry.1
  ruleEvaluations := tables.evaluations.filter (·.run = entry.1)

/-- The run names the id as a losing or selected branch, or as a branch or commit of a candidate. -/
def ConvergenceRunPayload.names (payload : ConvergenceRunPayload) (messageId : Str) : Bool :=
  payload.run.losingBranchIds.contains (.str messageId) ||
  payload.run.selectedBranchId = messageId ||
  payload.candidates.any fun candidate =>
    candidate.1 = messageId || candidate.2.commitIds.contains (.str messageId)

/-- `convergence_payload_matches_filters`. -/
def convergencePayloadMatchesFilters (payload : ConvergenceRunPayload) (filters : ApiFilters) :
    Bool :=
  filters.messageId = [] || payload.names filters.messageId ||
    payload.evidenceRefs.any fun ref => ref.get (lit "message_id") = .str filters.messageId

/-- The convergence listing. -/
def convergenceListing (events : List AuditEvent) (tables : ConvergenceTables)
    (filters : ApiFilters) : List ConvergenceRunPayload :=
  ((filteredConvergenceRuns events tables filters).map (convergenceRunPayload events tables)).filter
    (convergencePayloadMatchesFilters · filters)

/-! ### Filtering by message id -/

/-- The same request about one message, or about all (the blank id), of any severity. -/
def ActionFilters.about (filters : ActionFilters) (messageId : Str) : ActionFilters :=
  { filters with messageId := messageId, severity := [] }

section Keep

variable (env : Env) (lower : Str → Str) (maxEvents : Nat) (events : List AuditEvent) (groupId : Nat)
variable (rows : GroupProjections)

/-- Asking for one message keeps every row about the event. -/
structure ListingsKeep (messageId : Str) (event : AuditEvent) (filters : ActionFilters) : Prop where
  evidence : event ∈ filteredEvidenceEvents events groupId (filters.about []).toApiFilters →
    event ∈ filteredEvidenceEvents events groupId (filters.about messageId).toApiFilters
  stateDeltas : ∀ delta ∈ filteredStateDeltas events rows.stateDeltas
      (filters.about []).toApiFilters, delta.auditEvent = event.id →
    delta ∈ filteredStateDeltas events rows.stateDeltas (filters.about messageId).toApiFilters
  epochTransitions : ∀ transition ∈ filteredEpochTransitions events rows.epochTransitions
      (filters.about []).toApiFilters, transition.auditEvent = event.id →
    transition ∈ filteredEpochTransitions events rows.epochTransitions
      (filters.about messageId).toApiFilters
  convergence : ∀ payload ∈ convergenceListing events rows.convergence
      (filters.about []).toApiFilters, event.id ∈ payload.run.evidence →
    payload ∈ convergenceListing events rows.convergence (filters.about messageId).toApiFilters
  actions : ∀ payload ∈ (actionGroupsForApi env lower maxEvents events groupId
      (filters.about [])).groups, event ∈ payload.group.events →
    ∃ kept ∈ (actionGroupsForApi env lower maxEvents events groupId
      (filters.about messageId)).groups, kept.key = payload.key ∧ event ∈ kept.group.events

/-- Every run that has the event as evidence names the message as a branch or commit. -/
def RunsName (tables : ConvergenceTables) (messageId : Str) (event : AuditEvent) : Prop :=
  ∀ entry ∈ tables.runs.entries, event.id ∈ entry.2.evidence →
    (convergenceRunPayload events tables entry).names messageId = true

variable {env lower maxEvents events groupId rows}
variable {messageId : Str} {event : AuditEvent} {filters : ActionFilters}

/-- A reference to evidence carries no message id. -/
theorem evidenceRefPayload_messageId (event : AuditEvent) :
    (evidenceRefPayload event).get (lit "message_id") = .null := rfl

/-- The references never match. -/
theorem matches_iff {filters : ApiFilters} {entry : RunKey × ConvergenceRun}
    {tables : ConvergenceTables} :
    convergencePayloadMatchesFilters (convergenceRunPayload events tables entry) filters = true ↔
      filters.messageId = [] ∨
        (convergenceRunPayload events tables entry).names filters.messageId = true := by
  have silent : ((convergenceRunPayload events tables entry).evidenceRefs.any fun ref =>
      ref.get (lit "message_id") = .str filters.messageId) = false := by
    rw [List.any_eq_false]
    intro ref member
    obtain ⟨cited, -, rfl⟩ := List.mem_map.mp member
    rw [evidenceRefPayload_messageId]
    simp
  rw [convergencePayloadMatchesFilters, silent, Bool.or_false, Bool.or_eq_true, decide_eq_true_eq]

/-- The events of a group are those of the window with its key. -/
theorem foldl_add_events {env : Env} {items : List AuditEvent} {group : HumanActionGroup}
    (found : items.foldl (fun found item => some (HumanActionGroup.add env found item)) none =
      some group) : group.events = items := by
  induction items using List.reverseRecOn generalizing group with
  | nil => cases found
  | append_singleton items last inductionHypothesis =>
      rw [List.foldl_append, List.foldl_cons, List.foldl_nil, Option.some.injEq] at found
      subst found
      cases before : items.foldl
          (fun found item => some (HumanActionGroup.add env found item)) none with
      | none =>
          rw [Keyed.foldl_some_eq_none_iff] at before
          rw [before]
          rfl
      | some group =>
          rw [← inductionHypothesis before]
          rfl

theorem actionGroups_events {env : Env} {window : List AuditEvent} {key : ActionKey}
    {group : HumanActionGroup} (found : (actionGroups env window).find key = some group) :
    group.events = window.filter fun event =>
      event.humanActionAction ≠ [] && actionKey event = key := by
  rw [actionGroups, Keyed.find_gather] at found
  rw [foldl_add_events found, List.filter_map, List.map_map, List.filter_filter]
  have same : ((·.2) ∘ fun event : AuditEvent => (actionKey event, event)) = id := rfl
  rw [same, List.map_id]
  apply List.filter_congr
  intro event _
  rw [Bool.and_comm]
  rfl

/-- A request of any severity shows the groups of its window. -/
theorem mem_actionGroupsForApi {asked : Str} {payload : ActionGroupPayload} :
    payload ∈ (actionGroupsForApi env lower maxEvents events groupId (filters.about asked)).groups ↔
      ∃ key group, (actionGroups env (scannedActionEvents maxEvents events groupId
        (filters.about asked))).find key = some group ∧ actionGroupPayload env (key, group) = payload := by
  have unranked : (filters.about asked).severity = [] := rfl
  rw [actionGroupsForApi]
  simp only [unranked, if_true, List.mem_map, humanActionGroupsForGroup, mem_inOrder, Prod.exists,
    ← Keyed.find_eq_some_iff]

/-- The window about a message is that of all messages, filtered. -/
theorem mem_scanned_about (filled : messageId ≠ []) :
    event ∈ scannedActionEvents maxEvents events groupId (filters.about messageId) ↔
      event ∈ scannedActionEvents maxEvents events groupId (filters.about []) ∧
        .str messageId ∈ actionEventMessageIds event := by
  have asked : (filters.about messageId).messageId = messageId := rfl
  have blank : (filters.about []).messageId = [] := rfl
  have sameWindow : newestActionEvents maxEvents events groupId (filters.about messageId) =
      newestActionEvents maxEvents events groupId (filters.about []) := rfl
  rw [scannedActionEvents, scannedActionEvents, asked, blank, sameWindow, if_neg filled, if_pos rfl,
    List.mem_filter, List.contains_iff_mem]

/-- The ids that the action listing compares are those an event mentions. -/
theorem mem_actionEventMessageIds (filled : messageId ≠ [])
    (mentions : .str messageId ∈ eventMessageIdValues event) :
    .str messageId ∈ actionEventMessageIds event := by
  have truthy : (Json.str messageId).truthy = true := by
    cases messageId with
    | nil => exact absurd rfl filled
    | cons char rest => rfl
  apply List.mem_filter.mpr
  refine ⟨?_, truthy⟩
  rw [eventMessageIdValues, List.append_assoc] at mentions
  rw [List.append_assoc]
  apply (List.mem_append.mp mentions).elim
  · intro scalar
    exact List.mem_append_left _ ((List.filter_sublist.map _).subset scalar)
  · intro listed
    exact List.mem_append_right _ listed

/-- The action listing keeps the group of every event that mentions the message. -/
theorem keeps_actions (filled : messageId ≠ [])
    (mentions : .str messageId ∈ eventMessageIdValues event) {payload : ActionGroupPayload}
    (listed : payload ∈ (actionGroupsForApi env lower maxEvents events groupId
      (filters.about [])).groups) (member : event ∈ payload.group.events) :
    ∃ kept ∈ (actionGroupsForApi env lower maxEvents events groupId
      (filters.about messageId)).groups, kept.key = payload.key ∧ event ∈ kept.group.events := by
  obtain ⟨key, group, found, rfl⟩ := mem_actionGroupsForApi.mp listed
  have inGroup : event ∈ group.events := member
  rw [actionGroups_events found, List.mem_filter, Bool.and_eq_true, decide_eq_true_eq,
    decide_eq_true_eq] at inGroup
  obtain ⟨inWindow, acts, sameKey⟩ := inGroup
  have scanned := (mem_scanned_about filled).mpr
    ⟨inWindow, mem_actionEventMessageIds filled mentions⟩
  cases kept : (actionGroups env (scannedActionEvents maxEvents events groupId
      (filters.about messageId))).find key with
  | none =>
      exfalso
      rw [Keyed.find_eq_none_iff, actionGroups, Keyed.mem_keys_gather] at kept
      apply kept
      simp only [List.map_map, List.mem_map, List.mem_filter, decide_eq_true_eq]
      exact ⟨event, ⟨scanned, acts⟩, sameKey⟩
  | some keptGroup =>
      refine ⟨_, mem_actionGroupsForApi.mpr ⟨key, keptGroup, kept, rfl⟩, rfl, ?_⟩
      show event ∈ keptGroup.events
      rw [actionGroups_events kept, List.mem_filter, Bool.and_eq_true, decide_eq_true_eq,
        decide_eq_true_eq]
      exact ⟨scanned, acts, sameKey⟩

/-- The same request about all messages. -/
def ApiFilters.aboutAll (filters : ApiFilters) : ApiFilters := { filters with messageId := [] }

/-- A listing about a message differs from that of all messages in one conjunct. -/
theorem mem_filteredEvidenceEvents {filters : ApiFilters} :
    event ∈ filteredEvidenceEvents events groupId filters ↔
      event ∈ filteredEvidenceEvents events groupId filters.aboutAll ∧
        (filters.messageId = [] ∨ event.msgId = filters.messageId ∨
          event.outboundMsgId = filters.messageId) := by
  simp [filteredEvidenceEvents, ApiFilters.aboutAll, List.mem_filter]
  tauto

theorem mem_filteredStateDeltas {filters : ApiFilters} {delta : StateDelta} :
    delta ∈ filteredStateDeltas events rows.stateDeltas filters ↔
      delta ∈ filteredStateDeltas events rows.stateDeltas filters.aboutAll ∧
        (filters.messageId = [] ∨ delta.originCommitId = filters.messageId ∨
          (eventOf events delta.auditEvent).any (inIdColumns filters.messageId) = true) := by
  simp [filteredStateDeltas, ApiFilters.aboutAll, List.mem_filter]
  tauto

theorem mem_filteredEpochTransitions {filters : ApiFilters} {transition : EpochStateTransition} :
    transition ∈ filteredEpochTransitions events rows.epochTransitions filters ↔
      transition ∈ filteredEpochTransitions events rows.epochTransitions filters.aboutAll ∧
        (filters.messageId = [] ∨
          (eventOf events transition.auditEvent).any (inIdColumns filters.messageId) = true) := by
  simp [filteredEpochTransitions, ApiFilters.aboutAll, List.mem_filter]
  tauto

theorem mem_convergence_about {asked : Str} {payload : ConvergenceRunPayload} :
    payload ∈ convergenceListing events rows.convergence (filters.about asked).toApiFilters ↔
      payload ∈ convergenceListing events rows.convergence (filters.about []).toApiFilters ∧
        (asked = [] ∨ payload.names asked = true) := by
  have sameRuns : filteredConvergenceRuns events rows.convergence
      (filters.about asked).toApiFilters =
        filteredConvergenceRuns events rows.convergence (filters.about []).toApiFilters := rfl
  unfold convergenceListing
  rw [sameRuns, List.mem_filter, List.mem_filter, and_assoc]
  apply and_congr_right
  intro listed
  obtain ⟨entry, -, rfl⟩ := List.mem_map.mp listed
  rw [matches_iff, matches_iff]
  simp [ActionFilters.about]

/-- Whatever else is asked, filtering by a message id that the event mentions keeps every row about the
event, if and only if the id is one of its two own ids and its runs all name it. -/
theorem listingsKeep_iff (env : Env) (lower : Str → Str) (maxEvents : Nat) {events : List AuditEvent}
    {groupId : Nat} (rows : GroupProjections) {messageId : Str} {event : AuditEvent}
    (ids : (events.map (·.id)).Nodup) (member : event ∈ events)
    (grouped : event.groupId = some groupId)
    (mentions : .str messageId ∈ eventMessageIdValues event) :
    (∀ filters, ListingsKeep env lower maxEvents events groupId rows messageId event filters) ↔
      messageId = [] ∨
        (event.msgId = messageId ∨ event.outboundMsgId = messageId) ∧
          RunsName events rows.convergence messageId event := by
  constructor
  · intro keeps
    rw [or_iff_not_imp_left]
    intro filled
    have unfiltered := keeps defaultActionFilters
    constructor
    · have listed : event ∈ filteredEvidenceEvents events groupId
          (defaultActionFilters.about []).toApiFilters := by
        apply List.mem_filter.mpr
        refine ⟨member, ?_⟩
        simp [ActionFilters.about, defaultActionFilters, defaultApiFilters, textFilter, epochFilter,
          timeFilter, grouped]
      exact (mem_filteredEvidenceEvents.mp (unfiltered.evidence listed)).2.resolve_left filled
    · intro entry stored cited
      have listed : convergenceRunPayload events rows.convergence entry ∈
          convergenceListing events rows.convergence
            (defaultActionFilters.about []).toApiFilters := by
        apply List.mem_filter.mpr
        refine ⟨List.mem_map_of_mem (List.mem_filter.mpr ⟨stored, ?_⟩), matches_iff.mpr (.inl rfl)⟩
        simp [ActionFilters.about, defaultActionFilters, defaultApiFilters, textFilter, epochFilter,
          timeFilter]
      exact (mem_convergence_about.mp (unfiltered.convergence _ listed cited)).2.resolve_left filled
  · intro named filters
    by_cases blank : messageId = []
    · subst blank
      exact
        { evidence := id
          stateDeltas := fun _ listed _ => listed
          epochTransitions := fun _ listed _ => listed
          convergence := fun _ listed _ => listed
          actions := fun payload listed inside => ⟨payload, listed, rfl, inside⟩ }
    · obtain ⟨own, runsName⟩ := named.resolve_left blank
      have inColumns : ∀ eventId, eventId = event.id →
          (eventOf events eventId).any (inIdColumns messageId) = true := by
        rintro eventId rfl
        rw [eventOf_eq ids member, Option.any_some, inIdColumns]
        rcases own with scalar | scalar <;> simp [scalar]
      refine
        { evidence := fun listed => mem_filteredEvidenceEvents.mpr ⟨listed, .inr own⟩
          stateDeltas := fun delta listed about =>
            mem_filteredStateDeltas.mpr ⟨listed, .inr (.inr (inColumns _ about))⟩
          epochTransitions := fun transition listed about =>
            mem_filteredEpochTransitions.mpr ⟨listed, .inr (inColumns _ about)⟩
          convergence := ?convergence
          actions := fun payload listed inside => keeps_actions blank mentions listed inside }
      case convergence =>
        intro payload listed cited
        refine mem_convergence_about.mpr ⟨listed, .inr ?_⟩
        obtain ⟨entry, inRuns, rfl⟩ := List.mem_map.mp (List.mem_filter.mp listed).1
        exact runsName entry (List.mem_filter.mp inRuns).1 cited

/-- Knows the record about the message `a…`, with its run and without, and the record of welcomes. -/
def listingEnv : Env :=
  digestEnv
    [(outcomeRecord (lit "e") 100 [] 'a',
        lit "5da086502a224a9ede4ddd9ae3a2790c" ++ lit "863ee32b4242171057f8343050a6925c"),
      (outcomeRecord (lit "e") 100 runContext 'a',
        lit "b86f9e8438799607eae31557ee24cfec" ++ lit "405a777892c0e97557df11eed79c330c"),
      (welcomingRecord,
        lit "23e83fd0ba84ebfe155a4e616e7dd5cd" ++ lit "ab294e5598c509d408406995619ac300")]

/-- The outcome of a message, outside of any run, is in every listing of the message. -/
theorem listingsKeep_outcome :
    let store := storeAfter listingEnv [uploadOf [outcomeRecord (lit "e") 100 [] 'a']]
    ∃ event ∈ store.events, event.groupId = some 1 ∧
      ∀ filters, ListingsKeep listingEnv id 100 store.events 1 (store.projections 1)
        (List.replicate 64 0x61) event filters := by
  intro store
  have facts : (∃ event ∈ store.events, event.groupId = some 1 ∧
      .str (List.replicate 64 0x61) ∈ eventMessageIdValues event ∧
        event.msgId = List.replicate 64 0x61) ∧
      (store.projections 1).convergence.runs.entries = [] ∧
      (store.events.map (·.id)).Nodup := by
    decide +kernel
  obtain ⟨⟨event, member, grouped, mentions, own⟩, noRuns, ids⟩ := facts
  refine ⟨event, member, grouped, ?_⟩
  apply (listingsKeep_iff listingEnv id 100 (store.projections 1) ids member grouped mentions).mpr
  refine .inr ⟨.inl own, ?_⟩
  intro entry listed
  rw [noRuns] at listed
  cases listed

/-- The run that an outcome is evidence of is not in the listing of its message, and the send of two
welcomes is not in the evidence listing of theirs. -/
theorem listingsKeep_fails_convergence_and_welcomes :
    let store := storeAfter listingEnv
      [uploadOf [outcomeRecord (lit "e") 100 runContext 'a'], uploadOf [welcomingRecord]]
    (∃ event ∈ store.events, event.groupId = some 1 ∧
      .str (List.replicate 64 0x61) ∈ eventMessageIdValues event ∧
        ¬ ListingsKeep listingEnv id 100 store.events 1 (store.projections 1)
          (List.replicate 64 0x61) event defaultActionFilters) ∧
    ∃ event ∈ store.events, event.groupId = some 1 ∧
      .str (List.replicate 64 0x32) ∈ eventMessageIdValues event ∧
        ¬ ListingsKeep listingEnv id 100 store.events 1 (store.projections 1)
          (List.replicate 64 0x32) event defaultActionFilters := by
  intro store
  -- One run of the uploads answers all four questions.
  have facts : (∃ event ∈ store.events, event.groupId = some 1 ∧
      .str (List.replicate 64 0x61) ∈ eventMessageIdValues event ∧
        ∃ payload ∈ convergenceListing store.events (store.projections 1).convergence
          (defaultActionFilters.about []).toApiFilters, event.id ∈ payload.run.evidence) ∧
      (convergenceListing store.events (store.projections 1).convergence
        (defaultActionFilters.about (List.replicate 64 0x61)).toApiFilters).length = 0 ∧
      (∃ event ∈ store.events, event.groupId = some 1 ∧
        .str (List.replicate 64 0x32) ∈ eventMessageIdValues event ∧
          event ∈ filteredEvidenceEvents store.events 1
            (defaultActionFilters.about []).toApiFilters) ∧
      (filteredEvidenceEvents store.events 1
        (defaultActionFilters.about (List.replicate 64 0x32)).toApiFilters).length = 0 := by
    decide +kernel
  obtain ⟨cited, runsDropped, listed, eventsDropped⟩ := facts
  constructor
  · obtain ⟨event, member, grouped, mentions, payload, listed, inside⟩ := cited
    refine ⟨event, member, grouped, mentions, ?_⟩
    intro keeps
    have kept := keeps.convergence payload listed inside
    rw [List.eq_nil_of_length_eq_zero runsDropped] at kept
    cases kept
  · obtain ⟨event, member, grouped, mentions, inside⟩ := listed
    refine ⟨event, member, grouped, mentions, ?_⟩
    intro keeps
    have kept := keeps.evidence inside
    rw [List.eq_nil_of_length_eq_zero eventsDropped] at kept
    cases kept

end Keep

end Goggles
