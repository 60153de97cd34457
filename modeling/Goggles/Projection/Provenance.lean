/-
Module: Goggles.Projection.Provenance
Purpose: The projection rows of a group cite only events they were projected from, and the rows that
  collect evidence cite at least one.
Trusted boundary: none beyond the modules it imports
Main exports: GroupProjections.Cites, GroupProjections.Grounded, GroupProjections.Evidenced,
  cites_projectEvent, grounded_projectEvent, evidenced_projectEvent, cites_replay, rebuildGroup_cites,
  rebuildGroup_grounded
-/
import Goggles.Projection.Project

namespace Goggles

/-- Every event id in the rows satisfies a predicate. -/
structure GroupProjections.Cites (known : Nat → Prop) (rows : GroupProjections) : Prop where
  artifacts : ∀ entry ∈ rows.delivery.artifacts.entries, ∀ eventId ∈ entry.2.evidence,
    known eventId
  observations : ∀ entry ∈ rows.delivery.observations.entries, ∀ eventId ∈ entry.2.evidence,
    known eventId
  expectations : ∀ row ∈ rows.delivery.expectations, known row.evidenceEvent
  network : ∀ row ∈ rows.network, known row.auditEvent
  runs : ∀ entry ∈ rows.convergence.runs.entries, ∀ eventId ∈ entry.2.evidence, known eventId
  stateDeltas : ∀ row ∈ rows.stateDeltas, known row.auditEvent
  epochTransitions : ∀ row ∈ rows.epochTransitions, known row.auditEvent

/-- Every artifact, observation and run has evidence. -/
structure GroupProjections.Grounded (rows : GroupProjections) : Prop where
  artifacts : ∀ entry ∈ rows.delivery.artifacts.entries, entry.2.evidence.Nonempty
  observations : ∀ entry ∈ rows.delivery.observations.entries, entry.2.evidence.Nonempty
  runs : ∀ entry ∈ rows.convergence.runs.entries, entry.2.evidence.Nonempty

theorem GroupProjections.Grounded.empty : GroupProjections.empty.Grounded := by
  constructor <;>
    simp [GroupProjections.empty, DeliveryTables.empty, ConvergenceTables.empty]

theorem GroupProjections.Cites.mono {known wider : Nat → Prop} {rows : GroupProjections}
    (cited : rows.Cites known) (widens : ∀ eventId, known eventId → wider eventId) :
    rows.Cites wider where
  artifacts := fun entry member eventId cites => widens _ (cited.artifacts entry member eventId cites)
  observations := fun entry member eventId cites =>
    widens _ (cited.observations entry member eventId cites)
  expectations := fun row member => widens _ (cited.expectations row member)
  network := fun row member => widens _ (cited.network row member)
  runs := fun entry member eventId cites => widens _ (cited.runs entry member eventId cites)
  stateDeltas := fun row member => widens _ (cited.stateDeltas row member)
  epochTransitions := fun row member => widens _ (cited.epochTransitions row member)

theorem GroupProjections.Cites.empty (known : Nat → Prop) : GroupProjections.empty.Cites known := by
  constructor <;>
    simp [GroupProjections.empty, DeliveryTables.empty, ConvergenceTables.empty]

section Update

variable {κ ρ : Type*} [DecidableEq κ] {known : Nat → Prop} {evidence : ρ → Finset Nat}

/-- An update that adds one event to the evidence of a row cites what was cited and that event. -/
theorem cites_upsert (eventId : Nat) {table : Keyed κ ρ} {key : κ} {change : Option ρ → ρ}
    (cited : ∀ entry ∈ table.entries, ∀ found ∈ evidence entry.2, known found)
    (adds : ∀ row, evidence (change (some row)) ⊆ insert eventId (evidence row))
    (starts : evidence (change none) ⊆ {eventId}) (isKnown : known eventId) :
    ∀ entry ∈ (table.upsert key change).entries, ∀ found ∈ evidence entry.2, known found := by
  intro entry member found foundMember
  rcases Keyed.mem_upsert.mp member with rfl | ⟨-, old⟩
  · cases before : table.find key with
    | none =>
        rw [before] at foundMember
        exact Finset.mem_singleton.mp (starts foundMember) ▸ isKnown
    | some row =>
        rw [before] at foundMember
        rcases Finset.mem_insert.mp (adds row foundMember) with here | there
        · exact here ▸ isKnown
        · exact cited (key, row) (Keyed.find_eq_some_iff.mp before) found there
  · exact cited entry old found foundMember

/-- An update that leaves evidence in its row keeps every row grounded. -/
theorem grounded_upsert {table : Keyed κ ρ} {key : κ} {change : Option ρ → ρ}
    (grounded : ∀ entry ∈ table.entries, (evidence entry.2).Nonempty)
    (leaves : ∀ found, (evidence (change found)).Nonempty) :
    ∀ entry ∈ (table.upsert key change).entries, (evidence entry.2).Nonempty := by
  intro entry member
  rcases Keyed.mem_upsert.mp member with rfl | ⟨-, old⟩
  · exact leaves _
  · exact grounded entry old

end Update

variable {known : Nat → Prop} {event : AuditEvent}

theorem cites_projectArtifacts (isKnown : known event.id)
    {artifacts : Keyed Str DeliveryArtifact}
    (cited : ∀ entry ∈ artifacts.entries, ∀ eventId ∈ entry.2.evidence, known eventId) :
    ∀ entry ∈ (projectArtifacts event artifacts).entries, ∀ eventId ∈ entry.2.evidence,
      known eventId := by
  unfold projectArtifacts
  induction messageRefsForEvent event generalizing artifacts with
  | nil => exact cited
  | cons ref rest inductionHypothesis =>
      refine inductionHypothesis (cites_upsert event.id cited (fun row => ?_) ?_ isKnown)
      · exact subset_rfl
      · simp [artifactForMessage, newArtifact]

theorem cites_projectObservations (isKnown : known event.id)
    {observations : Keyed (Str × Str) DeliveryObservation}
    (cited : ∀ entry ∈ observations.entries, ∀ eventId ∈ entry.2.evidence, known eventId) :
    ∀ entry ∈ (projectObservations event observations).entries, ∀ eventId ∈ entry.2.evidence,
      known eventId := by
  unfold projectObservations
  split
  · exact cited
  · induction messageRefsForEvent event generalizing observations with
    | nil => exact cited
    | cons ref rest inductionHypothesis =>
        refine inductionHypothesis
          (cites_upsert event.id cited (fun row => ?_) ?_ isKnown)
        · exact subset_rfl
        · simp [projectDeliveryObservation, newObservation]

theorem cites_recordEvidence (isKnown : known event.id) {run : RunKey} {fresh : ConvergenceRun}
    (blank : fresh.evidence = ∅) {tables : ConvergenceTables}
    (cited : ∀ entry ∈ tables.runs.entries, ∀ eventId ∈ entry.2.evidence, known eventId) :
    ∀ entry ∈ (recordEvidence event run fresh tables).runs.entries, ∀ eventId ∈ entry.2.evidence,
      known eventId := by
  unfold recordEvidence
  split <;> exact cites_upsert event.id cited (fun row => subset_rfl)
    (by simp [updateRunFromEvent, blank]) isKnown

/-- One event adds citations of itself only. -/
theorem cites_projectEvent (isKnown : known event.id) {state next : GroupState}
    (projected : projectEvent state event = some next) (cited : state.projections.Cites known) :
    next.projections.Cites known := by
  obtain ⟨recorder, recorded, rfl⟩ := projectEvent_rows projected
  refine
    { artifacts := cites_projectArtifacts isKnown cited.artifacts
      observations := cites_projectObservations isKnown cited.observations
      expectations := ?expectations
      network := ?network
      runs := ?runs
      stateDeltas := ?stateDeltas
      epochTransitions := ?epochTransitions }
  case expectations =>
    intro row member
    rcases List.mem_append.mp member with old | new
    · exact cited.expectations row old
    · obtain ⟨ref, -, made⟩ := List.mem_flatMap.mp new
      obtain ⟨expectation, -, rfl⟩ := List.mem_map.mp made
      exact isKnown
  case network =>
    intro row member
    rcases List.mem_append.mp member with old | new
    · exact cited.network row old
    · unfold networkRows at new
      split at new
      · rw [List.mem_singleton.mp new]
        exact isKnown
      · cases new
  case runs =>
    rcases projectRecorder_runs recorded with same | ⟨run, accountRef, inferred, same⟩
    · rw [same]
      exact cited.runs
    · rw [same]
      exact cites_recordEvidence isKnown rfl cited.runs
  case stateDeltas =>
    intro row member
    rcases List.mem_append.mp member with old | new
    · exact cited.stateDeltas row old
    · unfold stateDeltaRows at new
      split at new
      · rw [List.mem_singleton.mp new]
        exact isKnown
      · cases new
  case epochTransitions =>
    intro row member
    rcases List.mem_append.mp member with old | new
    · exact cited.epochTransitions row old
    · unfold epochTransitionRows at new
      split at new
      · rw [List.mem_singleton.mp new]
        exact isKnown
      · cases new

theorem grounded_projectArtifacts {artifacts : Keyed Str DeliveryArtifact}
    (grounded : ∀ entry ∈ artifacts.entries, entry.2.evidence.Nonempty) :
    ∀ entry ∈ (projectArtifacts event artifacts).entries, entry.2.evidence.Nonempty := by
  unfold projectArtifacts
  induction messageRefsForEvent event generalizing artifacts with
  | nil => exact grounded
  | cons ref rest inductionHypothesis =>
      apply inductionHypothesis
      exact grounded_upsert grounded fun found => Finset.insert_nonempty _ _

theorem grounded_projectObservations {observations : Keyed (Str × Str) DeliveryObservation}
    (grounded : ∀ entry ∈ observations.entries, entry.2.evidence.Nonempty) :
    ∀ entry ∈ (projectObservations event observations).entries, entry.2.evidence.Nonempty := by
  unfold projectObservations
  split
  · exact grounded
  · induction messageRefsForEvent event generalizing observations with
    | nil => exact grounded
    | cons ref rest inductionHypothesis =>
        apply inductionHypothesis
        exact grounded_upsert grounded fun found => Finset.insert_nonempty _ _

theorem grounded_recordEvidence {run : RunKey} {fresh : ConvergenceRun}
    {tables : ConvergenceTables}
    (grounded : ∀ entry ∈ tables.runs.entries, entry.2.evidence.Nonempty) :
    ∀ entry ∈ (recordEvidence event run fresh tables).runs.entries, entry.2.evidence.Nonempty := by
  unfold recordEvidence
  split <;> exact grounded_upsert grounded fun found => Finset.insert_nonempty _ _

/-- One event leaves every row that collects evidence grounded. -/
theorem grounded_projectEvent {state next : GroupState}
    (projected : projectEvent state event = some next) (grounded : state.projections.Grounded) :
    next.projections.Grounded := by
  obtain ⟨recorder, recorded, rfl⟩ := projectEvent_rows projected
  refine ⟨grounded_projectArtifacts grounded.artifacts,
    grounded_projectObservations grounded.observations, ?_⟩
  rcases projectRecorder_runs recorded with same | ⟨run, accountRef, inferred, same⟩
  · rw [same]
    exact grounded.runs
  · rw [same]
    exact grounded_recordEvidence grounded.runs

/-- Known events leave rows that cite known events. -/
theorem cites_replay {events : List AuditEvent} (listed : ∀ event ∈ events, known event.id)
    {state final : GroupState} (replayed : replay projectEvent state events = some final)
    (cited : state.projections.Cites known) : final.projections.Cites known := by
  have preserved : ∀ state, ∀ event ∈ events, ∀ next, projectEvent state event = some next →
      state.projections.Cites known → next.projections.Cites known :=
    fun state event member next stepped held => cites_projectEvent (listed event member) stepped held
  exact replay_invariant preserved replayed cited

/-- Rebuilt rows cite valid events of the group. -/
theorem rebuildGroup_cites {events : List AuditEvent} {groupId : Nat} {rows : GroupProjections}
    (rebuilt : rebuildGroup events groupId = some rows) :
    rows.Cites fun eventId => ∃ event ∈ validGroupEvents events groupId, event.id = eventId := by
  obtain ⟨final, replayed, rfl⟩ := Option.map_eq_some_iff.mp rebuilt
  exact cites_replay (fun event member => ⟨event, mem_inOrder.mp member, rfl⟩) replayed (.empty _)

/-- The rows cite known events only, those that collect evidence have some, and the events of an
observation's states are among its evidence. -/
structure GroupProjections.Evidenced (known : Nat → Prop) (rows : GroupProjections) : Prop where
  cites : rows.Cites known
  grounded : rows.Grounded
  states : ∀ entry ∈ rows.delivery.observations.entries, ∀ state ∈ entry.2.states,
    state.eventId ∈ entry.2.evidence

theorem GroupProjections.Evidenced.mono {known wider : Nat → Prop} {rows : GroupProjections}
    (evidenced : rows.Evidenced known) (widens : ∀ eventId, known eventId → wider eventId) :
    rows.Evidenced wider :=
  ⟨evidenced.cites.mono widens, evidenced.grounded, evidenced.states⟩

theorem GroupProjections.Evidenced.empty (known : Nat → Prop) :
    GroupProjections.empty.Evidenced known where
  cites := .empty known
  grounded := .empty
  states := by simp [GroupProjections.empty, DeliveryTables.empty]

theorem states_projectObservations {observations : Keyed (Str × Str) DeliveryObservation}
    (cited : ∀ entry ∈ observations.entries, ∀ state ∈ entry.2.states,
      state.eventId ∈ entry.2.evidence) :
    ∀ entry ∈ (projectObservations event observations).entries, ∀ state ∈ entry.2.states,
      state.eventId ∈ entry.2.evidence := by
  have updated : ∀ found : Option DeliveryObservation,
      (∀ observation, found = some observation → ∀ state ∈ observation.states,
        state.eventId ∈ observation.evidence) →
      ∀ state ∈ (projectDeliveryObservation event found).states,
        state.eventId ∈ (projectDeliveryObservation event found).evidence := by
    intro found before state member
    have earlier : state ∈ (found.getD (newObservation event)).states →
        state.eventId ∈ insert event.id (found.getD (newObservation event)).evidence := by
      intro old
      cases found with
      | none => cases old
      | some observation => exact Finset.mem_insert_of_mem (before observation rfl state old)
    simp only [projectDeliveryObservation] at member ⊢
    split at member
    · exact earlier member
    · rcases List.mem_append.mp member with old | new
      · exact earlier old
      · rw [List.mem_singleton.mp new]
        exact Finset.mem_insert_self _ _
  unfold projectObservations
  split
  · exact cited
  · induction messageRefsForEvent event generalizing observations with
    | nil => exact cited
    | cons ref rest inductionHypothesis =>
        apply inductionHypothesis
        intro entry member
        rcases Keyed.mem_upsert.mp member with rfl | ⟨-, old⟩
        · refine updated _ fun observation found => ?_
          exact cited (_, observation) (Keyed.find_eq_some_iff.mp found)
        · exact cited entry old

/-- One event cites itself only, and is evidence of what it adds. -/
theorem evidenced_projectEvent (isKnown : known event.id) {state next : GroupState}
    (projected : projectEvent state event = some next)
    (evidenced : state.projections.Evidenced known) : next.projections.Evidenced known where
  cites := cites_projectEvent isKnown projected evidenced.cites
  grounded := grounded_projectEvent projected evidenced.grounded
  states := by
    obtain ⟨recorder, -, rfl⟩ := projectEvent_rows projected
    exact states_projectObservations evidenced.states

/-- Known events leave the rows evidenced. -/
theorem evidenced_replay {events : List AuditEvent} (listed : ∀ event ∈ events, known event.id)
    {state final : GroupState} (replayed : replay projectEvent state events = some final)
    (evidenced : state.projections.Evidenced known) : final.projections.Evidenced known := by
  have preserved : ∀ state, ∀ event ∈ events, ∀ next, projectEvent state event = some next →
      state.projections.Evidenced known → next.projections.Evidenced known :=
    fun state event member next stepped held =>
      evidenced_projectEvent (listed event member) stepped held
  exact replay_invariant preserved replayed evidenced

end Goggles
