/-
Module: Goggles.Projection.Project
Purpose: Projecting a list of events: the full rebuild of a group, and the incremental projection of
  one file with its backfill fallback.
Trusted boundary: forensics/projections.py, `rebuild_file_projections` to `project_event`
Main exports: GroupState, projectEvent, rebuildGroup, groupsWithOutOfOrderBackfill,
  activeInferredRunsForEvents, projectFileEvents, rebuildFileProjections
-/
import Goggles.Projection.Network
import Goggles.Projection.Convergence

namespace Goggles

/-! ### One event -/

/-- The projection rows of one group with the group's part of the map of open inferred runs. -/
structure GroupState where
  projections : GroupProjections
  active : Str → Option Str

/-- `project_event` on the rows of the event's group. -/
def projectEvent (state : GroupState) (event : AuditEvent) : Option GroupState :=
  let rows := state.projections
  let delivery := projectDelivery event rows.delivery
  match projectRecorder ⟨rows.convergence, state.active event.engineId⟩ event with
  | none => none
  | some recorder =>
      some
        { projections :=
            { delivery := delivery
              network := rows.network ++ networkRows event delivery.artifacts
              convergence := recorder.tables
              stateDeltas := rows.stateDeltas ++ stateDeltaRows event
              epochTransitions := rows.epochTransitions ++ epochTransitionRows event }
          active := Function.update state.active event.engineId recorder.active }

/-- What `project_event` does to the rows of the group, table by table. -/
theorem projectEvent_rows {event : AuditEvent} {state next : GroupState}
    (projected : projectEvent state event = some next) :
    ∃ recorder,
      projectRecorder ⟨state.projections.convergence, state.active event.engineId⟩ event =
        some recorder ∧
      next =
        { projections :=
            { delivery := projectDelivery event state.projections.delivery
              network := state.projections.network ++
                networkRows event (projectDelivery event state.projections.delivery).artifacts
              convergence := recorder.tables
              stateDeltas := state.projections.stateDeltas ++ stateDeltaRows event
              epochTransitions := state.projections.epochTransitions ++ epochTransitionRows event }
          active := Function.update state.active event.engineId recorder.active } := by
  unfold projectEvent at projected
  simp only at projected
  cases recorded : projectRecorder ⟨state.projections.convergence, state.active event.engineId⟩
      event with
  | none =>
      rw [recorded] at projected
      cases projected
  | some recorder =>
      rw [recorded, Option.some.injEq] at projected
      exact ⟨recorder, rfl, projected.symm⟩

/-! ### Rebuild -/

/-- A group cleared, with no run open. -/
def GroupState.cleared : GroupState := ⟨.empty, fun _ => none⟩

/-- `rebuild_locked_group_projections`: clear, and project the group's valid events in order. -/
def rebuildGroup (events : List AuditEvent) (groupId : Nat) : Option GroupProjections :=
  (replay projectEvent .cleared
    (inOrder eventOrderKey (validGroupEvents events groupId))).map (·.projections)

/-! ### The backfill check -/

/-- The recorder of an event: its group and engine. -/
abbrev Recorder := Nat × Str

/-- One iteration of the scan for `earliest_uploaded`. -/
def noteEarliest (earliest : Recorder → Option OrderKey) (event : AuditEvent) :
    Recorder → Option OrderKey :=
  match event.groupId with
  | none => earliest
  | some groupId =>
      if eventMayNeedInferredConvergenceState event then
        let recorder := (groupId, event.engineId)
        let key := convergenceOrderKey event
        match earliest recorder with
        | none => Function.update earliest recorder (some key)
        | some current =>
            if key < current then Function.update earliest recorder (some key) else earliest
      else earliest

/-- `earliest_uploaded`. -/
def earliestUploaded (events : List AuditEvent) : Recorder → Option OrderKey :=
  events.foldl noteEarliest fun _ => none

/-- A stored event of another file that the new events of its recorder predate. -/
def isOvertaken (fileId : Nat) (earliest : Recorder → Option OrderKey) (groupId : Nat)
    (stored : AuditEvent) : Bool :=
  stored.countsFor groupId && stored.auditFileId != fileId &&
    eventMayNeedInferredConvergenceState stored &&
    (earliest (groupId, stored.engineId)).any (· < convergenceOrderKey stored)

/-- `groups_with_out_of_order_convergence_backfill`, group by group. -/
def isBackfilled (stored : List AuditEvent) (fileId : Nat) (events : List AuditEvent)
    (groupId : Nat) : Bool :=
  stored.any (isOvertaken fileId (earliestUploaded events) groupId)

/-! ### Incremental projection -/

/-- `active_inferred_runs_for_events`: entries for the recorders whose new events may need one. -/
def activeInferredRunsForEvents (stored : List AuditEvent)
    (projections : Nat → GroupProjections) (events : List AuditEvent) (groupId : Nat)
    (engineId : Str) : Option Str :=
  if engineId ≠ [] ∧ ∃ event ∈ events, event.groupId = some groupId ∧ event.engineId = engineId ∧
      eventMayNeedInferredConvergenceState event = true then
    activeInferredRun stored (projections groupId).convergence.runs engineId
  else none

/-- `project_event` in the rows of all groups. -/
def projectGroupedEvent (state : Nat → GroupState) (event : AuditEvent) :
    Option (Nat → GroupState) :=
  match event.groupId with
  | none => some state
  | some groupId => (projectEvent (state groupId) event).map (Function.update state groupId)

/-- Rebuild the groups of a list one after the other. -/
def rebuildGroups (stored : List AuditEvent) :
    List Nat → (Nat → GroupProjections) → Option (Nat → GroupProjections)
  | [], projections => some projections
  | groupId :: rest, projections =>
      match rebuildGroup stored groupId with
      | none => none
      | some rows => rebuildGroups stored rest (Function.update projections groupId rows)

/-- The new events of a file that `project_file_events` projects, in order. -/
def fileEvents (stored : List AuditEvent) (fileId : Nat) (groupIds : List Nat) :
    List AuditEvent :=
  inOrder eventOrderKey <| stored.filter fun event =>
    event.auditFileId == fileId && event.parseStatus == .valid &&
      event.groupId.any groupIds.contains

/-- `project_file_events`. -/
def projectFileEvents (stored : List AuditEvent) (projections : Nat → GroupProjections)
    (fileId : Nat) (groupIds : List Nat) : Option (Nat → GroupProjections) :=
  let events := fileEvents stored fileId groupIds
  let backfilled := (inOrder id groupIds).filter (isBackfilled stored fileId events)
  match rebuildGroups stored backfilled projections with
  | none => none
  | some rebuilt =>
      let remaining := events.filter fun event =>
        event.groupId.all fun groupId => !isBackfilled stored fileId events groupId
      let state (groupId : Nat) : GroupState :=
        ⟨rebuilt groupId, activeInferredRunsForEvents stored rebuilt remaining groupId⟩
      (replay projectGroupedEvent state remaining).map fun final groupId =>
        (final groupId).projections

/-- The groups of the events a file owns. -/
def eventGroups (stored : List AuditEvent) (fileId : Nat) : List Nat :=
  ((stored.filter (·.auditFileId == fileId)).filterMap (·.groupId)).dedup

/-- `rebuild_file_projections`. -/
def rebuildFileProjections (stored : List AuditEvent) (projections : Nat → GroupProjections)
    (file : AuditFile) : Option (Nat → GroupProjections) :=
  if !file.metadata.schemaVersions.contains SCHEMA_VERSION then some projections
  else
    let groupIds := file.groups ∪ eventGroups stored file.id
    if groupIds = [] then some projections
    else projectFileEvents stored projections file.id groupIds

end Goggles
