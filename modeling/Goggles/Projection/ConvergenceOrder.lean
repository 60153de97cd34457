/-
Module: Goggles.Projection.ConvergenceOrder
Purpose: The convergence rows as functions of the order in which the events were projected: which
  neighbours may change places.
Trusted boundary: none beyond the modules it imports
Main exports: ConvergenceState, convergence_replay, ConvergenceRelevant, ConvergenceIndependent,
  ConvergenceTables.Same, reorders_sameTables
-/
import Goggles.Projection.Project
import Goggles.Library.Reorder
import Goggles.Store.Sound

namespace Goggles

/-! ### The convergence part of a group -/

/-- The convergence rows of a group with the group's map of open inferred runs. -/
structure ConvergenceState where
  tables : ConvergenceTables
  active : Str → Option Str

/-- No rows, and no run open. -/
def ConvergenceState.cleared : ConvergenceState := ⟨.empty, fun _ => none⟩

/-- The convergence part of `project_event`. -/
def ConvergenceState.step (state : ConvergenceState) (event : AuditEvent) :
    Option ConvergenceState :=
  (projectRecorder ⟨state.tables, state.active event.engineId⟩ event).map fun recorder =>
    ⟨recorder.tables, Function.update state.active event.engineId recorder.active⟩

/-- The convergence part of a group's state. -/
def GroupState.convergence (state : GroupState) : ConvergenceState :=
  ⟨state.projections.convergence, state.active⟩

/-- Convergence does not read the other rows. -/
theorem convergence_replay (state : GroupState) (events : List AuditEvent) :
    (replay projectEvent state events).map GroupState.convergence =
      replay ConvergenceState.step state.convergence events := by
  induction events generalizing state with
  | nil => rfl
  | cons event rest inductionHypothesis =>
      rw [replay_cons, replay_cons, ConvergenceState.step, projectEvent]
      simp only [GroupState.convergence]
      cases projectRecorder ⟨state.projections.convergence, state.active event.engineId⟩ event with
      | none => rfl
      | some recorder =>
          simp only [Option.bind_some, Option.map_some]
          exact inductionHypothesis _

theorem convergence_of_replay {state final : GroupState} {events : List AuditEvent}
    (replayed : replay projectEvent state events = some final) :
    replay ConvergenceState.step state.convergence events = some final.convergence := by
  rw [← convergence_replay, replayed, Option.map_some]

/-! ### Relevant events -/

/-- The event names its run. -/
def namesRun (event : AuditEvent) : Prop := explicitRunId event ≠ []

instance (event : AuditEvent) : Decidable (namesRun event) :=
  inferInstanceAs (Decidable (_ ≠ _))

/-- The event belongs to a named run, or to whatever run is open. -/
def ConvergenceRelevant (event : AuditEvent) : Prop :=
  namesRun event ∨ eventMayNeedInferredConvergenceState event = true

instance (event : AuditEvent) : Decidable (ConvergenceRelevant event) :=
  inferInstanceAs (Decidable (_ ∨ _))

/-- Neither event can change what the other one does: they are by different engines, or one of them
is not about convergence, or they name different runs. -/
def ConvergenceIndependent (one two : AuditEvent) : Prop :=
  one.engineId ≠ two.engineId ∨ ¬ ConvergenceRelevant one ∨ ¬ ConvergenceRelevant two ∨
    (namesRun one ∧ namesRun two ∧ explicitRunId one ≠ explicitRunId two)

instance (one two : AuditEvent) : Decidable (ConvergenceIndependent one two) :=
  inferInstanceAs (Decidable (_ ∨ _))

theorem not_relevant_facts {event : AuditEvent} (idle : ¬ ConvergenceRelevant event) :
    convergenceEventTypes.contains event.eventType = false ∧ isEpochStateChanged event = false ∧
      event.contextConvergence.isEmpty = true := by
  unfold ConvergenceRelevant namesRun eventMayNeedInferredConvergenceState at idle
  cases blank : explicitRunId event with
  | nil => simpa [blank, and_assoc] using idle
  | cons char rest => simp [blank] at idle

theorem projectRecorder_idle {event : AuditEvent} (idle : ¬ ConvergenceRelevant event)
    (state : RecorderState) : projectRecorder state event = some state := by
  obtain ⟨notTyped, notEpoch, noContext⟩ := not_relevant_facts idle
  have skipped : shouldProjectConvergence event state.active = false := by
    rw [shouldProjectConvergence, notTyped, notEpoch, noContext]
    rfl
  rw [projectRecorder, skipped]
  rfl

theorem projectRecorder_blank {event : AuditEvent} (blank : event.engineId = [])
    (state : RecorderState) : projectRecorder state event = some state := by
  rw [projectRecorder, projectConvergence, if_pos blank, ite_self]

theorem step_of_projected (state : ConvergenceState) {event : AuditEvent}
    {recorder : RecorderState}
    (projected : projectRecorder ⟨state.tables, state.active event.engineId⟩ event =
      some recorder) :
    state.step event =
      some ⟨recorder.tables, Function.update state.active event.engineId recorder.active⟩ := by
  rw [ConvergenceState.step, projected, Option.map_some]

theorem step_blank {event : AuditEvent} (blank : event.engineId = []) (state : ConvergenceState) :
    state.step event = some state := by
  rw [step_of_projected _ (projectRecorder_blank blank _), Function.update_eq_self]

theorem step_idle {event : AuditEvent} (idle : ¬ ConvergenceRelevant event)
    (state : ConvergenceState) : state.step event = some state := by
  rw [step_of_projected _ (projectRecorder_idle idle _), Function.update_eq_self]

theorem projectRecorder_named {event : AuditEvent} (named : namesRun event)
    (engine : event.engineId ≠ []) (state : RecorderState) :
    projectRecorder state event =
      some ⟨recordEvidence event (event.engineId, explicitRunId event)
        (newRun event.accountRef false) state.tables, none⟩ := by
  have context : event.contextConvergence.isEmpty = false := by
    rw [Bool.eq_false_iff]
    intro blank
    apply named
    rw [explicitRunId, List.isEmpty_iff.mp blank]
    rfl
  have projects : shouldProjectConvergence event state.active = true := by
    simp [shouldProjectConvergence, context]
  rw [projectRecorder, if_pos projects, projectConvergence, if_neg engine]
  exact if_pos named

/-! ### Rows up to their order -/

/-- The same convergence rows, up to the order of rows. -/
structure ConvergenceTables.Same (left right : ConvergenceTables) : Prop where
  runs : left.runs.entries.Perm right.runs.entries
  candidates : left.candidates.entries.Perm right.candidates.entries
  evaluations : left.evaluations.Perm right.evaluations

namespace ConvergenceTables.Same

theorem refl (tables : ConvergenceTables) : tables.Same tables := ⟨.refl _, .refl _, .refl _⟩

theorem trans {one two three : ConvergenceTables} (first : one.Same two) (second : two.Same three) :
    one.Same three :=
  ⟨first.runs.trans second.runs, first.candidates.trans second.candidates,
    first.evaluations.trans second.evaluations⟩

end ConvergenceTables.Same

/-- The candidate updates of an event, when it is a decision. -/
def candidateUpdates (event : AuditEvent) (run : RunKey) :
    List ((RunKey × Str) × (Option ConvergenceCandidate → ConvergenceCandidate)) :=
  if event.eventType = lit "convergence_decision" then
    (event.kind.get "candidates").listOrEmpty.filterMap fun candidate =>
      match candidate with
      | .dict fields =>
          let branchId := (Dict.get fields "branch_id").textOrEmpty
          if branchId = [] then none
          else some ((run, branchId), fun _ => convergenceCandidateRow fields)
      | _ => none
  else []

/-- The evaluation rows of an event, when it is a decision. -/
def evaluationRows (event : AuditEvent) (run : RunKey) : List ConvergenceRuleEvaluation :=
  if event.eventType = lit "convergence_decision" then ruleEvaluationRows run event.kind else []

theorem candidateUpdates_run {event : AuditEvent} {run : RunKey}
    {update : (RunKey × Str) × (Option ConvergenceCandidate → ConvergenceCandidate)}
    (member : update ∈ candidateUpdates event run) : update.1.1 = run := by
  unfold candidateUpdates at member
  split at member
  · obtain ⟨candidate, -, made⟩ := List.mem_filterMap.mp member
    split at made
    · simp only at made
      split at made
      · cases made
      · cases made
        rfl
    · cases made
  · cases member

theorem foldl_projectCandidate (run : RunKey) (items : List Json)
    (candidates : Keyed (RunKey × Str) ConvergenceCandidate) :
    items.foldl (projectCandidate run) candidates =
      candidates.upsertAll (items.filterMap fun candidate =>
        match candidate with
        | .dict fields =>
            let branchId := (Dict.get fields "branch_id").textOrEmpty
            if branchId = [] then none
            else some ((run, branchId), fun _ => convergenceCandidateRow fields)
        | _ => none) := by
  induction items generalizing candidates with
  | nil => rfl
  | cons item rest inductionHypothesis =>
      rw [List.foldl_cons, inductionHypothesis]
      cases item with
      | dict fields =>
          by_cases blank : (Dict.get fields "branch_id").textOrEmpty = []
          · simp [projectCandidate, blank]
          · simp [projectCandidate, blank, Keyed.upsertAll]
      | _ => simp [projectCandidate]

/-- What an event does to the tables, table by table. -/
theorem recordEvidence_eq (event : AuditEvent) (run : RunKey) (fresh : ConvergenceRun)
    (tables : ConvergenceTables) :
    recordEvidence event run fresh tables =
      { runs := tables.runs.upsert run fun found =>
          let updated := updateRunFromEvent event (found.getD fresh)
          { updated with evidence := insert event.id updated.evidence }
        candidates := tables.candidates.upsertAll (candidateUpdates event run)
        evaluations := tables.evaluations ++ evaluationRows event run } := by
  unfold recordEvidence candidateUpdates evaluationRows
  split
  · rw [foldl_projectCandidate]
  · simp [Keyed.upsertAll]

/-- The row a recorded event leaves. -/
def recordedRun (event : AuditEvent) (run : ConvergenceRun) : ConvergenceRun :=
  let updated := updateRunFromEvent event run
  { updated with evidence := insert event.id updated.evidence }

theorem find_recordEvidence (event : AuditEvent) (run : RunKey) (fresh : ConvergenceRun)
    (tables : ConvergenceTables) (key : RunKey) :
    (recordEvidence event run fresh tables).runs.find key =
      if key = run then some (recordedRun event ((tables.runs.find run).getD fresh))
      else tables.runs.find key := by
  rw [recordEvidence_eq, Keyed.find_upsert]
  rfl

theorem recordEvidence_same {left right : ConvergenceTables} (same : left.Same right)
    (event : AuditEvent) (run : RunKey) (fresh : ConvergenceRun) :
    (recordEvidence event run fresh left).Same (recordEvidence event run fresh right) := by
  refine ⟨?_, ?_, ?_⟩
  · apply Keyed.perm_of_find_eq
    intro key
    rw [find_recordEvidence, find_recordEvidence, Keyed.find_eq_of_perm same.runs,
      Keyed.find_eq_of_perm same.runs]
  · apply Keyed.perm_of_find_eq
    intro key
    rw [recordEvidence_eq, recordEvidence_eq, Keyed.find_upsertAll, Keyed.find_upsertAll,
      Keyed.find_eq_of_perm same.candidates]
  · rw [recordEvidence_eq, recordEvidence_eq]
    exact same.evaluations.append_right _

theorem filter_candidateUpdates_eq_nil {event : AuditEvent} {run : RunKey} {key : RunKey × Str}
    (other : key.1 ≠ run) : (candidateUpdates event run).filter (·.1 = key) = [] := by
  apply List.filter_eq_nil_iff.mpr
  intro update member same
  exact other ((congrArg Prod.fst (of_decide_eq_true same)).symm.trans (candidateUpdates_run member))

/-- Events recorded in different runs may change places. -/
theorem recordEvidence_comm (one two : AuditEvent) {oneRun twoRun : RunKey} (apart : oneRun ≠ twoRun)
    (oneFresh twoFresh : ConvergenceRun) (tables : ConvergenceTables) :
    (recordEvidence two twoRun twoFresh (recordEvidence one oneRun oneFresh tables)).Same
      (recordEvidence one oneRun oneFresh (recordEvidence two twoRun twoFresh tables)) := by
  refine ⟨?_, ?_, ?_⟩
  · apply Keyed.perm_of_find_eq
    intro key
    simp only [find_recordEvidence, if_neg apart, if_neg apart.symm]
    by_cases isOne : key = oneRun
    · rw [if_pos isOne, if_pos isOne, if_neg (isOne ▸ apart)]
    · rw [if_neg isOne, if_neg isOne]
  · apply Keyed.perm_of_find_eq
    intro key
    simp only [recordEvidence_eq, ← Keyed.upsertAll_append, Keyed.find_upsertAll,
      List.filter_append]
    by_cases isOne : key.1 = oneRun
    · have notTwo : key.1 ≠ twoRun := isOne ▸ apart
      rw [filter_candidateUpdates_eq_nil notTwo, List.append_nil, List.nil_append]
    · rw [filter_candidateUpdates_eq_nil isOne, List.append_nil, List.nil_append]
  · simp only [recordEvidence_eq, List.append_assoc]
    exact List.perm_append_comm.append_left _

/-! ### Exchanging neighbours -/

/-- The tables after an event recorded nothing, or recorded itself under a run of its engine. -/
def recordUnder (event : AuditEvent) (record : Option (Str × ConvergenceRun))
    (tables : ConvergenceTables) : ConvergenceTables :=
  match record with
  | none => tables
  | some (runId, fresh) => recordEvidence event (event.engineId, runId) fresh tables

theorem recordUnder_same {left right : ConvergenceTables} (same : left.Same right)
    (event : AuditEvent) (record : Option (Str × ConvergenceRun)) :
    (recordUnder event record left).Same (recordUnder event record right) := by
  cases record with
  | none => exact same
  | some choice => exact recordEvidence_same same event _ _

theorem recordUnder_comm {one two : AuditEvent} (apart : one.engineId ≠ two.engineId)
    (oneRecord twoRecord : Option (Str × ConvergenceRun)) (tables : ConvergenceTables) :
    (recordUnder two twoRecord (recordUnder one oneRecord tables)).Same
      (recordUnder one oneRecord (recordUnder two twoRecord tables)) := by
  cases oneRecord with
  | none => exact .refl _
  | some oneChoice =>
      cases twoRecord with
      | none => exact .refl _
      | some twoChoice =>
          apply recordEvidence_comm
          intro same
          exact apart (congrArg Prod.fst same)

theorem find_recordUnder_of_ne {event : AuditEvent} {engineId : Str}
    (other : engineId ≠ event.engineId) (record : Option (Str × ConvergenceRun))
    (tables : ConvergenceTables) (runId : Str) :
    (recordUnder event record tables).runs.find (engineId, runId) =
      tables.runs.find (engineId, runId) := by
  cases record with
  | none => rfl
  | some choice =>
      rw [recordUnder, find_recordEvidence, if_neg]
      intro same
      exact other (congrArg Prod.fst same)

/-- On tables that hold the same runs of the event's engine, the event does the same. -/
theorem projectRecorder_congr {event : AuditEvent} {left right : ConvergenceTables}
    {active : Option Str} {next : RecorderState}
    (sameRuns : ∀ runId, left.runs.find (event.engineId, runId) =
      right.runs.find (event.engineId, runId))
    (projected : projectRecorder ⟨left, active⟩ event = some next) :
    ∃ record, next.tables = recordUnder event record left ∧
      projectRecorder ⟨right, active⟩ event = some ⟨recordUnder event record right, next.active⟩ := by
  have samePhase : ∀ runId fresh,
      runPhase (recordEvidence event (event.engineId, runId) fresh left) (event.engineId, runId) =
        runPhase (recordEvidence event (event.engineId, runId) fresh right)
          (event.engineId, runId) := by
    intro runId fresh
    rw [runPhase, runPhase, find_recordEvidence, find_recordEvidence, sameRuns]
  have sameInferred : ∀ runId,
      recordInferred event runId right =
        ⟨recordUnder event (some (runId, newRun event.accountRef true)) right,
          (recordInferred event runId left).active⟩ := by
    intro runId
    simp only [recordInferred, recordUnder, samePhase]
  unfold projectRecorder projectConvergence at projected ⊢
  split at projected
  · next projects =>
      rw [if_pos projects]
      split at projected
      · next blank =>
          cases projected
          exact ⟨none, rfl, if_pos blank⟩
      · next engine =>
          rw [if_neg engine]
          simp only at projected ⊢
          split at projected
          · next named =>
              cases projected
              rw [if_pos named]
              exact ⟨some (explicitRunId event, newRun event.accountRef false), rfl, rfl⟩
          · next unnamed =>
              rw [if_neg unnamed]
              cases active with
              | some openRun =>
                  cases projected
                  refine ⟨some (openRun, newRun event.accountRef true), rfl, ?_⟩
                  exact congrArg some (sameInferred openRun)
              | none =>
                  simp only [sameRuns] at projected ⊢
                  split at projected
                  · cases projected
                  · next untaken =>
                      cases projected
                      rw [if_neg untaken]
                      refine ⟨some (inferredRunId event, newRun event.accountRef true), rfl, ?_⟩
                      exact congrArg some (sameInferred (inferredRunId event))
  · next skipped =>
      cases projected
      exact ⟨none, rfl, if_neg skipped⟩

/-- The same map of open runs, and the same rows up to their order. -/
def ConvergenceState.Same (left right : ConvergenceState) : Prop :=
  left.tables.Same right.tables ∧ left.active = right.active

theorem step_congr (state other : ConvergenceState) (event : AuditEvent) (next : ConvergenceState)
    (same : state.Same other) (stepped : state.step event = some next) :
    ∃ otherNext, other.step event = some otherNext ∧ next.Same otherNext := by
  obtain ⟨sameTables, sameActive⟩ := same
  obtain ⟨recorder, projected, rfl⟩ := Option.map_eq_some_iff.mp stepped
  rw [sameActive] at projected
  obtain ⟨record, tables, otherProjected⟩ := projectRecorder_congr
    (fun runId => Keyed.find_eq_of_perm sameTables.runs _) projected
  refine ⟨_, Option.map_eq_some_iff.mpr ⟨_, otherProjected, rfl⟩, ?_, ?_⟩
  · rw [tables]
    exact recordUnder_same sameTables event record
  · rw [sameActive]

/-- Events of different engines may change places. -/
theorem step_comm_of_engines {state next last : ConvergenceState} {one two : AuditEvent}
    (apart : one.engineId ≠ two.engineId) (first : state.step one = some next)
    (second : next.step two = some last) :
    ∃ otherNext otherLast, state.step two = some otherNext ∧ otherNext.step one = some otherLast ∧
      last.Same otherLast := by
  obtain ⟨oneRecorder, oneProjected, rfl⟩ := Option.map_eq_some_iff.mp first
  obtain ⟨twoRecorder, twoProjected, rfl⟩ := Option.map_eq_some_iff.mp second
  simp only [Function.update_of_ne apart.symm] at twoProjected
  obtain ⟨oneRecord, oneTables, -⟩ := projectRecorder_congr (fun _ => rfl) oneProjected
  rw [oneTables] at twoProjected
  obtain ⟨twoRecord, twoTables, twoFirst⟩ := projectRecorder_congr
    (fun runId => find_recordUnder_of_ne apart.symm oneRecord state.tables runId) twoProjected
  obtain ⟨record, tables, oneSecond⟩ := projectRecorder_congr
    (fun runId => (find_recordUnder_of_ne apart twoRecord state.tables runId).symm) oneProjected
  let otherNext : ConvergenceState := ⟨recordUnder two twoRecord state.tables,
    Function.update state.active two.engineId twoRecorder.active⟩
  have unchanged : otherNext.active one.engineId = state.active one.engineId :=
    Function.update_of_ne apart _ _
  rw [← unchanged] at oneSecond
  refine ⟨otherNext, _, step_of_projected state twoFirst, step_of_projected otherNext oneSecond,
    ?_, ?_⟩
  · rw [twoTables, ← oneTables, tables]
    exact recordUnder_comm apart record twoRecord state.tables
  · exact Function.update_comm apart _ _ _

/-- Events that name different runs may change places. -/
theorem step_comm_of_named {state next last : ConvergenceState} {one two : AuditEvent}
    (sameEngine : one.engineId = two.engineId) (oneNamed : namesRun one) (twoNamed : namesRun two)
    (apart : explicitRunId one ≠ explicitRunId two) (first : state.step one = some next)
    (second : next.step two = some last) :
    ∃ otherNext otherLast, state.step two = some otherNext ∧ otherNext.step one = some otherLast ∧
      last.Same otherLast := by
  by_cases engine : one.engineId = []
  · rw [step_blank engine, Option.some.injEq] at first
    subst first
    exact ⟨last, last, second, step_blank engine last, .refl _, rfl⟩
  · have twoEngine : two.engineId ≠ [] := sameEngine ▸ engine
    rw [step_of_projected _ (projectRecorder_named oneNamed engine _), Option.some.injEq] at first
    subst first
    rw [step_of_projected _ (projectRecorder_named twoNamed twoEngine _), Option.some.injEq] at second
    subst second
    refine ⟨_, _, step_of_projected _ (projectRecorder_named twoNamed twoEngine _),
      step_of_projected _ (projectRecorder_named oneNamed engine _), ?_, ?_⟩
    · apply recordEvidence_comm
      intro same
      exact apart (congrArg Prod.snd same)
    · simp only [sameEngine]

/-- Independent neighbours may change places. -/
theorem step_comm (state : ConvergenceState) (one two : AuditEvent) (next last : ConvergenceState)
    (independent : ConvergenceIndependent one two) (first : state.step one = some next)
    (second : next.step two = some last) :
    ∃ otherNext otherLast, state.step two = some otherNext ∧ otherNext.step one = some otherLast ∧
      last.Same otherLast := by
  rcases independent with engines | oneIdle | twoIdle | ⟨oneNamed, twoNamed, apart⟩
  · exact step_comm_of_engines engines first second
  · rw [step_idle oneIdle, Option.some.injEq] at first
    subst first
    exact ⟨last, last, second, step_idle oneIdle last, .refl _, rfl⟩
  · rw [step_idle twoIdle, Option.some.injEq] at second
    subst second
    exact ⟨state, next, step_idle twoIdle state, first, .refl _, rfl⟩
  · by_cases sameEngine : one.engineId = two.engineId
    · exact step_comm_of_named sameEngine oneNamed twoNamed apart first second
    · exact step_comm_of_engines sameEngine first second

/-- Sequences that differ by independent neighbours leave the same rows. -/
theorem reorders_sameTables {left right : List AuditEvent}
    (reorders : Reorders ConvergenceIndependent left right) {state final : ConvergenceState}
    (replayed : replay ConvergenceState.step state left = some final) :
    ∃ other, replay ConvergenceState.step state right = some other ∧ final.Same other := by
  apply reorders.replay _ _ step_congr step_comm replayed
  · intro state
    exact ⟨.refl _, rfl⟩
  · intro one two three first second
    exact ⟨first.1.trans second.1, first.2.trans second.2⟩

end Goggles
