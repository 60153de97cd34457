/-
Module: Goggles.Projection.Convergence
Purpose: The convergence projection: explicit runs, runs stitched from events that name none, the
  candidates and rule evaluations of a decision, and the lookup of the run left open by earlier
  uploads.
Trusted boundary: forensics/projections.py, `active_inferred_runs_for_events` to
  `project_convergence_decision`
Main exports: eventMayNeedInferredConvergenceState, RecorderState, updateRunFromEvent,
  projectConvergence, activeInferredRun
-/
import Goggles.Store.Tables

namespace Goggles

/-! ### Events -/

/-- `CONVERGENCE_EVENT_TYPES`. -/
def convergenceEventTypes : List Str := ["convergence_run_state", "convergence_decision"]

/-- `INFERRED_CONVERGENCE_TERMINAL_PHASES`. -/
def inferredConvergenceTerminalPhases : List Str :=
  ["applied", "blocked", "failed", "stable", "unrecoverable"]

/-- `INFERRED_CONVERGENCE_TERMINAL_EPOCH_STATES`. -/
def inferredConvergenceTerminalEpochStates : List Str :=
  ["committed", "failed", "stable", "unrecoverable"]

/-- `str(context.get("run_id") or "")`: the run an event names, blank when it names none. -/
def explicitRunId (event : AuditEvent) : Str :=
  (event.contextConvergence.get "run_id").textOrEmpty

def isEpochStateChanged (event : AuditEvent) : Bool :=
  event.eventType == lit "epoch_state_changed"

/-- `event_may_need_inferred_convergence_state`. -/
def eventMayNeedInferredConvergenceState (event : AuditEvent) : Bool :=
  convergenceEventTypes.contains event.eventType || isEpochStateChanged event ||
    (!event.contextConvergence.isEmpty && (explicitRunId event).isEmpty)

/-- `inferred_convergence_event_is_terminal`. -/
def inferredConvergenceEventIsTerminal (event : AuditEvent) (phase : Str) : Bool :=
  if isEpochStateChanged event then inferredConvergenceTerminalEpochStates.contains event.newState
  else if event.eventType = lit "convergence_run_state" then
    inferredConvergenceTerminalPhases.contains phase
  else false

/-- `inferred_phase_for_event`. -/
def inferredPhaseForEvent (event : AuditEvent) : Str :=
  if event.eventType = lit "convergence_decision" then
    if event.selectedBranchId ≠ [] then "selected" else "decision"
  else if isEpochStateChanged event then event.newState
  else []

/-- The phase an event reports. -/
def phaseForEvent (event : AuditEvent) : Str :=
  let inferred := Json.str (inferredPhaseForEvent event)
  (((event.kind.get "phase").orElse (event.contextConvergence.get "phase")).orElse
    (inferred.orElse (.str event.outcome))).textOrEmpty

/-! ### Runs -/

/-- A run row as it is created. -/
def newRun (accountRef : Str) (inferred : Bool) : ConvergenceRun where
  accountRef := accountRef
  inferred := inferred
  phase := []
  startedAtMs := none
  endedAtMs := none
  currentTipEpoch := none
  selectedBranchId := []
  selectedForkEpoch := none
  selectedTipEpoch := none
  maxRewindCommits := none
  losingBranchIds := []
  errorKinds := []
  evidence := ∅

/-- The earlier of a bound and an instant. -/
def startBound (bound wallTimeMs : Option Nat) : Option Nat :=
  match wallTimeMs, bound with
  | none, _ => bound
  | some ms, none => some ms
  | some ms, some first => some (min ms first)

/-- The later of a bound and an instant. -/
def endBound (bound wallTimeMs : Option Nat) : Option Nat :=
  match wallTimeMs, bound with
  | none, _ => bound
  | some ms, none => some ms
  | some ms, some last => some (max ms last)

/-- A list of the kind, when it is one, over the stored one. -/
def overwriteList (kind : Dict) (field : Str) (stored : List Json) : List Json :=
  match kind.get field with
  | .list value => value
  | _ => stored

/-- `update_run_from_event`. -/
def updateRunFromEvent (event : AuditEvent) (run : ConvergenceRun) : ConvergenceRun :=
  let phase := phaseForEvent event
  { accountRef :=
      if event.accountRef ≠ [] ∧ run.accountRef = [] then event.accountRef else run.accountRef
    phase := if phase = [] then run.phase else phase
    inferred :=
      let declared := event.contextConvergence.get "inferred"
      if declared = .null then run.inferred else declared.truthy
    startedAtMs := startBound run.startedAtMs event.wallTimeMs
    endedAtMs := endBound run.endedAtMs event.wallTimeMs
    currentTipEpoch := (event.number "current_tip_epoch").or run.currentTipEpoch
    selectedBranchId :=
      if event.selectedBranchId = [] then run.selectedBranchId else event.selectedBranchId
    selectedForkEpoch := (event.number "selected_fork_epoch").or run.selectedForkEpoch
    selectedTipEpoch := (event.number "selected_tip_epoch").or run.selectedTipEpoch
    maxRewindCommits := (event.number "max_rewind_commits").or run.maxRewindCommits
    losingBranchIds := overwriteList event.kind "losing_branch_ids" run.losingBranchIds
    errorKinds := overwriteList event.kind "error_kinds" run.errorKinds
    evidence := run.evidence }

/-! ### Decisions -/

/-- `bool_or_none`. -/
def boolOrNone : Json → Option Bool
  | .bool value => some value
  | _ => none

/-- One candidate as the row it is stored as. -/
def convergenceCandidateRow (candidate : Dict) : ConvergenceCandidate where
  forkEpoch := valueIfInt (candidate.get "fork_epoch")
  tipEpoch := valueIfInt (candidate.get "tip_epoch")
  commitIds := (candidate.get "commit_ids").listOrEmpty
  commitCount := valueIfInt (candidate.get "commit_count")
  stateDigest := (candidate.get "state_digest").textOrEmpty
  tipDigest := (candidate.get "tip_digest").textOrEmpty
  tipPriority := (candidate.get "tip_priority").textOrEmpty
  tipCommitterRef := (candidate.get "tip_committer_ref").textOrEmpty
  tipCommitterPubkeyHex := (candidate.get "tip_committer_pubkey_hex").textOrEmpty
  retainedAnchorStatus := (candidate.get "retained_anchor_status").textOrEmpty
  lastInputTimeMs := valueIfInt (candidate.get "last_input_time_ms")
  eligible := boolOrNone (candidate.get "eligible")
  rejectionReasons := (candidate.get "rejection_reasons").listOrEmpty
  score := (candidate.get "score").dictOrEmpty
  appWitnesses := (candidate.get "app_witnesses").listOrEmpty

/-- One iteration of the candidate loop: `update_or_create` on the run and branch. -/
def projectCandidate (run : RunKey) (candidates : Keyed (RunKey × Str) ConvergenceCandidate)
    (candidate : Json) : Keyed (RunKey × Str) ConvergenceCandidate :=
  match candidate with
  | .dict fields =>
      let branchId := (Dict.get fields "branch_id").textOrEmpty
      if branchId = [] then candidates
      else candidates.upsert (run, branchId) fun _ => convergenceCandidateRow fields
  | _ => candidates

/-- One rule of a full trace. -/
def ruleTraceRow (run : RunKey) (sequence : Nat) (rule : Dict) : ConvergenceRuleEvaluation where
  run := run
  ruleName := (rule.get "rule_name").textOrEmpty
  scope := (rule.get "scope").textOrEmpty
  candidateBranchId := (rule.get "candidate_branch_id").textOrEmpty
  otherCandidateBranchId := (rule.get "other_candidate_branch_id").textOrEmpty
  inputs := (rule.get "inputs").dictOrEmpty
  result := if rule.get "result" = .null then .dict [] else rule.get "result"
  decisive := (rule.get "decisive").truthy
  selectedBranchId := (rule.get "selected_branch_id").textOrEmpty
  rejectedBranchId := (rule.get "rejected_branch_id").textOrEmpty
  sequence := sequence

/-- The rows of a rule trace, from a sequence number on. -/
def ruleTraceRows (run : RunKey) (sequence : Nat) : List Json → List ConvergenceRuleEvaluation
  | [] => []
  | .dict rule :: rest => ruleTraceRow run sequence rule :: ruleTraceRows run (sequence + 1) rest
  | _ :: rest => ruleTraceRows run (sequence + 1) rest

/-- The row of a decisive rule that comes without a trace. -/
def decisiveRuleRow (run : RunKey) (kind : Dict) (decisiveRule : Str) :
    ConvergenceRuleEvaluation where
  run := run
  ruleName := decisiveRule
  scope := []
  candidateBranchId := []
  otherCandidateBranchId := []
  inputs := []
  result := .dict []
  decisive := true
  selectedBranchId := (kind.get "selected_branch_id").textOrEmpty
  rejectedBranchId := []
  sequence := 0

/-- The evaluation rows of a decision. -/
def ruleEvaluationRows (run : RunKey) (kind : Dict) : List ConvergenceRuleEvaluation :=
  let ruleTrace := (kind.get "rule_trace").listOrEmpty
  ruleTraceRows run 0 ruleTrace ++
    match kind.get "decisive_rule" with
    | .str (char :: rest) =>
        if ruleTrace = [] then [decisiveRuleRow run kind (char :: rest)] else []
    | _ => []

/-! ### One event -/

/-- What one recorder's event reads and writes: the convergence rows of the group, and the
recorder's entry in the map of open inferred runs. -/
structure RecorderState where
  tables : ConvergenceTables
  active : Option Str
deriving DecidableEq

/-- `should_project_convergence`, given the recorder's open run. -/
def shouldProjectConvergence (event : AuditEvent) (active : Option Str) : Bool :=
  convergenceEventTypes.contains event.eventType || !event.contextConvergence.isEmpty ||
    (isEpochStateChanged event && !event.engineId.isEmpty && active.isSome)

/-- The run id an inferred run is created under. -/
def inferredRunId (event : AuditEvent) : Str :=
  lit "inferred-" ++ event.engineId ++ lit "-" ++ natText event.id

/-- Update a run from an event, add the event to its evidence, and project its decision. -/
def recordEvidence (event : AuditEvent) (run : RunKey) (fresh : ConvergenceRun)
    (tables : ConvergenceTables) : ConvergenceTables :=
  let runs := tables.runs.upsert run fun found =>
    let updated := updateRunFromEvent event (found.getD fresh)
    { updated with evidence := insert event.id updated.evidence }
  if event.eventType = lit "convergence_decision" then
    { runs := runs
      candidates := (event.kind.get "candidates").listOrEmpty.foldl (projectCandidate run)
        tables.candidates
      evaluations := tables.evaluations ++ ruleEvaluationRows run event.kind }
  else { tables with runs := runs }

/-- The phase of a run. -/
def runPhase (tables : ConvergenceTables) (run : RunKey) : Str :=
  ((tables.runs.find run).map (·.phase)).getD []

/-- Record an event under an inferred run, and close the run when the event is terminal. -/
def recordInferred (event : AuditEvent) (runId : Str) (tables : ConvergenceTables) :
    RecorderState :=
  let run := (event.engineId, runId)
  let recorded := recordEvidence event run (newRun event.accountRef true) tables
  { tables := recorded
    active :=
      if inferredConvergenceEventIsTerminal event (runPhase recorded run) then none
      else some runId }

/-- `project_convergence`; `none` is the `IntegrityError` of a new inferred run whose id is taken. -/
def projectConvergence (event : AuditEvent) (state : RecorderState) : Option RecorderState :=
  if event.engineId = [] then some state
  else
    let runId := explicitRunId event
    if runId ≠ [] then
      some ⟨recordEvidence event (event.engineId, runId) (newRun event.accountRef false)
        state.tables, none⟩
    else
      match state.active with
      | some openRun => some (recordInferred event openRun state.tables)
      | none =>
          if (state.tables.runs.find (event.engineId, inferredRunId event)).isSome then none
          else some (recordInferred event (inferredRunId event) state.tables)

/-- The convergence part of `project_event`. -/
def projectRecorder (state : RecorderState) (event : AuditEvent) : Option RecorderState :=
  if shouldProjectConvergence event state.active then projectConvergence event state
  else some state

/-- What `project_convergence` can do to the runs: nothing, or record the event in one of them. -/
theorem projectRecorder_runs {event : AuditEvent} {state next : RecorderState}
    (projected : projectRecorder state event = some next) :
    next.tables = state.tables ∨
      ∃ run accountRef inferred,
        next.tables = recordEvidence event run (newRun accountRef inferred) state.tables := by
  unfold projectRecorder projectConvergence at projected
  split at projected
  · split at projected
    · cases projected
      exact .inl rfl
    · simp only at projected
      split at projected
      · cases projected
        exact .inr ⟨_, _, _, rfl⟩
      · split at projected
        · cases projected
          exact .inr ⟨_, _, _, rfl⟩
        · split at projected
          · cases projected
          · cases projected
            exact .inr ⟨_, _, _, rfl⟩
  · cases projected
    exact .inl rfl

/-! ### The open run of an earlier upload -/

/-- The later of two runs in the order of `started_at_ms` descending, NULL first, then newest. -/
def startsNoEarlier (best next : ConvergenceRun) : Bool :=
  match next.startedAtMs, best.startedAtMs with
  | none, _ => true
  | some _, none => false
  | some started, some other => other ≤ started

/-- The scan for the first row of that order, over rows in creation order. -/
def latestRun : Option (RunKey × ConvergenceRun) → List (RunKey × ConvergenceRun) →
    Option (RunKey × ConvergenceRun)
  | best, [] => best
  | none, next :: rest => latestRun (some next) rest
  | some best, next :: rest =>
      latestRun (some (if startsNoEarlier best.2 next.2 then next else best)) rest

/-- The latest inferred run of an engine. -/
def latestInferredRun (runs : Keyed RunKey ConvergenceRun) (engineId : Str) :
    Option (RunKey × ConvergenceRun) :=
  latestRun none (runs.entries.filter fun entry => entry.1.1 == engineId && entry.2.inferred)

/-- The evidence of a run that comes last in key order. -/
def lastEvidence (events : List AuditEvent) (run : ConvergenceRun) : Option AuditEvent :=
  (inOrder eventOrderKey (events.filter fun event => event.id ∈ run.evidence)).getLast?

/-- `run_is_active_inferred`. -/
def runIsActiveInferred (events : List AuditEvent) (run : ConvergenceRun) : Bool :=
  match lastEvidence events run with
  | none => true
  | some last => !inferredConvergenceEventIsTerminal last run.phase

/-- The entry `active_inferred_runs_for_events` makes for one recorder. -/
def activeInferredRun (events : List AuditEvent) (runs : Keyed RunKey ConvergenceRun)
    (engineId : Str) : Option Str :=
  match latestInferredRun runs engineId with
  | none => none
  | some (key, run) => if runIsActiveInferred events run then some key.2 else none

end Goggles
