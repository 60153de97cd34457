/-
Module: Goggles.Refinement.Convergence
Purpose: When the convergence rows kept upload by upload are those of a rebuild: the rows do not tell
  that a named run closed an inferred one, and the backfill check passes over events that only name
  a run.
Trusted boundary: none beyond the modules it imports
Main exports: ConvergenceCurrent, ConvergenceKept, KeepsConvergence, convergenceCurrent_of_kept
-/
import Goggles.Projection.Stitched
import Goggles.Store.Projected

namespace Goggles

/-! ### Two maps of open runs -/

/-- An engine's first event about convergence. -/
def firstRelevant (engineId : Str) (events : List AuditEvent) : Option AuditEvent :=
  events.find? fun event => decide (event.engineId = engineId ∧ ConvergenceRelevant event)

theorem firstRelevant_cons_of_not {engineId : Str} {event : AuditEvent} {rest : List AuditEvent}
    (passed : ¬ (event.engineId = engineId ∧ ConvergenceRelevant event)) :
    firstRelevant engineId (event :: rest) = firstRelevant engineId rest :=
  List.find?_cons_of_neg (by simpa using passed)

theorem firstRelevant_spec {engineId : Str} {events : List AuditEvent} {first : AuditEvent}
    (isFirst : firstRelevant engineId events = some first) :
    first ∈ events ∧ first.engineId = engineId ∧ ConvergenceRelevant first := by
  rw [firstRelevant] at isFirst
  exact ⟨List.mem_of_find?_eq_some isFirst, by simpa using List.find?_some isFirst⟩

/-- Maps that differ only for engines whose next event names its run leave the same rows. -/
theorem replay_resumed {events : List AuditEvent} (sound : SoundEvents events)
    {tables : ConvergenceTables} {one two : Str → Option Str}
    (agree : ∀ engineId, one engineId = two engineId ∨
      ∀ first, firstRelevant engineId events = some first → namesRun first)
    {final : ConvergenceState}
    (replayed : replay ConvergenceState.step ⟨tables, one⟩ events = some final) :
    ∃ other, replay ConvergenceState.step ⟨tables, two⟩ events = some other ∧
      other.tables = final.tables := by
  induction events generalizing tables one two with
  | nil =>
      cases replayed
      exact ⟨_, rfl, rfl⟩
  | cons event rest inductionHypothesis =>
      have restSound : SoundEvents rest := fun other member =>
        sound other (List.mem_cons_of_mem event member)
      rw [replay_cons, Option.bind_eq_some_iff] at replayed
      obtain ⟨next, stepped, rested⟩ := replayed
      by_cases relevant : ConvergenceRelevant event
      · -- after the event, the two maps have the same entry for its engine
        have resumed : ∃ recorder,
            projectRecorder ⟨tables, one event.engineId⟩ event = some recorder ∧
              projectRecorder ⟨tables, two event.engineId⟩ event = some recorder := by
          rcases agree event.engineId with same | named
          · obtain ⟨recorder, projected, -⟩ := Option.map_eq_some_iff.mp stepped
            exact ⟨recorder, projected, same ▸ projected⟩
          · have isFirst : firstRelevant event.engineId (event :: rest) = some event :=
              List.find?_cons_of_pos (by simpa using relevant)
            have engine := (sound event List.mem_cons_self).engine
            exact ⟨_, projectRecorder_named (named event isFirst) engine _,
              projectRecorder_named (named event isFirst) engine _⟩
        obtain ⟨recorder, oneProjected, twoProjected⟩ := resumed
        rw [step_of_projected ⟨tables, one⟩ oneProjected, Option.some.injEq] at stepped
        subst stepped
        rw [replay_cons, step_of_projected ⟨tables, two⟩ twoProjected, Option.bind_some]
        apply inductionHypothesis restSound _ rested
        intro engineId
        by_cases mine : engineId = event.engineId
        · subst mine
          exact .inl (by simp)
        · have later := agree engineId
          rw [firstRelevant_cons_of_not fun both => mine both.1.symm] at later
          simpa [Function.update_of_ne mine] using later
      · rw [step_idle relevant, Option.some.injEq] at stepped
        subst stepped
        rw [replay_cons, step_idle relevant, Option.bind_some]
        apply inductionHypothesis restSound _ rested
        intro engineId
        have later := agree engineId
        rwa [firstRelevant_cons_of_not fun both => relevant both.2] at later

/-! ### The property and its condition -/

/-- The convergence rows of every group are those of a rebuild. -/
def ConvergenceCurrent (store : Store) : Prop :=
  ∀ groupId, ∃ rows, rebuildGroup store.events groupId = some rows ∧
    (store.projections groupId).convergence.Same rows.convergence

/-- The new events of a group continue the stored ones: a new event that comes before a stored one is
independent of it; and an engine whose next event joins whatever run is open has no newest inferred
run that looks open though a named run closed it. -/
structure ConvergenceKept (stored old new : List AuditEvent) (runs : Keyed RunKey ConvergenceRun) :
    Prop where
  order : ∀ one ∈ old, ∀ two ∈ new, eventOrderKey two < eventOrderKey one →
    ConvergenceIndependent one two
  resumed : ∀ engineId first,
    firstRelevant engineId (inOrder eventOrderKey new) = some first → ¬ namesRun first →
      ¬ Interrupted stored old runs engineId

/-- In every group that is not rebuilt, the events an upload stores continue the stored ones. -/
def KeepsConvergence (env : Env) (store : Store) (upload : Upload) : Prop :=
  ∀ rawText lines next, StoredUpload env store upload rawText lines next → ∀ groupId,
    ¬ NeedsBackfill (store.groupEvents groupId)
        (uploadGroupEvents env store upload lines groupId) →
      ConvergenceKept store.events (store.groupEvents groupId)
        (uploadGroupEvents env store upload lines groupId)
        (store.projections groupId).convergence.runs

/-! ### Runs -/

/-- The convergence rows of each group are those of its events in an order that differs from key order
by independent neighbours. -/
structure ConvergenceProjected (store : Store) : Prop where
  formed : WellFormed store
  order : ∀ groupId, ∃ arranged final,
    Reorders ConvergenceIndependent arranged
        (inOrder eventOrderKey (store.groupEvents groupId)) ∧
      replay ConvergenceState.step .cleared arranged = some final ∧
      (store.projections groupId).convergence = final.tables

theorem convergenceProjected_empty : ConvergenceProjected .empty where
  formed := .empty
  order := fun _ => ⟨[], .cleared, .refl _, rfl, rfl⟩

theorem ConvergenceProjected.current {store : Store} (projected : ConvergenceProjected store) :
    ConvergenceCurrent store := by
  intro groupId
  obtain ⟨arranged, final, reorders, replayed, shown⟩ := projected.order groupId
  obtain ⟨other, sorted, same⟩ := reorders_sameTables reorders replayed
  have rebuilt := convergence_replay .cleared
    (inOrder eventOrderKey (validGroupEvents store.events groupId))
  have start : GroupState.cleared.convergence = .cleared := rfl
  rw [start] at rebuilt
  rw [Store.groupEvents] at sorted
  rw [sorted, Option.map_eq_some_iff] at rebuilt
  obtain ⟨state, stateReplayed, stateSame⟩ := rebuilt
  refine ⟨state.projections, ?_, ?_⟩
  · rw [rebuildGroup, stateReplayed, Option.map_some]
  · have tables : state.projections.convergence = other.tables :=
      congrArg ConvergenceState.tables stateSame
    rw [shown, tables]
    exact same.1

section Step

variable {env : Env} {store next : Store} {upload : Upload} {rawText : Str}
  {lines : List ParsedLine}

/-- The rows of a group that was rebuilt. -/
theorem convergence_rebuilt {groupId : Nat}
    (rebuilt : rebuildGroup next.events groupId = some (next.projections groupId)) :
    ∃ arranged final,
      Reorders ConvergenceIndependent arranged
          (inOrder eventOrderKey (next.groupEvents groupId)) ∧
        replay ConvergenceState.step .cleared arranged = some final ∧
        (next.projections groupId).convergence = final.tables := by
  obtain ⟨state, replayed, same⟩ := Option.map_eq_some_iff.mp rebuilt
  refine ⟨_, state.convergence, .refl _, convergence_of_replay replayed, ?_⟩
  rw [← same]
  rfl

/-- The run the lookup takes for an engine's newest inferred one is a row of the engine. -/
theorem find_of_latestInferredRun {runs : Keyed RunKey ConvergenceRun} {engineId : Str}
    {key : RunKey} {row : ConvergenceRun}
    (latest : latestInferredRun runs engineId = some (key, row)) :
    runs.find key = some row ∧ key.1 = engineId := by
  have listed := (mem_of_latestRun latest).resolve_left nofun
  obtain ⟨entry, facts⟩ := List.mem_filter.mp listed
  rw [Bool.and_eq_true, beq_iff_eq] at facts
  exact ⟨Keyed.find_eq_some_iff.mpr entry, facts.1⟩

/-- The new events do not change which runs were interrupted. -/
theorem not_interrupted_of_grown {stored grown groupEvents done : List AuditEvent}
    {state : ConvergenceState} {engineId : Str} (order : ProjectedOrder stored groupEvents done)
    (grownOrder : ProjectedOrder grown groupEvents done) (stitched : Stitched done state)
    (whole : ¬ Interrupted stored groupEvents state.tables.runs engineId) :
    ¬ Interrupted grown groupEvents state.tables.runs engineId := by
  rintro ⟨key, row, last, latest, evidence, stays, after⟩
  obtain ⟨found, -⟩ := find_of_latestInferredRun latest
  have run := stitched.rows key.1 key.2 row found
  obtain ⟨member, cited, -, -, greatest⟩ := grownOrder.of_lastEvidence run evidence
  exact whole ⟨key, row, last, latest, order.lastEvidence_eq run member cited greatest, stays, after⟩

/-- The rows of a group that was extended. -/
theorem convergence_extended (projected : ConvergenceProjected store)
    (stored : StoredUpload env store upload rawText lines next) {groupId : Nat}
    (kept : ConvergenceKept store.events (store.groupEvents groupId)
      (uploadGroupEvents env store upload lines groupId)
      (store.projections groupId).convergence.runs)
    (extended : GroupExtended next.events (uploadGroupEvents env store upload lines groupId)
      (store.projections groupId) (next.projections groupId)) :
    ∃ arranged final,
      Reorders ConvergenceIndependent arranged
          (inOrder eventOrderKey (next.groupEvents groupId)) ∧
        replay ConvergenceState.step .cleared arranged = some final ∧
        (next.projections groupId).convergence = final.tables := by
  obtain ⟨done, state, reorders, replayed, shown⟩ := projected.order groupId
  obtain ⟨final, extension, after⟩ := extended.replayed
  have formedNext := projected.formed.storedUpload stored
  have grown := stored.groupEvents_next groupId
  have soundNext : SoundEvents (next.groupEvents groupId) := fun event member =>
    formedNext.sound event (List.mem_of_mem_filter member)
  have oldSound : SoundEvents (store.groupEvents groupId) := fun event member =>
    projected.formed.sound event (List.mem_of_mem_filter member)
  have newSound : SoundEvents
      (inOrder eventOrderKey (uploadGroupEvents env store upload lines groupId)) := by
    intro event member
    apply soundNext
    rw [grown]
    exact List.mem_append_right _ (mem_inOrder.mp member)
  have order : ProjectedOrder store.events (store.groupEvents groupId) done :=
    ⟨reorders, oldSound, List.filter_sublist, projected.formed.eventIds⟩
  have grownOrder : ProjectedOrder next.events (store.groupEvents groupId) done := by
    refine ⟨reorders, oldSound, List.filter_sublist.trans ?_, formedNext.eventIds⟩
    rw [stored.events]
    exact List.sublist_append_left _ _
  have stitched : Stitched done state := by
    have doneSound : SoundEvents ([] ++ done) := fun event member =>
      oldSound event (order.mem_iff.mp member)
    have doneIds : (([] ++ done).map AuditEvent.id).Nodup := by
      have perm := reorders.perm.trans (perm_inOrder eventOrderKey (store.groupEvents groupId))
      exact ((perm.map AuditEvent.id).nodup_iff).mpr
        (projected.formed.eventIds.sublist (List.filter_sublist.map AuditEvent.id))
    exact stitched_replay .cleared doneSound doneIds replayed
  -- the new events start from a map that gives the same rows as the one the old events left
  have agree : ∀ engineId,
      openRuns next.events state.tables.runs (uploadGroupEvents env store upload lines groupId)
          engineId = state.active engineId ∨
        ∀ first, firstRelevant engineId
          (inOrder eventOrderKey (uploadGroupEvents env store upload lines groupId)) = some first →
            namesRun first := by
    intro engineId
    by_cases joins : ∃ first, firstRelevant engineId
        (inOrder eventOrderKey (uploadGroupEvents env store upload lines groupId)) = some first ∧
          ¬ namesRun first
    · obtain ⟨first, isFirst, unnamed⟩ := joins
      obtain ⟨member, engine, relevant⟩ := firstRelevant_spec isFirst
      have needed : engineId ≠ [] ∧
          ∃ event ∈ uploadGroupEvents env store upload lines groupId, event.engineId = engineId ∧
            eventMayNeedInferredConvergenceState event = true :=
        ⟨engine ▸ (newSound first member).engine, first, mem_inOrder.mp member, engine,
          relevant.resolve_left unnamed⟩
      have whole := kept.resumed engineId first isFirst unnamed
      rw [shown] at whole
      rw [openRuns, if_pos needed]
      exact .inl (grownOrder.activeInferredRun_eq stitched
        (not_interrupted_of_grown order grownOrder stitched whole))
    · refine .inr ?_
      intro first isFirst
      by_contra unnamed
      exact joins ⟨first, isFirst, unnamed⟩
  have read := convergence_of_replay extension
  simp only [GroupState.convergence, shown] at read
  obtain ⟨other, resumed, sameTables⟩ := replay_resumed newSound agree read
  refine ⟨done ++ inOrder eventOrderKey (uploadGroupEvents env store upload lines groupId), other,
    ?_, ?_, ?_⟩
  · rw [grown]
    apply (reorders.append_right _).trans
    apply reorders_inOrder
    · rw [← grown]
      exact formedNext.distinguishes groupId
    · exact kept.order
  · rw [replay_append, replayed, Option.bind_some]
    exact resumed
  · rw [after, sameTables]

/-- An upload that continues the stored events keeps the rows in an order that amounts to key order. -/
theorem ConvergenceProjected.afterUpload (projected : ConvergenceProjected store)
    (kept : KeepsConvergence env store upload) :
    ConvergenceProjected (afterUpload env store upload) := by
  refine ⟨projected.formed.afterUpload env upload, ?_⟩
  intro groupId
  rcases afterUpload_cases env store upload with ⟨rejected, same⟩ | same | ⟨rawText, lines, stored⟩
  · rw [same]
    exact projected.order groupId
  · rw [same]
    exact projected.order groupId
  · rcases stored.projected_group projected.formed groupId with ⟨-, rebuilt⟩ | ⟨notNeeded, extended⟩
    · exact convergence_rebuilt rebuilt
    · exact convergence_extended projected stored (kept rawText lines _ stored groupId notNeeded)
        extended

end Step

/-- Later events continue stored ones that name no runs. -/
theorem keepsConvergence_of_appended {env : Env} {store : Store} {upload : Upload}
    (unnamed : ∀ one ∈ store.events, ¬ namesRun one)
    (appended : ∀ one ∈ store.events,
      ∀ two ∈ (uploadScan env store upload (validatedLines env upload)).events,
        ¬ eventOrderKey two < eventOrderKey one) : KeepsConvergence env store upload := by
  intro rawText lines next stored groupId _
  refine ⟨?_, ?_⟩
  · intro one oneMember two twoMember before
    have twoNew := List.mem_of_mem_filter twoMember
    rw [stored.lines_eq] at twoNew
    exact absurd before (appended one (List.mem_of_mem_filter oneMember) two twoNew)
  · rintro engineId first - - ⟨-, -, -, -, -, -, event, member, -, named, -⟩
    exact unnamed event (List.mem_of_mem_filter member) named

/-- In every run of uploads that each continue the stored events, the convergence rows are those of a
rebuild in every state. -/
theorem convergenceCurrent_of_kept (env : Env) (uploads : List Upload)
    (kept : EveryStep (afterUpload env) (KeepsConvergence env) .empty uploads) :
    AlongRun (afterUpload env) ConvergenceCurrent .empty uploads := by
  have preserved : ∀ store upload, ConvergenceProjected store → KeepsConvergence env store upload →
      ConvergenceProjected (afterUpload env store upload) := by
    intro store upload projected keeps
    exact projected.afterUpload keeps
  have along := alongRun_of_everyStep preserved convergenceProjected_empty kept
  apply alongRun_prefix_iff.mpr
  intro first isPrefix
  exact (alongRun_prefix_iff.mp along first isPrefix).current

/-- A record of an engine that evaluates branches. -/
def evaluatingRecord (wallTimeMs : Nat) (context : Str) : Str :=
  recordText (lit "e") (lit "ab") wallTimeMs context
    (lit "\x7b\"type\":\"convergence_run_state\"," ++ lit "\"phase\":\"evaluating\"\x7d")

/-- The context that names the run `r`. -/
def runContext : Str := lit "\"context\":\x7b\"convergence\":\x7b\"run_id\":\"r\"\x7d\x7d,"

/-- Knows the records at 100, at 200 with a named run, and at 300. -/
def evaluatingEnv : Env :=
  digestEnv
    [(evaluatingRecord 100 [],
        lit "32394aad24b4a4cdc6b72c43dca4bf13" ++ lit "f873a4dd57f6462b9e313122d1913351"),
      (evaluatingRecord 200 runContext,
        lit "21cfe5234edce1063bf3a3454470ca9e" ++ lit "4783b6956a3306d09b8016cabf968c4e"),
      (evaluatingRecord 300 [],
        lit "f7ccba9fa68a7640dc34bd9be5739f31" ++ lit "b5b9c34df1f6f91d928611f8c64cdda2")]

/-- The record at 300 joins the run of the record at 100. -/
theorem convergenceCurrent_joinedUploads :
    AlongRun (afterUpload evaluatingEnv) ConvergenceCurrent .empty
      [uploadOf [evaluatingRecord 100 []], uploadOf [evaluatingRecord 300 []]] := by
  apply convergenceCurrent_of_kept
  refine ⟨?_, ?_, trivial⟩
  · apply keepsConvergence_of_appended
    · decide +kernel
    · decide +kernel
  · apply keepsConvergence_of_appended
    · decide +kernel
    · decide +kernel

/-- Each record in a file of its own, in the order of time. -/
def evaluatingUploads : List Upload :=
  [uploadOf [evaluatingRecord 100 []], uploadOf [evaluatingRecord 200 runContext],
    uploadOf [evaluatingRecord 300 []]]

/-- The record at 300 joins the run the named one had closed: two runs, where a rebuild makes three. -/
theorem convergenceCurrent_fails_evaluatingUploads :
    let store := run (afterUpload evaluatingEnv) .empty evaluatingUploads
    (store.projections 1).convergence.runs.entries.length = 2 ∧
      (rebuildGroup store.events 1).map (·.convergence.runs.entries.length) = some 3 ∧
      ¬ ConvergenceCurrent store := by
  intro store
  have facts : (store.projections 1).convergence.runs.entries.length = 2 ∧
      (rebuildGroup store.events 1).map (·.convergence.runs.entries.length) = some 3 := by
    decide +kernel
  obtain ⟨kept, rebuilt⟩ := facts
  refine ⟨kept, rebuilt, ?_⟩
  intro current
  obtain ⟨rows, built, same⟩ := current 1
  rw [built, Option.map_some, Option.some.injEq] at rebuilt
  have lengths := same.runs.length_eq
  rw [kept, rebuilt] at lengths
  exact absurd lengths (by decide)

end Goggles
