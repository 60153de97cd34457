/-
Module: Goggles.Projection.Stitched
Purpose: What the rows of a projected sequence of events tell about the inferred run it leaves open,
  and when the lookup of later uploads finds that run.
Trusted boundary: none beyond the modules it imports
Main exports: RunOf, OpenRun, Stitched, stitched_replay, Interrupted, activeInferredRun_eq
-/
import Goggles.Projection.ConvergenceOrder

namespace Goggles

/-! ### One event -/

/-- What one event does: nothing, when it is not about convergence or changes the epoch state with no
run open; or it is recorded under the run it names; or under the open run, else a new one. -/
inductive StitchStep (event : AuditEvent) (state : ConvergenceState) : ConvergenceState → Prop where
  | idle (unnamed : ¬ namesRun event)
      (closed : ConvergenceRelevant event → state.active event.engineId = none) :
      StitchStep event state state
  | named (named : namesRun event) :
      StitchStep event state
        ⟨recordEvidence event (event.engineId, explicitRunId event) (newRun event.accountRef false)
          state.tables, Function.update state.active event.engineId none⟩
  | stitched (unnamed : ¬ namesRun event) (relevant : ConvergenceRelevant event) (runId : Str)
      (chosen : state.active event.engineId = some runId ∨
        state.active event.engineId = none ∧
          state.tables.runs.find (event.engineId, runId) = none) :
      StitchStep event state
        ⟨(recordInferred event runId state.tables).tables,
          Function.update state.active event.engineId
            (recordInferred event runId state.tables).active⟩

theorem relevant_of_shouldProject {event : AuditEvent} {active : Option Str}
    (projects : shouldProjectConvergence event active = true) : ConvergenceRelevant event := by
  by_contra idle
  obtain ⟨notTyped, notEpoch, noContext⟩ := not_relevant_facts idle
  simp [shouldProjectConvergence, notEpoch, noContext] at projects
  simp [projects] at notTyped

theorem stitchStep_of_step {event : AuditEvent} {state next : ConvergenceState}
    (engine : event.engineId ≠ []) (stepped : state.step event = some next) :
    StitchStep event state next := by
  by_cases named : namesRun event
  · rw [step_of_projected state (projectRecorder_named named engine _), Option.some.injEq] at stepped
    exact stepped ▸ .named named
  · obtain ⟨recorder, projected, rfl⟩ := Option.map_eq_some_iff.mp stepped
    unfold projectRecorder projectConvergence at projected
    split at projected
    · next projects =>
        have relevant := relevant_of_shouldProject projects
        simp only at projected
        have unnamed : ¬ explicitRunId event ≠ [] := named
        rw [if_neg unnamed] at projected
        split at projected
        · next openRun isOpen =>
            cases projected
            exact .stitched named relevant openRun (.inl isOpen)
        · next closed =>
            split at projected
            · cases projected
            · next untaken =>
                cases projected
                apply StitchStep.stitched named relevant
                exact .inr ⟨closed, by simpa using untaken⟩
    · next skipped =>
        cases projected
        rw [Function.update_eq_self]
        apply StitchStep.idle named
        intro relevant
        by_contra isOpen
        apply skipped
        have needs := relevant.resolve_left named
        unfold eventMayNeedInferredConvergenceState at needs
        unfold shouldProjectConvergence
        obtain ⟨openRun, found⟩ := Option.ne_none_iff_exists'.mp isOpen
        cases typed : convergenceEventTypes.contains event.eventType with
        | true => simp
        | false =>
            cases context : event.contextConvergence.isEmpty with
            | false => simp
            | true =>
                simp only [typed, context, Bool.false_or, Bool.not_true, Bool.false_and,
                  Bool.or_false] at needs
                simp [needs, found, engine]

/-! ### Runs and their evidence -/

/-- The runs of an engine. -/
def runsOf (tables : ConvergenceTables) (engineId : Str) : Keyed RunKey ConvergenceRun :=
  tables.runs.restrict fun key => decide (key.1 = engineId)

theorem find_runsOf (tables : ConvergenceTables) (engineId runId : Str) :
    (runsOf tables engineId).find (engineId, runId) = tables.runs.find (engineId, runId) := by
  rw [runsOf, Keyed.find_restrict, if_pos]
  exact decide_eq_true rfl

/-- One event was projected before another. -/
def Before (done : List AuditEvent) (first second : AuditEvent) : Prop :=
  [first, second].Sublist done

/-- A run row of an engine, against the events projected so far: its evidence are relevant events of
the engine, and it starts with the earliest of them. -/
structure RunOf (done : List AuditEvent) (engineId : Str) (row : ConvergenceRun) : Prop where
  known : ∀ eventId ∈ row.evidence, ∃ event ∈ done, event.id = eventId ∧
    event.engineId = engineId ∧ ConvergenceRelevant event
  started : ∃ ms, row.startedAtMs = some ms ∧
    (∃ first ∈ done, first.id ∈ row.evidence ∧ first.wallTimeMs = some ms) ∧
    ∀ event ∈ done, event.id ∈ row.evidence → ∃ later, event.wallTimeMs = some later ∧ ms ≤ later

/-- The run an engine has open: its newest inferred run, joined by every relevant event since it was
opened, and left open by the last of them. -/
structure OpenRun (done : List AuditEvent) (tables : ConvergenceTables) (engineId runId : Str)
    (row : ConvergenceRun) : Prop where
  inferred : row.inferred = true
  newest : ∃ older, (runsOf tables engineId).entries = older ++ [((engineId, runId), row)]
  unnamed : ∀ event ∈ done, event.id ∈ row.evidence → ¬ namesRun event
  earlier : ∀ other ∈ done, other.engineId = engineId → ConvergenceRelevant other →
    other.id ∉ row.evidence → ∀ event ∈ done, event.id ∈ row.evidence → Before done other event
  latest : ∃ last ∈ done, last.id ∈ row.evidence ∧
    inferredConvergenceEventIsTerminal last row.phase = false ∧
    ∀ event ∈ done, event.id ∈ row.evidence → event = last ∨ Before done event last

/-- The rows and the map of open runs, against the events projected so far. -/
structure Stitched (done : List AuditEvent) (state : ConvergenceState) : Prop where
  rows : ∀ engineId runId row, state.tables.runs.find (engineId, runId) = some row →
    RunOf done engineId row
  apart : ∀ one two oneRow twoRow, state.tables.runs.find one = some oneRow →
    state.tables.runs.find two = some twoRow → ∀ eventId ∈ oneRow.evidence,
      eventId ∈ twoRow.evidence → one = two
  opened : ∀ engineId runId, state.active engineId = some runId →
    ∃ row, OpenRun done state.tables engineId runId row
  /-- A run whose last evidence names no run and does not close it is open, unless a later event
  names a run. -/
  followed : ∀ engineId runId row, state.tables.runs.find (engineId, runId) = some row →
    ∀ last ∈ done, last.id ∈ row.evidence → ¬ namesRun last →
      inferredConvergenceEventIsTerminal last row.phase = false →
      (∀ later ∈ done, later.engineId = engineId → ConvergenceRelevant later →
        Before done last later → ¬ namesRun later ∧ later.id ∉ row.evidence) →
      state.active engineId = some runId

theorem Stitched.cleared : Stitched [] .cleared where
  rows := fun _ _ _ found => by cases found
  apart := fun _ _ _ _ found => by cases found
  opened := fun _ _ isOpen => by cases isOpen
  followed := fun _ _ _ found => by cases found

section Step

variable {done : List AuditEvent} {event : AuditEvent}

theorem RunOf.append {engineId : Str} {row : ConvergenceRun} (run : RunOf done engineId row)
    (absent : event.id ∉ row.evidence) : RunOf (done ++ [event]) engineId row where
  known := by
    intro eventId cited
    obtain ⟨found, member, facts⟩ := run.known eventId cited
    exact ⟨found, List.mem_append_left _ member, facts⟩
  started := by
    obtain ⟨ms, started, ⟨first, member, cited, timed⟩, earliest⟩ := run.started
    refine ⟨ms, started, ⟨first, List.mem_append_left _ member, cited, timed⟩, ?_⟩
    intro other otherMember otherCited
    rcases List.mem_append.mp otherMember with old | new
    · exact earliest other old otherCited
    · rw [List.mem_singleton.mp new] at otherCited
      exact absurd otherCited absent

theorem startedAtMs_recordedRun {ms : Nat} (timed : event.wallTimeMs = some ms)
    (run : ConvergenceRun) :
    (recordedRun event run).startedAtMs = some (run.startedAtMs.elim ms (min ms)) := by
  simp only [recordedRun, updateRunFromEvent, timed, startBound]
  cases run.startedAtMs <;> rfl

@[simp] theorem evidence_recordedRun (run : ConvergenceRun) :
    (recordedRun event run).evidence = insert event.id run.evidence := rfl

/-- The row of a run an event was recorded under. -/
theorem RunOf.recorded {found : Option ConvergenceRun} {accountRef : Str} {inferred : Bool}
    (run : ∀ row, found = some row → RunOf done event.engineId row)
    (relevant : ConvergenceRelevant event) (sound : SoundEvent event)
    (fresh : ∀ other ∈ done, other.id ≠ event.id) :
    RunOf (done ++ [event]) event.engineId
      (recordedRun event (found.getD (newRun accountRef inferred))) := by
  obtain ⟨ms, timed⟩ := sound.timed
  have mine : event ∈ done ++ [event] := List.mem_append_right _ (List.mem_singleton.mpr rfl)
  cases found with
  | none =>
      have onlyNew : ∀ eventId, eventId ∈ (recordedRun event ((none : Option ConvergenceRun).getD
          (newRun accountRef inferred))).evidence → eventId = event.id := by
        intro eventId cited
        rw [evidence_recordedRun, Finset.mem_insert] at cited
        exact cited.resolve_right (Finset.notMem_empty _)
      refine ⟨?_, ms, startedAtMs_recordedRun timed _, ⟨event, mine, Finset.mem_insert_self _ _,
        timed⟩, ?_⟩
      · intro eventId cited
        exact ⟨event, mine, (onlyNew eventId cited).symm, rfl, relevant⟩
      · intro other member cited
        rcases List.mem_append.mp member with old | new
        · exact absurd (onlyNew other.id cited) (fresh other old)
        · rw [List.mem_singleton.mp new]
          exact ⟨ms, timed, le_refl _⟩
  | some row =>
      obtain ⟨known, least, started, ⟨first, firstMember, firstCited, firstTimed⟩, earliest⟩ :=
        run row rfl
      refine ⟨?_, min ms least, ?_, ?_, ?_⟩
      · intro eventId cited
        rcases Finset.mem_insert.mp cited with rfl | old
        · exact ⟨event, mine, rfl, rfl, relevant⟩
        · obtain ⟨other, member, facts⟩ := known eventId old
          exact ⟨other, List.mem_append_left _ member, facts⟩
      · rw [startedAtMs_recordedRun timed, Option.getD_some, started]
        rfl
      · rcases min_choice ms least with isNew | isOld
        · exact ⟨event, mine, Finset.mem_insert_self _ _, by rw [isNew, timed]⟩
        · exact ⟨first, List.mem_append_left _ firstMember, Finset.mem_insert_of_mem firstCited,
            by rw [isOld, firstTimed]⟩
      · intro other member cited
        rcases List.mem_append.mp member with old | new
        · have oldCited := (Finset.mem_insert.mp cited).resolve_left (fresh other old)
          obtain ⟨later, otherTimed, after⟩ := earliest other old oldCited
          exact ⟨later, otherTimed, (min_le_right _ _).trans after⟩
        · rw [List.mem_singleton.mp new]
          exact ⟨ms, timed, min_le_left _ _⟩

theorem runsOf_recordEvidence_self (run : Str) (fresh : ConvergenceRun)
    (tables : ConvergenceTables) :
    runsOf (recordEvidence event (event.engineId, run) fresh tables) event.engineId =
      (runsOf tables event.engineId).upsert (event.engineId, run)
        fun found => recordedRun event (found.getD fresh) := by
  rw [recordEvidence_eq, runsOf, Keyed.restrict_upsert, if_pos (decide_eq_true rfl)]
  rfl

theorem runsOf_recordEvidence_of_ne {engineId : Str} (other : engineId ≠ event.engineId)
    (run : Str) (fresh : ConvergenceRun) (tables : ConvergenceTables) :
    runsOf (recordEvidence event (event.engineId, run) fresh tables) engineId =
      runsOf tables engineId := by
  rw [recordEvidence_eq, runsOf, Keyed.restrict_upsert, if_neg (by simpa using Ne.symm other)]
  rfl

theorem Before.append {first second : AuditEvent} (before : Before done first second) :
    Before (done ++ [event]) first second :=
  pair_append_singleton_iff.mpr (.inl before)

theorem before_last {first : AuditEvent} (member : first ∈ done) :
    Before (done ++ [event]) first event :=
  pair_append_singleton_iff.mpr (.inr ⟨member, rfl⟩)

/-- An open run stays as it is under an event that is not about it. -/
theorem OpenRun.append {tables next : ConvergenceTables} {engineId runId : Str}
    {row : ConvergenceRun} (isOpen : OpenRun done tables engineId runId row)
    (sameRuns : runsOf next engineId = runsOf tables engineId)
    (unrelated : event.engineId = engineId → ¬ ConvergenceRelevant event)
    (uncited : event.id ∉ row.evidence) : OpenRun (done ++ [event]) next engineId runId row := by
  have old : ∀ other ∈ done ++ [event], other.id ∈ row.evidence → other ∈ done := by
    intro other member cited
    rcases List.mem_append.mp member with inside | new
    · exact inside
    · rw [List.mem_singleton.mp new] at cited
      exact absurd cited uncited
  refine
    { inferred := isOpen.inferred
      newest := sameRuns ▸ isOpen.newest
      unnamed := fun other member cited => isOpen.unnamed other (old other member cited) cited
      earlier := ?earlier
      latest := ?latest }
  case earlier =>
    intro other member engine relevant otherUncited cited citedMember isCited
    rcases List.mem_append.mp member with inside | new
    · exact (isOpen.earlier other inside engine relevant otherUncited cited
        (old cited citedMember isCited) isCited).append
    · rw [List.mem_singleton.mp new] at engine relevant
      exact absurd relevant (unrelated engine)
  case latest =>
    obtain ⟨last, lastMember, lastCited, open_, others⟩ := isOpen.latest
    refine ⟨last, List.mem_append_left _ lastMember, lastCited, open_, ?_⟩
    intro other member cited
    exact (others other (old other member cited) cited).imp_right Before.append

/-- Names no run, so says nothing about whether its run is inferred. -/
theorem inferred_recordedRun (sound : SoundEvent event) (unnamed : ¬ namesRun event)
    (run : ConvergenceRun) : (recordedRun event run).inferred = run.inferred := by
  have noContext : event.contextConvergence = [] := sound.named.resolve_right unnamed
  simp [recordedRun, updateRunFromEvent, noContext, Dict.get]

/-- The open run after an event joined it. -/
theorem OpenRun.joined {tables : ConvergenceTables} {runId : Str} {row start : ConvergenceRun}
    (isOpen : OpenRun done tables event.engineId runId row) (sound : SoundEvent event)
    (fresh : ∀ other ∈ done, other.id ≠ event.id) (unnamed : ¬ namesRun event)
    (stays : inferredConvergenceEventIsTerminal event (recordedRun event row).phase = false) :
    OpenRun (done ++ [event]) (recordEvidence event (event.engineId, runId) start tables)
      event.engineId runId (recordedRun event row) := by
  have mine : event ∈ done ++ [event] := List.mem_append_right _ (List.mem_singleton.mpr rfl)
  refine
    { inferred := (inferred_recordedRun sound unnamed row).trans isOpen.inferred
      newest := ?newest
      unnamed := ?unnamed
      earlier := ?earlier
      latest := ⟨event, mine, Finset.mem_insert_self _ _, stays, ?latest⟩ }
  case newest =>
    obtain ⟨older, split⟩ := isOpen.newest
    refine ⟨older, ?_⟩
    have unique := (runsOf tables event.engineId).unique
    rw [split, List.map_append, List.map_singleton] at unique
    have absent := (List.nodup_append.mp unique).2.2
    rw [runsOf_recordEvidence_self, Keyed.upsert]
    simp only [split]
    rw [Keyed.upsertEntries_last]
    · rfl
    · intro member
      exact absent _ member _ (List.mem_singleton.mpr rfl) rfl
  case unnamed =>
    intro other member cited
    rcases List.mem_append.mp member with old | new
    · rcases Finset.mem_insert.mp cited with same | before
      · exact absurd same (fresh other old)
      · exact isOpen.unnamed other old before
    · rw [List.mem_singleton.mp new]
      exact unnamed
  case earlier =>
    intro other member engine relevant uncited cited citedMember isCited
    rw [evidence_recordedRun, Finset.mem_insert, not_or] at uncited
    have old : other ∈ done := by
      rcases List.mem_append.mp member with inside | new
      · exact inside
      · rw [List.mem_singleton.mp new] at uncited
        exact absurd rfl uncited.1
    rcases List.mem_append.mp citedMember with inside | new
    · rcases Finset.mem_insert.mp isCited with same | before
      · exact absurd same (fresh cited inside)
      · exact (isOpen.earlier other old engine relevant uncited.2 cited inside before).append
    · rw [List.mem_singleton.mp new]
      exact before_last old
  case latest =>
    intro other member cited
    rcases List.mem_append.mp member with inside | new
    · exact .inr (before_last inside)
    · exact .inl (List.mem_singleton.mp new)

/-- The open run an event starts. -/
theorem OpenRun.begun {tables : ConvergenceTables} {runId : Str}
    (untaken : tables.runs.find (event.engineId, runId) = none) (sound : SoundEvent event)
    (fresh : ∀ other ∈ done, other.id ≠ event.id) (unnamed : ¬ namesRun event)
    (stays : inferredConvergenceEventIsTerminal event
      (recordedRun event (newRun event.accountRef true)).phase = false) :
    OpenRun (done ++ [event])
      (recordEvidence event (event.engineId, runId) (newRun event.accountRef true) tables)
      event.engineId runId (recordedRun event (newRun event.accountRef true)) := by
  have mine : event ∈ done ++ [event] := List.mem_append_right _ (List.mem_singleton.mpr rfl)
  have onlyNew : ∀ other ∈ done ++ [event],
      other.id ∈ (recordedRun event (newRun event.accountRef true)).evidence → other = event := by
    intro other member cited
    rcases List.mem_append.mp member with old | new
    · have same := (Finset.mem_insert.mp cited).resolve_right (Finset.notMem_empty _)
      exact absurd same (fresh other old)
    · exact List.mem_singleton.mp new
  refine
    { inferred := inferred_recordedRun sound unnamed _
      newest := ⟨(runsOf tables event.engineId).entries, ?newest⟩
      unnamed := ?unnamed
      earlier := ?earlier
      latest := ⟨event, mine, Finset.mem_insert_self _ _, stays, ?latest⟩ }
  case newest =>
    rw [← find_runsOf] at untaken
    rw [runsOf_recordEvidence_self, Keyed.upsert]
    exact Keyed.upsertEntries_absent (Keyed.find_eq_none_iff.mp untaken) _
  case unnamed =>
    intro other member cited
    rw [onlyNew other member cited]
    exact unnamed
  case earlier =>
    intro other member engine relevant uncited cited citedMember isCited
    rw [onlyNew cited citedMember isCited]
    rcases List.mem_append.mp member with old | new
    · exact before_last old
    · rw [List.mem_singleton.mp new] at uncited
      exact absurd (Finset.mem_insert_self _ _) uncited
  case latest =>
    intro other member cited
    exact .inl (onlyNew other member cited)

variable {state next : ConvergenceState}

theorem Stitched.uncited (stitched : Stitched done state)
    (fresh : ∀ other ∈ done, other.id ≠ event.id) {engineId runId : Str} {row : ConvergenceRun}
    (found : state.tables.runs.find (engineId, runId) = some row) : event.id ∉ row.evidence := by
  intro cited
  obtain ⟨other, member, same, -⟩ := (stitched.rows engineId runId row found).known event.id cited
  exact fresh other member same

theorem OpenRun.found {tables : ConvergenceTables} {engineId runId : Str} {row : ConvergenceRun}
    (isOpen : OpenRun done tables engineId runId row) :
    tables.runs.find (engineId, runId) = some row := by
  obtain ⟨older, split⟩ := isOpen.newest
  rw [← find_runsOf, Keyed.find_eq_some_iff, split]
  exact List.mem_append_right _ (List.mem_singleton.mpr rfl)

/-- The rows after an event was recorded. -/
theorem Stitched.rows_recorded (stitched : Stitched done state) (sound : SoundEvent event)
    (fresh : ∀ other ∈ done, other.id ≠ event.id) (relevant : ConvergenceRelevant event)
    (recordId accountRef : Str) (inferred : Bool) {engineId runId : Str} {row : ConvergenceRun}
    (found : (recordEvidence event (event.engineId, recordId) (newRun accountRef inferred)
      state.tables).runs.find (engineId, runId) = some row) :
    RunOf (done ++ [event]) engineId row := by
  rw [find_recordEvidence] at found
  split at found
  · next same =>
      cases same
      cases found
      apply RunOf.recorded _ relevant sound fresh
      intro row before
      exact stitched.rows _ _ row before
  · exact (stitched.rows engineId runId row found).append (stitched.uncited fresh found)

/-- An event is recorded in one run. -/
theorem Stitched.apart_recorded (stitched : Stitched done state)
    (fresh : ∀ other ∈ done, other.id ≠ event.id) (run : RunKey) (start : ConvergenceRun)
    (blank : start.evidence = ∅) {one two : RunKey} {oneRow twoRow : ConvergenceRun}
    (oneFound : (recordEvidence event run start state.tables).runs.find one = some oneRow)
    (twoFound : (recordEvidence event run start state.tables).runs.find two = some twoRow)
    {eventId : Nat} (oneCites : eventId ∈ oneRow.evidence) (twoCites : eventId ∈ twoRow.evidence) :
    one = two := by
  -- the evidence of the recorded row, but for the new event, is that of the row before
  have before : ∀ key row, (recordEvidence event run start state.tables).runs.find key = some row →
      eventId ∈ row.evidence → key = run ∧ eventId = event.id ∨
        ∃ old, state.tables.runs.find key = some old ∧ eventId ∈ old.evidence := by
    intro key row found cites
    rw [find_recordEvidence] at found
    split at found
    · next same =>
        cases found
        rcases Finset.mem_insert.mp cites with new | old
        · exact .inl ⟨same, new⟩
        · cases known : state.tables.runs.find run with
          | none =>
              rw [known, Option.getD_none] at old
              exact absurd old (by simp [updateRunFromEvent, blank])
          | some row =>
              rw [known, Option.getD_some] at old
              exact .inr ⟨row, same ▸ known, old⟩
    · exact .inr ⟨row, found, cites⟩
  rcases before one oneRow oneFound oneCites with ⟨oneRun, isNew⟩ | ⟨oneOld, oneKnown, oneMember⟩
  · rcases before two twoRow twoFound twoCites with ⟨twoRun, -⟩ | ⟨twoOld, twoKnown, twoMember⟩
    · exact oneRun.trans twoRun.symm
    · exact absurd (isNew ▸ twoMember) (stitched.uncited fresh twoKnown)
  · rcases before two twoRow twoFound twoCites with ⟨-, isNew⟩ | ⟨twoOld, twoKnown, twoMember⟩
    · exact absurd (isNew ▸ oneMember) (stitched.uncited fresh oneKnown)
    · exact stitched.apart one two oneOld twoOld oneKnown twoKnown eventId oneMember twoMember

/-- The run that is open after an event. -/
theorem Stitched.opened_step (stitched : Stitched done state) (sound : SoundEvent event)
    (fresh : ∀ other ∈ done, other.id ≠ event.id) (stepped : StitchStep event state next)
    {engineId runId : Str} (isOpen : next.active engineId = some runId) :
    ∃ row, OpenRun (done ++ [event]) next.tables engineId runId row := by
  cases stepped with
  | idle unnamed closed =>
      obtain ⟨row, before⟩ := stitched.opened engineId runId isOpen
      refine ⟨row, before.append rfl ?_ (stitched.uncited fresh before.found)⟩
      rintro rfl relevant
      rw [closed relevant] at isOpen
      cases isOpen
  | named named =>
      by_cases mine : engineId = event.engineId
      · simp [mine] at isOpen
      · simp only [Function.update_of_ne mine] at isOpen
        obtain ⟨row, before⟩ := stitched.opened engineId runId isOpen
        refine ⟨row, before.append (runsOf_recordEvidence_of_ne mine _ _ _) ?_
          (stitched.uncited fresh before.found)⟩
        intro same
        exact absurd same.symm mine
  | stitched unnamed relevant recordId chosen =>
      by_cases mine : engineId = event.engineId
      · subst mine
        simp only [Function.update_self, recordInferred, runPhase, find_recordEvidence, if_true,
          Option.map_some, Option.getD_some] at isOpen
        split at isOpen
        · cases isOpen
        · next stays =>
            cases isOpen
            rw [Bool.not_eq_true] at stays
            rcases chosen with wasOpen | ⟨-, untaken⟩
            · obtain ⟨row, before⟩ := stitched.opened _ _ wasOpen
              rw [before.found, Option.getD_some] at stays
              exact ⟨_, before.joined sound fresh unnamed stays⟩
            · rw [untaken, Option.getD_none] at stays
              exact ⟨_, OpenRun.begun untaken sound fresh unnamed stays⟩
      · simp only [Function.update_of_ne mine] at isOpen
        obtain ⟨row, before⟩ := stitched.opened engineId runId isOpen
        refine ⟨row, before.append (runsOf_recordEvidence_of_ne mine _ _ _) ?_
          (stitched.uncited fresh before.found)⟩
        intro same
        exact absurd same.symm mine

/-- What the open run of an event's engine is, judged from the run of the last event that is not
followed by one that names its run. -/
theorem Stitched.followed_step (stitched : Stitched done state)
    (fresh : ∀ other ∈ done, other.id ≠ event.id) (stepped : StitchStep event state next)
    {engineId runId : Str} {row : ConvergenceRun}
    (found : next.tables.runs.find (engineId, runId) = some row) {last : AuditEvent}
    (member : last ∈ done ++ [event]) (cited : last.id ∈ row.evidence) (unnamed : ¬ namesRun last)
    (stays : inferredConvergenceEventIsTerminal last row.phase = false)
    (quiet : ∀ later ∈ done ++ [event], later.engineId = engineId → ConvergenceRelevant later →
      Before (done ++ [event]) last later → ¬ namesRun later ∧ later.id ∉ row.evidence) :
    next.active engineId = some runId := by
  have quietBefore : ∀ later ∈ done, later.engineId = engineId → ConvergenceRelevant later →
      Before done last later → ¬ namesRun later ∧ later.id ∉ row.evidence :=
    fun later laterMember engine relevant before =>
      quiet later (List.mem_append_left _ laterMember) engine relevant before.append
  have mine : event ∈ done ++ [event] := List.mem_append_right _ (List.mem_singleton.mpr rfl)
  rcases List.mem_append.mp member with old | new
  · -- the event comes after the last one of the run, so it is not about the run
    cases stepped with
    | idle _ closed =>
        exact stitched.followed engineId runId row found last old cited unnamed stays quietBefore
    | named named =>
        by_cases same : engineId = event.engineId
        · exact absurd named (quiet event mine same.symm (.inl named) (before_last old)).1
        · rw [find_recordEvidence, if_neg fun equal => same (congrArg Prod.fst equal)] at found
          simp only [Function.update_of_ne same]
          exact stitched.followed engineId runId row found last old cited unnamed stays quietBefore
    | stitched _ relevant recordId chosen =>
        simp only [recordInferred] at found
        by_cases same : engineId = event.engineId
        · have notCited := (quiet event mine same.symm relevant (before_last old)).2
          rw [find_recordEvidence] at found
          split at found
          · cases found
            exact absurd (Finset.mem_insert_self _ _) notCited
          · next apart =>
              have wasOpen := stitched.followed engineId runId row found last old cited unnamed
                stays quietBefore
              subst same
              rcases chosen with isOpen | ⟨closed, -⟩
              · rw [isOpen] at wasOpen
                exact absurd (by rw [Option.some.inj wasOpen]) apart
              · rw [closed] at wasOpen
                cases wasOpen
        · rw [find_recordEvidence, if_neg fun equal => same (congrArg Prod.fst equal)] at found
          simp only [Function.update_of_ne same]
          exact stitched.followed engineId runId row found last old cited unnamed stays quietBefore
  · -- the event itself is the last one of the run
    rw [List.mem_singleton.mp new] at cited unnamed stays
    cases stepped with
    | idle _ closed => exact absurd cited (stitched.uncited fresh found)
    | named named => exact absurd named unnamed
    | stitched _ relevant recordId chosen =>
        simp only [recordInferred] at found
        rw [find_recordEvidence] at found
        split at found
        · next same =>
            cases same
            cases found
            simp only [Function.update_self, recordInferred, runPhase, find_recordEvidence, if_true,
              Option.map_some, Option.getD_some, stays, Bool.false_eq_true, if_false]
        · exact absurd cited (stitched.uncited fresh found)

theorem Stitched.step (stitched : Stitched done state) (sound : SoundEvent event)
    (fresh : ∀ other ∈ done, other.id ≠ event.id) (stepped : StitchStep event state next) :
    Stitched (done ++ [event]) next where
  rows := by
    intro engineId runId row found
    cases stepped with
    | idle unnamed closed =>
        exact (stitched.rows engineId runId row found).append (stitched.uncited fresh found)
    | named named => exact stitched.rows_recorded sound fresh (.inl named) _ _ _ found
    | stitched unnamed relevant recordId chosen =>
        exact stitched.rows_recorded sound fresh relevant _ _ _ found
  apart := by
    intro one two oneRow twoRow oneFound twoFound eventId oneCites twoCites
    cases stepped with
    | idle unnamed closed =>
        exact stitched.apart one two oneRow twoRow oneFound twoFound eventId oneCites twoCites
    | named named =>
        exact stitched.apart_recorded fresh _ _ rfl oneFound twoFound oneCites twoCites
    | stitched unnamed relevant recordId chosen =>
        exact stitched.apart_recorded fresh _ _ rfl oneFound twoFound oneCites twoCites
  opened := fun engineId runId isOpen => stitched.opened_step sound fresh stepped isOpen
  followed := fun engineId runId row found last member cited unnamed stays quiet =>
    stitched.followed_step fresh stepped found member cited unnamed stays quiet

end Step

/-- The rows and the map after a sequence of events. -/
theorem stitched_replay {done events : List AuditEvent} {state final : ConvergenceState}
    (stitched : Stitched done state) (sound : SoundEvents (done ++ events))
    (ids : ((done ++ events).map (·.id)).Nodup)
    (replayed : replay ConvergenceState.step state events = some final) :
    Stitched (done ++ events) final := by
  induction events generalizing done state with
  | nil =>
      cases replayed
      rw [List.append_nil]
      exact stitched
  | cons event rest inductionHypothesis =>
      rw [replay_cons, Option.bind_eq_some_iff] at replayed
      obtain ⟨next, stepped, rested⟩ := replayed
      have regroup : done ++ event :: rest = (done ++ [event]) ++ rest := by simp
      have here := sound event (List.mem_append_right _ List.mem_cons_self)
      have fresh : ∀ other ∈ done, other.id ≠ event.id := by
        intro other member same
        rw [List.map_append, List.map_cons] at ids
        exact (List.nodup_append.mp ids).2.2 _ (List.mem_map_of_mem member) _ List.mem_cons_self same
      have after := stitched.step here fresh (stitchStep_of_step here.engine stepped)
      rw [regroup] at sound ids ⊢
      exact inductionHypothesis after sound ids rested

/-! ### The lookup of later uploads -/

/-- The engine's newest inferred run looks open, though an event that names a run is its last evidence
or came after it. -/
def Interrupted (stored groupEvents : List AuditEvent) (runs : Keyed RunKey ConvergenceRun)
    (engineId : Str) : Prop :=
  ∃ key run last, latestInferredRun runs engineId = some (key, run) ∧
    lastEvidence stored run = some last ∧
    inferredConvergenceEventIsTerminal last run.phase = false ∧
    ∃ event ∈ groupEvents, event.engineId = engineId ∧ namesRun event ∧
      eventOrderKey last ≤ eventOrderKey event

theorem latestRun_append (best : Option (RunKey × ConvergenceRun))
    (entries : List (RunKey × ConvergenceRun)) (entry : RunKey × ConvergenceRun) :
    latestRun best (entries ++ [entry]) =
      match latestRun best entries with
      | none => some entry
      | some found => some (if startsNoEarlier found.2 entry.2 then entry else found) := by
  induction entries generalizing best with
  | nil => cases best <;> rfl
  | cons head rest inductionHypothesis => cases best <;> exact inductionHypothesis _

theorem mem_of_latestRun {best : Option (RunKey × ConvergenceRun)}
    {entries : List (RunKey × ConvergenceRun)} {found : RunKey × ConvergenceRun}
    (latest : latestRun best entries = some found) : best = some found ∨ found ∈ entries := by
  induction entries generalizing best with
  | nil => exact .inl latest
  | cons head rest inductionHypothesis =>
      cases best with
      | none =>
          rcases inductionHypothesis latest with same | later
          · exact .inr (Option.some.inj same ▸ List.mem_cons_self)
          · exact .inr (List.mem_cons_of_mem head later)
      | some other =>
          rcases inductionHypothesis latest with same | later
          · split at same
            · exact .inr (Option.some.inj same ▸ List.mem_cons_self)
            · exact .inl same
          · exact .inr (List.mem_cons_of_mem head later)

theorem wallTimeMs_le_of_key_le {first second : AuditEvent}
    (ordered : eventOrderKey first ≤ eventOrderKey second) {one two : Nat}
    (oneTimed : first.wallTimeMs = some one) (twoTimed : second.wallTimeMs = some two) :
    one ≤ two := by
  by_contra later
  apply not_lt.mpr ordered
  simp [eventOrderKey, convergenceOrderKey, Prod.Lex.toLex_lt_toLex, oneTimed, twoTimed,
    not_le.mp later]

section Lookup

variable {stored done groupEvents : List AuditEvent} {state : ConvergenceState}

/-- The order in which a group's events were projected, against all stored events. -/
structure ProjectedOrder (stored groupEvents done : List AuditEvent) : Prop where
  reorders : Reorders ConvergenceIndependent done (inOrder eventOrderKey groupEvents)
  sound : SoundEvents groupEvents
  inside : groupEvents.Sublist stored
  ids : (stored.map (·.id)).Nodup

namespace ProjectedOrder

theorem mem_iff (order : ProjectedOrder stored groupEvents done) {event : AuditEvent} :
    event ∈ done ↔ event ∈ groupEvents := by
  rw [order.reorders.perm.mem_iff, mem_inOrder]

theorem stored_of_mem (order : ProjectedOrder stored groupEvents done) {event : AuditEvent}
    (member : event ∈ done) : event ∈ stored :=
  order.inside.subset (order.mem_iff.mp member)

theorem not_before_self (order : ProjectedOrder stored groupEvents done) (event : AuditEvent) :
    ¬ Before done event event := by
  intro before
  have nodup : done.Nodup :=
    (order.reorders.perm.trans (perm_inOrder _ _)).nodup_iff.mpr
      ((List.Nodup.of_map _ order.ids).sublist order.inside)
  have pair := nodup.sublist before
  simp at pair

theorem distinguishes (order : ProjectedOrder stored groupEvents done) :
    Distinguishes eventOrderKey stored := by
  intro left leftMember right rightMember same
  have sameId : left.id = right.id := congrArg (fun key => (ofLex key).2) same
  exact List.inj_on_of_nodup_map order.ids leftMember rightMember sameId

/-- Of two relevant events of an engine that do not both name their runs, the one projected first
comes first. -/
theorem key_le (order : ProjectedOrder stored groupEvents done) {first second : AuditEvent}
    (engines : first.engineId = second.engineId) (firstRelevant : ConvergenceRelevant first)
    (secondRelevant : ConvergenceRelevant second) (unnamed : ¬ namesRun first ∨ ¬ namesRun second)
    (before : Before done first second) : eventOrderKey first ≤ eventOrderKey second := by
  apply order.reorders.key_le _ before
  rintro (apart | idle | idle | ⟨firstNamed, secondNamed, -⟩)
  · exact apart engines
  · exact idle firstRelevant
  · exact idle secondRelevant
  · rcases unnamed with firstUnnamed | secondUnnamed
    · exact firstUnnamed firstNamed
    · exact secondUnnamed secondNamed

/-- The evidence of a run is found among the projected events alone. -/
theorem mem_of_cited (order : ProjectedOrder stored groupEvents done) {engineId : Str}
    {row : ConvergenceRun} (run : RunOf done engineId row) {event : AuditEvent}
    (member : event ∈ stored) (cited : event.id ∈ row.evidence) :
    event ∈ done ∧ event.engineId = engineId ∧ ConvergenceRelevant event := by
  obtain ⟨known, knownMember, sameId, engine, relevant⟩ := run.known event.id cited
  have same : known = event :=
    List.inj_on_of_nodup_map order.ids (order.stored_of_mem knownMember) member sameId
  exact same ▸ ⟨knownMember, engine, relevant⟩

/-- The last evidence of a run in key order. -/
theorem lastEvidence_eq (order : ProjectedOrder stored groupEvents done) {engineId : Str}
    {row : ConvergenceRun} (run : RunOf done engineId row) {last : AuditEvent} (member : last ∈ done)
    (cited : last.id ∈ row.evidence)
    (greatest : ∀ event ∈ done, event.id ∈ row.evidence →
      eventOrderKey event ≤ eventOrderKey last) :
    lastEvidence stored row = some last := by
  apply getLast?_inOrder (order.distinguishes.subset (List.filter_subset_self _))
  · exact List.mem_filter.mpr ⟨order.stored_of_mem member, decide_eq_true cited⟩
  · intro event eventMember
    obtain ⟨eventStored, eventCited⟩ := List.mem_filter.mp eventMember
    have isCited := of_decide_eq_true eventCited
    exact greatest event (order.mem_of_cited run eventStored isCited).1 isCited

theorem of_lastEvidence (order : ProjectedOrder stored groupEvents done) {engineId : Str}
    {row : ConvergenceRun} (run : RunOf done engineId row) {last : AuditEvent}
    (found : lastEvidence stored row = some last) :
    last ∈ done ∧ last.id ∈ row.evidence ∧ last.engineId = engineId ∧ ConvergenceRelevant last ∧
      ∀ event ∈ done, event.id ∈ row.evidence → eventOrderKey event ≤ eventOrderKey last := by
  obtain ⟨member, greatest⟩ := of_getLast?_inOrder found
  obtain ⟨lastStored, lastCited⟩ := List.mem_filter.mp member
  have cited := of_decide_eq_true lastCited
  obtain ⟨lastMember, engine, relevant⟩ := order.mem_of_cited run lastStored cited
  refine ⟨lastMember, cited, engine, relevant, ?_⟩
  intro event eventMember eventCited
  exact greatest event
    (List.mem_filter.mpr ⟨order.stored_of_mem eventMember, decide_eq_true eventCited⟩)

/-- The lookup finds the open run. -/
theorem latestInferredRun_eq (order : ProjectedOrder stored groupEvents done)
    (stitched : Stitched done state) {engineId runId : Str} {row : ConvergenceRun}
    (isOpen : OpenRun done state.tables engineId runId row) :
    latestInferredRun state.tables.runs engineId = some ((engineId, runId), row) := by
  obtain ⟨older, split⟩ := isOpen.newest
  have rows : (state.tables.runs.entries.filter fun entry =>
      entry.1.1 == engineId && entry.2.inferred) =
        older.filter (·.2.inferred) ++ [((engineId, runId), row)] := by
    have sameRows : (state.tables.runs.entries.filter fun entry =>
        entry.1.1 == engineId && entry.2.inferred) =
          (runsOf state.tables engineId).entries.filter (·.2.inferred) := by
      rw [runsOf, Keyed.entries_restrict, List.filter_filter]
      apply List.filter_congr
      intro entry _
      rw [Bool.and_comm, beq_eq_decide]
    have kept : [((engineId, runId), row)].filter (·.2.inferred) = [((engineId, runId), row)] := by
      simp [isOpen.inferred]
    rw [sameRows, split, List.filter_append, kept]
  rw [latestInferredRun, rows, latestRun_append]
  cases before : latestRun none (older.filter (·.2.inferred)) with
  | none => rfl
  | some other =>
      have listed := (mem_of_latestRun before).resolve_left nofun
      have member : other ∈ (runsOf state.tables engineId).entries := by
        rw [split]
        exact List.mem_append_left _ (List.mem_of_mem_filter listed)
      obtain ⟨otherKey, otherRow⟩ := other
      obtain ⟨entry, sameEngine⟩ := List.mem_filter.mp member
      obtain ⟨otherEngine, otherId⟩ := otherKey
      obtain rfl : otherEngine = engineId := of_decide_eq_true sameEngine
      have otherFound := Keyed.find_eq_some_iff.mpr entry
      have differs : otherId ≠ runId := by
        rintro rfl
        have unique := (runsOf state.tables otherEngine).unique
        rw [split, List.map_append] at unique
        exact (List.nodup_append.mp unique).2.2 _
          (List.mem_map_of_mem (List.mem_of_mem_filter listed)) _ (List.mem_singleton.mpr rfl) rfl
      -- every event of the other run was projected before every event of the open one
      obtain ⟨otherMs, otherStarted, ⟨first, firstMember, firstCited, firstTimed⟩, -⟩ :=
        (stitched.rows _ _ _ otherFound).started
      obtain ⟨ms, started, ⟨opening, openingMember, openingCited, openingTimed⟩, -⟩ :=
        (stitched.rows _ _ _ isOpen.found).started
      obtain ⟨-, firstEngine, firstRelevant⟩ := order.mem_of_cited (stitched.rows _ _ _ otherFound)
        (order.stored_of_mem firstMember) firstCited
      obtain ⟨-, openingEngine, openingRelevant⟩ := order.mem_of_cited
        (stitched.rows _ _ _ isOpen.found) (order.stored_of_mem openingMember) openingCited
      have uncited : first.id ∉ row.evidence := by
        intro both
        have same := stitched.apart _ _ _ _ otherFound isOpen.found first.id firstCited both
        exact differs (congrArg Prod.snd same)
      have ordered := order.key_le (firstEngine.trans openingEngine.symm) firstRelevant
        openingRelevant (.inr (isOpen.unnamed opening openingMember openingCited))
        (isOpen.earlier first firstMember firstEngine firstRelevant uncited opening openingMember
          openingCited)
      have notEarlier : startsNoEarlier otherRow row = true := by
        rw [startsNoEarlier, started, otherStarted]
        exact decide_eq_true (wallTimeMs_le_of_key_le ordered firstTimed openingTimed)
      simp only [notEarlier, if_true]

/-- The lookup takes the open run for open. -/
theorem runIsActiveInferred_of_open (order : ProjectedOrder stored groupEvents done)
    (stitched : Stitched done state) {engineId runId : Str} {row : ConvergenceRun}
    (isOpen : OpenRun done state.tables engineId runId row) :
    runIsActiveInferred stored row = true := by
  have run := stitched.rows _ _ _ isOpen.found
  obtain ⟨last, member, cited, stays, others⟩ := isOpen.latest
  have found : lastEvidence stored row = some last := by
    apply order.lastEvidence_eq run member cited
    intro event eventMember eventCited
    rcases others event eventMember eventCited with rfl | before
    · exact le_refl _
    · obtain ⟨-, eventEngine, eventRelevant⟩ := order.mem_of_cited run
        (order.stored_of_mem eventMember) eventCited
      obtain ⟨-, lastEngine, lastRelevant⟩ := order.mem_of_cited run
        (order.stored_of_mem member) cited
      exact order.key_le (eventEngine.trans lastEngine.symm) eventRelevant lastRelevant
        (.inl (isOpen.unnamed event eventMember eventCited)) before
  simp only [runIsActiveInferred, found, stays, Bool.not_false]

/-- Unless the newest inferred run was interrupted, the lookup gives the entry of the map. -/
theorem activeInferredRun_eq (order : ProjectedOrder stored groupEvents done)
    (stitched : Stitched done state) {engineId : Str}
    (whole : ¬ Interrupted stored groupEvents state.tables.runs engineId) :
    activeInferredRun stored state.tables.runs engineId = state.active engineId := by
  have ofOpen : ∀ runId, state.active engineId = some runId →
      activeInferredRun stored state.tables.runs engineId = some runId := by
    intro runId active
    obtain ⟨row, isOpen⟩ := stitched.opened engineId runId active
    rw [activeInferredRun, order.latestInferredRun_eq stitched isOpen]
    simp only [order.runIsActiveInferred_of_open stitched isOpen, if_true]
  cases active : state.active engineId with
  | some runId => exact ofOpen runId active
  | none =>
      cases latest : latestInferredRun state.tables.runs engineId with
      | none => rw [activeInferredRun, latest]
      | some found =>
          obtain ⟨⟨foundEngine, runId⟩, row⟩ := found
          have listed := (mem_of_latestRun latest).resolve_left nofun
          obtain ⟨entry, facts⟩ := List.mem_filter.mp listed
          rw [Bool.and_eq_true, beq_iff_eq] at facts
          obtain rfl : foundEngine = engineId := facts.1
          have rowFound := Keyed.find_eq_some_iff.mpr entry
          have run := stitched.rows _ _ _ rowFound
          rw [activeInferredRun, latest]
          simp only
          rw [if_neg]
          intro looksOpen
          cases evidence : lastEvidence stored row with
          | none =>
              obtain ⟨-, -, ⟨first, member, cited, -⟩, -⟩ := run.started
              have nothing := inOrder_eq_nil_iff.mp (List.getLast?_eq_none_iff.mp evidence)
              have listed : first ∈ stored.filter fun event => event.id ∈ row.evidence :=
                List.mem_filter.mpr ⟨order.stored_of_mem member, decide_eq_true cited⟩
              rw [nothing] at listed
              cases listed
          | some last =>
              simp only [runIsActiveInferred, evidence, Bool.not_eq_true'] at looksOpen
              obtain ⟨member, cited, engine, relevant, greatest⟩ := order.of_lastEvidence run evidence
              have unnamedAfter : ∀ later ∈ done, later.engineId = foundEngine →
                  eventOrderKey last ≤ eventOrderKey later → ¬ namesRun later := by
                intro later laterMember laterEngine after named
                exact whole ⟨_, row, last, latest, evidence, looksOpen, later,
                  order.mem_iff.mp laterMember, laterEngine, named, after⟩
              have unnamed := unnamedAfter last member engine (le_refl _)
              have isOpen := stitched.followed _ _ _ rowFound last member cited unnamed looksOpen (by
                intro later laterMember laterEngine laterRelevant before
                have after := order.key_le (engine.trans laterEngine.symm) relevant laterRelevant
                  (.inl unnamed) before
                refine ⟨unnamedAfter later laterMember laterEngine after, ?_⟩
                intro laterCited
                have same := order.distinguishes last (order.stored_of_mem member) later
                  (order.stored_of_mem laterMember)
                  (le_antisymm after (greatest later laterMember laterCited))
                exact order.not_before_self last (same ▸ before))
              rw [active] at isOpen
              cases isOpen

end ProjectedOrder

end Lookup

end Goggles
