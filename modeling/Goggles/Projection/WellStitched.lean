/-
Module: Goggles.Projection.WellStitched
Purpose: What a rebuild makes of the convergence events of a group: which run each of them is evidence
  of, where the runs that no event names begin and end, and when a named run takes the id of one.
Trusted boundary: none beyond the modules it imports
Main exports: WellStitched, NoClash, Parted, parted_replay, replays_of_noClash, Parted.wellStitched
-/
import Goggles.Projection.Stitched
import Goggles.Python.RoundTrip

namespace Goggles

/-! ### Events -/

/-- The event opens a run when its engine has none open, and joins the open one. -/
def stitches (event : AuditEvent) : Bool :=
  decide (¬ namesRun event) && convergenceEventTypes.contains event.eventType

/-- The event ends the run it is stitched to. -/
def isTerminal (event : AuditEvent) : Bool :=
  inferredConvergenceEventIsTerminal event (phaseForEvent event)

/-- No run of its engine is open after the event. -/
def closes (event : AuditEvent) : Bool := decide (namesRun event) || isTerminal event

/-- Whether a run of the engine is open after one more event. -/
def leavesOpen (engineId : Str) (isOpen : Bool) (event : AuditEvent) : Bool :=
  if event.engineId = engineId then (isOpen || stitches event) && !closes event else isOpen

/-- An event since the last closing one was stitched. -/
def runOpen (events : List AuditEvent) (engineId : Str) : Bool :=
  events.foldl (leavesOpen engineId) false

/-- The event begins a run: it is stitched, and no run is open before it. -/
def Opens (events : List AuditEvent) (event : AuditEvent) : Prop :=
  ∃ earlier later, events = earlier ++ event :: later ∧ stitches event = true ∧
    runOpen earlier event.engineId = false

/-- No event names the run that an event of its engine begins. -/
def NoClash (events : List AuditEvent) : Prop :=
  ∀ event, Opens events event → ∀ other ∈ events, other.engineId = event.engineId →
    explicitRunId other ≠ inferredRunId event

/-! ### Runs -/

/-- The event is evidence of the run. -/
def Cites (tables : ConvergenceTables) (run : RunKey) (event : AuditEvent) : Prop :=
  ∃ row, tables.runs.find run = some row ∧ event.id ∈ row.evidence

/-- No event of its engine names the run. -/
def Inferred (events : List AuditEvent) (run : RunKey) : Prop :=
  ∀ event ∈ events, event.engineId = run.1 → explicitRunId event ≠ run.2

/-- The runs partition the convergence events; a named run is what the events name, and an inferred
one an uninterrupted stretch of events up to a terminal one. -/
structure WellStitched (events : List AuditEvent) (tables : ConvergenceTables) : Prop where
  once : ∀ event ∈ events,
    (convergenceEventTypes.contains event.eventType = true ∨ event.contextConvergence ≠ []) →
      ∃ runId, Cites tables (event.engineId, runId) event ∧
        ∀ run, Cites tables run event → run = (event.engineId, runId)
  named : ∀ namer ∈ events, namesRun namer →
    ∃ row, tables.runs.find (namer.engineId, explicitRunId namer) = some row ∧
      ∀ eventId, eventId ∈ row.evidence ↔ ∃ event ∈ events, event.id = eventId ∧
        event.engineId = namer.engineId ∧ explicitRunId event = explicitRunId namer
  unnamed : ∀ run row, tables.runs.find run = some row → Inferred events run →
    ∀ eventId ∈ row.evidence, ∃ event ∈ events, event.id = eventId ∧ event.engineId = run.1 ∧
      ¬ namesRun event
  /-- A terminal event is the only one of its run, and the last event of the run. -/
  ended : ∀ run, Inferred events run → ∀ last ∈ events, Cites tables run last →
    isTerminal last = true → ∀ event ∈ events, Cites tables run event →
      event = last ∨ Before events event last ∧ isTerminal event = false
  ordered : ∀ one two, Inferred events one → Inferred events two → one.1 = two.1 → one ≠ two →
    (∀ first ∈ events, ∀ second ∈ events, Cites tables one first → Cites tables two second →
      Before events first second) ∨
    (∀ first ∈ events, ∀ second ∈ events, Cites tables one first → Cites tables two second →
      Before events second first)

/-! ### Steps -/

section Steps

variable {event : AuditEvent} {state next : ConvergenceState}

theorem noContext_of_unnamed (sound : SoundEvent event) (unnamed : ¬ namesRun event) :
    event.contextConvergence = [] :=
  sound.named.resolve_right unnamed

/-- An event that names its run is recorded in it, and leaves no run open. -/
theorem step_named (sound : SoundEvent event) (named : namesRun event) :
    state.step event =
      some ⟨recordEvidence event (event.engineId, explicitRunId event) (newRun event.accountRef false)
        state.tables, Function.update state.active event.engineId none⟩ :=
  step_of_projected state (projectRecorder_named named sound.engine _)

/-- The state after an event was stitched to a run. -/
def stitchedTo (event : AuditEvent) (runId : Str) (state : ConvergenceState) : ConvergenceState :=
  ⟨(recordInferred event runId state.tables).tables,
    Function.update state.active event.engineId (recordInferred event runId state.tables).active⟩

/-- An event that may change the open run joins it. -/
theorem step_joins (sound : SoundEvent event) (unnamed : ¬ namesRun event) {runId : Str}
    (isOpen : state.active event.engineId = some runId)
    (relevant : eventMayNeedInferredConvergenceState event = true) :
    state.step event = some (stitchedTo event runId state) := by
  have noContext := noContext_of_unnamed sound unnamed
  have blank : ¬ explicitRunId event ≠ [] := unnamed
  have projects : shouldProjectConvergence event (some runId) = true := by
    simp [eventMayNeedInferredConvergenceState, noContext] at relevant
    simp [shouldProjectConvergence, noContext, sound.engine, relevant]
  apply step_of_projected
  rw [isOpen, projectRecorder, if_pos projects, projectConvergence, if_neg sound.engine]
  dsimp only
  rw [if_neg blank]

/-- With no run open an event of the convergence types begins one, unless its id is taken. -/
theorem step_begins (sound : SoundEvent event) (stitched : stitches event = true)
    (closed : state.active event.engineId = none) :
    state.step event =
      if (state.tables.runs.find (event.engineId, inferredRunId event)).isSome then none
      else some (stitchedTo event (inferredRunId event) state) := by
  rw [stitches, Bool.and_eq_true, decide_eq_true_eq] at stitched
  have blank : ¬ explicitRunId event ≠ [] := stitched.1
  have projects : shouldProjectConvergence event none = true := by
    rw [shouldProjectConvergence, stitched.2, Bool.true_or, Bool.true_or]
  have recorded : projectRecorder ⟨state.tables, state.active event.engineId⟩ event =
      if (state.tables.runs.find (event.engineId, inferredRunId event)).isSome then none
      else some (recordInferred event (inferredRunId event) state.tables) := by
    rw [closed, projectRecorder, if_pos projects, projectConvergence, if_neg sound.engine]
    dsimp only
    rw [if_neg blank]
  rw [ConvergenceState.step, recorded]
  split <;> rfl

/-- Any other event leaves the runs alone. -/
theorem step_passes (sound : SoundEvent event) (unnamed : ¬ namesRun event)
    (passes : eventMayNeedInferredConvergenceState event = false ∨
      stitches event = false ∧ state.active event.engineId = none) :
    state.step event = some state := by
  have noContext := noContext_of_unnamed sound unnamed
  have skipped : shouldProjectConvergence event (state.active event.engineId) = false := by
    rcases passes with irrelevant | ⟨untyped, closed⟩
    · simp only [eventMayNeedInferredConvergenceState, Bool.or_eq_false_iff] at irrelevant
      rw [shouldProjectConvergence, irrelevant.1.1, irrelevant.1.2, noContext]
      rfl
    · have notTyped : convergenceEventTypes.contains event.eventType = false := by
        simpa [stitches, unnamed] using untyped
      rw [shouldProjectConvergence, notTyped, closed, noContext]
      simp
  have same : projectRecorder ⟨state.tables, state.active event.engineId⟩ event =
      some ⟨state.tables, state.active event.engineId⟩ := by
    rw [projectRecorder, skipped]
    rfl
  rw [step_of_projected state same, Function.update_eq_self]

/-- Whether a sound event closes its run does not depend on what the run was. -/
theorem terminal_recorded (sound : SoundEvent event) (run : ConvergenceRun) :
    inferredConvergenceEventIsTerminal event (recordedRun event run).phase = isTerminal event := by
  unfold isTerminal inferredConvergenceEventIsTerminal
  split
  · rfl
  split
  · next typed =>
      obtain ⟨phase, found, filled⟩ := sound.phased typed
      have own : phaseForEvent event = phase := by
        have truthy : (Json.str phase).truthy = true := by
          cases phase with
          | nil => exact absurd rfl filled
          | cons char rest => rfl
        simp [phaseForEvent, found, Json.orElse, truthy]
      have kept : (recordedRun event run).phase = phaseForEvent event := by
        simp [recordedRun, updateRunFromEvent, own, filled]
      rw [kept]
  · rfl

/-- The open run after an event was stitched to a run. -/
theorem active_stitchedTo (sound : SoundEvent event) (runId : Str) (engineId : Str) :
    (stitchedTo event runId state).active engineId =
      if engineId = event.engineId then if isTerminal event then none else some runId
      else state.active engineId := by
  by_cases mine : engineId = event.engineId
  · subst mine
    simp only [stitchedTo, Function.update_self, recordInferred, runPhase, find_recordEvidence,
      if_true, Option.map_some, Option.getD_some]
    rw [terminal_recorded sound]
  · simp only [stitchedTo, Function.update_of_ne mine, if_neg mine]

end Steps

/-! ### Citations -/

section Citations

variable {event : AuditEvent} {tables : ConvergenceTables}

/-- What is cited after an event was recorded: that event by its run, and what was cited before. -/
theorem cites_recordEvidence_iff {run key : RunKey} {accountRef : Str} {inferred : Bool}
    {other : AuditEvent} :
    Cites (recordEvidence event run (newRun accountRef inferred) tables) key other ↔
      (key = run ∧ other.id = event.id) ∨ Cites tables key other := by
  unfold Cites
  rw [find_recordEvidence]
  split
  · next same =>
      subst same
      simp only [Option.some.injEq, exists_eq_left', evidence_recordedRun, Finset.mem_insert,
        true_and]
      cases tables.runs.find key with
      | none => simp [newRun]
      | some row => simp
  · next apart => simp [apart]

end Citations

/-! ### What holds after every event -/

/-- The unnamed evidence of the runs, against the events projected so far. -/
structure UnnamedParts (done : List AuditEvent) (tables : ConvergenceTables) : Prop where
  begun : ∀ run, ∀ event ∈ done, ¬ namesRun event → Cites tables run event →
    ∃ opener, Opens done opener ∧ opener.engineId = run.1 ∧ inferredRunId opener = run.2
  ended : ∀ run, ∀ last ∈ done, ¬ namesRun last → Cites tables run last → isTerminal last = true →
    ∀ event ∈ done, ¬ namesRun event → Cites tables run event →
      event = last ∨ Before done event last ∧ isTerminal event = false
  ordered : ∀ one two, one.1 = two.1 → one ≠ two →
    (∀ first ∈ done, ∀ second ∈ done, ¬ namesRun first → ¬ namesRun second →
      Cites tables one first → Cites tables two second → Before done first second) ∨
    (∀ first ∈ done, ∀ second ∈ done, ¬ namesRun first → ¬ namesRun second →
      Cites tables one first → Cites tables two second → Before done second first)

/-- The rows and the map of open runs, against the events projected so far. -/
structure Parted (done : List AuditEvent) (state : ConvergenceState) : Prop where
  open_iff : ∀ engineId, (state.active engineId).isSome = runOpen done engineId
  /-- No terminal event is evidence of an open run. -/
  calm : ∀ engineId runId, state.active engineId = some runId → ∀ event ∈ done,
    Cites state.tables (engineId, runId) event → isTerminal event = false
  named : ∀ event ∈ done, namesRun event →
    Cites state.tables (event.engineId, explicitRunId event) event
  own : ∀ run, ∀ event ∈ done, namesRun event → Cites state.tables run event →
    explicitRunId event = run.2
  stitched : ∀ event ∈ done, stitches event = true →
    ∃ runId, Cites state.tables (event.engineId, runId) event
  opened : ∀ event, Opens done event → Cites state.tables (event.engineId, inferredRunId event) event
  parts : UnnamedParts done state.tables

theorem not_opens_nil {event : AuditEvent} : ¬ Opens [] event := by
  rintro ⟨earlier, later, split, -⟩
  exact List.append_ne_nil_of_right_ne_nil earlier (List.cons_ne_nil _ _) split.symm

theorem Parted.cleared : Parted [] .cleared where
  open_iff := fun _ => rfl
  calm := fun _ _ isOpen => by cases isOpen
  named := fun _ member => by cases member
  own := fun _ _ member => by cases member
  stitched := fun _ member => by cases member
  opened := fun _ opens => absurd opens not_opens_nil
  parts :=
    { begun := fun _ _ member => by cases member
      ended := fun _ _ member => by cases member
      ordered := fun _ _ _ _ => .inl fun _ member => by cases member }

theorem runOpen_append (done : List AuditEvent) (event : AuditEvent) (engineId : Str) :
    runOpen (done ++ [event]) engineId = leavesOpen engineId (runOpen done engineId) event := by
  rw [runOpen, List.foldl_append]
  rfl

/-- The runs that are begun with one more event. -/
theorem opens_append_iff {done : List AuditEvent} {event opener : AuditEvent} :
    Opens (done ++ [event]) opener ↔
      Opens done opener ∨
        opener = event ∧ stitches event = true ∧ runOpen done event.engineId = false := by
  constructor
  · rintro ⟨earlier, later, split, stitched, closed⟩
    rcases List.eq_nil_or_concat later with rfl | ⟨shorter, last, rfl⟩
    · obtain ⟨rfl, same⟩ := List.append_inj' split rfl
      cases same
      exact .inr ⟨rfl, stitched, closed⟩
    · have regroup : earlier ++ opener :: shorter.concat last =
          (earlier ++ opener :: shorter) ++ [last] := by simp
      rw [regroup] at split
      obtain ⟨rfl, -⟩ := List.append_inj' split rfl
      exact .inl ⟨earlier, shorter, rfl, stitched, closed⟩
  · rintro (⟨earlier, later, rfl, stitched, closed⟩ | ⟨rfl, stitched, closed⟩)
    · exact ⟨earlier, later ++ [event], by simp, stitched, closed⟩
    · exact ⟨done, [], rfl, stitched, closed⟩

section Kept

variable {done : List AuditEvent} {event : AuditEvent} {state : ConvergenceState}

/-- What an event cites of a row that is recorded, and of the rows before. -/
theorem Stitched.cites_recorded (stitched : Stitched done state)
    (fresh : ∀ other ∈ done, other.id ≠ event.id) {run key : RunKey} {accountRef : Str}
    {inferred : Bool} {other : AuditEvent} (member : other ∈ done ++ [event]) :
    Cites (recordEvidence event run (newRun accountRef inferred) state.tables) key other ↔
      other = event ∧ key = run ∨ other ∈ done ∧ Cites state.tables key other := by
  rw [cites_recordEvidence_iff]
  constructor
  · rintro (⟨same, cited⟩ | ⟨row, found, cited⟩)
    · rcases List.mem_append.mp member with old | new
      · exact absurd cited (fresh other old)
      · exact .inl ⟨List.mem_singleton.mp new, same⟩
    · rcases List.mem_append.mp member with old | new
      · exact .inr ⟨old, row, found, cited⟩
      · rw [List.mem_singleton.mp new] at cited
        exact absurd cited (stitched.uncited fresh found)
  · rintro (⟨rfl, rfl⟩ | ⟨-, cited⟩)
    · exact .inl ⟨rfl, rfl⟩
    · exact .inr cited

/-- Unnamed evidence stays as it is where an event adds none. -/
theorem UnnamedParts.append {tables next : ConvergenceTables} (parts : UnnamedParts done tables)
    (carried : ∀ run, ∀ other ∈ done ++ [event], ¬ namesRun other → Cites next run other →
      other ∈ done ∧ Cites tables run other) : UnnamedParts (done ++ [event]) next where
  begun := by
    intro run other member unnamed cited
    obtain ⟨old, before⟩ := carried run other member unnamed cited
    obtain ⟨opener, opens, facts⟩ := parts.begun run other old unnamed before
    exact ⟨opener, opens_append_iff.mpr (.inl opens), facts⟩
  ended := by
    intro run last lastMember lastUnnamed lastCited terminal other member unnamed cited
    obtain ⟨lastOld, lastBefore⟩ := carried run last lastMember lastUnnamed lastCited
    obtain ⟨old, before⟩ := carried run other member unnamed cited
    exact (parts.ended run last lastOld lastUnnamed lastBefore terminal other old unnamed before).imp_right
      fun facts => ⟨facts.1.append, facts.2⟩
  ordered := by
    intro one two sameEngine apart
    apply (parts.ordered one two sameEngine apart).imp
    · intro all first firstMember second secondMember firstUnnamed secondUnnamed firstCited secondCited
      obtain ⟨firstOld, firstBefore⟩ := carried one first firstMember firstUnnamed firstCited
      obtain ⟨secondOld, secondBefore⟩ := carried two second secondMember secondUnnamed secondCited
      exact (all first firstOld second secondOld firstUnnamed secondUnnamed firstBefore
        secondBefore).append
    · intro all first firstMember second secondMember firstUnnamed secondUnnamed firstCited secondCited
      obtain ⟨firstOld, firstBefore⟩ := carried one first firstMember firstUnnamed firstCited
      obtain ⟨secondOld, secondBefore⟩ := carried two second secondMember secondUnnamed secondCited
      exact (all first firstOld second secondOld firstUnnamed secondUnnamed firstBefore
        secondBefore).append

/-- The map of open runs after one more event. -/
theorem open_iff_append {next : ConvergenceState}
    (before : ∀ engineId, (state.active engineId).isSome = runOpen done engineId)
    (others : ∀ engineId, engineId ≠ event.engineId → next.active engineId = state.active engineId)
    (own : (next.active event.engineId).isSome =
      (((state.active event.engineId).isSome || stitches event) && !closes event))
    (engineId : Str) : (next.active engineId).isSome = runOpen (done ++ [event]) engineId := by
  rw [runOpen_append, leavesOpen]
  by_cases mine : event.engineId = engineId
  · subst mine
    rw [if_pos rfl, ← before, own]
  · rw [if_neg mine, others engineId (Ne.symm mine), before]

theorem stitches_facts (stitched : stitches event = true) :
    ¬ namesRun event ∧ eventMayNeedInferredConvergenceState event = true := by
  rw [stitches, Bool.and_eq_true, decide_eq_true_eq] at stitched
  refine ⟨stitched.1, ?_⟩
  rw [eventMayNeedInferredConvergenceState, stitched.2, Bool.true_or, Bool.true_or]

/-- An event that is not about convergence ends no run. -/
theorem isTerminal_of_irrelevant (irrelevant : eventMayNeedInferredConvergenceState event = false) :
    isTerminal event = false := by
  simp only [eventMayNeedInferredConvergenceState, Bool.or_eq_false_iff] at irrelevant
  have untyped : event.eventType ≠ lit "convergence_run_state" := by
    intro same
    rw [same] at irrelevant
    exact absurd irrelevant.1.1 (by decide)
  rw [isTerminal, inferredConvergenceEventIsTerminal, irrelevant.1.2, if_neg untyped]
  rfl

/-- The rows and the map after an event that leaves them alone. -/
theorem Parted.passes (parted : Parted done state) (stitched : Stitched done state)
    (fresh : ∀ other ∈ done, other.id ≠ event.id) (unnamed : ¬ namesRun event)
    (passes : eventMayNeedInferredConvergenceState event = false ∨
      stitches event = false ∧ state.active event.engineId = none) :
    Parted (done ++ [event]) state := by
  have notStitched : stitches event = false := by
    rcases passes with irrelevant | ⟨untyped, -⟩
    · rw [← Bool.not_eq_true]
      intro isStitched
      rw [(stitches_facts isStitched).2] at irrelevant
      cases irrelevant
    · exact untyped
  have carried : ∀ run, ∀ other ∈ done ++ [event], Cites state.tables run other → other ∈ done := by
    rintro run other member ⟨row, found, cited⟩
    rcases List.mem_append.mp member with old | new
    · exact old
    · rw [List.mem_singleton.mp new] at cited
      exact absurd cited (stitched.uncited fresh found)
  have last : ∀ other ∈ done ++ [event], other ∈ done ∨ other = event := by
    intro other member
    exact (List.mem_append.mp member).imp_right List.mem_singleton.mp
  refine
    { open_iff := open_iff_append parted.open_iff (fun _ _ => rfl) ?own
      calm := ?calm
      named := ?named
      own := fun run other member names cited =>
        parted.own run other (carried run other member cited) names cited
      stitched := ?stitched
      opened := ?opened
      parts := parted.parts.append fun run other member _ cited =>
        ⟨carried run other member cited, cited⟩ }
  case own =>
    rcases passes with irrelevant | ⟨-, closed⟩
    · have stays : closes event = false := by
        rw [closes, isTerminal_of_irrelevant irrelevant]
        simpa using unnamed
      rw [notStitched, stays]
      simp
    · rw [notStitched, closed]
      rfl
  case calm =>
    intro engineId runId isOpen other member cited
    exact parted.calm engineId runId isOpen other (carried _ other member cited) cited
  case named =>
    intro other member names
    rcases last other member with old | rfl
    · exact parted.named other old names
    · exact absurd names unnamed
  case stitched =>
    intro other member isStitched
    rcases last other member with old | rfl
    · exact parted.stitched other old isStitched
    · rw [notStitched] at isStitched
      cases isStitched
  case opened =>
    intro opener opens
    rcases opens_append_iff.mp opens with before | ⟨rfl, isStitched, -⟩
    · exact parted.opened opener before
    · rw [notStitched] at isStitched
      cases isStitched

/-- The rows and the map after an event that names its run. -/
theorem Parted.recordNamed (parted : Parted done state) (stitched : Stitched done state)
    (fresh : ∀ other ∈ done, other.id ≠ event.id) (named : namesRun event) :
    Parted (done ++ [event])
      ⟨recordEvidence event (event.engineId, explicitRunId event) (newRun event.accountRef false)
        state.tables, Function.update state.active event.engineId none⟩ := by
  have mine : event ∈ done ++ [event] := List.mem_append_right _ (List.mem_singleton.mpr rfl)
  have kept : ∀ {run other}, other ∈ done → Cites state.tables run other →
      Cites (recordEvidence event (event.engineId, explicitRunId event)
        (newRun event.accountRef false) state.tables) run other := fun member cited =>
    (stitched.cites_recorded fresh (List.mem_append_left _ member)).mpr (.inr ⟨member, cited⟩)
  have notStitched : stitches event = false := by
    simp [stitches, named]
  refine
    { open_iff := open_iff_append parted.open_iff (fun _ other => Function.update_of_ne other _ _) ?own
      calm := ?calm
      named := ?named
      own := ?owned
      stitched := ?stitched
      opened := ?opened
      parts := parted.parts.append ?carried }
  case own =>
    rw [closes, decide_eq_true named]
    simp
  case calm =>
    intro engineId runId isOpen other member cited
    by_cases same : engineId = event.engineId
    · simp [same] at isOpen
    · simp only [Function.update_of_ne same] at isOpen
      rcases (stitched.cites_recorded fresh member).mp cited with ⟨-, equal⟩ | ⟨old, before⟩
      · exact absurd (congrArg Prod.fst equal) same
      · exact parted.calm engineId runId isOpen other old before
  case named =>
    intro other member names
    rcases List.mem_append.mp member with old | new
    · exact kept old (parted.named other old names)
    · rw [List.mem_singleton.mp new]
      exact (stitched.cites_recorded fresh mine).mpr (.inl ⟨rfl, rfl⟩)
  case owned =>
    intro run other member names cited
    rcases (stitched.cites_recorded fresh member).mp cited with ⟨rfl, rfl⟩ | ⟨old, before⟩
    · rfl
    · exact parted.own run other old names before
  case stitched =>
    intro other member isStitched
    rcases List.mem_append.mp member with old | new
    · obtain ⟨runId, cited⟩ := parted.stitched other old isStitched
      exact ⟨runId, kept old cited⟩
    · rw [List.mem_singleton.mp new, notStitched] at isStitched
      cases isStitched
  case opened =>
    intro opener opens
    rcases opens_append_iff.mp opens with before | ⟨rfl, isStitched, -⟩
    · obtain ⟨earlier, later, rfl, -⟩ := id before
      exact kept (by simp) (parted.opened opener before)
    · rw [notStitched] at isStitched
      cases isStitched
  case carried =>
    intro run other member unnamed cited
    rcases (stitched.cites_recorded fresh member).mp cited with ⟨rfl, -⟩ | before
    · exact absurd named unnamed
    · exact before

/-- The evidence of a run is by its engine and about convergence. -/
theorem Stitched.cited_facts (stitched : Stitched done state)
    (distinct : ∀ one ∈ done, ∀ two ∈ done, one.id = two.id → one = two) {run : RunKey}
    {other : AuditEvent} (member : other ∈ done) (cited : Cites state.tables run other) :
    other.engineId = run.1 ∧ ConvergenceRelevant other := by
  obtain ⟨row, found, inside⟩ := cited
  obtain ⟨known, knownMember, same, facts⟩ := (stitched.rows run.1 run.2 row found).known _ inside
  rw [← distinct known knownMember other member same]
  exact facts

/-- How an event finds the run it is stitched to: it is open, or the event begins it. -/
def FindsRun (event : AuditEvent) (state : ConvergenceState) (runId : Str) : Prop :=
  state.active event.engineId = some runId ∨
    state.active event.engineId = none ∧ stitches event = true ∧ runId = inferredRunId event ∧
      state.tables.runs.find (event.engineId, runId) = none

/-- Earlier evidence of the run an event is stitched to leaves the run open. -/
theorem Parted.calm_found (parted : Parted done state) {runId : Str}
    (finds : FindsRun event state runId) {other : AuditEvent} (member : other ∈ done)
    (cited : Cites state.tables (event.engineId, runId) other) : isTerminal other = false := by
  rcases finds with isOpen | ⟨-, -, -, untaken⟩
  · exact parted.calm _ runId isOpen other member cited
  · obtain ⟨row, found, -⟩ := cited
    rw [untaken] at found
    cases found

/-- The other runs of the engine come before the run an event is stitched to. -/
theorem Stitched.before_found (stitched : Stitched done state)
    (distinct : ∀ one ∈ done, ∀ two ∈ done, one.id = two.id → one = two) {runId : Str}
    (finds : FindsRun event state runId) {run : RunKey} (sameEngine : run.1 = event.engineId)
    (apart : run ≠ (event.engineId, runId)) {first second : AuditEvent} (firstMember : first ∈ done)
    (firstCited : Cites state.tables run first) (secondMember : second ∈ done)
    (secondCited : Cites state.tables (event.engineId, runId) second) :
    Before done first second := by
  obtain ⟨row, found, cited⟩ := secondCited
  rcases finds with isOpen | ⟨-, -, -, untaken⟩
  · obtain ⟨openRow, isOpenRun⟩ := stitched.opened _ _ isOpen
    have sameRow : openRow = row := by
      rw [isOpenRun.found] at found
      exact Option.some.inj found
    subst sameRow
    obtain ⟨engine, relevant⟩ := stitched.cited_facts distinct firstMember firstCited
    apply isOpenRun.earlier first firstMember (engine.trans sameEngine) relevant _ second
      secondMember cited
    intro both
    obtain ⟨firstRow, firstFound, firstInside⟩ := firstCited
    exact apart (stitched.apart run _ firstRow openRow firstFound found _ firstInside both)
  · rw [untaken] at found
    cases found

/-- The unnamed evidence after an event was stitched to a run. -/
theorem UnnamedParts.recordStitched (parted : Parted done state) (stitched : Stitched done state)
    (fresh : ∀ other ∈ done, other.id ≠ event.id)
    (distinct : ∀ one ∈ done, ∀ two ∈ done, one.id = two.id → one = two) {runId : Str}
    (finds : FindsRun event state runId) :
    UnnamedParts (done ++ [event]) (stitchedTo event runId state).tables := by
  have cites : ∀ {run other}, other ∈ done ++ [event] →
      (Cites (stitchedTo event runId state).tables run other ↔
        other = event ∧ run = (event.engineId, runId) ∨ other ∈ done ∧ Cites state.tables run other) :=
    fun member => stitched.cites_recorded fresh member
  refine { begun := ?begun, ended := ?ended, ordered := ?ordered }
  case begun =>
    intro run other member unnamed cited
    rcases (cites member).mp cited with ⟨rfl, rfl⟩ | ⟨old, before⟩
    · rcases finds with isOpen | ⟨closed, isStitched, rfl, -⟩
      · -- the last event of the open run tells which event began it
        obtain ⟨row, isOpenRun⟩ := stitched.opened _ _ isOpen
        obtain ⟨last, lastMember, lastCited, -⟩ := isOpenRun.latest
        obtain ⟨opener, opens, facts⟩ := parted.parts.begun _ last lastMember
          (isOpenRun.unnamed last lastMember lastCited) ⟨row, isOpenRun.found, lastCited⟩
        exact ⟨opener, opens_append_iff.mpr (.inl opens), facts⟩
      · refine ⟨other, opens_append_iff.mpr (.inr ⟨rfl, isStitched, ?_⟩), rfl, rfl⟩
        rw [← parted.open_iff, closed]
        rfl
    · obtain ⟨opener, opens, facts⟩ := parted.parts.begun run other old unnamed before
      exact ⟨opener, opens_append_iff.mpr (.inl opens), facts⟩
  case ended =>
    intro run last lastMember lastUnnamed lastCited terminal other member unnamed cited
    rcases (cites lastMember).mp lastCited with ⟨rfl, rfl⟩ | ⟨lastOld, lastBefore⟩
    · rcases (cites member).mp cited with ⟨rfl, -⟩ | ⟨old, before⟩
      · exact .inl rfl
      · exact .inr ⟨before_last old, parted.calm_found finds old before⟩
    · rcases (cites member).mp cited with ⟨rfl, rfl⟩ | ⟨old, before⟩
      · rw [parted.calm_found finds lastOld lastBefore] at terminal
        cases terminal
      · exact (parted.parts.ended run last lastOld lastUnnamed lastBefore terminal other old unnamed
          before).imp_right fun facts => ⟨facts.1.append, facts.2⟩
  case ordered =>
    intro one two sameEngine apart
    -- the run that the event joins is the last of its engine
    have afterOthers : ∀ {run}, run.1 = event.engineId → run ≠ (event.engineId, runId) →
        ∀ {first second}, first ∈ done ++ [event] → second ∈ done ++ [event] →
          Cites (stitchedTo event runId state).tables run first →
          Cites (stitchedTo event runId state).tables (event.engineId, runId) second →
            Before (done ++ [event]) first second := by
      intro run engine different first second firstMember secondMember firstCited secondCited
      rcases (cites firstMember).mp firstCited with ⟨-, same⟩ | ⟨firstOld, firstBefore⟩
      · exact absurd same different
      · rcases (cites secondMember).mp secondCited with ⟨rfl, -⟩ | ⟨secondOld, secondBefore⟩
        · exact before_last firstOld
        · exact (stitched.before_found distinct finds engine different firstOld firstBefore secondOld
            secondBefore).append
    by_cases oneFound : one = (event.engineId, runId)
    · right
      intro first firstMember second secondMember _ _ firstCited secondCited
      subst oneFound
      exact afterOthers sameEngine.symm (Ne.symm apart) secondMember firstMember secondCited firstCited
    · by_cases twoFound : two = (event.engineId, runId)
      · left
        intro first firstMember second secondMember _ _ firstCited secondCited
        subst twoFound
        exact afterOthers sameEngine oneFound firstMember secondMember firstCited secondCited
      · apply (parted.parts.ordered one two sameEngine apart).imp
        · intro all first firstMember second secondMember firstUnnamed secondUnnamed firstCited
            secondCited
          rcases (cites firstMember).mp firstCited with ⟨-, same⟩ | ⟨firstOld, firstBefore⟩
          · exact absurd same oneFound
          rcases (cites secondMember).mp secondCited with ⟨-, same⟩ | ⟨secondOld, secondBefore⟩
          · exact absurd same twoFound
          exact (all first firstOld second secondOld firstUnnamed secondUnnamed firstBefore
            secondBefore).append
        · intro all first firstMember second secondMember firstUnnamed secondUnnamed firstCited
            secondCited
          rcases (cites firstMember).mp firstCited with ⟨-, same⟩ | ⟨firstOld, firstBefore⟩
          · exact absurd same oneFound
          rcases (cites secondMember).mp secondCited with ⟨-, same⟩ | ⟨secondOld, secondBefore⟩
          · exact absurd same twoFound
          exact (all first firstOld second secondOld firstUnnamed secondUnnamed firstBefore
            secondBefore).append

/-- The rows and the map after an event was stitched to a run. -/
theorem Parted.recordStitched (parted : Parted done state) (stitched : Stitched done state)
    (sound : SoundEvent event) (fresh : ∀ other ∈ done, other.id ≠ event.id)
    (distinct : ∀ one ∈ done, ∀ two ∈ done, one.id = two.id → one = two)
    (unnamed : ¬ namesRun event) {runId : Str} (finds : FindsRun event state runId) :
    Parted (done ++ [event]) (stitchedTo event runId state) := by
  have mine : event ∈ done ++ [event] := List.mem_append_right _ (List.mem_singleton.mpr rfl)
  have cites : ∀ {run other}, other ∈ done ++ [event] →
      (Cites (stitchedTo event runId state).tables run other ↔
        other = event ∧ run = (event.engineId, runId) ∨ other ∈ done ∧ Cites state.tables run other) :=
    fun member => stitched.cites_recorded fresh member
  have kept : ∀ {run other}, other ∈ done → Cites state.tables run other →
      Cites (stitchedTo event runId state).tables run other := fun member cited =>
    (cites (List.mem_append_left _ member)).mpr (.inr ⟨member, cited⟩)
  refine
    { open_iff := open_iff_append parted.open_iff ?others ?own
      calm := ?calm
      named := ?named
      own := ?owned
      stitched := ?stitched
      opened := ?opened
      parts := UnnamedParts.recordStitched parted stitched fresh distinct finds }
  case others =>
    intro engineId other
    rw [active_stitchedTo sound, if_neg other]
  case own =>
    have joined : ((state.active event.engineId).isSome || stitches event) = true := by
      rcases finds with isOpen | ⟨-, isStitched, -⟩
      · rw [isOpen]
        rfl
      · rw [isStitched, Bool.or_true]
    rw [active_stitchedTo sound, if_pos rfl, joined, closes, decide_eq_false unnamed]
    cases isTerminal event <;> rfl
  case calm =>
    intro engineId openId isOpen other member cited
    rw [active_stitchedTo sound] at isOpen
    split at isOpen
    · next same =>
        subst same
        split at isOpen
        · cases isOpen
        · next stays =>
            cases isOpen
            rcases (cites member).mp cited with ⟨rfl, -⟩ | ⟨old, before⟩
            · exact eq_false_of_ne_true stays
            · exact parted.calm_found finds old before
    · next different =>
        rcases (cites member).mp cited with ⟨-, equal⟩ | ⟨old, before⟩
        · exact absurd (congrArg Prod.fst equal) different
        · exact parted.calm engineId openId isOpen other old before
  case named =>
    intro other member names
    rcases List.mem_append.mp member with old | new
    · exact kept old (parted.named other old names)
    · rw [List.mem_singleton.mp new] at names
      exact absurd names unnamed
  case owned =>
    intro run other member names cited
    rcases (cites member).mp cited with ⟨rfl, -⟩ | ⟨old, before⟩
    · exact absurd names unnamed
    · exact parted.own run other old names before
  case stitched =>
    intro other member isStitched
    rcases List.mem_append.mp member with old | new
    · obtain ⟨known, cited⟩ := parted.stitched other old isStitched
      exact ⟨known, kept old cited⟩
    · rw [List.mem_singleton.mp new]
      exact ⟨runId, (cites mine).mpr (.inl ⟨rfl, rfl⟩)⟩
  case opened =>
    intro opener opens
    rcases opens_append_iff.mp opens with before | ⟨rfl, isStitched, closed⟩
    · obtain ⟨earlier, later, rfl, -⟩ := id before
      exact kept (by simp) (parted.opened opener before)
    · rcases finds with isOpen | ⟨-, -, rfl, -⟩
      · rw [← parted.open_iff, isOpen] at closed
        cases closed
      · exact (cites mine).mpr (.inl ⟨rfl, rfl⟩)

/-- One event keeps the partition. -/
theorem Parted.step {next : ConvergenceState} (parted : Parted done state)
    (stitched : Stitched done state) (sound : SoundEvent event)
    (fresh : ∀ other ∈ done, other.id ≠ event.id)
    (distinct : ∀ one ∈ done, ∀ two ∈ done, one.id = two.id → one = two)
    (stepped : state.step event = some next) : Parted (done ++ [event]) next := by
  by_cases named : namesRun event
  · rw [step_named sound named] at stepped
    cases stepped
    exact parted.recordNamed stitched fresh named
  by_cases relevant : eventMayNeedInferredConvergenceState event = true
  · cases active : state.active event.engineId with
    | some runId =>
        rw [step_joins sound named active relevant] at stepped
        cases stepped
        exact parted.recordStitched stitched sound fresh distinct named (.inl active)
    | none =>
        cases isStitched : stitches event with
        | true =>
            rw [step_begins sound isStitched active] at stepped
            split at stepped
            · cases stepped
            · next untaken =>
                cases stepped
                rw [Bool.not_eq_true, Option.isSome_eq_false_iff, Option.isNone_iff_eq_none]
                  at untaken
                apply parted.recordStitched stitched sound fresh distinct named
                exact .inr ⟨active, isStitched, rfl, untaken⟩
        | false =>
            have passes : eventMayNeedInferredConvergenceState event = false ∨
                stitches event = false ∧ state.active event.engineId = none :=
              .inr ⟨isStitched, active⟩
            rw [step_passes sound named passes] at stepped
            cases stepped
            exact parted.passes stitched fresh named passes
  · have passes : eventMayNeedInferredConvergenceState event = false ∨
        stitches event = false ∧ state.active event.engineId = none :=
      .inl (eq_false_of_ne_true relevant)
    rw [step_passes sound named passes] at stepped
    cases stepped
    exact parted.passes stitched fresh named passes

end Kept

/-! ### Whole runs -/

/-- The ids under which two runs begin tell the events apart. -/
theorem inferredRunId_injective {one two : AuditEvent} (engine : one.engineId = two.engineId)
    (same : inferredRunId one = inferredRunId two) : one.id = two.id := by
  unfold inferredRunId at same
  rw [engine] at same
  have digits := List.append_cancel_left same
  rw [← digitsValue_natText one.id, ← digitsValue_natText two.id, digits]

theorem Opens.mem {events : List AuditEvent} {event : AuditEvent} (opens : Opens events event) :
    event ∈ events ∧ stitches event = true := by
  obtain ⟨earlier, later, rfl, stitched, -⟩ := opens
  exact ⟨by simp, stitched⟩

/-- Where no event names a run that another begins, the id of a new run is free. -/
theorem Parted.untaken {done rest : List AuditEvent} {event : AuditEvent} {state : ConvergenceState}
    (parted : Parted done state) (stitched : Stitched done state)
    (fresh : ∀ other ∈ done, other.id ≠ event.id)
    (distinct : ∀ one ∈ done, ∀ two ∈ done, one.id = two.id → one = two)
    (clear : NoClash (done ++ event :: rest)) (isStitched : stitches event = true)
    (closed : state.active event.engineId = none) :
    state.tables.runs.find (event.engineId, inferredRunId event) = none := by
  cases found : state.tables.runs.find (event.engineId, inferredRunId event) with
  | none => rfl
  | some row =>
      exfalso
      obtain ⟨-, -, ⟨first, firstMember, firstCited, -⟩, -⟩ := (stitched.rows _ _ _ found).started
      have cited : Cites state.tables (event.engineId, inferredRunId event) first :=
        ⟨row, found, firstCited⟩
      have engine := (stitched.cited_facts distinct firstMember cited).1
      by_cases named : namesRun first
      · have opens : Opens (done ++ event :: rest) event := by
          refine ⟨done, rest, rfl, isStitched, ?_⟩
          rw [← parted.open_iff, closed]
          rfl
        exact clear event opens first (List.mem_append_left _ firstMember) engine
          (parted.own _ first firstMember named cited)
      · obtain ⟨opener, opens, sameEngine, sameId⟩ := parted.parts.begun _ first firstMember named cited
        exact fresh opener opens.mem.1 (inferredRunId_injective sameEngine sameId)

/-- Where no event names a run that another begins, every event is projected. -/
theorem Parted.steps {done rest : List AuditEvent} {event : AuditEvent} {state : ConvergenceState}
    (parted : Parted done state) (stitched : Stitched done state) (sound : SoundEvent event)
    (fresh : ∀ other ∈ done, other.id ≠ event.id)
    (distinct : ∀ one ∈ done, ∀ two ∈ done, one.id = two.id → one = two)
    (clear : NoClash (done ++ event :: rest)) : ∃ next, state.step event = some next := by
  by_cases named : namesRun event
  · exact ⟨_, step_named sound named⟩
  by_cases relevant : eventMayNeedInferredConvergenceState event = true
  · cases active : state.active event.engineId with
    | some runId => exact ⟨_, step_joins sound named active relevant⟩
    | none =>
        cases isStitched : stitches event with
        | true =>
            have untaken := parted.untaken stitched fresh distinct clear isStitched active
            rw [step_begins sound isStitched active, untaken]
            exact ⟨_, rfl⟩
        | false => exact ⟨_, step_passes sound named (.inr ⟨isStitched, active⟩)⟩
  · exact ⟨_, step_passes sound named (.inl (eq_false_of_ne_true relevant))⟩

section Replay

variable {done events : List AuditEvent} {state final : ConvergenceState}

/-- What the events of a group tell about the next of them. -/
theorem distinct_of_ids {event : AuditEvent} {rest : List AuditEvent}
    (ids : ((done ++ event :: rest).map (·.id)).Nodup) :
    (∀ other ∈ done, other.id ≠ event.id) ∧
      ∀ one ∈ done, ∀ two ∈ done, one.id = two.id → one = two := by
  constructor
  · intro other member same
    rw [List.map_append, List.map_cons] at ids
    exact (List.nodup_append.mp ids).2.2 _ (List.mem_map_of_mem member) _ List.mem_cons_self same
  · intro one oneMember two twoMember same
    exact List.inj_on_of_nodup_map ids (List.mem_append_left _ oneMember)
      (List.mem_append_left _ twoMember) same

/-- The rows and the map after a sequence of events. -/
theorem parted_replay (parted : Parted done state) (stitched : Stitched done state)
    (sound : SoundEvents (done ++ events)) (ids : ((done ++ events).map (·.id)).Nodup)
    (replayed : replay ConvergenceState.step state events = some final) :
    Parted (done ++ events) final := by
  induction events generalizing done state with
  | nil =>
      cases replayed
      rw [List.append_nil]
      exact parted
  | cons event rest inductionHypothesis =>
      rw [replay_cons, Option.bind_eq_some_iff] at replayed
      obtain ⟨next, stepped, rested⟩ := replayed
      have regroup : done ++ event :: rest = (done ++ [event]) ++ rest := by simp
      have here := sound event (List.mem_append_right _ List.mem_cons_self)
      obtain ⟨fresh, distinct⟩ := distinct_of_ids ids
      have partedNext := parted.step stitched here fresh distinct stepped
      have stitchedNext := stitched.step here fresh (stitchStep_of_step here.engine stepped)
      rw [regroup] at sound ids ⊢
      exact inductionHypothesis partedNext stitchedNext sound ids rested

/-- Where no event names a run that another begins, the whole sequence is projected. -/
theorem replays_of_noClash (parted : Parted done state) (stitched : Stitched done state)
    (sound : SoundEvents (done ++ events)) (ids : ((done ++ events).map (·.id)).Nodup)
    (clear : NoClash (done ++ events)) :
    ∃ final, replay ConvergenceState.step state events = some final := by
  induction events generalizing done state with
  | nil => exact ⟨state, rfl⟩
  | cons event rest inductionHypothesis =>
      have regroup : done ++ event :: rest = (done ++ [event]) ++ rest := by simp
      have here := sound event (List.mem_append_right _ List.mem_cons_self)
      obtain ⟨fresh, distinct⟩ := distinct_of_ids ids
      obtain ⟨next, stepped⟩ := parted.steps stitched here fresh distinct clear
      have partedNext := parted.step stitched here fresh distinct stepped
      have stitchedNext := stitched.step here fresh (stitchStep_of_step here.engine stepped)
      rw [regroup] at sound ids clear
      obtain ⟨final, replayed⟩ := inductionHypothesis partedNext stitchedNext sound ids clear
      exact ⟨final, by rw [replay_cons, stepped, Option.bind_some, replayed]⟩

end Replay

section Whole

variable {events : List AuditEvent} {final : ConvergenceState}

/-- The evidence of a run that no event names names no run. -/
theorem Parted.unnamed_of_inferred (parted : Parted events final) (stitched : Stitched events final)
    (distinct : ∀ one ∈ events, ∀ two ∈ events, one.id = two.id → one = two) {run : RunKey}
    (inferred : Inferred events run) {event : AuditEvent} (member : event ∈ events)
    (cited : Cites final.tables run event) : ¬ namesRun event := by
  intro named
  apply inferred event member (stitched.cited_facts distinct member cited).1
  exact parted.own run event member named cited

/-- Where no event names a run that another begins, the runs are what they should be. -/
theorem Parted.wellStitched (parted : Parted events final) (stitched : Stitched events final)
    (sound : SoundEvents events)
    (distinct : ∀ one ∈ events, ∀ two ∈ events, one.id = two.id → one = two)
    (clear : NoClash events) : WellStitched events final.tables where
  once := by
    intro event member concerned
    have cited : ∃ runId, Cites final.tables (event.engineId, runId) event := by
      by_cases named : namesRun event
      · exact ⟨_, parted.named event member named⟩
      · have typed : convergenceEventTypes.contains event.eventType = true :=
          concerned.resolve_right fun context =>
            context (noContext_of_unnamed (sound event member) named)
        apply parted.stitched event member
        rw [stitches, typed, decide_eq_true named]
        rfl
    obtain ⟨runId, row, found, inside⟩ := cited
    refine ⟨runId, ⟨row, found, inside⟩, ?_⟩
    rintro run ⟨other, otherFound, otherInside⟩
    exact stitched.apart _ _ _ _ otherFound found _ otherInside inside
  named := by
    intro namer member named
    obtain ⟨row, found, -⟩ := parted.named namer member named
    refine ⟨row, found, ?_⟩
    intro eventId
    constructor
    · intro inside
      obtain ⟨event, eventMember, rfl, engine, -⟩ := (stitched.rows _ _ _ found).known eventId inside
      refine ⟨event, eventMember, rfl, engine, ?_⟩
      by_cases names : namesRun event
      · exact parted.own _ event eventMember names ⟨row, found, inside⟩
      · obtain ⟨opener, opens, openerEngine, openerId⟩ :=
          parted.parts.begun _ event eventMember names ⟨row, found, inside⟩
        exact absurd openerId.symm (clear opener opens namer member openerEngine.symm)
    · rintro ⟨event, eventMember, rfl, engine, sameId⟩
      have names : namesRun event := by
        rw [namesRun, sameId]
        exact named
      obtain ⟨other, otherFound, inside⟩ := parted.named event eventMember names
      rw [engine, sameId, found] at otherFound
      cases otherFound
      exact inside
  unnamed := by
    intro run row found inferred eventId inside
    obtain ⟨event, member, rfl, engine, -⟩ := (stitched.rows run.1 run.2 row found).known eventId inside
    exact ⟨event, member, rfl, engine,
      parted.unnamed_of_inferred stitched distinct inferred member ⟨row, found, inside⟩⟩
  ended := by
    intro run inferred last lastMember lastCited terminal event member cited
    exact parted.parts.ended run last lastMember
      (parted.unnamed_of_inferred stitched distinct inferred lastMember lastCited) lastCited terminal
      event member (parted.unnamed_of_inferred stitched distinct inferred member cited) cited
  ordered := by
    intro one two oneInferred twoInferred sameEngine apart
    have oneUnnamed : ∀ event ∈ events, Cites final.tables one event → ¬ namesRun event :=
      fun event => parted.unnamed_of_inferred stitched distinct oneInferred
    have twoUnnamed : ∀ event ∈ events, Cites final.tables two event → ¬ namesRun event :=
      fun event => parted.unnamed_of_inferred stitched distinct twoInferred
    apply (parted.parts.ordered one two sameEngine apart).imp
    · intro all first firstMember second secondMember firstCited secondCited
      exact all first firstMember second secondMember (oneUnnamed first firstMember firstCited)
        (twoUnnamed second secondMember secondCited) firstCited secondCited
    · intro all first firstMember second secondMember firstCited secondCited
      exact all first firstMember second secondMember (oneUnnamed first firstMember firstCited)
        (twoUnnamed second secondMember secondCited) firstCited secondCited

theorem inferredRunId_ne_nil (event : AuditEvent) : inferredRunId event ≠ [] := by
  intro blank
  have lengths := congrArg List.length blank
  rw [inferredRunId, List.length_append, List.length_append, List.length_append] at lengths
  have start : (lit "inferred-").length = 9 := by decide
  rw [start, List.length_nil] at lengths
  omega

/-- A run that one event begins and another names holds an event it should not. -/
theorem WellStitched.noClash (whole : WellStitched events final.tables) (parted : Parted events final)
    (distinct : ∀ one ∈ events, ∀ two ∈ events, one.id = two.id → one = two) : NoClash events := by
  intro opener opens other member engine same
  have named : namesRun other := by
    rw [namesRun, same]
    exact inferredRunId_ne_nil opener
  obtain ⟨row, found, exact⟩ := whole.named other member named
  obtain ⟨openRow, openFound, inside⟩ := parted.opened opener opens
  rw [engine, same, openFound] at found
  cases found
  obtain ⟨event, eventMember, sameEvent, -, sameId⟩ := (exact opener.id).mp inside
  have isOpener := distinct event eventMember opener opens.mem.1 sameEvent
  rw [isOpener] at sameId
  have names : namesRun opener := by
    rw [namesRun, sameId]
    exact named
  exact (stitches_facts opens.mem.2).1 names

end Whole

end Goggles
