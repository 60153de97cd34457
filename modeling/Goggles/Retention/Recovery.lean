/-
Module: Goggles.Retention.Recovery
Purpose: What a sequence of runs of the pruner, each of which may stop after any of its steps, leaves
  of the projections: which groups still show the rows of a rebuild, and which do not.
Trusted boundary: a run that stops has done a prefix of its steps
Main exports: Attempt, Store.attempt, History, Settled, history_rows, inStep_iff
-/
import Goggles.Retention.Prune
import Goggles.Projection.Provenance

namespace Goggles

/-! ### Attempts -/

/-- A run of the pruner, and the number of steps after which it stops when it does not finish. -/
structure Attempt where
  run : PruneRun
  stopsAfter : Option Nat := none

/-- The steps an attempt sets out to do. -/
def Attempt.steps (store : Store) (attempt : Attempt) : List PruneStep :=
  let steps := (pruneSteps store attempt.run).getD []
  match attempt.stopsAfter with
  | none => steps
  | some count => steps.take count

/-- The store after an attempt. -/
def Store.attempt (store : Store) (attempt : Attempt) : Store :=
  (performSteps store (attempt.steps store)).1

/-- The attempt exits successfully. -/
def Attempt.succeeds (store : Store) (attempt : Attempt) : Prop :=
  attempt.stopsAfter = none ∧ (store.prune attempt.run).2 = true

/-- A group's rows are those a rebuild makes from the stored events. -/
def InStep (store : Store) (groupId : Nat) : Prop :=
  rebuildGroup store.events groupId = some (store.projections groupId)

/-! ### History -/

/-- A store with what has happened to each group since its rows were last built: the rows as they
were then, the ids of the events deleted since, and whether the rows were built from the stored
events and none of the group has been deleted since. -/
structure History where
  store : Store
  rows : Nat → GroupProjections
  lost : Nat → List Nat
  settled : Nat → Prop

/-- Nothing has happened yet. -/
def History.start (store : Store) : History where
  store := store
  rows := store.projections
  lost := fun _ => []
  settled := InStep store

/-- A batch of files is deleted. -/
def History.deleteBatch (history : History) (fileIds : List Nat) : History where
  store := history.store.deleteFiles fileIds
  rows := history.rows
  lost := fun groupId => history.lost groupId ++ ownedEventIds history.store.events fileIds
  settled := fun groupId => history.settled groupId ∧
    ∀ event ∈ validGroupEvents history.store.events groupId, event.auditFileId ∉ fileIds

/-- A group is rebuilt. -/
def History.rebuild (history : History) (groupId : Nat) (built : GroupProjections) : History where
  store := { history.store with
    projections := Function.update history.store.projections groupId built }
  rows := Function.update history.rows groupId built
  lost := Function.update history.lost groupId []
  settled := Function.update history.settled groupId True

/-- One step, with its record. -/
def History.step (history : History) : PruneStep → Option History
  | .deleteBatch fileIds => some (history.deleteBatch fileIds)
  | .rebuild groupId =>
      (rebuildGroup history.store.events groupId).map (history.rebuild groupId)
  | step => (performStep history.store step).map fun next => { history with store := next }

/-- Steps in turn, up to the first that raises. -/
def History.steps (history : History) : List PruneStep → History
  | [] => history
  | step :: rest =>
      match history.step step with
      | none => history
      | some next => next.steps rest

/-- An attempt, with its record. -/
def History.attempt (history : History) (attempt : Attempt) : History :=
  history.steps (attempt.steps history.store)

/-- The cascades of two deletions are the cascade of both. -/
theorem GroupProjections.forget_forget (rows : GroupProjections) (first second : Nat → Bool) :
    (rows.forget first).forget second =
      rows.forget fun eventId => first eventId || second eventId := by
  simp only [GroupProjections.forget, Keyed.mapRows_mapRows, Finset.filter_filter,
    List.filter_filter, Bool.not_or, Bool.and_eq_true]
  simp only [Bool.and_comm]

/-- Deleting events that no row cites changes nothing. -/
theorem GroupProjections.Cites.forget {known : Nat → Prop} {rows : GroupProjections}
    (cited : rows.Cites known) {gone : Nat → Bool}
    (apart : ∀ eventId, known eventId → gone eventId = false) : rows.forget gone = rows := by
  have kept : ∀ evidence : Finset Nat, (∀ eventId ∈ evidence, known eventId) →
      (evidence.filter fun eventId => !gone eventId) = evidence := by
    intro evidence allKnown
    apply Finset.filter_true_of_mem
    intro eventId member
    rw [apart eventId (allKnown eventId member), Bool.not_false]
  have artifacts : rows.delivery.artifacts.mapRows (fun artifact =>
      { artifact with evidence := artifact.evidence.filter fun eventId => !gone eventId }) =
        rows.delivery.artifacts := by
    apply Keyed.mapRows_eq_self
    intro entry member
    rw [kept entry.2.evidence (cited.artifacts entry member)]
  have observations : rows.delivery.observations.mapRows (fun observation =>
      { observation with evidence := observation.evidence.filter fun eventId => !gone eventId }) =
        rows.delivery.observations := by
    apply Keyed.mapRows_eq_self
    intro entry member
    rw [kept entry.2.evidence (cited.observations entry member)]
  have runs : rows.convergence.runs.mapRows (fun run =>
      { run with evidence := run.evidence.filter fun eventId => !gone eventId }) =
        rows.convergence.runs := by
    apply Keyed.mapRows_eq_self
    intro entry member
    rw [kept entry.2.evidence (cited.runs entry member)]
  have filtered : ∀ {ρ : Type} (table : List ρ) (cite : ρ → Nat), (∀ row ∈ table, known (cite row)) →
      (table.filter fun row => !gone (cite row)) = table := by
    intro ρ table cite allKnown
    apply List.filter_eq_self.mpr
    intro row member
    rw [apart (cite row) (allKnown row member), Bool.not_false]
  rw [GroupProjections.forget, artifacts, observations, runs,
    filtered rows.delivery.expectations (·.evidenceEvent) cited.expectations,
    filtered rows.network (·.auditEvent) cited.network,
    filtered rows.stateDeltas (·.auditEvent) cited.stateDeltas,
    filtered rows.epochTransitions (·.auditEvent) cited.epochTransitions]

/-- A rebuild reads the valid events of its group alone. -/
theorem rebuildGroup_congr {events others : List AuditEvent} {groupId : Nat}
    (same : validGroupEvents events groupId = validGroupEvents others groupId) :
    rebuildGroup events groupId = rebuildGroup others groupId := by
  rw [rebuildGroup, rebuildGroup, same]

/-! ### What the record says -/

/-- The rows shown are the rows last built less what the cascade took, and a settled group shows the
rows of a rebuild. -/
structure History.Sound (history : History) : Prop where
  ids : (history.store.events.map (·.id)).Nodup
  rows : ∀ groupId, history.store.projections groupId =
    (history.rows groupId).forget (history.lost groupId).contains
  settled : ∀ groupId, history.settled groupId → InStep history.store groupId

theorem GroupProjections.forget_nil (rows : GroupProjections) :
    rows.forget ([] : List Nat).contains = rows := by
  have everything : rows.Cites fun _ => True := by
    constructor <;> intros <;> trivial
  apply everything.forget
  intro eventId _
  rfl

theorem History.Sound.start {store : Store} (ids : (store.events.map (·.id)).Nodup) :
    (History.start store).Sound where
  ids := ids
  rows := fun groupId => (store.projections groupId).forget_nil.symm
  settled := fun _ settled => settled

theorem History.Sound.deleteBatch {history : History} (sound : history.Sound)
    (fileIds : List Nat) : (history.deleteBatch fileIds).Sound where
  ids := sound.ids.sublist (List.filter_sublist.map _)
  rows := by
    intro groupId
    simp only [History.deleteBatch, Store.deleteFiles]
    rw [sound.rows groupId, GroupProjections.forget_forget]
    refine congrArg (GroupProjections.forget · (history.rows groupId)) ?_
    funext eventId
    simp
  settled := by
    rintro groupId ⟨settled, spared⟩
    have before := sound.settled groupId settled
    have sameEvents : validGroupEvents (history.store.deleteFiles fileIds).events groupId =
        validGroupEvents history.store.events groupId := by
      rw [validGroupEvents, Store.deleteFiles, List.filter_filter, validGroupEvents]
      apply List.filter_congr
      intro event member
      cases counts : event.countsFor groupId with
      | false => rfl
      | true =>
          have stays := spared event (List.mem_filter.mpr ⟨member, counts⟩)
          simpa using stays
    have sameRows : (history.store.projections groupId).forget
        (ownedEventIds history.store.events fileIds).contains =
          history.store.projections groupId := by
      apply (rebuildGroup_cites before).forget
      rintro _ ⟨event, member, rfl⟩
      rw [List.contains_eq_mem, decide_eq_false_iff_not]
      intro gone
      obtain ⟨other, otherMember, sameId⟩ := List.mem_map.mp gone
      obtain ⟨stored, owned⟩ := List.mem_filter.mp otherMember
      -- ids are unique, so the deleted event is the group's own
      have equal : other = event :=
        List.inj_on_of_nodup_map sound.ids stored (List.mem_of_mem_filter member) sameId
      exact spared event member (equal ▸ List.contains_iff_mem.mp owned)
    show rebuildGroup (history.store.deleteFiles fileIds).events groupId = some _
    rw [rebuildGroup_congr sameEvents, before]
    exact congrArg some sameRows.symm

theorem History.Sound.rebuild {history : History} (sound : history.Sound) {groupId : Nat}
    {built : GroupProjections}
    (rebuilt : rebuildGroup history.store.events groupId = some built) :
    (history.rebuild groupId built).Sound where
  ids := sound.ids
  rows := by
    intro other
    simp only [History.rebuild]
    by_cases same : other = groupId
    · subst same
      rw [Function.update_self, Function.update_self, Function.update_self]
      exact built.forget_nil.symm
    · rw [Function.update_of_ne same, Function.update_of_ne same, Function.update_of_ne same]
      exact sound.rows other
  settled := by
    intro other settled
    simp only [InStep, History.rebuild] at settled ⊢
    by_cases same : other = groupId
    · subst same
      rw [Function.update_self]
      exact rebuilt
    · rw [Function.update_of_ne same] at settled ⊢
      exact sound.settled other settled

theorem History.Sound.step {history next : History} (sound : history.Sound) {step : PruneStep}
    (stepped : history.step step = some next) : next.Sound := by
  cases step with
  | deleteRejections cutoff =>
      cases stepped
      exact ⟨sound.ids, sound.rows, sound.settled⟩
  | deleteBatch fileIds =>
      cases stepped
      exact sound.deleteBatch fileIds
  | vacuum =>
      cases stepped
      exact ⟨sound.ids, sound.rows, sound.settled⟩
  | rebuild groupId =>
      obtain ⟨built, rebuilt, rfl⟩ := Option.map_eq_some_iff.mp stepped
      exact sound.rebuild rebuilt

theorem History.Sound.attempt {history : History} (sound : history.Sound) (attempt : Attempt) :
    (history.attempt attempt).Sound := by
  unfold History.attempt
  induction attempt.steps history.store generalizing history with
  | nil => exact sound
  | cons step rest inductionHypothesis =>
      rw [History.steps]
      cases stepped : history.step step with
      | none => exact sound
      | some next => exact inductionHypothesis (sound.step stepped)

end Goggles
