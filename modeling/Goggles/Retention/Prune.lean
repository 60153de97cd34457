/-
Module: Goggles.Retention.Prune
Purpose: The retention command as a list of steps that commit one by one, and what is left of the
  evidence when any of them is the last.
Trusted boundary: forensics/management/commands/prune_audit_data.py and rebuild_audit_projections.py.
  A statement or a rebuild that raises leaves no trace.  Files of one instant are deleted in the order
  of their rows; the order of the groups, by their update time, is an input of the run
Main exports: GroupProjections.forget, Store.deleteFiles, PruneStep, PruneRun, pruneSteps,
  performSteps, Store.prune, Deleted, Operation, Store.perform
-/
import Goggles.Store.Upload
import Mathlib.Order.OrderDual

namespace Goggles

/-! ### Deleting files -/

/-- What the cascade of deleted events leaves of a group's rows: rows of the events go, evidence
links go, and the rows that only collected evidence stay. -/
def GroupProjections.forget (gone : Nat → Bool) (rows : GroupProjections) : GroupProjections where
  delivery :=
    { artifacts := rows.delivery.artifacts.mapRows fun artifact =>
        { artifact with evidence := artifact.evidence.filter fun eventId => !gone eventId }
      observations := rows.delivery.observations.mapRows fun observation =>
        { observation with evidence := observation.evidence.filter fun eventId => !gone eventId }
      expectations := rows.delivery.expectations.filter fun row => !gone row.evidenceEvent }
  network := rows.network.filter fun row => !gone row.auditEvent
  convergence :=
    { rows.convergence with
      runs := rows.convergence.runs.mapRows fun run =>
        { run with evidence := run.evidence.filter fun eventId => !gone eventId } }
  stateDeltas := rows.stateDeltas.filter fun row => !gone row.auditEvent
  epochTransitions := rows.epochTransitions.filter fun row => !gone row.auditEvent

/-- The ids of the events some files own. -/
def ownedEventIds (events : List AuditEvent) (fileIds : List Nat) : List Nat :=
  (events.filter fun event => fileIds.contains event.auditFileId).map (·.id)

/-- `AuditFile.objects.filter(id__in=batch).delete()`. -/
def Store.deleteFiles (store : Store) (fileIds : List Nat) : Store :=
  { store with
    files := store.files.filter fun file => !fileIds.contains file.id
    events := store.events.filter fun event => !fileIds.contains event.auditFileId
    projections := fun groupId =>
      (store.projections groupId).forget (ownedEventIds store.events fileIds).contains }

/-! ### The command -/

def DELETE_BATCH_SIZE : Nat := 200

/-- The slices `ids[start : start + size]` for `start` in `range(0, len(ids), size)`. -/
def batches (size : Nat) (ids : List Nat) : List (List Nat) :=
  (List.range ((ids.length + size - 1) / size)).map fun index =>
    (ids.drop (index * size)).take size

/-- A statement or transaction of the command that commits on its own. -/
inductive PruneStep where
  | deleteRejections (cutoff : Int)
  | deleteBatch (fileIds : List Nat)
  | vacuum
  | rebuild (groupId : Nat)
deriving Repr, DecidableEq

/-- One call of the command.  Instants are in microseconds. -/
structure PruneRun where
  now : Nat
  retentionDays : Int
  dryRun : Bool := false
  groupRank : Nat → Nat := id

def microsecondsPerDay : Int := 86400000000

def PruneRun.cutoff (run : PruneRun) : Int := run.now - run.retentionDays * microsecondsPerDay

/-- `created_at__lt=cutoff`. -/
def isStale (cutoff : Int) (createdAt : Nat) : Bool := decide ((createdAt : Int) < cutoff)

/-- `stale_file_ids`. -/
def staleFileIds (store : Store) (cutoff : Int) : List Nat :=
  (inOrder (fun file => OrderDual.toDual file.createdAt)
    (store.files.filter fun file => isStale cutoff file.createdAt)).map (·.id)

/-- `touched_group_ids`. -/
def touchedGroupIds (store : Store) (fileIds : List Nat) : List Nat :=
  (store.files.filter fun file => fileIds.contains file.id).flatMap fun file =>
    file.groups ∪ eventGroups store.events file.id

/-- The groups to rebuild, as the query returns them. -/
def staleGroups (store : Store) (run : PruneRun) : List Nat :=
  inOrder run.groupRank <| (store.groups.map (·.id)).filter
    (touchedGroupIds store (staleFileIds store run.cutoff)).contains

/-- The deletions of a run. -/
def deletionSteps (store : Store) (cutoff : Int) : List PruneStep :=
  let staleFileIds := staleFileIds store cutoff
  .deleteRejections cutoff ::
    if staleFileIds = [] then []
    else (batches DELETE_BATCH_SIZE staleFileIds).map .deleteBatch ++ [.vacuum]

/-- `prune`: the steps it takes, or `none` for a refused argument. -/
def pruneSteps (store : Store) (run : PruneRun) : Option (List PruneStep) :=
  if run.retentionDays ≤ 0 then none
  else if staleFileIds store run.cutoff = [] ∧
      (store.rejections.filter fun row => isStale run.cutoff row.createdAt) = [] then some []
  else if run.dryRun then some []
  else some (deletionSteps store run.cutoff ++ (staleGroups store run).map .rebuild)

/-- One step; `none` when it raises. -/
def performStep (store : Store) : PruneStep → Option Store
  | .deleteRejections cutoff =>
      some { store with
        rejections := store.rejections.filter fun row => !isStale cutoff row.createdAt }
  | .deleteBatch fileIds => some (store.deleteFiles fileIds)
  | .vacuum => some store
  | .rebuild groupId =>
      (rebuildGroup store.events groupId).map fun rows =>
        { store with projections := Function.update store.projections groupId rows }

/-- Steps in turn, up to the first that raises; whether all of them were done. -/
def performSteps (store : Store) : List PruneStep → Store × Bool
  | [] => (store, true)
  | step :: rest =>
      match performStep store step with
      | none => (store, false)
      | some next => performSteps next rest

/-- One run of `prune_audit_data`, and whether it exits successfully. -/
def Store.prune (store : Store) (run : PruneRun) : Store × Bool :=
  match pruneSteps store run with
  | none => (store, false)
  | some steps => performSteps store steps

/-! ### Operations -/

/-- What changes a store: an upload, a run of the pruner, or `rebuild_audit_projections` for the
groups it selected. -/
inductive Operation where
  | upload (upload : Upload)
  | prune (run : PruneRun)
  | rebuild (groupIds : List Nat)

/-- The store after an operation. -/
def Store.perform (env : Env) (store : Store) : Operation → Store
  | .upload upload => afterUpload env store upload
  | .prune run => (store.prune run).1
  | .rebuild groupIds => (performSteps store (groupIds.map .rebuild)).1

/-! ### What is left of the evidence -/

/-- The evidence tables without the files of a list and their events. -/
structure Deleted (fileIds : List Nat) (store next : Store) : Prop where
  files : next.files = store.files.filter fun file => !fileIds.contains file.id
  events : next.events = store.events.filter fun event => !fileIds.contains event.auditFileId
  groups : next.groups = store.groups
  nextGroupId : next.nextGroupId = store.nextGroupId
  nextFileId : next.nextFileId = store.nextFileId
  nextEventId : next.nextEventId = store.nextEventId

theorem Deleted.refl (store : Store) : Deleted [] store store := by
  constructor <;> simp

theorem Deleted.trans {first second : List Nat} {store middle next : Store}
    (one : Deleted first store middle) (two : Deleted second middle next) :
    Deleted (first ++ second) store next where
  files := by
    rw [two.files, one.files, List.filter_filter]
    refine List.filter_congr fun file _ => ?_
    simp [Bool.and_comm]
  events := by
    rw [two.events, one.events, List.filter_filter]
    refine List.filter_congr fun event _ => ?_
    simp [Bool.and_comm]
  groups := two.groups.trans one.groups
  nextGroupId := two.nextGroupId.trans one.nextGroupId
  nextFileId := two.nextFileId.trans one.nextFileId
  nextEventId := two.nextEventId.trans one.nextEventId

/-- The files a step deletes. -/
def PruneStep.fileIds : PruneStep → List Nat
  | .deleteBatch fileIds => fileIds
  | _ => []

theorem deleted_performStep {store next : Store} {step : PruneStep}
    (performed : performStep store step = some next) : Deleted step.fileIds store next := by
  cases step with
  | deleteRejections cutoff =>
      cases performed
      constructor <;> simp [PruneStep.fileIds]
  | deleteBatch fileIds =>
      cases performed
      constructor <;> rfl
  | vacuum =>
      cases performed
      exact .refl store
  | rebuild groupId =>
      obtain ⟨rows, -, rfl⟩ := Option.map_eq_some_iff.mp performed
      constructor <;> simp [PruneStep.fileIds]

/-- Steps that all succeed delete exactly their files. -/
theorem deleted_of_performSteps {store : Store} {steps : List PruneStep}
    (completed : (performSteps store steps).2 = true) :
    Deleted (steps.flatMap PruneStep.fileIds) store (performSteps store steps).1 := by
  induction steps generalizing store with
  | nil => exact .refl store
  | cons step rest inductionHypothesis =>
      rw [performSteps] at completed ⊢
      cases performed : performStep store step with
      | none => simp [performed] at completed
      | some next =>
          simp only [performed] at completed ⊢
          exact (deleted_performStep performed).trans (inductionHypothesis completed)

/-- Rebuilds delete nothing, whether they succeed or not. -/
theorem deleted_rebuilds (store : Store) (groupIds : List Nat) :
    Deleted [] store (performSteps store (groupIds.map .rebuild)).1 := by
  induction groupIds generalizing store with
  | nil => exact .refl store
  | cons groupId rest inductionHypothesis =>
      rw [List.map_cons, performSteps]
      cases performed : performStep store (.rebuild groupId) with
      | none => exact .refl store
      | some next => exact (deleted_performStep performed).trans (inductionHypothesis next)

/-- Later steps start from the store the earlier ones leave. -/
theorem performSteps_append {store : Store} {first second : List PruneStep}
    (completed : (performSteps store first).2 = true) :
    performSteps store (first ++ second) = performSteps (performSteps store first).1 second := by
  induction first generalizing store with
  | nil => rfl
  | cons step rest inductionHypothesis =>
      rw [performSteps] at completed
      rw [List.cons_append, performSteps, performSteps]
      cases performed : performStep store step with
      | none => simp [performed] at completed
      | some next =>
          simp only [performed] at completed ⊢
          exact inductionHypothesis completed

/-! ### The deletions of a run -/

theorem mem_batches (size : Nat) (positive : 0 < size) (ids : List Nat) (fileId : Nat) :
    fileId ∈ (batches size ids).flatten ↔ fileId ∈ ids := by
  simp only [batches, List.mem_flatten, List.mem_map, List.mem_range]
  constructor
  · rintro ⟨batch, ⟨index, -, rfl⟩, member⟩
    exact List.mem_of_mem_drop (List.mem_of_mem_take member)
  · intro member
    obtain ⟨position, inside, found⟩ := List.mem_iff_getElem.mp member
    -- the id at a position stands in the slice whose number is the quotient
    refine ⟨_, ⟨position / size, ?_, rfl⟩, ?_⟩
    · rw [Nat.div_lt_iff_lt_mul positive]
      have room := Nat.lt_div_mul_add (a := ids.length + size - 1) positive
      omega
    · have split := Nat.div_add_mod position size
      have small := Nat.mod_lt position positive
      rw [Nat.mul_comm] at split
      rw [List.mem_iff_getElem]
      refine ⟨position % size, ?_, ?_⟩
      · rw [List.length_take, List.length_drop]
        omega
      · simp only [List.getElem_take, List.getElem_drop, split, found]

theorem performSteps_deletions (store : Store) {steps : List PruneStep}
    (deletions : ∀ step ∈ steps, ∀ groupId, step ≠ .rebuild groupId) :
    (performSteps store steps).2 = true := by
  induction steps generalizing store with
  | nil => rfl
  | cons step rest inductionHypothesis =>
      have later := fun store => inductionHypothesis store fun other member =>
        deletions other (List.mem_cons_of_mem step member)
      cases step with
      | deleteRejections cutoff => exact later _
      | deleteBatch fileIds => exact later _
      | vacuum => exact later _
      | rebuild groupId => exact absurd rfl (deletions _ List.mem_cons_self groupId)

theorem deletionSteps_no_rebuild (store : Store) (cutoff : Int) :
    ∀ step ∈ deletionSteps store cutoff, ∀ groupId, step ≠ .rebuild groupId := by
  intro step member groupId same
  subst same
  by_cases nothing : staleFileIds store cutoff = [] <;> simp [deletionSteps, nothing] at member

theorem mem_fileIds_deletionSteps {store : Store} {cutoff : Int} {fileId : Nat} :
    fileId ∈ (deletionSteps store cutoff).flatMap PruneStep.fileIds ↔
      fileId ∈ staleFileIds store cutoff := by
  unfold deletionSteps
  by_cases nothing : staleFileIds store cutoff = []
  · simp [nothing, PruneStep.fileIds]
  · rw [← mem_batches DELETE_BATCH_SIZE (by decide) (staleFileIds store cutoff) fileId]
    simp [nothing, PruneStep.fileIds, List.flatMap_map]

/-- The files a run removes: the stale ones, unless it is refused, dry or has nothing to do. -/
def prunedFileIds (store : Store) (run : PruneRun) : List Nat :=
  if run.retentionDays ≤ 0 ∨ run.dryRun = true then [] else staleFileIds store run.cutoff

/-- A run of the pruner deletes the stale files, also when a rebuild fails. -/
theorem deleted_prune (store : Store) (run : PruneRun) :
    ∃ fileIds, (∀ fileId, fileId ∈ fileIds ↔ fileId ∈ prunedFileIds store run) ∧
      Deleted fileIds store (store.prune run).1 := by
  unfold Store.prune pruneSteps prunedFileIds
  by_cases refused : run.retentionDays ≤ 0
  · exact ⟨[], by simp [refused], by simpa [refused] using Deleted.refl store⟩
  by_cases dry : run.dryRun = true
  · refine ⟨[], by simp [dry], ?_⟩
    simp only [if_neg refused, if_pos dry, ite_self, performSteps]
    exact .refl store
  rw [if_neg refused, if_neg (by simp [refused, dry])]
  by_cases nothing : staleFileIds store run.cutoff = [] ∧
      (store.rejections.filter fun row => isStale run.cutoff row.createdAt) = []
  · rw [if_pos nothing]
    exact ⟨[], by simp [nothing.1], .refl store⟩
  rw [if_neg nothing, if_neg dry]
  have completed := performSteps_deletions store
    (deletionSteps_no_rebuild store run.cutoff)
  have removed := (deleted_of_performSteps completed).trans
    (deleted_rebuilds _ (staleGroups store run))
  rw [List.append_nil] at removed
  rw [← performSteps_append completed] at removed
  exact ⟨_, fun fileId => mem_fileIds_deletionSteps, removed⟩

/-! ### Well-formedness -/

namespace WellFormed

variable {store next : Store}

theorem deleted (formed : WellFormed store) {fileIds : List Nat}
    (removed : Deleted fileIds store next) : WellFormed next where
  pairs := by
    rw [removed.events]
    exact formed.pairs.sublist (List.filter_sublist.map _)
  eventIds := by
    rw [removed.events]
    exact formed.eventIds.sublist (List.filter_sublist.map _)
  eventIdBound := fun event member => by
    rw [removed.events] at member
    exact removed.nextEventId ▸ formed.eventIdBound event (List.mem_of_mem_filter member)
  fileIds := by
    rw [removed.files]
    exact formed.fileIds.sublist (List.filter_sublist.map _)
  fileIdBound := fun file member => by
    rw [removed.files] at member
    exact removed.nextFileId ▸ formed.fileIdBound file (List.mem_of_mem_filter member)
  hashes := by
    rw [removed.files]
    exact formed.hashes.sublist (List.filter_sublist.map _)
  owned := fun event member => by
    rw [removed.events] at member
    obtain ⟨stored, kept⟩ := List.mem_filter.mp member
    obtain ⟨file, fileMember, same⟩ := formed.owned event stored
    refine ⟨file, ?_, same⟩
    rw [removed.files]
    exact List.mem_filter.mpr ⟨fileMember, same ▸ kept⟩
  sound := fun event member => by
    rw [removed.events] at member
    exact formed.sound event (List.mem_of_mem_filter member)

/-- Every operation keeps the store well formed. -/
theorem perform (formed : WellFormed store) (env : Env) (operation : Operation) :
    WellFormed (store.perform env operation) := by
  cases operation with
  | upload upload => exact formed.afterUpload env upload
  | prune run =>
      obtain ⟨fileIds, -, removed⟩ := deleted_prune store run
      exact formed.deleted removed
  | rebuild groupIds => exact formed.deleted (deleted_rebuilds store groupIds)

end WellFormed

end Goggles
