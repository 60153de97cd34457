/-
Module: Goggles.Retention.Evidence
Purpose: When the lines of every stored file stay on record: deduplication keeps a shared line under
  the first file that carried it, and the pruner deletes it with that file.
Trusted boundary: none beyond the modules it imports
Main exports: EvidenceKept, SparesSharedLines, evidenceKept_iff
-/
import Goggles.Retention.Prune

namespace Goggles

/-- Each line of each stored file has an event with its hash and engine. -/
def EvidenceKept (env : Env) (store : Store) : Prop :=
  ∀ file ∈ store.files, ∀ line ∈ fileLines env file, line.pair ∈ store.events.map AuditEvent.pair

/-- A run of the pruner removes no event whose hash and engine a line of a remaining file has. -/
def SparesSharedLines (env : Env) (store : Store) : Operation → Prop
  | .prune run =>
      ∀ event ∈ store.events, event.auditFileId ∈ prunedFileIds store run →
        ∀ file ∈ store.files, file.id ∉ prunedFileIds store run →
          ∀ line ∈ fileLines env file, line.pair ≠ event.pair
  | _ => True

variable {env : Env} {store next : Store}

theorem evidenceKept_empty (env : Env) : EvidenceKept env .empty := by
  simp [EvidenceKept, Store.empty]

theorem evidenceKept_congr (files : next.files = store.files) (events : next.events = store.events) :
    EvidenceKept env next ↔ EvidenceKept env store := by
  rw [EvidenceKept, EvidenceKept, files, events]

/-- Uploads keep the lines of the files before them and store those of their own. -/
theorem EvidenceKept.afterUpload (kept : EvidenceKept env store) (upload : Upload) :
    EvidenceKept env (afterUpload env store upload) := by
  rcases afterUpload_cases env store upload with ⟨rejected, same⟩ | same | ⟨rawText, lines, stored⟩
  · rw [same]
    exact kept
  · rw [same]
    exact kept
  · intro file member line lineMember
    rw [stored.events]
    rw [stored.files] at member
    rcases List.mem_append.mp member with old | new
    · rw [List.map_append]
      exact List.mem_append_left _ (kept file old line lineMember)
    · rw [List.mem_singleton.mp new, stored.fileLines_uploadFile] at lineMember
      exact stored.created.line_stored lineMember

/-- Deleting files keeps the lines of the others exactly when no deleted event is one of them. -/
theorem evidenceKept_deleted_iff (formed : WellFormed store) (kept : EvidenceKept env store)
    {fileIds : List Nat} (removed : Deleted fileIds store next) :
    EvidenceKept env next ↔
      ∀ event ∈ store.events, event.auditFileId ∈ fileIds →
        ∀ file ∈ store.files, file.id ∉ fileIds →
          ∀ line ∈ fileLines env file, line.pair ≠ event.pair := by
  have remains : ∀ file, file ∈ next.files ↔ file ∈ store.files ∧ file.id ∉ fileIds := by
    intro file
    rw [removed.files]
    simp
  have survives : ∀ event, event ∈ next.events ↔
      event ∈ store.events ∧ event.auditFileId ∉ fileIds := by
    intro event
    rw [removed.events]
    simp
  constructor
  · intro after event stored gone file fileMember stays line lineMember same
    obtain ⟨other, otherMember, samePair⟩ :=
      List.mem_map.mp (after file ((remains file).mpr ⟨fileMember, stays⟩) line lineMember)
    obtain ⟨otherStored, otherStays⟩ := (survives other).mp otherMember
    -- the pair is stored once, so the surviving event is the deleted one
    have equal : other = event :=
      List.inj_on_of_nodup_map formed.pairs otherStored stored (samePair.trans same)
    exact otherStays (equal ▸ gone)
  · intro spared file member line lineMember
    obtain ⟨fileMember, stays⟩ := (remains file).mp member
    obtain ⟨event, stored, same⟩ := List.mem_map.mp (kept file fileMember line lineMember)
    refine List.mem_map.mpr ⟨event, (survives event).mpr ⟨stored, fun gone => ?_⟩, same⟩
    exact spared event stored gone file fileMember stays line lineMember same.symm

/-- One operation on a store whose evidence is whole. -/
theorem evidenceKept_perform_iff (formed : WellFormed store) (kept : EvidenceKept env store)
    (operation : Operation) :
    EvidenceKept env (store.perform env operation) ↔ SparesSharedLines env store operation := by
  cases operation with
  | upload upload =>
      exact iff_of_true (kept.afterUpload upload) trivial
  | rebuild groupIds =>
      refine iff_of_true ?_ trivial
      have removed := deleted_rebuilds store groupIds
      rw [Store.perform, evidenceKept_congr (by simpa using removed.files)
        (by simpa using removed.events)]
      exact kept
  | prune run =>
      obtain ⟨fileIds, listed, removed⟩ := deleted_prune store run
      rw [Store.perform, evidenceKept_deleted_iff formed kept removed]
      simp only [SparesSharedLines, listed]

/-- In every sequence of operations from the empty store: every state has an event for each line of
each stored file exactly when every run of the pruner spares the lines that remaining files share. -/
theorem evidenceKept_iff (env : Env) (operations : List Operation) :
    AlongRun (Store.perform env) (EvidenceKept env) .empty operations ↔
      EveryStep (Store.perform env) (SparesSharedLines env) .empty operations := by
  have preserved : ∀ store operation, WellFormed store →
      WellFormed (Store.perform env store operation) :=
    fun store operation formed => formed.perform env operation
  exact alongRun_iff preserved
    (fun store operation formed kept => evidenceKept_perform_iff formed kept operation)
    WellFormed.empty (evidenceKept_empty env) operations

/-- A log uploaded early, the grown log uploaded on day 40, and a run that keeps 30 days. -/
def expiringLog : List Operation :=
  [.upload (shortLog 0), .upload (longLog (40 * 86400000000)),
    .prune { now := 40 * 86400000000, retentionDays := 30 }]

/-- The grown log stays on record, and the line it shares with the expired one is lost. -/
theorem evidenceKept_fails_expiringLog :
    (run (Store.perform sendEnv) .empty expiringLog).files.map (·.id) = [2] ∧
      ¬ EvidenceKept sendEnv (run (Store.perform sendEnv) .empty expiringLog) := by
  unfold EvidenceKept
  decide +kernel

end Goggles
