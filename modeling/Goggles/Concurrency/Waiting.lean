/-
Module: Goggles.Concurrency.Waiting
Purpose: When a statement of an upload waits for another connection: at the group row that both would
  insert or give a reference, and never at the hash of a file, since the recorders' locks let one
  upload of a body in at a time.
Trusted boundary: none beyond the modules it imports
Main exports: HeldByOther, cluster_waits
-/
import Goggles.Concurrency.Safety

namespace Goggles

/-- Another connection holds the resource. -/
def HeldByOther (env : Env) (cluster : Cluster) (session : Nat) (resource : Resource) : Prop :=
  ∃ other connection, other ≠ session ∧ cluster.active.find other = some connection ∧
    resource ∈ Connection.holds env connection

variable {env : Env} {cluster : Cluster} {session : Nat} {ingestion : Ingestion}

theorem heldByOther_of_not_free {resource : Resource}
    (taken : cluster.isFree (Connection.holds env) session resource = false) :
    HeldByOther env cluster session resource := by
  by_contra nobody
  have free : cluster.isFree (Connection.holds env) session resource = true := by
    rw [Sessions.isFree_iff]
    intro other connection apart found held
    exact nobody ⟨other, connection, apart, found, held⟩
  rw [taken] at free
  cases free

/-- A transaction that has inserted its file holds the locks of its recorders. -/
theorem Isolated.recordersLocked {store : Store} (isolated : Isolated env store ingestion)
    (inserted : ingestion.phase.fileId.isSome ∨ ingestion.phase = .fileInsert) :
    ingestion.RecordersLocked env := by
  have holds := isolated.phase
  unfold Ingestion.PhaseHolds at holds
  cases phase : ingestion.phase with
  | recorderLock engineId left => simp [phase, Phase.fileId] at inserted
  | groupLookup key left lookup => simp [phase, Phase.fileId] at inserted
  | groupLocks => simp [phase, Phase.fileId] at inserted
  | fileInsert =>
      simp only [phase] at holds
      exact holds.1.recorders
  | duplicateRead fileId =>
      simp only [phase] at holds
      exact holds.1.recorders
  | eventInsert fileId scan row left =>
      simp only [phase] at holds
      exact holds.1.recorders
  | projection fileId scan =>
      simp only [phase] at holds
      exact holds.1.recorders
  | rollups fileId scan projections =>
      simp only [phase] at holds
      exact holds.1.recorders
  | commit fileId scan projections counts =>
      simp only [phase] at holds
      exact holds.1.recorders

/-- Two transactions past the recorders' locks have different bodies. -/
theorem bodies_apart (guarded : Guarded (clusterDiscipline env) cluster) {other : Nat}
    {theirs : Ingestion} (apart : other ≠ session)
    (mine : cluster.active.find session = some (.ingest ingestion))
    (found : cluster.active.find other = some (.ingest theirs))
    (locked : ingestion.RecordersLocked env) (theirLocked : theirs.RecordersLocked env) :
    theirs.upload.dumpBytes ≠ ingestion.upload.dumpBytes := by
  intro sameBody
  have isolated : Isolated env cluster.shared.store ingestion := guarded.relies session _ mine
  have theirIsolated : Isolated env cluster.shared.store theirs := guarded.relies other _ found
  have sameLines : theirs.lines = ingestion.lines := by
    have valid := theirIsolated.valid
    rw [sameBody, isolated.valid] at valid
    simp only [Except.ok.injEq, Prod.mk.injEq] at valid
    exact valid.2.symm
  obtain ⟨line, member⟩ := List.exists_mem_of_ne_nil ingestion.lines
    (validateUpload_eq_ok_iff.mp isolated.valid).2.2.2.1
  -- both would hold the lock of the line's recorder
  have theirKey : Resource.recorder (recorderKey env line.engineId) ∈ theirs.holds env :=
    Ingestion.mem_holds.mpr (theirLocked line (sameLines ▸ member))
  have myKey : Resource.recorder (recorderKey env line.engineId) ∈ ingestion.holds env :=
    Ingestion.mem_holds.mpr (locked line member)
  exact guarded.exclusive other session _ _ apart found mine theirKey myKey

/-- A statement waits for the row of a group that another connection inserts or changes; at the hash of
a file it waits only for another body with the same digest. -/
theorem cluster_waits (env : Env) (steps : List ClusterStep) (session : Nat) (ingestion : Ingestion)
    (active : (Cluster.after env steps).active.find session = some (.ingest ingestion))
    (waiting : ingestion.next env
      ((Cluster.after env steps).isFree (Connection.holds env) session)
      (Cluster.after env steps).shared.store = .waits) :
    (∃ key left, ingestion.phase = .groupLookup key left .insert ∧
        HeldByOther env (Cluster.after env steps) session (.slug (key.slugOf env))) ∨
      (∃ key left groupId, ingestion.phase = .groupLookup key left (.adopt groupId) ∧
        HeldByOther env (Cluster.after env steps) session (.group groupId)) ∨
      (∃ other theirs, (Cluster.after env steps).active.find other = some (.ingest theirs) ∧
        theirs.upload.dumpBytes ≠ ingestion.upload.dumpBytes ∧
        env.sha256 theirs.upload.dumpBytes = env.sha256 ingestion.upload.dumpBytes) := by
  have guarded := cluster_guarded env steps
  generalize Cluster.after env steps = cluster at active waiting guarded ⊢
  have isolated : Isolated env cluster.shared.store ingestion := guarded.relies session _ active
  cases phase : ingestion.phase with
  | groupLookup key left lookup =>
      simp only [Ingestion.next, phase] at waiting
      cases lookup with
      | byRef =>
          simp only [Ingestion.lookUp] at waiting
          split at waiting <;> cases waiting
      | bySlug =>
          simp only [Ingestion.lookUp] at waiting
          split at waiting
          · cases waiting
          · split at waiting <;> cases waiting
      | insert =>
          simp only [Ingestion.lookUp] at waiting
          split at waiting
          · next taken =>
              exact .inl ⟨key, left, rfl, heldByOther_of_not_free (by simpa using taken)⟩
          · split at waiting <;> cases waiting
      | adopt groupId =>
          simp only [Ingestion.lookUp] at waiting
          split at waiting
          · next taken =>
              exact .inr (.inl ⟨key, left, groupId, rfl,
                heldByOther_of_not_free (by simpa using taken)⟩)
          · cases waiting
  | fileInsert =>
      simp only [Ingestion.next, phase] at waiting
      split at waiting
      · next taken =>
          obtain ⟨other, connection, apart, found, held⟩ :=
            heldByOther_of_not_free (by simpa using taken)
          cases connection with
          | rebuild groupId => simp [Connection.holds] at held
          | ingest theirs =>
              obtain ⟨inserted, sameHash⟩ := Ingestion.mem_holds.mp held
              have theirIsolated : Isolated env cluster.shared.store theirs :=
                guarded.relies other _ found
              exact .inr (.inr ⟨other, theirs, found,
                bodies_apart guarded apart active found (isolated.recordersLocked (.inr phase))
                  (theirIsolated.recordersLocked (.inl inserted)), sameHash.symm⟩)
      · split at waiting <;> cases waiting
  | recorderLock engineId left =>
      simp only [Ingestion.next, phase] at waiting
      split at waiting <;> cases waiting
  | groupLocks =>
      simp only [Ingestion.next, phase] at waiting
      split at waiting <;> cases waiting
  | projection fileId scan =>
      simp only [Ingestion.next, phase] at waiting
      split at waiting <;> cases waiting
  | duplicateRead fileId => simp [Ingestion.next, phase] at waiting
  | eventInsert fileId scan row left => simp [Ingestion.next, phase] at waiting
  | rollups fileId scan projections => simp [Ingestion.next, phase] at waiting
  | commit fileId scan projections counts => simp [Ingestion.next, phase] at waiting

/-! ### Two recorders of one new group -/

/-- Knows a record of the engine `e` and one of `f`, and the locks of both. -/
def racingEnv : Env :=
  digestEnv
    [(sendRecord (lit "e") 100,
        lit "f498d216f252f53cf1579508a6ce79db" ++ lit "76102657c87ebb2a48d8335717c0d20b"),
      (sendRecord (lit "f") 100,
        lit "ec7bc7ca7398550db564793a999ff01b" ++ lit "e403b6b5f3c736ea102ee2bc52b29b60"),
      (lit "goggles-ingest-recorder:e",
        lit "11bba89f09de0eac30c07fb65c4399f4" ++ lit "f24ba4287b29dc261ec04318d85ae48b"),
      (lit "goggles-ingest-recorder:f",
        lit "33f9d3813c59a678dd855598e8ebec34" ++ lit "4adc9862453210d5b844b5ebf1050b33")]

/-- The first upload has inserted the group's row when the second one comes to it. -/
def racingSteps : List ClusterStep :=
  .request 1 (uploadOf [sendRecord (lit "e") 100]) ::
    .request 2 (uploadOf [sendRecord (lit "f") 100]) ::
      (List.replicate 4 (.proceed 1) ++ List.replicate 3 (.proceed 2))

/-- The session is in the transaction of an upload whose next statement waits. -/
def Cluster.isWaiting (env : Env) (cluster : Cluster) (session : Nat) : Bool :=
  match cluster.active.find session with
  | some (.ingest ingestion) =>
      match ingestion.next env (cluster.isFree (Connection.holds env) session)
        cluster.shared.store with
      | .waits => true
      | _ => false
  | _ => false

theorem exists_of_isWaiting (waits : cluster.isWaiting env session = true) :
    ∃ ingestion, cluster.active.find session = some (.ingest ingestion) ∧
      ingestion.next env (cluster.isFree (Connection.holds env) session) cluster.shared.store =
        .waits := by
  unfold Cluster.isWaiting at waits
  split at waits
  · next ingestion active =>
      split at waits
      · next waiting => exact ⟨ingestion, active, waiting⟩
      · cases waits
  · cases waits

/-- The second upload waits for the row of the group. -/
theorem cluster_waits_racingSteps :
    ∃ ingestion,
      (Cluster.after racingEnv racingSteps).active.find 2 = some (.ingest ingestion) ∧
      ((∃ key left, ingestion.phase = .groupLookup key left .insert ∧
          HeldByOther racingEnv (Cluster.after racingEnv racingSteps) 2
            (.slug (key.slugOf racingEnv))) ∨
        (∃ key left groupId, ingestion.phase = .groupLookup key left (.adopt groupId) ∧
          HeldByOther racingEnv (Cluster.after racingEnv racingSteps) 2 (.group groupId)) ∨
        (∃ other theirs,
          (Cluster.after racingEnv racingSteps).active.find other = some (.ingest theirs) ∧
          theirs.upload.dumpBytes ≠ ingestion.upload.dumpBytes ∧
          racingEnv.sha256 theirs.upload.dumpBytes =
            racingEnv.sha256 ingestion.upload.dumpBytes)) := by
  have waits : (Cluster.after racingEnv racingSteps).isWaiting racingEnv 2 = true := by
    decide +kernel
  obtain ⟨ingestion, active, waiting⟩ := exists_of_isWaiting waits
  exact ⟨ingestion, active, cluster_waits racingEnv racingSteps 2 ingestion active waiting⟩

end Goggles
