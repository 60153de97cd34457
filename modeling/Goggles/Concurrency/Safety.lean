/-
Module: Goggles.Concurrency.Safety
Purpose: Uploads that run at the same time leave the rows of some order of them, each at once: the
  order of their answers.  Every answer that names a file stays true, and a request that failed leaves
  nothing but its rejection.
Trusted boundary: none beyond the modules it imports
Main exports: Served.stored, Honest, clusterDiscipline, guarded_step, cluster_serial,
  cluster_consistent, cluster_honest
-/
import Goggles.Concurrency.Committing
import Goggles.Library.Runs

namespace Goggles

/-! ### Answers -/

/-- The upload a new file was stored for. -/
def Answer.stored (answer : Answer) : Option Upload :=
  match answer.result with
  | .stored _ true => some answer.upload
  | _ => none

/-- The new file an answer names, and the hash of its upload. -/
def Answer.newFile (env : Env) (answer : Answer) : Option (Nat × Str) :=
  match answer.result with
  | .stored fileId true => some (fileId, env.sha256 answer.upload.dumpBytes)
  | _ => none

/-- The row that records a refusal. -/
def Answer.rejection (answer : Answer) : Option UploadRejection :=
  match answer.result with
  | .refused rejected =>
      some ⟨rejected.code, rejected.statusCode, rejected.lineNumber,
        answer.upload.dumpBytes.length, answer.upload.receivedAt⟩
  | _ => none

/-- The uploads that were stored, in the order of their answers. -/
def Served.stored (served : Served) : List Upload := served.answers.filterMap Answer.stored

/-- What the answers say is so: the new files are those answered, in that order; an answer that names a
file names one with the hash of its upload; and the rejection rows are of refused requests, at most
one each. -/
structure Honest (env : Env) (served : Served) : Prop where
  files : served.store.files.map (fun file => (file.id, file.fileSha256)) =
    served.answers.filterMap (Answer.newFile env)
  durable : ∀ answer ∈ served.answers, ∀ fileId isNew, answer.result = .stored fileId isNew →
    ∃ file ∈ served.store.files, file.id = fileId ∧
      file.fileSha256 = env.sha256 answer.upload.dumpBytes
  rejections : served.store.rejections.Sublist (served.answers.filterMap Answer.rejection)

namespace Honest

variable {env : Env} {served : Served} {upload : Upload} {store : Store}

theorem fresh (env : Env) : Honest env ⟨.empty, []⟩ where
  files := rfl
  durable := by simp
  rejections := List.Sublist.refl _

/-- The evidence of files and the rejections are the same. -/
theorem congr (honest : Honest env served) (files : store.files = served.store.files)
    (rejections : store.rejections = served.store.rejections) :
    Honest env { served with store } where
  files := files ▸ honest.files
  durable := files ▸ honest.durable
  rejections := rejections ▸ honest.rejections

/-- A refusal whose row was recorded, or was not. -/
theorem refuse (honest : Honest env served) (rejected : UploadRejected)
    (files : store.files = served.store.files)
    (rejections : store.rejections = served.store.rejections ∨
      store.rejections = (served.store.recordRejection upload rejected).rejections) :
    Honest env (served.answer upload store (.refused rejected)) where
  files := by
    simp only [Served.answer, files, honest.files, List.filterMap_append]
    simp [Answer.newFile]
  durable := fun answer member fileId isNew named => by
    rcases List.mem_append.mp member with old | new
    · obtain ⟨file, fileMember, found⟩ := honest.durable answer old fileId isNew named
      exact ⟨file, files ▸ fileMember, found⟩
    · rw [List.mem_singleton.mp new] at named
      cases named
  rejections := by
    simp only [Served.answer, List.filterMap_append, List.filterMap_cons, List.filterMap_nil,
      Answer.rejection]
    rcases rejections with same | recorded
    · rw [same]
      exact honest.rejections.trans (List.sublist_append_left _ _)
    · rw [recorded]
      exact honest.rejections.append (List.Sublist.refl _)

/-- An answer with a file that was there. -/
theorem known (honest : Honest env served) {existing : AuditFile}
    (member : existing ∈ served.store.files)
    (hash : existing.fileSha256 = env.sha256 upload.dumpBytes)
    (files : store.files = served.store.files)
    (rejections : store.rejections = served.store.rejections) :
    Honest env (served.answer upload store (.stored existing.id false)) where
  files := by
    simp only [Served.answer, files, honest.files, List.filterMap_append]
    simp [Answer.newFile]
  durable := fun answer listed fileId isNew named => by
    rcases List.mem_append.mp listed with old | new
    · obtain ⟨file, fileMember, found⟩ := honest.durable answer old fileId isNew named
      exact ⟨file, files ▸ fileMember, found⟩
    · rw [List.mem_singleton.mp new] at named ⊢
      cases named
      exact ⟨existing, files ▸ member, rfl, hash⟩
  rejections := by
    simp only [Served.answer, List.filterMap_append, rejections]
    exact honest.rejections.trans (List.sublist_append_left _ _)

/-- An answer with a new file. -/
theorem created (honest : Honest env served) {file : AuditFile}
    (hash : file.fileSha256 = env.sha256 upload.dumpBytes)
    (files : store.files = served.store.files ++ [file])
    (rejections : store.rejections = served.store.rejections) :
    Honest env (served.answer upload store (.stored file.id true)) where
  files := by
    simp only [Served.answer, files, List.map_append, honest.files, List.filterMap_append]
    simp [Answer.newFile, hash]
  durable := fun answer listed fileId isNew named => by
    simp only [Served.answer, files]
    rcases List.mem_append.mp listed with old | new
    · obtain ⟨other, fileMember, found⟩ := honest.durable answer old fileId isNew named
      exact ⟨other, List.mem_append_left _ fileMember, found⟩
    · rw [List.mem_singleton.mp new] at named ⊢
      cases named
      exact ⟨file, by simp, rfl, hash⟩
  rejections := by
    simp only [Served.answer, List.filterMap_append, rejections]
    exact honest.rejections.trans (List.sublist_append_left _ _)

end Honest

theorem Served.stored_answer (served : Served) (upload : Upload) (store : Store)
    (result : IngestionResult) :
    (served.answer upload store result).stored =
      served.stored ++ (Answer.stored ⟨upload, result⟩).toList := by
  simp only [Served.stored, Served.answer, List.filterMap_append, List.filterMap_cons,
    List.filterMap_nil]
  cases Answer.stored ⟨upload, result⟩ <;> rfl

/-! ### The discipline of the connections -/

/-- What a connection relies on: an upload on its isolation, a rebuild on the row it has locked. -/
def Connection.Relies (env : Env) (store : Store) : Connection → Prop
  | .ingest ingestion => Isolated env store ingestion
  | .rebuild groupId => groupId ∈ store.groups.map (·.id)

/-- The committed rows are those of some order of the uploads, and the answers given are true. -/
structure Served.Invariant (env : Env) (served : Served) : Prop where
  serial : Serial env served.stored served.store
  honest : Honest env served

theorem Served.Invariant.consistent {env : Env} {served : Served} (holds : served.Invariant env) :
    Consistent env served.stored served.store := holds.serial.consistent

theorem Drawn.serial {env : Env} {done : List Upload} {store later : Store}
    (drawn : Drawn store later) (serial : Serial env done store) : Serial env done later := by
  obtain ⟨nextGroupId, nextFileId, nextEventId, rfl, groups, files, events⟩ := drawn
  exact .sequences serial groups files events

theorem Drawn.same {store later : Store} (drawn : Drawn store later) :
    later.files = store.files ∧ later.rejections = store.rejections := by
  obtain ⟨nextGroupId, nextFileId, nextEventId, rfl, -⟩ := drawn
  exact ⟨rfl, rfl⟩

namespace Served.Invariant

variable {env : Env} {served : Served} {upload : Upload} {store : Store}

/-- A request is refused, with or without a row that says so. -/
theorem refuse (holds : served.Invariant env) (rejected : UploadRejected)
    (recorded : store = served.store ∨ store = served.store.recordRejection upload rejected) :
    (served.answer upload store (.refused rejected)).Invariant env where
  serial := by
    have kept : Serial env served.stored store := by
      rcases recorded with rfl | rfl
      · exact holds.serial
      · exact .rejection upload rejected holds.serial
    rw [Served.stored_answer, Answer.stored, Option.toList_none, List.append_nil]
    exact kept
  honest := by
    rcases recorded with rfl | rfl
    · exact holds.honest.refuse rejected rfl (.inl rfl)
    · exact holds.honest.refuse rejected rfl (.inr rfl)

/-- A request is answered with the file that has its hash. -/
theorem known (holds : served.Invariant env) {existing : AuditFile}
    (member : existing ∈ served.store.files)
    (hash : existing.fileSha256 = env.sha256 upload.dumpBytes) (drawn : Drawn served.store store) :
    (served.answer upload store (.stored existing.id false)).Invariant env where
  serial := by
    rw [Served.stored_answer, Answer.stored, Option.toList_none, List.append_nil]
    exact drawn.serial holds.serial
  honest := holds.honest.known member hash drawn.same.1 drawn.same.2

/-- A request is answered with a new file. -/
theorem created (holds : served.Invariant env) {rawText : Str} {lines : List ParsedLine}
    {fileId : Nat} {resolved : GroupTable × List (GroupKey × Nat)} {new : List AuditEvent}
    (committed : CommittedUpload env served.store upload rawText lines fileId resolved new store) :
    (served.answer upload store (.stored fileId true)).Invariant env where
  serial := by
    rw [Served.stored_answer]
    exact .upload holds.serial committed
  honest := holds.honest.created rfl committed.files committed.rejections

end Served.Invariant

/-- How connections share the database. -/
def clusterDiscipline (env : Env) : Discipline Served Connection Resource where
  holds := Connection.holds env
  invariant := Served.Invariant env
  relies := fun served connection => connection.Relies env served.store
  within := fun held before after => Within env held before.store after.store
  stable := by
    intro before after connection held holds relies within apart
    cases connection with
    | ingest ingestion => exact Isolated.stable holds.consistent relies within apart
    | rebuild groupId =>
        obtain ⟨group, member, rfl⟩ := List.mem_map.mp relies
        obtain ⟨later, laterMember, sameId, -⟩ := within.groupsKept group member
        exact List.mem_map.mpr ⟨later, laterMember, sameId⟩

/-- Recording a refusal changes none of the rows that transactions share. -/
theorem Within.rejection (env : Env) (store : Store) (upload : Upload) (rejected : UploadRejected) :
    Within env [] store (store.recordRejection upload rejected) :=
  have same := Within.refl env [] store
  ⟨same.groupsKept, same.groupsNew, same.files, same.events, same.projections, le_rfl, le_rfl,
    le_rfl⟩

theorem Within.mono {env : Env} {held more : List Resource} {before after : Store}
    (within : Within env held before after) (subset : held ⊆ more) :
    Within env more before after where
  groupsKept := within.groupsKept
  groupsNew := fun group member =>
    (within.groupsNew group member).imp_right fun theirs => ⟨subset theirs.1, subset theirs.2⟩
  files := by
    obtain ⟨new, split, theirs⟩ := within.files
    exact ⟨new, split, fun file member =>
      ⟨subset (theirs file member).1, subset (theirs file member).2⟩⟩
  events := by
    obtain ⟨new, split, theirs⟩ := within.events
    refine ⟨new, split, fun event member => ?_⟩
    obtain ⟨fresh, mine, recorder, file, groups⟩ := theirs event member
    exact ⟨fresh, subset mine, subset recorder, subset file,
      fun groupId grouped => subset (groups groupId grouped)⟩
  projections := fun groupId other => within.projections groupId fun held => other (subset held)
  nextGroupId := within.nextGroupId
  nextFileId := within.nextFileId
  nextEventId := within.nextEventId

/-- Rebuilding a group changes its projections only. -/
theorem Within.rebuild (env : Env) (store : Store) (groupId : Nat) (rows : GroupProjections) :
    Within env [.group groupId] store
      { store with projections := Function.update store.projections groupId rows } :=
  have same := Within.refl env [.group groupId] store
  { groupsKept := same.groupsKept
    groupsNew := same.groupsNew
    files := same.files
    events := same.events
    projections := fun other notHeld => by
      refine Function.update_of_ne (fun here => notHeld ?_) _ _
      rw [here]
      exact List.mem_singleton_self _
    nextGroupId := le_rfl
    nextFileId := le_rfl
    nextEventId := le_rfl }

/-! ### One step -/

section Step

variable {env : Env} {cluster : Cluster} {session : Nat}

/-- No connection holds what a sequence has not given out. -/
theorem free_of_fresh (guarded : Guarded (clusterDiscipline env) cluster) {resource : Resource}
    (fresh : Fresh cluster.shared.store resource) :
    cluster.FreeFor (Connection.holds env) session resource := by
  intro other connection _ found held
  have relies := guarded.relies other connection found
  have table := guarded.invariant.consistent.evidence.table
  cases connection with
  | ingest ingestion => exact Isolated.not_fresh relies table held fresh
  | rebuild groupId =>
      rw [Connection.holds, List.mem_singleton] at held
      subst held
      obtain ⟨group, member, same⟩ := List.mem_map.mp relies
      have below := table.bound group member
      rw [same] at below
      exact absurd fresh (Nat.ne_of_lt below)

/-- The recorders of a file are those of its lines. -/
theorem engineId_mem_engineIds {lines : List ParsedLine} (accepted : ∀ line ∈ lines, AcceptedLine line)
    {line : ParsedLine} (member : line ∈ lines) :
    line.engineId ∈ (fileMetadata lines).engineIds := by
  change line.engineId ∈ sortedTexts _
  rw [sortedTexts, mem_inOrder, List.mem_dedup, List.mem_filter]
  refine ⟨List.mem_map.mpr ⟨line, List.mem_filter.mpr ⟨member, ?_⟩, rfl⟩, ?_⟩
  · exact decide_eq_true (accepted line member).errors
  · exact decide_eq_true (accepted line member).engineId_ne_nil

/-- What a transaction begins with. -/
theorem Isolated.initial {store : Store} {upload : Upload} {rawText : Str} {lines : List ParsedLine}
    (valid : validateUpload env upload.dumpBytes = .ok (rawText, lines)) :
    let ingestion : Ingestion := { upload, rawText, lines, phase := .groupLocks }
    Isolated env store
      { ingestion with phase := ingestion.lockNext (fileMetadata lines).engineIds } := by
  intro ingestion
  have isValid := validateUpload_eq_ok_iff.mp valid
  have accepted := acceptedLines isValid.2.2.1 isValid.2.2.2.2.1
  exact
    { valid := valid
      groups := by constructor <;> simp [ingestion]
      file := by simp
      numbered := by constructor <;> simp [ingestion]
      phase := by
        refine phaseHolds_lockNext rfl (fun line member => .inl ?_) rfl rfl
        exact engineId_mem_engineIds accepted member }

/-- A request that is refused, known, or begins a transaction. -/
theorem guarded_request (guarded : Guarded (clusterDiscipline env) cluster) (upload : Upload) :
    Guarded (clusterDiscipline env) (cluster.request env session upload) := by
  have holds := guarded.invariant
  unfold Cluster.request
  cases validated : validateUpload env upload.dumpBytes with
  | error rejected =>
      exact guarded.update (holds.refuse rejected (.inr rfl)) (Within.rejection env _ upload rejected)
  | ok validUpload =>
      obtain ⟨rawText, lines⟩ := validUpload
      simp only
      split
      · next existing found =>
          have tested := List.find?_some found
          exact guarded.update (holds.known (List.mem_of_find?_eq_some found)
            (of_decide_eq_true tested) (.refl _)) (Within.refl env _ _)
      · refine guarded.proceed holds (Isolated.initial validated) (Within.refl env _ _) ?_
        -- a transaction that has made no statement holds nothing
        intro resource held
        simp [clusterDiscipline, Connection.holds, Ingestion.holds] at held

/-- A statement of an upload's transaction. -/
theorem guarded_advance (guarded : Guarded (clusterDiscipline env) cluster) {ingestion : Ingestion}
    (found : cluster.active.find session = some (.ingest ingestion)) :
    Guarded (clusterDiscipline env) (cluster.advance env session ingestion) := by
  have holds := guarded.invariant
  have consistent := holds.consistent
  have isolated : Isolated env cluster.shared.store ingestion := guarded.relies session _ found
  simp only [Cluster.advance]
  split
  · exact guarded
  · next store later stepped =>
      have proceeds := next_proceeds consistent isolated stepped
      have same := proceeds.drawn.same
      refine @Guarded.proceed _ _ _ _ _ session _ _ guarded
        ⟨proceeds.drawn.serial holds.serial, holds.honest.congr same.1 same.2⟩ proceeds.isolated
        (proceeds.drawn.within env _) fun resource held => ?_
      rcases proceeds.holds resource held with before | free | fresh
      · exact guarded.free_of_held found before
      · exact Sessions.isFree_iff.mp free
      · exact free_of_fresh guarded fresh
  · next store result stepped =>
      cases next_ends consistent isolated stepped with
      | busy =>
          exact guarded.finish (holds.refuse ingestBusy (.inl rfl)) found (Within.refl env _ _)
      | failed =>
          exact guarded.finish (holds.refuse ingestFailed (.inr rfl)) found
            ((Within.rejection env _ _ _).mono (List.nil_subset _))
      | known member hash drawn =>
          exact guarded.finish (holds.known member hash drawn) found (drawn.within env _)
      | commit committed within => exact guarded.finish (holds.created committed) found within

/-- The rows of a rebuilt group, committed. -/
theorem guarded_finishRebuild (guarded : Guarded (clusterDiscipline env) cluster) {groupId : Nat}
    (found : cluster.active.find session = some (.rebuild groupId)) :
    Guarded (clusterDiscipline env) (cluster.finishRebuild session groupId) := by
  have holds := guarded.invariant
  simp only [Cluster.finishRebuild]
  split
  · exact guarded.finish holds found (Within.refl env _ _)
  · next rows rebuilt =>
      have kept : Served.Invariant env
          { cluster.shared with
            store := { cluster.shared.store with
              projections := Function.update cluster.shared.store.projections groupId rows } } :=
        ⟨.rebuild holds.serial rebuilt, holds.honest.congr rfl rfl⟩
      exact guarded.finish kept found (Within.rebuild env _ groupId rows)

/-- A transaction that failed is rolled back. -/
theorem guarded_fail (guarded : Guarded (clusterDiscipline env) cluster) {ingestion : Ingestion}
    (found : cluster.active.find session = some (.ingest ingestion)) (failure : Failure) :
    Guarded (clusterDiscipline env)
      (cluster.finish session (cluster.shared.afterFailure ingestion.upload failure)) := by
  have holds := guarded.invariant
  cases failure with
  | busy => exact guarded.finish (holds.refuse ingestBusy (.inl rfl)) found (Within.refl env _ _)
  | failed recorded =>
      cases recorded with
      | true =>
          exact guarded.finish (holds.refuse ingestFailed (.inr rfl)) found
            ((Within.rejection env _ _ _).mono (List.nil_subset _))
      | false =>
          exact guarded.finish (holds.refuse ingestFailed (.inl rfl)) found (Within.refl env _ _)
  | killed => exact guarded.finish holds found (Within.refl env _ _)

/-- Every step of the cluster keeps what its connections rely on. -/
theorem guarded_step (guarded : Guarded (clusterDiscipline env) cluster) (step : ClusterStep) :
    Guarded (clusterDiscipline env) (cluster.step env step) := by
  cases step with
  | request session upload =>
      simp only [Cluster.step]
      split
      · exact guarded
      · exact guarded_request guarded upload
  | proceed session =>
      simp only [Cluster.step]
      split
      · exact guarded
      · next ingestion found => exact guarded_advance guarded found
      · next groupId found => exact guarded_finishRebuild guarded found
  | fail session failure =>
      simp only [Cluster.step]
      split
      · exact guarded
      · next ingestion found => exact guarded_fail guarded found failure
      · next groupId found =>
          exact guarded.finish guarded.invariant found (Within.refl env _ _)
  | rebuild session groupId =>
      simp only [Cluster.step]
      split
      · exact guarded
      · split
        · next ready =>
            rw [Bool.and_eq_true] at ready
            refine guarded.proceed guarded.invariant ?_ (Within.refl env _ _) ?_
            · obtain ⟨group, member, same⟩ := List.any_eq_true.mp ready.1
              exact List.mem_map.mpr ⟨group, member, by simpa using same⟩
            · intro resource held
              rw [List.mem_singleton.mp held]
              exact Sessions.isFree_iff.mp ready.2
        · exact guarded

end Step

/-! ### Every run -/

section Run

variable (env : Env) (steps : List ClusterStep)

/-- The cluster after some steps. -/
def Cluster.after : Cluster := run (Cluster.step env) Cluster.fresh steps

/-- In every state of the cluster the connections have what they rely on, and no two of them hold the
same resource. -/
theorem cluster_guarded : Guarded (clusterDiscipline env) (Cluster.after env steps) := by
  have preserved : ∀ (cluster : Cluster) step, Guarded (clusterDiscipline env) cluster →
      Guarded (clusterDiscipline env) (cluster.step env step) :=
    fun _ step guarded => guarded_step guarded step
  have initial : Guarded (clusterDiscipline env) Cluster.fresh := .idle ⟨.empty, .fresh env⟩
  exact run_invariant preserved initial steps

/-- However the statements of uploads, rebuilds and failures interleave, the committed rows are those
of the stored uploads, each at once, in the order of their answers. -/
theorem cluster_serial :
    Serial env (Cluster.after env steps).shared.stored (Cluster.after env steps).shared.store :=
  (cluster_guarded env steps).invariant.serial

/-- The committed rows are consistent at every moment: no line is stored twice, every file has the
rows of its upload, the groups' counts and leaf tables are those of their events. -/
theorem cluster_consistent :
    Consistent env (Cluster.after env steps).shared.stored
      (Cluster.after env steps).shared.store :=
  (cluster_guarded env steps).invariant.consistent

/-- Every answer stays true. -/
theorem cluster_honest : Honest env (Cluster.after env steps).shared :=
  (cluster_guarded env steps).invariant.honest

end Run

end Goggles
