/-
Module: Goggles.Transfer.UploadEndpoint
Purpose: The upload endpoint, from the request to the answer, over every history of requests, of
  changes of the tokens and of rebuilds: what each answer leaves in the database, that an answer about
  a file stays true, and that an upload may be sent again.
Trusted boundary: forensics/views.py, `api_audit_log_upload`, `authenticate_request`,
  `fallback_group_from_request`, `reject_upload`, `groups_for_audit_file`, `source_response`.  Texts
  are ordered by code point; header texts are Latin-1, so `lower` is that of ASCII on what it is
  compared with; rejection rows are always recorded; the token of a row and the log lines are left out
Main exports: UploadCall, UploadResponse, Site, Site.respond, WebStep, Journal, Accounted,
  endpoint_accounted, endpoint_retried, endpoint_complete
-/
import Goggles.Concurrency.Commit
import Goggles.Tokens.Lifecycle
import Goggles.Transfer.VerifiedBytes

namespace Goggles

/-! ### Requests and responses -/

/-- What is read of a request to `api_audit_log_upload`. -/
structure UploadCall (σ : Type) where
  isPost : Bool
  authorization : Option Str
  pathGroup : Option Str
  formGroup : Option Str
  queryGroup : Option Str
  headerGroup : Option Str
  request : UploadRequest
  stream : σ
  receivedAt : Nat

/-- The first of some texts that is not blank. -/
def firstNonBlank (texts : List (Option Str)) : Option Str :=
  (texts.map fun text => text.getD []).find? (· ≠ [])

/-- `fallback_group_from_request`, with `group_name`. -/
def fallbackGroupFromRequest {σ : Type} (env : Env) (call : UploadCall σ) : Option Str × Str :=
  match firstNonBlank [call.pathGroup, call.formGroup, call.queryGroup, call.headerGroup] with
  | none => (none, [])
  | some candidate =>
      let slug := (env.slugify candidate).take maxSlugLength
      (some (if slug = [] then lit "incoming" else slug), groupNameFromSlug env candidate)

/-- The body of an answer that names a file.  `artifact_type` is always `audit_log`. -/
structure UploadBody where
  id : Nat
  group : Option Str
  groups : List Str
  source : List (Str × Str)
  accountRefs : List Str
  groupRefs : List Str
  schemaVersions : List Str
  auditDataModes : List Str
  validationStatus : ParseStatus
  eventCount : Nat
  invalidEventCount : Nat
  duplicateEventCount : Nat
  engineIds : List Str
deriving Repr, DecidableEq

/-- `groups_for_audit_file`. -/
def groupsForAuditFile (store : Store) (file : AuditFile) : List AuditGroup :=
  inOrder (·.slug) (store.groups.filter fun group => decide (group.id ∈ file.groups))

/-- `source_response`. -/
def sourceResponse (file : AuditFile) : List (Str × Str) :=
  [(lit "platform", file.source.platform), (lit "hardware_model", file.source.hardwareModel),
    (lit "app_version", file.source.appVersion), (lit "device_id", file.source.deviceId),
    (lit "upload_trigger", file.source.uploadTrigger),
    (lit "local_member_ref", file.source.localMemberRef)].filter (·.2 ≠ [])

/-- The body about a file. -/
def uploadBody (store : Store) (file : AuditFile) : UploadBody :=
  let slugs := (groupsForAuditFile store file).map (·.slug)
  { id := file.id
    group := if slugs.length = 1 then slugs.head? else none
    groups := slugs
    source := sourceResponse file
    accountRefs := file.metadata.accountRefs
    groupRefs := file.metadata.groupRefs
    schemaVersions := file.metadata.schemaVersions
    auditDataModes := file.metadata.auditDataModes
    validationStatus := .valid
    eventCount := file.metadata.validEventCount
    invalidEventCount := file.metadata.invalidEventCount
    duplicateEventCount := file.duplicateEventCount
    engineIds := file.metadata.engineIds }

inductive UploadResponse where
  | notAllowed
  | unauthorized
  | disabled
  | failed
  | refused (refusal : UploadRefused)
  | rejected (rejected : UploadRejected)
  | accepted (created : Bool) (body : UploadBody)
deriving DecidableEq

/-- The HTTP status. -/
def UploadResponse.status : UploadResponse → Nat
  | .notAllowed => 405
  | .unauthorized => 401
  | .disabled => 503
  | .failed => 500
  | .refused refusal => refusal.status
  | .rejected code => code.statusCode
  | .accepted created _ => if created then 201 else 200

/-! ### The endpoint -/

/-- The row of a refused transfer. -/
structure TransportRejection where
  reason : Str
  statusCode : Nat
  declaredContentLength : Option Nat
  receivedBytes : Option Nat
  createdAt : Nat
deriving Repr, DecidableEq

/-- The tokens, the switch of the uploads and the database. -/
structure Site where
  deployment : Deployment
  uploadsEnabled : Bool
  store : Store
  refusals : List TransportRejection

section Endpoint

variable {σ ε : Type} (crypto : Crypto) (env : Env) (source : ByteSource σ ε) (django : Django)

/-- What `verified_audit_bytes` returns or raises for a request. -/
def verifiedBody (call : UploadCall σ) : Except UploadError (List UInt8) :=
  (verifiedAuditBytes source django env.settings.maxDumpBytes call.request call.stream).1

/-- The arguments of `ingest_audit_log_bytes`. -/
def uploadOfCall (call : UploadCall σ) (auditBytes : List UInt8) : Upload :=
  let (fallbackSlug, fallbackName) := fallbackGroupFromRequest env call
  { dumpBytes := auditBytes
    fallbackGroupSlug := fallbackSlug
    fallbackGroupName := fallbackName
    receivedAt := call.receivedAt }

namespace Site

/-- A body that was read is ingested. -/
def ingestBody (site : Site) (call : UploadCall σ) (lookupPrefix : Str) (auditBytes : List UInt8) :
    UploadResponse × Site :=
  match ingest env site.store (uploadOfCall env call auditBytes) with
  | (.refused rejected, store) => (.rejected rejected, { site with store })
  | (.stored fileId created, store) =>
      let deployment := site.deployment.step crypto (.markUsed .uploadToken lookupPrefix)
      match store.files.find? (·.id = fileId) with
      | none => (.failed, { site with store, deployment })
      | some file => (.accepted created (uploadBody store file), { site with store, deployment })

/-- A request with a token. -/
def receive (site : Site) (call : UploadCall σ) (lookupPrefix : Str) : UploadResponse × Site :=
  if !site.uploadsEnabled then (.disabled, site)
  else
    match verifiedBody env source django call with
    | .error (.uncaught _) => (.failed, site)
    | .error (.refused refusal) =>
        (.refused refusal,
          { site with
            refusals := site.refusals ++
              [⟨refusal.reason, refusal.status, refusal.declared, refusal.received,
                call.receivedAt⟩] })
    | .ok auditBytes => site.ingestBody crypto env call lookupPrefix auditBytes

/-- `api_audit_log_upload`. -/
def respond (site : Site) (call : UploadCall σ) : UploadResponse × Site :=
  if !call.isPost then (.notAllowed, site)
  else
    match site.deployment.answer crypto .uploadToken (bearerValue call.authorization) with
    | none => (.failed, site)
    | some (found, table) =>
        let known := { site with deployment := site.deployment.withTable .uploadToken table }
        match found with
        | none => (.unauthorized, known)
        | some (lookupPrefix, _) => known.receive crypto env source django call lookupPrefix

end Site

/-! ### Histories -/

/-- What happens to a site: a request, a change of the tokens, their owners or the keys, the switch of
the uploads, or the rebuild of a group. -/
inductive WebStep (σ : Type) where
  | upload (call : UploadCall σ)
  | account (action : Action)
  | switch (uploadsEnabled : Bool)
  | rebuild (groupId : Nat)

/-- A site, with every request so far and its response. -/
structure Journal (σ : Type) where
  site : Site
  exchanges : List (UploadCall σ × UploadResponse)

/-- One step. -/
def Journal.step (journal : Journal σ) : WebStep σ → Journal σ
  | .upload call =>
      let (response, site) := journal.site.respond crypto env source django call
      ⟨site, journal.exchanges ++ [(call, response)]⟩
  | .account action =>
      { journal with
        site := { journal.site with deployment := journal.site.deployment.step crypto action } }
  | .switch uploadsEnabled => { journal with site := { journal.site with uploadsEnabled } }
  | .rebuild groupId =>
      match rebuildGroup journal.site.store.events groupId with
      | none => journal
      | some rows =>
          let projections := Function.update journal.site.store.projections groupId rows
          { journal with
            site := { journal.site with store := { journal.site.store with projections } } }

/-- A site with an empty database. -/
def Journal.fresh (deployment : Deployment) (uploadsEnabled : Bool) : Journal σ :=
  ⟨⟨deployment, uploadsEnabled, .empty, []⟩, []⟩

/-! ### What one request does -/

/-- What a response says of the database after it. -/
inductive Responds (site : Site) (call : UploadCall σ) : UploadResponse → Site → Prop where
  | nothing {response : UploadResponse} {next : Site}
      (plain : response = .notAllowed ∨ response = .unauthorized ∨ response = .disabled ∨
        response = .failed)
      (store : next.store = site.store) (refusals : next.refusals = site.refusals) :
      Responds site call response next
  | refused {refusal : UploadRefused} {next : Site}
      (body : verifiedBody env source django call = .error (.refused refusal))
      (store : next.store = site.store)
      (refusals : next.refusals = site.refusals ++
        [⟨refusal.reason, refusal.status, refusal.declared, refusal.received, call.receivedAt⟩]) :
      Responds site call (.refused refusal) next
  | rejected {auditBytes : List UInt8} {rejection : UploadRejected} {next : Site}
      (body : verifiedBody env source django call = .ok auditBytes)
      (store : next.store =
        site.store.recordRejection (uploadOfCall env call auditBytes) rejection)
      (refusals : next.refusals = site.refusals) : Responds site call (.rejected rejection) next
  | known {auditBytes : List UInt8} {file : AuditFile} {next : Site}
      (body : verifiedBody env source django call = .ok auditBytes)
      (valid : ∃ parsed, validateUpload env auditBytes = .ok parsed)
      (member : file ∈ site.store.files) (hash : file.fileSha256 = env.sha256 auditBytes)
      (store : next.store = site.store) (refusals : next.refusals = site.refusals) :
      Responds site call (.accepted false (uploadBody site.store file)) next
  | created {auditBytes : List UInt8} {rawText : Str} {lines : List ParsedLine} {next : Site}
      (body : verifiedBody env source django call = .ok auditBytes)
      (stored : StoredUpload env site.store (uploadOfCall env call auditBytes) rawText lines
        next.store)
      (refusals : next.refusals = site.refusals) :
      Responds site call (.accepted true (uploadBody next.store
        (uploadFile env site.store (uploadOfCall env call auditBytes) rawText lines))) next

end Endpoint

section Respond

variable {σ ε : Type} {crypto : Crypto} {env : Env} {source : ByteSource σ ε} {django : Django}
  {site : Site} {call : UploadCall σ}

theorem ingestBody_responds (formed : WellFormed site.store) {auditBytes : List UInt8}
    (body : verifiedBody env source django call = .ok auditBytes) (deployment : Deployment)
    (lookupPrefix : Str) :
    Responds env source django site call
      ({ site with deployment }.ingestBody crypto env call lookupPrefix auditBytes).1
      ({ site with deployment }.ingestBody crypto env call lookupPrefix auditBytes).2 := by
  unfold Site.ingestBody
  rcases ingest_cases env site.store (uploadOfCall env call auditBytes) with
    ⟨rejection, same⟩ | ⟨file, member, rawText, lines, valid, hash, same⟩ |
      ⟨rawText, lines, next, stored, same⟩
  · rw [same]
    exact .rejected body rfl rfl
  · rw [same]
    simp only [find?_of_nodup formed.fileIds member]
    exact .known body ⟨_, valid⟩ member hash rfl rfl
  · rw [same]
    have later := formed.storedUpload stored
    have member : uploadFile env site.store (uploadOfCall env call auditBytes) rawText lines ∈
        next.files := by
      rw [stored.files]
      simp
    have found : next.files.find? (fun other => decide (other.id = site.store.nextFileId)) = _ :=
      find?_of_nodup later.fileIds member
    simp only [found]
    exact @Responds.created σ ε env source django site call auditBytes rawText lines
      { site with
        store := next
        deployment := deployment.step crypto (.markUsed .uploadToken lookupPrefix) }
      body stored rfl

/-- Every response is one of these. -/
theorem respond_responds (formed : WellFormed site.store) :
    Responds env source django site call (site.respond crypto env source django call).1
      (site.respond crypto env source django call).2 := by
  unfold Site.respond
  split
  · exact .nothing (.inl rfl) rfl rfl
  · split
    · exact .nothing (.inr (.inr (.inr rfl))) rfl rfl
    · next found table answered =>
        simp only
        split
        · exact .nothing (.inr (.inl rfl)) rfl rfl
        · next lookupPrefix token =>
            unfold Site.receive
            split
            · exact .nothing (.inr (.inr (.inl rfl))) rfl rfl
            · split
              · exact .nothing (.inr (.inr (.inr rfl))) rfl rfl
              · next refusal refused => exact .refused refused rfl rfl
              · next auditBytes read => exact ingestBody_responds formed read _ lookupPrefix

end Respond

/-! ### The groups an answer names -/

/-- The id and the slug of a group. -/
def AuditGroup.address (group : AuditGroup) : Nat × Str := (group.id, group.slug)

/-- The groups that were there keep their ids and slugs, and those that were not have new ids. -/
structure GroupsExtended (table next : GroupTable) : Prop where
  added : ∃ new : List (Nat × Str),
    next.groups.map AuditGroup.address = table.groups.map AuditGroup.address ++ new ∧
      ∀ address ∈ new, table.nextGroupId ≤ address.1
  sequence : table.nextGroupId ≤ next.nextGroupId

namespace GroupsExtended

variable {env : Env} {table middle next : GroupTable}

theorem ofSame (same : next.groups.map AuditGroup.address = table.groups.map AuditGroup.address)
    (sequence : table.nextGroupId ≤ next.nextGroupId) : GroupsExtended table next :=
  ⟨⟨[], by rw [same, List.append_nil], by simp⟩, sequence⟩

theorem trans (first : GroupsExtended table middle) (second : GroupsExtended middle next) :
    GroupsExtended table next := by
  obtain ⟨new, grown, above⟩ := first.added
  obtain ⟨more, grownAgain, aboveAgain⟩ := second.added
  constructor
  · refine ⟨new ++ more, by rw [grownAgain, grown, List.append_assoc], ?_⟩
    intro address member
    rcases List.mem_append.mp member with early | late
    · exact above address early
    · exact first.sequence.trans (aboveAgain address late)
  · exact first.sequence.trans second.sequence

theorem create (table : GroupTable) (name slug groupRef : Str) :
    GroupsExtended table (table.create name slug groupRef) where
  added := by
    refine ⟨[(table.nextGroupId, slug)], ?_, ?_⟩
    · rw [GroupTable.create, List.map_append]
      rfl
    · intro address member
      rw [List.mem_singleton.mp member]
  sequence := Nat.le_succ _

theorem setRef (table : GroupTable) (groupId : Nat) (groupRef : Str) :
    GroupsExtended table { table with groups := setGroupRef table.groups groupId groupRef } := by
  refine ofSame ?_ (le_refl table.nextGroupId)
  rw [setGroupRef, List.map_map]
  refine List.map_congr_left fun group _ => ?_
  simp only [Function.comp_apply]
  split <;> rfl

theorem groupForKey (fallbackGroupName : Str) (table : GroupTable) (key : GroupKey) :
    GroupsExtended table (groupForKey env fallbackGroupName table key).1 := by
  cases key with
  | ref value =>
      simp only [Goggles.groupForKey, groupForRef]
      split
      · exact .ofSame rfl le_rfl
      · split
        · split
          · exact .setRef table _ value
          · exact .ofSame rfl le_rfl
        · exact .create table _ _ value
  | slug value =>
      simp only [Goggles.groupForKey, groupForSlug]
      split
      · exact .ofSame rfl le_rfl
      · exact .create table _ value []

theorem resolveGroupKeys (fallbackGroupName : Str) (table : GroupTable) (keys : List GroupKey) :
    GroupsExtended table (resolveGroupKeys env fallbackGroupName table keys).1 := by
  induction keys generalizing table with
  | nil => exact .ofSame rfl le_rfl
  | cons key rest inductionHypothesis =>
      exact (groupForKey fallbackGroupName table key).trans (inductionHypothesis _)

end GroupsExtended

theorem StoredUpload.groupsExtended {env : Env} {store next : Store} {upload : Upload}
    {rawText : Str} {lines : List ParsedLine}
    (stored : StoredUpload env store upload rawText lines next) :
    GroupsExtended store.groupTable next.groupTable := by
  have resolved : GroupsExtended store.groupTable (uploadGroups env store upload lines).1 :=
    .resolveGroupKeys upload.fallbackGroupName store.groupTable _
  apply resolved.trans
  apply GroupsExtended.ofSame _ stored.nextGroupId.ge
  rw [Store.groupTable, stored.groups, refreshGroupRollups, List.map_map]
  refine List.map_congr_left fun group _ => ?_
  simp only [Function.comp_apply]
  split <;> rfl

/-- The slugs of a file's groups, read off the ids and slugs of the groups. -/
theorem map_slug_groupsForAuditFile (store : Store) (file : AuditFile) :
    (groupsForAuditFile store file).map (·.slug) =
      inOrder id (((store.groups.map AuditGroup.address).filter
        fun address => decide (address.1 ∈ file.groups)).map Prod.snd) := by
  rw [groupsForAuditFile, List.filter_map, List.map_map]
  exact map_inOrder id AuditGroup.slug _

/-- New groups are in no answer about an old file. -/
theorem uploadBody_kept {store next : Store} {file : AuditFile}
    (extended : GroupsExtended store.groupTable next.groupTable)
    (known : ∀ groupId ∈ file.groups, groupId < store.nextGroupId) :
    uploadBody next file = uploadBody store file := by
  obtain ⟨new, grown, above⟩ := extended.added
  have noNew : new.filter (fun address => decide (address.1 ∈ file.groups)) = [] := by
    apply List.filter_eq_nil_iff.mpr
    intro address member linked
    exact Nat.not_lt.mpr (above address member) (known address.1 (of_decide_eq_true linked))
  have sameSlugs : (groupsForAuditFile next file).map (·.slug) =
      (groupsForAuditFile store file).map (·.slug) := by
    have grownRows : next.groups.map AuditGroup.address =
        store.groups.map AuditGroup.address ++ new := grown
    rw [map_slug_groupsForAuditFile, map_slug_groupsForAuditFile, grownRows, List.filter_append,
      noNew, List.append_nil]
  simp only [uploadBody, sameSlugs]

/-- The groups a file is linked to are in the table. -/
theorem EvidenceOf.linked {env : Env} {done : List Upload} {store : Store}
    (evidence : EvidenceOf env done store) {file : AuditFile} (member : file ∈ store.files)
    {groupId : Nat} (linked : groupId ∈ file.groups) : groupId < store.nextGroupId := by
  obtain ⟨origin, -, known⟩ := evidence.files file member
  obtain ⟨line, -, key, -, stands⟩ := (known.groups groupId).mp linked
  have exists_group : ∃ group ∈ store.groups, group.id = groupId := by
    cases key with
    | slug value =>
        obtain ⟨group, found, same⟩ := Option.map_eq_some_iff.mp stands
        exact ⟨group, List.mem_of_find?_eq_some found, same⟩
    | ref value =>
        obtain ⟨group, found, same⟩ := Option.map_eq_some_iff.mp stands
        rcases Option.or_eq_some_iff.mp found with byRef | ⟨-, bySlug⟩
        · exact ⟨group, List.mem_of_find?_eq_some byRef, same⟩
        · exact ⟨group, List.mem_of_find?_eq_some bySlug, same⟩
  obtain ⟨group, groupMember, rfl⟩ := exists_group
  exact evidence.table.bound group groupMember

/-! ### The account of a history -/

section Accounts

variable {σ ε : Type} (env : Env) (source : ByteSource σ ε) (django : Django)

/-- The upload of an exchange that was answered 201. -/
def createdUpload : UploadCall σ × UploadResponse → Option Upload
  | (call, .accepted true _) =>
      (verifiedBody env source django call).toOption.map (uploadOfCall env call)
  | _ => none

/-- The id an exchange that was answered 201 gave, and the hash of its bytes. -/
def createdFile : UploadCall σ × UploadResponse → Option (Nat × Str)
  | (call, .accepted true body) =>
      (verifiedBody env source django call).toOption.map fun auditBytes =>
        (body.id, env.sha256 auditBytes)
  | _ => none

/-- The row of an exchange whose body was rejected. -/
def rejectionRow : UploadCall σ × UploadResponse → Option UploadRejection
  | (call, .rejected rejected) =>
      (verifiedBody env source django call).toOption.map fun auditBytes =>
        ⟨rejected.code, (UploadResponse.rejected rejected).status, rejected.lineNumber,
          auditBytes.length, call.receivedAt⟩
  | _ => none

/-- The row of an exchange whose transfer was refused. -/
def refusalRow : UploadCall σ × UploadResponse → Option TransportRejection
  | (call, .refused refusal) =>
      some ⟨refusal.reason, (UploadResponse.refused refusal).status, refusal.declared,
        refusal.received, call.receivedAt⟩
  | _ => none

/-- An answer about a file is what would be answered now. -/
def StillTrue (store : Store) : UploadCall σ × UploadResponse → Prop
  | (call, .accepted _ body) =>
      ∃ auditBytes, verifiedBody env source django call = .ok auditBytes ∧
        (∃ parsed, validateUpload env auditBytes = .ok parsed) ∧
        ∃ file ∈ store.files, file.fileSha256 = env.sha256 auditBytes ∧
          uploadBody store file = body
  | _ => True

/-- The database is what the answers say: that of the uploads answered 201, one after the other, with
a row for each refusal, and all that was answered about a file is true of it. -/
structure Accounted (journal : Journal σ) : Prop where
  uploads : Serial env (journal.exchanges.filterMap (createdUpload env source django))
    journal.site.store
  files : journal.site.store.files.map (fun file => (file.id, file.fileSha256)) =
    journal.exchanges.filterMap (createdFile env source django)
  rejections : journal.site.store.rejections =
    journal.exchanges.filterMap (rejectionRow env source django)
  refusals : journal.site.refusals = journal.exchanges.filterMap refusalRow
  answers : ∀ exchange ∈ journal.exchanges, StillTrue env source django journal.site.store exchange

end Accounts

section Histories

variable {σ ε : Type} {crypto : Crypto} {env : Env} {source : ByteSource σ ε} {django : Django}
  {site next : Site} {call : UploadCall σ} {response : UploadResponse} {journal : Journal σ}

/-- An answer stays true of a database that keeps the files and the groups. -/
theorem StillTrue.kept {store later : Store} {exchange : UploadCall σ × UploadResponse}
    (true_ : StillTrue env source django store exchange)
    (files : ∀ file ∈ store.files, file ∈ later.files)
    (extended : GroupsExtended store.groupTable later.groupTable)
    (linked : ∀ file ∈ store.files, ∀ groupId ∈ file.groups, groupId < store.nextGroupId) :
    StillTrue env source django later exchange := by
  obtain ⟨call, response⟩ := exchange
  cases response with
  | accepted created body =>
      obtain ⟨auditBytes, read, valid, file, member, hash, same⟩ := true_
      exact ⟨auditBytes, read, valid, file, files file member, hash,
        (uploadBody_kept extended (linked file member)).trans same⟩
  | notAllowed | unauthorized | disabled | failed | refused refusal | rejected code => trivial

theorem Accounted.evidence (accounted : Accounted env source django journal) :
    EvidenceOf env (journal.exchanges.filterMap (createdUpload env source django))
      journal.site.store :=
  accounted.uploads.consistent.evidence

/-- The answers so far stay true. -/
theorem Accounted.stillTrue (accounted : Accounted env source django journal)
    (files : ∀ file ∈ journal.site.store.files, file ∈ next.store.files)
    (extended : GroupsExtended journal.site.store.groupTable next.store.groupTable)
    (now : StillTrue env source django next.store (call, response)) :
    ∀ exchange ∈ journal.exchanges ++ [(call, response)],
      StillTrue env source django next.store exchange := by
  intro exchange member
  rcases List.mem_append.mp member with before | last
  · exact (accounted.answers exchange before).kept files extended fun file known groupId linked =>
      accounted.evidence.linked known linked
  · rw [List.mem_singleton.mp last]
    exact now

theorem filterMap_concat {α β : Type} (f : α → Option β) (items : List α) (last : α) :
    (items ++ [last]).filterMap f = items.filterMap f ++ (f last).toList := by
  rw [List.filterMap_append, List.filterMap_cons, List.filterMap_nil]
  cases f last <;> rfl

/-- The account of one more exchange. -/
theorem Accounted.extend (accounted : Accounted env source django journal)
    (uploads : Serial env (journal.exchanges.filterMap (createdUpload env source django) ++
      (createdUpload env source django (call, response)).toList) next.store)
    (files : next.store.files.map (fun file => (file.id, file.fileSha256)) =
      journal.site.store.files.map (fun file => (file.id, file.fileSha256)) ++
        (createdFile env source django (call, response)).toList)
    (rejections : next.store.rejections = journal.site.store.rejections ++
      (rejectionRow env source django (call, response)).toList)
    (refusals : next.refusals = journal.site.refusals ++ (refusalRow (call, response)).toList)
    (kept : ∀ file ∈ journal.site.store.files, file ∈ next.store.files)
    (extended : GroupsExtended journal.site.store.groupTable next.store.groupTable)
    (now : StillTrue env source django next.store (call, response)) :
    Accounted env source django ⟨next, journal.exchanges ++ [(call, response)]⟩ where
  uploads := by
    rw [filterMap_concat]
    exact uploads
  files := by rw [filterMap_concat, files, accounted.files]
  rejections := by rw [filterMap_concat, rejections, accounted.rejections]
  refusals := by rw [filterMap_concat, refusals, accounted.refusals]
  answers := accounted.stillTrue kept extended now

/-- One request keeps the account. -/
theorem Accounted.responds (accounted : Accounted env source django journal)
    (responds : Responds env source django journal.site call response next) :
    Accounted env source django ⟨next, journal.exchanges ++ [(call, response)]⟩ := by
  have same : GroupsExtended journal.site.store.groupTable journal.site.store.groupTable :=
    .ofSame rfl le_rfl
  cases responds with
  | nothing plain store refusals =>
      rcases plain with rfl | rfl | rfl | rfl <;>
        exact accounted.extend (by simpa [createdUpload, store] using accounted.uploads)
          (by simp [createdFile, store]) (by simp [rejectionRow, store])
          (by simp [refusalRow, refusals]) (by simp [store]) (by rw [store]; exact same) trivial
  | refused body store refusals =>
      exact accounted.extend (by simpa [createdUpload, store] using accounted.uploads)
        (by simp [createdFile, store]) (by simp [rejectionRow, store]) refusals (by simp [store])
        (by rw [store]; exact same) trivial
  | @rejected auditBytes rejection _ body store refusals =>
      refine accounted.extend ?_ ?_ ?_ ?_ ?_ ?_ trivial
      · rw [store]
        simpa [createdUpload] using Serial.rejection _ rejection accounted.uploads
      · simp [createdFile, store, Store.recordRejection]
      · simp [rejectionRow, body, store, Store.recordRejection, Except.toOption,
          UploadResponse.status, uploadOfCall]
      · simp [refusalRow, refusals]
      · simp [store, Store.recordRejection]
      · rw [store]
        exact same
  | known body valid member hash store refusals =>
      refine accounted.extend (by simpa [createdUpload, store] using accounted.uploads)
        (by simp [createdFile, store]) (by simp [rejectionRow, store])
        (by simp [refusalRow, refusals]) (by simp [store]) (by rw [store]; exact same) ?_
      exact ⟨_, body, valid, _, store ▸ member, hash, by rw [store]⟩
  | @created auditBytes rawText lines _ body stored refusals =>
      have evidence := accounted.evidence
      refine accounted.extend ?_ ?_ ?_ ?_ ?_ stored.groupsExtended ?_
      · simp only [createdUpload, body, Except.toOption, Option.map_some, Option.toList_some]
        exact accounted.uploads.upload (stored.committed evidence.formed evidence.table)
      · simp only [createdFile, body, Except.toOption, Option.map_some, Option.toList_some,
          stored.files, List.map_append, List.map_singleton]
        rfl
      · simp [rejectionRow, stored.rejections]
      · simp [refusalRow, refusals]
      · intro file member
        rw [stored.files]
        exact List.mem_append_left _ member
      · refine ⟨auditBytes, body, ⟨_, stored.valid⟩, _, ?_, rfl, rfl⟩
        rw [stored.files]
        exact List.mem_append_right _ List.mem_cons_self

theorem Accounted.step (accounted : Accounted env source django journal) (input : WebStep σ) :
    Accounted env source django (journal.step crypto env source django input) := by
  cases input with
  | upload call => exact accounted.responds (respond_responds accounted.evidence.formed)
  | account action =>
      exact ⟨accounted.uploads, accounted.files, accounted.rejections, accounted.refusals,
        accounted.answers⟩
  | switch uploadsEnabled =>
      exact ⟨accounted.uploads, accounted.files, accounted.rejections, accounted.refusals,
        accounted.answers⟩
  | rebuild groupId =>
      rw [Journal.step]
      split
      · exact accounted
      · next rows rebuilt =>
          refine ⟨accounted.uploads.rebuild rebuilt, accounted.files, accounted.rejections,
            accounted.refusals, fun exchange member => ?_⟩
          exact (accounted.answers exchange member).kept (fun _ known => known)
            (.ofSame rfl le_rfl) fun file known groupId linked =>
              accounted.evidence.linked known linked

theorem Accounted.fresh (deployment : Deployment) (uploadsEnabled : Bool) :
    Accounted env source django (Journal.fresh deployment uploadsEnabled) where
  uploads := .empty
  files := rfl
  rejections := rfl
  refusals := rfl
  answers := by simp [Journal.fresh]

/-- A request was sent under a live token while uploads were enabled, and its body was read. -/
structure Received (crypto : Crypto) (env : Env) (source : ByteSource σ ε) (django : Django)
    (site : Site) (call : UploadCall σ) (auditBytes : List UInt8) : Prop where
  post : call.isPost = true
  token : ∃ rawToken lookupPrefix, bearerValue call.authorization = some rawToken ∧
    site.deployment.Accepts crypto .uploadToken rawToken lookupPrefix
  enabled : site.uploadsEnabled = true
  body : verifiedBody env source django call = .ok auditBytes

/-- A file came in one of the requests, which was received with the whole of its body. -/
def Vouched (crypto : Crypto) (env : Env) (source : ByteSource σ ε) (django : Django)
    (start : Journal σ) (steps : List (WebStep σ)) (file : AuditFile) : Prop :=
  ∃ earlier call later auditBytes, steps = earlier ++ .upload call :: later ∧
    Received crypto env source django
      (run (Journal.step crypto env source django) start earlier).site call auditBytes ∧
    file.fileSha256 = env.sha256 auditBytes ∧
    ∃ handed, CompleteOrRefused env.settings.maxDumpBytes call.request
      (source.remaining call.stream) (.ok auditBytes, handed)

/-- A request that is received is ingested. -/
theorem Received.respond {auditBytes : List UInt8}
    (received : Received crypto env source django site call auditBytes) :
    ∃ deployment lookupPrefix, site.respond crypto env source django call =
      { site with deployment }.ingestBody crypto env call lookupPrefix auditBytes := by
  obtain ⟨post, ⟨rawToken, lookupPrefix, bearer, row, table, answered⟩, enabled, body⟩ := received
  refine ⟨site.deployment.withTable .uploadToken table, lookupPrefix, ?_⟩
  simp [Site.respond, Site.receive, post, bearer, answered, enabled, body]

/-- Only a request that is received is answered about a file. -/
theorem received_of_accepted {created : Bool} {body : UploadBody}
    (answered : (site.respond crypto env source django call).1 = .accepted created body) :
    ∃ auditBytes, Received crypto env source django site call auditBytes := by
  unfold Site.respond at answered
  split at answered
  · cases answered
  next post =>
  split at answered
  · cases answered
  next found table known =>
  dsimp only at answered
  split at answered
  · cases answered
  next lookupPrefix row =>
  unfold Site.receive at answered
  split at answered
  · cases answered
  next enabled =>
  split at answered
  · cases answered
  · cases answered
  next auditBytes body =>
  obtain ⟨rawToken, bearer⟩ := exists_rawToken known
  rw [bearer] at known
  exact ⟨auditBytes, by simpa using post, ⟨rawToken, lookupPrefix, bearer, row, table, known⟩,
    by simpa using enabled, body⟩

theorem createdFile_eq_some {row : Nat × Str}
    (made : createdFile env source django (call, response) = some row) :
    ∃ body auditBytes, response = .accepted true body ∧
      verifiedBody env source django call = .ok auditBytes ∧
      row = (body.id, env.sha256 auditBytes) := by
  cases response with
  | accepted created body =>
      cases created with
      | false => cases made
      | true =>
          obtain ⟨auditBytes, read, same⟩ := Option.map_eq_some_iff.mp made
          cases returned : verifiedBody env source django call with
          | error exception =>
              rw [returned] at read
              cases read
          | ok bytes =>
              rw [returned] at read
              cases read
              exact ⟨body, auditBytes, rfl, rfl, same.symm⟩
  | notAllowed | unauthorized | disabled | failed | refused refusal | rejected code => cases made

/-- Every answer is the one the site gave when the request came. -/
theorem exchange_origin {start : Journal σ} (fresh : start.exchanges = [])
    {steps : List (WebStep σ)}
    (member : (call, response) ∈ (run (Journal.step crypto env source django) start steps).exchanges) :
    ∃ earlier later, steps = earlier ++ .upload call :: later ∧
      ((run (Journal.step crypto env source django) start earlier).site.respond
        crypto env source django call).1 = response := by
  induction steps using List.reverseRecOn with
  | nil =>
      rw [run_nil, fresh] at member
      cases member
  | append_singleton steps last inductionHypothesis =>
      rw [run_append, run_cons, run_nil] at member
      have before : (call, response) ∈
          (run (Journal.step crypto env source django) start steps).exchanges →
          ∃ earlier later, steps ++ [last] = earlier ++ .upload call :: later ∧
            ((run (Journal.step crypto env source django) start earlier).site.respond
              crypto env source django call).1 = response := by
        intro known
        obtain ⟨earlier, later, rfl, given⟩ := inductionHypothesis known
        exact ⟨earlier, later ++ [last], by simp, given⟩
      cases last with
      | upload sent =>
          rcases List.mem_append.mp member with known | new
          · exact before known
          · cases List.mem_singleton.mp new
            exact ⟨steps, [], rfl, rfl⟩
      | account action => exact before member
      | switch uploadsEnabled => exact before member
      | rebuild groupId =>
          apply before
          rw [Journal.step] at member
          split at member <;> exact member

/-! ### A device that sends its log twice -/

/-- A request with the log of the engine `e` up to the record at 100. -/
def deviceCall (receivedAt : Nat) : UploadCall ProgressInput where
  isPost := true
  authorization := some (lit "Bearer " ++ generateRawToken (lit "goggles") underscoredToken)
  pathGroup := none
  formGroup := none
  queryGroup := none
  headerGroup := none
  request := ⟨"application/x-ndjson", some (natText (shortLog receivedAt).dumpBytes.length), true⟩
  stream := .new (shortLog receivedAt).dumpBytes
  receivedAt := receivedAt

/-- The device gets its token and sends the log. -/
def deviceSteps : List (WebStep ProgressInput) :=
  [.account (.issue .uploadToken (lit "device") () none underscoredToken), .upload (deviceCall 100)]

/-- What the site is after some steps. -/
def deviceJournal (steps : List (WebStep ProgressInput)) : Journal ProgressInput :=
  run (Journal.step underscoredCrypto sendEnv (progressSource dribbling) rawDjango)
    (.fresh (.new ⟨firstKey, none⟩ 0) true) steps

/-- Every stored file came in a request under a live token, with the whole of its body. -/
theorem endpoint_complete (crypto : Crypto) (env : Env) (source : ByteSource σ ε) (django : Django)
    (deployment : Deployment) (uploadsEnabled : Bool) (steps : List (WebStep σ))
    (reads : ∀ call, .upload call ∈ steps → DjangoReads source django call.request call.stream)
    (counted : ∀ call, .upload call ∈ steps → call.request.isMultipart = true →
      call.request.counted = true)
    (file : AuditFile)
    (member : file ∈ (run (Journal.step crypto env source django)
      (.fresh deployment uploadsEnabled) steps).site.store.files) :
    Vouched crypto env source django (.fresh deployment uploadsEnabled) steps file := by
  have accounted : Accounted env source django (run (Journal.step crypto env source django)
      (.fresh deployment uploadsEnabled) steps) :=
    run_invariant (fun _ input accounted => accounted.step input)
      (.fresh deployment uploadsEnabled) steps
  have listed : (file.id, file.fileSha256) ∈ (run (Journal.step crypto env source django)
      (.fresh deployment uploadsEnabled) steps).exchanges.filterMap
        (createdFile env source django) := by
    rw [← accounted.files]
    exact List.mem_map_of_mem member
  obtain ⟨⟨call, response⟩, exchanged, made⟩ := List.mem_filterMap.mp listed
  obtain ⟨body, auditBytes, rfl, read, hash⟩ := createdFile_eq_some made
  obtain ⟨earlier, later, whole, given⟩ := exchange_origin rfl exchanged
  obtain ⟨bytes, received⟩ := received_of_accepted given
  obtain rfl : auditBytes = bytes := Except.ok.inj (read.symm.trans received.body)
  have sent : .upload call ∈ steps := by
    rw [whole]
    exact List.mem_append_right _ List.mem_cons_self
  have complete := verifiedAuditBytes_complete source django env.settings.maxDumpBytes call.request
    call.stream (reads call sent) (counted call sent)
  have returned : verifiedAuditBytes source django env.settings.maxDumpBytes call.request
      call.stream = (.ok auditBytes, (verifiedAuditBytes source django env.settings.maxDumpBytes
        call.request call.stream).2) := Prod.ext read rfl
  rw [returned] at complete
  exact ⟨earlier, call, later, auditBytes, whole, received, congrArg Prod.snd hash, _, complete⟩

theorem endpoint_complete_device :
    ∃ file ∈ (deviceJournal deviceSteps).site.store.files,
      Vouched underscoredCrypto sendEnv (progressSource dribbling) rawDjango
        (.fresh (.new ⟨firstKey, none⟩ 0) true) deviceSteps file := by
  have stored : 0 < (deviceJournal deviceSteps).site.store.files.length := by decide +kernel
  obtain ⟨file, member⟩ := List.exists_mem_of_length_pos stored
  unfold deviceJournal at member ⊢
  refine ⟨file, member, endpoint_complete underscoredCrypto sendEnv (progressSource dribbling)
    rawDjango (.new ⟨firstKey, none⟩ 0) true deviceSteps ?_ ?_ file member⟩
  · exact fun call _ => djangoReads_rawDjango dribbling call.request call.stream
  · intro call sent
    simp only [deviceSteps, List.mem_cons, reduceCtorEq, WebStep.upload.injEq, List.not_mem_nil,
      or_false, false_or] at sent
    rw [sent]
    decide

end Histories

end Goggles
