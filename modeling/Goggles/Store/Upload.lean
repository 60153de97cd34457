/-
Module: Goggles.Store.Upload
Purpose: One upload as a step of the store: what it can do, said once, and the well-formedness every
  operation keeps.
Trusted boundary: none beyond the modules it imports
Main exports: uploadScan, uploadFile, StoredUpload, afterUpload_cases, fileLines, WellFormed,
  FileAdded, WellFormed.added, WellFormed.afterUpload
-/
import Goggles.Store.CreateEvents
import Goggles.Library.Runs

namespace Goggles

/-! ### The parts of a stored upload -/

/-- The groups an upload's lines resolve to, with the group table afterwards. -/
def uploadGroups (env : Env) (store : Store) (upload : Upload) (lines : List ParsedLine) :
    GroupTable × List (GroupKey × Nat) :=
  groupsForParsedLines env upload lines ⟨store.groups, store.nextGroupId⟩

/-- The group of one line. -/
def uploadGroupOf (env : Env) (store : Store) (upload : Upload) (lines : List ParsedLine) :
    ParsedLine → Option Nat :=
  groupOfLine upload.fallbackGroupSlug (uploadGroups env store upload lines).2

/-- The new rows. -/
def uploadScan (env : Env) (store : Store) (upload : Upload) (lines : List ParsedLine) : EventScan :=
  createEvents store.events (uploadGroupOf env store upload lines) store.nextEventId
    store.nextFileId lines

/-- The new file. -/
def uploadFile (env : Env) (store : Store) (upload : Upload) (rawText : Str)
    (lines : List ParsedLine) : AuditFile :=
  newFile env store.nextFileId upload rawText lines (uploadScan env store upload lines)

/-- An upload was stored: everything its transaction did. -/
structure StoredUpload (env : Env) (store : Store) (upload : Upload) (rawText : Str)
    (lines : List ParsedLine) (next : Store) : Prop where
  valid : validateUpload env upload.dumpBytes = .ok (rawText, lines)
  unseen : ∀ file ∈ store.files, file.fileSha256 ≠ env.sha256 upload.dumpBytes
  projected : rebuildFileProjections (store.events ++ (uploadScan env store upload lines).events)
    store.projections (uploadFile env store upload rawText lines) = some next.projections
  groups : next.groups = refreshGroupRollups (uploadGroups env store upload lines).1.groups
    (store.events ++ (uploadScan env store upload lines).events)
    (uploadScan env store upload lines).groupIds
  files : next.files = store.files ++ [uploadFile env store upload rawText lines]
  events : next.events = store.events ++ (uploadScan env store upload lines).events
  rejections : next.rejections = store.rejections
  nextGroupId : next.nextGroupId = (uploadGroups env store upload lines).1.nextGroupId
  nextFileId : next.nextFileId = store.nextFileId + 1
  nextEventId : next.nextEventId =
    store.nextEventId + (uploadScan env store upload lines).events.length

/-- What one upload can do to the store: nothing but a refusal row, nothing because the same hash is
stored, or the whole transaction. -/
theorem ingest_cases (env : Env) (store : Store) (upload : Upload) :
    (∃ rejected, ingest env store upload = (.refused rejected, store.recordRejection upload rejected)) ∨
      (∃ file ∈ store.files, ∃ rawText lines,
        validateUpload env upload.dumpBytes = .ok (rawText, lines) ∧
          file.fileSha256 = env.sha256 upload.dumpBytes ∧
          ingest env store upload = (.stored file.id false, store)) ∨
      ∃ rawText lines next, StoredUpload env store upload rawText lines next ∧
        ingest env store upload = (.stored store.nextFileId true, next) := by
  unfold ingest
  cases valid : validateUpload env upload.dumpBytes with
  | error rejected => exact .inl ⟨rejected, rfl⟩
  | ok accepted =>
      obtain ⟨rawText, lines⟩ := accepted
      simp only
      cases seen : store.files.find? (·.fileSha256 = env.sha256 upload.dumpBytes) with
      | some existing =>
          refine .inr (.inl ⟨existing, List.mem_of_find?_eq_some seen, rawText, lines, rfl, ?_, rfl⟩)
          simpa using List.find?_some seen
      | none =>
          cases stored : storeUpload env store upload rawText lines with
          | none => exact .inl ⟨_, rfl⟩
          | some next =>
              refine .inr (.inr ⟨rawText, lines, next, ?_, rfl⟩)
              unfold storeUpload at stored
              obtain ⟨projections, projected, rfl⟩ := Option.map_eq_some_iff.mp stored
              exact
                { valid := valid
                  unseen := by simpa using seen
                  projected := projected
                  groups := rfl
                  files := rfl
                  events := rfl
                  rejections := rfl
                  nextGroupId := rfl
                  nextFileId := rfl
                  nextEventId := rfl }

/-- The same, about the store alone. -/
theorem afterUpload_cases (env : Env) (store : Store) (upload : Upload) :
    (∃ rejected, afterUpload env store upload = store.recordRejection upload rejected) ∨
      afterUpload env store upload = store ∨
      ∃ rawText lines,
        StoredUpload env store upload rawText lines (afterUpload env store upload) := by
  rcases ingest_cases env store upload with ⟨rejected, same⟩ | ⟨file, -, -, -, -, -, same⟩ |
    ⟨rawText, lines, next, stored, same⟩
  · exact .inl ⟨rejected, by rw [afterUpload, same]⟩
  · exact .inr (.inl (by rw [afterUpload, same]))
  · refine .inr (.inr ⟨rawText, lines, ?_⟩)
    rw [afterUpload, same]
    exact stored

namespace StoredUpload

variable {env : Env} {store next : Store} {upload : Upload} {rawText : Str}
  {lines : List ParsedLine}

theorem parsed (stored : StoredUpload env store upload rawText lines next) :
    parseJsonl env rawText = some lines :=
  (validateUpload_eq_ok_iff.mp stored.valid).2.2.1

theorem accepted (stored : StoredUpload env store upload rawText lines next) :
    ∀ line ∈ lines, AcceptedLine line :=
  acceptedLines stored.parsed (validateUpload_eq_ok_iff.mp stored.valid).2.2.2.2.1

theorem created (stored : StoredUpload env store upload rawText lines next) :
    CreatedEvents (existingDuplicateEvents store.events lines) (uploadGroupOf env store upload lines)
      store.nextEventId store.nextFileId lines (uploadScan env store upload lines) :=
  createEvents_spec stored.accepted

/-- The transaction determines the state it ends in. -/
theorem storeUpload_eq (stored : StoredUpload env store upload rawText lines next) :
    storeUpload env store upload rawText lines = some next := by
  obtain ⟨-, -, projected, groups, files, events, rejections, groupSeq, fileSeq, eventSeq⟩ := stored
  rw [storeUpload]
  apply Option.map_eq_some_iff.mpr
  refine ⟨next.projections, projected, ?_⟩
  cases next
  simp only at groups files events rejections groupSeq fileSeq eventSeq
  rw [groups, files, events, rejections, groupSeq, fileSeq, eventSeq]
  rfl

theorem afterUpload_eq (stored : StoredUpload env store upload rawText lines next) :
    afterUpload env store upload = next := by
  have unseen : store.files.find? (·.fileSha256 = env.sha256 upload.dumpBytes) = none := by
    apply List.find?_eq_none.mpr
    intro file member same
    exact stored.unseen file member (of_decide_eq_true same)
  rw [afterUpload, ingest, stored.valid]
  simp only [unseen, stored.storeUpload_eq]

end StoredUpload

/-- The lines of an upload, when it is accepted. -/
def validatedLines (env : Env) (upload : Upload) : List ParsedLine :=
  match validateUpload env upload.dumpBytes with
  | .ok (_, lines) => lines
  | .error _ => []

theorem StoredUpload.lines_eq {env : Env} {store next : Store} {upload : Upload} {rawText : Str}
    {lines : List ParsedLine} (stored : StoredUpload env store upload rawText lines next) :
    lines = validatedLines env upload := by
  rw [validatedLines, stored.valid]

/-! ### Files and their lines -/

/-- The lines of a stored file, parsed from its body. -/
def fileLines (env : Env) (file : AuditFile) : List ParsedLine :=
  (parseJsonl env file.rawText).getD []

theorem StoredUpload.fileLines_uploadFile {env : Env} {store next : Store} {upload : Upload}
    {rawText : Str} {lines : List ParsedLine}
    (stored : StoredUpload env store upload rawText lines next) :
    fileLines env (uploadFile env store upload rawText lines) = lines := by
  simp only [fileLines, uploadFile, newFile, stored.parsed, Option.getD_some]

/-! ### Well-formedness -/

/-- What holds of the evidence tables in every state. -/
structure WellFormed (store : Store) : Prop where
  pairs : (store.events.map AuditEvent.pair).Nodup
  eventIds : (store.events.map (·.id)).Nodup
  eventIdBound : ∀ event ∈ store.events, event.id < store.nextEventId
  fileIds : (store.files.map (·.id)).Nodup
  fileIdBound : ∀ file ∈ store.files, file.id < store.nextFileId
  hashes : (store.files.map (·.fileSha256)).Nodup
  owned : ∀ event ∈ store.events, ∃ file ∈ store.files, file.id = event.auditFileId
  sound : ∀ event ∈ store.events, SoundEvent event

namespace WellFormed

theorem empty : WellFormed .empty := by
  constructor <;> simp [Store.empty]

theorem recordRejection {store : Store} (formed : WellFormed store) (upload : Upload)
    (rejected : UploadRejected) : WellFormed (store.recordRejection upload rejected) :=
  ⟨formed.pairs, formed.eventIds, formed.eventIdBound, formed.fileIds, formed.fileIdBound,
    formed.hashes, formed.owned, formed.sound⟩

end WellFormed

/-- One more file with its events, under ids no row has. -/
structure FileAdded (store : Store) (file : AuditFile) (new : List AuditEvent) (next : Store) :
    Prop where
  files : next.files = store.files ++ [file]
  events : next.events = store.events ++ new
  pairs : ((store.events ++ new).map AuditEvent.pair).Nodup
  ids : (new.map (·.id)).Nodup
  idFresh : ∀ event ∈ new, ∀ old ∈ store.events, old.id ≠ event.id
  idBound : ∀ event ∈ new, event.id < next.nextEventId
  eventSequence : store.nextEventId ≤ next.nextEventId
  fileFresh : ∀ old ∈ store.files, old.id ≠ file.id
  fileBound : file.id < next.nextFileId
  fileSequence : store.nextFileId ≤ next.nextFileId
  unseen : ∀ old ∈ store.files, old.fileSha256 ≠ file.fileSha256
  owned : ∀ event ∈ new, event.auditFileId = file.id
  sound : ∀ event ∈ new, SoundEvent event

/-- Values of rows stay distinct when those of the new rows are new. -/
theorem nodup_map_append {ρ α : Type*} {value : ρ → α} {old new : List ρ}
    (oldOnce : (old.map value).Nodup) (newOnce : (new.map value).Nodup)
    (fresh : ∀ row ∈ new, ∀ other ∈ old, value other ≠ value row) :
    ((old ++ new).map value).Nodup := by
  rw [List.map_append]
  refine List.nodup_append.mpr ⟨oldOnce, newOnce, ?_⟩
  intro left leftMember right rightMember
  obtain ⟨other, otherMember, rfl⟩ := List.mem_map.mp leftMember
  obtain ⟨row, rowMember, rfl⟩ := List.mem_map.mp rightMember
  exact fresh row rowMember other otherMember

namespace WellFormed

variable {env : Env} {store next : Store} {upload : Upload} {rawText : Str}
  {lines : List ParsedLine}

theorem added (formed : WellFormed store) {file : AuditFile} {new : List AuditEvent}
    (added : FileAdded store file new next) : WellFormed next where
  pairs := added.events ▸ added.pairs
  eventIds := by
    rw [added.events]
    exact nodup_map_append formed.eventIds added.ids added.idFresh
  eventIdBound := fun event member => by
    rw [added.events] at member
    rcases List.mem_append.mp member with old | new
    · exact (formed.eventIdBound event old).trans_le added.eventSequence
    · exact added.idBound event new
  fileIds := by
    rw [added.files]
    refine nodup_map_append formed.fileIds (List.nodup_singleton _) fun row member other known => ?_
    exact List.mem_singleton.mp member ▸ added.fileFresh other known
  fileIdBound := fun file member => by
    rw [added.files] at member
    rcases List.mem_append.mp member with old | new
    · exact (formed.fileIdBound file old).trans_le added.fileSequence
    · exact List.mem_singleton.mp new ▸ added.fileBound
  hashes := by
    rw [added.files]
    refine nodup_map_append formed.hashes (List.nodup_singleton _) fun row member other known => ?_
    exact List.mem_singleton.mp member ▸ added.unseen other known
  owned := fun event member => by
    rw [added.events] at member
    rw [added.files]
    rcases List.mem_append.mp member with old | new
    · obtain ⟨file, fileMember, same⟩ := formed.owned event old
      exact ⟨file, List.mem_append_left _ fileMember, same⟩
    · exact ⟨file, List.mem_append_right _ (List.mem_singleton.mpr rfl),
        (added.owned event new).symm⟩
  sound := fun event member => by
    rw [added.events] at member
    rcases List.mem_append.mp member with old | new
    · exact formed.sound event old
    · exact added.sound event new

/-- The rows of a stored upload are new. -/
theorem fileAdded (formed : WellFormed store)
    (stored : StoredUpload env store upload rawText lines next) :
    FileAdded store (uploadFile env store upload rawText lines)
      (uploadScan env store upload lines).events next where
  files := stored.files
  events := stored.events
  pairs := stored.created.pairs_nodup stored.accepted formed.pairs
  ids := stored.created.ids_nodup
  idFresh := fun event member old known => by
    have below := formed.eventIdBound old known
    have above := stored.created.id_mem_range member
    omega
  idBound := fun event member => by
    rw [stored.nextEventId]
    exact (stored.created.id_mem_range member).2
  eventSequence := by
    rw [stored.nextEventId]
    exact Nat.le_add_right _ _
  fileFresh := fun old known => Nat.ne_of_lt (formed.fileIdBound old known)
  fileBound := by
    rw [stored.nextFileId]
    exact Nat.lt_succ_self _
  fileSequence := by
    rw [stored.nextFileId]
    exact Nat.le_succ _
  unseen := stored.unseen
  owned := fun _ member => stored.created.auditFileId_eq member
  sound := fun _ member => stored.created.sound stored.accepted member

theorem storedUpload (formed : WellFormed store)
    (stored : StoredUpload env store upload rawText lines next) : WellFormed next :=
  formed.added (formed.fileAdded stored)

/-- Every upload keeps the store well formed. -/
theorem afterUpload (formed : WellFormed store) (env : Env) (upload : Upload) :
    WellFormed (afterUpload env store upload) := by
  rcases afterUpload_cases env store upload with ⟨rejected, same⟩ | same | ⟨rawText, lines, stored⟩
  · rw [same]
    exact formed.recordRejection upload rejected
  · rw [same]
    exact formed
  · exact formed.storedUpload stored

end WellFormed

/-! ### Uploads written out -/

/-- A record in the wire format.  `context` is blank or a member with its comma. -/
def recordText (engineId groupRef : Str) (wallTimeMs : Nat) (context kind : Str) : Str :=
  lit "\x7b\"schema_version\":\"marmot-" ++ lit "forensics-audit/v4\",\"seq\":0," ++
    lit "\"wall_time_ms\":" ++ natText wallTimeMs ++ lit ",\"engine_id\":\"" ++ engineId ++
    lit "\",\"group_ref\":\"" ++ groupRef ++ lit "\"," ++ context ++ lit "\"kind\":" ++ kind ++
    lit "\x7d"

/-- Records joined by line feeds. -/
def bodyText : List Str → Str
  | [] => []
  | [record] => record
  | record :: rest => record ++ [0x0a] ++ bodyText rest

/-- An upload of the given records. -/
def uploadOf (records : List Str) (receivedAt : Nat := 0) : Upload :=
  { dumpBytes := encodeUtf8 (bodyText records), receivedAt := receivedAt }

/-- An environment that knows the SHA-256 digests of the listed texts.  `slugify` lower-cases, which
is what it does to hexadecimal references. -/
def digestEnv (digests : List (Str × Str)) : Env :=
  { sha256 := fun data =>
      ((digests.find? fun entry => encodeUtf8 entry.1 = data).map Prod.snd).getD []
    slugify := fun text => text.map asciiLower
    title := id }

/-- A record of a send, by an engine. -/
def sendRecord (engineId : Str) (wallTimeMs : Nat) : Str :=
  recordText engineId (lit "ab") wallTimeMs []
    (lit "\x7b\"type\":\"send_entry\",\"intent_kind\":\"app\"\x7d")

/-- A record of the outcome an engine reached for a message, whose id repeats one digit. -/
def outcomeRecord (engineId : Str) (wallTimeMs : Nat) (context : Str) (digit : Char) : Str :=
  recordText engineId (lit "ab") wallTimeMs context
    (lit "\x7b\"type\":\"ingest_outcome\",\"msg_id\":\"" ++ List.replicate 64 digit.toNat ++
      lit "\",\"outcome_kind\":\"ok\"\x7d")

/-- Knows the log of the engine `e` with records at 100 and 200, line by line and body by body. -/
def sendEnv : Env :=
  let first := sendRecord (lit "e") 100
  let second := sendRecord (lit "e") 200
  digestEnv
    [(first, lit "f498d216f252f53cf1579508a6ce79db" ++ lit "76102657c87ebb2a48d8335717c0d20b"),
      (second, lit "d3bdc75c25cda7783bfbfe7c387d3784" ++ lit "757f6fdf797d434471691f2dbccf2561"),
      (bodyText [first, second],
        lit "64b9f0698365e1af8ad06f28712aa304" ++ lit "8015287a096bff8c298d20b27b4605bd")]

/-- The log of the engine `e` up to the record at 100. -/
def shortLog (receivedAt : Nat) : Upload := uploadOf [sendRecord (lit "e") 100] receivedAt

/-- The log of the engine `e` up to the record at 200. -/
def longLog (receivedAt : Nat) : Upload :=
  uploadOf [sendRecord (lit "e") 100, sendRecord (lit "e") 200] receivedAt

end Goggles
