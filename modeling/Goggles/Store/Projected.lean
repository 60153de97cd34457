/-
Module: Goggles.Store.Projected
Purpose: What storing a file does to the projection rows of each group.
Trusted boundary: none beyond the modules it imports
Main exports: Store.groupEvents, uploadGroupEvents, GroupExtended, FileAppended,
  FileAppended.projected_group, StoredUpload.projected_group
-/
import Goggles.Store.Upload
import Goggles.Projection.Incremental

namespace Goggles

/-- The valid events stored for a group. -/
def Store.groupEvents (store : Store) (groupId : Nat) : List AuditEvent :=
  validGroupEvents store.events groupId

/-- The events an upload stores for a group. -/
def uploadGroupEvents (env : Env) (store : Store) (upload : Upload) (lines : List ParsedLine)
    (groupId : Nat) : List AuditEvent :=
  validGroupEvents (uploadScan env store upload lines).events groupId

/-- Events with distinct ids have distinct places in the order. -/
theorem eventOrderKey_distinguishes {events : List AuditEvent} (ids : (events.map (·.id)).Nodup) :
    Distinguishes eventOrderKey events := by
  intro left leftMember right rightMember same
  have sameId : left.id = right.id := congrArg (fun key => (ofLex key).2) same
  exact List.inj_on_of_nodup_map ids leftMember rightMember sameId

theorem WellFormed.distinguishes {store : Store} (formed : WellFormed store) (groupId : Nat) :
    Distinguishes eventOrderKey (store.groupEvents groupId) :=
  (eventOrderKey_distinguishes formed.eventIds).subset (List.filter_subset_self _)

/-- Accepted lines carry the schema version. -/
theorem AcceptedLine.version {parsed : ParsedLine} (accepted : AcceptedLine parsed) :
    parsed.text "schema_version" = SCHEMA_VERSION := by
  obtain ⟨data, -, clean, normalized⟩ := accepted.source
  obtain ⟨kind, kindType, variant, classified, fits⟩ := classified_of_clean clean
  have read : (normalizeEvent data).normalized.get "schema_version" =
      (fittedEnvelope data).get "schema_version" :=
    normalizeEvent_get_envelope classified fits (by decide)
  have fitted : (fittedEnvelope data).get "schema_version" = .str SCHEMA_VERSION := by
    rw [fittedEnvelope, classified.version]
    rfl
  rw [ParsedLine.text, normalized, read, fitted]
  rfl

/-- A group's rows after its new events were projected in order onto the rows before. -/
structure GroupExtended (stored : List AuditEvent) (new : List AuditEvent)
    (before after : GroupProjections) : Prop where
  replayed : ∃ final, replay projectEvent ⟨before, openRuns stored before.convergence.runs new⟩
    (inOrder eventOrderKey new) = some final ∧ after = final.projections

/-- A file's events stored behind the others, and projected. -/
structure FileAppended (store : Store) (file : AuditFile) (new : List AuditEvent) (next : Store) :
    Prop where
  events : next.events = store.events ++ new
  eventIds : (next.events.map (·.id)).Nodup
  owned : ∀ event ∈ new, event.auditFileId = file.id
  unowned : ∀ event ∈ store.events, event.auditFileId ≠ file.id
  version : file.metadata.schemaVersions.contains SCHEMA_VERSION = true
  projected : rebuildFileProjections next.events store.projections file = some next.projections

theorem FileAdded.appended {store next : Store} {file : AuditFile} {new : List AuditEvent}
    (formed : WellFormed store) (added : FileAdded store file new next)
    (version : file.metadata.schemaVersions.contains SCHEMA_VERSION = true)
    (projected : rebuildFileProjections next.events store.projections file =
      some next.projections) : FileAppended store file new next where
  events := added.events
  eventIds := (formed.added added).eventIds
  owned := added.owned
  unowned := fun event member same => by
    obtain ⟨file, fileMember, owner⟩ := formed.owned event member
    exact added.fileFresh file fileMember (owner.trans same)
  version := version
  projected := projected

namespace FileAppended

variable {store next : Store} {file : AuditFile} {new : List AuditEvent}

theorem groupEvents_next (appended : FileAppended store file new next) (groupId : Nat) :
    next.groupEvents groupId = store.groupEvents groupId ++ validGroupEvents new groupId := by
  rw [Store.groupEvents, appended.events, validGroupEvents, List.filter_append]
  rfl

theorem otherEvents_next (appended : FileAppended store file new next) (groupId : Nat) :
    otherEvents next.events file.id groupId = store.groupEvents groupId := by
  have older : next.events.filter (·.auditFileId != file.id) = store.events := by
    rw [appended.events, List.filter_append]
    have kept : store.events.filter (·.auditFileId != file.id) = store.events := by
      apply List.filter_eq_self.mpr
      intro event member
      simpa using appended.unowned event member
    have dropped : new.filter (·.auditFileId != file.id) = [] := by
      apply List.filter_eq_nil_iff.mpr
      intro event member
      simp [appended.owned event member]
    rw [kept, dropped, List.append_nil]
  rw [otherEvents, older]
  rfl

theorem ownEvents_next (appended : FileAppended store file new next) (groupId : Nat) :
    ownEvents next.events file.id groupId = validGroupEvents new groupId := by
  have newer : next.events.filter (·.auditFileId == file.id) = new := by
    rw [appended.events, List.filter_append]
    have dropped : store.events.filter (·.auditFileId == file.id) = [] := by
      apply List.filter_eq_nil_iff.mpr
      intro event member
      simpa using appended.unowned event member
    have kept : new.filter (·.auditFileId == file.id) = new := by
      apply List.filter_eq_self.mpr
      intro event member
      simp [appended.owned event member]
    rw [kept, dropped, List.nil_append]
  rw [ownEvents, newer]

/-- A group is rebuilt or extended with its new events. -/
theorem projected_group (appended : FileAppended store file new next) (groupId : Nat) :
    (NeedsBackfill (store.groupEvents groupId) (validGroupEvents new groupId) ∧
        rebuildGroup next.events groupId = some (next.projections groupId)) ∨
      (¬ NeedsBackfill (store.groupEvents groupId) (validGroupEvents new groupId) ∧
        GroupExtended next.events (validGroupEvents new groupId)
          (store.projections groupId) (next.projections groupId)) := by
  have projected := appended.projected
  rw [rebuildFileProjections, appended.version, Bool.not_true] at projected
  simp only [Bool.false_eq_true, if_false] at projected
  have distinct : Distinguishes eventOrderKey next.events :=
    eventOrderKey_distinguishes appended.eventIds
  have covers : ∀ event ∈ next.events, event.auditFileId = file.id → ∀ groupId,
      event.groupId = some groupId →
        groupId ∈ file.groups ∪ eventGroups next.events file.id := by
    intro event member owner groupId grouped
    apply List.mem_union_iff.mpr
    apply Or.inr
    simp only [eventGroups, List.mem_dedup, List.mem_filterMap, List.mem_filter, beq_iff_eq]
    exact ⟨event, ⟨member, owner⟩, grouped⟩
  rw [← appended.otherEvents_next, ← appended.ownEvents_next]
  split at projected
  · next noGroups =>
      -- without a group there is nothing to project
      have noOwn : ownEvents next.events file.id groupId = [] := by
        apply List.filter_eq_nil_iff.mpr
        intro event member counts
        obtain ⟨stays, owner⟩ := List.mem_filter.mp member
        have listed := covers event stays (beq_iff_eq.mp owner) groupId
          (AuditEvent.countsFor_iff.mp counts).1
        rw [noGroups] at listed
        cases listed
      have same : store.projections groupId = next.projections groupId :=
        congrFun (Option.some.inj projected) groupId
      have notNeeded : ¬ NeedsBackfill (otherEvents next.events file.id groupId)
          (ownEvents next.events file.id groupId) := by
        rintro ⟨-, -, fresh, member, -⟩
        rw [noOwn] at member
        cases member
      rw [noOwn] at notNeeded ⊢
      exact .inr ⟨notNeeded, ⟨⟨_, rfl, same.symm⟩⟩⟩
  · have spec := projectFileEvents_spec distinct covers projected groupId
    cases spec with
    | backfilled needed rebuilt => exact .inl ⟨needed, rebuilt⟩
    | extended notNeeded final replayed shown => exact .inr ⟨notNeeded, ⟨final, replayed, shown⟩⟩

end FileAppended

/-- A file whose lines were accepted carries the schema version. -/
theorem schemaVersions_newFile {lines : List ParsedLine} (accepted : ∀ line ∈ lines, AcceptedLine line)
    (nonEmpty : lines ≠ []) (env : Env) (fileId : Nat) (upload : Upload) (rawText : Str)
    (scan : EventScan) :
    (newFile env fileId upload rawText lines scan).metadata.schemaVersions.contains
      SCHEMA_VERSION = true := by
  obtain ⟨line, member⟩ := List.exists_mem_of_ne_nil lines nonEmpty
  rw [List.contains_iff_mem]
  apply mem_inOrder.mpr
  rw [List.mem_dedup, List.mem_filter]
  refine ⟨List.mem_map.mpr ⟨line, member, (accepted line member).version⟩, ?_⟩
  decide

namespace StoredUpload

variable {env : Env} {store next : Store} {upload : Upload} {rawText : Str}
  {lines : List ParsedLine}

theorem groupEvents_next (stored : StoredUpload env store upload rawText lines next)
    (groupId : Nat) :
    next.groupEvents groupId =
      store.groupEvents groupId ++ uploadGroupEvents env store upload lines groupId := by
  rw [Store.groupEvents, stored.events, validGroupEvents, List.filter_append]
  rfl

/-- A stored upload is one file appended. -/
theorem appended (formed : WellFormed store)
    (stored : StoredUpload env store upload rawText lines next) :
    FileAppended store (uploadFile env store upload rawText lines)
      (uploadScan env store upload lines).events next := by
  apply (formed.fileAdded stored).appended formed
  · exact schemaVersions_newFile stored.accepted
      (validateUpload_eq_ok_iff.mp stored.valid).2.2.2.1 _ _ _ _ _
  · exact stored.events ▸ stored.projected

/-- A stored upload either rebuilds a group or extends it with its new events. -/
theorem projected_group (formed : WellFormed store)
    (stored : StoredUpload env store upload rawText lines next) (groupId : Nat) :
    (NeedsBackfill (store.groupEvents groupId) (uploadGroupEvents env store upload lines groupId) ∧
        rebuildGroup next.events groupId = some (next.projections groupId)) ∨
      (¬ NeedsBackfill (store.groupEvents groupId)
          (uploadGroupEvents env store upload lines groupId) ∧
        GroupExtended next.events (uploadGroupEvents env store upload lines groupId)
          (store.projections groupId) (next.projections groupId)) :=
  (stored.appended formed).projected_group groupId

end StoredUpload

end Goggles
