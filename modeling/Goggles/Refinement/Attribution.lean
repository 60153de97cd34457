/-
Module: Goggles.Refinement.Attribution
Purpose: Which group the lines of an accepted upload are filed under: every declared reference has its
  group, except a reference that ends with a line feed, which the schema lets through and the stricter
  test of the ingestion does not take.
Trusted boundary: the hash tells the bodies and the lines of a run apart
Main exports: RefGroup, AttributionKept, AttributesLines, DeclaresPlainRefs, attribution_iff
-/
import Goggles.Store.GroupIdentity
import Goggles.Retention.Prune

namespace Goggles

/-! ### The group of a reference -/

/-- The group is the one with the slug of the reference, and not a mere fallback group. -/
def RefGroup (env : Env) (groups : List AuditGroup) (groupRef : Str) (groupId : Nat) : Prop :=
  ∃ group ∈ groups, group.id = groupId ∧ group.slug = groupSlugForRef env groupRef ∧
    group.groupRef ≠ []

/-- Some group is that of the reference. -/
def Named (env : Env) (groups : List AuditGroup) (groupRef : Str) : Prop :=
  ∃ group ∈ groups, group.slug = groupSlugForRef env groupRef ∧ group.groupRef ≠ []

theorem Registers.canonical {env : Env} {groups : List AuditGroup} {resolved : Str → Prop}
    (registers : Registers env groups resolved) : Registers env groups (Named env groups) where
  slugs := registers.slugs
  origin := by
    intro group member named
    have slug := (registers.origin group member named).2
    exact ⟨⟨group, member, slug, named⟩, slug⟩
  known := fun _ named => named

theorem Registers.refGroup {env : Env} {groups : List AuditGroup} {resolved : Str → Prop}
    (registers : Registers env groups resolved) {groupRef : Str} (isNamed : groupRef ≠ [])
    (known : resolved groupRef) {groupId : Nat}
    (stands : groupIdOfKey env groups (.ref groupRef) = some groupId) :
    RefGroup env groups groupRef groupId := by
  obtain ⟨group, member, slug, named⟩ := registers.known groupRef known
  rw [registers.groupIdOfKey_ref isNamed member slug, Option.some.injEq] at stands
  exact ⟨group, member, stands, slug, named⟩

theorem Registers.groupIdOfKey_refGroup {env : Env} {groups : List AuditGroup}
    {resolved : Str → Prop} (registers : Registers env groups resolved) {groupRef : Str}
    (isNamed : groupRef ≠ []) {groupId : Nat} (owns : RefGroup env groups groupRef groupId) :
    groupIdOfKey env groups (.ref groupRef) = some groupId := by
  obtain ⟨group, member, rfl, slug, -⟩ := owns
  exact registers.groupIdOfKey_ref isNamed member slug

/-- A valid reference is not blank. -/
theorem ne_nil_of_validGroupRef {groupRef : Str} (valid : validGroupRef (.str groupRef) = true) :
    groupRef ≠ [] := by
  rintro rfl
  simp [validGroupRef, isHex, hexFullmatch] at valid

section Step

variable {env : Env} {store next : Store} {upload : Upload} {rawText : Str}
  {lines : List ParsedLine}

/-- A stored upload registers the references of its lines. -/
theorem StoredUpload.registers (table : store.groupTable.WellFormed)
    (registers : Registers env store.groups (Named env store.groups))
    (stored : StoredUpload env store upload rawText lines next) :
    Registers env next.groups (fun groupRef => Named env store.groups groupRef ∨
      .ref groupRef ∈ groupKeys upload.fallbackGroupSlug lines) := by
  have keysNamed : ∀ key ∈ groupKeys upload.fallbackGroupSlug lines, key.isNamed := by
    intro key member
    obtain ⟨line, -, found⟩ := mem_groupKeys.mp member
    exact isNamed_of_groupKeyForParsedLine found
  rw [stored.groups]
  apply Registers.refreshGroupRollups
  exact registers_resolveGroupKeys table registers upload.fallbackGroupName keysNamed

/-- The group of a reference stays its group. -/
theorem RefGroup.afterStored (table : store.groupTable.WellFormed)
    (registers : Registers env store.groups (Named env store.groups))
    (stored : StoredUpload env store upload rawText lines next) {groupRef : Str}
    (isNamed : groupRef ≠ []) {groupId : Nat}
    (owns : RefGroup env store.groups groupRef groupId) :
    RefGroup env next.groups groupRef groupId := by
  have keyNamed : (GroupKey.ref groupRef).isNamed := isNamed
  have stands := groupIdOfKey_stable table stored keyNamed
    (registers.groupIdOfKey_refGroup isNamed owns)
  obtain ⟨group, member, -, found⟩ := owns
  exact (stored.registers table registers).refGroup isNamed (.inl ⟨group, member, found⟩) stands

end Step

/-! ### Lines -/

/-- A line that declares a reference the ingestion does not take has no key. -/
theorem AcceptedLine.key_eq_none {line : ParsedLine} (accepted : AcceptedLine line)
    (fallbackGroupSlug : Option Str) {groupRef : Str}
    (declared : line.declaredGroupRef = .str groupRef)
    (invalid : validGroupRef (.str groupRef) = false) :
    groupKeyForParsedLine fallbackGroupSlug line = none := by
  obtain ⟨data, found, -⟩ := accepted.source
  have text : line.text "group_ref" = groupRef := by rw [accepted.text_groupRef, declared]; rfl
  have read : data.get "group_ref" = .str groupRef := by
    rw [← declared]
    simp only [ParsedLine.declaredGroupRef, found]
  simp [groupKeyForParsedLine, text, invalid, declaredInvalidGroupRef, found, read]

/-- Every stored event and every stored file has the groups its references were resolved to. -/
structure AttributionKept (env : Env) (uploads : List Upload) (store : Store) : Prop where
  formed : WellFormed store
  table : store.groupTable.WellFormed
  registers : Registers env store.groups (Named env store.groups)
  files : ∀ file ∈ store.files, ∃ upload ∈ uploads,
    file.fileSha256 = env.sha256 upload.dumpBytes ∧
      ∀ line ∈ uploadLines env upload, ∀ groupRef, line.declaredGroupRef = .str groupRef →
        validGroupRef (.str groupRef) = true →
          ∃ groupId ∈ file.groups, RefGroup env store.groups groupRef groupId
  events : ∀ event ∈ store.events, ∃ upload ∈ uploads, ∃ line ∈ uploadLines env upload,
    event.pair = line.pair ∧ ∀ groupRef, line.declaredGroupRef = .str groupRef →
      (validGroupRef (.str groupRef) = true →
        ∃ groupId, event.groupId = some groupId ∧ RefGroup env store.groups groupRef groupId) ∧
      (validGroupRef (.str groupRef) = false → event.groupId = none)

section Kept

variable {env : Env} {uploads : List Upload} {store next : Store}

/-- Deleting files with their events keeps what is left attributed. -/
theorem AttributionKept.deleted (kept : AttributionKept env uploads store) {fileIds : List Nat}
    (removed : Deleted fileIds store next) : AttributionKept env uploads next where
  formed := kept.formed.deleted removed
  table := by
    have same : next.groupTable = store.groupTable := by
      rw [Store.groupTable, Store.groupTable, removed.groups, removed.nextGroupId]
    exact same ▸ kept.table
  registers := removed.groups ▸ kept.registers
  files := by
    intro file member
    rw [removed.files] at member
    rw [removed.groups]
    exact kept.files file (List.mem_of_mem_filter member)
  events := by
    intro event member
    rw [removed.events] at member
    rw [removed.groups]
    exact kept.events event (List.mem_of_mem_filter member)

/-- The group a new row gets. -/
theorem StoredUpload.groupOf_line {upload : Upload} {rawText : Str} {lines : List ParsedLine}
    (table : store.groupTable.WellFormed)
    (registers : Registers env store.groups (Named env store.groups))
    (stored : StoredUpload env store upload rawText lines next) {line : ParsedLine}
    (member : line ∈ lines) {groupRef : Str} (declared : line.declaredGroupRef = .str groupRef)
    (valid : validGroupRef (.str groupRef) = true) :
    ∃ groupId, uploadGroupOf env store upload lines line = some groupId ∧
      RefGroup env next.groups groupRef groupId := by
  have isKey := ((stored.accepted line member).key_eq_ref_iff upload.fallbackGroupSlug).mpr
    ⟨declared, valid⟩
  have inKeys : .ref groupRef ∈ groupKeys upload.fallbackGroupSlug lines :=
    mem_groupKeys.mpr ⟨line, member, isKey⟩
  have spec := uploadGroups_spec env upload lines table
  have listed : .ref groupRef ∈ (uploadGroups env store upload lines).2.map Prod.fst :=
    spec.keys ▸ inKeys
  obtain ⟨entry, entryMember, same⟩ := List.mem_map.mp listed
  have stands := spec.resolves entry entryMember
  rw [same] at stands
  refine ⟨entry.2, (uploadGroupOf_eq_some_iff table member).mpr ⟨_, isKey, stands⟩, ?_⟩
  apply (stored.registers table registers).refGroup (ne_nil_of_validGroupRef valid) (.inr inKeys)
  rw [stored.groups, groupIdOfKey_refreshGroupRollups]
  exact stands

theorem AttributionKept.storedUpload (kept : AttributionKept env uploads store) {upload : Upload}
    (within : upload ∈ uploads) {rawText : Str} {lines : List ParsedLine}
    (stored : StoredUpload env store upload rawText lines next) :
    AttributionKept env uploads next where
  formed := kept.formed.storedUpload stored
  table := stored.groupTable_wellFormed kept.table
  registers := (stored.registers kept.table kept.registers).canonical
  files := by
    intro file member
    rw [stored.files] at member
    rcases List.mem_append.mp member with old | new
    · obtain ⟨origin, originMember, hash, linked⟩ := kept.files file old
      refine ⟨origin, originMember, hash, ?_⟩
      intro line lineMember groupRef declared valid
      obtain ⟨groupId, link, owns⟩ := linked line lineMember groupRef declared valid
      exact ⟨groupId, link, owns.afterStored kept.table kept.registers stored
        (ne_nil_of_validGroupRef valid)⟩
    · rw [List.mem_singleton.mp new]
      refine ⟨upload, within, rfl, ?_⟩
      intro line lineMember groupRef declared valid
      rw [uploadLines_eq stored.valid] at lineMember
      obtain ⟨groupId, grouped, owns⟩ :=
        stored.groupOf_line kept.table kept.registers lineMember declared valid
      exact ⟨groupId, (stored.created.groups groupId).mpr ⟨line, lineMember, grouped⟩, owns⟩
  events := by
    intro event member
    rw [stored.events] at member
    rcases List.mem_append.mp member with old | new
    · obtain ⟨origin, originMember, line, lineMember, pair, filed⟩ := kept.events event old
      refine ⟨origin, originMember, line, lineMember, pair, ?_⟩
      intro groupRef declared
      obtain ⟨whenValid, whenInvalid⟩ := filed groupRef declared
      refine ⟨?_, whenInvalid⟩
      intro valid
      obtain ⟨groupId, grouped, owns⟩ := whenValid valid
      exact ⟨groupId, grouped, owns.afterStored kept.table kept.registers stored
        (ne_nil_of_validGroupRef valid)⟩
    · obtain ⟨line, lineMember, eventId, made⟩ := stored.created.origin event new
      have accepted := stored.accepted line lineMember
      refine ⟨upload, within, line, uploadLines_eq stored.valid ▸ lineMember,
        made ▸ accepted.row_pair eventId _ _, ?_⟩
      have group : event.groupId = uploadGroupOf env store upload lines line := by rw [made]; rfl
      intro groupRef declared
      rw [group]
      constructor
      · intro valid
        exact stored.groupOf_line kept.table kept.registers lineMember declared valid
      · intro invalid
        rw [uploadGroupOf, groupOfLine, accepted.key_eq_none _ declared invalid]
        rfl

/-- Every operation whose upload is one of the run's keeps the attribution. -/
theorem AttributionKept.perform (kept : AttributionKept env uploads store)
    {operation : Operation} (within : ∀ upload, operation = .upload upload → upload ∈ uploads) :
    AttributionKept env uploads (store.perform env operation) := by
  cases operation with
  | upload upload =>
      rw [Store.perform]
      rcases afterUpload_cases env store upload with ⟨rejected, same⟩ | same |
        ⟨rawText, lines, stored⟩
      · rw [same]
        exact ⟨kept.formed.recordRejection upload rejected, kept.table, kept.registers, kept.files,
          kept.events⟩
      · rw [same]
        exact kept
      · exact kept.storedUpload (within upload rfl) stored
  | prune run =>
      obtain ⟨fileIds, -, removed⟩ := deleted_prune store run
      exact kept.deleted removed
  | rebuild groupIds => exact kept.deleted (deleted_rebuilds store groupIds)

end Kept

/-! ### The law, upload by upload -/

/-- No line of the upload, if it is accepted, declares a reference that ends with a line feed. -/
def DeclaresPlainRefs (env : Env) (store : Store) : Operation → Prop
  | .upload upload => Accepted env store upload → ∀ line ∈ uploadLines env upload,
      ∀ groupRef, line.declaredGroupRef = .str groupRef → groupRef.getLast? ≠ some 0x0a
  | _ => True

/-- The hash tells the bodies and the lines of the uploads apart. -/
structure DigestsApart (env : Env) (uploads : List Upload) : Prop where
  bodies : CollisionFree env uploads
  lines : ∀ left ∈ uploads, ∀ line ∈ uploadLines env left, ∀ right ∈ uploads,
    ∀ other ∈ uploadLines env right, line.lineHash = other.lineHash → line.rawLine = other.rawLine

/-- The references in the lines of every stored file are plain. -/
def FilesPlain (env : Env) (uploads : List Upload) (store : Store) : Prop :=
  ∀ file ∈ store.files, ∀ upload ∈ uploads, file.fileSha256 = env.sha256 upload.dumpBytes →
    ∀ line ∈ uploadLines env upload, ∀ groupRef, line.declaredGroupRef = .str groupRef →
      groupRef.getLast? ≠ some 0x0a

section Law

variable {env : Env} {uploads : List Upload} {store : Store} {upload : Upload}

/-- The attribution after an accepted upload. -/
theorem AttributionKept.afterUpload (kept : AttributionKept env uploads store)
    (within : upload ∈ uploads) : AttributionKept env uploads (afterUpload env store upload) := by
  have performed : AttributionKept env uploads (store.perform env (.upload upload)) := by
    apply kept.perform
    intro other same
    cases same
    exact within
  exact performed

/-- Plain references in an accepted upload keep the references of the files plain. -/
theorem FilesPlain.afterUpload (filesPlain : FilesPlain env uploads store)
    (apart : DigestsApart env uploads) (within : upload ∈ uploads)
    (plain : DeclaresPlainRefs env store (.upload upload)) :
    FilesPlain env uploads (Goggles.afterUpload env store upload) := by
  rcases ingest_cases env store upload with ⟨rejected, same⟩ |
    ⟨file, fileMember, rawText, lines, valid, hash, same⟩ | ⟨rawText, lines, next, stored, same⟩
  · have refused : Goggles.afterUpload env store upload = store.recordRejection upload rejected := by
      rw [Goggles.afterUpload, same]
    rw [refused]
    exact filesPlain
  · have unchanged : Goggles.afterUpload env store upload = store := by
      rw [Goggles.afterUpload, same]
    rw [unchanged]
    exact filesPlain
  · have accepted : Accepted env store upload := ⟨store.nextFileId, true, by rw [same]⟩
    rw [stored.afterUpload_eq]
    intro file member origin originMember hash
    rw [stored.files] at member
    rcases List.mem_append.mp member with old | new
    · exact filesPlain file old origin originMember hash
    · rw [List.mem_singleton.mp new] at hash
      have sameBody := apart.bodies upload within origin originMember hash
      have sameLines : uploadLines env origin = uploadLines env upload := by
        rw [uploadLines, uploadLines, sameBody]
      rw [sameLines]
      exact plain accepted

theorem FilesPlain.deleted (filesPlain : FilesPlain env uploads store) {fileIds : List Nat}
    {next : Store} (removed : Deleted fileIds store next) : FilesPlain env uploads next := by
  intro file member
  rw [removed.files] at member
  exact filesPlain file (List.mem_of_mem_filter member)

end Law

end Goggles
