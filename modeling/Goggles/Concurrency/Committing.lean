/-
Module: Goggles.Concurrency.Committing
Purpose: How a transaction ends: the rows it commits are those of an atomic upload on the rows
  committed before it, however many other transactions ended while it ran, and nothing but rows it
  held changed; or it leaves no row of its own.
Trusted boundary: none beyond the modules it imports
Main exports: Committing, Committing.committed, Committing.within, Ends, next_ends
-/
import Goggles.Concurrency.Statements

namespace Goggles

variable {env : Env} {isFree : Resource → Bool} {store later : Store} {ingestion : Ingestion}
  {done : List Upload}

/-! ### The group table at the commit -/

section GroupTable

theorem named_of_mem_groupKeys {fallbackGroupSlug : Option Str} {lines : List ParsedLine}
    {key : GroupKey} (listed : key ∈ groupKeys fallbackGroupSlug lines) : key.isNamed := by
  obtain ⟨line, -, found⟩ := mem_groupKeys.mp listed
  exact isNamed_of_groupKeyForParsedLine found

/-- A row that had a reference, or was given one, shows one. -/
theorem GroupsHeld.named (groups : GroupsHeld env store ingestion) {group : AuditGroup}
    (given : group.groupRef ≠ [] ∨ group.id ∈ ingestion.adoptedRefs.map Prod.fst) :
    (adoptAll ingestion.adoptedRefs group).groupRef ≠ [] := by
  obtain ⟨groupRef, same, origin, adopted⟩ := adoptAll_eq ingestion.adoptedRefs group
  have ofEntry : ∀ entry ∈ ingestion.adoptedRefs, entry.2 ≠ [] := fun entry member =>
    named_of_mem_groupKeys (groups.keys _ (groups.adopted entry member))
  rw [same]
  rcases given with had | wasGiven
  · rcases origin with kept | listed
    · exact kept ▸ had
    · exact ofEntry _ listed
  · exact ofEntry _ (adopted wasGiven)

theorem Ingestion.mem_groupRows {committed : List AuditGroup} {group : AuditGroup}
    (member : group ∈ committed ++ ingestion.createdGroups) :
    adoptAll ingestion.adoptedRefs group ∈ ingestion.groupRows committed := by
  rw [Ingestion.groupRows_eq]
  exact List.mem_map_of_mem member

theorem Ingestion.map_id_groupRows (ingestion : Ingestion) (committed : List AuditGroup) :
    (ingestion.groupRows committed).map (·.id) =
      (committed ++ ingestion.createdGroups).map (·.id) := by
  rw [Ingestion.groupRows_eq, List.map_map]
  exact List.map_congr_left fun group _ => id_adoptAll _ group

theorem Ingestion.map_slug_groupRows (ingestion : Ingestion) (committed : List AuditGroup) :
    (ingestion.groupRows committed).map (·.slug) =
      (committed ++ ingestion.createdGroups).map (·.slug) := by
  rw [Ingestion.groupRows_eq, List.map_map]
  exact List.map_congr_left fun group _ => slug_adoptAll _ group

/-- The references of the group rows are those before, and those of the upload. -/
theorem GroupsHeld.registers (groups : GroupsHeld env store ingestion)
    (table : store.groupTable.WellFormed) (resolved : ingestion.KeysResolved)
    {known : Str → Prop} (registers : Registers env store.groups known) :
    Registers env (ingestion.groupRows store.groups) fun groupRef =>
      known groupRef ∨ .ref groupRef ∈ groupKeys ingestion.upload.fallbackGroupSlug ingestion.lines where
  slugs := by
    rw [Ingestion.map_slug_groupRows]
    exact nodup_map_append registers.slugs groups.createdSlugs fun group member old stored =>
      (groups.createdFresh group member old stored).2
  origin := fun row member named => by
    obtain ⟨group, base, rfl⟩ := Ingestion.exists_base member
    refine ⟨?_, ?_⟩
    · obtain ⟨groupRef, same, origin, -⟩ := adoptAll_eq ingestion.adoptedRefs group
      rw [same] at named ⊢
      rcases origin with rfl | listed
      · rcases List.mem_append.mp base with committed | created
        · exact .inl (registers.origin group committed named).1
        · exact .inr (resolved ▸ ((groups.createdOrigin group created).2 named).2)
      · exact .inr (groups.keys _ (groups.adopted _ listed))
    · rw [slug_adoptAll]
      exact groups.slug_of_ref table registers base named
  known := fun groupRef before => by
    rcases before with before | listed
    · obtain ⟨group, member, slug, named⟩ := registers.known groupRef before
      exact ⟨_, Ingestion.mem_groupRows (List.mem_append_left _ member),
        (slug_adoptAll _ group).trans slug, groups.named (.inl named)⟩
    · rw [← resolved] at listed
      obtain ⟨⟨key, groupId⟩, entry, rfl⟩ := List.mem_map.mp listed
      obtain ⟨group, member, -, slug, given⟩ := groups.resolved _ entry
      exact ⟨_, Ingestion.mem_groupRows member, (slug_adoptAll _ group).trans slug,
        groups.named (given groupRef rfl)⟩

/-- The row under a key's slug is the one the key stands for. -/
theorem Registers.groupIdOfKey_slug {groups : List AuditGroup} {resolved : Str → Prop}
    (registers : Registers env groups resolved) {key : GroupKey} (named : key.isNamed)
    {group : AuditGroup} (member : group ∈ groups) (slug : group.slug = key.slugOf env) :
    groupIdOfKey env groups key = some group.id := by
  cases key with
  | ref value => exact registers.groupIdOfKey_ref named member slug
  | slug value =>
      cases found : groups.find? (·.slug = value) with
      | none =>
          have missed := List.find?_eq_none.mp found group member
          exact absurd (decide_eq_true slug) missed
      | some other =>
          have tested := List.find?_some found
          have otherSlug : other.slug = value := of_decide_eq_true tested
          have same := registers.eq_of_slug (List.mem_of_find?_eq_some found) member
            (otherSlug.trans slug.symm)
          simp [groupIdOfKey, found, same]

/-- A key that stood for a group before stands for it still. -/
theorem GroupsHeld.stable_key (groups : GroupsHeld env store ingestion)
    (table : store.groupTable.WellFormed) (resolved : ingestion.KeysResolved)
    {known : Str → Prop} (registers : Registers env store.groups known) {key : GroupKey}
    (named : key.isNamed) {groupId : Nat}
    (read : groupIdOfKey env store.groups key = some groupId) :
    groupIdOfKey env (ingestion.groupRows store.groups) key = some groupId := by
  obtain ⟨group, member, slug, rfl⟩ : ∃ group ∈ store.groups,
      group.slug = key.slugOf env ∧ group.id = groupId := by
    cases key with
    | slug value =>
        obtain ⟨group, found, same⟩ := Option.map_eq_some_iff.mp read
        have tested := List.find?_some found
        exact ⟨group, List.mem_of_find?_eq_some found, of_decide_eq_true tested, same⟩
    | ref value =>
        obtain ⟨group, found, same⟩ := Option.map_eq_some_iff.mp read
        rcases Option.or_eq_some_iff.mp found with byRef | ⟨-, bySlug⟩
        · have tested := List.find?_some byRef
          have sameRef : group.groupRef = value := of_decide_eq_true tested
          have member := List.mem_of_find?_eq_some byRef
          have origin := registers.origin group member (sameRef ▸ named)
          exact ⟨group, member, sameRef ▸ origin.2, same⟩
        · have tested := List.find?_some bySlug
          exact ⟨group, List.mem_of_find?_eq_some bySlug, of_decide_eq_true tested, same⟩
  have later := groups.registers table resolved registers
  have row := Ingestion.mem_groupRows (List.mem_append_left ingestion.createdGroups member)
  have found := later.groupIdOfKey_slug named row ((slug_adoptAll _ group).trans slug)
  rw [found, id_adoptAll]

/-- The keys of the upload are resolved in the group rows as it leaves them. -/
theorem GroupsHeld.resolvedAll (groups : GroupsHeld env store ingestion)
    (table : store.groupTable.WellFormed) (resolved : ingestion.KeysResolved)
    {known : Str → Prop} (registers : Registers env store.groups known) :
    ResolvedAll env store.groupTable
      (groupKeys ingestion.upload.fallbackGroupSlug ingestion.lines)
      (⟨ingestion.groupRows store.groups, store.nextGroupId⟩, ingestion.groupsByKey) where
  formed := by
    refine ⟨?_, fun row member => ?_⟩
    · simp only [Ingestion.map_id_groupRows]
      exact groups.ids table
    · obtain ⟨group, base, rfl⟩ := Ingestion.exists_base member
      rw [id_adoptAll]
      rcases List.mem_append.mp base with committed | created
      · exact table.bound group committed
      · exact groups.createdBound group created
  keys := resolved
  resolves := fun entry member => by
    obtain ⟨group, base, sameId, slug, -⟩ := groups.resolved entry member
    have later := groups.registers table resolved registers
    have found := later.groupIdOfKey_slug (named_of_mem_groupKeys (groups.keys entry member))
      (Ingestion.mem_groupRows base) ((slug_adoptAll _ group).trans slug)
    rw [found, id_adoptAll, sameId]
  stable := fun key named groupId read => groups.stable_key table resolved registers named read
  idsKept := fun groupId member => by
    simp only [Ingestion.map_id_groupRows, List.map_append]
    exact List.mem_append_left _ member
  idsKnown := fun entry member => by
    obtain ⟨group, base, sameId, -⟩ := groups.resolved entry member
    simp only [Ingestion.map_id_groupRows]
    exact List.mem_map.mpr ⟨group, base, sameId⟩
  origin := fun row member => by
    obtain ⟨group, base, rfl⟩ := Ingestion.exists_base member
    rcases List.mem_append.mp base with committed | created
    · exact .inr ⟨group, committed, by simp, by simp⟩
    · rw [id_adoptAll]
      exact .inl (groups.createdOrigin group created).1
  bound := le_rfl

end GroupTable

/-! ### The commit -/

/-- The counts that were read for the linked groups. -/
theorem refreshGroupRollups_lookup (groups : List AuditGroup) (events : List AuditEvent)
    (groupIds : List Nat) :
    (groups.map fun group =>
      match (groupIds.map fun groupId =>
        (groupId, divergentCount (validGroupEvents events groupId))).lookup group.id with
      | some count => { group with divergentMessageCount := count }
      | none => group) = refreshGroupRollups groups events groupIds := by
  rw [refreshGroupRollups]
  refine List.map_congr_left fun group _ => ?_
  by_cases linked : group.id ∈ groupIds
  · rw [if_pos linked, List.lookup_graph _ linked]
  · have absent : (groupIds.map fun groupId =>
        (groupId, divergentCount (validGroupEvents events groupId))).lookup group.id = none := by
      rw [List.lookup_eq_none_iff]
      intro entry member
      obtain ⟨groupId, listed, rfl⟩ := List.mem_map.mp member
      have apart : group.id ≠ groupId := fun same => linked (same ▸ listed)
      simpa using apart
    rw [if_neg linked, absent]

/-- A transaction whose next statement is its commit. -/
structure Committing (env : Env) (store : Store) (ingestion : Ingestion) (fileId : Nat)
    (scan : EventScan) (projections : Nat → GroupProjections) (counts : List (Nat × Nat)) :
    Prop where
  inserted : ingestion.phase.fileId = some fileId
  locked : ingestion.Locked env
  scanned : ingestion.Scanned store fileId scan
  renumbered : Renumbered scan.events ingestion.events
  projected : ingestion.Projected env store fileId scan projections
  counted : counts = ingestion.currentCounts store scan

namespace Committing

variable {fileId : Nat} {scan : EventScan} {projections : Nat → GroupProjections}
  {counts : List (Nat × Nat)}

/-- The file row is the one an upload would insert now. -/
theorem file_eq (committing : Committing env store ingestion fileId scan projections counts) :
    newFile env fileId ingestion.upload ingestion.rawText ingestion.lines
        (commitScan store ingestion.upload ingestion.lines fileId ingestion.groupsByKey) =
      ingestion.file env fileId scan := by
  change newFile env fileId ingestion.upload ingestion.rawText ingestion.lines
    (createEvents store.events ingestion.groupOf 0 fileId ingestion.lines) = _
  rw [Ingestion.file, newFile, newFile, ← committing.scanned.duplicateCount,
    ← committing.scanned.groupIds]

/-- The projections are those an upload would compute now. -/
theorem projections_eq (consistent : Consistent env done store)
    (isolated : Isolated env store ingestion)
    (committing : Committing env store ingestion fileId scan projections counts) :
    rebuildFileProjections (store.events ++ ingestion.events) store.projections
        (ingestion.file env fileId scan) =
      some (ingestion.committed env store fileId scan projections counts).projections := by
  obtain ⟨result, projected, same⟩ := committing.projected
  refine projected.trans (congrArg some (funext fun groupId => ?_))
  simp only [Ingestion.committed]
  split
  · next linked => exact (same groupId linked).symm
  · next other =>
      apply rebuildFileProjections_outside projected
      intro touched
      exact other (Ingestion.mem_of_touched consistent isolated
        (isolated.file fileId committing.inserted) committing.scanned committing.renumbered touched)

/-- The commit is an atomic upload on the rows committed before it. -/
theorem committed (consistent : Consistent env done store) (isolated : Isolated env store ingestion)
    (committing : Committing env store ingestion fileId scan projections counts) :
    CommittedUpload env store ingestion.upload ingestion.rawText ingestion.lines fileId
      (⟨ingestion.groupRows store.groups, store.nextGroupId⟩, ingestion.groupsByKey)
      ingestion.events (ingestion.committed env store fileId scan projections counts) where
  valid := isolated.valid
  unseen := (isolated.file fileId committing.inserted).unseen
  resolution := isolated.groups.resolvedAll consistent.evidence.table committing.locked.keys
    consistent.registers
  registers := fun _ registers =>
    isolated.groups.registers consistent.evidence.table committing.locked.keys registers
  renumbered := committing.scanned.events ▸ committing.renumbered
  ids := isolated.numbered.ascending
  idFresh := isolated.numbered.fresh
  idBound := isolated.numbered.bound
  eventSequence := le_rfl
  fileFresh := (isolated.file fileId committing.inserted).fresh
  fileBound := (isolated.file fileId committing.inserted).bound
  fileSequence := le_rfl
  nextGroupId := rfl
  projected := by
    rw [committing.file_eq]
    exact committing.projections_eq consistent isolated
  groups := by
    have counted := refreshGroupRollups_lookup (ingestion.groupRows store.groups)
      (store.events ++ ingestion.events) scan.groupIds
    rw [committing.counted, Ingestion.committed]
    exact counted.trans (congrArg _ committing.scanned.groupIds)
  files := by
    rw [committing.file_eq]
    rfl
  events := rfl
  rejections := rfl

/-- The commit changes nothing but rows the transaction held. -/
theorem within (isolated : Isolated env store ingestion)
    (committing : Committing env store ingestion fileId scan projections counts) :
    Within env (ingestion.holds env) store
      (ingestion.committed env store fileId scan projections counts) where
  groupsKept := fun group member => by
    refine ⟨_, List.mem_map_of_mem
      (Ingestion.mem_groupRows (List.mem_append_left ingestion.createdGroups member)), ?_⟩
    refine ⟨?_, ?_, fun named => ?_⟩
    · split <;> simp
    · split <;> simp
    · have shown := isolated.groups.named (.inl named)
      split
      · exact shown
      · exact shown
  groupsNew := fun row member => by
    obtain ⟨shown, shownMember, rfl⟩ := List.mem_map.mp member
    obtain ⟨group, base, rfl⟩ := Ingestion.exists_base shownMember
    rcases List.mem_append.mp base with old | created
    · refine .inl ⟨group, old, ?_⟩
      split <;> simp
    · refine .inr ⟨?_, ?_⟩
      · rw [Ingestion.mem_holds]
        refine .inl (List.mem_map.mpr ⟨group, created, ?_⟩)
        split <;> simp
      · rw [Ingestion.mem_holds]
        refine List.mem_map.mpr ⟨group, created, ?_⟩
        split <;> simp
  files := by
    refine ⟨_, rfl, fun file member => ?_⟩
    rw [List.mem_singleton.mp member]
    refine ⟨Ingestion.mem_holds.mpr committing.inserted, Ingestion.mem_holds.mpr ⟨?_, rfl⟩⟩
    rw [committing.inserted]
    rfl
  events := by
    refine ⟨ingestion.events, rfl, fun event member => ?_⟩
    obtain ⟨owner, ⟨line, lineMember, engineId⟩, groups⟩ :=
      committing.scanned.rows isolated committing.renumbered member
    refine ⟨isolated.numbered.fresh event member, ?_, ?_, ?_, fun groupId grouped => ?_⟩
    · exact Ingestion.mem_holds.mpr (List.mem_map_of_mem member)
    · rw [engineId]
      exact Ingestion.mem_holds.mpr (committing.locked.recorders line lineMember)
    · rw [owner]
      exact Ingestion.mem_holds.mpr committing.inserted
    · exact committing.scanned.group_held isolated committing.locked (groups groupId grouped)
  projections := fun groupId other => by
    simp only [Ingestion.committed]
    refine if_neg fun linked => other ?_
    exact committing.scanned.group_held isolated committing.locked linked
  nextGroupId := le_rfl
  nextFileId := le_rfl
  nextEventId := le_rfl

end Committing

/-! ### How a transaction ends -/

/-- A transaction ends refused, with the file that has its hash, or with its commit. -/
inductive Ends (env : Env) (store : Store) (ingestion : Ingestion) :
    Store → IngestionResult → Prop where
  | busy : Ends env store ingestion store (.refused ingestBusy)
  | failed : Ends env store ingestion (store.recordRejection ingestion.upload ingestFailed)
      (.refused ingestFailed)
  | known {existing : AuditFile} {later : Store} (member : existing ∈ store.files)
      (hash : existing.fileSha256 = ingestion.fileSha256 env) (drawn : Drawn store later) :
      Ends env store ingestion later (.stored existing.id false)
  | commit {fileId : Nat} {resolved : GroupTable × List (GroupKey × Nat)} {later : Store}
      (committed : CommittedUpload env store ingestion.upload ingestion.rawText ingestion.lines
        fileId resolved ingestion.events later)
      (within : Within env (ingestion.holds env) store later) :
      Ends env store ingestion later (.stored fileId true)

theorem next_ends (consistent : Consistent env done store) (isolated : Isolated env store ingestion)
    {result : IngestionResult}
    (ended : ingestion.next env isFree store = .ends later result) :
    Ends env store ingestion later result := by
  have holds := isolated.phase
  unfold Ingestion.PhaseHolds at holds
  cases phase : ingestion.phase with
  | recorderLock engineId left =>
      simp only [Ingestion.next, phase] at ended
      split at ended
      · cases ended
      · cases ended
        exact .busy
  | groupLookup key left lookup =>
      simp only [Ingestion.next, phase] at ended
      cases lookup with
      | byRef =>
          simp only [Ingestion.lookUp] at ended
          split at ended <;> cases ended
      | bySlug =>
          simp only [Ingestion.lookUp] at ended
          split at ended
          · cases ended
          · split at ended <;> cases ended
      | insert =>
          simp only [Ingestion.lookUp] at ended
          split at ended
          · cases ended
          · split at ended <;> cases ended
      | adopt groupId =>
          simp only [Ingestion.lookUp] at ended
          split at ended <;> cases ended
  | groupLocks =>
      simp only [Ingestion.next, phase] at ended
      split at ended
      · cases ended
      · cases ended
        exact .busy
  | fileInsert =>
      simp only [Ingestion.next, phase] at ended
      split at ended
      · cases ended
      · split at ended
        · next existing found =>
            cases ended
            have tested := List.find?_some found
            exact .known (List.mem_of_find?_eq_some found) (of_decide_eq_true tested)
              ⟨_, _, _, rfl, le_rfl, Nat.le_succ _, le_rfl⟩
        · cases ended
  | duplicateRead fileId =>
      simp only [Ingestion.next, phase] at ended
      cases ended
  | eventInsert fileId scan row left =>
      simp only [Ingestion.next, phase] at ended
      cases ended
  | projection fileId scan =>
      simp only [Ingestion.next, phase] at ended
      split at ended
      · cases ended
        exact .failed
      · cases ended
  | rollups fileId scan projections =>
      simp only [Ingestion.next, phase] at ended
      cases ended
  | commit fileId scan projections counts =>
      simp only [phase] at holds
      obtain ⟨locked, scanned, renumbered, projected, counted⟩ := holds
      simp only [Ingestion.next, phase, Outcome.ends.injEq] at ended
      obtain ⟨rfl, rfl⟩ := ended
      have committing : Committing env store ingestion fileId scan projections counts :=
        ⟨by rw [phase]; rfl, locked, scanned, renumbered, projected, counted⟩
      exact .commit (committing.committed consistent isolated) (committing.within isolated)

end Goggles
