/-
Module: Goggles.Concurrency.Statements
Purpose: What one statement of an upload's transaction does: it keeps what the transaction relies on,
  takes only resources that are free or new, and changes no committed row before the commit.
Trusted boundary: none beyond the modules it imports
Main exports: Drawn, Fresh, Proceeds, next_proceeds
-/
import Goggles.Concurrency.Isolation

namespace Goggles

/-! ### Sequences -/

/-- Nothing but sequence values was drawn. -/
def Drawn (store later : Store) : Prop :=
  ∃ nextGroupId nextFileId nextEventId,
    later = { store with nextGroupId, nextFileId, nextEventId } ∧
      store.nextGroupId ≤ nextGroupId ∧ store.nextFileId ≤ nextFileId ∧
      store.nextEventId ≤ nextEventId

theorem Drawn.refl (store : Store) : Drawn store store :=
  ⟨_, _, _, rfl, le_rfl, le_rfl, le_rfl⟩

theorem Drawn.within {store later : Store} (drawn : Drawn store later) (env : Env)
    (held : List Resource) : Within env held store later := by
  obtain ⟨nextGroupId, nextFileId, nextEventId, rfl, groups, files, events⟩ := drawn
  have same := Within.refl env held store
  exact ⟨same.groupsKept, same.groupsNew, same.files, same.events, same.projections, groups, files,
    events⟩

/-- The next value of a sequence. -/
def Fresh (store : Store) : Resource → Prop
  | .group groupId => groupId = store.nextGroupId
  | .file fileId => fileId = store.nextFileId
  | .event eventId => eventId = store.nextEventId
  | _ => False

variable {env : Env} {isFree : Resource → Bool} {store later : Store}
  {ingestion advanced : Ingestion}

/-- The resolved groups have rows, so their ids were drawn. -/
theorem GroupsHeld.bound (groups : GroupsHeld env store ingestion)
    (table : store.groupTable.WellFormed) {groupId : Nat}
    (member : groupId ∈ ingestion.groupsByKey.map Prod.snd) : groupId < store.nextGroupId := by
  obtain ⟨entry, entryMember, rfl⟩ := List.mem_map.mp member
  obtain ⟨group, known, sameId, -⟩ := groups.resolved entry entryMember
  rw [← sameId]
  rcases List.mem_append.mp known with committed | created
  · exact table.bound group committed
  · exact groups.createdBound group created

/-- No transaction holds what a sequence has not given out. -/
theorem Isolated.not_fresh (isolated : Isolated env store ingestion)
    (table : store.groupTable.WellFormed) {resource : Resource}
    (held : resource ∈ ingestion.holds env) : ¬ Fresh store resource := by
  rw [Ingestion.mem_holds] at held
  intro fresh
  cases resource with
  | recorder key => exact fresh
  | slug slug => exact fresh
  | fileHash hash => exact fresh
  | group groupId =>
      have bounded : groupId < store.nextGroupId := by
        rcases held with created | adopted | locked
        · obtain ⟨group, member, rfl⟩ := List.mem_map.mp created
          exact isolated.groups.createdBound group member
        · obtain ⟨entry, member, rfl⟩ := List.mem_map.mp adopted
          exact isolated.groups.bound table
            (List.mem_map.mpr ⟨_, isolated.groups.adopted entry member, rfl⟩)
        · exact isolated.groups.bound table (isolated.groups.locked groupId locked)
      exact absurd fresh (Nat.ne_of_lt bounded)
  | file fileId => exact absurd fresh (Nat.ne_of_lt (isolated.file fileId held).bound)
  | event eventId =>
      obtain ⟨event, member, rfl⟩ := List.mem_map.mp held
      exact absurd fresh (Nat.ne_of_lt (isolated.numbered.bound event member))

/-! ### Going on -/

/-- A statement was done: only sequence values were drawn from the shared state, the transaction has
what it relies on, and what it now holds it held before, found free or drew. -/
structure Proceeds (env : Env) (isFree : Resource → Bool) (store : Store) (ingestion : Ingestion)
    (later : Store) (advanced : Ingestion) : Prop where
  drawn : Drawn store later
  isolated : Isolated env later advanced
  upload : advanced.upload = ingestion.upload
  holds : ∀ resource ∈ advanced.holds env,
    resource ∈ ingestion.holds env ∨ isFree resource = true ∨ Fresh store resource

/-- The parts of a transaction that its groups consist of are the same. -/
theorem GroupsHeld.congr (groups : GroupsHeld env store ingestion)
    (created : advanced.createdGroups = ingestion.createdGroups)
    (adopted : advanced.adoptedRefs = ingestion.adoptedRefs)
    (byKey : advanced.groupsByKey = ingestion.groupsByKey)
    (upload : advanced.upload = ingestion.upload) (lines : advanced.lines = ingestion.lines)
    (locked : ∀ groupId ∈ advanced.lockedGroups, groupId ∈ ingestion.groupsByKey.map Prod.snd) :
    GroupsHeld env store advanced where
  createdIds := created ▸ groups.createdIds
  createdSlugs := created ▸ groups.createdSlugs
  createdBound := created ▸ groups.createdBound
  createdFresh := created ▸ groups.createdFresh
  createdOrigin := by
    rw [created, byKey]
    exact groups.createdOrigin
  adopted := by
    rw [adopted, byKey]
    exact groups.adopted
  keys := by
    rw [byKey, upload, lines]
    exact groups.keys
  resolved := by
    rw [byKey, created, adopted]
    exact groups.resolved
  locked := by
    rw [byKey]
    exact locked

@[simp] theorem fileId_lookUpNext (left : List GroupKey) :
    (Ingestion.lookUpNext left).fileId = none := by
  cases left <;> rfl

@[simp] theorem fileId_lockNext (ingestion : Ingestion) (left : List Str) :
    (ingestion.lockNext left).fileId = none := by
  cases left with
  | nil => exact fileId_lookUpNext _
  | cons => rfl

@[simp] theorem fileId_insertNext (fileId : Nat) (scan : EventScan) (left : List AuditEvent) :
    (Ingestion.insertNext fileId scan left).fileId = some fileId := by
  cases left <;> rfl

/-- On to the rest of the keys. -/
theorem phaseHolds_lookUpNext {left : List GroupKey}
    (phase : ingestion.phase = Ingestion.lookUpNext left)
    (recorders : ingestion.RecordersLocked env)
    (keys : ingestion.groupsByKey.map Prod.fst ++ left =
      groupKeys ingestion.upload.fallbackGroupSlug ingestion.lines)
    (empty : ingestion.events = []) : ingestion.PhaseHolds env store := by
  unfold Ingestion.PhaseHolds
  rw [phase]
  cases left with
  | nil => exact ⟨recorders, by simpa [Ingestion.KeysResolved] using keys, empty⟩
  | cons key rest =>
      refine ⟨recorders, keys, fun groupId same => ?_, fun same => ?_, empty⟩
      · cases key <;> cases same
      · cases key with
        | ref value => exact ⟨value, rfl⟩
        | slug value => cases same

/-- On to the rest of the recorders. -/
theorem phaseHolds_lockNext {left : List Str} (phase : ingestion.phase = ingestion.lockNext left)
    (recorders : ∀ line ∈ ingestion.lines, line.engineId ∈ left ∨
      recorderKey env line.engineId ∈ ingestion.recorderKeys)
    (unresolved : ingestion.groupsByKey = []) (empty : ingestion.events = []) :
    ingestion.PhaseHolds env store := by
  cases left with
  | nil =>
      apply phaseHolds_lookUpNext phase _ _ empty
      · intro line member
        simpa using recorders line member
      · rw [unresolved]
        rfl
  | cons engineId rest =>
      unfold Ingestion.PhaseHolds
      rw [phase]
      exact ⟨recorders, unresolved, empty⟩

/-- On to the rest of the event rows. -/
theorem phaseHolds_insertNext {fileId : Nat} {scan : EventScan} {left : List AuditEvent}
    (phase : ingestion.phase = Ingestion.insertNext fileId scan left)
    (locked : ingestion.Locked env) (scanned : ingestion.Scanned store fileId scan)
    (inserted : ∃ done, scan.events = done ++ left ∧ Renumbered done ingestion.events) :
    ingestion.PhaseHolds env store := by
  unfold Ingestion.PhaseHolds
  rw [phase]
  obtain ⟨done, split, renumbered⟩ := inserted
  cases left with
  | nil =>
      refine ⟨locked, scanned, ?_⟩
      rw [split, List.append_nil]
      exact renumbered
  | cons row rest => exact ⟨locked, scanned, done, split, renumbered⟩

/-! ### Reading the group rows -/

/-- A row a statement sees is a committed or created one, with the reference it was given. -/
theorem Ingestion.exists_base {committed : List AuditGroup} {row : AuditGroup}
    (member : row ∈ ingestion.groupRows committed) :
    ∃ group ∈ committed ++ ingestion.createdGroups,
      row = adoptAll ingestion.adoptedRefs group := by
  rw [Ingestion.groupRows_eq] at member
  obtain ⟨group, known, same⟩ := List.mem_map.mp member
  exact ⟨group, known, same.symm⟩

/-- A row that shows a reference had it, or was given it. -/
theorem ref_of_adoptAll {adoptedRefs : List (Nat × Str)} {group : AuditGroup}
    (named : (adoptAll adoptedRefs group).groupRef ≠ []) :
    group.groupRef ≠ [] ∨ group.id ∈ adoptedRefs.map Prod.fst := by
  obtain ⟨groupRef, same, origin, -⟩ := adoptAll_eq adoptedRefs group
  rw [same] at named
  rcases origin with kept | listed
  · exact .inl (kept ▸ named)
  · exact .inr (List.mem_map.mpr ⟨_, listed, rfl⟩)

/-- Group ids are unique among the committed and the created rows. -/
theorem GroupsHeld.ids (groups : GroupsHeld env store ingestion)
    (table : store.groupTable.WellFormed) :
    ((store.groups ++ ingestion.createdGroups).map (·.id)).Nodup :=
  nodup_map_append table.ids groups.createdIds fun group member old known =>
    (groups.createdFresh group member old known).1

/-- A row that shows a reference stands under the slug of the reference. -/
theorem GroupsHeld.slug_of_ref {known : Str → Prop} (groups : GroupsHeld env store ingestion)
    (table : store.groupTable.WellFormed) (registers : Registers env store.groups known)
    {group : AuditGroup} (member : group ∈ store.groups ++ ingestion.createdGroups)
    (named : (adoptAll ingestion.adoptedRefs group).groupRef ≠ []) :
    group.slug =
      groupSlugForRef env (adoptAll ingestion.adoptedRefs group).groupRef := by
  obtain ⟨groupRef, same, origin, -⟩ := adoptAll_eq ingestion.adoptedRefs group
  rw [same] at named ⊢
  rcases origin with rfl | listed
  · rcases List.mem_append.mp member with committed | created
    · exact (registers.origin group committed named).2
    · exact ((groups.createdOrigin group created).2 named).1
  · obtain ⟨other, otherMember, sameId, sameSlug, -⟩ :=
      groups.resolved _ (groups.adopted _ listed)
    have sameRow := List.inj_on_of_nodup_map (groups.ids table) otherMember member sameId
    rw [← sameRow, sameSlug]
    rfl

/-- A key is resolved to a row under its slug, which has a reference or was given one. -/
theorem GroupsHeld.resolve (groups : GroupsHeld env store ingestion) {key : GroupKey}
    {left : List GroupKey}
    (listed : key ∈ groupKeys ingestion.upload.fallbackGroupSlug ingestion.lines)
    {group : AuditGroup} (member : group ∈ store.groups ++ ingestion.createdGroups)
    (slug : group.slug = key.slugOf env)
    (named : ∀ value, key = .ref value →
      group.groupRef ≠ [] ∨ group.id ∈ ingestion.adoptedRefs.map Prod.fst) :
    GroupsHeld env store (ingestion.resolve key left group.id) where
  createdIds := groups.createdIds
  createdSlugs := groups.createdSlugs
  createdBound := groups.createdBound
  createdFresh := groups.createdFresh
  createdOrigin := fun created createdMember => by
    obtain ⟨known, origin⟩ := groups.createdOrigin created createdMember
    simp only [Ingestion.resolve, List.map_append, List.mem_append]
    refine ⟨.inl known, fun hasRef => ?_⟩
    obtain ⟨sameSlug, keyed⟩ := origin hasRef
    exact ⟨sameSlug, .inl keyed⟩
  adopted := fun entry entryMember => List.mem_append_left _ (groups.adopted entry entryMember)
  keys := fun entry entryMember => by
    rcases List.mem_append.mp entryMember with old | new
    · exact groups.keys entry old
    · rw [List.mem_singleton.mp new]
      exact listed
  resolved := fun entry entryMember => by
    rcases List.mem_append.mp entryMember with old | new
    · exact groups.resolved entry old
    · rw [List.mem_singleton.mp new]
      exact ⟨group, member, rfl, slug, named⟩
  locked := fun groupId lockedMember => by
    simp only [Ingestion.resolve, List.map_append, List.mem_append]
    exact .inl (groups.locked groupId lockedMember)

/-- A row is inserted for a key, under an id and a slug that no row has. -/
theorem GroupsHeld.create (groups : GroupsHeld env store ingestion) {key : GroupKey}
    {left : List GroupKey} {group : AuditGroup}
    (listed : key ∈ groupKeys ingestion.upload.fallbackGroupSlug ingestion.lines)
    (bound : group.id < store.nextGroupId) (slug : group.slug = key.slugOf env)
    (fresh : ∀ other ∈ store.groups ++ ingestion.createdGroups,
      other.id ≠ group.id ∧ other.slug ≠ group.slug)
    (named : ∀ value, key = .ref value → group.groupRef ≠ [])
    (origin : group.groupRef ≠ [] → key = .ref group.groupRef) :
    GroupsHeld env store
      { ingestion.resolve key left group.id with
        createdGroups := ingestion.createdGroups ++ [group] } where
  createdIds := by
    refine nodup_map_append groups.createdIds (List.nodup_singleton _) fun new member old known => ?_
    rw [List.mem_singleton.mp member]
    exact (fresh old (List.mem_append_right _ known)).1
  createdSlugs := by
    refine nodup_map_append groups.createdSlugs (List.nodup_singleton _)
      fun new member old known => ?_
    rw [List.mem_singleton.mp member]
    exact (fresh old (List.mem_append_right _ known)).2
  createdBound := fun created member => by
    rcases List.mem_append.mp member with old | new
    · exact groups.createdBound created old
    · rw [List.mem_singleton.mp new]
      exact bound
  createdFresh := fun created member other known => by
    rcases List.mem_append.mp member with old | new
    · exact groups.createdFresh created old other known
    · rw [List.mem_singleton.mp new]
      exact fresh other (List.mem_append_left _ known)
  createdOrigin := fun created member => by
    simp only [Ingestion.resolve, List.map_append, List.mem_append]
    rcases List.mem_append.mp member with old | new
    · obtain ⟨resolved, origin⟩ := groups.createdOrigin created old
      refine ⟨.inl resolved, fun hasRef => ?_⟩
      obtain ⟨sameSlug, keyed⟩ := origin hasRef
      exact ⟨sameSlug, .inl keyed⟩
    · rw [List.mem_singleton.mp new]
      refine ⟨.inr (by simp), fun hasRef => ?_⟩
      rw [slug, origin hasRef]
      exact ⟨rfl, .inr (by simp)⟩
  adopted := fun entry member => List.mem_append_left _ (groups.adopted entry member)
  keys := fun entry member => by
    rcases List.mem_append.mp member with old | new
    · exact groups.keys entry old
    · rw [List.mem_singleton.mp new]
      exact listed
  resolved := fun entry member => by
    simp only [← List.append_assoc]
    rcases List.mem_append.mp member with old | new
    · obtain ⟨row, known, found⟩ := groups.resolved entry old
      exact ⟨row, List.mem_append_left _ known, found⟩
    · rw [List.mem_singleton.mp new]
      exact ⟨group, by simp, rfl, slug, fun value same => .inl (named value same)⟩
  locked := fun groupId member => by
    simp only [Ingestion.resolve, List.map_append, List.mem_append]
    exact .inl (groups.locked groupId member)

/-- A row without a reference is given that of the key it stands for. -/
theorem GroupsHeld.adopt (groups : GroupsHeld env store ingestion) {value : Str}
    {left : List GroupKey}
    (listed : .ref value ∈ groupKeys ingestion.upload.fallbackGroupSlug ingestion.lines)
    {group : AuditGroup} (member : group ∈ store.groups ++ ingestion.createdGroups)
    (slug : group.slug = groupSlugForRef env value) :
    GroupsHeld env store
      { ingestion.resolve (.ref value) left group.id with
        adoptedRefs := ingestion.adoptedRefs ++ [(group.id, value)] } where
  createdIds := groups.createdIds
  createdSlugs := groups.createdSlugs
  createdBound := groups.createdBound
  createdFresh := groups.createdFresh
  createdOrigin := fun created createdMember => by
    obtain ⟨known, origin⟩ := groups.createdOrigin created createdMember
    simp only [Ingestion.resolve, List.map_append, List.mem_append]
    refine ⟨.inl known, fun hasRef => ?_⟩
    obtain ⟨sameSlug, keyed⟩ := origin hasRef
    exact ⟨sameSlug, .inl keyed⟩
  adopted := fun entry entryMember => by
    rcases List.mem_append.mp entryMember with old | new
    · exact List.mem_append_left _ (groups.adopted entry old)
    · rw [List.mem_singleton.mp new]
      exact List.mem_append_right _ (List.mem_singleton.mpr rfl)
  keys := fun entry entryMember => by
    rcases List.mem_append.mp entryMember with old | new
    · exact groups.keys entry old
    · rw [List.mem_singleton.mp new]
      exact listed
  resolved := fun entry entryMember => by
    simp only [List.map_append, List.mem_append]
    rcases List.mem_append.mp entryMember with old | new
    · obtain ⟨row, known, sameId, sameSlug, named⟩ := groups.resolved entry old
      refine ⟨row, List.mem_append.mp known, sameId, sameSlug, fun other same => ?_⟩
      exact (named other same).imp_right .inl
    · rw [List.mem_singleton.mp new]
      exact ⟨group, List.mem_append.mp member, rfl, slug, fun _ _ => .inr (.inr (by simp))⟩
  locked := fun groupId lockedMember => by
    simp only [Ingestion.resolve, List.map_append, List.mem_append]
    exact .inl (groups.locked groupId lockedMember)

/-! ### The group keys -/

/-- The statement of a key: the keys before it are resolved, and it names something. -/
structure LookingUp (env : Env) (ingestion : Ingestion) (key : GroupKey) (left : List GroupKey) :
    Prop where
  recorders : ingestion.RecordersLocked env
  keys : ingestion.groupsByKey.map Prod.fst ++ key :: left =
    groupKeys ingestion.upload.fallbackGroupSlug ingestion.lines
  empty : ingestion.events = []
  noFile : ingestion.phase.fileId = none

namespace LookingUp

variable {key : GroupKey} {left : List GroupKey}

theorem listed (looking : LookingUp env ingestion key left) :
    key ∈ groupKeys ingestion.upload.fallbackGroupSlug ingestion.lines := by
  rw [← looking.keys]
  simp

theorem named (looking : LookingUp env ingestion key left) : key.isNamed := by
  obtain ⟨line, -, found⟩ := mem_groupKeys.mp looking.listed
  exact isNamed_of_groupKeyForParsedLine found

/-- The next statement for the same key. -/
theorem again (looking : LookingUp env ingestion key left)
    (isolated : Isolated env store ingestion) {lookup : Lookup}
    (adopts : ∀ groupId, lookup = .adopt groupId →
      (∃ value, key = .ref value) ∧ ∃ group ∈ store.groups ++ ingestion.createdGroups,
        group.id = groupId ∧ group.slug = key.slugOf env)
    (refers : lookup ≠ .byRef) :
    Isolated env store { ingestion with phase := .groupLookup key left lookup } where
  valid := isolated.valid
  groups := isolated.groups.congr rfl rfl rfl rfl rfl isolated.groups.locked
  file := by simp [Phase.fileId]
  numbered := isolated.numbered
  phase := ⟨looking.recorders, looking.keys, adopts, fun same => absurd same refers, looking.empty⟩

/-- A resolved key is followed by the next one, or by the locks of the groups. -/
theorem resolved (looking : LookingUp env ingestion key left) (isolated : Isolated env store ingestion)
    {groupId : Nat} {advanced : Ingestion} (upload : advanced.upload = ingestion.upload)
    (rawText : advanced.rawText = ingestion.rawText) (lines : advanced.lines = ingestion.lines)
    (recorders : advanced.recorderKeys = ingestion.recorderKeys)
    (byKey : advanced.groupsByKey = ingestion.groupsByKey ++ [(key, groupId)])
    (events : advanced.events = ingestion.events)
    (phase : advanced.phase = Ingestion.lookUpNext left)
    (groups : GroupsHeld env store advanced) : Isolated env store advanced where
  valid := by
    rw [upload, rawText, lines]
    exact isolated.valid
  groups := groups
  file := by simp [phase]
  numbered := events ▸ isolated.numbered
  phase := by
    apply phaseHolds_lookUpNext phase
    · rw [Ingestion.RecordersLocked, lines, recorders]
      exact looking.recorders
    · rw [byKey, upload, lines, ← looking.keys]
      simp
    · rw [events, looking.empty]

/-- A key is resolved to a row that is there. -/
theorem found (looking : LookingUp env ingestion key left) (isolated : Isolated env store ingestion)
    {group : AuditGroup} (member : group ∈ store.groups ++ ingestion.createdGroups)
    (slug : group.slug = key.slugOf env)
    (named : ∀ value, key = .ref value →
      group.groupRef ≠ [] ∨ group.id ∈ ingestion.adoptedRefs.map Prod.fst) :
    Proceeds env isFree store ingestion store (ingestion.resolve key left group.id) where
  drawn := .refl store
  isolated := looking.resolved isolated rfl rfl rfl rfl rfl rfl rfl
    (isolated.groups.resolve looking.listed member slug named)
  upload := rfl
  holds := fun resource held => .inl <| by
    rw [Ingestion.mem_holds] at held ⊢
    cases resource with
    | file fileId => simp [Ingestion.Holding, Ingestion.resolve] at held
    | fileHash hash => simp [Ingestion.Holding, Ingestion.resolve] at held
    | _ => exact held

end LookingUp

/-- Another statement for the same key is next. -/
theorem Proceeds.turn {key : GroupKey} {left : List GroupKey} {lookup : Lookup}
    (drawn : Drawn store later)
    (isolated : Isolated env later { ingestion with phase := .groupLookup key left lookup }) :
    Proceeds env isFree store ingestion later
      { ingestion with phase := .groupLookup key left lookup } where
  drawn := drawn
  isolated := isolated
  upload := rfl
  holds := fun resource held => .inl <| by
    rw [Ingestion.mem_holds] at held ⊢
    cases resource with
    | file fileId => simp [Ingestion.Holding, Phase.fileId] at held
    | fileHash hash => simp [Ingestion.Holding, Phase.fileId] at held
    | _ => exact held

theorem slug_newGroup (env : Env) (fallbackGroupName : Str) (groupId : Nat) (key : GroupKey) :
    (key.newGroup env fallbackGroupName groupId).slug = key.slugOf env := by
  cases key <;> rfl

@[simp] theorem id_newGroup (env : Env) (fallbackGroupName : Str) (groupId : Nat) (key : GroupKey) :
    (key.newGroup env fallbackGroupName groupId).id = groupId := by
  cases key <;> rfl

section LookUp

variable {done : List Upload} {key : GroupKey} {left : List GroupKey}

theorem lookUp_byRef (consistent : Consistent env done store)
    (isolated : Isolated env store ingestion) (looking : LookingUp env ingestion key left)
    (isRef : ∃ value, key = .ref value)
    (stepped : ingestion.lookUp env isFree store key left .byRef = .proceeds later advanced) :
    Proceeds env isFree store ingestion later advanced := by
  obtain ⟨value, rfl⟩ := isRef
  simp only [Ingestion.lookUp] at stepped
  split at stepped
  · next existing found =>
      cases stepped
      obtain ⟨group, member, rfl⟩ := Ingestion.exists_base (List.mem_of_find?_eq_some found)
      have sameRef : (adoptAll ingestion.adoptedRefs group).groupRef = value := by
        have tested := List.find?_some found
        exact of_decide_eq_true tested
      have named : (adoptAll ingestion.adoptedRefs group).groupRef ≠ [] := sameRef ▸ looking.named
      have slug :=
        isolated.groups.slug_of_ref consistent.evidence.table consistent.registers member named
      rw [id_adoptAll]
      exact looking.found isolated member (sameRef ▸ slug) fun _ _ => ref_of_adoptAll named
  · cases stepped
    exact .turn (.refl store) (looking.again isolated (by simp) (by simp))

theorem lookUp_bySlug (isolated : Isolated env store ingestion)
    (looking : LookingUp env ingestion key left)
    (stepped : ingestion.lookUp env isFree store key left .bySlug = .proceeds later advanced) :
    Proceeds env isFree store ingestion later advanced := by
  simp only [Ingestion.lookUp] at stepped
  split at stepped
  · cases stepped
    exact .turn (.refl store) (looking.again isolated (by simp) (by simp))
  · next found read =>
      obtain ⟨group, member, rfl⟩ := Ingestion.exists_base (List.mem_of_find?_eq_some read)
      have slug : group.slug = key.slugOf env := by simpa using List.find?_some read
      split at stepped
      · next blank =>
          cases stepped
          refine .turn (.refl store) (looking.again isolated ?_ (by simp))
          intro groupId same
          cases same
          refine ⟨?_, group, member, by simp, slug⟩
          cases key with
          | ref value => exact ⟨value, rfl⟩
          | slug value => simp [GroupKey.adopts] at blank
      · next named =>
          cases stepped
          rw [id_adoptAll]
          refine looking.found isolated member slug fun value same => ref_of_adoptAll ?_
          simpa [same, GroupKey.adopts] using named

/-- A key without a row: the unique slug lets one transaction insert it. -/
theorem lookUp_insert (consistent : Consistent env done store)
    (isolated : Isolated env store ingestion) (looking : LookingUp env ingestion key left)
    (stepped : ingestion.lookUp env isFree store key left .insert = .proceeds later advanced) :
    Proceeds env isFree store ingestion later advanced := by
  have drawn : Drawn store { store with nextGroupId := store.nextGroupId + 1 } :=
    ⟨_, _, _, rfl, Nat.le_succ _, le_rfl, le_rfl⟩
  have kept := isolated.stable consistent (drawn.within env []) (List.disjoint_nil_left _)
  simp only [Ingestion.lookUp] at stepped
  split at stepped
  · cases stepped
  · next free =>
      split at stepped
      · cases stepped
        exact .turn drawn (looking.again kept (by simp) (by simp))
      · next absent =>
          cases stepped
          set group := key.newGroup env ingestion.upload.fallbackGroupName store.nextGroupId
            with made
          have slug : group.slug = key.slugOf env := slug_newGroup env _ _ key
          have sameId : group.id = store.nextGroupId := id_newGroup env _ _ key
          have held : GroupsHeld env { store with nextGroupId := store.nextGroupId + 1 }
              { ingestion.resolve key left group.id with
                createdGroups := ingestion.createdGroups ++ [group] } := by
            apply kept.groups.create looking.listed _ slug
            · intro other member
              constructor
              · rw [sameId]
                apply Nat.ne_of_lt
                rcases List.mem_append.mp member with committed | created
                · exact consistent.evidence.table.bound other committed
                · exact isolated.groups.createdBound other created
              · intro same
                apply absent
                rw [List.any_eq_true, Ingestion.groupRows_eq]
                exact ⟨_, List.mem_map_of_mem member, by simpa using same.trans slug⟩
            · rintro value rfl
              exact looking.named
            · intro named
              cases key with
              | ref value => rfl
              | slug value => exact absurd rfl named
            · rw [sameId]
              exact Nat.lt_succ_self _
          exact
            { drawn := drawn
              isolated := looking.resolved kept rfl rfl rfl rfl rfl rfl rfl held
              upload := rfl
              holds := fun resource member => by
                rw [Ingestion.mem_holds] at member ⊢
                cases resource with
                | group groupId =>
                    simp only [Ingestion.Holding, Ingestion.resolve, List.map_append,
                      List.mem_append, List.map_singleton, List.mem_singleton] at member
                    rcases member with (created | rfl) | rest
                    · exact .inl (.inl created)
                    · exact .inr (.inr sameId)
                    · exact .inl (.inr rest)
                | slug other =>
                    simp only [Ingestion.Holding, List.map_append, List.mem_append,
                      List.map_singleton, List.mem_singleton] at member
                    rcases member with created | rfl
                    · exact .inl created
                    · rw [slug]
                      exact .inr (.inl (by simpa using free))
                | file fileId => simp [Ingestion.Holding, Ingestion.resolve] at member
                | fileHash hash => simp [Ingestion.Holding, Ingestion.resolve] at member
                | _ => exact .inl member }

/-- A row without a reference is locked until its new one is committed. -/
theorem lookUp_adopt (isolated : Isolated env store ingestion)
    (looking : LookingUp env ingestion key left) {groupId : Nat}
    (adopts : (∃ value, key = .ref value) ∧ ∃ group ∈ store.groups ++ ingestion.createdGroups,
      group.id = groupId ∧ group.slug = key.slugOf env)
    (stepped : ingestion.lookUp env isFree store key left (.adopt groupId) =
      .proceeds later advanced) :
    Proceeds env isFree store ingestion later advanced := by
  obtain ⟨⟨value, rfl⟩, group, member, rfl, slug⟩ := adopts
  simp only [Ingestion.lookUp] at stepped
  split at stepped
  · cases stepped
  · next free =>
      cases stepped
      exact
        { drawn := .refl store
          isolated := looking.resolved isolated rfl rfl rfl rfl rfl rfl rfl
            (isolated.groups.adopt looking.listed member slug)
          upload := rfl
          holds := fun resource held => by
            rw [Ingestion.mem_holds] at held ⊢
            cases resource with
            | group other =>
                simp only [Ingestion.Holding, Ingestion.resolve, List.map_append, List.mem_append,
                  List.map_singleton, List.mem_singleton] at held
                rcases held with created | (adopted | rfl) | locked
                · exact .inl (.inl created)
                · exact .inl (.inr (.inl adopted))
                · exact .inr (.inl (by simpa using free))
                · exact .inl (.inr (.inr locked))
            | file fileId => simp [Ingestion.Holding, Ingestion.resolve] at held
            | fileHash hash => simp [Ingestion.Holding, Ingestion.resolve] at held
            | _ => exact .inl held }

/-- One statement of `group_for_key`. -/
theorem lookUp_proceeds (consistent : Consistent env done store)
    (isolated : Isolated env store ingestion) {lookup : Lookup}
    (phase : ingestion.phase = .groupLookup key left lookup)
    (stepped : ingestion.lookUp env isFree store key left lookup = .proceeds later advanced) :
    Proceeds env isFree store ingestion later advanced := by
  have holds := isolated.phase
  unfold Ingestion.PhaseHolds at holds
  simp only [phase] at holds
  obtain ⟨recorders, keys, adopts, refers, empty⟩ := holds
  have looking : LookingUp env ingestion key left := ⟨recorders, keys, empty, by rw [phase]; rfl⟩
  cases lookup with
  | byRef => exact lookUp_byRef consistent isolated looking (refers rfl) stepped
  | bySlug => exact lookUp_bySlug isolated looking stepped
  | insert => exact lookUp_insert consistent isolated looking stepped
  | adopt groupId => exact lookUp_adopt isolated looking (adopts groupId rfl) stepped

end LookUp

/-! ### The other statements -/

/-- A later statement of the same transaction, on the same resources: only its phase is new. -/
theorem Isolated.onward (isolated : Isolated env store ingestion) {phase : Phase}
    (sameFile : phase.fileId = ingestion.phase.fileId)
    (holds : Ingestion.PhaseHolds env store { ingestion with phase }) :
    Proceeds env isFree store ingestion store { ingestion with phase } where
  drawn := .refl store
  isolated :=
    { valid := isolated.valid
      groups := isolated.groups.congr rfl rfl rfl rfl rfl isolated.groups.locked
      file := fun fileId inserted => by
        have owned := isolated.file fileId (sameFile ▸ inserted)
        exact ⟨owned.bound, owned.fresh, owned.unseen⟩
      numbered := isolated.numbered
      phase := holds }
  upload := rfl
  holds := fun resource held => .inl <| by
    rw [Ingestion.mem_holds] at held ⊢
    cases resource with
    | file fileId => exact sameFile.symm.trans held
    | fileHash hash => exact ⟨sameFile ▸ held.1, held.2⟩
    | _ => exact held

section Next

variable {done : List Upload}

theorem next_recorderLock (isolated : Isolated env store ingestion) {engineId : Str}
    {left : List Str} (phase : ingestion.phase = .recorderLock engineId left)
    (stepped : ingestion.next env isFree store = .proceeds later advanced) :
    Proceeds env isFree store ingestion later advanced := by
  have holds := isolated.phase
  unfold Ingestion.PhaseHolds at holds
  simp only [phase] at holds
  obtain ⟨recorders, unresolved, empty⟩ := holds
  have noFile : ingestion.phase.fileId = none := by rw [phase]; rfl
  simp only [Ingestion.next, phase] at stepped
  split at stepped
  · next free =>
      cases stepped
      exact
        { drawn := .refl store
          isolated :=
            { valid := isolated.valid
              groups := isolated.groups.congr rfl rfl rfl rfl rfl isolated.groups.locked
              file := by simp
              numbered := isolated.numbered
              phase := by
                refine @phaseHolds_lockNext env store _ left rfl ?_ unresolved empty
                intro line member
                simp only [List.mem_append, List.mem_singleton]
                rcases recorders line member with listed | known
                · rcases List.mem_cons.mp listed with rfl | later
                  · exact .inr (.inr rfl)
                  · exact .inl later
                · exact .inr (.inl known) }
          upload := rfl
          holds := fun resource held => by
            rw [Ingestion.mem_holds] at held ⊢
            cases resource with
            | recorder key =>
                rcases List.mem_append.mp held with known | new
                · exact .inl known
                · rw [List.mem_singleton.mp new]
                  exact .inr (.inl free)
            | file fileId => simp [Ingestion.Holding] at held
            | fileHash hash => simp [Ingestion.Holding] at held
            | _ => exact .inl held }
  · cases stepped

theorem next_groupLocks (isolated : Isolated env store ingestion)
    (phase : ingestion.phase = .groupLocks)
    (stepped : ingestion.next env isFree store = .proceeds later advanced) :
    Proceeds env isFree store ingestion later advanced := by
  have holds := isolated.phase
  unfold Ingestion.PhaseHolds at holds
  simp only [phase] at holds
  obtain ⟨recorders, keys, empty⟩ := holds
  simp only [Ingestion.next, phase] at stepped
  split at stepped
  · next free =>
      cases stepped
      exact
        { drawn := .refl store
          isolated :=
            { valid := isolated.valid
              groups := isolated.groups.congr rfl rfl rfl rfl rfl fun _ member => member
              file := by simp [Phase.fileId]
              numbered := isolated.numbered
              phase := ⟨⟨recorders, keys, fun _ member => List.mem_map_of_mem member⟩, empty⟩ }
          upload := rfl
          holds := fun resource held => by
            rw [Ingestion.mem_holds] at held ⊢
            cases resource with
            | group groupId =>
                rcases held with created | adopted | locked
                · exact .inl (.inl created)
                · exact .inl (.inr (.inl adopted))
                · exact .inr (.inl (List.all_eq_true.mp free groupId locked))
            | file fileId => simp [Ingestion.Holding, Phase.fileId] at held
            | fileHash hash => simp [Ingestion.Holding, Phase.fileId] at held
            | _ => exact .inl held }
  · cases stepped

/-- The unique hash lets one transaction insert a file. -/
theorem next_fileInsert (consistent : Consistent env done store)
    (isolated : Isolated env store ingestion) (phase : ingestion.phase = .fileInsert)
    (stepped : ingestion.next env isFree store = .proceeds later advanced) :
    Proceeds env isFree store ingestion later advanced := by
  have holds := isolated.phase
  unfold Ingestion.PhaseHolds at holds
  simp only [phase] at holds
  have drawn : Drawn store { store with nextFileId := store.nextFileId + 1 } :=
    ⟨_, _, _, rfl, le_rfl, Nat.le_succ _, le_rfl⟩
  have kept := isolated.stable consistent (drawn.within env []) (List.disjoint_nil_left _)
  simp only [Ingestion.next, phase] at stepped
  split at stepped
  · cases stepped
  · next free =>
      split at stepped
      · cases stepped
      · next unseen =>
          cases stepped
          exact
            { drawn := drawn
              isolated :=
                { valid := isolated.valid
                  groups := kept.groups.congr rfl rfl rfl rfl rfl kept.groups.locked
                  file := fun fileId inserted => by
                    cases inserted
                    exact
                      { bound := Nat.lt_succ_self _
                        fresh := fun file member =>
                          Nat.ne_of_lt (consistent.formed.fileIdBound file member)
                        unseen := fun file member same =>
                          List.find?_eq_none.mp unseen file member (decide_eq_true same) }
                  numbered := kept.numbered
                  phase := ⟨⟨holds.1.recorders, holds.1.keys, holds.1.groups⟩, holds.2⟩ }
              upload := rfl
              holds := fun resource held => by
                rw [Ingestion.mem_holds] at held ⊢
                cases resource with
                | file fileId =>
                    refine .inr (.inr ?_)
                    simpa [Ingestion.Holding, Phase.fileId, Fresh, eq_comm] using held
                | fileHash hash =>
                    obtain ⟨-, same⟩ := held
                    have sameHash : hash = ingestion.fileSha256 env := same
                    rw [sameHash]
                    exact .inr (.inl (by simpa using free))
                | _ => exact .inl held }

theorem next_eventInsert (consistent : Consistent env done store)
    (isolated : Isolated env store ingestion) {fileId : Nat} {scan : EventScan} {row : AuditEvent}
    {left : List AuditEvent} (phase : ingestion.phase = .eventInsert fileId scan row left)
    (stepped : ingestion.next env isFree store = .proceeds later advanced) :
    Proceeds env isFree store ingestion later advanced := by
  have drawn : Drawn store { store with nextEventId := store.nextEventId + 1 } :=
    ⟨_, _, _, rfl, le_rfl, le_rfl, Nat.le_succ _⟩
  have kept := isolated.stable consistent (drawn.within env []) (List.disjoint_nil_left _)
  have holds := kept.phase
  unfold Ingestion.PhaseHolds at holds
  simp only [phase] at holds
  obtain ⟨locked, scanned, inserted, split, renumbered⟩ := holds
  have hasFile : ingestion.phase.fileId = some fileId := by rw [phase]; rfl
  simp only [Ingestion.next, phase, Outcome.proceeds.injEq] at stepped
  obtain ⟨rfl, rfl⟩ := stepped
  exact
    { drawn := drawn
      isolated :=
        { valid := isolated.valid
          groups := kept.groups.congr rfl rfl rfl rfl rfl kept.groups.locked
          file := fun other same => by
            simp only [fileId_insertNext, Option.some.injEq] at same
            subst same
            have owned := kept.file fileId hasFile
            exact ⟨owned.bound, owned.fresh, owned.unseen⟩
          numbered :=
            { ascending := by
                rw [List.map_append, List.map_singleton, List.pairwise_append]
                refine ⟨isolated.numbered.ascending, List.pairwise_singleton _ _, ?_⟩
                intro eventId member last isLast
                obtain ⟨event, eventMember, rfl⟩ := List.mem_map.mp member
                rw [List.mem_singleton.mp isLast]
                exact isolated.numbered.bound event eventMember
              bound := fun event member => by
                rcases List.mem_append.mp member with old | new
                · exact kept.numbered.bound event old
                · rw [List.mem_singleton.mp new]
                  exact Nat.lt_succ_self _
              fresh := fun event member old known => by
                rcases List.mem_append.mp member with before | new
                · exact isolated.numbered.fresh event before old known
                · rw [List.mem_singleton.mp new]
                  exact Nat.ne_of_lt (consistent.formed.eventIdBound old known) }
          phase := by
            refine @phaseHolds_insertNext env _ _ fileId scan left rfl ?_ ?_ ?_
            · exact ⟨locked.recorders, locked.keys, locked.groups⟩
            · exact ⟨scanned.events, scanned.duplicateCount, scanned.groupIds⟩
            · refine ⟨inserted ++ [row], by rw [split, List.append_assoc]; rfl, ?_⟩
              exact renumbered.append (.cons rfl .nil) }
      upload := rfl
      holds := fun resource held => by
        rw [Ingestion.mem_holds] at held ⊢
        cases resource with
        | event eventId =>
            simp only [Ingestion.Holding, List.map_append, List.mem_append, List.map_singleton,
              List.mem_singleton] at held
            exact held.imp_right .inr
        | file other =>
            refine .inl ?_
            simpa [Ingestion.Holding, hasFile] using held
        | fileHash hash =>
            refine .inl ⟨?_, held.2⟩
            rw [hasFile]
            rfl
        | _ => exact .inl held }

/-- Every statement keeps what the transaction relies on. -/
theorem next_proceeds (consistent : Consistent env done store)
    (isolated : Isolated env store ingestion)
    (stepped : ingestion.next env isFree store = .proceeds later advanced) :
    Proceeds env isFree store ingestion later advanced := by
  have holds := isolated.phase
  unfold Ingestion.PhaseHolds at holds
  cases phase : ingestion.phase with
  | recorderLock engineId left => exact next_recorderLock isolated phase stepped
  | groupLookup key left lookup =>
      simp only [Ingestion.next, phase] at stepped
      exact lookUp_proceeds consistent isolated phase stepped
  | groupLocks => exact next_groupLocks isolated phase stepped
  | fileInsert => exact next_fileInsert consistent isolated phase stepped
  | duplicateRead fileId =>
      simp only [phase] at holds
      obtain ⟨locked, empty⟩ := holds
      simp only [Ingestion.next, phase, Outcome.proceeds.injEq] at stepped
      obtain ⟨rfl, rfl⟩ := stepped
      refine isolated.onward ?_ ?_
      · rw [fileId_insertNext, phase]
        rfl
      · refine @phaseHolds_insertNext env _ _ fileId _ _ rfl ?_ ⟨rfl, rfl, rfl⟩ ⟨[], rfl, ?_⟩
        · exact ⟨locked.recorders, locked.keys, locked.groups⟩
        · rw [empty]
          exact .nil
  | eventInsert fileId scan row left => exact next_eventInsert consistent isolated phase stepped
  | projection fileId scan =>
      simp only [phase] at holds
      obtain ⟨locked, scanned, renumbered⟩ := holds
      simp only [Ingestion.next, phase] at stepped
      split at stepped
      · cases stepped
      · next projections projected =>
          cases stepped
          refine isolated.onward (by rw [phase]; rfl) ?_
          refine ⟨⟨locked.recorders, locked.keys, locked.groups⟩, ?_, renumbered, projections,
            projected, fun _ _ => rfl⟩
          exact ⟨scanned.events, scanned.duplicateCount, scanned.groupIds⟩
  | rollups fileId scan projections =>
      simp only [phase] at holds
      obtain ⟨locked, scanned, renumbered, projected⟩ := holds
      simp only [Ingestion.next, phase, Outcome.proceeds.injEq] at stepped
      obtain ⟨rfl, rfl⟩ := stepped
      refine isolated.onward (by rw [phase]; rfl) ?_
      refine ⟨⟨locked.recorders, locked.keys, locked.groups⟩, ?_, renumbered, projected, rfl⟩
      exact ⟨scanned.events, scanned.duplicateCount, scanned.groupIds⟩
  | commit fileId scan projections counts =>
      simp only [Ingestion.next, phase] at stepped
      cases stepped

end Next

end Goggles
