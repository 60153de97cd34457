/-
Module: Goggles.Store.Groups
Purpose: Which group a key stands for in a group table, and that the answer never changes once the
  key has been resolved.
Trusted boundary: none beyond the modules it imports
Main exports: groupIdOfKey, Resolved, groupForKey_resolved, resolveGroupKeys_spec,
  uploadGroupOf_eq_some_iff
-/
import Goggles.Store.Upload

namespace Goggles

/-! ### Reading the group table -/

/-- The id of the group a key stands for: by reference, else by the slug of the reference. -/
def groupIdOfKey (env : Env) (groups : List AuditGroup) : GroupKey → Option Nat
  | .ref value =>
      (((groups.find? (·.groupRef = value)).or
        (groups.find? (·.slug = groupSlugForRef env value)))).map (·.id)
  | .slug value => (groups.find? (·.slug = value)).map (·.id)

/-- A key that names something. -/
def GroupKey.isNamed : GroupKey → Prop
  | .ref value => value ≠ []
  | .slug value => value ≠ []

theorem isNamed_of_groupKeyForParsedLine {fallbackGroupSlug : Option Str} {line : ParsedLine}
    {key : GroupKey} (found : groupKeyForParsedLine fallbackGroupSlug line = some key) :
    key.isNamed := by
  simp only [groupKeyForParsedLine] at found
  split_ifs at found with valid declared
  · cases found
    intro blank
    simp [validGroupRef, isHex, hexFullmatch, blank] at valid
  · split at found
    · cases found
      simp [GroupKey.isNamed]
    · cases found

theorem find?_create {groups : List AuditGroup} {test : AuditGroup → Bool} {group : AuditGroup}
    (missed : test group = false) : (groups ++ [group]).find? test = groups.find? test := by
  simp [List.find?_append, missed]

theorem setGroupRef_cons (group : AuditGroup) (rest : List AuditGroup) (groupId : Nat)
    (groupRef : Str) :
    setGroupRef (group :: rest) groupId groupRef =
      (if group.id = groupId then { group with groupRef := groupRef } else group) ::
        setGroupRef rest groupId groupRef := rfl

/-- Setting the reference of one group changes no slug and no id. -/
theorem find?_slug_setGroupRef (groups : List AuditGroup) (groupId : Nat) (groupRef slug : Str) :
    ((setGroupRef groups groupId groupRef).find? (·.slug = slug)).map (·.id) =
      (groups.find? (·.slug = slug)).map (·.id) := by
  induction groups with
  | nil => rfl
  | cons group rest inductionHypothesis =>
      rw [setGroupRef_cons, List.find?_cons, List.find?_cons]
      by_cases here : group.id = groupId <;> by_cases matched : group.slug = slug <;>
        simp [here, matched, inductionHypothesis]

theorem find?_ref_setGroupRef_of_ne {groups : List AuditGroup} {groupId : Nat}
    {groupRef value : Str} (other : value ≠ groupRef)
    (blank : ∀ group ∈ groups, group.id = groupId → group.groupRef ≠ value) :
    ((setGroupRef groups groupId groupRef).find? (·.groupRef = value)).map (·.id) =
      (groups.find? (·.groupRef = value)).map (·.id) := by
  induction groups with
  | nil => rfl
  | cons group rest inductionHypothesis =>
      have later := inductionHypothesis fun g member => blank g (List.mem_cons_of_mem group member)
      rw [setGroupRef_cons, List.find?_cons, List.find?_cons]
      by_cases here : group.id = groupId
      · have missed := blank group List.mem_cons_self here
        simp [here, missed, Ne.symm other, later]
      · by_cases matched : group.groupRef = value <;> simp [here, matched, later]

/-- The first group with a reference nobody had is the one that just got it. -/
theorem find?_ref_setGroupRef_self {groups : List AuditGroup} {found : AuditGroup} {groupRef : Str}
    (member : found ∈ groups) (missed : groups.find? (·.groupRef = groupRef) = none) :
    ((setGroupRef groups found.id groupRef).find? (·.groupRef = groupRef)).map (·.id) =
      some found.id := by
  induction groups with
  | nil => cases member
  | cons group rest inductionHypothesis =>
      rw [List.find?_cons] at missed
      rw [setGroupRef_cons, List.find?_cons]
      by_cases here : group.id = found.id
      · simp [here]
      · have later := (List.mem_cons.mp member).resolve_left fun same => here (same ▸ rfl)
        by_cases matched : group.groupRef = groupRef
        · simp [matched] at missed
        · simp only [matched, decide_false] at missed
          simp [here, matched, inductionHypothesis later missed]

theorem map_id_setGroupRef (groups : List AuditGroup) (groupId : Nat) (groupRef : Str) :
    (setGroupRef groups groupId groupRef).map (·.id) = groups.map (·.id) := by
  rw [setGroupRef, List.map_map]
  refine List.map_congr_left fun group _ => ?_
  simp only [Function.comp_apply]
  split <;> rfl

/-! ### Tables with distinct ids -/

/-- The group table numbers its rows from its sequence. -/
structure GroupTable.WellFormed (table : GroupTable) : Prop where
  ids : (table.groups.map (·.id)).Nodup
  bound : ∀ group ∈ table.groups, group.id < table.nextGroupId

theorem GroupTable.WellFormed.create {table : GroupTable} (formed : table.WellFormed)
    (name slug groupRef : Str) : (table.create name slug groupRef).WellFormed := by
  constructor
  · rw [GroupTable.create, List.map_append, List.map_singleton]
    refine List.nodup_append.mpr ⟨formed.ids, List.nodup_singleton _, ?_⟩
    intro left leftMember right rightMember same
    obtain ⟨group, member, rfl⟩ := List.mem_map.mp leftMember
    have below := formed.bound group member
    rw [List.mem_singleton.mp rightMember] at same
    exact absurd same (Nat.ne_of_lt below)
  · intro group member
    rcases List.mem_append.mp member with old | new
    · exact Nat.lt_succ_of_lt (formed.bound group old)
    · rw [List.mem_singleton.mp new]
      exact Nat.lt_succ_self _

theorem GroupTable.WellFormed.setRef {table : GroupTable} (formed : table.WellFormed)
    (groupId : Nat) (groupRef : Str) :
    GroupTable.WellFormed { table with groups := setGroupRef table.groups groupId groupRef } := by
  have sameIds := map_id_setGroupRef table.groups groupId groupRef
  constructor
  · rw [sameIds]
    exact formed.ids
  · intro group member
    have idMember : group.id ∈ table.groups.map (·.id) := sameIds ▸ List.mem_map_of_mem member
    obtain ⟨old, oldMember, same⟩ := List.mem_map.mp idMember
    exact same ▸ formed.bound old oldMember

/-! ### Resolving one key -/

variable {env : Env} {fallbackGroupName : Str} {table : GroupTable}

/-- A row of the table has the id and the count of this one. -/
def GroupTable.Counts (table : GroupTable) (group : AuditGroup) : Prop :=
  ∃ old ∈ table.groups, old.id = group.id ∧
    old.divergentMessageCount = group.divergentMessageCount

/-- Resolving a key: the table stays well formed, the key now stands for the returned group, and
every key that stood for a group still does, and the other rows keep their counts. -/
structure Resolved (env : Env) (table : GroupTable) (key : GroupKey)
    (result : GroupTable × Nat) : Prop where
  formed : result.1.WellFormed
  resolves : groupIdOfKey env result.1.groups key = some result.2
  stable : ∀ other : GroupKey, other.isNamed → ∀ groupId,
    groupIdOfKey env table.groups other = some groupId →
      groupIdOfKey env result.1.groups other = some groupId
  idsKept : ∀ groupId ∈ table.groups.map (·.id), groupId ∈ result.1.groups.map (·.id)
  idKnown : result.2 ∈ result.1.groups.map (·.id)
  origin : ∀ group ∈ result.1.groups, group.id = result.2 ∨ table.Counts group
  bound : table.nextGroupId ≤ result.1.nextGroupId

/-- Looking a group up changes nothing. -/
theorem Resolved.same (formed : table.WellFormed) {key : GroupKey} {found : AuditGroup}
    (member : found ∈ table.groups) (read : groupIdOfKey env table.groups key = some found.id) :
    Resolved env table key (table, found.id) :=
  ⟨formed, read, fun _ _ _ known => known, fun _ known => known, List.mem_map_of_mem member,
    fun group known => .inr ⟨group, known, rfl, rfl⟩, le_rfl⟩

/-- A new group answers for its key and takes no key away from another group. -/
theorem Resolved.created (formed : table.WellFormed) {key : GroupKey} (name slug groupRef : Str)
    (read : groupIdOfKey env (table.create name slug groupRef).groups key = some table.nextGroupId)
    (absent : table.groups.find? (·.slug = slug) = none)
    (shape : groupRef = [] ∨ slug = groupSlugForRef env groupRef) :
    Resolved env table key (table.create name slug groupRef, table.nextGroupId) where
  formed := formed.create name slug groupRef
  resolves := read
  stable := by
    intro other named groupId known
    have kept : ∀ test : AuditGroup → Bool, ∀ group, table.groups.find? test = some group →
        (table.create name slug groupRef).groups.find? test = some group := by
      intro test group found
      simp [GroupTable.create, List.find?_append, found]
    cases other with
    | slug value =>
        obtain ⟨group, found, same⟩ := Option.map_eq_some_iff.mp known
        simp only [groupIdOfKey, kept _ group found, Option.map_some, same]
    | ref value =>
        obtain ⟨group, found, same⟩ := Option.map_eq_some_iff.mp known
        rcases Option.or_eq_some_iff.mp found with byRef | ⟨noRef, bySlug⟩
        · simp only [groupIdOfKey, kept _ group byRef, Option.some_or, Option.map_some, same]
        · have notNew : groupRef ≠ value := by
            rintro rfl
            rcases shape with blank | sameSlug
            · exact named blank
            · rw [← sameSlug, absent] at bySlug
              cases bySlug
          have noRefLater : (table.create name slug groupRef).groups.find?
              (·.groupRef = value) = none := by
            rw [GroupTable.create, find?_create (by simpa using notNew), noRef]
          simp only [groupIdOfKey, noRefLater, Option.none_or, kept _ group bySlug, Option.map_some,
            same]
  idsKept := fun groupId known => by
    rw [GroupTable.create, List.map_append]
    exact List.mem_append_left _ known
  idKnown := by simp [GroupTable.create]
  origin := fun group member => by
    rcases List.mem_append.mp member with old | new
    · exact .inr ⟨group, old, rfl, rfl⟩
    · rw [List.mem_singleton.mp new]
      exact .inl rfl
  bound := Nat.le_succ _

/-- Giving a group without a reference the one its slug belongs to. -/
theorem Resolved.referenced (formed : table.WellFormed) {groupRef : Str} {found : AuditGroup}
    (byRef : table.groups.find? (·.groupRef = groupRef) = none)
    (bySlug : table.groups.find? (·.slug = groupSlugForRef env groupRef) = some found)
    (blank : found.groupRef = []) :
    Resolved env table (.ref groupRef)
      ({ table with groups := setGroupRef table.groups found.id groupRef }, found.id) := by
  have member := List.mem_of_find?_eq_some bySlug
  have now : groupIdOfKey env (setGroupRef table.groups found.id groupRef) (.ref groupRef) =
      some found.id := by
    obtain ⟨group, groupFound, same⟩ :=
      Option.map_eq_some_iff.mp (find?_ref_setGroupRef_self member byRef)
    simp only [groupIdOfKey, groupFound, Option.some_or, Option.map_some, same]
  refine
    { formed := formed.setRef found.id groupRef
      resolves := now
      stable := ?_
      idsKept := fun groupId known => map_id_setGroupRef table.groups found.id groupRef ▸ known
      idKnown := map_id_setGroupRef table.groups found.id groupRef ▸ List.mem_map_of_mem member
      origin := fun group member => by
        obtain ⟨old, oldMember, rfl⟩ := List.mem_map.mp member
        refine .inr ⟨old, oldMember, ?_⟩
        split <;> exact ⟨rfl, rfl⟩
      bound := le_rfl }
  intro other named groupId known
  cases other with
  | slug value =>
      simp only [groupIdOfKey, find?_slug_setGroupRef] at known ⊢
      exact known
  | ref value =>
      by_cases same : value = groupRef
      · subst same
        have before : groupIdOfKey env table.groups (.ref value) = some found.id := by
          simp [groupIdOfKey, byRef, bySlug]
        exact now.trans (before.symm.trans known)
      · have unnamed : ∀ group ∈ table.groups, group.id = found.id → group.groupRef ≠ value := by
          intro group groupMember sameId
          rw [List.inj_on_of_nodup_map formed.ids groupMember member sameId, blank]
          exact Ne.symm named
        have untouched := find?_ref_setGroupRef_of_ne same unnamed
        have slugs := find?_slug_setGroupRef table.groups found.id groupRef
          (groupSlugForRef env value)
        simp only [groupIdOfKey, Option.map_or] at known ⊢
        rw [untouched, slugs]
        exact known

theorem groupForRef_resolved (formed : table.WellFormed) (groupRef : Str) :
    Resolved env table (.ref groupRef) (groupForRef env table groupRef) := by
  unfold groupForRef
  cases byRef : table.groups.find? (·.groupRef = groupRef) with
  | some existing =>
      exact .same formed (List.mem_of_find?_eq_some byRef) (by simp [groupIdOfKey, byRef])
  | none =>
      simp only
      cases bySlug : table.groups.find? (·.slug = groupSlugForRef env groupRef) with
      | none =>
          refine .created formed _ _ groupRef ?_ bySlug (.inr rfl)
          simp [groupIdOfKey, GroupTable.create, List.find?_append, byRef]
      | some found =>
          simp only
          split
          · next blank => exact .referenced formed byRef bySlug blank
          · exact .same formed (List.mem_of_find?_eq_some bySlug)
              (by simp [groupIdOfKey, byRef, bySlug])

theorem groupForSlug_resolved (formed : table.WellFormed) (fallbackGroupName slug : Str) :
    Resolved env table (.slug slug) (groupForSlug env fallbackGroupName table slug) := by
  unfold groupForSlug
  cases bySlug : table.groups.find? (·.slug = slug) with
  | some found =>
      exact .same formed (List.mem_of_find?_eq_some bySlug) (by simp [groupIdOfKey, bySlug])
  | none =>
      refine .created formed _ slug [] ?_ bySlug (.inl rfl)
      simp [groupIdOfKey, GroupTable.create, List.find?_append, bySlug]

theorem groupForKey_resolved (env : Env) (formed : table.WellFormed) (fallbackGroupName : Str)
    (key : GroupKey) : Resolved env table key (groupForKey env fallbackGroupName table key) := by
  cases key with
  | ref value => exact groupForRef_resolved formed value
  | slug value => exact groupForSlug_resolved formed fallbackGroupName value

/-! ### Resolving the keys of an upload -/

/-- Resolving a list of keys: the table stays well formed, each key stands for its group at the end,
every key that stood for a group still does, and the rows no key stands for keep their counts. -/
structure ResolvedAll (env : Env) (table : GroupTable) (keys : List GroupKey)
    (result : GroupTable × List (GroupKey × Nat)) : Prop where
  formed : result.1.WellFormed
  keys : result.2.map Prod.fst = keys
  resolves : ∀ entry ∈ result.2, groupIdOfKey env result.1.groups entry.1 = some entry.2
  stable : ∀ other : GroupKey, other.isNamed → ∀ groupId,
    groupIdOfKey env table.groups other = some groupId →
      groupIdOfKey env result.1.groups other = some groupId
  idsKept : ∀ groupId ∈ table.groups.map (·.id), groupId ∈ result.1.groups.map (·.id)
  idsKnown : ∀ entry ∈ result.2, entry.2 ∈ result.1.groups.map (·.id)
  origin : ∀ group ∈ result.1.groups, group.id ∈ result.2.map Prod.snd ∨ table.Counts group
  bound : table.nextGroupId ≤ result.1.nextGroupId

theorem resolveGroupKeys_spec (formed : table.WellFormed) (fallbackGroupName : Str)
    {keys : List GroupKey} (named : ∀ key ∈ keys, key.isNamed) :
    ResolvedAll env table keys (resolveGroupKeys env fallbackGroupName table keys) := by
  induction keys generalizing table with
  | nil => exact ⟨formed, rfl, by simp [resolveGroupKeys], fun _ _ _ known => known,
      fun _ known => known, by simp [resolveGroupKeys],
      fun group known => .inr ⟨group, known, rfl, rfl⟩, le_rfl⟩
  | cons key rest inductionHypothesis =>
      have first := groupForKey_resolved env formed fallbackGroupName key
      have later := inductionHypothesis first.formed fun other member =>
        named other (List.mem_cons_of_mem key member)
      rw [resolveGroupKeys]
      exact
        { formed := later.formed
          keys := congrArg (key :: ·) later.keys
          resolves := fun entry member => by
            rcases List.mem_cons.mp member with here | there
            · rw [here]
              exact later.stable key (named key List.mem_cons_self) _ first.resolves
            · exact later.resolves entry there
          stable := fun other otherNamed groupId known =>
            later.stable other otherNamed groupId (first.stable other otherNamed groupId known)
          idsKept := fun groupId known => later.idsKept groupId (first.idsKept groupId known)
          idsKnown := fun entry member => by
            rcases List.mem_cons.mp member with here | there
            · rw [here]
              exact later.idsKept _ first.idKnown
            · exact later.idsKnown entry there
          origin := fun group member => by
            rcases later.origin group member with resolved | ⟨middle, middleMember, sameId, sameCount⟩
            · exact .inl (List.mem_cons_of_mem _ resolved)
            rcases first.origin middle middleMember with here | ⟨old, oldMember, oldId, oldCount⟩
            · rw [← sameId, here]
              exact .inl List.mem_cons_self
            · exact .inr ⟨old, oldMember, oldId.trans sameId, oldCount.trans sameCount⟩
          bound := first.bound.trans later.bound }

theorem mem_groupKeys {fallbackGroupSlug : Option Str} {lines : List ParsedLine} {key : GroupKey} :
    key ∈ groupKeys fallbackGroupSlug lines ↔
      ∃ line ∈ lines, groupKeyForParsedLine fallbackGroupSlug line = some key := by
  simp [groupKeys]

/-- The resolution of an upload's keys. -/
theorem uploadGroups_spec (env : Env) {store : Store} (upload : Upload) (lines : List ParsedLine)
    (formed : GroupTable.WellFormed ⟨store.groups, store.nextGroupId⟩) :
    ResolvedAll env ⟨store.groups, store.nextGroupId⟩ (groupKeys upload.fallbackGroupSlug lines)
      (uploadGroups env store upload lines) :=
  resolveGroupKeys_spec formed upload.fallbackGroupName fun key member => by
    obtain ⟨line, -, found⟩ := mem_groupKeys.mp member
    exact isNamed_of_groupKeyForParsedLine found

/-- A line's group is the group its key stands for in the resolved table. -/
theorem ResolvedAll.groupOfLine_eq_some_iff {fallbackGroupSlug : Option Str}
    {lines : List ParsedLine} {result : GroupTable × List (GroupKey × Nat)}
    (spec : ResolvedAll env table (groupKeys fallbackGroupSlug lines) result) {line : ParsedLine}
    (member : line ∈ lines) {groupId : Nat} :
    groupOfLine fallbackGroupSlug result.2 line = some groupId ↔
      ∃ key, groupKeyForParsedLine fallbackGroupSlug line = some key ∧
        groupIdOfKey env result.1.groups key = some groupId := by
  rw [groupOfLine, Option.bind_eq_some_iff]
  refine exists_congr fun key => and_congr_right fun found => ?_
  have listed : key ∈ result.2.map Prod.fst := by
    rw [spec.keys]
    exact mem_groupKeys.mpr ⟨line, member, found⟩
  cases entry : result.2.lookup key with
  | none =>
      obtain ⟨pair, pairMember, same⟩ := List.mem_map.mp listed
      have missed := List.lookup_eq_none_iff.mp entry pair pairMember
      simp [same] at missed
  | some resolved =>
      obtain ⟨before, after, split, -⟩ := List.lookup_eq_some_iff.mp entry
      have stands := spec.resolves (key, resolved) (by simp [split])
      rw [stands]

theorem uploadGroupOf_eq_some_iff {store : Store} {upload : Upload} {lines : List ParsedLine}
    (formed : GroupTable.WellFormed ⟨store.groups, store.nextGroupId⟩) {line : ParsedLine}
    (member : line ∈ lines) {groupId : Nat} :
    uploadGroupOf env store upload lines line = some groupId ↔
      ∃ key, groupKeyForParsedLine upload.fallbackGroupSlug line = some key ∧
        groupIdOfKey env (uploadGroups env store upload lines).1.groups key = some groupId :=
  (uploadGroups_spec env upload lines formed).groupOfLine_eq_some_iff member

/-! ### Rollups leave the groups where they are -/

theorem find?_refreshGroupRollups (groups : List AuditGroup) (events : List AuditEvent)
    (groupIds : List Nat) {test : AuditGroup → Bool}
    (blind : ∀ group count, test { group with divergentMessageCount := count } = test group) :
    ((refreshGroupRollups groups events groupIds).find? test).map (·.id) =
      (groups.find? test).map (·.id) := by
  induction groups with
  | nil => rfl
  | cons group rest inductionHypothesis =>
      have later : ((refreshGroupRollups rest events groupIds).find? test).map (·.id) =
          (rest.find? test).map (·.id) := inductionHypothesis
      have unfolded : refreshGroupRollups (group :: rest) events groupIds =
          (if group.id ∈ groupIds then
            { group with
              divergentMessageCount := divergentCount (validGroupEvents events group.id) }
          else group) :: refreshGroupRollups rest events groupIds := rfl
      rw [unfolded, List.find?_cons, List.find?_cons]
      by_cases touched : group.id ∈ groupIds
      · rw [if_pos touched, blind]
        cases test group with
        | true => rfl
        | false => exact later
      · rw [if_neg touched]
        cases test group with
        | true => rfl
        | false => exact later

@[simp] theorem groupIdOfKey_refreshGroupRollups (env : Env) (groups : List AuditGroup)
    (events : List AuditEvent) (groupIds : List Nat) (key : GroupKey) :
    groupIdOfKey env (refreshGroupRollups groups events groupIds) key =
      groupIdOfKey env groups key := by
  cases key with
  | slug value =>
      exact find?_refreshGroupRollups groups events groupIds fun _ _ => rfl
  | ref value =>
      simp only [groupIdOfKey, Option.map_or]
      rw [find?_refreshGroupRollups groups events groupIds fun _ _ => rfl,
        find?_refreshGroupRollups groups events groupIds fun _ _ => rfl]

theorem map_id_refreshGroupRollups (groups : List AuditGroup) (events : List AuditEvent)
    (groupIds : List Nat) :
    (refreshGroupRollups groups events groupIds).map (·.id) = groups.map (·.id) := by
  rw [refreshGroupRollups, List.map_map]
  refine List.map_congr_left fun group _ => ?_
  simp only [Function.comp_apply]
  split <;> rfl

/-- The group table of a store. -/
def Store.groupTable (store : Store) : GroupTable := ⟨store.groups, store.nextGroupId⟩

/-- A stored upload keeps the group table well formed. -/
theorem StoredUpload.groupTable_wellFormed {store next : Store} {upload : Upload} {rawText : Str}
    {lines : List ParsedLine} (stored : StoredUpload env store upload rawText lines next)
    (formed : store.groupTable.WellFormed) : next.groupTable.WellFormed := by
  have spec := uploadGroups_spec env upload lines formed
  constructor
  · rw [Store.groupTable, stored.groups, map_id_refreshGroupRollups]
    exact spec.formed.ids
  · intro group member
    have idMember : group.id ∈ next.groups.map (·.id) := List.mem_map_of_mem member
    rw [stored.groups, map_id_refreshGroupRollups] at idMember
    obtain ⟨old, oldMember, same⟩ := List.mem_map.mp idMember
    rw [Store.groupTable, stored.nextGroupId]
    exact same ▸ spec.formed.bound old oldMember

end Goggles
