/-
Module: Goggles.Retention.Rebuild
Purpose: The command that rebuilds projections: which groups it selects, and what it repairs, also when it
  stops after some of them.
Trusted boundary: forensics/management/commands/rebuild_audit_projections.py, but for the counts that it
  prints.  A rebuild of a group is one transaction; the options are as the parser leaves them
Main exports: RebuildOptions, selectedGroups, Store.rebuildCommand, Rebuilt, CommandRepairs,
  rebuildCommand_repairs
-/
import Goggles.Retention.Exports
import Goggles.Views.Engines

namespace Goggles

/-! ### Selecting groups -/

/-- What `objects.get` raises. -/
inductive GetError where
  | doesNotExist
  | multipleObjectsReturned
deriving Repr, DecidableEq

/-- `objects.get`. -/
def getOne {ρ : Type*} : List ρ → Except GetError ρ
  | [] => .error .doesNotExist
  | [row] => .ok row
  | _ :: _ :: _ => .error .multipleObjectsReturned

/-- What the command raises before it rebuilds anything. -/
inductive SelectionError where
  | commandError (message : Str)
  | multipleObjectsReturned
deriving Repr, DecidableEq

/-- `--group` and `--audit-file-id`, empty when not given. -/
structure RebuildOptions where
  groups : List Str
  auditFileIds : List Nat
deriving Repr, DecidableEq

/-- `groups.append(group)` for a group that is not yet seen. -/
def appendUnseen (groups : List AuditGroup) (group : AuditGroup) : List AuditGroup :=
  if (groups.map (·.id)).contains group.id then groups else groups ++ [group]

section Selection

variable (store : Store)

/-- The group with a slug, or else with a reference. -/
def groupForSelector (selector : Str) : Except SelectionError AuditGroup :=
  match getOne (store.groups.filter (·.slug = selector)) with
  | .ok group => .ok group
  | .error .multipleObjectsReturned => .error .multipleObjectsReturned
  | .error .doesNotExist =>
      match getOne (store.groups.filter (·.groupRef = selector)) with
      | .ok group => .ok group
      | .error .multipleObjectsReturned => .error .multipleObjectsReturned
      | .error .doesNotExist =>
          .error (.commandError (lit "No audit group matched one of the requested selectors."))

/-- `groups_from_selectors`. -/
def groupsFromSelectors (selectors : List Str) : Except SelectionError (List AuditGroup) :=
  selectors.foldlM (fun groups selector =>
    (groupForSelector store selector).map (appendUnseen groups)) []

/-- The groups of a file and of its events, by id. -/
def groupsOfFile (file : AuditFile) : List AuditGroup :=
  inOrder (·.id) <| store.groups.filter fun group =>
    (file.groups ∪ eventGroups store.events file.id).contains group.id

/-- `groups_from_audit_file_ids`. -/
def groupsFromAuditFileIds (auditFileIds : List Nat) : Except SelectionError (List AuditGroup) :=
  auditFileIds.foldlM (fun groups fileId =>
    match getOne (store.files.filter (·.id = fileId)) with
    | .ok file => .ok ((groupsOfFile store file).foldl appendUnseen groups)
    | .error .multipleObjectsReturned => .error .multipleObjectsReturned
    | .error .doesNotExist =>
        .error (.commandError (lit "No audit file matched one of the requested ids."))) []

/-- `groups_with_projection_evidence`. -/
def groupsWithProjectionEvidence : List AuditGroup :=
  inOrder (·.id) <| store.groups.filter fun group =>
    store.events.any fun event =>
      event.parseStatus = .valid && event.schemaVersion = SCHEMA_VERSION &&
        event.groupId = some group.id

/-- `selected_groups`. -/
def selectedGroups (options : RebuildOptions) : Except SelectionError (List AuditGroup) :=
  if options.groups ≠ [] then groupsFromSelectors store options.groups
  else if options.auditFileIds ≠ [] then groupsFromAuditFileIds store options.auditFileIds
  else .ok (groupsWithProjectionEvidence store)

end Selection

/-! ### The command -/

/-- `rebuild_group_projections` for each group, up to the first that raises; whether there was none. -/
def Store.rebuildEach (store : Store) (groups : List AuditGroup) : Store × Bool :=
  performSteps store (groups.map fun group => .rebuild group.id)

/-- `handle`, or what it has done when it stops after some groups; whether it exits successfully. -/
def Store.rebuildCommand (store : Store) (options : RebuildOptions) (stopsAfter : Option Nat) :
    Store × Bool :=
  match selectedGroups store options with
  | .error _ => (store, false)
  | .ok groups =>
      match stopsAfter with
      | none => store.rebuildEach groups
      | some count => ((store.rebuildEach (groups.take count)).1, false)

/-! ### Groups of files and events -/

/-- The groups of files are in the table, and events have the version of the schema. -/
structure Tabled (store : Store) : Prop where
  table : store.groupTable.WellFormed
  known : ∀ file ∈ store.files, ∀ groupId ∈ file.groups, groupId ∈ store.groups.map (·.id)
  versions : ∀ event ∈ store.events, event.schemaVersion = SCHEMA_VERSION

theorem tabled_empty : Tabled .empty where
  table := ⟨List.nodup_nil, fun group member => by cases member⟩
  known := fun file member => by cases member
  versions := fun event member => by cases member

theorem Tabled.afterUpload {store : Store} (tabled : Tabled store) (env : Env) (upload : Upload) :
    Tabled (afterUpload env store upload) := by
  rcases afterUpload_cases env store upload with ⟨rejected, same⟩ | same | ⟨rawText, lines, stored⟩
  · rw [same]
    exact ⟨tabled.table, tabled.known, tabled.versions⟩
  · rw [same]
    exact tabled
  · have spec := uploadGroups_spec env upload lines tabled.table
    refine ⟨stored.groupTable_wellFormed tabled.table, ?known, ?versions⟩
    case known =>
      intro file member groupId listed
      rw [stored.groups, map_id_refreshGroupRollups]
      rw [stored.files] at member
      rcases List.mem_append.mp member with old | new
      · exact spec.idsKept groupId (tabled.known file old groupId listed)
      · rw [List.mem_singleton.mp new] at listed
        obtain ⟨line, -, found⟩ := (stored.created.groups groupId).mp listed
        obtain ⟨key, -, resolved⟩ := Option.bind_eq_some_iff.mp found
        obtain ⟨before, after, split, -⟩ := List.lookup_eq_some_iff.mp resolved
        exact spec.idsKnown (key, groupId) (by simp [split])
    case versions =>
      intro event member
      rw [stored.events] at member
      rcases List.mem_append.mp member with old | new
      · exact tabled.versions event old
      · obtain ⟨line, lineMember, eventId, rfl⟩ := stored.created.origin event new
        exact eventValues_version (stored.accepted line lineMember) _ _ _

theorem Tabled.turn {store : Store} (tabled : Tabled store) (env : Env) (turn : Turn) :
    Tabled (store.turn env turn) := by
  cases turn with
  | upload upload => exact tabled.afterUpload env upload
  | prune step =>
      rw [Store.turn]
      cases performed : performStep store step with
      | none => exact tabled
      | some next =>
          have deleted := deleted_performStep performed
          refine ⟨?_, ?_, ?_⟩
          · rw [Option.getD_some, Store.groupTable, deleted.groups, deleted.nextGroupId]
            exact tabled.table
          · intro file member
            rw [Option.getD_some, deleted.files] at member
            rw [Option.getD_some, deleted.groups]
            exact tabled.known file (List.mem_of_mem_filter member)
          · intro event member
            rw [Option.getD_some, deleted.events] at member
            exact tabled.versions event (List.mem_of_mem_filter member)

/-! ### What is selected -/

section Selected

variable {store : Store}

/-- What each step keeps, a fold that succeeds keeps. -/
theorem foldlM_invariant {ε α β : Type*} (holds : β → Prop) {step : β → α → Except ε β}
    (kept : ∀ before item after, holds before → step before item = .ok after → holds after)
    {items : List α} {first last : β} (folded : items.foldlM step first = .ok last)
    (starts : holds first) : holds last := by
  induction items generalizing first with
  | nil =>
      cases folded
      exact starts
  | cons item rest inductionHypothesis =>
      rw [List.foldlM_cons] at folded
      cases stepped : step first item with
      | error failure =>
          rw [stepped] at folded
          cases folded
      | ok next =>
          rw [stepped] at folded
          exact inductionHypothesis folded (kept first item next starts stepped)

theorem nodup_appendUnseen {groups : List AuditGroup} (distinct : (groups.map (·.id)).Nodup)
    (group : AuditGroup) : ((appendUnseen groups group).map (·.id)).Nodup := by
  rw [appendUnseen]
  split
  · exact distinct
  · next unseen =>
      rw [List.contains_iff_mem] at unseen
      rw [List.map_append, List.map_singleton]
      exact distinct.append (List.nodup_singleton _) (by simpa using unseen)

theorem nodup_foldl_appendUnseen {groups more : List AuditGroup}
    (distinct : (groups.map (·.id)).Nodup) :
    ((more.foldl appendUnseen groups).map (·.id)).Nodup := by
  induction more generalizing groups with
  | nil => exact distinct
  | cons group rest inductionHypothesis =>
      exact inductionHypothesis (nodup_appendUnseen distinct group)

theorem mem_foldl_appendUnseen {groups more : List AuditGroup} {groupId : Nat} :
    groupId ∈ (more.foldl appendUnseen groups).map (·.id) ↔
      groupId ∈ groups.map (·.id) ∨ groupId ∈ more.map (·.id) := by
  induction more generalizing groups with
  | nil => simp
  | cons group rest inductionHypothesis =>
      have one : groupId ∈ (appendUnseen groups group).map (·.id) ↔
          groupId ∈ groups.map (·.id) ∨ groupId = group.id := by
        rw [appendUnseen]
        split
        · next seen =>
            rw [List.contains_iff_mem] at seen
            refine ⟨.inl, ?_⟩
            rintro (listed | rfl)
            · exact listed
            · exact seen
        · rw [List.map_append, List.mem_append, List.map_singleton, List.mem_singleton]
      rw [List.foldl_cons, inductionHypothesis, one, List.map_cons, List.mem_cons, or_assoc]

/-- A group is selected once. -/
theorem nodup_selectedGroups (tabled : Tabled store) {options : RebuildOptions}
    {groups : List AuditGroup} (selected : selectedGroups store options = .ok groups) :
    (groups.map (·.id)).Nodup := by
  rw [selectedGroups] at selected
  split at selected
  · refine foldlM_invariant (fun groups : List AuditGroup => (groups.map (·.id)).Nodup)
      (fun before selector after distinct stepped => ?_) selected List.nodup_nil
    cases found : groupForSelector store selector with
    | error failure =>
        rw [found] at stepped
        cases stepped
    | ok group =>
        rw [found] at stepped
        cases stepped
        exact nodup_appendUnseen distinct group
  · split at selected
    · refine foldlM_invariant (fun groups : List AuditGroup => (groups.map (·.id)).Nodup)
        (fun before fileId after distinct stepped => ?_) selected List.nodup_nil
      split at stepped
      · cases stepped
        exact nodup_foldl_appendUnseen distinct
      · cases stepped
      · cases stepped
    · cases selected
      refine ((perm_inOrder _ _).map _).nodup_iff.mpr ?_
      exact tabled.table.ids.sublist (List.filter_sublist.map AuditGroup.id)

/-- Without options the groups with events are selected. -/
theorem mem_groupsWithProjectionEvidence (linked : StoreLinked store) (tabled : Tabled store)
    {groupId : Nat} : groupId ∈ (groupsWithProjectionEvidence store).map (·.id) ↔
      ∃ event ∈ store.events, event.groupId = some groupId := by
  simp only [groupsWithProjectionEvidence, List.mem_map, mem_inOrder, List.mem_filter, List.any_eq_true,
    Bool.and_eq_true, decide_eq_true_eq]
  constructor
  · rintro ⟨group, ⟨-, event, member, -, ofGroup⟩, rfl⟩
    exact ⟨event, member, ofGroup⟩
  · rintro ⟨event, member, ofGroup⟩
    obtain ⟨file, fileMember, -, listed⟩ := linked.filed event member groupId ofGroup
    obtain ⟨group, isGroup, same⟩ := List.mem_map.mp (tabled.known file fileMember groupId listed)
    exact ⟨group, ⟨isGroup, event, member,
      ⟨(linked.formed.sound event member).valid, tabled.versions event member⟩, same ▸ ofGroup⟩, same⟩

/-- A file selects the groups it is in; its events are in no others. -/
theorem selectedGroups_file (linked : StoreLinked store) (tabled : Tabled store) {file : AuditFile}
    (member : file ∈ store.files) : ∃ groups, selectedGroups store ⟨[], [file.id]⟩ = .ok groups ∧
      ∀ groupId, groupId ∈ groups.map (·.id) ↔ groupId ∈ file.groups := by
  have only : store.files.filter (·.id = file.id) = [file] := by
    have same : store.files.filter (·.id = file.id) = store.files.filter (· = file) := by
      refine List.filter_congr fun other otherMember => decide_eq_decide.mpr ⟨?_, congrArg _⟩
      exact List.inj_on_of_nodup_map linked.formed.fileIds otherMember member
    rw [same, List.filter_eq, List.count_eq_one_of_mem (List.Nodup.of_map _ linked.formed.fileIds)
      member]
    rfl
  refine ⟨(groupsOfFile store file).foldl appendUnseen [], ?_, fun groupId => ?_⟩
  · rw [selectedGroups, if_neg (by simp), if_pos (by simp), groupsFromAuditFileIds, List.foldlM_cons,
      only]
    rfl
  rw [mem_foldl_appendUnseen]
  simp only [List.map_nil, List.not_mem_nil, false_or, groupsOfFile, List.mem_map, mem_inOrder,
    List.mem_filter, List.contains_iff_mem, List.mem_union_iff]
  constructor
  · rintro ⟨group, ⟨-, listed | ofEvent⟩, rfl⟩
    · exact listed
    · rw [eventGroups, List.mem_dedup, List.mem_filterMap] at ofEvent
      obtain ⟨event, eventMember, ofGroup⟩ := ofEvent
      obtain ⟨stored, owned⟩ := List.mem_filter.mp eventMember
      obtain ⟨other, otherMember, owner, listed⟩ := linked.filed event stored group.id ofGroup
      have same : other = file := List.inj_on_of_nodup_map linked.formed.fileIds otherMember member
        (owner.trans (eq_of_beq owned))
      exact same ▸ listed
  · intro listed
    obtain ⟨group, isGroup, same⟩ := List.mem_map.mp (tabled.known file member groupId listed)
    exact ⟨group, ⟨isGroup, .inl (same ▸ listed)⟩, same⟩

end Selected

/-! ### What is repaired -/

/-- Some groups show the rows of a rebuild, and nothing else has changed. -/
structure Rebuilt (store : Store) (groupIds : List Nat) (next : Store) : Prop where
  kept : next = { store with projections := next.projections }
  inStep : ∀ groupId ∈ groupIds, InStep next groupId
  others : ∀ groupId, groupId ∉ groupIds → next.projections groupId = store.projections groupId

section Rebuilds

variable {store next last : Store}

theorem Rebuilt.refl (store : Store) : Rebuilt store [] store :=
  ⟨rfl, fun _ member => absurd member List.not_mem_nil, fun _ _ => rfl⟩

theorem Rebuilt.cons {groupId : Nat} {groupIds : List Nat}
    (performed : performStep store (.rebuild groupId) = some next)
    (later : Rebuilt next groupIds last) : Rebuilt store (groupId :: groupIds) last := by
  obtain ⟨rows, rebuilt, rfl⟩ := Option.map_eq_some_iff.mp performed
  have events : last.events = store.events := by rw [later.kept]
  refine ⟨later.kept, fun other member => ?_, fun other unlisted => ?_⟩
  · by_cases again : other ∈ groupIds
    · exact later.inStep other again
    · have here : other = groupId := (List.mem_cons.mp member).resolve_right again
      subst here
      rw [InStep, events, later.others other again, rebuilt]
      simp
  · obtain ⟨differs, unlisted⟩ := not_or.mp (mt List.mem_cons.mpr unlisted)
    rw [later.others other unlisted]
    exact Function.update_of_ne differs _ _

/-- Rebuilds in turn stop at a group whose rebuild raises, or not at all. -/
theorem rebuildEach_spec (store : Store) (groups : List AuditGroup) :
    ∃ done, done <+: groups ∧ Rebuilt store (done.map (·.id)) (store.rebuildEach groups).1 ∧
      ((store.rebuildEach groups).2 = true → done = groups) := by
  induction groups generalizing store with
  | nil => exact ⟨[], List.prefix_rfl, .refl store, fun _ => rfl⟩
  | cons group rest inductionHypothesis =>
      cases performed : performStep store (.rebuild group.id) with
      | none =>
          have stops : store.rebuildEach (group :: rest) = (store, false) := by
            rw [Store.rebuildEach, List.map_cons, performSteps, performed]
          rw [stops]
          exact ⟨[], List.nil_prefix, .refl store, fun finished => by cases finished⟩
      | some next =>
          have goesOn : store.rebuildEach (group :: rest) = next.rebuildEach rest := by
            rw [Store.rebuildEach, List.map_cons, performSteps, performed]
            rfl
          obtain ⟨done, isPrefix, rebuilt, finished⟩ := inductionHypothesis next
          rw [goesOn]
          refine ⟨group :: done, (List.prefix_cons_inj group).mpr isPrefix, rebuilt.cons performed, ?_⟩
          intro succeeds
          rw [finished succeeds]

/-- Groups in step are rebuilt without a change. -/
theorem rebuildEach_of_inStep {groups : List AuditGroup}
    (inStep : ∀ group ∈ groups, InStep store group.id) :
    store.rebuildEach groups = (store, true) := by
  induction groups with
  | nil => rfl
  | cons group rest inductionHypothesis =>
      have same : performStep store (.rebuild group.id) = some store := by
        rw [performStep, inStep group List.mem_cons_self, Option.map_some, Function.update_eq_self]
      rw [Store.rebuildEach, List.map_cons, performSteps, same]
      exact inductionHypothesis fun other member => inStep other (List.mem_cons_of_mem group member)

theorem StoreLinked.rebuildEach (linked : StoreLinked store) (groups : List AuditGroup) :
    StoreLinked (store.rebuildEach groups).1 := by
  rw [Store.rebuildEach]
  generalize groups.map (fun group => PruneStep.rebuild group.id) = steps
  induction steps generalizing store with
  | nil => exact linked
  | cons step rest inductionHypothesis =>
      rw [performSteps]
      cases performed : performStep store step with
      | none => exact linked
      | some next => exact inductionHypothesis (linked.performed performed)

end Rebuilds

/-! ### The command after any history -/

section Command

variable (keyText : Dict → Str → Option Str) (lower : Str → Str) (listText : List Json → Str)
  (strOf : Json → Str)

/-- The command refuses before it changes anything, or rebuilds the first of the groups it selects, all of
them when it succeeds, and nothing else; the exports of these are whole, and those of the others refer to
nothing outside themselves.  To run it again changes nothing. -/
structure CommandRepairs (store : Store) (options : RebuildOptions) : Prop where
  refused : ∀ failure, selectedGroups store options = .error failure →
    ∀ stopsAfter, store.rebuildCommand options stopsAfter = (store, false)
  repaired : ∀ groups, selectedGroups store options = .ok groups → ∀ stopsAfter, ∃ done,
    done <+: groups ∧ ((store.rebuildCommand options stopsAfter).2 = true → done = groups) ∧
      Rebuilt store (done.map (·.id)) (store.rebuildCommand options stopsAfter).1 ∧
      ∀ group ∈ done, SelfContained
        (exportPayload keyText lower listText strOf (store.rebuildCommand options stopsAfter).1 group.id)
        (store.rebuildCommand options stopsAfter).1 group.id
  followable : ∀ stopsAfter groupId, Followable
    (exportPayload keyText lower listText strOf (store.rebuildCommand options stopsAfter).1 groupId)
    (store.rebuildCommand options stopsAfter).1 groupId
  selectsOnce : ∀ groups, selectedGroups store options = .ok groups → (groups.map (·.id)).Nodup
  again : (store.rebuildCommand options none).2 = true →
    (store.rebuildCommand options none).1.rebuildCommand options none =
      ((store.rebuildCommand options none).1, true)

variable {store : Store} {options : RebuildOptions}

/-- What is selected depends on the groups, the files and the events. -/
theorem selectedGroups_kept (store : Store) (projections : Nat → GroupProjections)
    (options : RebuildOptions) :
    selectedGroups { store with projections := projections } options =
      selectedGroups store options := rfl

/-- What the command does once it has selected the groups. -/
theorem rebuildCommand_ok {groups : List AuditGroup}
    (selected : selectedGroups store options = .ok groups) :
    store.rebuildCommand options none = store.rebuildEach groups ∧
      ∀ count, store.rebuildCommand options (some count) =
        ((store.rebuildEach (groups.take count)).1, false) := by
  unfold Store.rebuildCommand
  rw [selected]
  exact ⟨rfl, fun _ => rfl⟩

theorem rebuildCommand_error {failure : SelectionError}
    (selected : selectedGroups store options = .error failure) (stopsAfter : Option Nat) :
    store.rebuildCommand options stopsAfter = (store, false) := by
  unfold Store.rebuildCommand
  rw [selected]

theorem StoreLinked.rebuildCommand (linked : StoreLinked store) (options : RebuildOptions)
    (stopsAfter : Option Nat) : StoreLinked (store.rebuildCommand options stopsAfter).1 := by
  cases selected : selectedGroups store options with
  | error failure =>
      rw [rebuildCommand_error selected]
      exact linked
  | ok groups =>
      obtain ⟨whole, stopped⟩ := rebuildCommand_ok selected
      cases stopsAfter with
      | none =>
          rw [whole]
          exact linked.rebuildEach _
      | some count =>
          rw [stopped]
          exact linked.rebuildEach _

theorem rebuildCommand_spec {groups : List AuditGroup}
    (selected : selectedGroups store options = .ok groups) (stopsAfter : Option Nat) :
    ∃ done, done <+: groups ∧ ((store.rebuildCommand options stopsAfter).2 = true → done = groups) ∧
      Rebuilt store (done.map (·.id)) (store.rebuildCommand options stopsAfter).1 := by
  obtain ⟨whole, stopped⟩ := rebuildCommand_ok selected
  cases stopsAfter with
  | none =>
      obtain ⟨done, isPrefix, rebuilt, finished⟩ := rebuildEach_spec store groups
      rw [whole]
      exact ⟨done, isPrefix, finished, rebuilt⟩
  | some count =>
      obtain ⟨done, isPrefix, rebuilt, -⟩ := rebuildEach_spec store (groups.take count)
      rw [stopped]
      refine ⟨done, isPrefix.trans (List.take_prefix count groups), fun succeeds => ?_, rebuilt⟩
      cases succeeds

theorem commandRepairs (linked : StoreLinked store) (tabled : Tabled store) :
    CommandRepairs keyText lower listText strOf store options := by
  constructor
  case refused => exact fun failure selected => rebuildCommand_error selected
  case repaired =>
    intro groups selected stopsAfter
    obtain ⟨done, isPrefix, finished, rebuilt⟩ := rebuildCommand_spec selected stopsAfter
    refine ⟨done, isPrefix, finished, rebuilt, fun group member => ?_⟩
    exact (linked.rebuildCommand options stopsAfter).selfContained keyText lower listText strOf
      (rebuilt.inStep group.id (List.mem_map_of_mem member))
  case followable =>
    exact fun stopsAfter =>
      (linked.rebuildCommand options stopsAfter).followable keyText lower listText strOf
  case selectsOnce => exact fun groups => nodup_selectedGroups tabled
  case again =>
    intro succeeds
    cases selected : selectedGroups store options with
    | error failure =>
        rw [rebuildCommand_error selected] at succeeds
        cases succeeds
    | ok groups =>
        obtain ⟨done, -, finished, rebuilt⟩ := rebuildCommand_spec selected none
        rw [finished succeeds] at rebuilt
        generalize (store.rebuildCommand options none).1 = next at rebuilt
        have same : selectedGroups next options = .ok groups := by
          rw [rebuilt.kept, selectedGroups_kept, selected]
        rw [(rebuildCommand_ok same).1]
        exact rebuildEach_of_inStep fun group member =>
          rebuilt.inStep group.id (List.mem_map_of_mem member)

/-- After any uploads, deletions and rebuilds, the command repairs the groups it selects.  Without options
these are the groups that have events; for a file they are the groups it is in. -/
theorem rebuildCommand_repairs (env : Env) (turns : List Turn) :
    (∀ options, CommandRepairs keyText lower listText strOf (run (Store.turn env) .empty turns)
        options) ∧
      (∃ groups, selectedGroups (run (Store.turn env) .empty turns) ⟨[], []⟩ = .ok groups ∧
        ∀ groupId, groupId ∈ groups.map (·.id) ↔
          ∃ event ∈ (run (Store.turn env) .empty turns).events, event.groupId = some groupId) ∧
      ∀ file ∈ (run (Store.turn env) .empty turns).files, ∃ groups,
        selectedGroups (run (Store.turn env) .empty turns) ⟨[], [file.id]⟩ = .ok groups ∧
          ∀ groupId, groupId ∈ groups.map (·.id) ↔ groupId ∈ file.groups := by
  have linked : StoreLinked (run (Store.turn env) .empty turns) :=
    run_invariant (fun _ turn linked => linked.turn env turn) storeLinked_empty turns
  have tabled : Tabled (run (Store.turn env) .empty turns) :=
    run_invariant (fun _ turn tabled => tabled.turn env turn) tabled_empty turns
  refine ⟨fun options => commandRepairs keyText lower listText strOf linked tabled, ?_,
    fun file => selectedGroups_file linked tabled⟩
  exact ⟨_, rfl, fun groupId => mem_groupsWithProjectionEvidence linked tabled⟩

end Command

end Goggles
