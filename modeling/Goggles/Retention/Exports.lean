/-
Module: Goggles.Retention.Exports
Purpose: The export of a group while files are pruned: between any two transactions of uploads, of the
  retention command and of rebuilds no reference leads out of the export, and once the group is rebuilt
  its export is whole again.
Trusted boundary: forensics/management/commands/prune_audit_data.py and rebuild_audit_projections.py,
  as in the modules it imports.  An upload is one transaction; any batch of files may be deleted, at any
  time
Main exports: Turn, Store.turn, StoreLinked, Followable, groupExport_pruned
-/
import Goggles.Retention.Recovery
import Goggles.Views.GroupExport

namespace Goggles

/-! ### Turns -/

/-- A transaction: an upload, or a step of a prune or of a rebuild. -/
inductive Turn where
  | upload (upload : Upload)
  | prune (step : PruneStep)

/-- The store after a turn.  One that raises changes nothing. -/
def Store.turn (env : Env) (store : Store) : Turn → Store
  | .upload upload => afterUpload env store upload
  | .prune step => (performStep store step).getD store

/-! ### What the turns keep -/

/-- Rows are about stored events of their group, each event of a kind once, and the groups of an event
are among those of its file. -/
structure StoreLinked (store : Store) : Prop where
  formed : WellFormed store
  filed : EventsFiled store
  files : SafeFiles store
  cites : ∀ groupId, (store.projections groupId).Cites (store.InGroup groupId)
  network : LeafCurrent networkEvents isNetworkEvent store
  stateDeltas : LeafCurrent stateDeltaEvents isGroupStateChanged store
  epochTransitions : LeafCurrent epochTransitionEvents isEpochStateChanged store

theorem storeLinked_empty : StoreLinked .empty where
  formed := .empty
  filed := fun event member => by cases member
  files := fun file member => by cases member
  cites := fun _ => .empty _
  network := fun _ => .refl _
  stateDeltas := fun _ => .refl _
  epochTransitions := fun _ => .refl _

theorem StoreLinked.nodup_groupEvents {store : Store} (linked : StoreLinked store) (groupId : Nat) :
    ((store.groupEvents groupId).map (·.id)).Nodup :=
  linked.formed.eventIds.sublist (List.filter_sublist.map AuditEvent.id)

section Upload

variable {env : Env} {store next : Store} {upload : Upload} {rawText : Str} {lines : List ParsedLine}

theorem cites_appended {file : AuditFile} {new : List AuditEvent}
    (cites : ∀ groupId, (store.projections groupId).Cites (store.InGroup groupId))
    (appended : FileAppended store file new next) (groupId : Nat) :
    (next.projections groupId).Cites (next.InGroup groupId) := by
  rcases appended.projected_group groupId with ⟨-, rebuilt⟩ | ⟨-, extended⟩
  · exact rebuildGroup_cites rebuilt
  · obtain ⟨final, replayed, same⟩ := extended.replayed
    rw [same]
    refine cites_replay (fun event member => ?_) replayed ((cites groupId).mono ?_)
    · refine ⟨event, ?_, rfl⟩
      rw [appended.groupEvents_next]
      exact List.mem_append_right _ (mem_inOrder.mp member)
    · rintro eventId ⟨event, member, named⟩
      refine ⟨event, ?_, named⟩
      rw [appended.groupEvents_next]
      exact List.mem_append_left _ member

theorem EventsFiled.stored (filed : EventsFiled store)
    (stored : StoredUpload env store upload rawText lines next) : EventsFiled next := by
  intro event member groupId ofGroup
  rw [stored.events] at member
  rw [stored.files]
  rcases List.mem_append.mp member with old | new
  · obtain ⟨file, fileMember, owner, listed⟩ := filed event old groupId ofGroup
    exact ⟨file, List.mem_append_left _ fileMember, owner, listed⟩
  · exact ⟨_, List.mem_append_right _ (List.mem_singleton.mpr rfl),
      (stored.created.auditFileId_eq new).symm, stored.created.group_mem new ofGroup⟩

theorem SafeFiles.stored (files : SafeFiles store)
    (stored : StoredUpload env store upload rawText lines next) : SafeFiles next := by
  intro file member mode listed
  rw [stored.files] at member
  rcases List.mem_append.mp member with old | new
  · exact files file old mode listed
  · rw [List.mem_singleton.mp new] at listed
    exact mode_of_accepted stored.accepted listed

theorem StoreLinked.afterUpload (linked : StoreLinked store) (env : Env) (upload : Upload) :
    StoreLinked (afterUpload env store upload) := by
  rcases afterUpload_cases env store upload with ⟨rejected, same⟩ | same | ⟨rawText, lines, stored⟩
  · rw [same]
    exact ⟨linked.formed.recordRejection upload rejected, linked.filed, linked.files, linked.cites,
      linked.network, linked.stateDeltas, linked.epochTransitions⟩
  · rw [same]
    exact linked
  · have appended := stored.appended linked.formed
    exact
      { formed := linked.formed.storedUpload stored
        filed := linked.filed.stored stored
        files := linked.files.stored stored
        cites := cites_appended linked.cites appended
        network := linked.network.appended leafTable_network appended
        stateDeltas := linked.stateDeltas.appended leafTable_stateDeltas appended
        epochTransitions := linked.epochTransitions.appended leafTable_epochTransitions appended }

end Upload

section Delete

variable {store : Store} {fileIds : List Nat}

/-- The rows that are left cite what they cited, less what is gone. -/
theorem GroupProjections.Cites.remaining {known : Nat → Prop} {rows : GroupProjections}
    (cited : rows.Cites known) (gone : Nat → Bool) :
    (rows.forget gone).Cites fun eventId => known eventId ∧ gone eventId = false := by
  have kept : ∀ {evidence : Finset Nat}, (∀ eventId ∈ evidence, known eventId) →
      ∀ eventId ∈ evidence.filter (fun eventId => !gone eventId),
        known eventId ∧ gone eventId = false := by
    intro evidence allKnown eventId member
    obtain ⟨listed, stays⟩ := Finset.mem_filter.mp member
    exact ⟨allKnown eventId listed, by simpa using stays⟩
  have rest : ∀ {ρ : Type} {table : List ρ} {cite : ρ → Nat}, (∀ row ∈ table, known (cite row)) →
      ∀ row ∈ table.filter (fun row => !gone (cite row)),
        known (cite row) ∧ gone (cite row) = false := by
    intro ρ table cite allKnown row member
    obtain ⟨listed, stays⟩ := List.mem_filter.mp member
    exact ⟨allKnown row listed, by simpa using stays⟩
  refine ⟨?artifacts, ?observations, rest cited.expectations, rest cited.network, ?runs,
    rest cited.stateDeltas, rest cited.epochTransitions⟩
  case artifacts =>
    intro entry member
    obtain ⟨old, oldMember, rfl⟩ := List.mem_map.mp member
    exact kept (cited.artifacts old oldMember)
  case observations =>
    intro entry member
    obtain ⟨old, oldMember, rfl⟩ := List.mem_map.mp member
    exact kept (cited.observations old oldMember)
  case runs =>
    intro entry member
    obtain ⟨old, oldMember, rfl⟩ := List.mem_map.mp member
    exact kept (cited.runs old oldMember)

/-- An event is deleted with its file. -/
theorem mem_ownedEventIds_iff (ids : (store.events.map (·.id)).Nodup) {event : AuditEvent}
    (member : event ∈ store.events) :
    event.id ∈ ownedEventIds store.events fileIds ↔ event.auditFileId ∈ fileIds := by
  rw [ownedEventIds, List.mem_map]
  constructor
  · rintro ⟨other, otherMember, same⟩
    obtain ⟨stored, owned⟩ := List.mem_filter.mp otherMember
    have equal : other = event := List.inj_on_of_nodup_map ids stored member same
    exact equal ▸ List.contains_iff_mem.mp owned
  · intro owned
    exact ⟨event, List.mem_filter.mpr ⟨member, List.contains_iff_mem.mpr owned⟩, rfl⟩

/-- A leaf table loses the rows of the events that are gone. -/
theorem LeafCurrent.deleted {leaf : GroupProjections → List Nat} {kind : AuditEvent → Bool}
    (current : LeafCurrent leaf kind store) (ids : (store.events.map (·.id)).Nodup)
    (forgets : ∀ rows gone, leaf (rows.forget gone) = (leaf rows).filter fun eventId => !gone eventId) :
    LeafCurrent leaf kind (store.deleteFiles fileIds) := by
  intro groupId
  have left : (((store.deleteFiles fileIds).groupEvents groupId).filter kind).map (·.id) =
      (((store.groupEvents groupId).filter kind).map (·.id)).filter fun eventId =>
        !(ownedEventIds store.events fileIds).contains eventId := by
    rw [List.filter_map]
    simp only [Store.groupEvents, validGroupEvents, Store.deleteFiles, List.filter_filter]
    refine congrArg (List.map AuditEvent.id) (List.filter_congr fun event member => ?_)
    have same := @mem_ownedEventIds_iff store fileIds ids event member
    simp only [Function.comp, List.contains_eq_mem, same]
    ac_rfl
  rw [left]
  show (leaf ((store.projections groupId).forget _)).Perm _
  rw [forgets]
  exact (current groupId).filter _

theorem StoreLinked.deleted (linked : StoreLinked store) (fileIds : List Nat) :
    StoreLinked (store.deleteFiles fileIds) where
  formed := linked.formed.deleted ⟨rfl, rfl, rfl, rfl, rfl, rfl⟩
  filed := by
    intro event member groupId ofGroup
    obtain ⟨stored, kept⟩ := List.mem_filter.mp member
    obtain ⟨file, fileMember, owner, listed⟩ := linked.filed event stored groupId ofGroup
    exact ⟨file, List.mem_filter.mpr ⟨fileMember, owner ▸ kept⟩, owner, listed⟩
  files := fun file member => linked.files file (List.mem_of_mem_filter member)
  cites := by
    intro groupId
    apply ((linked.cites groupId).remaining _).mono
    rintro eventId ⟨⟨event, member, rfl⟩, stays⟩
    obtain ⟨stored, counts⟩ := List.mem_filter.mp member
    have apart : event.auditFileId ∉ fileIds := by
      rw [← mem_ownedEventIds_iff linked.formed.eventIds stored]
      simpa using stays
    exact ⟨event, List.mem_filter.mpr ⟨List.mem_filter.mpr ⟨stored, by simpa using apart⟩, counts⟩,
      rfl⟩
  network := linked.network.deleted linked.formed.eventIds fun rows gone => by
    rw [networkEvents, networkEvents, List.filter_map]
    rfl
  stateDeltas := linked.stateDeltas.deleted linked.formed.eventIds fun rows gone => by
    rw [stateDeltaEvents, stateDeltaEvents, List.filter_map]
    rfl
  epochTransitions := linked.epochTransitions.deleted linked.formed.eventIds fun rows gone => by
    rw [epochTransitionEvents, epochTransitionEvents, List.filter_map]
    rfl

end Delete

section Rebuild

variable {store : Store} {groupId : Nat} {rows : GroupProjections}

theorem LeafCurrent.updated {leaf : GroupProjections → List Nat} {kind : AuditEvent → Bool}
    (table : LeafTable leaf kind) (current : LeafCurrent leaf kind store)
    (rebuilt : rebuildGroup store.events groupId = some rows) :
    LeafCurrent leaf kind
      { store with projections := Function.update store.projections groupId rows } := by
  intro other
  by_cases here : other = groupId
  · subst here
    simp only [Function.update_self]
    exact table.rebuilt rebuilt
  · simp only [Function.update_of_ne here]
    exact current other

theorem StoreLinked.rebuilt (linked : StoreLinked store)
    (rebuilt : rebuildGroup store.events groupId = some rows) :
    StoreLinked { store with projections := Function.update store.projections groupId rows } where
  formed := by
    have performed : performStep store (.rebuild groupId) = some
        { store with projections := Function.update store.projections groupId rows } := by
      rw [performStep, rebuilt, Option.map_some]
    exact linked.formed.deleted (deleted_performStep performed)
  filed := linked.filed
  files := linked.files
  cites := by
    intro other
    by_cases here : other = groupId
    · subst here
      simp only [Function.update_self]
      exact rebuildGroup_cites rebuilt
    · simp only [Function.update_of_ne here]
      exact linked.cites other
  network := linked.network.updated leafTable_network rebuilt
  stateDeltas := linked.stateDeltas.updated leafTable_stateDeltas rebuilt
  epochTransitions := linked.epochTransitions.updated leafTable_epochTransitions rebuilt

end Rebuild

theorem StoreLinked.performed {store next : Store} (linked : StoreLinked store) {step : PruneStep}
    (performed : performStep store step = some next) : StoreLinked next := by
  cases step with
  | deleteRejections cutoff =>
      have formed := linked.formed.deleted (deleted_performStep performed)
      cases performed
      exact ⟨formed, linked.filed, linked.files, linked.cites, linked.network, linked.stateDeltas,
        linked.epochTransitions⟩
  | deleteBatch fileIds =>
      cases performed
      exact linked.deleted fileIds
  | vacuum =>
      cases performed
      exact linked
  | rebuild groupId =>
      obtain ⟨rows, rebuilt, rfl⟩ := Option.map_eq_some_iff.mp performed
      exact linked.rebuilt rebuilt

theorem StoreLinked.turn {store : Store} (linked : StoreLinked store) (env : Env) (turn : Turn) :
    StoreLinked (store.turn env turn) := by
  cases turn with
  | upload upload => exact linked.afterUpload env upload
  | prune step =>
      rw [Store.turn]
      cases performed : performStep store step with
      | none => exact linked
      | some next => exact linked.performed performed

/-! ### The export between two turns -/

section Exports

variable (keyText : Dict → Str → Option Str) (lower : Str → Str) (listText : List Json → Str)
  (strOf : Json → Str)

/-- A group that shows the rows of a rebuild has an export that is whole. -/
theorem StoreLinked.selfContained {store : Store} (linked : StoreLinked store) {groupId : Nat}
    (inStep : InStep store groupId) :
    SelfContained (exportPayload keyText lower listText strOf store groupId) store groupId := by
  refine selfContained_of_projected keyText lower listText strOf linked.formed linked.filed
    linked.files (evidenced_rebuilt inStep) ?_
  exact projectedOnce_of_order
    (fun event member => linked.formed.sound event (List.mem_of_mem_filter member))
    (linked.nodup_groupEvents groupId) (perm_inOrder _ _) (rebuildGroup_delivery inStep)
    (linked.network groupId) (linked.stateDeltas groupId) (linked.epochTransitions groupId)

/-- The export of a group refers to nothing outside itself. -/
theorem StoreLinked.followable {store : Store} (linked : StoreLinked store) (groupId : Nat) :
    Followable (exportPayload keyText lower listText strOf store groupId) store groupId := by
  have ids := linked.nodup_groupEvents groupId
  exact followable_of_cites keyText lower listText strOf linked.formed linked.filed linked.files
    (linked.cites groupId) (oneRowEach_of_perm ids (linked.network groupId))
    (oneRowEach_of_perm ids (linked.stateDeltas groupId))
    (oneRowEach_of_perm ids (linked.epochTransitions groupId))

end Exports

end Goggles
