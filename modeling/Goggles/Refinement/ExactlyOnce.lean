/-
Module: Goggles.Refinement.ExactlyOnce
Purpose: Each stored event is projected once, whatever the uploads and their order: one leaf row for
  each event of a leaf type, and artifacts that gather exactly the events about their message.
Trusted boundary: none beyond the modules it imports
Main exports: LeafTable, OneRowEach, Gathers, ProjectedOnce, projectedOnce
-/
import Goggles.Refinement.Delivery
import Mathlib.Order.Bounds.Basic

namespace Goggles

/-! ### Leaf rows -/

/-- A table of rows that an event of a kind creates, given by the events its rows are about. -/
structure LeafTable (leaf : GroupProjections → List Nat) (kind : AuditEvent → Bool) : Prop where
  starts : leaf .empty = []
  appends : ∀ state event next, projectEvent state event = some next →
    leaf next.projections = leaf state.projections ++ if kind event then [event.id] else []

def isNetworkEvent (event : AuditEvent) : Bool := networkEventTypes.contains event.eventType

def isGroupStateChanged (event : AuditEvent) : Bool := event.eventType == lit "group_state_changed"

def networkEvents (rows : GroupProjections) : List Nat := rows.network.map (·.auditEvent)

def stateDeltaEvents (rows : GroupProjections) : List Nat := rows.stateDeltas.map (·.auditEvent)

def epochTransitionEvents (rows : GroupProjections) : List Nat :=
  rows.epochTransitions.map (·.auditEvent)

theorem leafTable_network : LeafTable networkEvents isNetworkEvent where
  starts := rfl
  appends := by
    intro state event next projected
    obtain ⟨recorder, -, rfl⟩ := projectEvent_rows projected
    rw [networkEvents, List.map_append, networkRows, isNetworkEvent]
    split <;> rfl

theorem leafTable_stateDeltas : LeafTable stateDeltaEvents isGroupStateChanged where
  starts := rfl
  appends := by
    intro state event next projected
    obtain ⟨recorder, -, rfl⟩ := projectEvent_rows projected
    rw [stateDeltaEvents, List.map_append, stateDeltaRows, isGroupStateChanged]
    by_cases changed : event.eventType = lit "group_state_changed"
    · rw [if_pos changed, if_pos (beq_iff_eq.mpr changed)]
      rfl
    · rw [if_neg changed, if_neg (by simpa using changed)]
      rfl

theorem leafTable_epochTransitions : LeafTable epochTransitionEvents isEpochStateChanged where
  starts := rfl
  appends := by
    intro state event next projected
    obtain ⟨recorder, -, rfl⟩ := projectEvent_rows projected
    rw [epochTransitionEvents, List.map_append, epochTransitionRows, isEpochStateChanged]
    by_cases changed : event.eventType = lit "epoch_state_changed"
    · rw [if_pos changed, if_pos (beq_iff_eq.mpr changed)]
      rfl
    · rw [if_neg changed, if_neg (by simpa using changed)]
      rfl

section Leaf

variable {leaf : GroupProjections → List Nat} {kind : AuditEvent → Bool}

/-- The rows of a kind after a sequence of events. -/
theorem LeafTable.replay (table : LeafTable leaf kind) {state final : GroupState}
    {events : List AuditEvent} (replayed : replay projectEvent state events = some final) :
    leaf final.projections = leaf state.projections ++ (events.filter kind).map (·.id) := by
  induction events generalizing state with
  | nil =>
      cases replayed
      simp
  | cons event rest inductionHypothesis =>
      rw [replay_cons, Option.bind_eq_some_iff] at replayed
      obtain ⟨next, stepped, rested⟩ := replayed
      rw [inductionHypothesis rested, table.appends state event next stepped, List.append_assoc]
      apply congrArg (leaf state.projections ++ ·)
      cases isKind : kind event with
      | true => simp [isKind]
      | false => simp [isKind]

/-- A rebuild starts from no rows. -/
theorem LeafTable.rebuilt (table : LeafTable leaf kind) {events : List AuditEvent} {groupId : Nat}
    {rows : GroupProjections} (rebuilt : rebuildGroup events groupId = some rows) :
    (leaf rows).Perm (((validGroupEvents events groupId).filter kind).map (·.id)) := by
  obtain ⟨final, replayed, rfl⟩ := Option.map_eq_some_iff.mp rebuilt
  have cleared : leaf GroupState.cleared.projections = [] := table.starts
  rw [table.replay replayed, cleared, List.nil_append]
  exact ((perm_inOrder _ _).filter kind).map _

/-- The rows of a kind in a store are about the stored events of that kind, each once. -/
def LeafCurrent (leaf : GroupProjections → List Nat) (kind : AuditEvent → Bool) (store : Store) :
    Prop :=
  ∀ groupId, (leaf (store.projections groupId)).Perm
    (((store.groupEvents groupId).filter kind).map (·.id))

theorem LeafCurrent.appended (table : LeafTable leaf kind) {store next : Store} {file : AuditFile}
    {new : List AuditEvent} (current : LeafCurrent leaf kind store)
    (appended : FileAppended store file new next) : LeafCurrent leaf kind next := by
  intro groupId
  rcases appended.projected_group groupId with ⟨-, rebuilt⟩ | ⟨-, extended⟩
  · exact table.rebuilt rebuilt
  · obtain ⟨final, replayed, same⟩ := extended.replayed
    rw [same, table.replay replayed, appended.groupEvents_next, List.filter_append, List.map_append]
    exact (current groupId).append (((perm_inOrder _ _).filter kind).map _)

theorem LeafCurrent.afterUpload (table : LeafTable leaf kind) {store : Store}
    (formed : WellFormed store) (current : LeafCurrent leaf kind store) (env : Env)
    (upload : Upload) : LeafCurrent leaf kind (afterUpload env store upload) := by
  rcases afterUpload_cases env store upload with ⟨rejected, same⟩ | same | ⟨rawText, lines, stored⟩
  · rw [same]
    exact current
  · rw [same]
    exact current
  · exact current.appended table (stored.appended formed)

end Leaf

/-- Exactly one row is about each event of a kind, and none about any other event. -/
structure OneRowEach (rowEvents : List Nat) (events : List AuditEvent) (kind : AuditEvent → Bool) :
    Prop where
  each : ∀ event ∈ events, kind event = true → rowEvents.count event.id = 1
  only : ∀ eventId ∈ rowEvents, ∃ event ∈ events, kind event = true ∧ event.id = eventId

theorem oneRowEach_of_perm {rowEvents : List Nat} {events : List AuditEvent}
    {kind : AuditEvent → Bool} (ids : (events.map (·.id)).Nodup)
    (perm : rowEvents.Perm ((events.filter kind).map (·.id))) :
    OneRowEach rowEvents events kind where
  each := by
    intro event member isKind
    rw [perm.count_eq]
    apply List.count_eq_one_of_mem
    · exact ids.sublist (List.filter_sublist.map AuditEvent.id)
    · exact List.mem_map_of_mem (List.mem_filter.mpr ⟨member, isKind⟩)
  only := by
    intro eventId member
    obtain ⟨event, listed, same⟩ := List.mem_map.mp (perm.mem_iff.mp member)
    obtain ⟨stored, isKind⟩ := List.mem_filter.mp listed
    exact ⟨event, stored, isKind, same⟩

theorem OneRowEach.nodup {rowEvents : List Nat} {events : List AuditEvent}
    {kind : AuditEvent → Bool} (once : OneRowEach rowEvents events kind) : rowEvents.Nodup := by
  rw [List.nodup_iff_count_le_one]
  intro eventId
  by_cases listed : eventId ∈ rowEvents
  · obtain ⟨event, member, isKind, rfl⟩ := once.only eventId listed
    exact (once.each event member isKind).le
  · rw [List.count_eq_zero_of_not_mem listed]
    exact Nat.zero_le 1

/-! ### Artifacts -/

/-- An event refers to a message. -/
def refersTo (event : AuditEvent) (messageId : Str) : Prop :=
  ∃ ref ∈ messageRefsForEvent event, ref.msgId = messageId

theorem refersTo_iff {event : AuditEvent} {messageId : Str} :
    refersTo event messageId ↔ (mentionOf messageId event).isSome = true := by
  rw [refersTo, mentionOf, List.find?_isSome]
  simp

/-- An artifact row gathers the events: its evidence are exactly these, and it was first and last seen
with the earliest and the latest of them. -/
structure Gathers (artifact : DeliveryArtifact) (events : AuditEvent → Prop) : Prop where
  evidence : ∀ eventId, eventId ∈ artifact.evidence ↔ ∃ event, events event ∧ event.id = eventId
  first : ∃ ms, artifact.firstSeenMs = some ms ∧
    IsLeast {time | ∃ event, events event ∧ event.wallTimeMs = some time} ms
  last : ∃ ms, artifact.lastSeenMs = some ms ∧
    IsGreatest {time | ∃ event, events event ∧ event.wallTimeMs = some time} ms

/-- One more reference, onto a row that gathers the earlier events. -/
theorem Gathers.next {artifact : DeliveryArtifact} {events : AuditEvent → Prop}
    (gathers : Gathers artifact events) {event : AuditEvent} {ms : Nat}
    (timed : event.wallTimeMs = some ms) (ref : MessageRef) :
    Gathers (artifactForMessage event ref (some artifact))
      (fun other => events other ∨ other = event) := by
  obtain ⟨first, firstSeen, ⟨firstEvent, firstMember, firstTimed⟩, least⟩ := gathers.first
  obtain ⟨last, lastSeen, ⟨lastEvent, lastMember, lastTimed⟩, greatest⟩ := gathers.last
  refine ⟨?_, ⟨min ms first, ?_, ?_, ?_⟩, ⟨max ms last, ?_, ?_, ?_⟩⟩
  · intro eventId
    rw [artifactForMessage, Option.getD_some]
    simp only [Finset.mem_insert, gathers.evidence]
    constructor
    · rintro (rfl | ⟨other, member, same⟩)
      · exact ⟨event, .inr rfl, rfl⟩
      · exact ⟨other, .inl member, same⟩
    · rintro ⟨other, member | rfl, same⟩
      · exact .inr ⟨other, member, same⟩
      · exact .inl same.symm
  · simp [artifactForMessage, firstSeen, timed, earlierMs]
  · rcases min_choice ms first with isNew | isOld
    · exact ⟨event, .inr rfl, by rw [timed, isNew]⟩
    · exact ⟨firstEvent, .inl firstMember, by rw [firstTimed, isOld]⟩
  · rintro time ⟨other, member | rfl, otherTimed⟩
    · exact (min_le_right _ _).trans (least ⟨other, member, otherTimed⟩)
    · rw [timed, Option.some.injEq] at otherTimed
      exact otherTimed ▸ min_le_left _ _
  · simp [artifactForMessage, lastSeen, timed, laterMs]
  · rcases max_choice ms last with isNew | isOld
    · exact ⟨event, .inr rfl, by rw [timed, isNew]⟩
    · exact ⟨lastEvent, .inl lastMember, by rw [lastTimed, isOld]⟩
  · rintro time ⟨other, member | rfl, otherTimed⟩
    · exact (greatest ⟨other, member, otherTimed⟩).trans (le_max_right _ _)
    · rw [timed, Option.some.injEq] at otherTimed
      exact otherTimed ▸ le_max_left _ _

/-- The first reference to a message. -/
theorem gathers_first {event : AuditEvent} {ms : Nat} (timed : event.wallTimeMs = some ms)
    (ref : MessageRef) : Gathers (artifactForMessage event ref none) (fun other => other = event) := by
  have only : ∀ time, (∃ other : AuditEvent, other = event ∧ other.wallTimeMs = some time) →
      time = ms := by
    rintro time ⟨other, rfl, otherTimed⟩
    rw [timed, Option.some.injEq] at otherTimed
    exact otherTimed.symm
  refine ⟨?_, ⟨ms, ?_, ⟨event, rfl, timed⟩, ?_⟩, ⟨ms, ?_, ⟨event, rfl, timed⟩, ?_⟩⟩
  · intro eventId
    simp [artifactForMessage, newArtifact, eq_comm]
  · simp [artifactForMessage, newArtifact, timed, earlierMs]
  · intro time member
    exact (only time member).ge
  · simp [artifactForMessage, newArtifact, timed, laterMs]
  · intro time member
    exact (only time member).le

theorem Gathers.congr {artifact : DeliveryArtifact} {events others : AuditEvent → Prop}
    (gathers : Gathers artifact events) (same : ∀ event, events event ↔ others event) :
    Gathers artifact others := by
  have equal : events = others := funext fun event => propext (same event)
  exact equal ▸ gathers

/-- The artifact row of a sequence of mentions gathers the events that make them. -/
theorem artifactOf_gathers {mentions : List (AuditEvent × MessageRef)}
    (timed : ∀ mention ∈ mentions, ∃ ms, mention.1.wallTimeMs = some ms)
    {artifact : DeliveryArtifact} (found : artifactOf mentions = some artifact) :
    Gathers artifact (fun event => ∃ mention ∈ mentions, mention.1 = event) := by
  induction mentions using List.reverseRecOn generalizing artifact with
  | nil => cases found
  | append_singleton front mention inductionHypothesis =>
      obtain ⟨ms, mentionTimed⟩ := timed mention (List.mem_append_right _ List.mem_cons_self)
      rw [artifactOf, List.foldl_append, List.foldl_cons, List.foldl_nil, Option.some.injEq] at found
      rw [← artifactOf] at found
      subst found
      cases before : artifactOf front with
      | none =>
          have nothing : front = [] := by
            have kind := artifactKind_artifactOf front
            rw [before] at kind
            by_contra something
            rw [if_neg something] at kind
            cases kind
          subst nothing
          apply (gathers_first mentionTimed mention.2).congr
          intro event
          simp [eq_comm]
      | some artifact =>
          have earlier := inductionHypothesis
            (fun other member => timed other (List.mem_append_left _ member)) before
          apply (earlier.next mentionTimed mention.2).congr
          intro event
          simp [or_and_right, exists_or, eq_comm]

theorem mem_mentions_iff {events : List AuditEvent} {messageId : Str} {event : AuditEvent} :
    (∃ mention ∈ mentions events messageId, mention.1 = event) ↔
      event ∈ events ∧ refersTo event messageId := by
  rw [refersTo_iff]
  constructor
  · rintro ⟨⟨found, ref⟩, member, rfl⟩
    obtain ⟨source, sourceMember, made⟩ := List.mem_filterMap.mp member
    obtain ⟨sourceRef, mentioned, same⟩ := Option.map_eq_some_iff.mp made
    cases same
    exact ⟨sourceMember, by rw [mentioned]; rfl⟩
  · rintro ⟨member, mentioned⟩
    obtain ⟨ref, found⟩ := Option.isSome_iff_exists.mp mentioned
    refine ⟨(event, ref), List.mem_filterMap.mpr ⟨event, member, ?_⟩, rfl⟩
    rw [found, Option.map_some]

/-! ### Runs -/

/-- Every stored event of a group is projected exactly once. -/
structure ProjectedOnce (events : List AuditEvent) (rows : GroupProjections) : Prop where
  network : OneRowEach (networkEvents rows) events isNetworkEvent
  stateDeltas : OneRowEach (stateDeltaEvents rows) events isGroupStateChanged
  epochTransitions : OneRowEach (epochTransitionEvents rows) events isEpochStateChanged
  artifactExists : ∀ messageId, (rows.delivery.artifacts.find messageId).isSome = true ↔
    ∃ event ∈ events, refersTo event messageId
  artifactGathers : ∀ messageId artifact, rows.delivery.artifacts.find messageId = some artifact →
    Gathers artifact (fun event => event ∈ events ∧ refersTo event messageId)

/-- What the uploads keep of the projections. -/
structure OnceInvariant (store : Store) : Prop where
  delivery : DeliveryProjected store
  network : LeafCurrent networkEvents isNetworkEvent store
  stateDeltas : LeafCurrent stateDeltaEvents isGroupStateChanged store
  epochTransitions : LeafCurrent epochTransitionEvents isEpochStateChanged store

theorem onceInvariant_empty : OnceInvariant .empty where
  delivery := deliveryProjected_empty
  network := fun _ => .refl _
  stateDeltas := fun _ => .refl _
  epochTransitions := fun _ => .refl _

theorem OnceInvariant.afterUpload {store : Store} (once : OnceInvariant store) (env : Env)
    (upload : Upload) : OnceInvariant (afterUpload env store upload) where
  delivery := once.delivery.afterUpload env upload
  network := once.network.afterUpload leafTable_network once.delivery.formed env upload
  stateDeltas := once.stateDeltas.afterUpload leafTable_stateDeltas once.delivery.formed env upload
  epochTransitions :=
    once.epochTransitions.afterUpload leafTable_epochTransitions once.delivery.formed env upload

/-- Rows that are about each event of their kind once, and deliveries of the events in some order. -/
theorem projectedOnce_of_order {events projected : List AuditEvent} {rows : GroupProjections}
    (sound : SoundEvents events) (ids : (events.map (·.id)).Nodup) (perm : projected.Perm events)
    (shown : rows.delivery = deliveryOf projected)
    (network : (networkEvents rows).Perm ((events.filter isNetworkEvent).map (·.id)))
    (stateDeltas : (stateDeltaEvents rows).Perm ((events.filter isGroupStateChanged).map (·.id)))
    (epochTransitions :
      (epochTransitionEvents rows).Perm ((events.filter isEpochStateChanged).map (·.id))) :
    ProjectedOnce events rows := by
  have gathers : ∀ messageId artifact, rows.delivery.artifacts.find messageId = some artifact →
      Gathers artifact (fun event => event ∈ events ∧ refersTo event messageId) := by
    intro messageId artifact found
    rw [shown, find_artifacts_deliveryOf] at found
    apply (artifactOf_gathers ?_ found).congr
    · intro event
      rw [mem_mentions_iff, perm.mem_iff]
    · rintro ⟨event, ref⟩ member
      have mentioned := (mem_mentions_iff.mp ⟨(event, ref), member, rfl⟩).1
      exact (sound event (perm.mem_iff.mp mentioned)).timed
  refine
    { network := oneRowEach_of_perm ids network
      stateDeltas := oneRowEach_of_perm ids stateDeltas
      epochTransitions := oneRowEach_of_perm ids epochTransitions
      artifactExists := ?_
      artifactGathers := gathers }
  intro messageId
  constructor
  · intro isSome
    obtain ⟨artifact, found⟩ := Option.isSome_iff_exists.mp isSome
    obtain ⟨ms, -, ⟨event, ⟨member, refers⟩, -⟩, -⟩ := (gathers messageId artifact found).first
    exact ⟨event, member, refers⟩
  · rintro ⟨event, member, refers⟩
    obtain ⟨mention, listed, -⟩ := mem_mentions_iff.mpr ⟨perm.mem_iff.mpr member, refers⟩
    have kind := artifactKind_artifactOf (mentions projected messageId)
    rw [if_neg (List.ne_nil_of_mem listed)] at kind
    rw [shown, find_artifacts_deliveryOf]
    obtain ⟨artifact, found, -⟩ := Option.map_eq_some_iff.mp kind
    rw [found]
    rfl

theorem OnceInvariant.projected {store : Store} (once : OnceInvariant store) (groupId : Nat) :
    ProjectedOnce (store.groupEvents groupId) (store.projections groupId) := by
  have formed := once.delivery.formed
  obtain ⟨projected, perm, shown⟩ := once.delivery.order groupId
  exact projectedOnce_of_order
    (fun event member => formed.sound event (List.mem_of_mem_filter member))
    (formed.eventIds.sublist (List.filter_sublist.map AuditEvent.id)) perm shown
    (once.network groupId) (once.stateDeltas groupId) (once.epochTransitions groupId)

/-- After every sequence of uploads, in every group: one network row for each network event, one state
delta for each change of group state, one transition for each change of epoch state; and an artifact
exactly for the messages some event refers to, which gathers exactly these events. -/
theorem projectedOnce (env : Env) (uploads : List Upload) (groupId : Nat) :
    let store := run (afterUpload env) .empty uploads
    ProjectedOnce (store.groupEvents groupId) (store.projections groupId) := by
  have preserved : ∀ store upload, OnceInvariant store →
      OnceInvariant (afterUpload env store upload) := by
    intro store upload once
    exact once.afterUpload env upload
  exact (run_invariant preserved onceInvariant_empty uploads).projected groupId

end Goggles
