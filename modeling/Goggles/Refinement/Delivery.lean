/-
Module: Goggles.Refinement.Delivery
Purpose: When the delivery rows kept upload by upload are those of a rebuild: the backfill check looks
  at convergence alone, so late delivery events are appended behind the ones they precede.
Trusted boundary: none beyond the modules it imports
Main exports: DeliveryAgrees, DeliveryCurrent, OrderKept, KeepsDeliveryOrder, deliveryCurrent_iff
-/
import Goggles.Projection.DeliveryOrder
import Goggles.Store.Projected

namespace Goggles

/-! ### The first known kind -/

/-- The event refers to the message with a kind that is neither blank nor `unknown`. -/
def settlesKind (messageId : Str) (event : AuditEvent) : Bool :=
  (mentionOf messageId event).any fun ref => !decide (isUnknownKind ref.artifactKind)

theorem mentionKinds_append (first second : List AuditEvent) (messageId : Str) :
    mentionKinds (first ++ second) messageId =
      mentionKinds first messageId ++ mentionKinds second messageId := by
  rw [mentionKinds, mentions, List.filterMap_append, List.map_append]
  rfl

theorem knownKind_append (first second : List Str) :
    knownKind (first ++ second) = (knownKind first).or (knownKind second) :=
  List.find?_append

/-- The first known kind is found among the events that settle it. -/
theorem knownKind_filter (events : List AuditEvent) (messageId : Str) :
    knownKind (mentionKinds (events.filter (settlesKind messageId)) messageId) =
      knownKind (mentionKinds events messageId) := by
  induction events with
  | nil => rfl
  | cons event rest inductionHypothesis =>
      cases found : mentionOf messageId event with
      | none =>
          rw [List.filter_cons_of_neg (by simp [settlesKind, found]), inductionHypothesis]
          simp [mentionKinds, mentions, found]
      | some ref =>
          by_cases known : isUnknownKind ref.artifactKind
          · rw [List.filter_cons_of_neg (by simp [settlesKind, found, known]), inductionHypothesis]
            simp [mentionKinds, mentions, found, knownKind, known]
          · rw [List.filter_cons_of_pos (by simp [settlesKind, found, known])]
            simp [mentionKinds, mentions, found, knownKind, known]

/-- No kind is known exactly when no event settles it. -/
theorem knownKind_eq_none_iff {events : List AuditEvent} {messageId : Str} :
    knownKind (mentionKinds events messageId) = none ↔
      events.filter (settlesKind messageId) = [] := by
  constructor
  · intro unknown
    apply List.filter_eq_nil_iff.mpr
    intro event member settles
    cases found : mentionOf messageId event with
    | none => simp [settlesKind, found] at settles
    | some ref =>
        have listed : ref.artifactKind ∈ mentionKinds events messageId := by
          apply List.mem_map.mpr
          refine ⟨(event, ref), ?_, rfl⟩
          apply List.mem_filterMap.mpr
          exact ⟨event, member, by rw [found, Option.map_some]⟩
        have noneKnown := List.find?_eq_none.mp unknown ref.artifactKind listed
        rw [settlesKind, found, Option.any_some] at settles
        simp only [decide_not, Bool.not_eq_true'] at noneKnown settles
        exact absurd settles noneKnown
  · intro nothing
    rw [← knownKind_filter, nothing]
    rfl

/-! ### One upload of a group -/

/-- The new events of a group fit behind the stored ones: an engine's new events about a message come
after its stored ones, and a kind the stored events settle is still the first known one. -/
structure OrderKept (old new : List AuditEvent) : Prop where
  engines : ∀ stored ∈ old, ∀ fresh ∈ new, stored.engineId = fresh.engineId →
    ∀ messageId, (mentionOf messageId stored).isSome = true →
      (mentionOf messageId fresh).isSome = true → eventOrderKey stored ≤ eventOrderKey fresh
  kinds : ∀ messageId kind,
    knownKind (mentionKinds (inOrder eventOrderKey old) messageId) = some kind →
      knownKind (mentionKinds (inOrder eventOrderKey (old ++ new)) messageId) = some kind

section Extend

variable {old new projected : List AuditEvent}

theorem observationsBy_append (first second : List AuditEvent) (messageId engineId : Str) :
    observationsBy (first ++ second) messageId engineId =
      observationsBy first messageId engineId ++ observationsBy second messageId engineId :=
  List.filter_append first second

theorem observationsBy_inOrder {events : List AuditEvent}
    (distinct : Distinguishes eventOrderKey events) (messageId engineId : Str) :
    observationsBy (inOrder eventOrderKey events) messageId engineId =
      inOrder eventOrderKey (observationsBy events messageId engineId) :=
  inOrder_filter distinct _

theorem observations_extend_iff (distinct : Distinguishes eventOrderKey (old ++ new))
    (messageId engineId : Str)
    (same : observationsBy projected messageId engineId =
      observationsBy (inOrder eventOrderKey old) messageId engineId) :
    observationsBy (projected ++ inOrder eventOrderKey new) messageId engineId =
        observationsBy (inOrder eventOrderKey (old ++ new)) messageId engineId ↔
      ∀ stored ∈ observationsBy old messageId engineId,
        ∀ fresh ∈ observationsBy new messageId engineId,
          eventOrderKey stored ≤ eventOrderKey fresh := by
  have oldDistinct : Distinguishes eventOrderKey old :=
    distinct.subset (List.subset_append_left old new)
  have newDistinct : Distinguishes eventOrderKey new :=
    distinct.subset (List.subset_append_right old new)
  have bothDistinct : Distinguishes eventOrderKey
      (observationsBy old messageId engineId ++ observationsBy new messageId engineId) := by
    rw [← observationsBy_append]
    exact distinct.subset (List.filter_subset_self _)
  rw [observationsBy_append, same, observationsBy_inOrder oldDistinct,
    observationsBy_inOrder newDistinct, observationsBy_inOrder distinct, observationsBy_append]
  constructor
  · intro split
    exact apart_of_inOrder_append split.symm
  · intro apart
    exact (inOrder_append bothDistinct apart).symm

theorem kinds_extend_iff (distinct : Distinguishes eventOrderKey (old ++ new)) (messageId : Str)
    (same : knownKind (mentionKinds projected messageId) =
      knownKind (mentionKinds (inOrder eventOrderKey old) messageId)) :
    knownKind (mentionKinds (projected ++ inOrder eventOrderKey new) messageId) =
        knownKind (mentionKinds (inOrder eventOrderKey (old ++ new)) messageId) ↔
      ∀ kind, knownKind (mentionKinds (inOrder eventOrderKey old) messageId) = some kind →
        knownKind (mentionKinds (inOrder eventOrderKey (old ++ new)) messageId) = some kind := by
  rw [mentionKinds_append, knownKind_append, same]
  cases settled : knownKind (mentionKinds (inOrder eventOrderKey old) messageId) with
  | some kind =>
      rw [Option.some_or]
      constructor
      · rintro kept _ ⟨⟩
        exact kept.symm
      · intro kept
        exact (kept kind rfl).symm
  | none =>
      -- the stored events settle nothing, so only new events count, in the same order
      have newDistinct : Distinguishes eventOrderKey new :=
        distinct.subset (List.subset_append_right old new)
      have noneOld : old.filter (settlesKind messageId) = [] := by
        have none_sorted := knownKind_eq_none_iff.mp settled
        apply List.filter_eq_nil_iff.mpr
        intro event member
        exact List.filter_eq_nil_iff.mp none_sorted event (mem_inOrder.mpr member)
      have sameNew : knownKind (mentionKinds (inOrder eventOrderKey (old ++ new)) messageId) =
          knownKind (mentionKinds (inOrder eventOrderKey new) messageId) := by
        rw [← knownKind_filter, inOrder_filter distinct, List.filter_append, noneOld,
          List.nil_append, ← inOrder_filter newDistinct, knownKind_filter]
      rw [Option.none_or, sameNew]
      simp

/-- Appending the new events in order to a sequence that agrees with the stored ones in order agrees
with all of them in order exactly when the new events fit behind the stored ones. -/
theorem extended_same_iff (sound : SoundEvents (old ++ new))
    (ids : ((old ++ new).map (·.id)).Nodup) (perm : projected.Perm old)
    (same : (deliveryOf projected).Same (deliveryOf (inOrder eventOrderKey old))) :
    (deliveryOf (projected ++ inOrder eventOrderKey new)).Same
        (deliveryOf (inOrder eventOrderKey (old ++ new))) ↔ OrderKept old new := by
  have distinct := eventOrderKey_distinguishes ids
  have wholePerm : (projected ++ inOrder eventOrderKey new).Perm (old ++ new) :=
    perm.append (perm_inOrder eventOrderKey new)
  have projectedSound : SoundEvents projected := fun event member =>
    sound event (List.mem_append_left _ (perm.mem_iff.mp member))
  have projectedIds : (projected.map (·.id)).Nodup :=
    (perm.map _).nodup_iff.mpr (ids.sublist ((List.sublist_append_left old new).map _))
  obtain ⟨sameOrder, sameKinds⟩ := (deliveryOf_same_iff
    (perm.trans (perm_inOrder eventOrderKey old).symm) projectedSound projectedIds).mp same
  rw [deliveryOf_same_iff (wholePerm.trans (perm_inOrder eventOrderKey _).symm)
    (fun event member => sound event (wholePerm.mem_iff.mp member))
    ((wholePerm.map _).nodup_iff.mpr ids)]
  constructor
  · rintro ⟨order, kinds⟩
    refine ⟨?_, ?_⟩
    · intro stored storedMember fresh freshMember engine messageId storedMentions freshMentions
      have apart := (observations_extend_iff distinct messageId fresh.engineId
        (sameOrder messageId fresh.engineId)).mp (order messageId fresh.engineId)
      apply apart
      · exact List.mem_filter.mpr ⟨storedMember, by simp [engine, storedMentions]⟩
      · exact List.mem_filter.mpr ⟨freshMember, by simp [freshMentions]⟩
    · intro messageId kind settled
      exact (kinds_extend_iff distinct messageId (sameKinds messageId)).mp (kinds messageId) kind
        settled
  · intro kept
    refine ⟨?_, ?_⟩
    · intro messageId engineId
      apply (observations_extend_iff distinct messageId engineId (sameOrder messageId engineId)).mpr
      intro stored storedMember fresh freshMember
      obtain ⟨storedIn, storedFacts⟩ := List.mem_filter.mp storedMember
      obtain ⟨freshIn, freshFacts⟩ := List.mem_filter.mp freshMember
      rw [Bool.and_eq_true, decide_eq_true_eq] at storedFacts freshFacts
      exact kept.engines stored storedIn fresh freshIn (storedFacts.1.trans freshFacts.1.symm)
        messageId storedFacts.2 freshFacts.2
    · intro messageId
      apply (kinds_extend_iff distinct messageId (sameKinds messageId)).mpr
      exact kept.kinds messageId

end Extend

/-! ### The property and its condition -/

/-- The delivery rows of a group are those a rebuild makes from the stored events; in particular the
latest state of an observation is that of the engine's last event about the message. -/
structure DeliveryAgrees (events : List AuditEvent) (groupId : Nat) (tables : DeliveryTables) :
    Prop where
  same : tables.Same (rebuiltDelivery events groupId)
  rebuilt : ∀ rows, rebuildGroup events groupId = some rows → tables.Same rows.delivery
  latest : ∀ messageId engineId row, tables.observations.find (messageId, engineId) = some row →
    (observationsBy (inOrder eventOrderKey (validGroupEvents events groupId)) messageId
      engineId).getLast?.map deliveryStateForEvent = some row.latestState

/-- The delivery rows of every group are those of a rebuild. -/
def DeliveryCurrent (store : Store) : Prop :=
  ∀ groupId, DeliveryAgrees store.events groupId (store.projections groupId).delivery

/-- In every group that is not rebuilt, the events an upload stores fit behind the stored ones. -/
def KeepsDeliveryOrder (env : Env) (store : Store) (upload : Upload) : Prop :=
  ∀ rawText lines next, StoredUpload env store upload rawText lines next → ∀ groupId,
    ¬ NeedsBackfill (store.groupEvents groupId)
        (uploadGroupEvents env store upload lines groupId) →
      OrderKept (store.groupEvents groupId) (uploadGroupEvents env store upload lines groupId)

theorem deliveryAgrees_iff {events : List AuditEvent} {groupId : Nat} {tables : DeliveryTables}
    (sound : SoundEvents (validGroupEvents events groupId)) :
    DeliveryAgrees events groupId tables ↔ tables.Same (rebuiltDelivery events groupId) := by
  constructor
  · intro agrees
    exact agrees.same
  · intro same
    refine ⟨same, ?_, ?_⟩
    · intro rows rebuilt
      rw [rebuildGroup_delivery rebuilt]
      exact same
    · intro messageId engineId row found
      have sortedSound : SoundEvents
          (inOrder eventOrderKey (validGroupEvents events groupId)) := fun event member =>
        sound event (mem_inOrder.mp member)
      rw [Keyed.find_eq_of_perm same.observations, rebuiltDelivery,
        find_observations_deliveryOf sortedSound] at found
      rw [← latestState_observationOf, found, Option.map_some]
      intro event member
      exact sortedSound event (List.mem_of_mem_filter member)

/-! ### Runs -/

/-- The delivery rows of each group are those of its events in some order. -/
structure DeliveryProjected (store : Store) : Prop where
  formed : WellFormed store
  order : ∀ groupId, ∃ projected, projected.Perm (store.groupEvents groupId) ∧
    (store.projections groupId).delivery = deliveryOf projected

theorem deliveryProjected_empty : DeliveryProjected .empty where
  formed := .empty
  order := fun _ => ⟨[], .refl _, rfl⟩

section Step

variable {env : Env} {store next : Store} {upload : Upload} {rawText : Str}
  {lines : List ParsedLine}

/-- The order in which an appended file leaves a group's events projected. -/
theorem FileAppended.delivery_order {file : AuditFile} {new : List AuditEvent}
    (appended : FileAppended store file new next) (groupId : Nat) {projected : List AuditEvent}
    (shown : (store.projections groupId).delivery = deliveryOf projected) :
    (NeedsBackfill (store.groupEvents groupId) (validGroupEvents new groupId) ∧
        (next.projections groupId).delivery = rebuiltDelivery next.events groupId) ∨
      (¬ NeedsBackfill (store.groupEvents groupId) (validGroupEvents new groupId) ∧
        (next.projections groupId).delivery =
          deliveryOf (projected ++ inOrder eventOrderKey (validGroupEvents new groupId))) := by
  rcases appended.projected_group groupId with ⟨needed, rebuilt⟩ | ⟨notNeeded, extended⟩
  · exact .inl ⟨needed, rebuildGroup_delivery rebuilt⟩
  · obtain ⟨final, replayed, same⟩ := extended.replayed
    refine .inr ⟨notNeeded, ?_⟩
    rw [same, delivery_replay replayed, shown, deliveryOf, deliveryOf, List.foldl_append]

/-- The order in which a stored upload leaves a group's events projected. -/
theorem StoredUpload.delivery_order (formed : WellFormed store)
    (stored : StoredUpload env store upload rawText lines next) (groupId : Nat)
    {projected : List AuditEvent}
    (shown : (store.projections groupId).delivery = deliveryOf projected) :
    (NeedsBackfill (store.groupEvents groupId) (uploadGroupEvents env store upload lines groupId) ∧
        (next.projections groupId).delivery = rebuiltDelivery next.events groupId) ∨
      (¬ NeedsBackfill (store.groupEvents groupId)
          (uploadGroupEvents env store upload lines groupId) ∧
        (next.projections groupId).delivery =
          deliveryOf (projected ++
            inOrder eventOrderKey (uploadGroupEvents env store upload lines groupId))) :=
  (stored.appended formed).delivery_order groupId shown

/-- The delivery rows of every group are those of its events in some order. -/
def DeliveryOrdered (store : Store) : Prop :=
  ∀ groupId, ∃ projected, projected.Perm (store.groupEvents groupId) ∧
    (store.projections groupId).delivery = deliveryOf projected

theorem DeliveryOrdered.appended (ordered : DeliveryOrdered store) {file : AuditFile}
    {new : List AuditEvent} (appended : FileAppended store file new next) :
    DeliveryOrdered next := by
  intro groupId
  obtain ⟨order, perm, shown⟩ := ordered groupId
  rw [appended.groupEvents_next groupId]
  rcases appended.delivery_order groupId shown with ⟨-, same⟩ | ⟨-, same⟩
  · refine ⟨_, ?_, same⟩
    rw [← appended.groupEvents_next groupId]
    exact perm_inOrder _ _
  · exact ⟨_, perm.append (perm_inOrder _ _), same⟩

theorem DeliveryProjected.afterUpload (projected : DeliveryProjected store) (env : Env)
    (upload : Upload) : DeliveryProjected (afterUpload env store upload) := by
  refine ⟨projected.formed.afterUpload env upload, ?_⟩
  rcases afterUpload_cases env store upload with ⟨rejected, same⟩ | same | ⟨rawText, lines, stored⟩
  · rw [same]
    exact projected.order
  · rw [same]
    exact projected.order
  · exact DeliveryOrdered.appended projected.order (stored.appended projected.formed)

theorem DeliveryCurrent.storedUpload_iff (projected : DeliveryProjected store)
    (current : DeliveryCurrent store)
    (stored : StoredUpload env store upload rawText lines next) :
    DeliveryCurrent next ↔ ∀ groupId,
      ¬ NeedsBackfill (store.groupEvents groupId)
          (uploadGroupEvents env store upload lines groupId) →
        OrderKept (store.groupEvents groupId)
          (uploadGroupEvents env store upload lines groupId) := by
  have formedNext := projected.formed.storedUpload stored
  rw [DeliveryCurrent]
  refine forall_congr' fun groupId => ?_
  have soundNext : SoundEvents (validGroupEvents next.events groupId) := fun event member =>
    formedNext.sound event (List.mem_of_mem_filter member)
  rw [deliveryAgrees_iff soundNext]
  obtain ⟨order, perm, shown⟩ := projected.order groupId
  have before : (deliveryOf order).Same
      (deliveryOf (inOrder eventOrderKey (store.groupEvents groupId))) :=
    shown ▸ (current groupId).same
  have split := stored.groupEvents_next groupId
  rcases stored.delivery_order projected.formed groupId shown with ⟨needed, same⟩ |
    ⟨notNeeded, same⟩
  · rw [same]
    exact iff_of_true (.refl _) fun notNeeded => absurd needed notNeeded
  · have sound : SoundEvents (store.groupEvents groupId ++
        uploadGroupEvents env store upload lines groupId) := split ▸ soundNext
    have ids : ((store.groupEvents groupId ++
        uploadGroupEvents env store upload lines groupId).map (·.id)).Nodup := by
      rw [← split]
      exact formedNext.eventIds.sublist (List.filter_sublist.map _)
    have rebuilt : rebuiltDelivery next.events groupId =
        deliveryOf (inOrder eventOrderKey (store.groupEvents groupId ++
          uploadGroupEvents env store upload lines groupId)) := by
      rw [← split]
      rfl
    rw [same, rebuilt, extended_same_iff sound ids perm before]
    exact ⟨fun kept _ => kept, fun kept => kept notNeeded⟩

end Step

/-- One upload on a store whose delivery rows are current. -/
theorem deliveryCurrent_afterUpload_iff {env : Env} {store : Store}
    (projected : DeliveryProjected store) (current : DeliveryCurrent store) (upload : Upload) :
    DeliveryCurrent (afterUpload env store upload) ↔ KeepsDeliveryOrder env store upload := by
  by_cases happened : ∃ rawText lines, StoredUpload env store upload rawText lines
      (afterUpload env store upload)
  · obtain ⟨rawText, lines, stored⟩ := happened
    rw [current.storedUpload_iff projected stored]
    constructor
    · intro kept otherText otherLines next again
      have sameLines : lines = otherLines := by
        have same := stored.valid.symm.trans again.valid
        exact (Prod.mk.inj (Except.ok.inj same)).2
      exact sameLines ▸ kept
    · intro kept
      exact kept rawText lines _ stored
  · -- nothing was stored, so neither the rows nor the events changed
    have vacuous : KeepsDeliveryOrder env store upload := by
      intro rawText lines next stored
      exact absurd ⟨rawText, lines, stored.afterUpload_eq ▸ stored⟩ happened
    refine iff_of_true ?_ vacuous
    rcases afterUpload_cases env store upload with ⟨rejected, same⟩ | same | stored
    · rw [same]
      exact current
    · rw [same]
      exact current
    · exact absurd stored happened

theorem deliveryCurrent_empty : DeliveryCurrent .empty := by
  intro groupId
  apply (deliveryAgrees_iff _).mpr
  · exact .refl _
  · intro event member
    cases member

/-- The delivery rows are those of a rebuild in every state of a run of uploads exactly when in every
upload, in every group that is not rebuilt, the new events fit behind the stored ones. -/
theorem deliveryCurrent_iff (env : Env) (uploads : List Upload) :
    AlongRun (afterUpload env) DeliveryCurrent .empty uploads ↔
      EveryStep (afterUpload env) (KeepsDeliveryOrder env) .empty uploads := by
  have preserved : ∀ store upload, DeliveryProjected store →
      DeliveryProjected (afterUpload env store upload) := by
    intro store upload projected
    exact projected.afterUpload env upload
  apply alongRun_iff preserved
  · intro store upload projected current
    exact deliveryCurrent_afterUpload_iff projected current upload
  · exact deliveryProjected_empty
  · exact deliveryCurrent_empty

/-- A record of a message an engine could not ingest, in the format of `outcomeRecord`. -/
def errorRecord (engineId : Str) (wallTimeMs : Nat) (digit : Char) : Str :=
  recordText engineId (lit "ab") wallTimeMs []
    (lit "\x7b\"type\":\"ingest_error\",\"msg_id\":\"" ++ List.replicate 64 digit.toNat ++
      lit "\",\"error_kind\":\"stale\"\x7d")

/-- Knows a failed ingest at 100 and the successful one at 200. -/
def retriedEnv : Env :=
  digestEnv
    [(outcomeRecord (lit "e") 200 [] 'a',
        lit "73354573078d911a7d3a906f37fa4cab" ++ lit "98f8789a6a7c230e8f87c4e991249555"),
      (errorRecord (lit "e") 100 'a',
        lit "77078ad74c093963e3ca072b680de71f" ++ lit "df222d82ee73109ac88a59236e54954e")]

/-- The later record arrives first. -/
def retriedUploads : List Upload :=
  [uploadOf [outcomeRecord (lit "e") 200 [] 'a'], uploadOf [errorRecord (lit "e") 100 'a']]

/-- The state left behind is that of the upload that came last, not of the event that did. -/
theorem deliveryCurrent_fails_retriedUploads :
    let store := run (afterUpload retriedEnv) .empty retriedUploads
    (store.projections 1).delivery.observations.entries.map (·.2.latestState) =
        [lit "ingest_error"] ∧
      (rebuiltDelivery store.events 1).observations.entries.map (·.2.latestState) =
        [lit "ingest:ok"] ∧
      ¬ DeliveryCurrent store := by
  intro store
  have kept : (store.projections 1).delivery.observations.entries.map (·.2.latestState) =
      [lit "ingest_error"] := by decide +kernel
  have rebuilt : (rebuiltDelivery store.events 1).observations.entries.map (·.2.latestState) =
      [lit "ingest:ok"] := by decide +kernel
  refine ⟨kept, rebuilt, ?_⟩
  intro current
  have states := (current 1).same.observations.map (·.2.latestState)
  rw [kept, rebuilt, List.singleton_perm_singleton] at states
  exact absurd states (by decide)

end Goggles
