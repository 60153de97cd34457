/-
Module: Goggles.Projection.DeliveryOrder
Purpose: The delivery rows as functions of the order in which the events were projected: which fields
  the order cannot change, and exactly when two orders of the same events leave the same rows.
Trusted boundary: none beyond the modules it imports
Main exports: deliveryOf, mentionOf, knownKinds, observationsBy, DeliveryTables.Same,
  deliveryOf_same_iff
-/
import Goggles.Projection.Project
import Goggles.Store.Sound

namespace Goggles

/-! ### The rows of a sequence of events -/

/-- The delivery rows after the events, from none. -/
def deliveryOf (events : List AuditEvent) : DeliveryTables :=
  events.foldl (fun tables event => projectDelivery event tables) .empty

/-- The delivery rows ignore the rest of the state. -/
theorem delivery_replay {state final : GroupState} {events : List AuditEvent}
    (replayed : replay projectEvent state events = some final) :
    final.projections.delivery =
      events.foldl (fun tables event => projectDelivery event tables)
        state.projections.delivery := by
  induction events generalizing state with
  | nil =>
      cases replayed
      rfl
  | cons event rest inductionHypothesis =>
      rw [replay_cons, Option.bind_eq_some_iff] at replayed
      obtain ⟨next, stepped, rested⟩ := replayed
      obtain ⟨recorder, -, rfl⟩ := projectEvent_rows stepped
      exact inductionHypothesis rested

/-- The delivery rows of a rebuild. -/
def rebuiltDelivery (events : List AuditEvent) (groupId : Nat) : DeliveryTables :=
  deliveryOf (inOrder eventOrderKey (validGroupEvents events groupId))

theorem rebuildGroup_delivery {events : List AuditEvent} {groupId : Nat} {rows : GroupProjections}
    (rebuilt : rebuildGroup events groupId = some rows) :
    rows.delivery = rebuiltDelivery events groupId := by
  obtain ⟨final, replayed, rfl⟩ := Option.map_eq_some_iff.mp rebuilt
  exact delivery_replay replayed

/-! ### Mentions -/

/-- The reference an event makes to a message. -/
def mentionOf (messageId : Str) (event : AuditEvent) : Option MessageRef :=
  (messageRefsForEvent event).find? (·.msgId = messageId)

/-- Message ids of a list of references are distinct. -/
def DistinctRefs (refs : List MessageRef) : Prop := (refs.map (·.msgId)).Nodup

theorem distinctRefs_addRef {refs : List MessageRef} (distinct : DistinctRefs refs)
    (msgId artifactKind : Json) : DistinctRefs (addRef refs msgId artifactKind) := by
  unfold addRef
  split
  · split
    · next identifier fresh =>
        rw [DistinctRefs, List.map_append, List.map_singleton]
        apply List.nodup_append.mpr
        refine ⟨distinct, List.nodup_singleton _, ?_⟩
        intro left leftMember right rightMember same
        obtain ⟨ref, refMember, rfl⟩ := List.mem_map.mp leftMember
        rw [List.mem_singleton.mp rightMember] at same
        exact fresh.2 ref refMember same
    · exact distinct
  · exact distinct

theorem distinctRefs_foldl {add : List MessageRef → Json → List MessageRef}
    (keeps : ∀ refs item, DistinctRefs refs → DistinctRefs (add refs item))
    {refs : List MessageRef} (distinct : DistinctRefs refs) (items : List Json) :
    DistinctRefs (items.foldl add refs) := by
  induction items generalizing refs with
  | nil => exact distinct
  | cons item rest inductionHypothesis => exact inductionHypothesis (keeps refs item distinct)

/-- An event refers to a message once. -/
theorem messageRefsForEvent_distinct (event : AuditEvent) :
    DistinctRefs (messageRefsForEvent event) := by
  unfold messageRefsForEvent
  apply distinctRefs_foldl
  · intro refs outbound distinct
    unfold addOutboundRef
    split
    · exact distinctRefs_addRef distinct _ _
    · exact distinct
  apply distinctRefs_addRef
  apply distinctRefs_addRef
  apply distinctRefs_foldl
  · intro refs item distinct
    exact distinctRefs_addRef distinct _ _
  apply distinctRefs_foldl
  · intro refs item distinct
    exact distinctRefs_addRef distinct _ _
  apply distinctRefs_addRef
  apply distinctRefs_addRef
  exact List.nodup_nil

theorem filter_refs_eq {refs : List MessageRef} (distinct : DistinctRefs refs) (messageId : Str) :
    refs.filter (·.msgId = messageId) = (refs.find? (·.msgId = messageId)).toList := by
  induction refs with
  | nil => rfl
  | cons ref rest inductionHypothesis =>
      rw [DistinctRefs, List.map_cons, List.nodup_cons] at distinct
      obtain ⟨absent, others⟩ := distinct
      by_cases mine : ref.msgId = messageId
      · have noMore : rest.filter (·.msgId = messageId) = [] := by
          apply List.filter_eq_nil_iff.mpr
          intro other member same
          exact absent (List.mem_map.mpr ⟨other, member, (of_decide_eq_true same).trans mine.symm⟩)
        simp [mine, noMore]
      · simp [mine, inductionHypothesis others]

/-- The events that mention a message, with the reference they make. -/
def mentions (events : List AuditEvent) (messageId : Str) : List (AuditEvent × MessageRef) :=
  events.filterMap fun event => (mentionOf messageId event).map fun ref => (event, ref)

/-- An engine's events that mention a message. -/
def observationsBy (events : List AuditEvent) (messageId engineId : Str) : List AuditEvent :=
  events.filter fun event => event.engineId = engineId && (mentionOf messageId event).isSome

/-! ### Artifacts -/

/-- The artifact updates of an event. -/
def artifactUpdates (event : AuditEvent) :
    List (Str × (Option DeliveryArtifact → DeliveryArtifact)) :=
  (messageRefsForEvent event).map fun ref => (ref.msgId, artifactForMessage event ref)

theorem projectArtifacts_eq (event : AuditEvent) (artifacts : Keyed Str DeliveryArtifact) :
    projectArtifacts event artifacts = artifacts.upsertAll (artifactUpdates event) := by
  rw [projectArtifacts, Keyed.upsertAll, artifactUpdates, List.foldl_map]

/-- The artifact row a sequence of mentions leaves. -/
def artifactOf (mentions : List (AuditEvent × MessageRef)) : Option DeliveryArtifact :=
  mentions.foldl (fun found mention => some (artifactForMessage mention.1 mention.2 found)) none

theorem artifacts_deliveryOf (events : List AuditEvent) :
    (deliveryOf events).artifacts = Keyed.empty.upsertAll (events.flatMap artifactUpdates) := by
  suffices general : ∀ tables : DeliveryTables,
      (events.foldl (fun tables event => projectDelivery event tables) tables).artifacts =
        tables.artifacts.upsertAll (events.flatMap artifactUpdates) from general .empty
  intro tables
  induction events generalizing tables with
  | nil => rfl
  | cons event rest inductionHypothesis =>
      rw [List.foldl_cons, inductionHypothesis, List.flatMap_cons, Keyed.upsertAll_append]
      apply congrArg (Keyed.upsertAll · _)
      exact projectArtifacts_eq event tables.artifacts

/-- The artifact of a message is what its mentions leave. -/
theorem find_artifacts_deliveryOf (events : List AuditEvent) (messageId : Str) :
    (deliveryOf events).artifacts.find messageId = artifactOf (mentions events messageId) := by
  rw [artifacts_deliveryOf, Keyed.find_upsertAll, Keyed.find_empty, artifactOf]
  have mine : (events.flatMap artifactUpdates).filter (·.1 = messageId) =
      (mentions events messageId).map fun mention =>
        (mention.2.msgId, artifactForMessage mention.1 mention.2) := by
    induction events with
    | nil => rfl
    | cons event rest inductionHypothesis =>
        have here : (artifactUpdates event).filter (·.1 = messageId) =
            ((mentionOf messageId event).toList.map fun ref =>
              (ref.msgId, artifactForMessage event ref)) := by
          rw [artifactUpdates, mentionOf, ← filter_refs_eq (messageRefsForEvent_distinct event),
            List.filter_map]
          rfl
        rw [List.flatMap_cons, List.filter_append, inductionHypothesis, here]
        cases found : mentionOf messageId event with
        | none => simp [mentions, found]
        | some ref => simp [mentions, found]
  rw [mine, List.foldl_map]

/-! ### The kind of an artifact -/

/-- The first kind that is neither blank nor `unknown`. -/
def knownKind (kinds : List Str) : Option Str := kinds.find? fun kind => ¬ isUnknownKind kind

/-- The kind a sequence of references leaves. -/
def settledKind (kinds : List Str) : Str :=
  (knownKind kinds).getD (if lit "unknown" ∈ kinds then lit "unknown" else [])

/-- The kinds a message is referred to with, in order. -/
def mentionKinds (events : List AuditEvent) (messageId : Str) : List Str :=
  (mentions events messageId).map (·.2.artifactKind)

theorem unknown_ne_nil : lit "unknown" ≠ [] := by decide

theorem settledKind_refineKind (kind next : Str) (rest : List Str) :
    settledKind (refineKind kind next :: rest) = settledKind (kind :: next :: rest) := by
  by_cases known : isUnknownKind kind
  · by_cases blank : next = []
    · subst blank
      have nothing : isUnknownKind ([] : Str) := .inl rfl
      simp [refineKind, settledKind, knownKind, known, nothing, unknown_ne_nil]
    · have replaced : refineKind kind next = next := by simp [refineKind, blank, known]
      rw [replaced]
      rcases known with rfl | rfl
      · have nothing : isUnknownKind ([] : Str) := .inl rfl
        simp [settledKind, knownKind, nothing, unknown_ne_nil]
      · have nothing : isUnknownKind (lit "unknown") := .inr rfl
        by_cases settled : isUnknownKind next
        · rcases settled with rfl | rfl
          · exact absurd rfl blank
          · simp [settledKind, knownKind, nothing]
        · simp [settledKind, knownKind, nothing, settled]
  · have kept : refineKind kind next = kind := by simp [refineKind, known]
    rw [kept]
    simp [settledKind, knownKind, known]

theorem foldl_refineKind (kind : Str) (kinds : List Str) :
    kinds.foldl (fun found next => some (refineKind (found.getD next) next)) (some kind) =
      some (settledKind (kind :: kinds)) := by
  induction kinds generalizing kind with
  | nil =>
      by_cases known : isUnknownKind kind
      · rcases known with rfl | rfl <;> decide
      · simp [settledKind, knownKind, known]
  | cons next rest inductionHypothesis =>
      rw [List.foldl_cons, Option.getD_some, inductionHypothesis, settledKind_refineKind]

/-- The kind of an artifact depends on the kinds of its references alone. -/
theorem artifactKind_artifactOf (mentions : List (AuditEvent × MessageRef)) :
    (artifactOf mentions).map (·.artifactKind) =
      if mentions = [] then none else some (settledKind (mentions.map (·.2.artifactKind))) := by
  have general : ∀ found : Option DeliveryArtifact,
      (mentions.foldl (fun found mention => some (artifactForMessage mention.1 mention.2 found))
          found).map (·.artifactKind) =
        (mentions.map (·.2.artifactKind)).foldl
          (fun found next => some (refineKind (found.getD next) next))
          (found.map (·.artifactKind)) := by
    intro found
    induction mentions generalizing found with
    | nil => rfl
    | cons mention rest inductionHypothesis =>
        rw [List.foldl_cons, inductionHypothesis, List.map_cons, List.foldl_cons]
        apply congrArg (List.foldl _ · _)
        cases found <;> rfl
  rw [artifactOf, general none]
  cases mentions with
  | nil => rfl
  | cons mention rest =>
      have first : refineKind mention.2.artifactKind mention.2.artifactKind =
          mention.2.artifactKind := by
        unfold refineKind
        split <;> rfl
      rw [List.map_cons, List.foldl_cons, if_neg (List.cons_ne_nil _ _), Option.map_none,
        Option.getD_none, first, foldl_refineKind]

theorem not_isUnknownKind_of_knownKind {kinds : List Str} {kind : Str}
    (found : knownKind kinds = some kind) : ¬ isUnknownKind kind := by
  have test := List.find?_some found
  exact of_decide_eq_true test

/-- Two arrangements of the same kinds settle on one kind exactly when the first known kind of both
is the same. -/
theorem settledKind_eq_iff {kinds others : List Str} (perm : kinds.Perm others) :
    settledKind kinds = settledKind others ↔ knownKind kinds = knownKind others := by
  have sameUnknown : lit "unknown" ∈ kinds ↔ lit "unknown" ∈ others := perm.mem_iff
  have unknownOrBlank : ∀ kinds : List Str,
      isUnknownKind (if lit "unknown" ∈ kinds then lit "unknown" else []) := by
    intro kinds
    split
    · exact .inr rfl
    · exact .inl rfl
  constructor
  · intro same
    cases left : knownKind kinds with
    | none =>
        cases right : knownKind others with
        | none => rfl
        | some kind =>
            have settled := not_isUnknownKind_of_knownKind right
            rw [settledKind, settledKind, left, right, Option.getD_none, Option.getD_some] at same
            exact absurd (same ▸ unknownOrBlank kinds) settled
    | some kind =>
        have settled := not_isUnknownKind_of_knownKind left
        cases right : knownKind others with
        | none =>
            rw [settledKind, settledKind, left, right, Option.getD_none, Option.getD_some] at same
            exact absurd (same ▸ unknownOrBlank others) settled
        | some other =>
            rw [settledKind, settledKind, left, right, Option.getD_some, Option.getD_some] at same
            rw [same]
  · intro same
    rw [settledKind, settledKind, same]
    simp only [sameUnknown]

/-! ### The other fields of an artifact -/

/-- An artifact row without its kind. -/
def eraseKind (artifact : DeliveryArtifact) : DeliveryArtifact :=
  { artifact with artifactKind := [] }

theorem earlierMs_comm (seen one two : Option Nat) :
    earlierMs (earlierMs seen one) two = earlierMs (earlierMs seen two) one := by
  cases seen <;> cases one <;> cases two <;> simp [earlierMs, Nat.min_comm, Nat.min_left_comm]

theorem laterMs_comm (seen one two : Option Nat) :
    laterMs (laterMs seen one) two = laterMs (laterMs seen two) one := by
  cases seen <;> cases one <;> cases two <;> simp [laterMs, Nat.max_comm, Nat.max_left_comm]

theorem earlierMs_start (one two : Option Nat) :
    earlierMs (earlierMs one one) two = earlierMs (earlierMs two two) one := by
  cases one <;> cases two <;> simp [earlierMs, Nat.min_comm]

theorem laterMs_start (one two : Option Nat) :
    laterMs (laterMs one one) two = laterMs (laterMs two two) one := by
  cases one <;> cases two <;> simp [laterMs, Nat.max_comm]

/-- Apart from the kind, sound events may be recorded in either order. -/
theorem eraseKind_artifactForMessage_comm {one two : AuditEvent} (oneSound : SoundEvent one)
    (twoSound : SoundEvent two) (first second : MessageRef) (found : Option DeliveryArtifact) :
    eraseKind (artifactForMessage two second (some (eraseKind (artifactForMessage one first found)))) =
      eraseKind (artifactForMessage one first
        (some (eraseKind (artifactForMessage two second found)))) := by
  have oneDecoded := oneSound.notDecoded
  have twoDecoded := twoSound.notDecoded
  have modes : one.auditDataMode = two.auditDataMode := oneSound.mode.trans twoSound.mode.symm
  cases found with
  | none =>
      simp only [eraseKind, artifactForMessage, newArtifact, Option.getD_none, Option.getD_some,
        modes, if_neg oneDecoded, if_neg twoDecoded, earlierMs_start one.wallTimeMs,
        laterMs_start one.wallTimeMs, Finset.insert_comm one.id]
  | some artifact =>
      simp only [eraseKind, artifactForMessage, Option.getD_some, modes, if_neg oneDecoded,
        if_neg twoDecoded, earlierMs_comm artifact.firstSeenMs one.wallTimeMs,
        laterMs_comm artifact.lastSeenMs one.wallTimeMs, Finset.insert_comm one.id]

theorem eraseKind_artifactOf (mentions : List (AuditEvent × MessageRef)) :
    (artifactOf mentions).map eraseKind =
      mentions.foldl (fun found mention =>
        some (eraseKind (artifactForMessage mention.1 mention.2 found))) none := by
  suffices general : ∀ found : Option DeliveryArtifact,
      (mentions.foldl (fun found mention => some (artifactForMessage mention.1 mention.2 found))
          found).map eraseKind =
        mentions.foldl (fun found mention =>
          some (eraseKind (artifactForMessage mention.1 mention.2 found)))
          (found.map eraseKind) from general none
  intro found
  induction mentions generalizing found with
  | nil => rfl
  | cons mention rest inductionHypothesis =>
      rw [List.foldl_cons, inductionHypothesis, List.foldl_cons]
      apply congrArg (List.foldl _ · _)
      cases found <;> rfl

/-- Two arrangements of the same mentions leave one artifact exactly when the first known kind of
both is the same. -/
theorem artifactOf_eq_iff {mentions others : List (AuditEvent × MessageRef)}
    (perm : mentions.Perm others) (sound : ∀ mention ∈ mentions, SoundEvent mention.1) :
    artifactOf mentions = artifactOf others ↔
      knownKind (mentions.map (·.2.artifactKind)) = knownKind (others.map (·.2.artifactKind)) := by
  have erased : (artifactOf mentions).map eraseKind = (artifactOf others).map eraseKind := by
    rw [eraseKind_artifactOf, eraseKind_artifactOf]
    apply perm.foldl_eq'
    intro one oneMember two twoMember found
    exact congrArg some (eraseKind_artifactForMessage_comm (sound one oneMember)
      (sound two twoMember) one.2 two.2 found)
  have kinds : (artifactOf mentions).map (·.artifactKind) =
      (artifactOf others).map (·.artifactKind) ↔
        knownKind (mentions.map (·.2.artifactKind)) = knownKind (others.map (·.2.artifactKind)) := by
    rw [artifactKind_artifactOf, artifactKind_artifactOf, ← settledKind_eq_iff (perm.map _)]
    by_cases nothing : mentions = []
    · subst nothing
      rw [List.nil_perm.mp perm]
      simp
    · have others_ne : others ≠ [] := by
        rintro rfl
        exact nothing (List.perm_nil.mp perm)
      simp [nothing, others_ne]
  rw [← kinds]
  constructor
  · intro same
    rw [same]
  · intro sameKind
    cases left : artifactOf mentions with
    | none =>
        cases right : artifactOf others with
        | none => rfl
        | some artifact => simp [left, right] at erased
    | some artifact =>
        cases right : artifactOf others with
        | none => simp [left, right] at erased
        | some other =>
            simp only [left, right, Option.map_some, Option.some.injEq] at erased sameKind ⊢
            have rebuilt : ∀ row : DeliveryArtifact,
                { eraseKind row with artifactKind := row.artifactKind } = row := fun row => rfl
            rw [← rebuilt artifact, erased, sameKind, rebuilt]

/-! ### Observations -/

/-- The observation updates of an event. -/
def observationUpdates (event : AuditEvent) :
    List ((Str × Str) × (Option DeliveryObservation → DeliveryObservation)) :=
  if event.engineId = [] then []
  else (messageRefsForEvent event).map fun ref =>
    ((ref.msgId, event.engineId), projectDeliveryObservation event)

theorem projectObservations_eq (event : AuditEvent)
    (observations : Keyed (Str × Str) DeliveryObservation) :
    projectObservations event observations = observations.upsertAll (observationUpdates event) := by
  rw [projectObservations, observationUpdates]
  split
  · rfl
  · rw [Keyed.upsertAll, List.foldl_map]

/-- The observation row a sequence of events leaves. -/
def observationOf (events : List AuditEvent) : Option DeliveryObservation :=
  events.foldl (fun found event => some (projectDeliveryObservation event found)) none

theorem observations_deliveryOf (events : List AuditEvent) :
    (deliveryOf events).observations =
      Keyed.empty.upsertAll (events.flatMap observationUpdates) := by
  suffices general : ∀ tables : DeliveryTables,
      (events.foldl (fun tables event => projectDelivery event tables) tables).observations =
        tables.observations.upsertAll (events.flatMap observationUpdates) from general .empty
  intro tables
  induction events generalizing tables with
  | nil => rfl
  | cons event rest inductionHypothesis =>
      rw [List.foldl_cons, inductionHypothesis, List.flatMap_cons, Keyed.upsertAll_append]
      apply congrArg (Keyed.upsertAll · _)
      exact projectObservations_eq event tables.observations

/-- The observation of a message by an engine is what the engine's mentions leave. -/
theorem find_observations_deliveryOf {events : List AuditEvent} (sound : SoundEvents events)
    (messageId engineId : Str) :
    (deliveryOf events).observations.find (messageId, engineId) =
      observationOf (observationsBy events messageId engineId) := by
  rw [observations_deliveryOf, Keyed.find_upsertAll, Keyed.find_empty, observationOf]
  have mine : (events.flatMap observationUpdates).filter (·.1 = (messageId, engineId)) =
      (observationsBy events messageId engineId).map fun event =>
        ((messageId, engineId), projectDeliveryObservation event) := by
    induction events with
    | nil => rfl
    | cons event rest inductionHypothesis =>
        have named := (sound event List.mem_cons_self).engine
        have later := inductionHypothesis fun other member =>
          sound other (List.mem_cons_of_mem event member)
        have here : (observationUpdates event).filter (·.1 = (messageId, engineId)) =
            if event.engineId = engineId then
              (mentionOf messageId event).toList.map fun ref =>
                ((ref.msgId, event.engineId), projectDeliveryObservation event)
            else [] := by
          rw [observationUpdates, if_neg named, mentionOf,
            ← filter_refs_eq (messageRefsForEvent_distinct event), List.filter_map]
          by_cases engine : event.engineId = engineId
          · rw [if_pos engine]
            apply congrArg
            apply List.filter_congr
            intro ref _
            simp [engine]
          · rw [if_neg engine, List.map_eq_nil_iff]
            apply List.filter_eq_nil_iff.mpr
            intro ref _ same
            simp [engine] at same
        rw [List.flatMap_cons, List.filter_append, later, here, observationsBy]
        by_cases engine : event.engineId = engineId
        · cases found : mentionOf messageId event with
          | none => simp [observationsBy, found, engine]
          | some ref =>
              have same : ref.msgId = messageId := by simpa using List.find?_some found
              simp [observationsBy, found, engine, same]
        · simp [observationsBy, engine]
  rw [mine, List.foldl_map]

/-- The entry an event leaves in the trail. -/
def stateEntry (event : AuditEvent) : StateEntry :=
  ⟨deliveryStateForEvent event, event.eventType, event.id, event.wallTimeMs⟩

theorem deliveryStateForEvent_ne_nil {event : AuditEvent} (sound : SoundEvent event) :
    deliveryStateForEvent event ≠ [] := by
  unfold deliveryStateForEvent
  split
  · next state => exact state.2
  · split
    · next outcome => exact List.append_ne_nil_of_right_ne_nil _ outcome.2
    · split
      · next result => exact List.append_ne_nil_of_right_ne_nil _ result.2
      · split
        · split <;> decide
        · split
          · decide
          · split
            · decide
            · split
              · decide
              · exact sound.typed

/-- The trail of an observation lists its events in the order they were projected. -/
theorem states_observationOf {events : List AuditEvent} (sound : SoundEvents events) :
    (observationOf events).map (·.states) =
      if events = [] then none else some (events.map stateEntry) := by
  have general : ∀ found : Option DeliveryObservation,
      (events.foldl (fun found event => some (projectDeliveryObservation event found)) found).map
          (·.states) =
        if events = [] then found.map (·.states)
        else some ((found.map (·.states)).getD [] ++ events.map stateEntry) := by
    intro found
    induction events generalizing found with
    | nil => rfl
    | cons event rest inductionHypothesis =>
        have occurs := deliveryStateForEvent_ne_nil (sound event List.mem_cons_self)
        have later := inductionHypothesis fun other member =>
          sound other (List.mem_cons_of_mem event member)
        have step : (projectDeliveryObservation event found).states =
            (found.map (·.states)).getD [] ++ [stateEntry event] := by
          simp only [projectDeliveryObservation, if_neg occurs]
          cases found <;> rfl
        rw [List.foldl_cons, later, if_neg (List.cons_ne_nil _ _)]
        by_cases last : rest = []
        · simp [last, step]
        · simp [last, step]
  rw [observationOf, general none]
  rfl

/-- Two arrangements of the same events leave one observation exactly when they are the same. -/
theorem observationOf_eq_iff {events others : List AuditEvent} (perm : events.Perm others)
    (sound : SoundEvents events) (ids : (events.map (·.id)).Nodup) :
    observationOf events = observationOf others ↔ events = others := by
  constructor
  · intro same
    have otherSound : SoundEvents others := fun event member => sound event (perm.mem_iff.mpr member)
    have trails := congrArg (Option.map (·.states)) same
    rw [states_observationOf sound, states_observationOf otherSound] at trails
    by_cases nothing : events = []
    · subst nothing
      exact (List.nil_perm.mp perm).symm
    · have others_ne : others ≠ [] := by
        rintro rfl
        exact nothing (List.perm_nil.mp perm)
      rw [if_neg nothing, if_neg others_ne, Option.some.injEq] at trails
      have sameIds : events.map (·.id) = others.map (·.id) := by
        have listed := congrArg (List.map (·.eventId)) trails
        rw [List.map_map, List.map_map] at listed
        exact listed
      have distinct : Distinguishes (·.id) events := fun left leftMember right rightMember =>
        List.inj_on_of_nodup_map ids leftMember rightMember
      exact distinct.eq_of_map_eq (List.Subset.refl events) perm.symm.subset sameIds
  · intro same
    rw [same]

/-- The latest state of an observation is the state of its last event. -/
theorem latestState_observationOf {events : List AuditEvent} (sound : SoundEvents events) :
    (observationOf events).map (·.latestState) = events.getLast?.map deliveryStateForEvent := by
  rw [observationOf]
  induction events using List.reverseRecOn with
  | nil => rfl
  | append_singleton rest event inductionHypothesis =>
      have occurs := deliveryStateForEvent_ne_nil (sound event (by simp))
      rw [List.foldl_append, List.foldl_cons, List.foldl_nil, Option.map_some,
        List.getLast?_append, List.getLast?_singleton, Option.some_or, Option.map_some]
      simp only [projectDeliveryObservation, if_neg occurs]

/-! ### Expectations -/

/-- The expectation rows of an event, whose kinds an accepted event always names. -/
def expectationRows (event : AuditEvent) : List RecipientExpectation :=
  (messageRefsForEvent event).flatMap fun ref => recipientExpectations event ref.msgId []

theorem recipientExpectations_eq {event : AuditEvent} (sound : SoundEvent event)
    (artifactId artifactKind : Str) :
    recipientExpectations event artifactId artifactKind =
      recipientExpectations event artifactId [] := by
  rw [recipientExpectations, recipientExpectations]
  apply List.map_congr_left
  intro expectation member
  obtain ⟨named, found, nonEmpty⟩ := sound.expected artifactId expectation member
  have truthy : (Json.str named).truthy = true := by simp [Json.truthy, nonEmpty]
  simp [newExpectation, found, Json.orElse, truthy]

theorem expectations_deliveryOf {events : List AuditEvent} (sound : SoundEvents events) :
    (deliveryOf events).expectations = events.flatMap expectationRows := by
  suffices general : ∀ tables : DeliveryTables,
      (events.foldl (fun tables event => projectDelivery event tables) tables).expectations =
        tables.expectations ++ events.flatMap expectationRows by
    rw [deliveryOf, general]
    rfl
  intro tables
  induction events generalizing tables with
  | nil => simp
  | cons event rest inductionHypothesis =>
      have here := sound event List.mem_cons_self
      have later := inductionHypothesis fun other member =>
        sound other (List.mem_cons_of_mem event member)
      have rows : ((messageRefsForEvent event).flatMap fun ref =>
          recipientExpectations event ref.msgId
            (artifactKindOf (projectArtifacts event tables.artifacts) ref.msgId)) =
          expectationRows event := by
        rw [expectationRows]
        congr 1
        funext ref
        exact recipientExpectations_eq here ref.msgId _
      rw [List.foldl_cons, later, List.flatMap_cons, projectDelivery, rows, List.append_assoc]

/-! ### Two orders of the same events -/

/-- The same delivery rows, up to the order of rows. -/
structure DeliveryTables.Same (left right : DeliveryTables) : Prop where
  artifacts : left.artifacts.entries.Perm right.artifacts.entries
  observations : left.observations.entries.Perm right.observations.entries
  expectations : left.expectations.Perm right.expectations

theorem DeliveryTables.Same.refl (tables : DeliveryTables) : tables.Same tables :=
  ⟨.refl _, .refl _, .refl _⟩

/-- Two orders of the same events leave the same delivery rows exactly when they agree on the order
of each engine's events about each message, and on the first known kind of each message. -/
theorem deliveryOf_same_iff {events others : List AuditEvent} (perm : events.Perm others)
    (sound : SoundEvents events) (ids : (events.map (·.id)).Nodup) :
    (deliveryOf events).Same (deliveryOf others) ↔
      (∀ messageId engineId,
        observationsBy events messageId engineId = observationsBy others messageId engineId) ∧
      ∀ messageId,
        knownKind (mentionKinds events messageId) = knownKind (mentionKinds others messageId) := by
  have otherSound : SoundEvents others := fun event member => sound event (perm.mem_iff.mpr member)
  have artifacts : ∀ messageId, (deliveryOf events).artifacts.find messageId =
        (deliveryOf others).artifacts.find messageId ↔
      knownKind (mentionKinds events messageId) = knownKind (mentionKinds others messageId) := by
    intro messageId
    rw [find_artifacts_deliveryOf, find_artifacts_deliveryOf]
    apply artifactOf_eq_iff (perm.filterMap _)
    rintro ⟨event, ref⟩ member
    obtain ⟨source, sourceMember, found⟩ := List.mem_filterMap.mp member
    obtain ⟨read, -, same⟩ := Option.map_eq_some_iff.mp found
    cases same
    exact sound event sourceMember
  have observations : ∀ messageId engineId,
      (deliveryOf events).observations.find (messageId, engineId) =
        (deliveryOf others).observations.find (messageId, engineId) ↔
      observationsBy events messageId engineId = observationsBy others messageId engineId := by
    intro messageId engineId
    rw [find_observations_deliveryOf sound, find_observations_deliveryOf otherSound]
    apply observationOf_eq_iff (perm.filter _)
    · intro event member
      exact sound event (List.mem_of_mem_filter member)
    · exact ids.sublist (List.filter_sublist.map _)
  constructor
  · intro same
    refine ⟨?_, ?_⟩
    · intro messageId engineId
      exact (observations messageId engineId).mp (Keyed.find_eq_of_perm same.observations _)
    · intro messageId
      exact (artifacts messageId).mp (Keyed.find_eq_of_perm same.artifacts _)
  · rintro ⟨sameOrder, sameKinds⟩
    refine ⟨?_, ?_, ?_⟩
    · apply Keyed.perm_of_find_eq
      intro messageId
      exact (artifacts messageId).mpr (sameKinds messageId)
    · apply Keyed.perm_of_find_eq
      rintro ⟨messageId, engineId⟩
      exact (observations messageId engineId).mpr (sameOrder messageId engineId)
    · rw [expectations_deliveryOf sound, expectations_deliveryOf otherSound]
      exact perm.flatMap_right _

end Goggles
