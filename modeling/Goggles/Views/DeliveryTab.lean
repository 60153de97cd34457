/-
Module: Goggles.Views.DeliveryTab
Purpose: The delivery tab of a group, which has a column for each engine and a cell for each artifact in
  it: it agrees with the events of the group and with the recipients of the artifacts.
Trusted boundary: forensics/views.py, `group_tab_context` for the delivery tab and
  `attach_delivery_matrices` to `delivery_matrix_status_badge_class`.  `str.lower`, `str.upper` and the
  text of a JSON key are parameters; the labels of statuses are left out
Main exports: DeliveryEngineCell, deliveryEngineCells, deliveryTab, Awaited, DeliveryCellAgrees,
  DeliveryTabAgrees, deliveryTab_agrees
-/
import Goggles.Views.Engines

namespace Goggles

/-! ### Cells -/

/-- The values of a status. -/
def DeliveryStatus.text : DeliveryStatus → Str
  | .observed => "observed"
  | .missingInferred => "missing_inferred"
  | .unobservedNoUploadedEngine => "unobserved_no_uploaded_engine"
  | .unknown => "unknown"
  | .missingCountInferred => "missing_count_inferred"
  | .partialCountInferred => "partial_count_inferred"
  | .expectedCountSatisfied => "expected_count_satisfied"
  | .observedCountExceedsExpected => "observed_count_exceeds_expected"
  | .observedNotExpected => "observed_not_expected"

/-- `missing_statuses`. -/
def DeliveryStatus.missing : DeliveryStatus → Bool
  | .missingInferred | .partialCountInferred | .missingCountInferred => true
  | .observed | .unobservedNoUploadedEngine | .unknown | .expectedCountSatisfied
  | .observedCountExceedsExpected | .observedNotExpected => false

/-- `delivery_observation_badge_class`. -/
def deliveryObservationBadgeClass (lower : Str → Str) (status : Str) : Str :=
  let severity := severityFromValues lower [status]
  if severity = lit "error" then lit "badge--danger"
  else if severity = lit "warning" then lit "badge--warning"
  else lit "badge--accent"

/-- `delivery_matrix_status_badge_class`. -/
def deliveryMatrixStatusBadgeClass (status : Option DeliveryStatus) : Str :=
  match status with
  | some .missingInferred | some .missingCountInferred => lit "badge--danger"
  | some .partialCountInferred => lit "badge--warning"
  | _ => []

/-- `delivery_engine_matches_recipient`. -/
def deliveryEngineMatchesRecipient (engine : EngineRow) (legacyPubkeys : List Str)
    (recipient : RecipientRow) : Bool :=
  match recipient.recipientId with
  | .str recipientId =>
      recipientId ≠ [] &&
        match recipient.recipientType with
        | .memberRef =>
            (if engine.accountRefs = [] then [engine.accountRef] else engine.accountRefs).contains
              recipientId
        | .pubkeyHex => legacyPubkeys.contains recipientId
        | .countOnly | .engine => false
  | _ => false

/-- `delivery_missing_status_for_engine`. -/
def deliveryMissingStatusForEngine (engine : EngineRow) (legacyPubkeys : List Str)
    (matrix : List RecipientRow) : Option DeliveryStatus :=
  (matrix.find? fun row =>
    row.status.missing && deliveryEngineMatchesRecipient engine legacyPubkeys row).map (·.status)

/-- `delivery_engine_cell`. -/
structure DeliveryEngineCell where
  engine : EngineRow
  status : Str
  badgeClass : Str
  states : List StateEntry
  firstSeenMs : Option Nat
  lastSeenMs : Option Nat
  latestEvidenceId : Option Nat

def deliveryEngineCell (lower : Str → Str) (engine : EngineRow)
    (observation : Option DeliveryObservation) (matrix : List RecipientRow)
    (legacyPubkeys : List Str) : DeliveryEngineCell :=
  match observation with
  | some observation =>
      let status := if observation.latestState ≠ [] then observation.latestState else lit "observed"
      { engine := engine
        status := status
        badgeClass := deliveryObservationBadgeClass lower status
        states := observation.states
        firstSeenMs := observation.firstSeenMs
        lastSeenMs := observation.lastSeenMs
        latestEvidenceId :=
          (observation.states.reverse.find? (·.eventId ≠ 0)).map (·.eventId) }
  | none =>
      let missing := deliveryMissingStatusForEngine engine legacyPubkeys matrix
      { engine := engine
        status := (missing.map DeliveryStatus.text).getD (lit "not_observed")
        badgeClass := deliveryMatrixStatusBadgeClass missing
        states := []
        firstSeenMs := none
        lastSeenMs := none
        latestEvidenceId := none }

section Tab

variable (keyText : Dict → Str → Option Str) (lower upper : Str → Str) (store : Store) (groupId : Nat)

/-- The entry of an engine in `legacy_engine_pubkeys`, or the empty set. -/
def legacyEnginePubkeys (engineId : Str) : List Str :=
  if engineId = [] then []
  else (((store.groupEvents groupId).filter (·.engineId = engineId)).filterMap
    (legacyPubkey keyText)).dedup

/-- The matrix of an artifact of the group. -/
def recipientMatrix (artifactId : Str) : List RecipientRow :=
  artifactMatrix store.events (store.projections groupId).delivery
    (deliveryIdentityIndex keyText store.events groupId) artifactId

/-- `delivery_engine_cells`. -/
def deliveryEngineCells (artifactId : Str) (engines : List EngineRow) : List DeliveryEngineCell :=
  engines.map fun engine =>
    deliveryEngineCell lower engine
      ((store.projections groupId).delivery.observations.find (artifactId, engine.engineId))
      (recipientMatrix keyText store groupId artifactId)
      (legacyEnginePubkeys keyText store groupId engine.engineId)

/-- An artifact with what `attach_delivery_matrices` sets. -/
structure TabArtifact where
  artifactId : Str
  artifact : DeliveryArtifact
  recipientMatrix : List RecipientRow
  deliveryEngineCells : List DeliveryEngineCell
  hasInferredMissing : Bool

/-- An artifact in the loop of `attach_delivery_matrices`. -/
def withDeliveryMatrix (engines : List EngineRow) (entry : Str × DeliveryArtifact) : TabArtifact :=
  let matrix := recipientMatrix keyText store groupId entry.1
  { artifactId := entry.1
    artifact := entry.2
    recipientMatrix := matrix
    deliveryEngineCells := deliveryEngineCells keyText lower store groupId entry.1 engines
    hasInferredMissing := matrix.any fun row => row.status.missing }

/-- `attach_delivery_matrices`. -/
def attachDeliveryMatrices (engines : List EngineRow) (artifacts : List (Str × DeliveryArtifact)) :
    List TabArtifact :=
  artifacts.map (withDeliveryMatrix keyText lower store groupId engines)

/-- `GROUP_DETAIL_TAB_EVENT_LIMIT`. -/
def GROUP_DETAIL_TAB_EVENT_LIMIT : Nat := 100

/-- `limited_tab_events`: the first rows, and whether there are more. -/
def limitedTabEvents {ρ : Type*} (queryset : List ρ) : List ρ × Bool :=
  let rows := queryset.take (GROUP_DETAIL_TAB_EVENT_LIMIT + 1)
  (rows.take GROUP_DETAIL_TAB_EVENT_LIMIT, decide (GROUP_DETAIL_TAB_EVENT_LIMIT < rows.length))

/-- The artifacts of a group, by the time they were first seen. -/
def artifactsByTime : List (Str × DeliveryArtifact) :=
  inOrder (fun entry => toLex (entry.2.firstSeenMs.isNone,
    toLex (entry.2.firstSeenMs.getD 0, entry.1))) (store.projections groupId).delivery.artifacts.entries

/-- `group_tab_context` for the delivery tab: the artifacts, whether there are more, and the engines. -/
def deliveryTab : List TabArtifact × Bool × List EngineRow :=
  let (artifacts, hasMore) := limitedTabEvents (artifactsByTime store groupId)
  let engines := groupEngineRows keyText upper store groupId none
  (attachDeliveryMatrices keyText lower store groupId engines artifacts, hasMore, engines)

end Tab

/-! ### What a cell tells -/

section Cells

variable {keyText : Dict → Str → Option Str} {lower : Str → Str} {store : Store} {groupId : Nat}
  {order : List AuditEvent} {messageId : Str} {engine : EngineRow}

/-- An account of the engine is expected to receive the message, and no observation names it. -/
def Awaited (store : Store) (groupId : Nat) (order : List AuditEvent) (messageId engineId : Str) :
    Prop :=
  ∃ account ∈ engineAccounts store groupId engineId,
    ExpectsMember order messageId (.str account) ∧ ¬ ObservedAs order messageId (.str account)

/-- No stored event has a schema that names public keys. -/
theorem legacyEnginePubkeys_eq_nil (recorded : EventsRecorded store) (engineId : Str) :
    legacyEnginePubkeys keyText store groupId engineId = [] := by
  rw [legacyEnginePubkeys]
  split
  · rfl
  · have nobody : ((store.groupEvents groupId).filter (·.engineId = engineId)).filterMap
        (legacyPubkey keyText) = [] := by
      apply List.filterMap_eq_nil_iff.mpr
      intro event member
      have stored := List.mem_of_mem_filter (List.mem_of_mem_filter member)
      rw [legacyPubkey, (recorded event stored).version]
      exact if_neg (by decide)
    rw [nobody]
    rfl

/-- The accounts that a member is looked for in. -/
theorem mem_accountsSearched (told : EngineTold store groupId engine) {account : Str}
    (filled : account ≠ []) :
    account ∈ (if engine.accountRefs = [] then [engine.accountRef] else engine.accountRefs) ↔
      account ∈ engineAccounts store groupId engine.engineId := by
  rw [← told.accounts]
  split
  · next nothing =>
      have blank : engine.accountRef = [] := by
        rw [told.account, nothing]
        rfl
      simp [nothing, blank, filled]
  · rfl

/-- An engine matches the rows about the members that it has the accounts of. -/
theorem deliveryEngineMatchesRecipient_iff (told : EngineTold store groupId engine)
    {row : RecipientRow} : deliveryEngineMatchesRecipient engine [] row = true ↔
      row.recipientType = .memberRef ∧
        ∃ account ∈ engineAccounts store groupId engine.engineId, row.recipientId = .str account := by
  have searched : ∀ account, row.recipientId = .str account →
      (deliveryEngineMatchesRecipient engine [] row = true ↔
        row.recipientType = .memberRef ∧ account ∈ engineAccounts store groupId engine.engineId) := by
    intro account isText
    by_cases blank : account = []
    · have nobody : deliveryEngineMatchesRecipient engine [] row = false := by
        simp [deliveryEngineMatchesRecipient, isText, blank]
      rw [nobody]
      constructor
      · intro impossible
        cases impossible
      · rintro ⟨-, filled, -⟩
        exact absurd blank filled
    · have found := mem_accountsSearched told blank
      cases kind : row.recipientType <;>
        simp [deliveryEngineMatchesRecipient, isText, kind, blank, found]
  cases isText : row.recipientId with
  | str account =>
      rw [searched account isText]
      simp
  | _ => simp [deliveryEngineMatchesRecipient, isText]

/-- A row about a member that is missing is one of a member whom no observation names. -/
theorem memberRow_missing_iff {index : DeliveryIdentityIndex} {observed : List Observed}
    {expectation : RecipientExpectation} {recipient : Json} :
    (expectedRow observed index expectation (.memberRef, recipient)).status.missing = true ↔
      matchedObservations observed (.memberRef, recipient) = [] ∧
        inIdentities index.accountRefs recipient = true := by
  rw [expectedRow, deliveryExpectedStatus]
  by_cases nothing : matchedObservations observed (.memberRef, recipient) = []
  · by_cases known : inIdentities index.accountRefs recipient = true
    · simp [nothing, known, DeliveryStatus.missing]
    · simp [nothing, known, DeliveryStatus.missing]
  · simp [nothing, DeliveryStatus.missing]

/-- The accounts of the engines of a group are known. -/
theorem inIdentities_engineAccounts (formed : WellFormed store) {engineId account : Str}
    (named : account ∈ engineAccounts store groupId engineId) :
    inIdentities (deliveryIdentityIndex keyText store.events groupId).accountRefs (.str account) =
      true := by
  obtain ⟨filled, event, member, inGroup, -, same⟩ := named
  refine decide_eq_true (mem_distinctValues.mpr ⟨event, ?_, nonBlank_eq_some_iff.mpr ⟨?_, same⟩⟩)
  · exact List.mem_filter.mpr
      ⟨member, AuditEvent.countsFor_iff.mpr ⟨inGroup, (formed.sound event member).valid⟩⟩
  · rw [same]
    exact filled

theorem soundEvents_of_perm (formed : WellFormed store)
    (perm : order.Perm (store.groupEvents groupId)) : SoundEvents order :=
  fun event member => formed.sound event (List.mem_of_mem_filter (perm.mem_iff.mp member))

/-- The rows that are about missing members. -/
theorem awaited_iff (formed : WellFormed store) (perm : order.Perm (store.groupEvents groupId))
    (shown : (store.projections groupId).delivery = deliveryOf order)
    (told : EngineTold store groupId engine) :
    Awaited store groupId order messageId engine.engineId ↔
      ∃ row ∈ recipientMatrix keyText store groupId messageId, row.status.missing = true ∧
        deliveryEngineMatchesRecipient engine [] row = true := by
  have sound := soundEvents_of_perm formed perm
  have observed_iff : ∀ recipient, matchedObservations
      (observedOf store.events (store.projections groupId).delivery messageId)
        (.memberRef, recipient) ≠ [] ↔ ObservedAs order messageId recipient :=
    fun recipient => matchedObservations_ne_nil_iff sound shown
  constructor
  · rintro ⟨account, named, expects, unobserved⟩
    obtain ⟨expectation, stored, ofMessage, listed⟩ := (expectsMember_iff sound).mp expects
    rw [← shown] at stored
    refine ⟨_, (mem_artifactMatrix_memberRef rfl).mpr ⟨expectation, stored, ofMessage, listed, rfl⟩,
      memberRow_missing_iff.mpr ⟨?_, inIdentities_engineAccounts formed named⟩,
      (deliveryEngineMatchesRecipient_iff told).mpr ⟨rfl, account, named, rfl⟩⟩
    exact not_not.mp (mt (observed_iff _).mp unobserved)
  · rintro ⟨row, isRow, missing, matched⟩
    obtain ⟨isMember, account, named, same⟩ := (deliveryEngineMatchesRecipient_iff told).mp matched
    obtain ⟨expectation, stored, ofMessage, listed, made⟩ :=
      (mem_artifactMatrix_memberRef isMember).mp isRow
    rw [made] at missing
    rw [same] at listed missing
    refine ⟨account, named, (expectsMember_iff sound).mpr ⟨expectation, shown ▸ stored, ofMessage,
      listed⟩, ?_⟩
    exact mt (observed_iff _).mpr (not_not.mpr (memberRow_missing_iff.mp missing).1)

/-- A cell tells of its engine and a message what the events of the group do: the states that the
engine's events about the message give it, in the order these were projected, or that it is missing. -/
structure DeliveryCellAgrees (store : Store) (groupId : Nat) (order : List AuditEvent) (messageId : Str)
    (cell : DeliveryEngineCell) : Prop where
  states : cell.states = (observationsBy order messageId cell.engine.engineId).map stateEntry
  status : ∀ last, (observationsBy order messageId cell.engine.engineId).getLast? = some last →
    cell.status = deliveryStateForEvent last
  missing : observationsBy order messageId cell.engine.engineId = [] →
    Awaited store groupId order messageId cell.engine.engineId → cell.status = lit "missing_inferred"
  notObserved : observationsBy order messageId cell.engine.engineId = [] →
    ¬ Awaited store groupId order messageId cell.engine.engineId → cell.status = lit "not_observed"
  evidence : ∀ eventId, cell.latestEvidenceId = some eventId →
    ∃ event ∈ observationsBy order messageId cell.engine.engineId, event.id = eventId

/-- The status of an engine that is not heard of. -/
theorem missingStatus_cases (formed : WellFormed store)
    (perm : order.Perm (store.groupEvents groupId))
    (shown : (store.projections groupId).delivery = deliveryOf order)
    (told : EngineTold store groupId engine) :
    (Awaited store groupId order messageId engine.engineId ∧
        deliveryMissingStatusForEngine engine []
          (recipientMatrix keyText store groupId messageId) = some .missingInferred) ∨
      (¬ Awaited store groupId order messageId engine.engineId ∧
        deliveryMissingStatusForEngine engine []
          (recipientMatrix keyText store groupId messageId) = none) := by
  rw [awaited_iff formed perm shown told, deliveryMissingStatusForEngine]
  cases found : (recipientMatrix keyText store groupId messageId).find? fun row =>
      row.status.missing && deliveryEngineMatchesRecipient engine [] row with
  | none =>
      refine .inr ⟨?_, rfl⟩
      rintro ⟨row, isRow, missing, matched⟩
      exact List.find?_eq_none.mp found row isRow (by rw [missing, matched]; rfl)
  | some row =>
      have isRow := List.mem_of_find?_eq_some found
      have held := List.find?_some found
      obtain ⟨missing, matched⟩ := Bool.and_eq_true_iff.mp held
      refine .inl ⟨⟨row, isRow, missing, matched⟩, congrArg some ?_⟩
      -- the other statuses of what is missing are those of counts
      obtain ⟨isMember, -⟩ := (deliveryEngineMatchesRecipient_iff told).mp matched
      obtain ⟨expectation, -, -, -, made⟩ := (mem_artifactMatrix_memberRef isMember).mp isRow
      obtain ⟨unmatched, known⟩ := memberRow_missing_iff.mp (made ▸ missing)
      rw [made, expectedRow, deliveryExpectedStatus]
      simp [unmatched, known]

@[simp] theorem engine_deliveryEngineCell {found : Option DeliveryObservation}
    {matrix : List RecipientRow} {legacyPubkeys : List Str} :
    (deliveryEngineCell lower engine found matrix legacyPubkeys).engine = engine := by
  cases found <;> rfl

theorem deliveryCellAgrees (formed : WellFormed store)
    (perm : order.Perm (store.groupEvents groupId))
    (shown : (store.projections groupId).delivery = deliveryOf order)
    (told : EngineTold store groupId engine) :
    DeliveryCellAgrees store groupId order messageId
      (deliveryEngineCell lower engine
        ((store.projections groupId).delivery.observations.find (messageId, engine.engineId))
        (recipientMatrix keyText store groupId messageId) []) := by
  have sound := soundEvents_of_perm formed perm
  have mine : SoundEvents (observationsBy order messageId engine.engineId) :=
    fun event member => sound event (List.mem_of_mem_filter member)
  have states := states_observationOf mine
  have latest := latestState_observationOf mine
  rw [shown, find_observations_deliveryOf sound]
  cases found : observationOf (observationsBy order messageId engine.engineId) with
  | none =>
      have nothing : observationsBy order messageId engine.engineId = [] := by
        rw [found, Option.map_none] at latest
        exact List.getLast?_eq_none_iff.mp (Option.map_eq_none_iff.mp latest.symm)
      have verdict := @missingStatus_cases keyText _ _ _ messageId _ formed perm shown told
      constructor
      case states => simp [deliveryEngineCell, nothing]
      case status => simp [deliveryEngineCell, nothing]
      case missing =>
        rintro - awaited
        rcases verdict with ⟨-, reported⟩ | ⟨unawaited, -⟩
        · simp only [deliveryEngineCell, reported]
          rfl
        · exact absurd awaited unawaited
      case notObserved =>
        rintro - unawaited
        rcases verdict with ⟨awaited, -⟩ | ⟨-, reported⟩
        · exact absurd awaited unawaited
        · simp only [deliveryEngineCell, reported]
          rfl
      case evidence => simp [deliveryEngineCell]
  | some row =>
      have something : observationsBy order messageId engine.engineId ≠ [] := by
        intro nothing
        rw [nothing] at found
        cases found
      rw [found, Option.map_some] at latest states
      rw [if_neg something, Option.some.injEq] at states
      obtain ⟨last, isLast, latestState⟩ := Option.map_eq_some_iff.mp latest.symm
      have occurs := deliveryStateForEvent_ne_nil (mine last (List.mem_of_getLast? isLast))
      rw [latestState] at occurs
      constructor
      case states => exact states
      case status =>
        intro other otherLast
        have same : last = other := Option.some.inj (isLast.symm.trans otherLast)
        rw [← same, latestState]
        exact if_pos occurs
      case missing => exact fun nothing => absurd nothing something
      case notObserved => exact fun nothing => absurd nothing something
      case evidence =>
        intro eventId isLatest
        obtain ⟨entry, listed, rfl⟩ := Option.map_eq_some_iff.mp isLatest
        have member := List.mem_reverse.mp (List.mem_of_find?_eq_some listed)
        rw [states] at member
        obtain ⟨event, eventMember, rfl⟩ := List.mem_map.mp member
        exact ⟨event, eventMember, rfl⟩

end Cells

/-! ### The delivery tab -/

theorem limitedTabEvents_fst {ρ : Type*} (queryset : List ρ) :
    (limitedTabEvents queryset).1 = queryset.take GROUP_DETAIL_TAB_EVENT_LIMIT := by
  rw [limitedTabEvents, List.take_take, Nat.min_eq_left (Nat.le_succ _)]

/-- A list of which there is no more is whole. -/
theorem limitedTabEvents_complete {ρ : Type*} {queryset : List ρ}
    (noMore : (limitedTabEvents queryset).2 = false) : (limitedTabEvents queryset).1 = queryset := by
  have short := of_decide_eq_false noMore
  rw [List.length_take] at short
  rw [limitedTabEvents_fst]
  exact List.take_of_length_le (by omega)

/-- What an artifact shows agrees with the events of the group, in the order these were projected. -/
structure TabArtifactAgrees (store : Store) (groupId : Nat) (order : List AuditEvent)
    (engines : List EngineRow) (shown : TabArtifact) : Prop where
  referred : ∃ event ∈ order, refersTo event shown.artifactId
  columns : shown.deliveryEngineCells.map (·.engine) = engines
  cells : ∀ cell ∈ shown.deliveryEngineCells,
    DeliveryCellAgrees store groupId order shown.artifactId cell
  heard : ∀ event ∈ order, refersTo event shown.artifactId →
    ∃ cell ∈ shown.deliveryEngineCells, cell.engine.engineId = event.engineId ∧
      stateEntry event ∈ cell.states
  flagged : ∀ cell ∈ shown.deliveryEngineCells,
    Awaited store groupId order shown.artifactId cell.engine.engineId →
      shown.hasInferredMissing = true
  members : ∀ row ∈ shown.recipientMatrix, row.recipientType = .memberRef →
    row.status = .missingInferred → ∃ cell ∈ shown.deliveryEngineCells,
      ∃ account ∈ engineAccounts store groupId cell.engine.engineId, row.recipientId = .str account

section Attached

variable {keyText : Dict → Str → Option Str} {lower upper : Str → Str} {store : Store} {groupId : Nat}
  {order : List AuditEvent}

theorem tabArtifactAgrees (formed : WellFormed store) (filed : EventsFiled store)
    (recorded : EventsRecorded store) (perm : order.Perm (store.groupEvents groupId))
    (projected : (store.projections groupId).delivery = deliveryOf order)
    {entry : Str × DeliveryArtifact} (referred : ∃ event ∈ order, refersTo event entry.1) :
    TabArtifactAgrees store groupId order (groupEngineRows keyText upper store groupId none)
      (withDeliveryMatrix keyText lower store groupId
        (groupEngineRows keyText upper store groupId none) entry) := by
  have ofGroup : ∀ event, event ∈ order ↔ event ∈ store.events ∧ event.groupId = some groupId :=
    fun event => perm.mem_iff.trans
      (mem_groupEvents_iff fun event member => (formed.sound event member).valid)
  have told : ∀ row ∈ groupEngineRows keyText upper store groupId none,
      EngineTold store groupId row :=
    fun row => engineTold_of_recorded keyText upper formed filed recorded
  have sound := soundEvents_of_perm formed perm
  have cells : ∀ cell ∈ deliveryEngineCells keyText lower store groupId entry.1
      (groupEngineRows keyText upper store groupId none),
      cell.engine ∈ groupEngineRows keyText upper store groupId none ∧
        DeliveryCellAgrees store groupId order entry.1 cell := by
    intro cell member
    obtain ⟨row, rowMember, rfl⟩ := List.mem_map.mp member
    rw [legacyEnginePubkeys_eq_nil recorded, engine_deliveryEngineCell]
    exact ⟨rowMember, deliveryCellAgrees formed perm projected (told row rowMember)⟩
  -- an event of the group has the column of its engine
  have column : ∀ event ∈ store.events, event.groupId = some groupId →
      ∃ cell ∈ deliveryEngineCells keyText lower store groupId entry.1
        (groupEngineRows keyText upper store groupId none), cell.engine.engineId = event.engineId := by
    intro event member inGroup
    obtain ⟨row, rowMember, same⟩ := List.mem_map.mp
      ((mem_engineIds_iff keyText upper formed).mpr ⟨event, member, inGroup, rfl⟩)
    refine ⟨_, List.mem_map_of_mem rowMember, ?_⟩
    rw [engine_deliveryEngineCell, same]
  refine ⟨referred, ?columns, fun cell member => (cells cell member).2, ?heard, ?flagged, ?members⟩
  case columns =>
    show (deliveryEngineCells _ _ _ _ _ _).map _ = _
    rw [deliveryEngineCells, List.map_map]
    exact (List.map_congr_left fun row _ => engine_deliveryEngineCell).trans (List.map_id _)
  case heard =>
    intro event member refers
    obtain ⟨stored, inGroup⟩ := (ofGroup event).mp member
    obtain ⟨cell, cellMember, same⟩ := column event stored inGroup
    refine ⟨cell, cellMember, same, ?_⟩
    rw [(cells cell cellMember).2.states]
    refine List.mem_map_of_mem (List.mem_filter.mpr ⟨member, ?_⟩)
    rw [Bool.and_eq_true, decide_eq_true_eq]
    exact ⟨same.symm, refersTo_iff.mp refers⟩
  case flagged =>
    intro cell member awaited
    obtain ⟨row, isRow, missing, -⟩ := (@awaited_iff keyText _ _ _ _ _ formed perm projected
      (told cell.engine (cells cell member).1)).mp awaited
    exact List.any_eq_true.mpr ⟨row, isRow, missing⟩
  case members =>
    intro row isRow isMember missing
    obtain ⟨expectation, -, -, -, made⟩ := (mem_artifactMatrix_memberRef isMember).mp isRow
    have known := (memberRow_missing_iff.mp (by rw [← made, missing]; rfl)).2
    cases isText : row.recipientId with
    | str account =>
        rw [isText] at known
        obtain ⟨event, member, named⟩ := mem_distinctValues.mp (of_decide_eq_true known)
        obtain ⟨filled, same⟩ := nonBlank_eq_some_iff.mp named
        obtain ⟨stored, counts⟩ := List.mem_filter.mp member
        have inGroup := (AuditEvent.countsFor_iff.mp counts).1
        obtain ⟨cell, cellMember, sameEngine⟩ := column event stored inGroup
        exact ⟨cell, cellMember, account, ⟨same ▸ filled, event, stored, inGroup, sameEngine.symm, same⟩,
          rfl⟩
    | _ =>
        rw [isText] at known
        cases known

end Attached

/-- The tab agrees with the events of the group, in the order these were projected. -/
structure DeliveryTabAgrees (store : Store) (groupId : Nat) (order : List AuditEvent)
    (tab : List TabArtifact × Bool × List EngineRow) : Prop where
  once : (tab.1.map (·.artifactId)).Nodup
  artifacts : ∀ shown ∈ tab.1, TabArtifactAgrees store groupId order tab.2.2 shown
  complete : tab.2.1 = false → ∀ messageId, (∃ event ∈ order, refersTo event messageId) →
    ∃ shown ∈ tab.1, shown.artifactId = messageId

/-- At every moment the delivery tab of a group has a column for each engine of the group, and a cell
shows the states that the events of its engine about the artifact give it, or, where there are none,
whether an account of the engine is expected to receive it and is missing. -/
theorem deliveryTab_agrees (keyText : Dict → Str → Option Str) (lower upper : Str → Str) (env : Env)
    (steps : List ClusterStep) (groupId : Nat) :
    ∃ order, order.Perm ((Cluster.after env steps).shared.store.groupEvents groupId) ∧
      DeliveryTabAgrees (Cluster.after env steps).shared.store groupId order
        (deliveryTab keyText lower upper (Cluster.after env steps).shared.store groupId) := by
  have serial := (cluster_guarded env steps).invariant.serial
  have consistent := serial.consistent
  obtain ⟨order, perm, projected⟩ := consistent.once.delivery.order groupId
  have artifactExists := (consistent.once.projected groupId).artifactExists
  refine ⟨order, perm, ?once, ?artifacts, ?complete⟩
  case once =>
    show ((List.map _ (limitedTabEvents _).1).map _).Nodup
    rw [List.map_map, limitedTabEvents_fst]
    refine List.Nodup.sublist ((List.take_sublist _ _).map Prod.fst) ?_
    exact ((perm_inOrder _ _).map Prod.fst).nodup_iff.mpr (Keyed.unique _)
  case artifacts =>
    intro shown member
    obtain ⟨entry, entryMember, rfl⟩ := List.mem_map.mp member
    have listed : entry ∈ (limitedTabEvents (artifactsByTime
      (Cluster.after env steps).shared.store groupId)).1 := entryMember
    rw [limitedTabEvents_fst] at listed
    have found := Keyed.find_eq_some_iff.mpr (mem_inOrder.mp (List.mem_of_mem_take listed))
    obtain ⟨event, eventMember, refers⟩ := (artifactExists entry.1).mp (by rw [found]; rfl)
    exact tabArtifactAgrees consistent.formed consistent.eventsFiled serial.eventsRecorded perm
      projected ⟨event, perm.mem_iff.mpr eventMember, refers⟩
  case complete =>
    rintro noMore messageId ⟨event, member, refers⟩
    obtain ⟨artifact, found⟩ := Option.isSome_iff_exists.mp
      ((artifactExists messageId).mpr ⟨event, perm.mem_iff.mp member, refers⟩)
    have listed : (messageId, artifact) ∈ (limitedTabEvents (artifactsByTime
        (Cluster.after env steps).shared.store groupId)).1 := by
      rw [limitedTabEvents_complete noMore]
      exact mem_inOrder.mpr (Keyed.find_eq_some_iff.mp found)
    exact ⟨_, List.mem_map_of_mem listed, rfl⟩

end Goggles
