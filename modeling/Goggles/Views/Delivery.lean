/-
Module: Goggles.Views.Delivery
Purpose: The delivery identities of a group's events, and the recipient matrix of an artifact, which
  tells from them whether a recipient without an observation missed the message.
Trusted boundary: forensics/views.py, `delivery_identity_index` to `is_legacy_pubkey` and
  `delivery_recipient_matrix` to `delivery_expected_status`.  The text that the database gives for a
  key of a JSON column is a parameter; a set gives its first element first; a row shows the engines of
  its observations, and its label is left out
Main exports: deliveryIdentityIndex, observationIdentityValues, deliveryExpectedStatus,
  deliveryRecipientMatrix, artifactMatrix
-/
import Goggles.Projection.Provenance
import Goggles.Views.Filters

namespace Goggles

/-! ### Identities -/

def AuditEvent.contextSource (event : AuditEvent) : Dict := event.object "context_source"

/-- `LEGACY_AUDIT_SCHEMAS`. -/
def LEGACY_AUDIT_SCHEMAS : List Str :=
  [1, 2, 3].map fun version => lit "marmot-forensics-audit/v" ++ natText version

/-- `is_legacy_pubkey`, of a text. -/
def isLegacyPubkey (value : Str) : Bool := value.length = 64 && value.all isHexDigit

/-- A text, when there is one. -/
def nonBlank (text : Str) : Option Str := if text = [] then none else some text

/-- The legacy public key of an event's source. -/
def legacyPubkey (keyText : Dict → Str → Option Str) (event : AuditEvent) : Option Str :=
  if LEGACY_AUDIT_SCHEMAS.contains event.schemaVersion then
    (keyText event.contextSource (lit "account_pubkey_hex")).filter isLegacyPubkey
  else none

/-- `distinct_values`. -/
def distinctValues (events : List AuditEvent) (value : AuditEvent → Option Str) : Finset Str :=
  (events.filterMap value).toFinset

theorem mem_distinctValues {events : List AuditEvent} {read : AuditEvent → Option Str} {value : Str} :
    value ∈ distinctValues events read ↔ ∃ event ∈ events, read event = some value := by
  rw [distinctValues, List.mem_toFinset, List.mem_filterMap]

structure DeliveryIdentityIndex where
  accountRefs : Finset Str
  engineIds : Finset Str
  pubkeysHex : Finset Str
deriving DecidableEq

/-- `delivery_identity_index`.  Its query has no exclusion of quarantined files. -/
def deliveryIdentityIndex (keyText : Dict → Str → Option Str) (events : List AuditEvent)
    (groupId : Nat) : DeliveryIdentityIndex :=
  let validEvents := validGroupEvents events groupId
  { accountRefs := distinctValues validEvents fun event => nonBlank event.accountRef
    engineIds := distinctValues validEvents fun event => nonBlank event.engineId
    pubkeysHex := distinctValues validEvents (legacyPubkey keyText) }

/-! ### Observations -/

/-- What `observation_identity_values` gives. -/
structure IdentityValues where
  accountRefs : List Str
  engineIds : List Str
  pubkeysHex : List Str
deriving DecidableEq

/-- The key that an observation's event is matched by. -/
def observedPubkey (event : AuditEvent) : Option Str :=
  if LEGACY_AUDIT_SCHEMAS.contains event.schemaVersion then
    match event.contextSource.get "account_pubkey_hex" with
    | .str pubkey => if isLegacyPubkey pubkey then some pubkey else none
    | _ => none
  else none

/-- `observation_identity_values`. -/
def observationIdentityValues (events : List AuditEvent) (engineId : Str)
    (observation : DeliveryObservation) : IdentityValues where
  accountRefs := (nonBlank observation.accountRef).toList
  engineIds := (nonBlank engineId).toList
  pubkeysHex := ((citedEvents events observation.evidence).filterMap observedPubkey).dedup

/-- An observation with its engine and its identities. -/
structure Observed where
  engineId : Str
  observation : DeliveryObservation
  identities : IdentityValues
deriving DecidableEq

inductive RecipientType where
  | memberRef
  | pubkeyHex
  | countOnly
  | engine
deriving Repr, DecidableEq

/-- `observation_matches_expected`. -/
def Observed.matchesExpected (observed : Observed) (recipientType : RecipientType)
    (recipientId : Json) : Bool :=
  match recipientType with
  | .memberRef => (observed.identities.accountRefs.map Json.str).contains recipientId
  | .pubkeyHex => (observed.identities.pubkeysHex.map Json.str).contains recipientId
  | _ => false

/-- `recipient_scope_excludes_expectation_source`. -/
def recipientScopeExcludesExpectationSource (scope : Str) : Bool :=
  [lit "all_other_current_group_members", lit "all_other_group_members"].contains scope

/-- `observation_matches_expectation_source`. -/
def Observed.matchesExpectationSource (observed : Observed) (event : AuditEvent) : Bool :=
  (event.engineId ≠ [] && observed.engineId = event.engineId) ||
  (event.accountRef ≠ [] && observed.identities.accountRefs.contains event.accountRef) ||
  match event.contextSource.get "account_pubkey_hex" with
  | .str pubkey => observed.identities.pubkeysHex.contains pubkey
  | _ => false

/-! ### The matrix -/

inductive DeliveryStatus where
  | observed
  | missingInferred
  | unobservedNoUploadedEngine
  | unknown
  | missingCountInferred
  | partialCountInferred
  | expectedCountSatisfied
  | observedCountExceedsExpected
  | observedNotExpected
deriving Repr, DecidableEq

/-- `expectation_identity_rows`. -/
def expectationIdentityRows (expectation : RecipientExpectation) : List (RecipientType × Json) :=
  expectation.expectedMemberRefs.map (.memberRef, ·) ++
    expectation.expectedPubkeysHex.map (.pubkeyHex, ·)

/-- The identity is in a set of the index. -/
def inIdentities (identities : Finset Str) : Json → Bool
  | .str value => value ∈ identities
  | _ => false

/-- `delivery_expected_status`. -/
def deliveryExpectedStatus (index : DeliveryIdentityIndex) (recipientType : RecipientType)
    (recipientId : Json) (matched : List Observed) : DeliveryStatus :=
  if matched ≠ [] then .observed
  else
    match recipientType with
    | .memberRef =>
        if inIdentities index.accountRefs recipientId then .missingInferred
        else .unobservedNoUploadedEngine
    | .pubkeyHex =>
        if inIdentities index.pubkeysHex recipientId then .missingInferred
        else .unobservedNoUploadedEngine
    | _ => .unknown

/-- `count_only_expectation_status`. -/
def countOnlyExpectationStatus (expectedCount observedCount : Nat) : DeliveryStatus :=
  if observedCount < expectedCount then
    if observedCount = 0 then .missingCountInferred else .partialCountInferred
  else if observedCount = expectedCount then .expectedCountSatisfied
  else .observedCountExceedsExpected

structure RecipientRow where
  recipientType : RecipientType
  recipientId : Json
  status : DeliveryStatus
  recipientScope : Str
  expectedCount : Option Nat
  observedCount : Option Nat
  missingCount : Option Nat
  excludedObservationCount : Option Nat
  membershipEpoch : Option Nat
  observations : List Str
  evidenceEvent : Option Nat
deriving DecidableEq

section Matrix

variable (observed : List Observed) (index : DeliveryIdentityIndex)

/-- `count_only_recipient_observations`: the observations that count, and those left out. -/
def countOnlyRecipientObservations (expectation : RecipientExpectation)
    (source : Option AuditEvent) : List Observed × List Observed :=
  observed.partition fun observation =>
    !(recipientScopeExcludesExpectationSource expectation.recipientScope &&
      source.any observation.matchesExpectationSource)

/-- The row of an expectation that gives a count alone. -/
def countOnlyRow (expectation : RecipientExpectation) (expectedCount : Nat)
    (counted excluded : List Observed) : RecipientRow where
  recipientType := .countOnly
  recipientId := .str []
  status := countOnlyExpectationStatus expectedCount counted.length
  recipientScope := expectation.recipientScope
  expectedCount := some expectedCount
  observedCount := some counted.length
  -- `max(expected_count - observed_count, 0)` is subtraction of natural numbers
  missingCount := some (expectedCount - counted.length)
  excludedObservationCount := some excluded.length
  membershipEpoch := expectation.membershipEpoch
  observations := counted.map (·.engineId)
  evidenceEvent := some expectation.evidenceEvent

/-- The observations of an expected recipient. -/
def matchedObservations (expected : RecipientType × Json) : List Observed :=
  observed.filter (·.matchesExpected expected.1 expected.2)

/-- The row of an expected recipient. -/
def expectedRow (expectation : RecipientExpectation) (expected : RecipientType × Json) :
    RecipientRow where
  recipientType := expected.1
  recipientId := expected.2
  status := deliveryExpectedStatus index expected.1 expected.2 (matchedObservations observed expected)
  recipientScope := expectation.recipientScope
  expectedCount := expectation.expectedCount
  observedCount := none
  missingCount := none
  excludedObservationCount := none
  membershipEpoch := expectation.membershipEpoch
  observations := (matchedObservations observed expected).map (·.engineId)
  evidenceEvent := some expectation.evidenceEvent

/-- One iteration of the loop over the expectations: its rows, and the observations it matches. -/
def recipientRows (entry : RecipientExpectation × Option AuditEvent) :
    List RecipientRow × List Observed :=
  let expectation := entry.1
  let expectedRows := expectationIdentityRows expectation
  match expectedRows, expectation.expectedCount with
  | [], some expectedCount =>
      let (counted, excluded) := countOnlyRecipientObservations observed expectation entry.2
      ([countOnlyRow expectation expectedCount counted excluded], counted)
  | _, _ =>
      (expectedRows.map (expectedRow observed index expectation),
        expectedRows.flatMap (matchedObservations observed))

/-- The row of an observation that no expectation matches. -/
def unexpectedRow (observed : Observed) : RecipientRow where
  recipientType := .engine
  recipientId := .str <|
    if observed.observation.accountRef ≠ [] then observed.observation.accountRef
    else observed.identities.pubkeysHex.headD observed.engineId
  status := .observedNotExpected
  recipientScope := []
  expectedCount := none
  observedCount := none
  missingCount := none
  excludedObservationCount := none
  membershipEpoch := none
  observations := [observed.engineId]
  evidenceEvent := none

/-- `delivery_recipient_matrix`, from what it loads. -/
def deliveryRecipientMatrix (expectations : List (RecipientExpectation × Option AuditEvent)) :
    List RecipientRow :=
  let perExpectation := expectations.map (recipientRows observed index)
  let matchedEngines := (perExpectation.flatMap Prod.snd).map (·.engineId)
  perExpectation.flatMap Prod.fst ++
    (observed.filter fun observation => !matchedEngines.contains observation.engineId).map
      unexpectedRow

end Matrix

/-- `artifact.engine_observations.all()`, with their identities. -/
def observedOf (events : List AuditEvent) (tables : DeliveryTables) (artifactId : Str) :
    List Observed :=
  (inOrder (fun entry => entry.1.2) (tables.observations.entries.filter (·.1.1 = artifactId))).map
    fun entry => ⟨entry.1.2, entry.2, observationIdentityValues events entry.1.2 entry.2⟩

/-- `artifact.recipient_expectations.all()`, with their events. -/
def expectationsFor (events : List AuditEvent) (tables : DeliveryTables) (artifactId : Str) :
    List (RecipientExpectation × Option AuditEvent) :=
  (tables.expectations.filter (·.artifactId = artifactId)).map fun expectation =>
    (expectation, eventOf events expectation.evidenceEvent)

/-- The recipient matrix of an artifact. -/
def artifactMatrix (events : List AuditEvent) (tables : DeliveryTables)
    (index : DeliveryIdentityIndex) (artifactId : Str) : List RecipientRow :=
  deliveryRecipientMatrix (observedOf events tables artifactId) index
    (expectationsFor events tables artifactId)

/-- The matrix reads the events that the rows cite, and no others. -/
theorem artifactMatrix_filter {events : List AuditEvent} {keep : AuditEvent → Bool}
    {rows : GroupProjections} (ids : (events.map (·.id)).Nodup)
    (cited : rows.Cites fun eventId => ∃ event ∈ events.filter keep, event.id = eventId)
    (index : DeliveryIdentityIndex) (artifactId : Str) :
    artifactMatrix events rows.delivery index artifactId =
      artifactMatrix (events.filter keep) rows.delivery index artifactId := by
  have sameObserved : observedOf events rows.delivery artifactId =
      observedOf (events.filter keep) rows.delivery artifactId := by
    apply List.map_congr_left
    intro entry member
    have stored := List.mem_of_mem_filter (mem_inOrder.mp member)
    rw [observationIdentityValues, observationIdentityValues,
      citedEvents_filter ids (cited.observations entry stored)]
  have sameExpectations : expectationsFor events rows.delivery artifactId =
      expectationsFor (events.filter keep) rows.delivery artifactId := by
    apply List.map_congr_left
    intro expectation member
    have stored := List.mem_of_mem_filter member
    rw [eventOf_filter ids (cited.expectations expectation stored)]
  rw [artifactMatrix, artifactMatrix, sameObserved, sameExpectations]

end Goggles
