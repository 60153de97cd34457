/-
Module: Goggles.Views.RecipientMatrix
Purpose: The recipient matrix of an artifact accounts for every observation: what an expectation
  matches is listed by its rows and by no other kind of row, and a row of counts adds up.
Trusted boundary: none beyond the modules it imports
Main exports: listings, CountsAddUp, Observed.BySource, MatrixAccounts, artifactMatrix_accounts
-/
import Goggles.Views.Delivery

namespace Goggles

/-! ### What a matrix must account for -/

/-- Any row but one of an observation that no expectation matches. -/
def RecipientRow.isExpected (row : RecipientRow) : Bool := row.status ≠ .observedNotExpected

/-- How many rows of a kind list the observation of an engine. -/
def listings (expected : Bool) (rows : List RecipientRow) (engineId : Str) : Nat :=
  rows.countP fun row => row.isExpected == expected && row.observations.contains engineId

/-- The counts of a row, among so many observations. -/
structure CountsAddUp (total : Nat) (row : RecipientRow) : Prop where
  observed : row.observedCount = some row.observations.length
  excluded : ∃ excluded, row.excludedObservationCount = some excluded ∧
    row.observations.length + excluded = total
  missing : ∃ expected missing, row.expectedCount = some expected ∧ row.missingCount = some missing ∧
    (missing : Int) = max ((expected : Int) - row.observations.length) 0

/-- The observation is by the engine of an event, or by an account that the event's source names. -/
def Observed.BySource (events : List AuditEvent) (observed : Observed) (event : AuditEvent) : Prop :=
  (event.engineId ≠ [] ∧ observed.engineId = event.engineId) ∨
  (event.accountRef ≠ [] ∧ observed.observation.accountRef = event.accountRef) ∨
  ∃ pubkey, event.contextSource.get "account_pubkey_hex" = .str pubkey ∧
    ∃ cited ∈ citedEvents events observed.observation.evidence, observedPubkey cited = some pubkey

/-- The rows of a matrix account for the observations of its artifact. -/
structure MatrixAccounts (events : List AuditEvent) (observed : List Observed)
    (rows : List RecipientRow) : Prop where
  once : ∀ observation ∈ observed,
    (1 ≤ listings true rows observation.engineId ∧ listings false rows observation.engineId = 0) ∨
    (listings true rows observation.engineId = 0 ∧ listings false rows observation.engineId = 1)
  counts : ∀ row ∈ rows, row.recipientType = .countOnly → CountsAddUp observed.length row
  ownSource : ∀ row ∈ rows, row.recipientType = .countOnly →
    recipientScopeExcludesExpectationSource row.recipientScope = true →
    ∀ event, row.evidenceEvent.bind (eventOf events) = some event →
    ∀ observation ∈ observed, observation.BySource events event →
      observation.engineId ∉ row.observations

/-! ### The rows of one expectation -/

section Expectation

variable {observed : List Observed} {index : DeliveryIdentityIndex}
variable {entry : RecipientExpectation × Option AuditEvent}

theorem countOnlyRecipientObservations_eq (expectation : RecipientExpectation)
    (source : Option AuditEvent) :
    countOnlyRecipientObservations observed expectation source =
      (observed.filter fun observation =>
        !(recipientScopeExcludesExpectationSource expectation.recipientScope &&
          source.any observation.matchesExpectationSource),
       observed.filter fun observation =>
        recipientScopeExcludesExpectationSource expectation.recipientScope &&
          source.any observation.matchesExpectationSource) := by
  rw [countOnlyRecipientObservations, List.partition_eq_filter_filter]
  simp only [Function.comp_def, Bool.not_not]

theorem countOnlyExpectationStatus_ne (expectedCount observedCount : Nat) :
    countOnlyExpectationStatus expectedCount observedCount ≠ .observedNotExpected := by
  unfold countOnlyExpectationStatus
  split_ifs <;> exact nofun

theorem deliveryExpectedStatus_ne (recipientType : RecipientType) (recipientId : Json)
    (matched : List Observed) :
    deliveryExpectedStatus index recipientType recipientId matched ≠ .observedNotExpected := by
  unfold deliveryExpectedStatus
  split
  · exact nofun
  · cases recipientType with
    | memberRef | pubkeyHex => dsimp only; split_ifs <;> exact nofun
    | countOnly | engine => exact nofun

/-- No row of an expectation is of the unexpected kind. -/
theorem isExpected_of_mem {row : RecipientRow} (member : row ∈ (recipientRows observed index entry).1) :
    row.isExpected = true := by
  rw [RecipientRow.isExpected, decide_eq_true_eq]
  rw [recipientRows] at member
  split at member
  · rw [List.mem_singleton.mp member]
    exact countOnlyExpectationStatus_ne _ _
  · obtain ⟨expected, -, rfl⟩ := List.mem_map.mp member
    exact deliveryExpectedStatus_ne _ _ _

/-- The rows of an expectation list the observations that it matches. -/
theorem lists_iff_matched {engineId : Str} :
    (∃ row ∈ (recipientRows observed index entry).1, engineId ∈ row.observations) ↔
      engineId ∈ (recipientRows observed index entry).2.map (·.engineId) := by
  rw [recipientRows]
  split
  · constructor
    · rintro ⟨row, member, listed⟩
      rw [List.mem_singleton.mp member] at listed
      exact listed
    · exact fun listed => ⟨_, List.mem_singleton_self _, listed⟩
  · rw [List.map_flatMap, List.mem_flatMap]
    constructor
    · rintro ⟨row, member, listed⟩
      obtain ⟨expected, isExpected, rfl⟩ := List.mem_map.mp member
      exact ⟨expected, isExpected, listed⟩
    · rintro ⟨expected, isExpected, listed⟩
      exact ⟨_, List.mem_map_of_mem isExpected, listed⟩

/-- The row of counts of an expectation. -/
theorem eq_countOnlyRow {row : RecipientRow} (member : row ∈ (recipientRows observed index entry).1)
    (counting : row.recipientType = .countOnly) :
    ∃ expectedCount, row = countOnlyRow entry.1 expectedCount
      (countOnlyRecipientObservations observed entry.1 entry.2).1
      (countOnlyRecipientObservations observed entry.1 entry.2).2 := by
  rw [recipientRows] at member
  split at member
  · next expectedCount _ found => exact ⟨_, List.mem_singleton.mp member⟩
  · obtain ⟨expected, isExpected, rfl⟩ := List.mem_map.mp member
    -- the rows of named recipients are of the two named kinds
    have named : expected.1 = .countOnly := counting
    rw [expectationIdentityRows, List.mem_append, List.mem_map, List.mem_map] at isExpected
    obtain ⟨_, -, rfl⟩ | ⟨_, -, rfl⟩ := isExpected
    · cases named
    · cases named

theorem countOnlyRow_addsUp (expectedCount : Nat) (expectation : RecipientExpectation)
    (source : Option AuditEvent) :
    CountsAddUp observed.length (countOnlyRow expectation expectedCount
      (countOnlyRecipientObservations observed expectation source).1
      (countOnlyRecipientObservations observed expectation source).2) := by
  rw [countOnlyRecipientObservations_eq]
  have whole := @List.length_eq_length_filter_add _ observed fun observation =>
    recipientScopeExcludesExpectationSource expectation.recipientScope &&
      source.any observation.matchesExpectationSource
  refine ⟨?_, ⟨_, rfl, ?_⟩, ⟨expectedCount, _, rfl, rfl, ?_⟩⟩
  · simp only [countOnlyRow, List.length_map]
  · simp only [countOnlyRow, List.length_map]
    omega
  · simp only [countOnlyRow, List.length_map]
    omega

/-- An observation that the source made matches it. -/
theorem matchesExpectationSource_of_bySource {events : List AuditEvent} {engineId : Str}
    {observation : DeliveryObservation} {event : AuditEvent}
    (own : Observed.BySource events
      ⟨engineId, observation, observationIdentityValues events engineId observation⟩ event) :
    Observed.matchesExpectationSource
      ⟨engineId, observation, observationIdentityValues events engineId observation⟩ event = true := by
  rw [Observed.matchesExpectationSource, Bool.or_eq_true, Bool.or_eq_true]
  obtain ⟨named, same⟩ | ⟨named, same⟩ | ⟨pubkey, found, cited, member, key⟩ := own
  · exact .inl (.inl (by simpa using ⟨named, same⟩))
  · refine .inl (.inr ?_)
    have account : observation.accountRef = event.accountRef := same
    simp [observationIdentityValues, nonBlank, account, named]
  · apply Or.inr
    rw [found]
    simpa [observationIdentityValues] using ⟨cited, member, key⟩

end Expectation

/-! ### The matrix -/

section Matrix

variable {observed : List Observed} {index : DeliveryIdentityIndex}
variable {expectations : List (RecipientExpectation × Option AuditEvent)}

theorem listings_append (expected : Bool) (first second : List RecipientRow) (engineId : Str) :
    listings expected (first ++ second) engineId =
      listings expected first engineId + listings expected second engineId :=
  List.countP_append

/-- Rows of one kind are not listed among those of the other. -/
theorem listings_eq_zero {expected : Bool} {rows : List RecipientRow}
    (other : ∀ row ∈ rows, row.isExpected = !expected) (engineId : Str) :
    listings expected rows engineId = 0 := by
  rw [listings, List.countP_eq_zero]
  intro row member
  rw [other row member]
  cases expected <;> simp

/-- The observation of each engine that is kept has one row of its own. -/
theorem listings_unexpected (distinct : (observed.map (·.engineId)).Nodup) (keep : Str → Bool)
    {observation : Observed} (member : observation ∈ observed) :
    listings false ((observed.filter fun other => keep other.engineId).map unexpectedRow)
      observation.engineId = if keep observation.engineId then 1 else 0 := by
  have counted : listings false ((observed.filter fun other => keep other.engineId).map unexpectedRow)
      observation.engineId =
        ((observed.map (·.engineId)).filter keep).count observation.engineId := by
    rw [listings, List.countP_map, List.count, List.filter_map, List.countP_map]
    refine List.countP_congr fun other _ => ?_
    change (true && [other.engineId].contains observation.engineId) = true ↔
      (other.engineId == observation.engineId) = true
    rw [Bool.true_and, List.contains_iff_mem, List.mem_singleton, beq_iff_eq, eq_comm]
  rw [counted]
  split
  · next kept =>
      apply List.count_eq_one_of_mem (distinct.filter keep)
      exact List.mem_filter.mpr ⟨List.mem_map_of_mem member, kept⟩
  · next dropped =>
      apply List.count_eq_zero_of_not_mem
      exact fun found => dropped (List.mem_filter.mp found).2

/-- The rows of the expectations list an engine when one of them matches it. -/
theorem one_le_listings_iff {engineId : Str} :
    1 ≤ listings true ((expectations.map (recipientRows observed index)).flatMap Prod.fst) engineId ↔
      engineId ∈ ((expectations.map (recipientRows observed index)).flatMap Prod.snd).map
        (·.engineId) := by
  rw [listings, Nat.one_le_iff_ne_zero, Nat.ne_zero_iff_zero_lt, List.countP_pos_iff, List.map_flatMap,
    List.flatMap_map, List.flatMap_map]
  simp only [List.mem_flatMap]
  constructor
  · rintro ⟨row, ⟨entry, isEntry, member⟩, lists⟩
    rw [Bool.and_eq_true, List.contains_iff_mem] at lists
    exact ⟨entry, isEntry, lists_iff_matched.mp ⟨row, member, lists.2⟩⟩
  · rintro ⟨entry, isEntry, matched⟩
    obtain ⟨row, member, listed⟩ := lists_iff_matched.mpr matched
    refine ⟨row, ⟨entry, isEntry, member⟩, ?_⟩
    rw [isExpected_of_mem member, Bool.and_eq_true, List.contains_iff_mem]
    exact ⟨rfl, listed⟩

/-- An observation has a row of its own exactly when no expectation's row lists it. -/
theorem deliveryRecipientMatrix_once (distinct : (observed.map (·.engineId)).Nodup)
    {observation : Observed} (member : observation ∈ observed) :
    (1 ≤ listings true (deliveryRecipientMatrix observed index expectations) observation.engineId ∧
      listings false (deliveryRecipientMatrix observed index expectations) observation.engineId = 0) ∨
    (listings true (deliveryRecipientMatrix observed index expectations) observation.engineId = 0 ∧
      listings false (deliveryRecipientMatrix observed index expectations) observation.engineId = 1) := by
  have expectedRows : ∀ row ∈ (expectations.map (recipientRows observed index)).flatMap Prod.fst,
      row.isExpected = !false := by
    intro row isRow
    obtain ⟨rows, isEntry, found⟩ := List.mem_flatMap.mp isRow
    obtain ⟨entry, -, rfl⟩ := List.mem_map.mp isEntry
    exact isExpected_of_mem found
  have unexpectedRows : ∀ matched : List Str, ∀ row ∈
      (observed.filter fun other => !matched.contains other.engineId).map unexpectedRow,
      row.isExpected = !true := by
    intro matched row isRow
    obtain ⟨other, -, rfl⟩ := List.mem_map.mp isRow
    rfl
  have found := @one_le_listings_iff observed index expectations observation.engineId
  simp only [deliveryRecipientMatrix, listings_append, listings_eq_zero expectedRows,
    listings_eq_zero (unexpectedRows _), Nat.zero_add, Nat.add_zero]
  rw [listings_unexpected distinct (fun engineId => !List.contains _ engineId) member]
  by_cases matched : observation.engineId ∈
      ((expectations.map (recipientRows observed index)).flatMap Prod.snd).map (·.engineId)
  · refine .inl ⟨found.mpr matched, ?_⟩
    rw [List.contains_iff_mem.mpr matched]
    rfl
  · refine .inr ⟨by_contra fun listed => matched (found.mp (Nat.one_le_iff_ne_zero.mpr listed)), ?_⟩
    rw [Bool.eq_false_iff.mpr (mt List.contains_iff_mem.mp matched)]
    rfl

/-- The rows of counts in a matrix are those of its expectations. -/
theorem countOnly_of_mem {row : RecipientRow}
    (member : row ∈ deliveryRecipientMatrix observed index expectations)
    (counting : row.recipientType = .countOnly) :
    ∃ entry ∈ expectations, ∃ expectedCount, row = countOnlyRow entry.1 expectedCount
      (countOnlyRecipientObservations observed entry.1 entry.2).1
      (countOnlyRecipientObservations observed entry.1 entry.2).2 := by
  rw [deliveryRecipientMatrix, List.mem_append, List.flatMap_map, List.mem_flatMap] at member
  obtain ⟨entry, isEntry, isRow⟩ | unexpected := member
  · exact ⟨entry, isEntry, eq_countOnlyRow isRow counting⟩
  · obtain ⟨observation, -, rfl⟩ := List.mem_map.mp unexpected
    cases counting

end Matrix

/-- An artifact has one observation for each engine. -/
theorem nodup_engineId_observedOf (events : List AuditEvent) (tables : DeliveryTables)
    (artifactId : Str) : ((observedOf events tables artifactId).map (·.engineId)).Nodup := by
  rw [observedOf, List.map_map]
  refine ((perm_inOrder _ _).map _).nodup_iff.mpr ?_
  refine List.Nodup.map_on ?_ (tables.observations.entries_nodup.filter _)
  intro first firstMember second secondMember same
  obtain ⟨firstStored, firstArtifact⟩ := List.mem_filter.mp firstMember
  obtain ⟨secondStored, secondArtifact⟩ := List.mem_filter.mp secondMember
  rw [decide_eq_true_eq] at firstArtifact secondArtifact
  apply List.inj_on_of_nodup_map tables.observations.unique firstStored secondStored
  exact Prod.ext (firstArtifact.trans secondArtifact.symm) same

/-- The matrix of an artifact accounts for the observations of the artifact. -/
theorem artifactMatrix_accounts (events : List AuditEvent) (tables : DeliveryTables)
    (index : DeliveryIdentityIndex) (artifactId : Str) :
    MatrixAccounts events (observedOf events tables artifactId)
      (artifactMatrix events tables index artifactId) where
  once observation member := deliveryRecipientMatrix_once
    (nodup_engineId_observedOf events tables artifactId) member
  counts row member counting := by
    obtain ⟨entry, -, expectedCount, rfl⟩ := countOnly_of_mem member counting
    exact countOnlyRow_addsUp expectedCount entry.1 entry.2
  ownSource row member counting scope event source observation isObserved own := by
    obtain ⟨entry, isEntry, expectedCount, rfl⟩ := countOnly_of_mem member counting
    obtain ⟨expectation, -, rfl⟩ := List.mem_map.mp isEntry
    obtain ⟨stored, isStored, rfl⟩ := List.mem_map.mp isObserved
    have sourced : eventOf events expectation.evidenceEvent = some event := source
    have excludes : recipientScopeExcludesExpectationSource expectation.recipientScope = true := scope
    intro listed
    obtain ⟨other, isCounted, sameEngine⟩ := List.mem_map.mp listed
    rw [countOnlyRecipientObservations_eq, sourced, List.mem_filter] at isCounted
    have same := List.inj_on_of_nodup_map (nodup_engineId_observedOf events tables artifactId)
      isCounted.1 (List.mem_map_of_mem isStored) sameEngine
    have counted := isCounted.2
    rw [same, excludes, Option.any_some, matchesExpectationSource_of_bySource own] at counted
    cases counted

end Goggles
