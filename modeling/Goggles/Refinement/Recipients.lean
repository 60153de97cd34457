/-
Module: Goggles.Refinement.Recipients
Purpose: When the recipient matrix of an artifact tells the truth about the members it lists: an
  observation keeps one account for each engine, the first that the engine's events name.
Trusted boundary: none beyond the modules it imports
Main exports: NoFalseMissing, projectionOrder, FirstAccounts, noFalseMissing_iff
-/
import Goggles.Refinement.ExactlyOnce
import Goggles.Views.Quarantine

namespace Goggles

/-! ### The account of an observation -/

/-- The first account that the events name. -/
def firstAccount (events : List AuditEvent) : Option Str :=
  (events.filterMap fun event => nonBlank event.accountRef).head?

/-- The account that a row names. -/
def accountOf (found : Option DeliveryObservation) : Option Str :=
  found.bind fun row => nonBlank row.accountRef

theorem nonBlank_eq_some_iff {text value : Str} :
    nonBlank text = some value ↔ text ≠ [] ∧ text = value := by
  rw [nonBlank]
  split
  · next blank => simp [blank]
  · next named => simp [named]

theorem firstAccount_cons (event : AuditEvent) (rest : List AuditEvent) :
    firstAccount (event :: rest) = (nonBlank event.accountRef).or (firstAccount rest) := by
  rw [firstAccount, List.filterMap_cons]
  cases nonBlank event.accountRef with
  | none => rfl
  | some account => rfl

/-- An event gives its account to a row that has none. -/
theorem accountOf_projectDeliveryObservation (event : AuditEvent)
    (found : Option DeliveryObservation) :
    accountOf (some (projectDeliveryObservation event found)) =
      (accountOf found).or (nonBlank event.accountRef) := by
  cases found with
  | none =>
      by_cases blank : event.accountRef = []
      · simp [accountOf, projectDeliveryObservation, newObservation, nonBlank, blank]
      · simp [accountOf, projectDeliveryObservation, newObservation, nonBlank, blank]
  | some row =>
      by_cases blank : row.accountRef = []
      · by_cases unnamed : event.accountRef = []
        · simp [accountOf, projectDeliveryObservation, nonBlank, blank, unnamed]
        · simp [accountOf, projectDeliveryObservation, nonBlank, blank, unnamed]
      · simp [accountOf, projectDeliveryObservation, nonBlank, blank]

/-- An observation row names the first account of its events. -/
theorem accountOf_observationOf (events : List AuditEvent) :
    accountOf (observationOf events) = firstAccount events := by
  suffices general : ∀ found : Option DeliveryObservation,
      accountOf (events.foldl (fun found event => some (projectDeliveryObservation event found))
        found) = (accountOf found).or (firstAccount events) from general none
  induction events with
  | nil =>
      intro found
      exact (Option.or_none).symm
  | cons event rest inductionHypothesis =>
      intro found
      rw [List.foldl_cons, inductionHypothesis, accountOf_projectDeliveryObservation,
        firstAccount_cons, Option.or_assoc]

/-! ### The rows of a member -/

/-- An engine's observation of the message names the recipient. -/
def ObservedAs (order : List AuditEvent) (messageId : Str) (recipient : Json) : Prop :=
  ∃ engineId account, firstAccount (observationsBy order messageId engineId) = some account ∧
    Json.str account = recipient

theorem mem_observedOf {events : List AuditEvent} {tables : DeliveryTables} {messageId : Str}
    {observed : Observed} :
    observed ∈ observedOf events tables messageId ↔ ∃ engineId row,
      tables.observations.find (messageId, engineId) = some row ∧
        ⟨engineId, row, observationIdentityValues events engineId row⟩ = observed := by
  simp only [observedOf, List.mem_map, mem_inOrder, List.mem_filter, Keyed.find_eq_some_iff,
    decide_eq_true_eq]
  constructor
  · rintro ⟨⟨⟨artifactId, engineId⟩, row⟩, ⟨member, rfl⟩, rfl⟩
    exact ⟨engineId, row, member, rfl⟩
  · rintro ⟨engineId, row, member, rfl⟩
    exact ⟨((messageId, engineId), row), ⟨member, rfl⟩, rfl⟩

/-- A member matches the observations that name it. -/
theorem matchesExpected_memberRef_iff {events : List AuditEvent} {engineId : Str}
    {row : DeliveryObservation} {recipient : Json} :
    Observed.matchesExpected ⟨engineId, row, observationIdentityValues events engineId row⟩
        .memberRef recipient = true ↔
      ∃ account, accountOf (some row) = some account ∧ Json.str account = recipient := by
  simp [Observed.matchesExpected, observationIdentityValues, accountOf]

section Matrix

variable {events order : List AuditEvent} {tables : DeliveryTables} {index : DeliveryIdentityIndex}
  {messageId : Str} {recipient : Json}

theorem matchedObservations_ne_nil_iff (sound : SoundEvents order)
    (shown : tables = deliveryOf order) :
    matchedObservations (observedOf events tables messageId) (.memberRef, recipient) ≠ [] ↔
      ObservedAs order messageId recipient := by
  constructor
  · intro something
    obtain ⟨observed, member⟩ := List.exists_mem_of_ne_nil _ something
    obtain ⟨listed, matched⟩ := List.mem_filter.mp member
    obtain ⟨engineId, row, found, rfl⟩ := mem_observedOf.mp listed
    obtain ⟨account, named, same⟩ := matchesExpected_memberRef_iff.mp matched
    rw [← found, shown, find_observations_deliveryOf sound, accountOf_observationOf] at named
    exact ⟨engineId, account, named, same⟩
  · rintro ⟨engineId, account, named, same⟩
    rw [← accountOf_observationOf, ← find_observations_deliveryOf sound, ← shown] at named
    obtain ⟨row, found, -⟩ := Option.bind_eq_some_iff.mp named
    apply List.ne_nil_of_mem
    apply List.mem_filter.mpr
    refine ⟨mem_observedOf.mpr ⟨engineId, row, found, rfl⟩, ?_⟩
    apply matchesExpected_memberRef_iff.mpr
    exact ⟨account, found ▸ named, same⟩

/-- The rows of an expectation about members are those of the members it lists. -/
theorem mem_recipientRows_memberRef {observed : List Observed} {row : RecipientRow}
    (isMember : row.recipientType = .memberRef) (entry : RecipientExpectation × Option AuditEvent) :
    row ∈ (recipientRows observed index entry).1 ↔
      row.recipientId ∈ entry.1.expectedMemberRefs ∧
        row = expectedRow observed index entry.1 (.memberRef, row.recipientId) := by
  have listed : ∀ expected : RecipientType × Json, expected.1 = .memberRef →
      (expected ∈ expectationIdentityRows entry.1 ↔ expected.2 ∈ entry.1.expectedMemberRefs) := by
    rintro ⟨recipientType, recipientId⟩ rfl
    simp [expectationIdentityRows]
  rw [recipientRows]
  split
  · next nothing _ =>
      -- a row that counts is about no member
      have noMember : row.recipientId ∉ entry.1.expectedMemberRefs := by
        intro member
        have row := (listed (.memberRef, row.recipientId) rfl).mpr member
        rw [nothing] at row
        cases row
      constructor
      · intro member
        rw [List.mem_singleton.mp member] at isMember
        cases isMember
      · rintro ⟨member, -⟩
        exact absurd member noMember
  · rw [List.mem_map]
    constructor
    · rintro ⟨⟨recipientType, recipientId⟩, member, rfl⟩
      have same : recipientType = .memberRef := isMember
      subst same
      exact ⟨(listed _ rfl).mp member, rfl⟩
    · rintro ⟨member, same⟩
      exact ⟨(.memberRef, row.recipientId), (listed _ rfl).mpr member, same.symm⟩

/-- The rows of a matrix about members are those of the members that the expectations list. -/
theorem mem_artifactMatrix_memberRef {row : RecipientRow} (isMember : row.recipientType = .memberRef) :
    row ∈ artifactMatrix events tables index messageId ↔
      ∃ expectation ∈ tables.expectations, expectation.artifactId = messageId ∧
        row.recipientId ∈ expectation.expectedMemberRefs ∧
        row = expectedRow (observedOf events tables messageId) index expectation
          (.memberRef, row.recipientId) := by
  rw [artifactMatrix, deliveryRecipientMatrix, List.mem_append, List.flatMap_map, List.mem_flatMap]
  constructor
  · rintro (⟨entry, member, isRow⟩ | unexpected)
    · obtain ⟨expectation, stored, rfl⟩ := List.mem_map.mp member
      obtain ⟨isStored, ofMessage⟩ := List.mem_filter.mp stored
      have facts := (mem_recipientRows_memberRef isMember _).mp isRow
      exact ⟨expectation, isStored, of_decide_eq_true ofMessage, facts⟩
    · obtain ⟨observed, -, rfl⟩ := List.mem_map.mp unexpected
      cases isMember
  · rintro ⟨expectation, isStored, rfl, facts⟩
    apply Or.inl
    refine ⟨(expectation, eventOf events expectation.evidenceEvent), ?_, ?_⟩
    · apply List.mem_map_of_mem
      exact List.mem_filter.mpr ⟨isStored, decide_eq_true rfl⟩
    · exact (mem_recipientRows_memberRef isMember _).mpr facts

/-- A row about a member shows it as observed exactly when an observation names it, and as missing only
when an event of the group names it and no observation does. -/
theorem expectedRow_memberRef_status (observed : List Observed) (index : DeliveryIdentityIndex)
    (expectation : RecipientExpectation) (recipient : Json) :
    ((expectedRow observed index expectation (.memberRef, recipient)).status = .observed ↔
        matchedObservations observed (.memberRef, recipient) ≠ []) ∧
      ((expectedRow observed index expectation (.memberRef, recipient)).status = .missingInferred →
        matchedObservations observed (.memberRef, recipient) = [] ∧
          inIdentities index.accountRefs recipient = true) := by
  rw [expectedRow, deliveryExpectedStatus]
  by_cases nothing : matchedObservations observed (.memberRef, recipient) = []
  · by_cases known : inIdentities index.accountRefs recipient = true
    · simp [nothing, known]
    · simp [nothing, known]
  · simp [nothing]

theorem inIdentities_accountRefs {keyText : Dict → Str → Option Str} {groupId : Nat}
    (known : inIdentities (deliveryIdentityIndex keyText events groupId).accountRefs recipient =
      true) :
    ∃ event ∈ validGroupEvents events groupId, Json.str event.accountRef = recipient := by
  cases recipient with
  | str account =>
      obtain ⟨event, member, named⟩ := mem_distinctValues.mp (of_decide_eq_true known)
      exact ⟨event, member, congrArg Json.str (nonBlank_eq_some_iff.mp named).2⟩
  | _ => cases known

end Matrix

/-! ### The property and its condition -/

/-- An event refers to the message and is by the recipient. -/
def ToldBy (events : List AuditEvent) (messageId : Str) (recipient : Json) : Prop :=
  ∃ event ∈ events, refersTo event messageId ∧ Json.str event.accountRef = recipient

/-- The rows about members show a member as observed exactly when an event by the member refers to the
message, and as missing only when events of the group are by the member, but none of those. -/
def NoFalseMissing (rows : List RecipientRow) (events : List AuditEvent) (messageId : Str) : Prop :=
  ∀ row ∈ rows, row.recipientType = .memberRef →
    (row.status = .observed ↔ ToldBy events messageId row.recipientId) ∧
    (row.status = .missingInferred →
      (∃ event ∈ events, Json.str event.accountRef = row.recipientId) ∧
        ¬ ToldBy events messageId row.recipientId)

/-- An event expects the member to receive the message. -/
def ExpectsMember (events : List AuditEvent) (messageId : Str) (recipient : Json) : Prop :=
  ∃ event ∈ events, ∃ expectation ∈ expectationRows event,
    expectation.artifactId = messageId ∧ recipient ∈ expectation.expectedMemberRefs

/-- Every expected member by whom an event refers to the message is the first account that the events
of some engine about the message name, in the order the events were projected. -/
def FirstAccounts (order : List AuditEvent) (messageId : Str) : Prop :=
  ∀ recipient, ExpectsMember order messageId recipient → ToldBy order messageId recipient →
    ObservedAs order messageId recipient

section Order

variable {events order : List AuditEvent} {messageId : Str}

theorem ToldBy.perm {others : List AuditEvent} (perm : order.Perm others) {recipient : Json} :
    ToldBy order messageId recipient ↔ ToldBy others messageId recipient := by
  simp only [ToldBy, perm.mem_iff]

/-- What an observation names is told by an event. -/
theorem ObservedAs.toldBy {recipient : Json} (observedAs : ObservedAs order messageId recipient) :
    ToldBy order messageId recipient := by
  obtain ⟨engineId, account, first, same⟩ := observedAs
  obtain ⟨event, member, named⟩ := List.mem_filterMap.mp (List.mem_of_head? first)
  obtain ⟨listed, about⟩ := List.mem_filter.mp member
  rw [Bool.and_eq_true] at about
  refine ⟨event, listed, refersTo_iff.mpr about.2, ?_⟩
  rw [(nonBlank_eq_some_iff.mp named).2, same]

theorem expectsMember_iff (sound : SoundEvents order) {recipient : Json} :
    ExpectsMember order messageId recipient ↔
      ∃ expectation ∈ (deliveryOf order).expectations, expectation.artifactId = messageId ∧
        recipient ∈ expectation.expectedMemberRefs := by
  rw [expectations_deliveryOf sound, ExpectsMember]
  constructor
  · rintro ⟨event, member, expectation, made, facts⟩
    exact ⟨expectation, List.mem_flatMap.mpr ⟨event, member, made⟩, facts⟩
  · rintro ⟨expectation, listed, facts⟩
    obtain ⟨event, member, made⟩ := List.mem_flatMap.mp listed
    exact ⟨event, member, expectation, made, facts⟩

/-- The matrix that the rows of an order give. -/
theorem noFalseMissing_order_iff (keyText : Dict → Str → Option Str) {groupId : Nat}
    {tables : DeliveryTables} (sound : SoundEvents order)
    (perm : order.Perm (validGroupEvents events groupId)) (shown : tables = deliveryOf order) :
    NoFalseMissing
        (artifactMatrix events tables (deliveryIdentityIndex keyText events groupId) messageId)
        (validGroupEvents events groupId) messageId ↔
      FirstAccounts order messageId := by
  constructor
  · intro honest recipient expects told
    obtain ⟨expectation, stored, ofMessage, listed⟩ := (expectsMember_iff sound).mp expects
    rw [← shown] at stored
    have isRow : expectedRow (observedOf events tables messageId)
        (deliveryIdentityIndex keyText events groupId) expectation (.memberRef, recipient) ∈
          artifactMatrix events tables (deliveryIdentityIndex keyText events groupId) messageId :=
      (mem_artifactMatrix_memberRef rfl).mpr ⟨expectation, stored, ofMessage, listed, rfl⟩
    have observed := (honest _ isRow rfl).1.mpr ((ToldBy.perm perm).mp told)
    apply (matchedObservations_ne_nil_iff sound shown).mp
    exact (expectedRow_memberRef_status _ _ expectation recipient).1.mp observed
  · intro first row isRow isMember
    obtain ⟨expectation, stored, ofMessage, listed, same⟩ :=
      (mem_artifactMatrix_memberRef isMember).mp isRow
    have expects : ExpectsMember order messageId row.recipientId := by
      apply (expectsMember_iff sound).mpr
      exact ⟨expectation, shown ▸ stored, ofMessage, listed⟩
    have matched : matchedObservations (observedOf events tables messageId)
        (.memberRef, row.recipientId) ≠ [] ↔ ObservedAs order messageId row.recipientId :=
      matchedObservations_ne_nil_iff sound shown
    obtain ⟨observed_iff, of_missing⟩ := expectedRow_memberRef_status
      (observedOf events tables messageId) (deliveryIdentityIndex keyText events groupId) expectation
      row.recipientId
    rw [same]
    refine ⟨?_, ?_⟩
    · rw [observed_iff, matched]
      constructor
      · intro observedAs
        exact (ToldBy.perm perm).mp observedAs.toldBy
      · intro told
        exact first _ expects ((ToldBy.perm perm).mpr told)
    · intro missing
      obtain ⟨unmatched, known⟩ := of_missing missing
      refine ⟨inIdentities_accountRefs known, ?_⟩
      intro told
      exact matched.mpr (first _ expects ((ToldBy.perm perm).mpr told)) unmatched

end Order

/-! ### Runs -/

instance (old new : List AuditEvent) : Decidable (NeedsBackfill old new) :=
  inferInstanceAs (Decidable (∃ stored ∈ old, ∃ fresh ∈ new, _ ∧ _))

/-- The order in which a group's events stand projected when new ones are stored: a backfill projects
them all anew, else the new ones follow the others. -/
def orderAfter (old new order : List AuditEvent) : List AuditEvent :=
  if NeedsBackfill old new then inOrder eventOrderKey (old ++ new)
  else order ++ inOrder eventOrderKey new

/-- An upload, next to the order in which the group's events stand projected. -/
def orderStep (env : Env) (groupId : Nat) (state : Store × List AuditEvent) (upload : Upload) :
    Store × List AuditEvent :=
  let next := afterUpload env state.1 upload
  let old := state.1.groupEvents groupId
  (next, orderAfter old ((next.groupEvents groupId).drop old.length) state.2)

/-- The order in which the uploads leave the events of a group projected. -/
def projectionOrder (env : Env) (uploads : List Upload) (groupId : Nat) : List AuditEvent :=
  (run (orderStep env groupId) (.empty, []) uploads).2

/-- The delivery rows of the group are those of the order. -/
structure OrderShown (groupId : Nat) (state : Store × List AuditEvent) : Prop where
  formed : WellFormed state.1
  perm : state.2.Perm (state.1.groupEvents groupId)
  shown : (state.1.projections groupId).delivery = deliveryOf state.2

theorem orderShown_empty (groupId : Nat) : OrderShown groupId (.empty, []) where
  formed := .empty
  perm := .refl _
  shown := rfl

theorem orderAfter_nil (old order : List AuditEvent) : orderAfter old [] order = order := by
  have notNeeded : ¬ NeedsBackfill old [] := by
    rintro ⟨-, -, fresh, member, -⟩
    cases member
  rw [orderAfter, if_neg notNeeded]
  exact List.append_nil order

theorem OrderShown.next {groupId : Nat} {state : Store × List AuditEvent}
    (ordered : OrderShown groupId state) (env : Env) (upload : Upload) :
    OrderShown groupId (orderStep env groupId state upload) := by
  obtain ⟨store, order⟩ := state
  obtain ⟨formed, perm, shown⟩ := ordered
  have formedNext := formed.afterUpload env upload
  have idle : (afterUpload env store upload).groupEvents groupId = store.groupEvents groupId →
      (afterUpload env store upload).projections groupId = store.projections groupId →
        OrderShown groupId (orderStep env groupId (store, order) upload) := by
    intro sameEvents sameRows
    refine ⟨formedNext, ?_, ?_⟩
    · rw [orderStep, sameEvents, List.drop_length, orderAfter_nil]
      exact perm
    · rw [orderStep, sameEvents, List.drop_length, orderAfter_nil, sameRows]
      exact shown
  rcases afterUpload_cases env store upload with ⟨rejected, same⟩ | same | ⟨rawText, lines, stored⟩
  · exact idle (by rw [same]; rfl) (by rw [same]; rfl)
  · exact idle (by rw [same]) (by rw [same])
  · have split := stored.groupEvents_next groupId
    have new : ((afterUpload env store upload).groupEvents groupId).drop
        (store.groupEvents groupId).length = uploadGroupEvents env store upload lines groupId := by
      rw [split, List.drop_left]
    refine ⟨formedNext, ?_, ?_⟩
    · rw [orderStep, new, orderAfter, split]
      split
      · exact perm_inOrder _ _
      · exact perm.append (perm_inOrder _ _)
    · rw [orderStep, new, orderAfter]
      rcases stored.delivery_order formed groupId shown with ⟨needed, rows⟩ | ⟨notNeeded, rows⟩
      · rw [if_pos needed, rows, rebuiltDelivery, ← split]
        rfl
      · rw [if_neg notNeeded]
        exact rows

theorem run_orderStep_fst (env : Env) (groupId : Nat) (state : Store × List AuditEvent)
    (uploads : List Upload) :
    (run (orderStep env groupId) state uploads).1 = run (afterUpload env) state.1 uploads := by
  induction uploads generalizing state with
  | nil => rfl
  | cons upload rest inductionHypothesis =>
      rw [run_cons, run_cons, inductionHypothesis]
      rfl

/-- After every sequence of uploads, the recipient matrix of an artifact tells the truth about the
members it lists if and only if each of them that recorded the message is the first account that the
events of some engine about it name. -/
theorem noFalseMissing_iff (env : Env) (keyText : Dict → Str → Option Str) (uploads : List Upload)
    (groupId : Nat) (messageId : Str) :
    let store := run (afterUpload env) .empty uploads
    NoFalseMissing
        (artifactMatrix store.events (store.projections groupId).delivery
          (deliveryIdentityIndex keyText store.events groupId) messageId)
        (store.groupEvents groupId) messageId ↔
      FirstAccounts (projectionOrder env uploads groupId) messageId := by
  intro store
  have ordered : OrderShown groupId (run (orderStep env groupId) (.empty, []) uploads) := by
    apply run_invariant
    · intro state upload ordered
      exact ordered.next env upload
    · exact orderShown_empty groupId
  have same : (run (orderStep env groupId) (.empty, []) uploads).1 = store :=
    run_orderStep_fst env groupId (.empty, []) uploads
  have sound : SoundEvents (projectionOrder env uploads groupId) := fun event member =>
    ordered.formed.sound event (List.mem_of_mem_filter (ordered.perm.mem_iff.mp member))
  have perm := ordered.perm
  have shown := ordered.shown
  rw [same] at perm shown
  exact noFalseMissing_order_iff keyText sound perm shown

/-- The account of a record, whose reference repeats one digit. -/
def accountContext (digit : Char) : Str :=
  lit "\"account_ref\":\"" ++ List.replicate 32 digit.toNat ++ lit "\","

/-- A record by the account `c…` of a message that the member `d…` should receive. -/
def sentRecord : Str :=
  recordText (lit "e") (lit "ab") 100 (accountContext 'c')
    (lit "\x7b\"type\":\"recipient_expectation\"," ++ lit "\"msg_id\":\"" ++ List.replicate 64 0x61 ++
      lit "\",\"expectation\":\x7b\"artifact_kind\":" ++ lit "\"application_message\"," ++
      lit "\"recipient_scope\":\"explicit_members\"," ++ lit "\"expected_member_refs\":[\"" ++
      List.replicate 32 0x64 ++ lit "\"]\x7d\x7d")

/-- Knows the record, and the outcome that the member's log gives for the message, by the engine `e`. -/
def sharedEnv : Env :=
  digestEnv
    [(sentRecord, lit "26959653d6129919c589daf663defc89" ++ lit "49f9c656706619e16322840775f2d12a"),
      (outcomeRecord (lit "e") 200 (accountContext 'd') 'a',
        lit "73b6ec00789fb9a7063b4d9872d9533a" ++ lit "e822b6a3f77c4b6b4c7dde47c47f5752")]

/-- One engine records for both accounts, in a file for each. -/
def sharedUploads : List Upload :=
  [uploadOf [sentRecord], uploadOf [outcomeRecord (lit "e") 200 (accountContext 'd') 'a']]

/-- The member whose event tells of the message is said to have missed it. -/
theorem noFalseMissing_fails_sharedUploads :
    let store := run (afterUpload sharedEnv) .empty sharedUploads
    let rows := artifactMatrix store.events (store.projections 1).delivery
      (deliveryIdentityIndex textOfKey store.events 1) (List.replicate 64 0x61)
    rows.map (fun row => (row.recipientId, row.status)) =
        [(.str (List.replicate 32 0x64), .missingInferred),
          (.str (List.replicate 32 0x63), .observedNotExpected)] ∧
      ToldBy (store.groupEvents 1) (List.replicate 64 0x61) (.str (List.replicate 32 0x64)) ∧
      ¬ NoFalseMissing rows (store.groupEvents 1) (List.replicate 64 0x61) := by
  intro store rows
  have facts : rows.map (fun row => (row.recipientId, row.status)) =
      [(.str (List.replicate 32 0x64), .missingInferred),
        (.str (List.replicate 32 0x63), .observedNotExpected)] ∧
      ToldBy (store.groupEvents 1) (List.replicate 64 0x61) (.str (List.replicate 32 0x64)) ∧
      rows.any (fun row => row.recipientType = .memberRef ∧
        row.recipientId = .str (List.replicate 32 0x64) ∧ row.status = .missingInferred) = true := by
    simp only [ToldBy, refersTo]
    decide +kernel
  obtain ⟨statuses, told, about⟩ := facts
  refine ⟨statuses, told, ?_⟩
  intro honest
  obtain ⟨row, isRow, facts⟩ := List.any_eq_true.mp about
  obtain ⟨isMember, named, missing⟩ := of_decide_eq_true facts
  exact ((honest row isRow isMember).2 missing).2 (named ▸ told)

end Goggles
