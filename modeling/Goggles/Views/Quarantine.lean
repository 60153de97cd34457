/-
Module: Goggles.Views.Quarantine
Purpose: What the events of structurally quarantined files can change in the outputs of a group: the
  delivery identity index and the statuses inferred from it, and nothing else.
Trusted boundary: forensics/evidence.py; forensics/source_metadata.py; the queries of
  `rebuild_locked_group_projections`, `divergent_counts_for_group_ids` and `valid_events_for_group`.
  `icontains` and the text of a key of a JSON column are the database's, and parameters
Main exports: RetainedEvidence, structuralQuarantineExclusion, sessionSourceContexts, derivedOutputs,
  quarantineNoninterference_iff
-/
import Goggles.Analysis.MessageViews
import Goggles.Library.Grouping
import Goggles.Store.Deduplication
import Goggles.Views.Delivery
import Mathlib.Data.List.Basic

namespace Goggles

/-- `STRUCTURAL_QUARANTINE_ERRORS`. -/
def STRUCTURAL_QUARANTINE_ERRORS : List Str :=
  [lit "audit log contains multiple engine_ids",
    lit "audit log contains multiple " ++ lit "account_refs"]

/-- The stored events, each with the `validation_error` of its file. -/
structure RetainedEvidence where
  events : List AuditEvent
  validationError : Nat → Str
  ids : (events.map (·.id)).Nodup

/-- A recorder session: engine, account and session id. -/
abbrev RecorderSession := Str × Str × Str

/-- `SOURCE_KEYS`, with the width of the column of each. -/
def SOURCE_KEYS : List (Str × Nat) :=
  [(lit "device_id", 255), (lit "hardware_model", 255), (lit "platform", 120),
    (lit "app_version", 120), (lit "upload_trigger", 160)]

section Outputs

variable (icontains : Str → Str → Bool) (keyText : Dict → Str → Option Str)

/-- `structural_quarantine_exclusion`, of the validation error of a file. -/
def structuralQuarantineExclusion (validationError : Str) : Bool :=
  STRUCTURAL_QUARANTINE_ERRORS.all fun error => !icontains validationError error

/-- The file of the event is not structurally quarantined. -/
def RetainedEvidence.counts (evidence : RetainedEvidence) (event : AuditEvent) : Bool :=
  structuralQuarantineExclusion icontains (evidence.validationError event.auditFileId)

/-- The events that pass `structural_quarantine_exclusion`. -/
def RetainedEvidence.counted (evidence : RetainedEvidence) : List AuditEvent :=
  evidence.events.filter (evidence.counts icontains)

/-- `valid_events_for_group`. -/
def validEventsForGroup (evidence : RetainedEvidence) (groupId : Nat) : List AuditEvent :=
  inOrder eventOrderKey (validGroupEvents (evidence.counted icontains) groupId)

/-! ### Session sources -/

/-- The sessions whose events a group shows. -/
def groupSessions (evidence : RetainedEvidence) (groupId : Nat) : List RecorderSession :=
  ((validEventsForGroup icontains evidence groupId).filter
    (·.schemaVersion = SCHEMA_VERSION)).map fun event =>
      (event.engineId, event.accountRef, event.recorderSessionId)

/-- `sorted({tuple(session) for session in sessions if all(session)})`. -/
def identifiedSessions (sessions : List RecorderSession) : List RecorderSession :=
  inOrder (fun session => toLex (session.1, toLex (session.2.1, session.2.2)))
    (sessions.filter fun session =>
      session.1 ≠ [] && session.2.1 ≠ [] && session.2.2 ≠ []).dedup

/-- `by_identity`: the session ids of each engine and account. -/
def sessionsByIdentity (sessions : List RecorderSession) : Keyed (Str × Str) (List Str) :=
  Keyed.gather Keyed.appendItem (sessions.map fun session =>
    ((session.1, session.2.1), session.2.2))

/-- `matches`: one condition for each engine and account. -/
def matchesSessions (sessions : List RecorderSession) (event : AuditEvent) : Bool :=
  (sessionsByIdentity sessions).entries.any fun entry =>
    event.engineId = entry.1.1 && event.accountRef = entry.1.2 &&
      entry.2.contains event.recorderSessionId

/-- The row of an event in `session_source_contexts`. -/
def sourceRow (event : AuditEvent) : Str × List (Str × Option Str) :=
  (event.engineId, SOURCE_KEYS.map fun entry =>
    (entry.1, (keyText event.contextSource entry.1).map (·.take entry.2)))

/-- `session_source_contexts`, a hundred sessions at a time. -/
def sessionSourceContexts (evidence : RetainedEvidence) (sessions : List RecorderSession) :
    List (Str × List (Str × Option Str)) :=
  ((identifiedSessions sessions).toChunks 100).flatMap fun chunk =>
    (inOrder (fun event => toLex (event.seq.isNone, toLex (event.seq.getD 0, event.id)))
      ((evidence.counted icontains).filter fun event =>
        matchesSessions chunk event && event.schemaVersion = SCHEMA_VERSION &&
        event.parseStatus = .valid && !event.contextSource.isEmpty)).map (sourceRow keyText)

/-! ### The outputs -/

/-- The statuses of the recipient matrix of every artifact. -/
def recipientStatuses (events : List AuditEvent) (index : DeliveryIdentityIndex) :
    Option GroupProjections → List (Str × List DeliveryStatus)
  | none => []
  | some rows => rows.delivery.artifacts.entries.map fun entry =>
      (entry.1, (artifactMatrix events rows.delivery index entry.1).map (·.status))

structure DerivedOutputs where
  projections : Option GroupProjections
  divergentCount : Option Nat
  messageTraces : List MessageTrace
  sessionSources : List (Str × List (Str × Option Str))
  identityIndex : DeliveryIdentityIndex
  statuses : List (Str × List DeliveryStatus)

/-- What is derived from the evidence for a group. -/
def derivedOutputs (evidence : RetainedEvidence) (groupId : Nat) : DerivedOutputs :=
  let projections := rebuildGroup (evidence.counted icontains) groupId
  let identityIndex := deliveryIdentityIndex keyText evidence.events groupId
  { projections := projections
    divergentCount :=
      (divergentCountsForGroupIds (evidence.counted icontains) [groupId]).find groupId
    messageTraces := messageTracesForGroup (validEventsForGroup icontains evidence groupId)
    sessionSources :=
      sessionSourceContexts icontains keyText evidence (groupSessions icontains evidence groupId)
    identityIndex := identityIndex
    statuses := recipientStatuses evidence.events identityIndex projections }

/-! ### Two stores -/

/-- The identities that the index collects from an event. -/
def identityReaders : List (AuditEvent → Option Str) :=
  [fun event => nonBlank event.accountRef, fun event => nonBlank event.engineId, legacyPubkey keyText]

/-- Every identity that a valid event of a quarantined file carries in one store is carried by a valid
event of the group in the other. -/
def IdentitiesCovered (one two : RetainedEvidence) (groupId : Nat) : Prop :=
  ∀ event ∈ validGroupEvents one.events groupId, one.counts icontains event = false →
    ∀ read ∈ identityReaders keyText, ∀ value, read event = some value →
      ∃ other ∈ validGroupEvents two.events groupId, read other = some value

variable {icontains keyText}
variable {one two : RetainedEvidence} {groupId : Nat}

/-- An event that counts in one store is in the other. -/
theorem mem_of_counts (same : one.counted icontains = two.counted icontains) {event : AuditEvent}
    (member : event ∈ validGroupEvents one.events groupId)
    (counts : one.counts icontains event = true) :
    event ∈ validGroupEvents two.events groupId := by
  obtain ⟨stored, valid⟩ := List.mem_filter.mp member
  have counted : event ∈ two.counted icontains := same ▸ List.mem_filter.mpr ⟨stored, counts⟩
  exact List.mem_filter.mpr ⟨List.mem_of_mem_filter counted, valid⟩

/-- Covered identities are collected in the other store. -/
theorem distinctValues_subset (same : one.counted icontains = two.counted icontains)
    (covered : IdentitiesCovered icontains keyText one two groupId)
    {read : AuditEvent → Option Str} (isReader : read ∈ identityReaders keyText) :
    distinctValues (validGroupEvents one.events groupId) read ⊆
      distinctValues (validGroupEvents two.events groupId) read := by
  intro value collected
  obtain ⟨event, member, carried⟩ := mem_distinctValues.mp collected
  apply mem_distinctValues.mpr
  cases counts : one.counts icontains event with
  | true => exact ⟨event, mem_of_counts same member counts, carried⟩
  | false => exact covered event member counts read isReader value carried

/-- The identity indexes of a group are the same when the identities of quarantined files are covered
both ways, and only then. -/
theorem deliveryIdentityIndex_eq_iff (same : one.counted icontains = two.counted icontains) :
    deliveryIdentityIndex keyText one.events groupId =
        deliveryIdentityIndex keyText two.events groupId ↔
      IdentitiesCovered icontains keyText one two groupId ∧
        IdentitiesCovered icontains keyText two one groupId := by
  have byReader : deliveryIdentityIndex keyText one.events groupId =
      deliveryIdentityIndex keyText two.events groupId ↔
        ∀ read ∈ identityReaders keyText,
          distinctValues (validGroupEvents one.events groupId) read =
            distinctValues (validGroupEvents two.events groupId) read := by
    simp [deliveryIdentityIndex, identityReaders]
  rw [byReader]
  constructor
  · intro equal
    constructor
    · intro event member _ read isReader value carried
      apply mem_distinctValues.mp
      rw [← equal read isReader]
      exact mem_distinctValues.mpr ⟨event, member, carried⟩
    · intro event member _ read isReader value carried
      apply mem_distinctValues.mp
      rw [equal read isReader]
      exact mem_distinctValues.mpr ⟨event, member, carried⟩
  · rintro ⟨forth, back⟩ read isReader
    apply Finset.Subset.antisymm
    · exact distinctValues_subset same forth isReader
    · exact distinctValues_subset same.symm back isReader

/-- The statuses read the events that count, and the index. -/
theorem recipientStatuses_counted (evidence : RetainedEvidence) (index : DeliveryIdentityIndex) :
    recipientStatuses evidence.events index (rebuildGroup (evidence.counted icontains) groupId) =
      recipientStatuses (evidence.counted icontains) index
        (rebuildGroup (evidence.counted icontains) groupId) := by
  cases rebuilt : rebuildGroup (evidence.counted icontains) groupId with
  | none => rfl
  | some rows =>
      have cited : rows.Cites fun eventId =>
          ∃ event ∈ evidence.counted icontains, event.id = eventId := by
        apply (rebuildGroup_cites rebuilt).mono
        rintro eventId ⟨event, member, sameId⟩
        exact ⟨event, List.mem_of_mem_filter member, sameId⟩
      apply List.map_congr_left
      intro entry _
      rw [artifactMatrix_filter evidence.ids cited]
      rfl

/-- Two stores that differ in the events of quarantined files alone give a group the same outputs, if
and only if the identities that these events carry are in both stores. -/
theorem quarantineNoninterference_iff (icontains : Str → Str → Bool)
    (keyText : Dict → Str → Option Str) {one two : RetainedEvidence}
    (same : one.counted icontains = two.counted icontains) (groupId : Nat) :
    derivedOutputs icontains keyText one groupId = derivedOutputs icontains keyText two groupId ↔
      IdentitiesCovered icontains keyText one two groupId ∧
        IdentitiesCovered icontains keyText two one groupId := by
  rw [← deliveryIdentityIndex_eq_iff same]
  constructor
  · intro equal
    exact congrArg DerivedOutputs.identityIndex equal
  · intro sameIndex
    have sameEvents : validEventsForGroup icontains one groupId =
        validEventsForGroup icontains two groupId := by
      rw [validEventsForGroup, validEventsForGroup, same]
    have sameSessions : groupSessions icontains one groupId = groupSessions icontains two groupId := by
      rw [groupSessions, groupSessions, sameEvents]
    have sameSources : sessionSourceContexts icontains keyText one
          (groupSessions icontains one groupId) =
        sessionSourceContexts icontains keyText two (groupSessions icontains two groupId) := by
      rw [sessionSourceContexts, sessionSourceContexts, sameSessions, same]
    have sameStatuses :
        recipientStatuses one.events (deliveryIdentityIndex keyText one.events groupId)
            (rebuildGroup (one.counted icontains) groupId) =
          recipientStatuses two.events (deliveryIdentityIndex keyText two.events groupId)
            (rebuildGroup (two.counted icontains) groupId) := by
      rw [recipientStatuses_counted, recipientStatuses_counted, sameIndex, same]
    unfold derivedOutputs
    rw [DerivedOutputs.mk.injEq]
    exact ⟨by rw [same], by rw [same], by rw [sameEvents], sameSources, sameIndex, sameStatuses⟩

end Outputs

/-- A record of a message that the member `d…` should receive. -/
def expectingRecord : Str :=
  recordText (lit "e") (lit "ab") 100 []
    (lit "\x7b\"type\":\"recipient_expectation\"," ++ lit "\"msg_id\":\"" ++ List.replicate 64 0x61 ++
      lit "\",\"expectation\":\x7b\"artifact_kind\":" ++ lit "\"application_message\"," ++
      lit "\"recipient_scope\":\"explicit_members\"," ++ lit "\"expected_member_refs\":[\"" ++
      List.replicate 32 0x64 ++ lit "\"]\x7d\x7d")

def expectingEnv : Env :=
  digestEnv
    [(expectingRecord, lit "9ccdcfb10800119df9f7cc743fe77aea" ++ lit "5c7704ce5ad29ec731f36a1d67845a44")]

/-- The upload of the record, next to a legacy file whose events claim an engine and an account. -/
def expectingEvents (claimed : List (Str × Str)) : List AuditEvent :=
  (storeAfter expectingEnv [uploadOf [expectingRecord]]).events ++
    claimed.mapIdx fun index identity =>
      { id := index + 2, groupId := some 1, auditFileId := 2, lineNumber := index + 1, lineHash := [],
        rawLine := [], rawEvent := .null, rawKind := .null, rawContext := .null,
        parseStatus := .valid, validationError := [],
        schemaVersion := lit "marmot-forensics-audit/v3", recorderSessionId := [],
        auditDataMode := [], seq := none, wallTimeMs := some 200, accountRef := identity.2,
        engineId := identity.1, groupRef := lit "ab", eventType := lit "send_entry",
        normalized := [] }

/-- The second file is the one that is quarantined. -/
def legacyFileErrors (fileId : Nat) : Str :=
  if fileId = 2 then lit "audit log contains multiple engine_ids" else []

/-- The legacy file has no events. -/
def expectingEvidence : RetainedEvidence where
  events := expectingEvents []
  validationError := legacyFileErrors
  ids := by decide +kernel

/-- The legacy file claims the engine of the record, and no account. -/
def knownEvidence : RetainedEvidence where
  events := expectingEvents [(lit "e", [])]
  validationError := legacyFileErrors
  ids := by decide +kernel

/-- The legacy file claims two engines, one of them of the member. -/
def claimingEvidence : RetainedEvidence where
  events := expectingEvents [(lit "e", []), (lit "f", List.replicate 32 0x64)]
  validationError := legacyFileErrors
  ids := by decide +kernel

/-- `icontains`, on ASCII texts. -/
def asciiContains (text part : Str) : Bool := inText (part.map asciiLower) (text.map asciiLower)

/-- The text of a key that holds a text. -/
def textOfKey (fields : Dict) (key : Str) : Option Str :=
  match fields.get key with
  | .str value => some value
  | _ => none

/-- A legacy file that claims what a counted event carries changes nothing. -/
theorem quarantineNoninterference_known :
    derivedOutputs asciiContains textOfKey expectingEvidence 1 =
      derivedOutputs asciiContains textOfKey knownEvidence 1 := by
  have facts : expectingEvidence.counted asciiContains = knownEvidence.counted asciiContains ∧
      (∀ event ∈ validGroupEvents expectingEvidence.events 1,
        expectingEvidence.counts asciiContains event = true) ∧
      (∀ event ∈ validGroupEvents knownEvidence.events 1,
        knownEvidence.counts asciiContains event = false →
          nonBlank event.accountRef = none ∧ nonBlank event.engineId = some (lit "e") ∧
            legacyPubkey textOfKey event = none) ∧
      ∃ other ∈ validGroupEvents expectingEvidence.events 1,
        nonBlank other.engineId = some (lit "e") := by
    decide +kernel
  obtain ⟨same, none_quarantined, claims, recorded⟩ := facts
  apply (quarantineNoninterference_iff asciiContains textOfKey same 1).mpr
  constructor
  · intro event member uncounted
    rw [none_quarantined event member] at uncounted
    cases uncounted
  · intro event member uncounted read isReader value carried
    obtain ⟨noAccount, engine, noKey⟩ := claims event member uncounted
    simp only [identityReaders, List.mem_cons, List.not_mem_nil, or_false] at isReader
    rcases isReader with rfl | rfl | rfl
    · cases noAccount.symm.trans carried
    · cases engine.symm.trans carried
      exact recorded
    · cases noKey.symm.trans carried

/-- The quarantined file makes the member, of whom no counted event tells, a member who missed the
message. -/
theorem quarantineNoninterference_fails_member :
    expectingEvidence.counted asciiContains = claimingEvidence.counted asciiContains ∧
      (derivedOutputs asciiContains textOfKey expectingEvidence 1).statuses =
        [(List.replicate 64 0x61, [.unobservedNoUploadedEngine, .observedNotExpected])] ∧
      (derivedOutputs asciiContains textOfKey claimingEvidence 1).statuses =
        [(List.replicate 64 0x61, [.missingInferred, .observedNotExpected])] := by
  decide +kernel

end Goggles
