/-
Module: Goggles.Investigation.Content
Purpose: What the sections of a bundle list, said of the bodies the evidence was made of: the
  selected records once each, the identities with more than one body, and for each message the
  records that mention it.
Trusted boundary: none beyond the modules it imports
Main exports: recordOrder, CanonicalContent, Holds.canonicalContent, SameSelection.bundleContent_eq
-/
import Goggles.Investigation.Bundle
import Goggles.Python.Utf8

namespace Goggles

/-- The sort key of a record: its session, its number, and its digest. -/
def recordOrder (env : Env) (record : Record) :
    Lex (Lex (Str × Lex (Str × Str)) × Lex (Int × Str)) :=
  evidenceOrder (env.sha256 record.body, record)

/-- The identity that a conflict is about. -/
def ConflictItem.key (item : ConflictItem) : Session × Int :=
  (item.identity, item.seq.integralValue)

/-- The row that `reconstruct` makes of a record. -/
def Record.model (record : Record) : AuditEvent :=
  Evidence.auditEventOf (normalizeEvent record.event).normalized

/-- A record of the group that mentions a message. -/
structure Mentions (bodies : List (List UInt8)) (group : Str) (msgId : Json) (record : Record) :
    Prop where
  selected : SelectedRecord bodies group record
  grouped : inGroup group record.event = true
  named : msgId ∈ eventMessageIdValues record.model

/-- What an entry of the evidence says of a record. -/
structure ListsRecord (env : Env) (bodies : List (List UInt8)) (record : Record)
    (item : EvidenceItem) : Prop where
  digest : item.sha256 = env.sha256 record.body
  body : encodeUtf8 item.body = record.body
  occurrences : item.occurrences = bodies.count record.body

/-- The sections of a bundle about a group of some bodies. -/
structure CanonicalContent (env : Env) (bodies : List (List UInt8)) (group : Str)
    (content : BundleContent) : Prop where
  /-- The selected records are listed, once each, in their order. -/
  evidence : ∃ records : List Record,
    (∀ record, record ∈ records ↔ SelectedRecord bodies group record) ∧
    records.Pairwise (fun left right => recordOrder env left < recordOrder env right) ∧
    List.Forall₂ (ListsRecord env bodies) records content.evidence
  /-- The identities of more than one body are listed, once each, in their order. -/
  conflictOrder : content.conflicts.Pairwise fun left right =>
    identityOrder left.key < identityOrder right.key
  conflicting : ∀ key, (∃ item ∈ content.conflicts, item.key = key) ↔
    ∃ left right, SelectedRecord bodies group left ∧ SelectedRecord bodies group right ∧
      left.body ≠ right.body ∧ identity left.event = key ∧ identity right.event = key
  /-- Each with the digests of its bodies. -/
  conflictRefs : ∀ item ∈ content.conflicts, item.evidenceRefs.Nodup ∧
    ∀ digest, digest ∈ item.evidenceRefs ↔ ∃ record, SelectedRecord bodies group record ∧
      identity record.event = item.key ∧ env.sha256 record.body = digest
  /-- The messages that are mentioned are traced, each with the digests of what mentions it. -/
  traced : ∀ msgId, (∃ item ∈ content.messageTraces, item.trace.msgId = msgId) ↔
    ∃ record, Mentions bodies group msgId record
  traceRefs : ∀ item ∈ content.messageTraces,
    item.evidenceRefs.Pairwise (· < ·) ∧
    ∀ digest, digest ∈ item.evidenceRefs ↔ ∃ record,
      Mentions bodies group item.trace.msgId record ∧ env.sha256 record.body = digest
  /-- Every digest that a trace lists is one of the evidence section. -/
  referenced : ∀ item ∈ content.messageTraces, ∀ digest ∈ item.evidenceRefs,
    digest ∈ content.evidence.map EvidenceItem.sha256

/-! ### Sorting by distinct keys -/

/-- Sorted entries whose keys are distinct ascend. -/
theorem inOrder_ascending {ε α : Type*} [LinearOrder α] {key : ε → α} {events : List ε}
    (distinct : Distinguishes key events) (once : events.Nodup) :
    (inOrder key events).Pairwise fun left right => key left < key right := by
  have apart := (perm_inOrder key events).nodup_iff.mpr once
  refine ((inOrder_sorted key events).and apart).imp_of_mem ?_
  rintro left right leftMember rightMember ⟨below, different⟩
  refine lt_of_le_of_ne below fun same => different ?_
  exact distinct left (mem_inOrder.mp leftMember) right (mem_inOrder.mp rightMember) same

/-- Two different items are enough to make a list without repetitions longer than one. -/
theorem two_le_length_iff {ε : Type*} {items : List ε} (once : items.Nodup) :
    2 ≤ items.length ↔ ∃ left ∈ items, ∃ right ∈ items, left ≠ right := by
  constructor
  · intro long
    rcases items with _ | ⟨first, _ | ⟨second, rest⟩⟩
    · simp at long
    · simp at long
    · refine ⟨first, by simp, second, by simp, ?_⟩
      rintro rfl
      simp at once
  · rintro ⟨left, leftMember, right, rightMember, different⟩
    rcases items with _ | ⟨first, _ | ⟨second, rest⟩⟩
    · cases leftMember
    · exact absurd ((List.mem_singleton.mp leftMember).trans (List.mem_singleton.mp rightMember).symm)
        different
    · simp

theorem Session.order_injective {left right : Session} (same : left.order = right.order) :
    left = right := by
  obtain ⟨engineId, accountRef, recorderSessionId⟩ := left
  obtain ⟨otherEngineId, otherAccountRef, otherRecorderSessionId⟩ := right
  simp only [Session.order, EmbeddingLike.apply_eq_iff_eq, Prod.mk.injEq] at same
  obtain ⟨rfl, rfl, rfl⟩ := same
  rfl

theorem identityOrder_injective {left right : Session × Int}
    (same : identityOrder left = identityOrder right) : left = right := by
  simp only [identityOrder, EmbeddingLike.apply_eq_iff_eq, Prod.mk.injEq] at same
  exact Prod.ext (Session.order_injective same.1) same.2

namespace Evidence

theorem distinguishes_evidenceOrder {evidence : Evidence} {group : Str} :
    Distinguishes evidenceOrder (evidence.selected group).entries := by
  rintro ⟨digest, record⟩ member ⟨other, otherRecord⟩ otherMember same
  simp only [evidenceOrder, EmbeddingLike.apply_eq_iff_eq, Prod.mk.injEq] at same
  obtain ⟨-, -, rfl⟩ := same
  rw [← Keyed.find_eq_some_iff] at member otherMember
  rw [member] at otherMember
  cases otherMember
  rfl

theorem orderedRecords_nodup (evidence : Evidence) (group : Str) :
    ((evidence.orderedRecords group).map Prod.fst).Nodup :=
  ((perm_inOrder _ _).map Prod.fst).nodup_iff.mpr (evidence.selected group).unique

/-- The records that are gathered for an identity. -/
theorem find_orderedIdentities {evidence : Evidence} {group : Str} {key : Session × Int}
    {entries : List (Str × Record)} :
    (evidence.orderedIdentities group).find key = some entries ↔ entries ≠ [] ∧
      entries = (evidence.orderedRecords group).filter fun entry =>
        identity entry.2.event = key := by
  have mine : (((evidence.orderedRecords group).map fun entry =>
      (identity entry.2.event, entry)).filter (·.1 = key)).map Prod.snd =
        (evidence.orderedRecords group).filter fun entry => identity entry.2.event = key := by
    rw [List.filter_map, List.map_map]
    simp [Function.comp_def]
  rw [← mine]
  exact Keyed.find_gather_appendItem

section Canonical

variable {env : Env} {bodies : List (List UInt8)} {evidence : Evidence} {group : Str}

theorem Holds.mem_orderedRecords (holds : Holds env bodies evidence)
    (distinct : DistinctDigests env bodies) {digest : Str} {record : Record} :
    (digest, record) ∈ evidence.orderedRecords group ↔
      SelectedRecord bodies group record ∧ env.sha256 record.body = digest := by
  rw [orderedRecords, mem_inOrder, ← Keyed.find_eq_some_iff, holds.find_selected_iff distinct]

/-- The text of a valid body encodes as the body. -/
theorem decoded_of_parseBody {body : List UInt8} {event : Dict}
    (parsed : parseBody body = .ok event) : ∃ text, decodeUtf8 body = some text ∧
      encodeUtf8 text = body ∧ (∀ char ∈ text, IsScalar char) ∧
        loadsAuditJson text = some (.dict event) := by
  unfold parseBody at parsed
  split at parsed
  · cases parsed
  cases decoded : decodeUtf8 body with
  | none =>
      rw [decoded] at parsed
      cases parsed
  | some text =>
      rw [decoded, Option.bind_some] at parsed
      split at parsed
      · next event loaded =>
          split at parsed
          · cases parsed
            have spec := decodeUtf8_spec decoded
            exact ⟨text, rfl, spec.1, spec.2, loaded⟩
          · cases parsed
      · cases parsed

/-- The evidence section. -/
theorem Holds.canonicalEvidence (holds : Holds env bodies evidence)
    (distinct : DistinctDigests env bodies) :
    ∃ records : List Record,
      (∀ record, record ∈ records ↔ SelectedRecord bodies group record) ∧
      records.Pairwise (fun left right => recordOrder env left < recordOrder env right) ∧
      List.Forall₂ (ListsRecord env bodies) records
        ((evidence.orderedRecords group).map fun entry =>
          ⟨entry.1, (decodeUtf8 entry.2.body).getD [], evidence.occurrence entry.1⟩) := by
  have member : ∀ {digest record}, (digest, record) ∈ evidence.orderedRecords group →
      SelectedRecord bodies group record ∧ env.sha256 record.body = digest := fun inside =>
    (holds.mem_orderedRecords distinct).mp inside
  refine ⟨(evidence.orderedRecords group).map Prod.snd, ?_, ?_, ?_⟩
  · intro record
    rw [List.mem_map]
    constructor
    · rintro ⟨entry, inside, rfl⟩
      exact (member inside).1
    · intro selected
      exact ⟨(env.sha256 record.body, record),
        (holds.mem_orderedRecords distinct).mpr ⟨selected, rfl⟩, rfl⟩
  · have ascending := inOrder_ascending (@distinguishes_evidenceOrder evidence group)
      (evidence.selected group).entries_nodup
    refine List.pairwise_map.mpr (ascending.imp_of_mem ?_)
    rintro ⟨digest, record⟩ ⟨other, otherRecord⟩ inside otherInside below
    obtain ⟨-, rfl⟩ := member inside
    obtain ⟨-, rfl⟩ := member otherInside
    exact below
  · rw [List.forall₂_map_left_iff, List.forall₂_map_right_iff, List.forall₂_same]
    rintro ⟨digest, record⟩ inside
    obtain ⟨selected, rfl⟩ := member inside
    obtain ⟨text, decoded, encoded, -⟩ := decoded_of_parseBody selected.parsed
    constructor
    · rfl
    · rw [decoded]
      exact encoded
    · exact (holds.occurrences _).trans
        (countP_digest distinct selected.present (List.Subset.refl _))

/-- The rows of the conflicts section. -/
def conflictRows (evidence : Evidence) (group : Str) :
    List ((Session × Int) × List (Str × Record)) :=
  (inOrder (fun row => identityOrder row.1) (evidence.orderedIdentities group).entries).filter
    fun row => 2 ≤ row.2.length

/-- The item of a row. -/
def conflictItem (row : (Session × Int) × List (Str × Record)) : ConflictItem :=
  ⟨row.1.1, ((row.2.head?.map fun entry => entry.2.event.get "seq").getD .null),
    row.2.map Prod.fst⟩

theorem mem_conflictRows {row : (Session × Int) × List (Str × Record)} :
    row ∈ evidence.conflictRows group ↔ 2 ≤ row.2.length ∧
      row.2 = (evidence.orderedRecords group).filter fun entry =>
        identity entry.2.event = row.1 := by
  obtain ⟨key, entries⟩ := row
  rw [conflictRows, List.mem_filter, mem_inOrder, ← Keyed.find_eq_some_iff,
    find_orderedIdentities, decide_eq_true_eq]
  constructor
  · rintro ⟨⟨-, same⟩, long⟩
    exact ⟨long, same⟩
  · rintro ⟨long, same⟩
    refine ⟨⟨?_, same⟩, long⟩
    rintro rfl
    simp at long

/-- An item is about a record of its row. -/
theorem exists_conflictItem_record {row : (Session × Int) × List (Str × Record)}
    (listed : row ∈ evidence.conflictRows group) :
    ∃ entry ∈ evidence.orderedRecords group, identity entry.2.event = row.1 ∧
      (conflictItem row).seq = entry.2.event.get "seq" := by
  obtain ⟨long, same⟩ := mem_conflictRows.mp listed
  obtain ⟨key, entries⟩ := row
  cases entries with
  | nil => simp at long
  | cons first rest =>
      have inside : first ∈ (evidence.orderedRecords group).filter fun entry =>
          identity entry.2.event = key := by
        rw [← same]
        exact List.mem_cons_self
      rw [List.mem_filter, decide_eq_true_eq] at inside
      exact ⟨first, inside.1, inside.2, rfl⟩

theorem conflictItem_key {row : (Session × Int) × List (Str × Record)}
    (listed : row ∈ evidence.conflictRows group) : (conflictItem row).key = row.1 := by
  obtain ⟨entry, -, mine, seq⟩ := exists_conflictItem_record listed
  rw [ConflictItem.key, seq, ← mine]
  exact Prod.ext (congrArg Prod.fst mine).symm rfl

theorem conflictRows_ascending :
    (evidence.conflictRows group).Pairwise fun left right =>
      identityOrder left.1 < identityOrder right.1 := by
  apply List.Pairwise.filter
  apply inOrder_ascending
  · rintro ⟨key, entries⟩ member ⟨other, otherEntries⟩ otherMember same
    obtain rfl := identityOrder_injective same
    rw [← Keyed.find_eq_some_iff] at member otherMember
    rw [member] at otherMember
    cases otherMember
    rfl
  · exact Keyed.entries_nodup _

theorem nodup_filter_orderedRecords (keep : Str × Record → Bool) :
    (((evidence.orderedRecords group).filter keep).map Prod.fst).Nodup :=
  (List.filter_sublist.map Prod.fst).nodup (evidence.orderedRecords_nodup group)

/-- An identity has a row when two bodies have it. -/
theorem Holds.exists_conflictRow_iff (holds : Holds env bodies evidence)
    (distinct : DistinctDigests env bodies) {key : Session × Int} :
    (∃ row ∈ evidence.conflictRows group, row.1 = key) ↔
      ∃ left right, SelectedRecord bodies group left ∧ SelectedRecord bodies group right ∧
        left.body ≠ right.body ∧ identity left.event = key ∧ identity right.event = key := by
  have once : ((evidence.orderedRecords group).filter fun entry =>
      identity entry.2.event = key).Nodup := (nodup_filter_orderedRecords _).of_map
  have listed : (∃ row ∈ evidence.conflictRows group, row.1 = key) ↔
      2 ≤ ((evidence.orderedRecords group).filter fun entry =>
        identity entry.2.event = key).length := by
    constructor
    · rintro ⟨row, member, rfl⟩
      obtain ⟨long, same⟩ := mem_conflictRows.mp member
      rwa [same] at long
    · intro long
      exact ⟨(key, _), mem_conflictRows.mpr ⟨long, rfl⟩, rfl⟩
  rw [listed, two_le_length_iff once]
  constructor
  · rintro ⟨⟨digest, left⟩, leftMember, ⟨other, right⟩, rightMember, different⟩
    rw [List.mem_filter, holds.mem_orderedRecords distinct, decide_eq_true_eq] at leftMember
    rw [List.mem_filter, holds.mem_orderedRecords distinct, decide_eq_true_eq] at rightMember
    obtain ⟨⟨selectedLeft, rfl⟩, identityLeft⟩ := leftMember
    obtain ⟨⟨selectedRight, rfl⟩, identityRight⟩ := rightMember
    refine ⟨left, right, selectedLeft, selectedRight, ?_, identityLeft, identityRight⟩
    intro same
    apply different
    have events : left.event = right.event := by
      have parsed := selectedLeft.parsed
      rw [same, selectedRight.parsed] at parsed
      exact (Except.ok.inj parsed).symm
    have records : left = right := by
      cases left
      cases right
      simp only at same events
      rw [same, events]
    rw [records]
  · rintro ⟨left, right, selectedLeft, selectedRight, different, identityLeft, identityRight⟩
    refine ⟨(env.sha256 left.body, left), ?_, (env.sha256 right.body, right), ?_, ?_⟩
    · rw [List.mem_filter, holds.mem_orderedRecords distinct, decide_eq_true_eq]
      exact ⟨⟨selectedLeft, rfl⟩, identityLeft⟩
    · rw [List.mem_filter, holds.mem_orderedRecords distinct, decide_eq_true_eq]
      exact ⟨⟨selectedRight, rfl⟩, identityRight⟩
    · intro same
      exact different (congrArg Record.body (congrArg Prod.snd same))

/-- The digests of a row are those of the bodies of its identity. -/
theorem Holds.conflictRow_refs (holds : Holds env bodies evidence)
    (distinct : DistinctDigests env bodies) {row : (Session × Int) × List (Str × Record)}
    (listed : row ∈ evidence.conflictRows group) :
    (row.2.map Prod.fst).Nodup ∧ ∀ digest, digest ∈ row.2.map Prod.fst ↔
      ∃ record, SelectedRecord bodies group record ∧ identity record.event = row.1 ∧
        env.sha256 record.body = digest := by
  obtain ⟨-, same⟩ := mem_conflictRows.mp listed
  rw [same]
  refine ⟨nodup_filter_orderedRecords _, fun digest => ?_⟩
  simp only [List.mem_map, List.mem_filter, decide_eq_true_eq, Prod.exists,
    holds.mem_orderedRecords distinct, exists_and_right, exists_eq_right]
  constructor
  · rintro ⟨record, ⟨selected, digested⟩, mine⟩
    exact ⟨record, selected, mine, digested⟩
  · rintro ⟨record, selected, mine, digested⟩
    exact ⟨record, ⟨selected, digested⟩, mine⟩

/-- The records that were normalized are the selected ones of the group. -/
theorem Holds.mem_modelRefs (holds : Holds env bodies evidence)
    (distinct : DistinctDigests env bodies) {reconstruction : Reconstruction}
    (reconstructed : evidence.reconstruct group = .ok reconstruction) {digest : Str}
    {model : AuditEvent} : (digest, model) ∈ reconstruction.modelRefs ↔
      ∃ record, SelectedRecord bodies group record ∧ inGroup group record.event = true ∧
        env.sha256 record.body = digest ∧ record.model = model := by
  unfold reconstruct at reconstructed
  dsimp only at reconstructed
  split at reconstructed
  · cases reconstructed
  · cases reconstructed
    simp only [List.mem_map, groupRecords, List.mem_filter, mem_inOrder, Prod.exists,
      Prod.mk.injEq, ← Keyed.find_eq_some_iff, holds.find_selected_iff distinct]
    constructor
    · rintro ⟨_, record, ⟨⟨selected, digested⟩, grouped⟩, rfl, same⟩
      exact ⟨record, selected, grouped, digested, same⟩
    · rintro ⟨record, selected, grouped, digested, same⟩
      exact ⟨digest, record, ⟨⟨selected, digested⟩, grouped⟩, rfl, same⟩

theorem reconstruct_traces {reconstruction : Reconstruction}
    (reconstructed : evidence.reconstruct group = .ok reconstruction) :
    ∃ allEngines, reconstruction.traces =
      messageTracesFromEvents (reconstruction.modelRefs.map Prod.snd) allEngines := by
  unfold reconstruct at reconstructed
  dsimp only at reconstructed
  split at reconstructed
  · cases reconstructed
  · cases reconstructed
    exact ⟨_, rfl⟩

/-- The traces are those of the messages that some event names. -/
theorem exists_trace_iff {events : List AuditEvent} {allEngines : List Str} {msgId : Json} :
    (∃ trace ∈ messageTracesFromEvents events allEngines, trace.msgId = msgId) ↔
      ∃ event ∈ events, msgId ∈ eventMessageIdValues event := by
  have keys : (∃ trace ∈ messageTracesFromEvents events allEngines, trace.msgId = msgId) ↔
      msgId ∈ (byMessage events).entries.map Prod.fst := by
    simp only [messageTracesFromEvents, messagesInOrder, List.mem_map, mem_inOrder]
    constructor
    · rintro ⟨trace, ⟨entry, member, rfl⟩, rfl⟩
      exact ⟨entry, member, rfl⟩
    · rintro ⟨entry, member, rfl⟩
      exact ⟨_, ⟨entry, member, rfl⟩, rfl⟩
  rw [keys, byMessage, Keyed.mem_keys_gather]
  simp only [List.mem_map, Prod.exists, mem_namings, exists_and_right, exists_eq_right]

theorem Holds.mem_traceRefs (holds : Holds env bodies evidence)
    (distinct : DistinctDigests env bodies) {reconstruction : Reconstruction}
    (reconstructed : evidence.reconstruct group = .ok reconstruction) {msgId : Json}
    {digest : Str} : digest ∈ traceRefs reconstruction.modelRefs msgId ↔
      ∃ record, Mentions bodies group msgId record ∧ env.sha256 record.body = digest := by
  simp only [traceRefs, mem_inOrder, List.mem_dedup, List.mem_map, List.mem_filter, Prod.exists,
    List.contains_iff_mem, exists_and_right, exists_eq_right,
    holds.mem_modelRefs distinct reconstructed]
  constructor
  · rintro ⟨model, ⟨record, selected, grouped, digested, rfl⟩, named⟩
    exact ⟨record, ⟨selected, grouped, named⟩, digested⟩
  · rintro ⟨record, ⟨selected, grouped, named⟩, digested⟩
    exact ⟨_, ⟨record, selected, grouped, digested, rfl⟩, named⟩

theorem traceRefs_ascending (modelRefs : List (Str × AuditEvent)) (msgId : Json) :
    (traceRefs modelRefs msgId).Pairwise (· < ·) :=
  inOrder_ascending (fun _ _ _ _ same => same) (List.nodup_dedup _)

/-- The sections of a bundle list what the bodies say. -/
theorem Holds.canonicalContent (holds : Holds env bodies evidence)
    (distinct : DistinctDigests env bodies) {reconstruction : Reconstruction}
    (reconstructed : evidence.reconstruct group = .ok reconstruction) :
    CanonicalContent env bodies group (evidence.bundleContent group reconstruction) := by
  have rows : (evidence.bundleContent group reconstruction).conflicts =
      (evidence.conflictRows group).map conflictItem := rfl
  constructor
  · exact holds.canonicalEvidence distinct
  · rw [rows, List.pairwise_map]
    refine conflictRows_ascending.imp_of_mem ?_
    intro left right leftMember rightMember below
    rwa [conflictItem_key leftMember, conflictItem_key rightMember]
  · intro key
    rw [← holds.exists_conflictRow_iff distinct, rows]
    constructor
    · rintro ⟨item, member, rfl⟩
      obtain ⟨row, listed, rfl⟩ := List.mem_map.mp member
      exact ⟨row, listed, (conflictItem_key listed).symm⟩
    · rintro ⟨row, listed, rfl⟩
      exact ⟨conflictItem row, List.mem_map_of_mem listed, conflictItem_key listed⟩
  · intro item member
    rw [rows] at member
    obtain ⟨row, listed, rfl⟩ := List.mem_map.mp member
    rw [conflictItem_key listed]
    exact holds.conflictRow_refs distinct listed
  · intro msgId
    obtain ⟨allEngines, traces⟩ := reconstruct_traces reconstructed
    have listed : (∃ item ∈ (evidence.bundleContent group reconstruction).messageTraces,
        item.trace.msgId = msgId) ↔ ∃ trace ∈ reconstruction.traces, trace.msgId = msgId := by
      simp only [bundleContent, List.mem_map]
      constructor
      · rintro ⟨item, ⟨trace, member, rfl⟩, same⟩
        exact ⟨trace, member, same⟩
      · rintro ⟨trace, member, same⟩
        exact ⟨_, ⟨trace, member, rfl⟩, same⟩
    rw [listed, traces, exists_trace_iff]
    simp only [List.mem_map, Prod.exists, exists_eq_right,
      holds.mem_modelRefs distinct reconstructed]
    constructor
    · rintro ⟨model, ⟨digest, record, selected, grouped, -, rfl⟩, named⟩
      exact ⟨record, selected, grouped, named⟩
    · rintro ⟨record, selected, grouped, named⟩
      exact ⟨_, ⟨_, record, selected, grouped, rfl, rfl⟩, named⟩
  · intro item member
    obtain ⟨trace, -, rfl⟩ := List.mem_map.mp member
    exact ⟨traceRefs_ascending _ _, fun digest => holds.mem_traceRefs distinct reconstructed⟩
  · intro item member digest listed
    obtain ⟨trace, -, rfl⟩ := List.mem_map.mp member
    obtain ⟨record, mentions, digested⟩ :=
      (holds.mem_traceRefs distinct reconstructed).mp listed
    rw [bundleContent, List.map_map]
    exact List.mem_map.mpr ⟨(digest, record),
      (holds.mem_orderedRecords distinct).mpr ⟨mentions.selected, digested⟩, rfl⟩

end Canonical

/-! ### The order of the bodies -/

namespace SameSelection

variable {group : Str} {left right : Evidence}

theorem orderedRecords_eq (same : SameSelection group left right) :
    left.orderedRecords group = right.orderedRecords group :=
  inOrder_eq_of_perm distinguishes_evidenceOrder same.perm

/-- Evidence that selects the same is written the same. -/
theorem bundleContent_eq (same : SameSelection group left right)
    (reconstruction : Reconstruction) :
    left.bundleContent group reconstruction = right.bundleContent group reconstruction := by
  have counted : ∀ entry ∈ right.orderedRecords group,
      left.occurrence entry.1 = right.occurrence entry.1 := by
    intro entry member
    apply same.occurrences
    rw [same.selected]
    exact Option.isSome_iff_exists.mpr ⟨entry.2, Keyed.find_eq_some_iff.mpr (mem_inOrder.mp member)⟩
  have identities : left.orderedIdentities group = right.orderedIdentities group := by
    rw [orderedIdentities, orderedIdentities, same.orderedRecords_eq]
  have items : ((right.orderedRecords group).map fun entry => EvidenceItem.mk entry.1
      ((decodeUtf8 entry.2.body).getD []) (left.occurrence entry.1)) =
        (right.orderedRecords group).map fun entry => EvidenceItem.mk entry.1
          ((decodeUtf8 entry.2.body).getD []) (right.occurrence entry.1) := by
    apply List.map_congr_left
    intro entry member
    rw [counted entry member]
  rw [bundleContent, bundleContent, identities, same.orderedRecords_eq, items]

end SameSelection

/-- Bodies that are added in another order select the same. -/
theorem sameSelection_of_perm {env : Env} {group : Str} {bodies others : List (List UInt8)}
    {left right : Evidence} (holdsLeft : Holds env bodies left)
    (holdsRight : Holds env others right) (distinct : DistinctDigests env bodies)
    (perm : others.Perm bodies) : SameSelection group left right :=
  sameSelection_of_counts holdsLeft holdsRight distinct perm.subset
    fun body _ _ _ => perm.count_eq body

end Evidence

end Goggles
