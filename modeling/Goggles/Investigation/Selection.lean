/-
Module: Goggles.Investigation.Selection
Purpose: What evidence selects for a group, said of the bodies it was made of, and the summaries of
  evidence that selects the same.
Trusted boundary: none beyond the modules it imports
Main exports: DistinctDigests, SelectedRecord, find_selected_iff, SameSelection,
  sameSelection_of_counts, SameSelection.reconstruct_eq, SameSelection.summary_agrees
-/
import Goggles.Investigation.Evidence

namespace Goggles

/-- SHA-256 tells the bodies apart. -/
def DistinctDigests (env : Env) (bodies : List (List UInt8)) : Prop :=
  ∀ left ∈ bodies, ∀ right ∈ bodies, env.sha256 left = env.sha256 right → left = right

/-- A session of the records of a group among some bodies. -/
def GroupSession (bodies : List (List UInt8)) (group : Str) (item : Session) : Prop :=
  ∃ body ∈ bodies, ∃ event, parseBody body = .ok event ∧ inGroup group event = true ∧
    session event = item

/-- A record of a group, or one without a group from a complete session of the group. -/
def Relevant (bodies : List (List UInt8)) (group : Str) (event : Dict) : Prop :=
  inGroup group event = true ∨
    (event.get "group_ref").truthy = false ∧ (session event).complete = true ∧
      GroupSession bodies group (session event)

/-- A record selected for a group among some bodies. -/
structure SelectedRecord (bodies : List (List UInt8)) (group : Str) (record : Record) : Prop where
  present : record.body ∈ bodies
  parsed : parseBody record.body = .ok record.event
  relevant : Relevant bodies group record.event

namespace Evidence

section Holds

variable {env : Env} {bodies : List (List UInt8)} {evidence : Evidence}

/-- The record under a digest is that of the body with that digest. -/
theorem Holds.find_iff (holds : Holds env bodies evidence) (distinct : DistinctDigests env bodies)
    {digest : Str} {record : Record} : evidence.records.find digest = some record ↔
      record.body ∈ bodies ∧ env.sha256 record.body = digest ∧
        parseBody record.body = .ok record.event := by
  constructor
  · exact holds.sound digest record
  · rintro ⟨member, rfl, parsed⟩
    obtain ⟨found, here⟩ := Option.isSome_iff_exists.mp (holds.covered record.body member)
    obtain ⟨foundMember, sameDigest, foundParsed⟩ := holds.sound _ _ here
    have sameBody := distinct found.body foundMember record.body member sameDigest
    have sameEvent : found.event = record.event := by
      rw [sameBody, parsed] at foundParsed
      exact (Except.ok.inj foundParsed).symm
    rw [here]
    cases found
    cases record
    simp only at sameBody sameEvent
    rw [sameBody, sameEvent]

theorem Holds.mem_groupSessions (holds : Holds env bodies evidence)
    (distinct : DistinctDigests env bodies) {group : Str} {item : Session} :
    item ∈ evidence.groupSessions group ↔ GroupSession bodies group item := by
  simp only [groupSessions, List.mem_dedup, List.mem_map, List.mem_filter, Prod.exists,
    ← Keyed.find_eq_some_iff]
  constructor
  · rintro ⟨digest, record, ⟨found, grouped⟩, rfl⟩
    obtain ⟨member, -, parsed⟩ := (holds.find_iff distinct).mp found
    exact ⟨record.body, member, record.event, parsed, grouped, rfl⟩
  · rintro ⟨body, member, event, parsed, grouped, rfl⟩
    exact ⟨env.sha256 body, ⟨body, event⟩,
      ⟨(holds.find_iff distinct).mpr ⟨member, rfl, parsed⟩, grouped⟩, rfl⟩

theorem Holds.selects_iff (holds : Holds env bodies evidence)
    (distinct : DistinctDigests env bodies) {group : Str} {event : Dict} :
    evidence.selects group event = true ↔ Relevant bodies group event := by
  simp only [selects, Relevant, Bool.or_eq_true, Bool.and_eq_true, Bool.not_eq_true',
    List.contains_iff_mem, holds.mem_groupSessions distinct, and_assoc]

/-- What is selected, and under which digest. -/
theorem Holds.find_selected_iff (holds : Holds env bodies evidence)
    (distinct : DistinctDigests env bodies) {group digest : Str} {record : Record} :
    (evidence.selected group).find digest = some record ↔
      SelectedRecord bodies group record ∧ env.sha256 record.body = digest := by
  rw [selected, Keyed.find_filterRows, Option.filter_eq_some_iff, holds.find_iff distinct,
    holds.selects_iff distinct]
  constructor
  · rintro ⟨⟨member, same, parsed⟩, relevant⟩
    exact ⟨⟨member, parsed, relevant⟩, same⟩
  · rintro ⟨chosen, same⟩
    exact ⟨⟨chosen.present, same, chosen.parsed⟩, chosen.relevant⟩

theorem Holds.contextIncomplete_iff (holds : Holds env bodies evidence)
    (distinct : DistinctDigests env bodies) {group : Str} :
    evidence.contextIncomplete group = true ↔
      ∃ item, GroupSession bodies group item ∧ item.complete = false := by
  simp only [contextIncomplete, List.any_eq_true, holds.mem_groupSessions distinct,
    Bool.not_eq_true']

end Holds

/-! ### Evidence that selects the same -/

/-- Two evidences select the same records of a group, as often, from as complete a context. -/
structure SameSelection (group : Str) (left right : Evidence) : Prop where
  selected : ∀ digest, (left.selected group).find digest = (right.selected group).find digest
  occurrences : ∀ digest, ((left.selected group).find digest).isSome →
    left.occurrence digest = right.occurrence digest
  incomplete : left.contextIncomplete group = right.contextIncomplete group

theorem countP_digest {env : Env} {bodies : List (List UInt8)}
    (distinct : DistinctDigests env bodies) {body : List UInt8} (known : body ∈ bodies)
    {part : List (List UInt8)} (subset : part ⊆ bodies) :
    (part.countP fun other => env.sha256 other = env.sha256 body) = part.count body := by
  rw [List.count]
  apply List.countP_congr
  intro other member
  rw [decide_eq_true_eq, beq_iff_eq]
  exact ⟨distinct other (subset member) body known, congrArg env.sha256⟩

/-- Evidence of fewer bodies selects the same when it has every relevant body as often. -/
theorem sameSelection_of_counts {env : Env} {group : Str} {bodies fewer : List (List UInt8)}
    {left right : Evidence} (holdsLeft : Holds env bodies left) (holdsRight : Holds env fewer right)
    (distinct : DistinctDigests env bodies) (subset : fewer ⊆ bodies)
    (counts : ∀ body event, parseBody body = .ok event → Relevant bodies group event →
      fewer.count body = bodies.count body) : SameSelection group left right := by
  have distinctFewer : DistinctDigests env fewer := fun first firstMember second secondMember =>
    distinct first (subset firstMember) second (subset secondMember)
  have kept : ∀ body event, parseBody body = .ok event → Relevant bodies group event →
      body ∈ bodies → body ∈ fewer := by
    intro body event parsed relevant member
    rw [← List.count_pos_iff, counts body event parsed relevant, List.count_pos_iff]
    exact member
  have sessions : ∀ item, GroupSession fewer group item ↔ GroupSession bodies group item := by
    intro item
    constructor
    · rintro ⟨body, member, event, parsed, grouped, same⟩
      exact ⟨body, subset member, event, parsed, grouped, same⟩
    · rintro ⟨body, member, event, parsed, grouped, same⟩
      exact ⟨body, kept body event parsed (.inl grouped) member, event, parsed, grouped, same⟩
  have relevance : ∀ event, Relevant fewer group event ↔ Relevant bodies group event := by
    intro event
    rw [Relevant, Relevant, sessions]
  have chosen : ∀ record, SelectedRecord bodies group record ↔ SelectedRecord fewer group record := by
    intro record
    constructor
    · intro selected
      exact ⟨kept _ _ selected.parsed selected.relevant selected.present, selected.parsed,
        (relevance _).mpr selected.relevant⟩
    · intro selected
      exact ⟨subset selected.present, selected.parsed, (relevance _).mp selected.relevant⟩
  constructor
  · intro digest
    apply Option.ext
    intro record
    rw [holdsLeft.find_selected_iff distinct, holdsRight.find_selected_iff distinctFewer, chosen]
  · intro digest found
    obtain ⟨record, found⟩ := Option.isSome_iff_exists.mp found
    obtain ⟨selected, rfl⟩ := (holdsLeft.find_selected_iff distinct).mp found
    rw [holdsLeft.occurrences, holdsRight.occurrences,
      countP_digest distinct selected.present (List.Subset.refl _),
      countP_digest distinct selected.present subset,
      counts _ _ selected.parsed selected.relevant]
  · rw [Bool.eq_iff_iff, holdsLeft.contextIncomplete_iff distinct,
      holdsRight.contextIncomplete_iff distinctFewer]
    simp only [sessions]

/-- The fields of two summaries that do not name their source agree. -/
structure Summary.Agrees (left right : Summary) : Prop where
  selectedDistinctBodies : left.selectedDistinctBodies = right.selectedDistinctBodies
  groupRecords : left.groupRecords = right.groupRecords
  supportingGrouplessContext : left.supportingGrouplessContext = right.supportingGrouplessContext
  duplicateOccurrences : left.duplicateOccurrences = right.duplicateOccurrences
  conflictingIdentities : left.conflictingIdentities = right.conflictingIdentities
  kindCounts : left.kindCounts = right.kindCounts
  messageTraceCount : left.messageTraceCount = right.messageTraceCount
  contextIncomplete : left.contextIncomplete = right.contextIncomplete

theorem Summary.Agrees.symm {left right : Summary} (agrees : left.Agrees right) :
    right.Agrees left where
  selectedDistinctBodies := agrees.selectedDistinctBodies.symm
  groupRecords := agrees.groupRecords.symm
  supportingGrouplessContext := agrees.supportingGrouplessContext.symm
  duplicateOccurrences := agrees.duplicateOccurrences.symm
  conflictingIdentities := agrees.conflictingIdentities.symm
  kindCounts := agrees.kindCounts.symm
  messageTraceCount := agrees.messageTraceCount.symm
  contextIncomplete := agrees.contextIncomplete.symm

namespace SameSelection

variable {group : Str} {left right : Evidence}

theorem symm (same : SameSelection group left right) : SameSelection group right left where
  selected digest := (same.selected digest).symm
  occurrences digest found :=
    (same.occurrences digest (by rw [same.selected]; exact found)).symm
  incomplete := same.incomplete.symm

theorem perm (same : SameSelection group left right) :
    (left.selected group).entries.Perm (right.selected group).entries :=
  Keyed.perm_of_find_eq same.selected

theorem groupRecords_eq (same : SameSelection group left right) :
    left.groupRecords group = right.groupRecords group := by
  have keyed : Distinguishes Prod.fst (right.selected group).entries := by
    rintro ⟨digest, record⟩ member ⟨other, otherRecord⟩ otherMember rfl
    rw [← Keyed.find_eq_some_iff] at member otherMember
    rw [member] at otherMember
    cases otherMember
    rfl
  rw [groupRecords, groupRecords, inOrder_eq_of_perm keyed same.perm]

/-- The reconstruction reads the records by digest. -/
theorem reconstruct_eq (same : SameSelection group left right) :
    left.reconstruct group = right.reconstruct group := by
  rw [reconstruct, reconstruct, same.groupRecords_eq]

theorem conflicts_eq (same : SameSelection group left right) :
    ((left.identities group).entries.countP fun entry => 1 < entry.2.length) =
      (right.identities group).entries.countP fun entry => 1 < entry.2.length := by
  have sized : ((left.identities group).map List.length).entries.Perm
      ((right.identities group).map List.length).entries := by
    apply Keyed.perm_of_find_eq
    intro key
    rw [Keyed.find_map, Keyed.find_map]
    exact Keyed.size_gather_addItem (same.perm.map _) key
  have counted := sized.countP_eq fun entry => decide (1 < entry.2)
  rwa [Keyed.map, Keyed.map, List.countP_map, List.countP_map] at counted

theorem duplicates_eq (same : SameSelection group left right) :
    ((left.selected group).entries.map fun entry => left.occurrence entry.1 - 1).sum =
      ((right.selected group).entries.map fun entry => right.occurrence entry.1 - 1).sum := by
  have counts : ((left.selected group).entries.map fun entry => left.occurrence entry.1 - 1) =
      (left.selected group).entries.map fun entry => right.occurrence entry.1 - 1 := by
    apply List.map_congr_left
    intro entry member
    rw [same.occurrences entry.1]
    exact Option.isSome_iff_exists.mpr ⟨entry.2, Keyed.find_eq_some_iff.mpr member⟩
  rw [counts]
  exact (same.perm.map _).sum_nat

/-- Both summaries are written, or neither is, and they agree. -/
theorem summary_agrees (same : SameSelection group left right) {source otherSource : Source}
    {omitted otherOmitted : Bool} {found : Summary}
    (summarized : left.summary group source omitted = .ok found) :
    ∃ other, right.summary group otherSource otherOmitted = .ok other ∧ found.Agrees other := by
  unfold summary at summarized ⊢
  rw [same.reconstruct_eq] at summarized
  cases reconstructed : right.reconstruct group with
  | error incomplete =>
      rw [reconstructed] at summarized
      cases summarized
  | ok reconstruction =>
      rw [reconstructed] at summarized
      cases summarized
      refine ⟨_, rfl, ?_⟩
      constructor
      · exact same.perm.length_eq
      · rfl
      · exact congrArg (· - _) same.perm.length_eq
      · exact same.duplicates_eq
      · exact same.conflicts_eq
      · rfl
      · rfl
      · exact same.incomplete

end SameSelection

end Evidence

end Goggles
