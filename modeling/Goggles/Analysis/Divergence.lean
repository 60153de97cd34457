/-
Module: Goggles.Analysis.Divergence
Purpose: The divergence rollup: messages that some engine of a group observed and another, active
  when they first appeared, did not.
Trusted boundary: forensics/analysis.py, `divergent_counts_for_group_ids` and what it calls; the
  dicts it fills row by row are given here as functions of a message and of an engine
Main exports: eventMessageIdValues, engineWindow, enginesPresentButMissing, isDivergentMessage,
  divergentCount, Diverges, messageDiverges_iff, divergentCount_eq_iff
-/
import Goggles.Store.Tables

namespace Goggles

/-- `event_message_id_values`. -/
def eventMessageIdValues (event : AuditEvent) : List Json :=
  ([event.msgId, event.outboundMsgId, event.invalidatedMsgId].filter (· ≠ [])).map Json.str ++
    event.outboundWelcomeMsgIds ++ event.humanActionMessageIds

/-- Events without an engine are skipped. -/
def attributedEvents (events : List AuditEvent) : List AuditEvent :=
  events.filter (·.engineId ≠ [])

/-- The events that name a message. -/
def eventsNaming (events : List AuditEvent) (messageId : Json) : List AuditEvent :=
  (attributedEvents events).filter fun event => (eventMessageIdValues event).contains messageId

/-- The engines that observed a message. -/
def observers (events : List AuditEvent) (messageId : Json) : List Str :=
  (eventsNaming events messageId).map (·.engineId)

/-- The earliest instant a message was observed with a wall time. -/
def referenceMs (events : List AuditEvent) (messageId : Json) : Option Nat :=
  ((eventsNaming events messageId).filterMap (·.wallTimeMs)).min?

/-- `windows[engine_id]`: the span of instants an engine emitted. -/
def engineWindow (events : List AuditEvent) (engineId : Str) : Option (Nat × Nat) :=
  let instants := (events.filter (·.engineId = engineId)).filterMap (·.wallTimeMs)
  match instants.min?, instants.max? with
  | some first, some last => some (first, last)
  | _, _ => none

/-- `engines_present_but_missing`. -/
def enginesPresentButMissing (observers : List Str) (reference : Option Nat)
    (window : Str → Option (Nat × Nat)) (allEngines : List Str) : List Str :=
  match reference with
  | none => []
  | some instant =>
      allEngines.filter fun engineId =>
        !observers.contains engineId &&
          (window engineId).any fun span => span.1 ≤ instant && instant ≤ span.2

/-- `is_divergent_message`. -/
def isDivergentMessage (engines inScopeEngines : List Str) : Bool :=
  !engines.isEmpty && inScopeEngines.any fun engineId => !engines.contains engineId

/-- The verdict on one message of a group. -/
def messageDiverges (events : List AuditEvent) (messageId : Json) : Bool :=
  let seen := observers events messageId
  let missing := enginesPresentButMissing seen (referenceMs events messageId)
    (engineWindow (attributedEvents events)) ((attributedEvents events).map (·.engineId))
  isDivergentMessage seen (seen ++ missing)

/-- The count `divergent_counts_for_group_ids` returns for a group with these events. -/
def divergentCount (events : List AuditEvent) : Nat :=
  ((attributedEvents events).flatMap eventMessageIdValues).dedup.countP (messageDiverges events)

/-! ### What the count says -/

/-- A message diverges over some events: it has a first instant, and an engine that never named it
has an event no later than that instant and one no earlier. -/
def Diverges (events : List AuditEvent) (messageId : Json) : Prop :=
  ∃ seen ∈ eventsNaming events messageId, ∃ instant, seen.wallTimeMs = some instant ∧
    (∀ other ∈ eventsNaming events messageId, ∀ time, other.wallTimeMs = some time →
      instant ≤ time) ∧
    ∃ early ∈ attributedEvents events, ∃ late ∈ attributedEvents events,
      early.engineId = late.engineId ∧ early.engineId ∉ observers events messageId ∧
      (∃ time, early.wallTimeMs = some time ∧ time ≤ instant) ∧
      ∃ time, late.wallTimeMs = some time ∧ instant ≤ time

/-- The messages some attributed event names. -/
def groupMessages (events : List AuditEvent) : List Json :=
  ((attributedEvents events).flatMap eventMessageIdValues).dedup

theorem min?_filterMap_eq_some_iff {events : List AuditEvent} {instant : Nat} :
    (events.filterMap (·.wallTimeMs)).min? = some instant ↔
      (∃ event ∈ events, event.wallTimeMs = some instant) ∧
        ∀ other ∈ events, ∀ time, other.wallTimeMs = some time → instant ≤ time := by
  rw [List.min?_eq_some_iff]
  simp only [List.mem_filterMap]
  refine and_congr_right fun _ => ⟨fun least other member time found => ?_, fun least time => ?_⟩
  · exact least time ⟨other, member, found⟩
  · rintro ⟨other, member, found⟩
    exact least other member time found

theorem max?_filterMap_eq_some_iff {events : List AuditEvent} {instant : Nat} :
    (events.filterMap (·.wallTimeMs)).max? = some instant ↔
      (∃ event ∈ events, event.wallTimeMs = some instant) ∧
        ∀ other ∈ events, ∀ time, other.wallTimeMs = some time → time ≤ instant := by
  rw [List.max?_eq_some_iff]
  simp only [List.mem_filterMap]
  refine and_congr_right fun _ => ⟨fun most other member time found => ?_, fun most time => ?_⟩
  · exact most time ⟨other, member, found⟩
  · rintro ⟨other, member, found⟩
    exact most other member time found

/-- An instant lies in the window of an engine. -/
theorem engineWindow_contains_iff {events : List AuditEvent} {engineId : Str} {instant : Nat} :
    (engineWindow events engineId).any
        (fun span => span.1 ≤ instant && instant ≤ span.2) = true ↔
      (∃ early ∈ events, early.engineId = engineId ∧
        ∃ time, early.wallTimeMs = some time ∧ time ≤ instant) ∧
      ∃ late ∈ events, late.engineId = engineId ∧
        ∃ time, late.wallTimeMs = some time ∧ instant ≤ time := by
  have emitted : ∀ event, event ∈ events.filter (·.engineId = engineId) ↔
      event ∈ events ∧ event.engineId = engineId := by simp
  cases least : ((events.filter (·.engineId = engineId)).filterMap (·.wallTimeMs)).min? with
  | none =>
      have silent := List.min?_eq_none_iff.mp least
      have none_emitted : ∀ event ∈ events, event.engineId = engineId →
          event.wallTimeMs = none := fun event member same => by
        rw [List.filterMap_eq_nil_iff] at silent
        exact silent event ((emitted event).mpr ⟨member, same⟩)
      simp only [engineWindow, least, Option.any_none, Bool.false_eq_true, false_iff]
      rintro ⟨⟨early, member, same, time, found, -⟩, -⟩
      rw [none_emitted early member same] at found
      cases found
  | some first =>
      cases most : ((events.filter (·.engineId = engineId)).filterMap (·.wallTimeMs)).max? with
      | none =>
          rw [List.max?_eq_none_iff] at most
          simp [most] at least
      | some last =>
          obtain ⟨⟨opening, openingMember, opened⟩, lower⟩ := min?_filterMap_eq_some_iff.mp least
          obtain ⟨⟨closing, closingMember, closed⟩, upper⟩ := max?_filterMap_eq_some_iff.mp most
          rw [emitted] at openingMember closingMember
          simp only [engineWindow, least, most, Option.any_some, Bool.and_eq_true,
            decide_eq_true_eq]
          constructor
          · rintro ⟨before, after⟩
            exact ⟨⟨opening, openingMember.1, openingMember.2, first, opened, before⟩,
              closing, closingMember.1, closingMember.2, last, closed, after⟩
          · rintro ⟨⟨early, earlyMember, earlySame, low, lowFound, below⟩,
              late, lateMember, lateSame, high, highFound, above⟩
            exact ⟨(lower early ((emitted early).mpr ⟨earlyMember, earlySame⟩) low lowFound).trans
                below,
              above.trans (upper late ((emitted late).mpr ⟨lateMember, lateSame⟩) high highFound)⟩

/-- The verdict of the code. -/
theorem messageDiverges_iff {events : List AuditEvent} {messageId : Json} :
    messageDiverges events messageId = true ↔ Diverges events messageId := by
  have missing : ∀ reference, (∃ engineId, engineId ∈ enginesPresentButMissing
        (observers events messageId) reference (engineWindow (attributedEvents events))
        ((attributedEvents events).map (·.engineId))) ↔
      ∃ instant, reference = some instant ∧
        ∃ early ∈ attributedEvents events, ∃ late ∈ attributedEvents events,
          early.engineId = late.engineId ∧ early.engineId ∉ observers events messageId ∧
          (∃ time, early.wallTimeMs = some time ∧ time ≤ instant) ∧
          ∃ time, late.wallTimeMs = some time ∧ instant ≤ time := by
    intro reference
    cases reference with
    | none => simp [enginesPresentButMissing]
    | some instant =>
        simp only [enginesPresentButMissing, List.mem_filter, Bool.and_eq_true,
          engineWindow_contains_iff, Option.some.injEq, exists_eq_left', Bool.not_eq_true',
          List.contains_eq_mem, decide_eq_false_iff_not]
        constructor
        · rintro ⟨engineId, -, unseen, ⟨early, earlyMember, rfl, low⟩, late, lateMember, same, high⟩
          exact ⟨early, earlyMember, late, lateMember, same.symm, unseen, low, high⟩
        · rintro ⟨early, earlyMember, late, lateMember, same, unseen, low, high⟩
          exact ⟨early.engineId, List.mem_map_of_mem earlyMember, unseen,
            ⟨early, earlyMember, rfl, low⟩, late, lateMember, same.symm, high⟩
  have verdict : messageDiverges events messageId = true ↔
      observers events messageId ≠ [] ∧ ∃ engineId, engineId ∈ enginesPresentButMissing
        (observers events messageId) (referenceMs events messageId)
        (engineWindow (attributedEvents events)) ((attributedEvents events).map (·.engineId)) := by
    have unseen : ∀ engineId, engineId ∈ enginesPresentButMissing
        (observers events messageId) (referenceMs events messageId)
        (engineWindow (attributedEvents events)) ((attributedEvents events).map (·.engineId)) →
          engineId ∉ observers events messageId := by
      intro engineId member
      unfold enginesPresentButMissing at member
      split at member
      · simp at member
      · simp only [List.mem_filter, Bool.and_eq_true, Bool.not_eq_true', List.contains_eq_mem,
          decide_eq_false_iff_not] at member
        exact member.2.1
    simp only [messageDiverges, isDivergentMessage, Bool.and_eq_true, Bool.not_eq_true',
      List.isEmpty_eq_false_iff, List.any_append, Bool.or_eq_true, List.any_eq_true,
      List.contains_eq_mem, decide_eq_false_iff_not]
    refine and_congr_right fun _ => ⟨?_, fun ⟨engineId, member⟩ =>
      .inr ⟨engineId, member, unseen engineId member⟩⟩
    rintro (⟨engineId, member, absent⟩ | ⟨engineId, member, -⟩)
    · exact absurd member absent
    · exact ⟨engineId, member⟩
  rw [verdict, missing]
  constructor
  · rintro ⟨-, instant, reference, present⟩
    obtain ⟨⟨seen, member, found⟩, least⟩ := min?_filterMap_eq_some_iff.mp reference
    exact ⟨seen, member, instant, found, least, present⟩
  · rintro ⟨seen, member, instant, found, least, present⟩
    refine ⟨List.ne_nil_of_mem (List.mem_map_of_mem member), instant, ?_, present⟩
    exact min?_filterMap_eq_some_iff.mpr ⟨⟨seen, member, found⟩, least⟩

instance (events : List AuditEvent) (messageId : Json) : Decidable (Diverges events messageId) :=
  decidable_of_iff _ messageDiverges_iff

theorem divergentCount_eq (events : List AuditEvent) :
    divergentCount events = (groupMessages events).countP (Diverges events ·) := by
  rw [divergentCount, groupMessages]
  refine List.countP_congr fun messageId _ => ?_
  rw [messageDiverges_iff, decide_eq_true_eq]

theorem mem_groupMessages_of_diverges {events : List AuditEvent} {messageId : Json}
    (diverges : Diverges events messageId) : messageId ∈ groupMessages events := by
  obtain ⟨seen, member, -⟩ := diverges
  rw [eventsNaming, List.mem_filter, List.contains_iff_mem] at member
  exact List.mem_dedup.mpr (List.mem_flatMap.mpr ⟨seen, member⟩)

/-- Fewer events name fewer messages. -/
theorem groupMessages_subset {fewer events : List AuditEvent} (subset : fewer ⊆ events) :
    groupMessages fewer ⊆ groupMessages events := by
  intro messageId member
  simp only [groupMessages, List.mem_dedup, List.mem_flatMap, attributedEvents,
    List.mem_filter] at member ⊢
  obtain ⟨event, ⟨eventMember, attributed⟩, named⟩ := member
  exact ⟨event, ⟨subset eventMember, attributed⟩, named⟩

/-- The count over fewer events, taken over all messages. -/
theorem divergentCount_of_subset {fewer events : List AuditEvent} (subset : fewer ⊆ events) :
    divergentCount fewer = (groupMessages events).countP (Diverges fewer ·) := by
  rw [divergentCount_eq, List.countP_eq_length_filter, List.countP_eq_length_filter]
  refine List.Perm.length_eq ((List.perm_ext_iff_of_nodup ?_ ?_).mpr fun messageId => ?_)
  · exact (List.nodup_dedup _).filter _
  · exact (List.nodup_dedup _).filter _
  · simp only [List.mem_filter, decide_eq_true_eq]
    exact ⟨fun ⟨member, diverges⟩ => ⟨groupMessages_subset subset member, diverges⟩,
      fun ⟨_, diverges⟩ => ⟨mem_groupMessages_of_diverges diverges, diverges⟩⟩

end Goggles
