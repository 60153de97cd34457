/-
Module: Goggles.Projection.Incremental
Purpose: The incremental projection of one file, seen from one group: the rows of a rebuild when the
  group is backfilled, else the rows before with the group's new events projected in order.
Trusted boundary: none beyond the modules it imports
Main exports: NeedsBackfill, openRuns, isBackfilled_iff, FileProjected, projectFileEvents_spec
-/
import Goggles.Projection.Project

namespace Goggles

/-! ### The backfill check -/

/-- Some new event of a recorder comes before a stored one, both of the kind that may need the
recorder's open run. -/
def NeedsBackfill (old new : List AuditEvent) : Prop :=
  ∃ stored ∈ old, ∃ fresh ∈ new, fresh.engineId = stored.engineId ∧
    eventMayNeedInferredConvergenceState stored = true ∧
    eventMayNeedInferredConvergenceState fresh = true ∧
    convergenceOrderKey fresh < convergenceOrderKey stored

/-- The scan changes the entry of the event's own recorder, and only for an event that may need it. -/
theorem noteEarliest_of_not_noted {earliest : Recorder → Option OrderKey} {event : AuditEvent}
    {groupId : Nat} {engineId : Str}
    (idle : ¬ (event.groupId = some groupId ∧ event.engineId = engineId ∧
      eventMayNeedInferredConvergenceState event = true)) :
    noteEarliest earliest event (groupId, engineId) = earliest (groupId, engineId) := by
  unfold noteEarliest
  cases grouped : event.groupId with
  | none => rfl
  | some found =>
      by_cases needs : eventMayNeedInferredConvergenceState event = true
      · have apart : ((groupId, engineId) : Recorder) ≠ (found, event.engineId) := by
          intro same
          cases same
          exact idle ⟨grouped, rfl, needs⟩
        simp only [needs, if_true]
        cases earliest (found, event.engineId) with
        | none => exact Function.update_of_ne apart _ _
        | some current =>
            by_cases earlier : convergenceOrderKey event < current
            · simp [earlier, Function.update_of_ne apart]
            · simp [earlier]
      · simp [needs]

/-- The entry of the event's own recorder is the earlier of the two keys. -/
theorem noteEarliest_self {earliest : Recorder → Option OrderKey} {event : AuditEvent}
    {groupId : Nat} (grouped : event.groupId = some groupId)
    (needs : eventMayNeedInferredConvergenceState event = true) :
    noteEarliest earliest event (groupId, event.engineId) =
      some (((earliest (groupId, event.engineId)).map (min (convergenceOrderKey event))).getD
        (convergenceOrderKey event)) := by
  unfold noteEarliest
  simp only [grouped, needs, if_true]
  cases noted : earliest (groupId, event.engineId) with
  | none => simp
  | some current =>
      by_cases earlier : convergenceOrderKey event < current
      · simp [earlier, min_eq_left earlier.le]
      · simp [earlier, noted, min_eq_right (not_lt.mp earlier)]

/-- Whether the earliest key noted for a recorder is below a bound. -/
theorem earliest_lt_iff {earliest : Recorder → Option OrderKey} {event : AuditEvent}
    {groupId : Nat} {engineId : Str} {bound : OrderKey} :
    (noteEarliest earliest event (groupId, engineId)).any (· < bound) = true ↔
      (earliest (groupId, engineId)).any (· < bound) = true ∨
        (event.groupId = some groupId ∧ event.engineId = engineId ∧
          eventMayNeedInferredConvergenceState event = true ∧ convergenceOrderKey event < bound) := by
  by_cases noted : event.groupId = some groupId ∧ event.engineId = engineId ∧
      eventMayNeedInferredConvergenceState event = true
  · obtain ⟨grouped, rfl, needs⟩ := noted
    rw [noteEarliest_self grouped needs]
    cases earliest (groupId, event.engineId) with
    | none => simp [grouped, needs]
    | some current => simp [grouped, needs, or_comm]
  · rw [noteEarliest_of_not_noted noted]
    constructor
    · exact .inl
    · rintro (before | ⟨grouped, engine, needs, -⟩)
      · exact before
      · exact absurd ⟨grouped, engine, needs⟩ noted

/-- `earliest_uploaded`, read against a bound. -/
theorem earliestUploaded_lt_iff {events : List AuditEvent} {groupId : Nat} {engineId : Str}
    {bound : OrderKey} :
    (earliestUploaded events (groupId, engineId)).any (· < bound) = true ↔
      ∃ event ∈ events, event.groupId = some groupId ∧ event.engineId = engineId ∧
        eventMayNeedInferredConvergenceState event = true ∧ convergenceOrderKey event < bound := by
  suffices general : ∀ earliest : Recorder → Option OrderKey,
      (events.foldl noteEarliest earliest (groupId, engineId)).any (· < bound) = true ↔
        (earliest (groupId, engineId)).any (· < bound) = true ∨
          ∃ event ∈ events, event.groupId = some groupId ∧ event.engineId = engineId ∧
            eventMayNeedInferredConvergenceState event = true ∧
            convergenceOrderKey event < bound by
    simpa [earliestUploaded] using general fun _ => none
  intro earliest
  induction events generalizing earliest with
  | nil => simp
  | cons event rest inductionHypothesis =>
      rw [List.foldl_cons, inductionHypothesis, earliest_lt_iff]
      simp only [List.mem_cons, exists_eq_or_imp, or_assoc]

/-- The backfill check of the code. -/
theorem isBackfilled_iff {stored events : List AuditEvent} {fileId groupId : Nat} :
    isBackfilled stored fileId events groupId = true ↔
      NeedsBackfill
        (stored.filter fun event => event.auditFileId != fileId && event.countsFor groupId)
        (events.filter fun event => event.groupId = some groupId) := by
  simp only [isBackfilled, isOvertaken, List.any_eq_true, Bool.and_eq_true,
    earliestUploaded_lt_iff, NeedsBackfill, List.mem_filter, decide_eq_true_eq]
  constructor
  · rintro ⟨event, member, ⟨⟨counts, other⟩, needs⟩, fresh, freshMember, grouped, engine,
      freshNeeds, before⟩
    exact ⟨event, ⟨member, other, counts⟩, fresh, ⟨freshMember, grouped⟩, engine, needs,
      freshNeeds, before⟩
  · rintro ⟨event, ⟨member, other, counts⟩, fresh, ⟨freshMember, grouped⟩, engine, needs,
      freshNeeds, before⟩
    exact ⟨event, member, ⟨⟨counts, other⟩, needs⟩, fresh, freshMember, grouped, engine,
      freshNeeds, before⟩

/-! ### Rebuilding some groups -/

theorem rebuildGroups_spec {stored : List AuditEvent} {groupIds : List Nat}
    {projections rebuilt : Nat → GroupProjections}
    (done : rebuildGroups stored groupIds projections = some rebuilt) (groupId : Nat) :
    (groupId ∈ groupIds → rebuildGroup stored groupId = some (rebuilt groupId)) ∧
      (groupId ∉ groupIds → rebuilt groupId = projections groupId) := by
  induction groupIds generalizing projections with
  | nil =>
      cases done
      simp
  | cons head rest inductionHypothesis =>
      rw [rebuildGroups] at done
      cases built : rebuildGroup stored head with
      | none => simp [built] at done
      | some rows =>
          simp only [built] at done
          obtain ⟨inside, outside⟩ := inductionHypothesis done
          by_cases later : groupId ∈ rest
          · exact ⟨fun _ => inside later, fun absent => absurd (List.mem_cons_of_mem head later) absent⟩
          · by_cases here : groupId = head
            · subst here
              refine ⟨fun _ => ?_, fun absent => absurd List.mem_cons_self absent⟩
              rw [outside later, Function.update_self]
              exact built
            · refine ⟨fun member => absurd member (by simp [here, later]), fun _ => ?_⟩
              rw [outside later, Function.update_of_ne here]

/-! ### One group of a file -/

/-- The events of a group among those of one file. -/
def ownEvents (stored : List AuditEvent) (fileId groupId : Nat) : List AuditEvent :=
  validGroupEvents (stored.filter (·.auditFileId == fileId)) groupId

/-- The events of a group among those of the other files. -/
def otherEvents (stored : List AuditEvent) (fileId groupId : Nat) : List AuditEvent :=
  validGroupEvents (stored.filter (·.auditFileId != fileId)) groupId

/-- The map of open inferred runs a group's new events start with. -/
def openRuns (stored : List AuditEvent) (runs : Keyed RunKey ConvergenceRun)
    (new : List AuditEvent) (engineId : Str) : Option Str :=
  if engineId ≠ [] ∧ ∃ event ∈ new, event.engineId = engineId ∧
      eventMayNeedInferredConvergenceState event = true then
    activeInferredRun stored runs engineId
  else none

/-- What projecting a file did to one group. -/
inductive FileProjected (stored : List AuditEvent) (fileId groupId : Nat)
    (before after : GroupProjections) : Prop where
  | backfilled (needed : NeedsBackfill (otherEvents stored fileId groupId)
        (ownEvents stored fileId groupId))
      (rebuilt : rebuildGroup stored groupId = some after)
  | extended (notNeeded : ¬ NeedsBackfill (otherEvents stored fileId groupId)
        (ownEvents stored fileId groupId))
      (final : GroupState)
      (replayed : replay projectEvent
        ⟨before, openRuns stored before.convergence.runs (ownEvents stored fileId groupId)⟩
        (inOrder eventOrderKey (ownEvents stored fileId groupId)) = some final)
      (shown : after = final.projections)

/-- The owner of an event and the state its projection reads and writes. -/
theorem projectGroupedEvent_splits :
    Splits projectGroupedEvent AuditEvent.groupId
      (fun owner (state : Nat → GroupState) => owner.elim GroupState.cleared state)
      fun state event => if event.groupId = none then some state else projectEvent state event where
  own := by
    intro state event
    cases grouped : event.groupId with
    | none => simp [projectGroupedEvent, grouped]
    | some groupId =>
        simp only [projectGroupedEvent, grouped, Option.map_map, Option.elim_some, reduceCtorEq,
          if_false]
        cases projectEvent (state groupId) event with
        | none => rfl
        | some next => simp
  frame := by
    intro state event next index stepped other
    cases grouped : event.groupId with
    | none =>
        simp only [projectGroupedEvent, grouped, Option.some.injEq] at stepped
        rw [stepped]
    | some groupId =>
        simp only [projectGroupedEvent, grouped, Option.map_eq_some_iff] at stepped
        obtain ⟨changed, -, rfl⟩ := stepped
        cases index with
        | none => rfl
        | some asked =>
            have apart : asked ≠ groupId := by
              rintro rfl
              exact other grouped.symm
            simp [Function.update_of_ne apart]

section Spec

variable {stored : List AuditEvent} {fileId : Nat} {groupIds : List Nat}

theorem mem_ownEvents {groupId : Nat} {event : AuditEvent} :
    event ∈ ownEvents stored fileId groupId ↔
      event ∈ stored ∧ event.auditFileId = fileId ∧ event.countsFor groupId = true := by
  rw [ownEvents, validGroupEvents, List.mem_filter, List.mem_filter, beq_iff_eq, and_assoc]

/-- The part of the file's events that one group gets. -/
theorem fileEvents_filter (distinct : Distinguishes eventOrderKey stored)
    (covers : ∀ event ∈ stored, event.auditFileId = fileId → ∀ groupId,
      event.groupId = some groupId → groupId ∈ groupIds) (groupId : Nat) :
    (fileEvents stored fileId groupIds).filter (fun event => event.groupId = some groupId) =
      inOrder eventOrderKey (ownEvents stored fileId groupId) := by
  have inside : Distinguishes eventOrderKey (stored.filter fun event =>
      event.auditFileId == fileId && event.parseStatus == .valid &&
        event.groupId.any groupIds.contains) :=
    distinct.subset (List.filter_subset_self stored)
  rw [fileEvents, inOrder_filter inside, List.filter_filter, ownEvents, validGroupEvents,
    List.filter_filter]
  apply congrArg (inOrder eventOrderKey)
  apply List.filter_congr
  intro event member
  by_cases grouped : event.groupId = some groupId
  · by_cases mine : event.auditFileId = fileId
    · have listed := covers event member mine groupId grouped
      simp [grouped, mine, listed, AuditEvent.countsFor]
    · simp [beq_false_of_ne mine]
  · simp [grouped, AuditEvent.countsFor]

/-- The backfill check on the file's events. -/
theorem isBackfilled_fileEvents (distinct : Distinguishes eventOrderKey stored)
    (covers : ∀ event ∈ stored, event.auditFileId = fileId → ∀ groupId,
      event.groupId = some groupId → groupId ∈ groupIds) (groupId : Nat) :
    isBackfilled stored fileId (fileEvents stored fileId groupIds) groupId = true ↔
      NeedsBackfill (otherEvents stored fileId groupId) (ownEvents stored fileId groupId) := by
  rw [isBackfilled_iff, fileEvents_filter distinct covers]
  have others : (stored.filter fun event =>
      event.auditFileId != fileId && event.countsFor groupId) =
        otherEvents stored fileId groupId := by
    rw [otherEvents, validGroupEvents, List.filter_filter]
    apply List.filter_congr
    intro event _
    rw [Bool.and_comm]
  rw [others]
  simp only [NeedsBackfill, mem_inOrder]

theorem replay_grouped {state final : GroupState} {groupId : Nat} {events : List AuditEvent}
    (grouped : ∀ event ∈ events, event.groupId = some groupId)
    (replayed : replay (fun state event =>
      if event.groupId = none then some state else projectEvent state event) state events =
        some final) :
    replay projectEvent state events = some final := by
  rw [← replayed]
  clear replayed
  induction events generalizing state with
  | nil => rfl
  | cons event rest inductionHypothesis =>
      have here := grouped event List.mem_cons_self
      rw [replay_cons, replay_cons, if_neg (by simp [here])]
      cases projectEvent state event with
      | none => rfl
      | some next =>
          exact inductionHypothesis fun other member =>
            grouped other (List.mem_cons_of_mem event member)

/-- Projecting a file, seen from one group. -/
theorem projectFileEvents_spec (distinct : Distinguishes eventOrderKey stored)
    (covers : ∀ event ∈ stored, event.auditFileId = fileId → ∀ groupId,
      event.groupId = some groupId → groupId ∈ groupIds)
    {projections next : Nat → GroupProjections}
    (projected : projectFileEvents stored projections fileId groupIds = some next) (groupId : Nat) :
    FileProjected stored fileId groupId (projections groupId) (next groupId) := by
  unfold projectFileEvents at projected
  simp only at projected
  cases rebuilt : rebuildGroups stored ((inOrder id groupIds).filter
      (isBackfilled stored fileId (fileEvents stored fileId groupIds))) projections with
  | none => simp [rebuilt] at projected
  | some rows =>
      simp only [rebuilt] at projected
      obtain ⟨final, replayed, rfl⟩ := Option.map_eq_some_iff.mp projected
      obtain ⟨inside, outside⟩ := rebuildGroups_spec rebuilt groupId
      have mine := projectGroupedEvent_splits.view_replay replayed (some groupId)
      rw [List.filter_filter] at mine
      by_cases needed : NeedsBackfill (otherEvents stored fileId groupId)
          (ownEvents stored fileId groupId)
      · -- the group is rebuilt, and none of its events is left for the incremental pass
        have backfilled := (isBackfilled_fileEvents distinct covers groupId).mpr needed
        have witness := needed
        obtain ⟨-, -, fresh, freshMember, -⟩ := witness
        obtain ⟨stays, ours, counts⟩ := mem_ownEvents.mp freshMember
        have listed : groupId ∈ groupIds :=
          covers fresh stays ours groupId (AuditEvent.countsFor_iff.mp counts).1
        have noneLeft : (fileEvents stored fileId groupIds).filter (fun event =>
            decide (event.groupId = some groupId) && event.groupId.all fun groupId =>
              !isBackfilled stored fileId (fileEvents stored fileId groupIds) groupId) = [] := by
          rw [List.filter_eq_nil_iff]
          intro event _
          by_cases grouped : event.groupId = some groupId <;> simp [grouped, backfilled]
        rw [noneLeft, replay_nil] at mine
        refine .backfilled needed ?_
        rw [inside (List.mem_filter.mpr ⟨mem_inOrder.mpr listed, backfilled⟩)]
        simp only [Option.elim_some, Option.some.injEq] at mine
        exact congrArg (fun state : GroupState => some state.projections) mine
      · have notBackfilled : isBackfilled stored fileId (fileEvents stored fileId groupIds)
            groupId = false := by
          rw [← Bool.not_eq_true, isBackfilled_fileEvents distinct covers groupId]
          exact needed
        have allLeft : (fileEvents stored fileId groupIds).filter (fun event =>
            decide (event.groupId = some groupId) && event.groupId.all fun groupId =>
              !isBackfilled stored fileId (fileEvents stored fileId groupIds) groupId) =
              inOrder eventOrderKey (ownEvents stored fileId groupId) := by
          rw [← fileEvents_filter distinct covers groupId]
          apply List.filter_congr
          intro event _
          by_cases grouped : event.groupId = some groupId <;> simp [grouped, notBackfilled]
        have unchanged : rows groupId = projections groupId := by
          apply outside
          intro member
          rw [List.mem_filter, notBackfilled] at member
          cases member.2
        have sameMap : activeInferredRunsForEvents stored rows
            ((fileEvents stored fileId groupIds).filter fun event => event.groupId.all fun groupId =>
              !isBackfilled stored fileId (fileEvents stored fileId groupIds) groupId) groupId =
            openRuns stored (projections groupId).convergence.runs
              (ownEvents stored fileId groupId) := by
          funext engineId
          unfold activeInferredRunsForEvents openRuns
          rw [unchanged]
          apply if_congr _ rfl rfl
          apply and_congr_right
          intro _
          have sameEvents : ∀ event, (event ∈ ((fileEvents stored fileId groupIds).filter fun event =>
              event.groupId.all fun groupId =>
                !isBackfilled stored fileId (fileEvents stored fileId groupIds) groupId) ∧
              event.groupId = some groupId) ↔ event ∈ ownEvents stored fileId groupId := by
            intro event
            have sorted : event ∈ inOrder eventOrderKey (ownEvents stored fileId groupId) ↔
                event ∈ ownEvents stored fileId groupId := mem_inOrder
            rw [← sorted, ← allLeft]
            simp only [List.mem_filter, Bool.and_eq_true, decide_eq_true_eq]
            tauto
          constructor
          · rintro ⟨event, member, grouped, engine, needs⟩
            exact ⟨event, (sameEvents event).mp ⟨member, grouped⟩, engine, needs⟩
          · rintro ⟨event, member, engine, needs⟩
            obtain ⟨stays, grouped⟩ := (sameEvents event).mpr member
            exact ⟨event, stays, grouped, engine, needs⟩
        rw [allLeft] at mine
        refine .extended needed (final groupId) ?_ rfl
        have grouped : ∀ event ∈ inOrder eventOrderKey (ownEvents stored fileId groupId),
            event.groupId = some groupId := by
          intro event member
          exact (AuditEvent.countsFor_iff.mp (mem_ownEvents.mp (mem_inOrder.mp member)).2.2).1
        simp only [Option.elim_some, unchanged, sameMap] at mine
        exact replay_grouped grouped mine

end Spec

end Goggles
