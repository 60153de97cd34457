/-
Module: Goggles.Concurrency.Locality
Purpose: Projecting a file reads and writes the rows of the file's groups only: events of other files
  in other groups may be committed meanwhile without a change of the result.
Trusted boundary: none beyond the modules it imports
Main exports: touchedGroups, Beside, rebuildFileProjections_beside
-/
import Goggles.Projection.Incremental
import Goggles.Projection.Stitched

namespace Goggles

/-- The groups a file is projected in. -/
def touchedGroups (stored : List AuditEvent) (file : AuditFile) : List Nat :=
  file.groups ∪ eventGroups stored file.id

/-- Events `theirs` that came between are of other files, in other groups, and no evidence of the
runs of the file's groups. -/
structure Beside (old theirs mine : List AuditEvent) (projections : Nat → GroupProjections)
    (file : AuditFile) : Prop where
  owner : ∀ event ∈ theirs, event.auditFileId ≠ file.id
  group : ∀ event ∈ theirs, ∀ groupId ∈ touchedGroups (old ++ mine) file,
    event.groupId ≠ some groupId
  uncited : ∀ event ∈ theirs, ∀ groupId ∈ touchedGroups (old ++ mine) file, ∀ run row,
    (projections groupId).convergence.runs.find run = some row → event.id ∉ row.evidence

/-- A filter that keeps none of the events between. -/
theorem filter_between {α : Type*} {old theirs mine : List α} {keep : α → Bool}
    (dropped : ∀ event ∈ theirs, keep event = false) :
    (old ++ theirs ++ mine).filter keep = (old ++ mine).filter keep := by
  have nothing : theirs.filter keep = [] := by
    apply List.filter_eq_nil_iff.mpr
    intro event member
    simp [dropped event member]
  rw [List.filter_append, List.filter_append, nothing, List.append_nil, ← List.filter_append]

/-- Events that only change the rows of some groups, replayed on states that agree on these. -/
theorem replay_projectGroupedEvent_agree {groupIds : List Nat} {left right final : Nat → GroupState}
    {events : List AuditEvent}
    (within : ∀ event ∈ events, ∃ groupId ∈ groupIds, event.groupId = some groupId)
    (agree : ∀ groupId ∈ groupIds, left groupId = right groupId)
    (replayed : replay projectGroupedEvent left events = some final) :
    ∃ other, replay projectGroupedEvent right events = some other ∧
      (∀ groupId ∈ groupIds, other groupId = final groupId) ∧
      ∀ groupId ∉ groupIds, other groupId = right groupId := by
  induction events generalizing left right with
  | nil =>
      cases replayed
      exact ⟨right, rfl, fun groupId member => (agree groupId member).symm, fun _ _ => rfl⟩
  | cons event rest inductionHypothesis =>
      obtain ⟨groupId, listed, grouped⟩ := within event List.mem_cons_self
      rw [replay_cons, projectGroupedEvent, grouped] at replayed
      obtain ⟨next, stepped, rested⟩ := Option.bind_eq_some_iff.mp replayed
      obtain ⟨changed, projected, rfl⟩ := Option.map_eq_some_iff.mp stepped
      have agreeNext : ∀ other ∈ groupIds, Function.update left groupId changed other =
          Function.update right groupId changed other := by
        intro other member
        by_cases here : other = groupId
        · rw [here, Function.update_self, Function.update_self]
        · rw [Function.update_of_ne here, Function.update_of_ne here]
          exact agree other member
      obtain ⟨other, done, inside, outside⟩ := inductionHypothesis
        (fun event member => within event (List.mem_cons_of_mem _ member)) agreeNext rested
      refine ⟨other, ?_, inside, fun name absent => ?_⟩
      · rw [replay_cons, projectGroupedEvent, grouped]
        simp only [← agree groupId listed, projected, Option.map_some, Option.bind_some]
        exact done
      · rw [outside name absent, Function.update_of_ne]
        rintro rfl
        exact absent listed

/-- Rebuilds of groups whose events are the same. -/
theorem rebuildGroups_agree {stored other : List AuditEvent} {groupIds rebuilt : List Nat}
    {left right next : Nat → GroupProjections}
    (same : ∀ groupId ∈ rebuilt, rebuildGroup stored groupId = rebuildGroup other groupId)
    (agree : ∀ groupId ∈ groupIds, left groupId = right groupId)
    (done : rebuildGroups stored rebuilt left = some next) :
    ∃ others, rebuildGroups other rebuilt right = some others ∧
      ∀ groupId ∈ groupIds, others groupId = next groupId := by
  induction rebuilt generalizing left right with
  | nil =>
      cases done
      exact ⟨right, rfl, fun groupId member => (agree groupId member).symm⟩
  | cons head rest inductionHypothesis =>
      rw [rebuildGroups] at done
      cases built : rebuildGroup stored head with
      | none => simp [built] at done
      | some rows =>
          simp only [built] at done
          have agreeNext : ∀ groupId ∈ groupIds, Function.update left head rows groupId =
              Function.update right head rows groupId := by
            intro groupId member
            by_cases here : groupId = head
            · rw [here, Function.update_self, Function.update_self]
            · rw [Function.update_of_ne here, Function.update_of_ne here]
              exact agree groupId member
          obtain ⟨others, finished, inside⟩ := inductionHypothesis
            (fun groupId member => same groupId (List.mem_cons_of_mem _ member)) agreeNext done
          refine ⟨others, ?_, inside⟩
          rw [rebuildGroups, ← same head List.mem_cons_self, built]
          exact finished

section Beside

variable {old theirs mine : List AuditEvent} {projections : Nat → GroupProjections}
  {file : AuditFile}

namespace Beside

theorem eventGroups_eq (beside : Beside old theirs mine projections file) :
    eventGroups (old ++ theirs ++ mine) file.id = eventGroups (old ++ mine) file.id := by
  rw [eventGroups, eventGroups, filter_between]
  intro event member
  simpa using beside.owner event member

theorem fileEvents_eq (beside : Beside old theirs mine projections file) (groupIds : List Nat) :
    fileEvents (old ++ theirs ++ mine) file.id groupIds = fileEvents (old ++ mine) file.id groupIds := by
  rw [fileEvents, fileEvents, filter_between]
  intro event member
  simp [beside.owner event member]

theorem validGroupEvents_eq (beside : Beside old theirs mine projections file) {groupId : Nat}
    (touched : groupId ∈ touchedGroups (old ++ mine) file) :
    validGroupEvents (old ++ theirs ++ mine) groupId = validGroupEvents (old ++ mine) groupId := by
  apply filter_between
  intro event member
  simp [AuditEvent.countsFor, beside.group event member groupId touched]

theorem isBackfilled_eq (beside : Beside old theirs mine projections file) {groupId : Nat}
    (touched : groupId ∈ touchedGroups (old ++ mine) file) (events : List AuditEvent) :
    isBackfilled (old ++ theirs ++ mine) file.id events groupId =
      isBackfilled (old ++ mine) file.id events groupId := by
  have nothing : theirs.any (isOvertaken file.id (earliestUploaded events) groupId) = false := by
    rw [List.any_eq_false]
    intro event member
    simp [isOvertaken, AuditEvent.countsFor, beside.group event member groupId touched]
  rw [isBackfilled, isBackfilled, List.any_append, List.any_append, List.any_append, nothing,
    Bool.or_false]

theorem activeInferredRun_eq (beside : Beside old theirs mine projections file) {groupId : Nat}
    (touched : groupId ∈ touchedGroups (old ++ mine) file) (engineId : Str) :
    activeInferredRun (old ++ theirs ++ mine) (projections groupId).convergence.runs engineId =
      activeInferredRun (old ++ mine) (projections groupId).convergence.runs engineId := by
  rw [activeInferredRun, activeInferredRun]
  cases latest : latestInferredRun (projections groupId).convergence.runs engineId with
  | none => rfl
  | some found =>
      obtain ⟨key, row⟩ := found
      have listed : (key, row) ∈ (projections groupId).convergence.runs.entries := by
        have inFiltered := mem_of_latestRun latest
        simp only [reduceCtorEq, false_or] at inFiltered
        exact List.mem_of_mem_filter inFiltered
      have sameEvidence : (old ++ theirs ++ mine).filter (fun event => event.id ∈ row.evidence) =
          (old ++ mine).filter fun event => event.id ∈ row.evidence := by
        apply filter_between
        intro event member
        simpa using beside.uncited event member groupId touched key row
          (Keyed.find_eq_some_iff.mpr listed)
      have sameLast : lastEvidence (old ++ theirs ++ mine) row = lastEvidence (old ++ mine) row := by
        rw [lastEvidence, lastEvidence, sameEvidence]
      have sameActive : runIsActiveInferred (old ++ theirs ++ mine) row =
          runIsActiveInferred (old ++ mine) row := by
        rw [runIsActiveInferred, runIsActiveInferred, sameLast]
      simp only [sameActive]

end Beside

/-- The same projection with the events of others committed in between, on rows that agree in the
file's groups. -/
theorem projectFileEvents_beside (beside : Beside old theirs mine projections file)
    {others next : Nat → GroupProjections}
    (agree : ∀ groupId ∈ touchedGroups (old ++ mine) file,
      projections groupId = others groupId)
    (projected : projectFileEvents (old ++ mine) projections file.id
      (touchedGroups (old ++ mine) file) = some next) :
    ∃ result, projectFileEvents (old ++ theirs ++ mine) others file.id
        (touchedGroups (old ++ mine) file) = some result ∧
      (∀ groupId ∈ touchedGroups (old ++ mine) file, result groupId = next groupId) ∧
      ∀ groupId ∉ touchedGroups (old ++ mine) file, result groupId = others groupId := by
  have backfilledEq : ∀ groupId ∈ touchedGroups (old ++ mine) file, ∀ events,
      isBackfilled (old ++ theirs ++ mine) file.id events groupId =
        isBackfilled (old ++ mine) file.id events groupId :=
    fun groupId touched events => beside.isBackfilled_eq touched events
  unfold projectFileEvents at projected ⊢
  simp only [beside.fileEvents_eq] at projected ⊢
  generalize touchedEq : touchedGroups (old ++ mine) file = groupIds at projected ⊢ agree backfilledEq
  generalize eventsEq : fileEvents (old ++ mine) file.id groupIds = events at projected ⊢
  have within : ∀ event ∈ events, ∃ groupId ∈ groupIds, event.groupId = some groupId := by
    intro event member
    rw [← eventsEq, fileEvents, mem_inOrder, List.mem_filter] at member
    cases grouped : event.groupId with
    | none => simp [grouped] at member
    | some groupId =>
        refine ⟨groupId, ?_, rfl⟩
        simpa [grouped] using And.right (Bool.and_eq_true_iff.mp member.2)
  have sameBackfilled : (inOrder id groupIds).filter
      (isBackfilled (old ++ theirs ++ mine) file.id events) =
        (inOrder id groupIds).filter (isBackfilled (old ++ mine) file.id events) :=
    List.filter_congr fun groupId member => backfilledEq groupId (mem_inOrder.mp member) events
  have sameRemaining : events.filter (fun event => event.groupId.all fun groupId =>
      !isBackfilled (old ++ theirs ++ mine) file.id events groupId) =
        events.filter fun event => event.groupId.all fun groupId =>
          !isBackfilled (old ++ mine) file.id events groupId := by
    apply List.filter_congr
    intro event member
    obtain ⟨groupId, listed, grouped⟩ := within event member
    simp only [grouped, Option.all_some, backfilledEq groupId listed]
  rw [sameBackfilled, sameRemaining]
  cases rebuilt : rebuildGroups (old ++ mine)
      ((inOrder id groupIds).filter (isBackfilled (old ++ mine) file.id events)) projections with
  | none => simp [rebuilt] at projected
  | some rows =>
      simp only [rebuilt] at projected
      obtain ⟨final, replayed, rfl⟩ := Option.map_eq_some_iff.mp projected
      have sameGroups : ∀ groupId ∈ (inOrder id groupIds).filter
          (isBackfilled (old ++ mine) file.id events),
          rebuildGroup (old ++ mine) groupId = rebuildGroup (old ++ theirs ++ mine) groupId := by
        intro groupId member
        have touched := mem_inOrder.mp (List.mem_of_mem_filter member)
        rw [rebuildGroup, rebuildGroup, beside.validGroupEvents_eq (touchedEq ▸ touched)]
      obtain ⟨otherRows, otherRebuilt, sameRows⟩ := rebuildGroups_agree sameGroups agree rebuilt
      rw [otherRebuilt]
      have agreeStates : ∀ groupId ∈ groupIds,
          (⟨rows groupId, activeInferredRunsForEvents (old ++ mine) rows
            (events.filter fun event => event.groupId.all fun groupId =>
              !isBackfilled (old ++ mine) file.id events groupId) groupId⟩ : GroupState) =
          ⟨otherRows groupId, activeInferredRunsForEvents (old ++ theirs ++ mine) otherRows
            (events.filter fun event => event.groupId.all fun groupId =>
              !isBackfilled (old ++ mine) file.id events groupId) groupId⟩ := by
        intro groupId listed
        rw [sameRows groupId listed]
        congr 1
        funext engineId
        unfold activeInferredRunsForEvents
        rw [sameRows groupId listed]
        by_cases asked : engineId ≠ [] ∧ ∃ event ∈ events.filter fun event =>
            event.groupId.all fun groupId =>
              !isBackfilled (old ++ mine) file.id events groupId,
            event.groupId = some groupId ∧ event.engineId = engineId ∧
              eventMayNeedInferredConvergenceState event = true
        · -- an event is left for the group, so the group was not rebuilt
          have unchanged : rows groupId = projections groupId := by
            apply (rebuildGroups_spec rebuilt groupId).2
            intro member
            obtain ⟨-, event, left, grouped, -⟩ := asked
            have kept := (List.mem_filter.mp left).2
            have dropped := (List.mem_filter.mp member).2
            simp [grouped, dropped] at kept
          rw [if_pos asked, if_pos asked, unchanged,
            beside.activeInferredRun_eq (touchedEq ▸ listed)]
        · rw [if_neg asked, if_neg asked]
      obtain ⟨result, finished, inside, outside⟩ := replay_projectGroupedEvent_agree
        (fun event member => within event (List.mem_of_mem_filter member)) agreeStates replayed
      refine ⟨fun groupId => (result groupId).projections, ?_, fun groupId listed => ?_,
        fun groupId absent => ?_⟩
      · simp only [finished, Option.map_some]
      · simp only [inside groupId listed]
      · simp only [outside groupId absent]
        apply (rebuildGroups_spec otherRebuilt groupId).2
        exact fun member => absent (mem_inOrder.mp (List.mem_of_mem_filter member))

/-- The projection of a file while others commit. -/
theorem rebuildFileProjections_beside (beside : Beside old theirs mine projections file)
    {others next : Nat → GroupProjections}
    (agree : ∀ groupId ∈ touchedGroups (old ++ mine) file,
      projections groupId = others groupId)
    (projected : rebuildFileProjections (old ++ mine) projections file = some next) :
    ∃ result, rebuildFileProjections (old ++ theirs ++ mine) others file = some result ∧
      (∀ groupId ∈ touchedGroups (old ++ mine) file, result groupId = next groupId) ∧
      ∀ groupId ∉ touchedGroups (old ++ mine) file, result groupId = others groupId := by
  unfold rebuildFileProjections at projected ⊢
  simp only [beside.eventGroups_eq] at projected ⊢
  split at projected
  · next versionless =>
      cases projected
      rw [if_pos versionless]
      exact ⟨others, rfl, fun groupId touched => (agree groupId touched).symm, fun _ _ => rfl⟩
  · next versioned =>
      rw [if_neg versioned]
      split at projected
      · next noGroups =>
          cases projected
          rw [if_pos noGroups]
          exact ⟨others, rfl, fun groupId touched => (agree groupId touched).symm, fun _ _ => rfl⟩
      · next someGroups =>
          rw [if_neg someGroups]
          exact projectFileEvents_beside beside agree projected

/-- A file's projection changes no row of another group. -/
theorem rebuildFileProjections_outside {stored : List AuditEvent}
    {before after : Nat → GroupProjections} {file : AuditFile}
    (projected : rebuildFileProjections stored before file = some after) {groupId : Nat}
    (untouched : groupId ∉ touchedGroups stored file) : after groupId = before groupId := by
  have beside : Beside stored [] [] before file := ⟨by simp, by simp, by simp⟩
  have same : ∀ groupId ∈ touchedGroups (stored ++ []) file, before groupId = before groupId :=
    fun _ _ => rfl
  obtain ⟨result, again, -, outside⟩ :=
    rebuildFileProjections_beside beside same (by simpa using projected)
  have same : after = result := by
    rw [List.append_nil, List.append_nil, projected, Option.some.injEq] at again
    exact again
  rw [same]
  exact outside groupId (by simpa using untouched)

end Beside

end Goggles
