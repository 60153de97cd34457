/-
Module: Goggles.Refinement.Stitching
Purpose: The rows of a rebuild against what the convergence runs of a group are for.  The ids made up
  for runs that no event names are drawn from the same set as the ids that events name.
Trusted boundary: the width of the column of run ids, which the database decides
Main exports: rebuildStored, stitching_iff
-/
import Goggles.Projection.WellStitched
import Goggles.Refinement.Convergence
import Goggles.Store.GroupIdentity

namespace Goggles

/-- The run that the event names fits the column it is stored in. -/
def runIdFits (fits : Str → Bool) (event : AuditEvent) : Bool :=
  event.engineId.isEmpty || (explicitRunId event).isEmpty || fits (explicitRunId event)

/-- A rebuild on a database that refuses a run id that does not fit its column. -/
def rebuildStored (fits : Str → Bool) (events : List AuditEvent) (groupId : Nat) :
    Option GroupProjections :=
  if (validGroupEvents events groupId).all (runIdFits fits) then rebuildGroup events groupId else none

/-- Ids that do not look made up are told apart from those that are. -/
theorem noClash_of_prefix {events : List AuditEvent}
    (plain : ∀ event ∈ events, ¬ lit "inferred-" <+: explicitRunId event) : NoClash events := by
  intro opener _ other member _ same
  apply plain other member
  rw [same, inferredRunId, List.append_assoc, List.append_assoc]
  exact List.prefix_append _ _

/-- The events of a group, in the order a rebuild reads them. -/
theorem rebuildOrder_facts {events : List AuditEvent} {groupId : Nat}
    (sound : SoundEvents (validGroupEvents events groupId)) (ids : (events.map (·.id)).Nodup) :
    SoundEvents (inOrder eventOrderKey (validGroupEvents events groupId)) ∧
      ((inOrder eventOrderKey (validGroupEvents events groupId)).map (·.id)).Nodup := by
  constructor
  · intro event member
    exact sound event (mem_inOrder.mp member)
  · have perm := perm_inOrder eventOrderKey (validGroupEvents events groupId)
    apply ((perm.map AuditEvent.id).nodup_iff).mpr
    exact ids.sublist (List.filter_sublist.map AuditEvent.id)

theorem WellFormed.soundGroup {store : Store} (formed : WellFormed store) (groupId : Nat) :
    SoundEvents (validGroupEvents store.events groupId) :=
  fun event member => formed.sound event (List.mem_of_mem_filter member)

/-- A rebuild keeps every event it should in the run it should, if and only if no event names the run
that an event of its engine begins, and every run id fits its column. -/
theorem stitching_iff (fits : Str → Bool) {events : List AuditEvent} {groupId : Nat}
    (sound : SoundEvents (validGroupEvents events groupId)) (ids : (events.map (·.id)).Nodup) :
    (∃ rows, rebuildStored fits events groupId = some rows ∧
        WellStitched (inOrder eventOrderKey (validGroupEvents events groupId)) rows.convergence) ↔
      (∀ event ∈ validGroupEvents events groupId, namesRun event →
          fits (explicitRunId event) = true) ∧
        NoClash (inOrder eventOrderKey (validGroupEvents events groupId)) := by
  obtain ⟨orderSound, orderIds⟩ := rebuildOrder_facts sound ids
  have distinct := List.inj_on_of_nodup_map orderIds
  have all_fit : (validGroupEvents events groupId).all (runIdFits fits) = true ↔
      ∀ event ∈ validGroupEvents events groupId, namesRun event →
        fits (explicitRunId event) = true := by
    rw [List.all_eq_true]
    apply forall₂_congr
    intro event member
    simp [runIdFits, namesRun, (sound event member).engine, or_iff_not_imp_left]
  rw [rebuildStored]
  constructor
  · rintro ⟨rows, rebuilt, whole⟩
    split at rebuilt
    · next fit =>
        obtain ⟨final, replayed, rfl⟩ := Option.map_eq_some_iff.mp rebuilt
        have parted := parted_replay .cleared .cleared orderSound orderIds
          (convergence_of_replay replayed)
        exact ⟨all_fit.mp fit, whole.noClash parted fun one oneMember two twoMember same =>
          distinct oneMember twoMember same⟩
    · cases rebuilt
  · rintro ⟨fit, clear⟩
    obtain ⟨last, replayed⟩ : ∃ last, replay ConvergenceState.step .cleared
        (inOrder eventOrderKey (validGroupEvents events groupId)) = some last :=
      replays_of_noClash Parted.cleared Stitched.cleared orderSound orderIds clear
    have stepped := convergence_replay .cleared
      (inOrder eventOrderKey (validGroupEvents events groupId))
    rw [show GroupState.cleared.convergence = .cleared from rfl, replayed] at stepped
    obtain ⟨final, projected, rfl⟩ := Option.map_eq_some_iff.mp stepped
    refine ⟨final.projections, ?_, ?_⟩
    · rw [if_pos (all_fit.mpr fit), rebuildGroup, projected, Option.map_some]
    · have parted := parted_replay .cleared .cleared orderSound orderIds replayed
      have stitched := stitched_replay .cleared orderSound orderIds replayed
      exact parted.wellStitched stitched orderSound
        (fun one oneMember two twoMember same => distinct oneMember twoMember same) clear

/-- The run named `r` apart, the events at 100 and at 300 are runs of their own. -/
theorem stitching_evaluatingUploads :
    let store := storeAfter evaluatingEnv evaluatingUploads
    ∃ rows, rebuildStored (fun _ => true) store.events 1 = some rows ∧
      WellStitched (inOrder eventOrderKey (validGroupEvents store.events 1)) rows.convergence := by
  intro store
  have formed : WellFormed store := wellFormed_storeAfter evaluatingEnv evaluatingUploads
  apply (stitching_iff (fun _ => true) (formed.soundGroup 1) formed.eventIds).mpr
  refine ⟨fun _ _ _ => rfl, noClash_of_prefix ?_⟩
  decide +kernel

/-- The context that names the run that the first stored event begins. -/
def borrowedContext : Str :=
  lit "\"context\":\x7b\"convergence\":" ++ lit "\x7b\"run_id\":\"inferred-e-1\"\x7d\x7d,"

/-- Knows the record at 100 and the one at 200 that borrows its run. -/
def borrowedEnv : Env :=
  digestEnv
    [(evaluatingRecord 100 [],
        lit "32394aad24b4a4cdc6b72c43dca4bf13" ++ lit "f873a4dd57f6462b9e313122d1913351"),
      (evaluatingRecord 200 borrowedContext,
        lit "107a23e82420da6d218dd466123543fe" ++ lit "033b617748f0f45ffdacf72044abeb76")]

/-- The record at 200 joins the run of the record at 100, which names no run. -/
theorem stitching_fails_borrowedId :
    let store := storeAfter borrowedEnv
      [uploadOf [evaluatingRecord 100 []], uploadOf [evaluatingRecord 200 borrowedContext]]
    (rebuildGroup store.events 1).map (·.convergence.runs.entries.map fun entry =>
        (entry.1, entry.2.evidence)) = some [((lit "e", lit "inferred-e-1"), {1, 2})] ∧
      ∀ rows, rebuildGroup store.events 1 = some rows →
        ¬ WellStitched (inOrder eventOrderKey (validGroupEvents store.events 1))
          rows.convergence := by
  intro store
  have facts : (rebuildGroup store.events 1).map (·.convergence.runs.entries.map fun entry =>
        (entry.1, entry.2.evidence)) = some [((lit "e", lit "inferred-e-1"), {1, 2})] ∧
      (∃ namer ∈ inOrder eventOrderKey (validGroupEvents store.events 1),
        namesRun namer ∧ (namer.engineId, explicitRunId namer) = (lit "e", lit "inferred-e-1")) ∧
      ∀ event ∈ inOrder eventOrderKey (validGroupEvents store.events 1),
        event.id = 1 → explicitRunId event = [] := by
    decide +kernel
  obtain ⟨kept, named, unnamed⟩ := facts
  refine ⟨kept, ?_⟩
  intro rows built whole
  obtain ⟨namer, member, names, key⟩ := named
  obtain ⟨row, found, exact⟩ := whole.named namer member names
  rw [built, Option.map_some, Option.some.injEq] at kept
  have entry := Keyed.find_eq_some_iff.mp found
  have shown : ((namer.engineId, explicitRunId namer), row.evidence) ∈
      rows.convergence.runs.entries.map fun entry => (entry.1, entry.2.evidence) :=
    List.mem_map_of_mem entry
  rw [kept, List.mem_singleton, Prod.mk.injEq] at shown
  have inside : 1 ∈ row.evidence := by
    rw [shown.2]
    decide
  obtain ⟨event, eventMember, isFirst, -, sameId⟩ := (exact 1).mp inside
  rw [unnamed event eventMember isFirst] at sameId
  exact names sameId.symm

end Goggles
