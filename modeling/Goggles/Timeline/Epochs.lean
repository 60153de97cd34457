/-
Module: Goggles.Timeline.Epochs
Purpose: The epochs of a timeline: who confirmed one and who began it, which confirmation is the
  commit, which repeat an earlier one, and which engines are missing.
Trusted boundary: forensics/analysis.py, `timeline_epochs` to `dedupe_epoch_initiators`
Main exports: timelineEpochs, TimelineEpoch, IsCommit, EpochSound, TimelineEpochsSound,
  timelineEpochs_sound
-/
import Goggles.Timeline.Fields

namespace Goggles

/-! ### What is kept of an event -/

/-- An entry of `confirmations`. -/
structure Confirmation where
  engine : Option Nat
  t : Option Nat
  fromEpoch : Option Nat
  pendingKind : Str
  humanAction : Str
  humanActionOrigin : Str
  humanActionPhase : Str
  itemId : Nat
  isRepeat : Bool
deriving Repr, DecidableEq

/-- An entry of `direct_initiators`. -/
structure Initiator where
  engine : Nat
  t : Option Nat
  action : Str
  phase : Str
  resultKind : Str
  pendingKind : Str
  itemId : Nat
  source : Str
deriving Repr, DecidableEq

/-- An entry of `forks`. -/
structure ForkEntry where
  itemId : Nat
  engine : Option Nat
  t : Option Nat
  winner : Str
  candidateDigest : Str
  incumbentDigest : Str
  invalidatedMsgId : Str
deriving Repr, DecidableEq

/-- An entry of `convergences`. -/
structure ConvergenceEntry where
  itemId : Nat
  engine : Option Nat
  t : Option Nat
  currentTipEpoch : Option Nat
  selectedTipEpoch : Option Nat
  selectedForkEpoch : Option Nat
  selectedBranchId : Str
  candidateCount : Option Nat
  eligibleCount : Option Nat
  maxRewindCommits : Option Nat
deriving Repr, DecidableEq

inductive RollbackRole where
  | abandoned
  | restoredTo
deriving Repr, DecidableEq

/-- An entry of `rollbacks`. -/
structure RollbackEntry where
  itemId : Nat
  engine : Option Nat
  t : Option Nat
  pendingEpoch : Option Nat
  restoredEpoch : Option Nat
  pendingKind : Str
  role : RollbackRole
deriving Repr, DecidableEq

/-- An entry of `snapshots`. -/
structure SnapshotEntry where
  itemId : Nat
  engine : Option Nat
  t : Option Nat
  snapshotName : Str
  reason : Str
deriving Repr, DecidableEq

def confirmation (event : AuditEvent) (engine : Option Nat) : Confirmation where
  engine := engine
  t := event.wallTimeMs
  fromEpoch := event.number "from_epoch"
  pendingKind := event.text "pending_kind"
  humanAction := event.humanActionAction
  humanActionOrigin := event.humanActionOrigin
  humanActionPhase := event.humanActionPhase
  itemId := event.id
  isRepeat := false

def forkEntry (event : AuditEvent) (engine : Option Nat) : ForkEntry where
  itemId := event.id
  engine := engine
  t := event.wallTimeMs
  winner := event.text "winner"
  candidateDigest := event.text "candidate_digest"
  incumbentDigest := event.text "incumbent_digest"
  invalidatedMsgId := event.invalidatedMsgId

def convergenceEntry (event : AuditEvent) (engine : Option Nat) : ConvergenceEntry where
  itemId := event.id
  engine := engine
  t := event.wallTimeMs
  currentTipEpoch := event.number "current_tip_epoch"
  selectedTipEpoch := event.number "selected_tip_epoch"
  selectedForkEpoch := event.number "selected_fork_epoch"
  selectedBranchId := event.selectedBranchId
  candidateCount := event.number "candidate_count"
  eligibleCount := event.number "eligible_count"
  maxRewindCommits := event.number "max_rewind_commits"

def rollbackEntry (event : AuditEvent) (engine : Option Nat) (role : RollbackRole) :
    RollbackEntry where
  itemId := event.id
  engine := engine
  t := event.wallTimeMs
  pendingEpoch := event.number "pending_epoch"
  restoredEpoch := event.number "restored_epoch"
  pendingKind := event.text "pending_kind"
  role := role

def snapshotEntry (event : AuditEvent) (engine : Option Nat) : SnapshotEntry where
  itemId := event.id
  engine := engine
  t := event.wallTimeMs
  snapshotName := event.text "snapshot_name"
  reason := event.reason

/-! ### Who began an epoch -/

/-- `message_epochs`: the epochs each message was seen in. -/
def messageEpochs (events : List AuditEvent) : Keyed Json (List Nat) :=
  Keyed.gather Keyed.addItem (events.flatMap fun event =>
    match eventEpoch event with
    | none => []
    | some epoch => (eventMessageIdValues event).map (·, epoch))

/-- `epoch_initiators_for_event`. -/
def epochInitiatorsForEvent (event : AuditEvent) (engine : Option Nat)
    (messageEpochs : Keyed Json (List Nat)) : List (Nat × Initiator) :=
  match engine with
  | none => []
  | some engine =>
      if event.humanActionOrigin ≠ lit "local_user" then []
      else
        let initiator : Initiator :=
          { engine := engine
            t := event.wallTimeMs
            action := event.humanActionAction
            phase := event.humanActionPhase
            resultKind := event.resultKind
            pendingKind := event.text "pending_kind"
            itemId := event.id
            source := event.eventType }
        match event.number "to_epoch" with
        | some epoch => [(epoch, initiator)]
        | none =>
            if event.eventType = lit "send_outcome" ∧
                EPOCH_CHANGE_RESULT_KINDS.contains event.resultKind then
              let epochs := (eventMessageIdValues event).flatMap fun messageId =>
                (messageEpochs.find messageId).getD []
              (inOrder id epochs.dedup).map (·, initiator)
            else []

/-- `dedupe_epoch_initiators`. -/
def dedupeEpochInitiators (initiators : List Initiator) : List Initiator :=
  (Keyed.gather (fun found item => found.getD item) (initiators.map fun item =>
    ((item.engine, item.itemId, item.source), item))).entries.map (·.2)

/-! ### The loop over the events -/

/-- What is known after some events. -/
structure EpochScan where
  confirmations : Keyed Nat (List Confirmation)
  directInitiators : Keyed Nat (List Initiator)
  forks : Keyed Nat (List ForkEntry)
  convergences : Keyed Nat (List ConvergenceEntry)
  rollbacks : Keyed Nat (List RollbackEntry)
  snapshots : Keyed Nat (List SnapshotEntry)
  referenced : List Nat
  messageCounts : Keyed Nat Nat
  roles : TimelineRoles

def EpochScan.empty : EpochScan :=
  ⟨.empty, .empty, .empty, .empty, .empty, .empty, [], .empty, .empty⟩

/-- `table[key].append(item)`. -/
def appendTo {ι : Type} (table : Keyed Nat (List ι)) (key : Nat) (item : ι) : Keyed Nat (List ι) :=
  table.upsert key (Keyed.appendItem · item)

namespace EpochScan

def addInitiators (scan : EpochScan) (initiators : List (Nat × Initiator)) : EpochScan :=
  let append := fun (table : Keyed Nat (List Initiator)) (item : Nat × Initiator) =>
    appendTo table item.1 item.2
  { scan with directInitiators := initiators.foldl append scan.directInitiators }

/-- `referenced.add` of an epoch that may be missing. -/
def refer (scan : EpochScan) (epoch : Option Nat) : EpochScan :=
  { scan with referenced := scan.referenced ++ epoch.toList }

def addConfirmation (scan : EpochScan) (event : AuditEvent) (engine : Option Nat) : EpochScan :=
  match event.number "to_epoch" with
  | none => scan
  | some epoch => { scan with
      confirmations := appendTo scan.confirmations epoch (confirmation event engine) }

def addFork (scan : EpochScan) (event : AuditEvent) (engine : Option Nat) : EpochScan :=
  match event.number "source_epoch" with
  | none => scan
  | some epoch => { scan.refer epoch with
      forks := appendTo scan.forks epoch (forkEntry event engine) }

def addConvergence (scan : EpochScan) (event : AuditEvent) (engine : Option Nat) : EpochScan :=
  let scan := (scan.refer (event.number "current_tip_epoch")).refer
    (event.number "selected_tip_epoch")
  match event.number "current_tip_epoch" with
  | none => scan
  | some anchor => { scan with
      convergences := appendTo scan.convergences anchor (convergenceEntry event engine) }

/-- One end of a roll-back. -/
def addRollbackEnd (scan : EpochScan) (event : AuditEvent) (engine : Option Nat) (epoch : Option Nat)
    (role : RollbackRole) : EpochScan :=
  match epoch with
  | none => scan
  | some epoch => { scan.refer epoch with
      rollbacks := appendTo scan.rollbacks epoch (rollbackEntry event engine role) }

def addRollback (scan : EpochScan) (event : AuditEvent) (engine : Option Nat) : EpochScan :=
  let scan := { scan with roles := scan.roles.upsert event.id fun _ => .rollback }
  (scan.addRollbackEnd event engine (event.number "pending_epoch") .abandoned).addRollbackEnd event
    engine (event.number "restored_epoch") .restoredTo

def addSnapshot (scan : EpochScan) (event : AuditEvent) (engine : Option Nat) : EpochScan :=
  match event.number "source_epoch" with
  | none => scan
  | some epoch => { scan.refer epoch with
      snapshots := appendTo scan.snapshots epoch (snapshotEntry event engine) }

/-- The branch of the type of an event. -/
def addTyped (scan : EpochScan) (event : AuditEvent) (engine : Option Nat) : EpochScan :=
  if event.eventType = lit "epoch_confirmed" then scan.addConfirmation event engine
  else if event.eventType = lit "fork_resolution" then scan.addFork event engine
  else if event.eventType = lit "convergence_decision" then scan.addConvergence event engine
  else if event.eventType = lit "epoch_rolled_back" then scan.addRollback event engine
  else if event.eventType = lit "snapshot_created" then scan.addSnapshot event engine
  else scan

def countMessage (scan : EpochScan) (event : AuditEvent) : EpochScan :=
  match eventEpoch event with
  | none => scan
  | some epoch =>
      if MESSAGE_EVENT_TYPES.contains event.eventType then
        { scan with messageCounts := scan.messageCounts.upsert epoch fun found => found.getD 0 + 1 }
      else scan

def addEvent (index : EngineIndex) (messageEpochs : Keyed Json (List Nat)) (scan : EpochScan)
    (event : AuditEvent) : EpochScan :=
  let engine := index.find event.engineId
  ((scan.addInitiators (epochInitiatorsForEvent event engine messageEpochs)).addTyped event
    engine).countMessage event

def ofEvents (index : EngineIndex) (events : List AuditEvent) : EpochScan :=
  events.foldl (addEvent index (messageEpochs events)) .empty

end EpochScan

/-! ### The loop over the epochs -/

inductive ForkStatus where
  | resolved
  | suspected
  | none
deriving Repr, DecidableEq

/-- An entry of `epochs`. -/
structure TimelineEpoch where
  epoch : Nat
  confirmed : Bool
  firstConfirmedMs : Option Nat
  firstConfirmedEngine : Option Nat
  commitItemId : Option Nat
  initiators : List Initiator
  initiatorEngines : List Nat
  confirmations : List Confirmation
  unconfirmedEngines : List Nat
  spreadMs : Option Int
  forkStatus : ForkStatus
  forks : List ForkEntry
  convergences : List ConvergenceEntry
  rollbacks : List RollbackEntry
  snapshots : List SnapshotEntry
  messageEventCount : Nat
deriving Repr, DecidableEq

/-- A missing time is last. -/
abbrev EntryKey := Bool ×ₗ Nat ×ₗ Nat

def Confirmation.key (conf : Confirmation) : EntryKey :=
  toLex (conf.t.isNone, toLex (conf.t.getD 0, conf.itemId))

def Initiator.key (item : Initiator) : EntryKey :=
  toLex (item.t.isNone, toLex (item.t.getD 0, item.itemId))

/-- The confirmations, with those marked whose engine has been seen. -/
def markRepeats (seenEngines : List Nat) : List Confirmation → List Confirmation
  | [] => []
  | conf :: rest => { conf with isRepeat := conf.engine.any seenEngines.contains } ::
      markRepeats (seenEngines ++ conf.engine.toList) rest

namespace EpochScan

/-- `confs`. -/
def confirmationsOf (scan : EpochScan) (number : Nat) : List Confirmation :=
  markRepeats [] (inOrder Confirmation.key ((scan.confirmations.find number).getD []))

def timedConfirmations (scan : EpochScan) (number : Nat) : List Confirmation :=
  (scan.confirmationsOf number).filter (·.t.isSome)

/-- `first`. -/
def firstTimed (scan : EpochScan) (number : Nat) : Option Confirmation :=
  (scan.timedConfirmations number).head?

def initiatorsOf (scan : EpochScan) (number : Nat) : List Initiator :=
  inOrder Initiator.key (dedupeEpochInitiators ((scan.directInitiators.find number).getD []))

/-- `timed[-1]["t"] - timed[0]["t"]`, which has no sign of its own. -/
def spreadMs (scan : EpochScan) (number : Nat) : Option Int :=
  let timed := scan.timedConfirmations number
  if 1 < timed.length then
    some (((timed.getLast?.bind (·.t)).getD 0 : Int) - ((timed.head?.bind (·.t)).getD 0 : Int))
  else none

def forkStatus (scan : EpochScan) (number : Nat) : ForkStatus :=
  let suspected :=
    ((scan.rollbacks.find number).getD []).any (·.role = .abandoned) ||
      ((scan.convergences.find number).getD []).any (1 < ·.candidateCount.getD 0)
  if (scan.forks.find number).getD [] ≠ [] then .resolved
  else if suspected then .suspected
  else .none

/-- The entry of an epoch. -/
def entry (scan : EpochScan) (engineCount number : Nat) : TimelineEpoch :=
  let confs := scan.confirmationsOf number
  let first := scan.firstTimed number
  let initiators := scan.initiatorsOf number
  let seenEngines := confs.filterMap (·.engine)
  let initiatorEngines := initiators.map (·.engine)
  let engines := List.range engineCount
  { epoch := number
    confirmed := confs ≠ []
    firstConfirmedMs := first.bind (·.t)
    firstConfirmedEngine := first.bind (·.engine)
    commitItemId := first.map (·.itemId)
    initiators := initiators
    initiatorEngines := inOrder id initiatorEngines.dedup
    confirmations := confs
    unconfirmedEngines := inOrder id
      (if confs ≠ [] then engines.filter fun engine =>
        !seenEngines.contains engine && !initiatorEngines.contains engine
      else engines)
    spreadMs := scan.spreadMs number
    forkStatus := scan.forkStatus number
    forks := (scan.forks.find number).getD []
    convergences := (scan.convergences.find number).getD []
    rollbacks := (scan.rollbacks.find number).getD []
    snapshots := (scan.snapshots.find number).getD []
    messageEventCount := (scan.messageCounts.find number).getD 0 }

/-- The roles of the confirmations of an epoch. -/
def roleEntries (scan : EpochScan) (number : Nat) : List (Nat × TimelineRole) :=
  (scan.confirmationsOf number).map fun conf =>
    (conf.itemId,
      if (scan.firstTimed number).any (conf.itemId = ·.itemId) then .commit else .applied)

/-- `roles[conf["item_id"]] = ...` for the confirmations of an epoch. -/
def setRoles (scan : EpochScan) (roles : TimelineRoles) (number : Nat) : TimelineRoles :=
  roles.upsertAll ((scan.roleEntries number).map fun entry => (entry.1, fun _ => entry.2))

/-- `sorted(set(confirmations) | referenced | set(direct_initiators))`. -/
def numbers (scan : EpochScan) : List Nat :=
  inOrder id (scan.confirmations.entries.map (·.1) ++ scan.referenced ++
    scan.directInitiators.entries.map (·.1)).dedup

end EpochScan

/-- `timeline_epochs`. -/
def timelineEpochs (events : List AuditEvent) (index : EngineIndex) :
    List TimelineEpoch × TimelineRoles :=
  let scan := EpochScan.ofEvents index events
  (scan.numbers.map (scan.entry index.count),
    scan.numbers.foldl scan.setRoles scan.roles)

/-! ### What the scan keeps -/

/-- The epoch that an event confirms. -/
def confirmedEpoch (event : AuditEvent) : Option Nat :=
  if event.eventType = lit "epoch_confirmed" then event.number "to_epoch" else none

/-- The events that confirm an epoch. -/
def confirmingEvents (events : List AuditEvent) (number : Nat) : List AuditEvent :=
  events.filter (confirmedEpoch · = some number)

/-- A confirming event with its entry. -/
def confirmed (index : EngineIndex) (event : AuditEvent) : Option (Nat × Confirmation) :=
  (confirmedEpoch event).map (·, confirmation event (index.find event.engineId))

section Scan

variable {index : EngineIndex} {known : Keyed Json (List Nat)} {scan : EpochScan}
  {event : AuditEvent} {engine : Option Nat} {epoch : Option Nat} {events : List AuditEvent}

/-- The confirmations and the roles are as they were. -/
structure SameConfirmations (scan next : EpochScan) : Prop where
  confirmations : next.confirmations = scan.confirmations
  roles : next.roles = scan.roles

theorem same_addFork : SameConfirmations scan (scan.addFork event engine) := by
  rw [EpochScan.addFork]
  cases event.number "source_epoch" <;> exact ⟨rfl, rfl⟩

theorem same_addConvergence : SameConfirmations scan (scan.addConvergence event engine) := by
  rw [EpochScan.addConvergence]
  cases event.number "current_tip_epoch" <;> exact ⟨rfl, rfl⟩

theorem same_addRollbackEnd {role : RollbackRole} :
    SameConfirmations scan (scan.addRollbackEnd event engine epoch role) := by
  cases epoch <;> exact ⟨rfl, rfl⟩

theorem same_addSnapshot : SameConfirmations scan (scan.addSnapshot event engine) := by
  rw [EpochScan.addSnapshot]
  cases event.number "source_epoch" <;> exact ⟨rfl, rfl⟩

theorem same_countMessage : SameConfirmations scan (scan.countMessage event) := by
  rw [EpochScan.countMessage]
  cases eventEpoch event with
  | none => exact ⟨rfl, rfl⟩
  | some epoch =>
      dsimp only
      split <;> exact ⟨rfl, rfl⟩

theorem roles_addRollback :
    (scan.addRollback event engine).roles = scan.roles.upsert event.id fun _ => .rollback := by
  rw [EpochScan.addRollback, same_addRollbackEnd.roles, same_addRollbackEnd.roles]

theorem confirmations_addRollback :
    (scan.addRollback event engine).confirmations = scan.confirmations := by
  rw [EpochScan.addRollback, same_addRollbackEnd.confirmations,
    same_addRollbackEnd.confirmations]

/-- Only a confirmation adds to the confirmations. -/
theorem confirmations_addTyped : (scan.addTyped event engine).confirmations =
    match confirmedEpoch event with
    | none => scan.confirmations
    | some epoch => appendTo scan.confirmations epoch (confirmation event engine) := by
  rw [EpochScan.addTyped, confirmedEpoch]
  split
  · rw [EpochScan.addConfirmation]
    cases event.number "to_epoch" <;> rfl
  · split
    · exact same_addFork.confirmations
    · split
      · exact same_addConvergence.confirmations
      · split
        · exact confirmations_addRollback
        · split
          · exact same_addSnapshot.confirmations
          · rfl

/-- No role other than a roll-back is given. -/
theorem roles_addTyped {id : Nat} {role : TimelineRole}
    (found : (scan.addTyped event engine).roles.find id = some role) :
    role = .rollback ∨ scan.roles.find id = some role := by
  rw [EpochScan.addTyped] at found
  split at found
  · rw [EpochScan.addConfirmation] at found
    cases epoch : event.number "to_epoch" <;> rw [epoch] at found <;> exact .inr found
  · split at found
    · exact .inr (same_addFork.roles ▸ found)
    · split at found
      · exact .inr (same_addConvergence.roles ▸ found)
      · split at found
        · rw [roles_addRollback, Keyed.find_upsert] at found
          split at found
          · exact .inl (Option.some.inj found).symm
          · exact .inr found
        · split at found
          · exact .inr (same_addSnapshot.roles ▸ found)
          · exact .inr found

/-- The confirmations are gathered by epoch. -/
theorem confirmations_foldl (events : List AuditEvent) :
    (events.foldl (EpochScan.addEvent index known) .empty).confirmations =
      Keyed.gather Keyed.appendItem (events.filterMap (confirmed index)) := by
  induction events using List.reverseRecOn with
  | nil => rfl
  | append_singleton older event inductionHypothesis =>
      rw [List.foldl_append, List.foldl_cons, List.foldl_nil, List.filterMap_append,
        Keyed.gather_append, EpochScan.addEvent, same_countMessage.confirmations,
        confirmations_addTyped]
      have before : ∀ (scan : EpochScan) initiators,
          (scan.addInitiators initiators).confirmations = scan.confirmations := fun _ _ => rfl
      rw [before, inductionHypothesis, List.filterMap_cons, List.filterMap_nil, confirmed]
      cases confirmedEpoch event <;> rfl

theorem roles_foldl {id : Nat} {role : TimelineRole}
    (found : (events.foldl (EpochScan.addEvent index known) .empty).roles.find id = some role) :
    role = .rollback := by
  induction events using List.reverseRecOn with
  | nil => cases found
  | append_singleton older event inductionHypothesis =>
      rw [List.foldl_append, List.foldl_cons, List.foldl_nil, EpochScan.addEvent,
        same_countMessage.roles] at found
      rcases roles_addTyped found with rollback | before
      · exact rollback
      · exact inductionHypothesis before

end Scan

/-! ### The confirmations of an epoch -/

/-- What does not read the mark. -/
theorem map_markRepeats {τ : Type*} {read : Confirmation → τ}
    (blind : ∀ conf isRepeat, read { conf with isRepeat := isRepeat } = read conf)
    (seenEngines : List Nat) (confs : List Confirmation) :
    (markRepeats seenEngines confs).map read = confs.map read := by
  induction confs generalizing seenEngines with
  | nil => rfl
  | cons conf rest inductionHypothesis =>
      rw [markRepeats, List.map_cons, List.map_cons, blind, inductionHypothesis]

/-- A confirmation is marked when its engine was seen before. -/
theorem isRepeat_markRepeats {seenEngines : List Nat} {confs before after : List Confirmation}
    {conf : Confirmation} (split : markRepeats seenEngines confs = before ++ conf :: after) :
    conf.isRepeat = true ↔ ∃ engine, conf.engine = some engine ∧
      (engine ∈ seenEngines ∨ ∃ earlier ∈ before, earlier.engine = some engine) := by
  induction confs generalizing seenEngines before with
  | nil => simp [markRepeats] at split
  | cons first rest inductionHypothesis =>
      rw [markRepeats] at split
      cases before with
      | nil =>
          obtain ⟨rfl, -⟩ := List.cons.inj split
          simp [Option.any_eq_true]
      | cons head others =>
          obtain ⟨rfl, later⟩ := List.cons.inj split
          rw [inductionHypothesis later]
          refine exists_congr fun engine => and_congr_right fun _ => ?_
          simp only [List.mem_append, Option.mem_toList, List.mem_cons, exists_eq_or_imp]
          rw [or_assoc]

section Epoch

variable {index : EngineIndex} {events : List AuditEvent}

/-- The entries of an epoch are made from the events that confirm it. -/
theorem find_confirmations (number : Nat) :
    ((EpochScan.ofEvents index events).confirmations.find number).getD [] =
      (confirmingEvents events number).map fun event =>
        confirmation event (index.find event.engineId) := by
  rw [EpochScan.ofEvents, confirmations_foldl, Keyed.getD_find_gather_appendItem,
    List.filter_filterMap, List.map_filterMap, confirmingEvents, ← List.filterMap_eq_map,
    List.filterMap_filter]
  congr 1
  funext event
  rw [confirmed]
  cases confirmedEpoch event with
  | none => simp
  | some epoch => by_cases same : epoch = number <;> simp [Option.filter, same]

/-- The confirmations without their marks, in order. -/
theorem map_confirmationsOf {τ : Type*} {read : Confirmation → τ}
    (blind : ∀ conf isRepeat, read { conf with isRepeat := isRepeat } = read conf) (number : Nat) :
    (((EpochScan.ofEvents index events).confirmationsOf number).map read).Perm
      ((confirmingEvents events number).map fun event =>
        read (confirmation event (index.find event.engineId))) := by
  rw [EpochScan.confirmationsOf, map_markRepeats blind, find_confirmations]
  have same := (perm_inOrder Confirmation.key ((confirmingEvents events number).map fun event =>
    confirmation event (index.find event.engineId))).map read
  rw [List.map_map] at same
  exact same

theorem confirmationsOf_sorted (scan : EpochScan) (number : Nat) :
    (scan.confirmationsOf number).Pairwise fun left right => left.key ≤ right.key := by
  rw [← List.pairwise_map, EpochScan.confirmationsOf, map_markRepeats fun _ _ => rfl,
    List.pairwise_map]
  exact inOrder_sorted Confirmation.key _

/-- An entry and its event have the same id and time. -/
theorem exists_confirmationsOf_iff {number id : Nat} {t : Option Nat} :
    (∃ conf ∈ (EpochScan.ofEvents index events).confirmationsOf number, conf.itemId = id ∧ conf.t = t) ↔
      ∃ event ∈ confirmingEvents events number, event.id = id ∧ event.wallTimeMs = t := by
  have same := @map_confirmationsOf index events _ (fun conf => (conf.itemId, conf.t))
    (fun _ _ => rfl) number
  have pairs := same.mem_iff (a := (id, t))
  simp only [List.mem_map, Prod.mk.injEq] at pairs
  exact pairs

/-! ### The commit -/

/-- Timed confirmations are ordered by time and id. -/
def commitKey (event : AuditEvent) : Nat ×ₗ Nat := toLex (event.wallTimeMs.getD 0, event.id)

/-- The timed confirmation with the least time and id. -/
structure IsCommit (confirming : List AuditEvent) (event : AuditEvent) : Prop where
  confirms : event ∈ confirming
  timed : event.wallTimeMs.isSome = true
  least : ∀ other ∈ confirming, other.wallTimeMs.isSome = true → commitKey event ≤ commitKey other

theorem IsCommit.id_eq {confirming : List AuditEvent} {one two : AuditEvent}
    (isOne : IsCommit confirming one) (isTwo : IsCommit confirming two) : one.id = two.id := by
  have same := le_antisymm (isOne.least two isTwo.confirms isTwo.timed)
    (isTwo.least one isOne.confirms isOne.timed)
  exact congrArg (fun key => (ofLex key).2) same

/-- Among timed confirmations the key is time and id. -/
theorem Confirmation.le_of_key_le {left right : Confirmation} (leftTimed : left.t.isSome = true)
    (rightTimed : right.t.isSome = true) (ordered : left.key ≤ right.key) :
    toLex (left.t.getD 0, left.itemId) ≤ toLex (right.t.getD 0, right.itemId) := by
  rw [Confirmation.key, Confirmation.key, Prod.Lex.toLex_le_toLex,
    Option.isNone_eq_false_iff.mpr leftTimed, Option.isNone_eq_false_iff.mpr rightTimed] at ordered
  rcases ordered with less | ⟨-, ordered⟩
  · exact absurd less (lt_irrefl _)
  · exact ordered

/-- The first timed confirmation is one of the least key. -/
theorem firstTimed_spec {scan : EpochScan} {number : Nat} {first : Confirmation}
    (found : scan.firstTimed number = some first) :
    first ∈ scan.confirmationsOf number ∧ first.t.isSome = true ∧
      ∀ other ∈ scan.confirmationsOf number, other.t.isSome = true → first.key ≤ other.key := by
  have sorted := (confirmationsOf_sorted scan number).filter (fun conf => conf.t.isSome)
  rw [EpochScan.firstTimed, EpochScan.timedConfirmations] at found
  obtain ⟨rest, split⟩ := List.head?_eq_some_iff.mp found
  have inside : first ∈ (scan.confirmationsOf number).filter (·.t.isSome) :=
    split ▸ List.mem_cons_self
  obtain ⟨member, timed⟩ := List.mem_filter.mp inside
  refine ⟨member, timed, fun other otherMember otherTimed => ?_⟩
  have otherInside : other ∈ (scan.confirmationsOf number).filter (·.t.isSome) :=
    List.mem_filter.mpr ⟨otherMember, otherTimed⟩
  rw [split] at sorted otherInside
  rcases List.mem_cons.mp otherInside with rfl | later
  · exact le_rfl
  · exact (List.pairwise_cons.mp sorted).1 other later

theorem isCommit_of_firstTimed {number : Nat} {first : Confirmation}
    (found : (EpochScan.ofEvents index events).firstTimed number = some first) :
    ∃ event, IsCommit (confirmingEvents events number) event ∧ event.id = first.itemId := by
  obtain ⟨member, timed, least⟩ := firstTimed_spec found
  obtain ⟨event, confirms, sameId, sameTime⟩ :=
    exists_confirmationsOf_iff.mp ⟨first, member, rfl, rfl⟩
  refine ⟨event, ⟨confirms, sameTime ▸ timed, fun other otherConfirms otherTimed => ?_⟩, sameId⟩
  obtain ⟨conf, confMember, confId, confTime⟩ :=
    (@exists_confirmationsOf_iff index events number _ _).mpr ⟨other, otherConfirms, rfl, rfl⟩
  have confTimed : conf.t.isSome = true := confTime ▸ otherTimed
  have ordered := Confirmation.le_of_key_le timed confTimed (least conf confMember confTimed)
  rw [← sameTime, ← sameId, confTime, confId] at ordered
  exact ordered

/-- The entry names the commit. -/
theorem firstTimed_itemId_iff {number eventId : Nat} :
    ((EpochScan.ofEvents index events).firstTimed number).map (·.itemId) = some eventId ↔
      ∃ event, IsCommit (confirmingEvents events number) event ∧ event.id = eventId := by
  rw [Option.map_eq_some_iff]
  constructor
  · rintro ⟨first, found, rfl⟩
    exact isCommit_of_firstTimed found
  · rintro ⟨event, commits, rfl⟩
    obtain ⟨conf, member, confId, confTime⟩ :=
      (@exists_confirmationsOf_iff index events number _ _).mpr ⟨event, commits.confirms, rfl, rfl⟩
    have inside : conf ∈ (EpochScan.ofEvents index events).timedConfirmations number :=
      List.mem_filter.mpr ⟨member, confTime ▸ commits.timed⟩
    cases found : (EpochScan.ofEvents index events).firstTimed number with
    | none =>
        rw [EpochScan.firstTimed, List.head?_eq_none_iff] at found
        rw [found] at inside
        cases inside
    | some first =>
        obtain ⟨other, otherCommits, otherId⟩ := isCommit_of_firstTimed found
        exact ⟨first, rfl, otherId.symm.trans (otherCommits.id_eq commits)⟩

/-! ### The roles -/

theorem foldl_setRoles (scan : EpochScan) (numbers : List Nat) (roles : TimelineRoles) :
    numbers.foldl scan.setRoles roles =
      roles.upsertAll ((numbers.flatMap scan.roleEntries).map fun entry => (entry.1, fun _ => entry.2)) := by
  induction numbers generalizing roles with
  | nil => rfl
  | cons number rest inductionHypothesis =>
      rw [List.foldl_cons, inductionHypothesis, EpochScan.setRoles, ← Keyed.upsertAll_append,
        ← List.map_append, List.flatMap_cons]

theorem mem_confirmingEvents {number : Nat} {event : AuditEvent} :
    event ∈ confirmingEvents events number ↔
      event ∈ events ∧ confirmedEpoch event = some number := by
  rw [confirmingEvents, List.mem_filter, decide_eq_true_eq]

theorem map_fst_roleEntries (number : Nat) :
    (((EpochScan.ofEvents index events).roleEntries number).map Prod.fst).Perm
      ((confirmingEvents events number).map (·.id)) := by
  rw [EpochScan.roleEntries, List.map_map]
  exact @map_confirmationsOf index events _ (·.itemId) (fun _ _ => rfl) number

/-- An event confirms one epoch, so it has one role. -/
theorem nodup_roleEntries (ids : (events.map (·.id)).Nodup) {numbers : List Nat}
    (distinct : numbers.Nodup) :
    ((numbers.flatMap (EpochScan.ofEvents index events).roleEntries).map Prod.fst).Nodup := by
  rw [List.map_flatMap, List.nodup_flatMap]
  constructor
  · intro number _
    exact (map_fst_roleEntries number).nodup_iff.mpr (ids.sublist (List.filter_sublist.map _))
  · refine distinct.imp fun differ id inOne inTwo => differ ?_
    rw [(map_fst_roleEntries _).mem_iff, List.mem_map] at inOne inTwo
    obtain ⟨one, oneConfirms, oneId⟩ := inOne
    obtain ⟨two, twoConfirms, twoId⟩ := inTwo
    obtain ⟨isOne, oneEpoch⟩ := mem_confirmingEvents.mp oneConfirms
    obtain ⟨isTwo, twoEpoch⟩ := mem_confirmingEvents.mp twoConfirms
    obtain rfl := List.inj_on_of_nodup_map ids isOne isTwo (oneId.trans twoId.symm)
    exact Option.some.inj (oneEpoch.symm.trans twoEpoch)

theorem nodup_numbers (scan : EpochScan) : scan.numbers.Nodup :=
  (perm_inOrder id _).nodup_iff.mpr (List.nodup_dedup _)

/-- The role of a commit is given to the first timed confirmations. -/
theorem find_roles_commit_iff (ids : (events.map (·.id)).Nodup) {eventId : Nat} :
    (timelineEpochs events index).2.find eventId = some .commit ↔
      ∃ number ∈ (EpochScan.ofEvents index events).numbers,
        ((EpochScan.ofEvents index events).firstTimed number).map (·.itemId) = some eventId := by
  set scan := EpochScan.ofEvents index events with scanEq
  have entries := @nodup_roleEntries index events ids scan.numbers (nodup_numbers scan)
  have never : scan.roles.find eventId ≠ some .commit := fun found => by cases roles_foldl found
  have found : (timelineEpochs events index).2.find eventId =
      ((⟨scan.numbers.flatMap scan.roleEntries, entries⟩ : TimelineRoles).find eventId).or
        (scan.roles.find eventId) := by
    have overwritten := Keyed.find_upsertAll_entries scan.roles
      (⟨scan.numbers.flatMap scan.roleEntries, entries⟩ : TimelineRoles) id eventId
    rw [Option.map_id] at overwritten
    rw [timelineEpochs, foldl_setRoles]
    exact overwritten
  rw [found, Option.or_eq_some_iff, Keyed.find_eq_some_iff, List.mem_flatMap]
  rw [or_iff_left fun alone => never alone.2]
  refine exists_congr fun number => and_congr_right fun _ => ?_
  rw [EpochScan.roleEntries, List.mem_map]
  constructor
  · rintro ⟨conf, -, named⟩
    obtain ⟨rfl, role⟩ := Prod.mk.inj named
    split at role
    · next same =>
        obtain ⟨first, isFirst, sameId⟩ := (Option.any_eq_true _ _).mp same
        rw [isFirst, Option.map_some, of_decide_eq_true sameId]
    · cases role
  · intro named
    obtain ⟨first, isFirst, rfl⟩ := Option.map_eq_some_iff.mp named
    refine ⟨first, (firstTimed_spec isFirst).1, ?_⟩
    rw [isFirst, Option.any_some, decide_eq_true rfl, if_pos rfl]

/-! ### The times -/

/-- The times of an epoch, in order. -/
def EpochScan.times (scan : EpochScan) (number : Nat) : List Nat :=
  (scan.confirmationsOf number).filterMap (·.t)

theorem map_timedConfirmations (scan : EpochScan) (number : Nat) :
    (scan.timedConfirmations number).map (·.t) = (scan.times number).map some := by
  rw [EpochScan.timedConfirmations, EpochScan.times, List.map_filterMap, ← List.filterMap_eq_map,
    List.filterMap_filter]
  congr 1
  funext conf
  cases timed : conf.t <;> simp [timed]

theorem times_ascending (scan : EpochScan) (number : Nat) :
    (scan.times number).Pairwise (· ≤ ·) := by
  rw [EpochScan.times, List.pairwise_filterMap]
  refine (confirmationsOf_sorted scan number).imp fun ordered first leftTime second rightTime => ?_
  have pairs := Confirmation.le_of_key_le (Option.isSome_of_mem leftTime)
    (Option.isSome_of_mem rightTime) ordered
  rw [leftTime, rightTime] at pairs
  exact Prod.Lex.monotone_fst _ _ pairs

theorem bind_eq_of_map_eq {ι ρ : Type*} {found : Option ι} {value : Option ρ} {read : ι → Option ρ}
    (same : found.map read = value.map some) : found.bind read = value := by
  cases found with
  | none => exact (Option.map_eq_none_iff.mp same.symm).symm
  | some item =>
      obtain ⟨stated, rfl, reads⟩ := Option.map_eq_some_iff.mp same.symm
      exact reads.symm

/-- The difference of the ends is that of the extremes. -/
theorem spreadMs_eq (scan : EpochScan) (number : Nat) :
    scan.spreadMs number =
      if 1 < (scan.times number).length then
        some ((((scan.times number).max?.getD 0 : Nat) : Int) -
          (((scan.times number).min?.getD 0 : Nat) : Int))
      else none := by
  have same := map_timedConfirmations scan number
  have ascending := times_ascending scan number
  have sameLength : (scan.timedConfirmations number).length = (scan.times number).length := by
    simpa using congrArg List.length same
  have first : (scan.timedConfirmations number).head?.bind (·.t) = (scan.times number).min? := by
    have ends := congrArg List.head? same
    rw [List.head?_map, List.head?_map, head?_eq_min? ascending] at ends
    exact bind_eq_of_map_eq ends
  have last : (scan.timedConfirmations number).getLast?.bind (·.t) = (scan.times number).max? := by
    have ends := congrArg List.getLast? same
    rw [List.getLast?_map, List.getLast?_map, getLast?_eq_max? ascending] at ends
    exact bind_eq_of_map_eq ends
  rw [EpochScan.spreadMs]
  simp only [sameLength, first, last]

end Epoch

/-! ### Sound epochs -/

def Confirmation.unmarked (conf : Confirmation) : Confirmation := { conf with isRepeat := false }

namespace TimelineEpoch

/-- The engines that confirmed an epoch. -/
def confirmedEngines (entry : TimelineEpoch) : List Nat := entry.confirmations.filterMap (·.engine)

/-- The times of the timed confirmations. -/
def confirmedTimes (entry : TimelineEpoch) : List Nat := entry.confirmations.filterMap (·.t)

end TimelineEpoch

/-- What an entry and the roles say of its epoch. -/
structure EpochSound (index : EngineIndex) (events : List AuditEvent) (roles : TimelineRoles)
    (entry : TimelineEpoch) : Prop where
  confirmations : (entry.confirmations.map (·.unmarked)).Perm
    ((confirmingEvents events entry.epoch).map fun event =>
      confirmation event (index.find event.engineId))
  commit : ∀ event ∈ confirmingEvents events entry.epoch,
    roles.find event.id = some .commit ↔ IsCommit (confirmingEvents events entry.epoch) event
  atMostOne : ∀ one ∈ confirmingEvents events entry.epoch,
    ∀ two ∈ confirmingEvents events entry.epoch, roles.find one.id = some .commit →
      roles.find two.id = some .commit → one = two
  commitItemId : ∀ eventId, entry.commitItemId = some eventId ↔
    ∃ event ∈ confirmingEvents events entry.epoch, roles.find event.id = some .commit ∧
      event.id = eventId
  engines : entry.confirmations ≠ [] → ∀ engine < index.count,
    Xor (engine ∈ entry.confirmedEngines ∨ engine ∈ entry.initiatorEngines)
      (engine ∈ entry.unconfirmedEngines)
  within : ∀ engine ∈ entry.unconfirmedEngines, engine < index.count
  repeats : ∀ before conf after, entry.confirmations = before ++ conf :: after →
    (conf.isRepeat = true ↔ ∃ engine, conf.engine = some engine ∧
      ∃ earlier ∈ before, earlier.engine = some engine)
  spread : 2 ≤ entry.confirmedTimes.length → ∃ first last, entry.confirmedTimes.min? = some first ∧
    entry.confirmedTimes.max? = some last ∧ first ≤ last ∧
    entry.spreadMs = some ((last : Int) - (first : Int))
  noSpread : entry.confirmedTimes.length < 2 → entry.spreadMs = none

/-- What the timeline says of its epochs. -/
structure TimelineEpochsSound (index : EngineIndex) (events : List AuditEvent)
    (epochs : List TimelineEpoch) (roles : TimelineRoles) : Prop where
  increasing : (epochs.map (·.epoch)).Pairwise (· < ·)
  listed : ∀ event ∈ events, ∀ number, confirmedEpoch event = some number →
    ∃ entry ∈ epochs, entry.epoch = number
  commits : ∀ eventId, roles.find eventId = some .commit → ∃ event ∈ events, event.id = eventId ∧
    ∃ number, confirmedEpoch event = some number
  entries : ∀ entry ∈ epochs, EpochSound index events roles entry

section Sound

variable {index : EngineIndex} {events : List AuditEvent}

theorem mem_numbers_of_confirming {event : AuditEvent} {number : Nat}
    (confirms : event ∈ confirmingEvents events number) :
    number ∈ (EpochScan.ofEvents index events).numbers := by
  have present : (EpochScan.ofEvents index events).confirmations.find number ≠ none := by
    intro absent
    have found := @find_confirmations index events number
    rw [absent, Option.getD_none, eq_comm, List.map_eq_nil_iff] at found
    rw [found] at confirms
    cases confirms
  rw [Ne, Keyed.find_eq_none_iff, not_not] at present
  rw [EpochScan.numbers, mem_inOrder, List.mem_dedup]
  exact List.mem_append_left _ (List.mem_append_left _ present)

/-- The role of an event that confirms an epoch. -/
theorem find_roles_of_confirming (ids : (events.map (·.id)).Nodup) {event : AuditEvent} {number : Nat}
    (confirms : event ∈ confirmingEvents events number) :
    (timelineEpochs events index).2.find event.id = some .commit ↔
      IsCommit (confirmingEvents events number) event := by
  rw [find_roles_commit_iff ids]
  constructor
  · rintro ⟨other, -, named⟩
    obtain ⟨found, commits, sameId⟩ := firstTimed_itemId_iff.mp named
    obtain ⟨isEvent, epoch⟩ := mem_confirmingEvents.mp confirms
    obtain ⟨isFound, foundEpoch⟩ := mem_confirmingEvents.mp commits.confirms
    obtain rfl := List.inj_on_of_nodup_map ids isFound isEvent sameId
    obtain rfl := Option.some.inj (foundEpoch.symm.trans epoch)
    exact commits
  · intro commits
    exact ⟨number, mem_numbers_of_confirming confirms,
      firstTimed_itemId_iff.mpr ⟨event, commits, rfl⟩⟩

/-- An engine of an epoch with confirmations is confirmed, initiates or is missing. -/
theorem xor_unconfirmed {scan : EpochScan} {engineCount number engine : Nat}
    (filled : (scan.entry engineCount number).confirmations ≠ []) (isEngine : engine < engineCount) :
    Xor (engine ∈ (scan.entry engineCount number).confirmedEngines ∨
        engine ∈ (scan.entry engineCount number).initiatorEngines)
      (engine ∈ (scan.entry engineCount number).unconfirmedEngines) := by
  have initiates : engine ∈ (scan.entry engineCount number).initiatorEngines ↔
      engine ∈ (scan.initiatorsOf number).map (·.engine) := by
    rw [EpochScan.entry, mem_inOrder, List.mem_dedup]
  have missing : engine ∈ (scan.entry engineCount number).unconfirmedEngines ↔
      engine ∉ (scan.entry engineCount number).confirmedEngines ∧
        engine ∉ (scan.initiatorsOf number).map (·.engine) := by
    have filled : scan.confirmationsOf number ≠ [] := filled
    rw [EpochScan.entry, mem_inOrder, if_pos filled, List.mem_filter, List.mem_range]
    simp only [isEngine, true_and, Bool.and_eq_true, Bool.not_eq_true', List.contains_eq_mem,
      decide_eq_false_iff_not]
    rfl
  rw [initiates, missing, ← not_or]
  exact xor_not_right.mpr Iff.rfl

theorem lt_of_unconfirmed {scan : EpochScan} {engineCount number engine : Nat}
    (unconfirmed : engine ∈ (scan.entry engineCount number).unconfirmedEngines) :
    engine < engineCount := by
  rw [EpochScan.entry, mem_inOrder] at unconfirmed
  split at unconfirmed
  · exact List.mem_range.mp (List.mem_of_mem_filter unconfirmed)
  · exact List.mem_range.mp unconfirmed

/-- With two times the spread is the difference of the extremes. -/
theorem exists_spread {scan : EpochScan} {number : Nat} (several : 2 ≤ (scan.times number).length) :
    ∃ first last, (scan.times number).min? = some first ∧ (scan.times number).max? = some last ∧
      first ≤ last ∧ scan.spreadMs number = some ((last : Int) - (first : Int)) := by
  have spread := spreadMs_eq scan number
  rw [if_pos (Nat.lt_of_succ_le several)] at spread
  generalize scan.times number = times at several spread
  have filled : times ≠ [] := List.ne_nil_of_length_pos (Nat.lt_of_lt_of_le Nat.zero_lt_two several)
  obtain ⟨first, isFirst⟩ := Option.ne_none_iff_exists'.mp (mt List.min?_eq_none_iff.mp filled)
  obtain ⟨last, isLast⟩ := Option.ne_none_iff_exists'.mp (mt List.max?_eq_none_iff.mp filled)
  refine ⟨first, last, isFirst, isLast, ?_, ?_⟩
  · exact (List.min?_eq_some_iff.mp isFirst).2 last (List.max?_mem isLast)
  · rw [spread, isFirst, isLast, Option.getD_some, Option.getD_some]

theorem entry_sound (ids : (events.map (·.id)).Nodup) (number : Nat) :
    EpochSound index events (timelineEpochs events index).2
      ((EpochScan.ofEvents index events).entry index.count number) := by
  have role := fun event => @find_roles_of_confirming index events ids event number
  constructor
  · exact map_confirmationsOf (fun _ _ => rfl) number
  · exact role
  · intro one oneConfirms two twoConfirms oneRole twoRole
    have oneCommits := (role one oneConfirms).mp oneRole
    have twoCommits := (role two twoConfirms).mp twoRole
    exact List.inj_on_of_nodup_map ids (mem_confirmingEvents.mp oneConfirms).1
      (mem_confirmingEvents.mp twoConfirms).1 (oneCommits.id_eq twoCommits)
  · intro eventId
    rw [EpochScan.entry, firstTimed_itemId_iff]
    constructor
    · rintro ⟨event, commits, rfl⟩
      exact ⟨event, commits.confirms, (role event commits.confirms).mpr commits, rfl⟩
    · rintro ⟨event, confirms, commits, rfl⟩
      exact ⟨event, (role event confirms).mp commits, rfl⟩
  · intro filled engine isEngine
    exact xor_unconfirmed filled isEngine
  · intro engine unconfirmed
    exact lt_of_unconfirmed unconfirmed
  · intro before conf after split
    rw [isRepeat_markRepeats split]
    simp
  · intro several
    exact exists_spread several
  · intro few
    have few : ¬ 1 < ((EpochScan.ofEvents index events).times number).length := Nat.not_lt.mpr
      (Nat.le_of_lt_succ few)
    exact (spreadMs_eq _ number).trans (if_neg few)

/-- Every epoch has one commit, and every engine is confirmed, initiates or is missing. -/
theorem timelineEpochs_sound (events : List AuditEvent) (index : EngineIndex)
    (ids : (events.map (·.id)).Nodup) :
    TimelineEpochsSound index events (timelineEpochs events index).1
      (timelineEpochs events index).2 := by
  have numbers : (timelineEpochs events index).1.map (·.epoch) =
      (EpochScan.ofEvents index events).numbers := by
    rw [timelineEpochs, List.map_map]
    exact List.map_id _
  constructor
  · rw [numbers]
    have sorted : (EpochScan.ofEvents index events).numbers.Pairwise (· ≤ ·) := inOrder_sorted id _
    exact (sorted.and (nodup_numbers _)).imp fun both => lt_of_le_of_ne both.1 both.2
  · intro event isEvent number confirms
    have listed : number ∈ (timelineEpochs events index).1.map (·.epoch) :=
      numbers ▸ mem_numbers_of_confirming (mem_confirmingEvents.mpr ⟨isEvent, confirms⟩)
    exact List.mem_map.mp listed
  · intro eventId role
    obtain ⟨number, -, named⟩ := (find_roles_commit_iff ids).mp role
    obtain ⟨event, commits, rfl⟩ := firstTimed_itemId_iff.mp named
    obtain ⟨isEvent, confirms⟩ := mem_confirmingEvents.mp commits.confirms
    exact ⟨event, isEvent, rfl, number, confirms⟩
  · intro entry member
    obtain ⟨number, -, rfl⟩ := List.mem_map.mp member
    exact entry_sound ids number

/-- An engine confirms an epoch. -/
def epochConfirmed (id : Nat) (instant : Option Nat) (engineId : Str) (epoch : Nat) : AuditEvent :=
  let action := userAction id 0 []
  { action with
    wallTimeMs := instant
    engineId := engineId
    eventType := lit "epoch_confirmed"
    normalized := [(lit "to_epoch", .int epoch)] }

/-- Three engines. -/
def threeEngines : EngineIndex := ⟨[lit "aa", lit "bb", lit "cc"], by decide⟩

/-- The second engine confirms epoch 7 late, again, and before the first one does; the first confirms
epoch 8 without a time. -/
def confirmations : List AuditEvent :=
  [epochConfirmed 1 (some 900) (lit "bb") 7, epochConfirmed 2 none (lit "bb") 7,
    epochConfirmed 3 (some 100) (lit "aa") 7, epochConfirmed 4 none (lit "aa") 8]

theorem timelineEpochs_confirmations :
    TimelineEpochsSound threeEngines confirmations (timelineEpochs confirmations threeEngines).1
        (timelineEpochs confirmations threeEngines).2 ∧
      ((timelineEpochs confirmations threeEngines).1.map fun entry =>
        (entry.epoch, entry.commitItemId, entry.unconfirmedEngines, entry.spreadMs)) =
        [(7, some 3, [2], some 800), (8, none, [1, 2], none)] :=
  ⟨timelineEpochs_sound confirmations threeEngines (by decide), by decide +kernel⟩

end Sound

end Goggles
