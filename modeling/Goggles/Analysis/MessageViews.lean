/-
Module: Goggles.Analysis.MessageViews
Purpose: The four computations of divergence: the streaming count, the copy a migration keeps of
  it, the message traces, and the engine-by-message matrix, which agree over any valid events of
  a group.
Trusted boundary: forensics/analysis.py, `divergent_counts_for_group_ids`,
  `message_traces_from_events`, `timeline_engines`, `message_observation_matrix`, and
  migrations/0010_recompute_divergent_counts_partial_invalid.py.  A set is a list without
  repetitions; message ids are strings and sorted as such; the labels and the source metadata of
  a timeline engine, which no cell reads, are left out
Main exports: GroupScan, divergentCountsForGroupIds, Migration0010.divergentCountsForGroupIds,
  messageTracesForGroup, messageObservationMatrix, ViewsAgree, viewsAgree
-/
import Goggles.Analysis.Divergence
import Goggles.Ingest.Metadata
import Goggles.Library.Grouping

namespace Goggles

/-! ### Windows -/

/-- A window widened to an instant. -/
def widen (found : Option (Nat × Nat)) (instant : Nat) : Nat × Nat :=
  let window := found.getD (instant, instant)
  (min window.1 instant, max window.2 instant)

/-- The instants that widen a window, with the engine each belongs to. -/
def timedEngines (events : List AuditEvent) : List (Str × Nat) :=
  (attributedEvents events).filterMap fun event => event.wallTimeMs.map (event.engineId, ·)

/-- `engine_windows`. -/
def engineWindows (events : List AuditEvent) : Keyed Str (Nat × Nat) :=
  Keyed.gather widen (timedEngines events)

/-! ### The streaming count -/

/-- What the row loop keeps for one group. -/
structure GroupScan where
  engines : List Str
  windows : Keyed Str (Nat × Nat)
  messageEngines : Keyed Json (List Str)
  references : Keyed Json Nat

namespace GroupScan

def empty : GroupScan := ⟨[], Keyed.empty, Keyed.empty, Keyed.empty⟩

/-- The earlier of the reference kept and an instant. -/
def earlier (found : Option Nat) (instant : Nat) : Nat :=
  match found with
  | none => instant
  | some current => if instant < current then instant else current

/-- One message id of a row. -/
def addMessage (event : AuditEvent) (scan : GroupScan) (messageId : Json) : GroupScan :=
  { scan with
    messageEngines := scan.messageEngines.upsert messageId (Keyed.addItem · event.engineId)
    references :=
      match event.wallTimeMs with
      | none => scan.references
      | some instant => scan.references.upsert messageId (earlier · instant) }

/-- One row that has an engine.  `messageIds` reads the ids off it. -/
def addRow (messageIds : AuditEvent → List Json) (scan : GroupScan) (event : AuditEvent) :
    GroupScan :=
  (messageIds event).foldl (addMessage event)
    { scan with
      engines := scan.engines.insert event.engineId
      windows :=
        match event.wallTimeMs with
        | none => scan.windows
        | some instant => scan.windows.upsert event.engineId (widen · instant) }

end GroupScan

/-- The verdict on a message: its observers, its reference, the windows and all engines. -/
abbrev Verdict := List Str → Option Nat → (Str → Option (Nat × Nat)) → List Str → Bool

/-- The messages of a group a verdict is passed on. -/
def GroupScan.divergent (verdict : Verdict) (scan : GroupScan) : Nat :=
  scan.messageEngines.entries.countP fun (messageId, observers) =>
    verdict observers (scan.references.find messageId) scan.windows.find scan.engines

/-- The rows the query returns. -/
def rowsOfGroups (stored : List AuditEvent) (groupIds : List Nat) : List AuditEvent :=
  stored.filter fun event => event.parseStatus == .valid && event.groupId.any groupIds.contains

/-- The group a row is scanned for. -/
def scannedRow (event : AuditEvent) : Option (Nat × AuditEvent) :=
  if event.engineId = [] then none else event.groupId.map (·, event)

/-- The row loop. -/
def scanRows (messageIds : AuditEvent → List Json) (rows : List AuditEvent) :
    Keyed Nat GroupScan :=
  Keyed.gather (fun found event => (found.getD GroupScan.empty).addRow messageIds event)
    (rows.filterMap scannedRow)

/-- The counts of the groups, over the stored rows in any order. -/
def countGroups (messageIds : AuditEvent → List Json) (verdict : Verdict)
    (stored : List AuditEvent) (groupIds : List Nat) : Keyed Nat Nat :=
  (Keyed.fromKeys groupIds 0).upsertAll
    ((scanRows messageIds (rowsOfGroups stored groupIds)).entries.map fun entry =>
      (entry.1, fun _ => entry.2.divergent verdict))

/-- `is_divergent_message(observers, observers | missing)`. -/
def membershipVerdict : Verdict := fun observers reference window allEngines =>
  let missing := enginesPresentButMissing observers reference window allEngines
  isDivergentMessage observers (observers ++ missing)

/-- `divergent_counts_for_group_ids`. -/
def divergentCountsForGroupIds (stored : List AuditEvent) (groupIds : List Nat) : Keyed Nat Nat :=
  countGroups eventMessageIdValues membershipVerdict stored (groupIds.filter (· ≠ 0))

/-! ### The migration's copy -/

namespace Migration0010

/-- `message_id_values`. -/
def messageIdValues (event : AuditEvent) : List Json :=
  ([event.msgId, event.outboundMsgId, event.invalidatedMsgId].filter (· ≠ [])).map Json.str ++
    event.outboundWelcomeMsgIds ++ event.humanActionMessageIds

/-- The end of the loop over the messages of a group. -/
def verdict : Verdict := fun observers reference window allEngines =>
  match reference with
  | none => false
  | some instant =>
      let missing := allEngines.filter fun engineId =>
        !observers.contains engineId &&
          (window engineId).any fun span => span.1 ≤ instant && instant ≤ span.2
      !observers.isEmpty && !missing.isEmpty

/-- The migration's `divergent_counts_for_group_ids`. -/
def divergentCountsForGroupIds (stored : List AuditEvent) (groupIds : List Nat) : Keyed Nat Nat :=
  countGroups messageIdValues verdict stored groupIds

end Migration0010

/-! ### The traces -/

/-- Each id with each row that names it. -/
def namings (messageIds : AuditEvent → List Json) (events : List AuditEvent) :
    List (Json × AuditEvent) :=
  events.flatMap fun event => (messageIds event).map (·, event)

/-- `by_msg`: the events of each message, once for each time they name it. -/
def byMessage (events : List AuditEvent) : Keyed Json (List AuditEvent) :=
  Keyed.gather (fun found event => found.getD [] ++ [event]) (namings eventMessageIdValues events)

/-- `sorted(by_msg.items())`. -/
def messagesInOrder (events : List AuditEvent) : List (Json × List AuditEvent) :=
  inOrder (fun entry => valueIfStr entry.1) (byMessage events).entries

/-- The engines of some events. -/
def enginesOf (events : List AuditEvent) : List Str :=
  ((attributedEvents events).map (·.engineId)).dedup

/-- The values an event states about its message. -/
def statedValues (event : AuditEvent) : List Str :=
  [event.text "new_state", event.text "outcome", event.text "outcome_kind", event.text "reason"]

structure MessageTrace where
  msgId : Json
  engines : List Str
  missingEngines : List Str
  missedBy : List Str
  absentEngines : List Str
  referenceMs : Option Nat
  isDivergent : Bool
  eventTypes : List Str
  states : List Str
  firstWallTimeMs : Option Nat
  lastWallTimeMs : Option Nat
  eventCount : Nat
deriving Repr, DecidableEq

/-- The trace of one message. -/
def messageTrace (windows : Keyed Str (Nat × Nat)) (allEngines : List Str)
    (entry : Json × List AuditEvent) : MessageTrace :=
  let observers := enginesOf entry.2
  let wallTimes := entry.2.filterMap (·.wallTimeMs)
  let missedBy := enginesPresentButMissing observers wallTimes.min? windows.find allEngines
  { msgId := entry.1
    engines := inOrder id observers
    missingEngines := inOrder id (allEngines.filter (!observers.contains ·))
    missedBy := inOrder id missedBy
    absentEngines :=
      inOrder id ((allEngines.filter (!observers.contains ·)).filter (!missedBy.contains ·))
    referenceMs := wallTimes.min?
    isDivergent := isDivergentMessage observers (observers ++ missedBy)
    eventTypes := sortedTexts (entry.2.map (·.eventType))
    states := sortedTexts (entry.2.flatMap statedValues)
    firstWallTimeMs := wallTimes.min?
    lastWallTimeMs := wallTimes.max?
    eventCount := entry.2.length }

/-- `message_traces_from_events`. -/
def messageTracesFromEvents (events : List AuditEvent) (allEngines : List Str) :
    List MessageTrace :=
  (messagesInOrder events).map (messageTrace (engineWindows events) allEngines)

/-- `message_traces_for_group`. -/
def messageTracesForGroup (events : List AuditEvent) : List MessageTrace :=
  messageTracesFromEvents events (enginesOf events)

/-! ### The matrix -/

/-- A column of the matrix. -/
structure TimelineEngine where
  engineId : Str
  accountRef : Str
  firstEventMs : Option Nat
  lastEventMs : Option Nat
  eventCount : Nat
deriving Repr, DecidableEq

/-- One event of an engine. -/
def TimelineEngine.addEvent (found : Option TimelineEngine) (event : AuditEvent) :
    TimelineEngine :=
  let info := found.getD ⟨event.engineId, event.accountRef, none, none, 0⟩
  { info with
    accountRef := if info.accountRef = [] then event.accountRef else info.accountRef
    firstEventMs := info.firstEventMs.or event.wallTimeMs
    lastEventMs :=
      match event.wallTimeMs with
      | none => info.lastEventMs
      | some instant => some (max (info.lastEventMs.getD instant) instant)
    eventCount := info.eventCount + 1 }

/-- The sort key of a column. -/
def TimelineEngine.order (info : TimelineEngine) : Lex (Bool × Lex (Nat × Str)) :=
  toLex (info.firstEventMs.isNone, toLex (info.firstEventMs.getD 0, info.engineId))

/-- `timeline_engines`. -/
def timelineEngines (events : List AuditEvent) : List TimelineEngine :=
  inOrder TimelineEngine.order
    ((Keyed.gather TimelineEngine.addEvent
      ((attributedEvents events).map fun event => (event.engineId, event))).entries.map Prod.snd)

inductive CellStatus where
  | observed
  | missed
  | absent
deriving Repr, DecidableEq

structure MatrixCell where
  status : CellStatus
  eventTypes : List Str
  states : List Str
deriving Repr, DecidableEq

structure MatrixRow where
  msgId : Json
  referenceMs : Option Nat
  firstWallTimeMs : Option Nat
  lastWallTimeMs : Option Nat
  eventCount : Nat
  observers : List Str
  missedBy : List Str
  isDivergent : Bool
  cells : List MatrixCell
deriving Repr, DecidableEq

structure ObservationMatrix where
  engines : List TimelineEngine
  rows : List MatrixRow
deriving Repr, DecidableEq

/-- What one engine did with a message. -/
def matrixCell (msgEvents : List AuditEvent) (missedBy : List Str) (engineId : Str) :
    MatrixCell :=
  let mine := msgEvents.filter (·.engineId = engineId)
  if (enginesOf msgEvents).contains engineId then
    ⟨.observed, sortedTexts (mine.map (·.eventType)), sortedTexts (mine.flatMap statedValues)⟩
  else if missedBy.contains engineId then ⟨.missed, [], []⟩
  else ⟨.absent, [], []⟩

/-- The row of one message. -/
def matrixRow (windows : Keyed Str (Nat × Nat)) (engines : List TimelineEngine)
    (entry : Json × List AuditEvent) : MatrixRow :=
  let observers := enginesOf entry.2
  let wallTimes := entry.2.filterMap (·.wallTimeMs)
  let missedBy := enginesPresentButMissing observers wallTimes.min? windows.find
    (engines.map (·.engineId))
  { msgId := entry.1
    referenceMs := wallTimes.min?
    firstWallTimeMs := wallTimes.min?
    lastWallTimeMs := wallTimes.max?
    eventCount := entry.2.length
    observers := inOrder id observers
    missedBy := inOrder id missedBy
    isDivergent := isDivergentMessage observers (observers ++ missedBy)
    cells := engines.map fun engine => matrixCell entry.2 missedBy engine.engineId }

/-- `message_observation_matrix`. -/
def messageObservationMatrix (events : List AuditEvent) : ObservationMatrix :=
  let engines := timelineEngines events
  ⟨engines, (messagesInOrder events).map (matrixRow (engineWindows events) engines)⟩

/-! ### What the folds compute -/

theorem foldl_widen (instants : List Nat) :
    instants.foldl (fun found instant => some (widen found instant)) none =
      match instants.min?, instants.max? with
      | some first, some last => some (first, last)
      | _, _ => none := by
  cases instants with
  | nil => rfl
  | cons head rest =>
      have folded : ∀ (rest : List Nat) (first last : Nat),
          rest.foldl (fun found instant => some (widen found instant)) (some (first, last)) =
            some (rest.foldl min first, rest.foldl max last) := by
        intro rest
        induction rest with
        | nil => exact fun _ _ => rfl
        | cons instant rest inductionHypothesis =>
            intro first last
            exact inductionHypothesis _ _
      rw [List.min?_cons', List.max?_cons']
      have opened := folded rest head head
      simpa [widen] using opened

theorem foldl_earlier (instants : List Nat) :
    instants.foldl (fun found instant => some (GroupScan.earlier found instant)) none =
      instants.min? := by
  cases instants with
  | nil => rfl
  | cons head rest =>
      have folded : ∀ (rest : List Nat) (first : Nat),
          rest.foldl (fun found instant => some (GroupScan.earlier found instant)) (some first) =
            some (rest.foldl min first) := by
        intro rest
        induction rest with
        | nil => exact fun _ => rfl
        | cons instant rest inductionHypothesis =>
            intro first
            have least : GroupScan.earlier (some first) instant = min first instant := by
              simp only [GroupScan.earlier]
              split <;> omega
            rw [List.foldl_cons, least]
            exact inductionHypothesis _
      rw [List.min?_cons']
      exact folded rest head

/-- The instants found under an engine are those of its events. -/
theorem timedEngines_of (events : List AuditEvent) (engineId : Str) :
    ((timedEngines events).filter (·.1 = engineId)).map (·.2) =
      ((attributedEvents events).filter (·.engineId = engineId)).filterMap (·.wallTimeMs) := by
  rw [timedEngines]
  generalize attributedEvents events = attributed
  induction attributed with
  | nil => rfl
  | cons event rest inductionHypothesis =>
      cases timed : event.wallTimeMs with
      | none =>
          rw [List.filterMap_cons_none (by simp [timed]), inductionHypothesis]
          by_cases mine : event.engineId = engineId <;> simp [mine, timed]
      | some instant =>
          by_cases mine : event.engineId = engineId <;>
            simp [mine, timed, inductionHypothesis]

theorem find_engineWindows (events : List AuditEvent) (engineId : Str) :
    (engineWindows events).find engineId = engineWindow (attributedEvents events) engineId := by
  rw [engineWindows, Keyed.find_gather, timedEngines_of, foldl_widen]
  rfl

/-! ### The scan of one group -/

theorem namings_snoc (messageIds : AuditEvent → List Json) (events : List AuditEvent)
    (event : AuditEvent) : namings messageIds (events ++ [event]) =
      namings messageIds events ++ (messageIds event).map (·, event) := by
  simp [namings]

/-- What a scan holds after some rows. -/
structure Scanned (messageIds : AuditEvent → List Json) (events : List AuditEvent)
    (scan : GroupScan) : Prop where
  engines : ∀ engineId, engineId ∈ scan.engines ↔ engineId ∈ events.map (·.engineId)
  windows : scan.windows = Keyed.gather widen
    (events.filterMap fun event => event.wallTimeMs.map (event.engineId, ·))
  messageEngines : scan.messageEngines = Keyed.gather Keyed.addItem
    ((namings messageIds events).map fun (messageId, event) => (messageId, event.engineId))
  references : scan.references = Keyed.gather GroupScan.earlier
    ((namings messageIds events).filterMap fun (messageId, event) =>
      event.wallTimeMs.map (messageId, ·))

theorem addMessages_eq (event : AuditEvent) (messageIds : List Json) (scan : GroupScan) :
    messageIds.foldl (GroupScan.addMessage event) scan =
      { scan with
        messageEngines := messageIds.foldl
          (fun table messageId => table.upsert messageId (Keyed.addItem · event.engineId))
          scan.messageEngines
        references :=
          match event.wallTimeMs with
          | none => scan.references
          | some instant => messageIds.foldl
              (fun table messageId => table.upsert messageId (GroupScan.earlier · instant))
              scan.references } := by
  induction messageIds generalizing scan with
  | nil => cases event.wallTimeMs <;> rfl
  | cons messageId rest inductionHypothesis =>
      rw [List.foldl_cons, inductionHypothesis]
      cases timed : event.wallTimeMs <;> simp [GroupScan.addMessage, timed]

/-- One more row. -/
theorem Scanned.addRow {messageIds : AuditEvent → List Json} {events : List AuditEvent}
    {scan : GroupScan} (scanned : Scanned messageIds events scan) (event : AuditEvent) :
    Scanned messageIds (events ++ [event]) (scan.addRow messageIds event) := by
  rw [GroupScan.addRow, addMessages_eq]
  constructor
  · intro engineId
    simp [List.mem_insert_iff, scanned.engines, or_comm, eq_comm]
  · cases timed : event.wallTimeMs with
    | none => simp [scanned.windows, timed]
    | some instant =>
        rw [List.filterMap_append, Keyed.gather_append, ← scanned.windows]
        simp [timed]
  · rw [namings_snoc, List.map_append, Keyed.gather_append, ← scanned.messageEngines,
      List.map_map, List.foldl_map]
    rfl
  · rw [namings_snoc, List.filterMap_append, Keyed.gather_append, ← scanned.references,
      List.filterMap_map]
    cases timed : event.wallTimeMs with
    | none =>
        have silent : (messageIds event).filterMap
            ((fun naming : Json × AuditEvent => naming.2.wallTimeMs.map (naming.1, ·)) ∘
              (·, event)) = [] := List.filterMap_eq_nil_iff.mpr fun messageId _ => by simp [timed]
        rw [silent]
        rfl
    | some instant =>
        have stamped : (messageIds event).filterMap
            ((fun naming : Json × AuditEvent => naming.2.wallTimeMs.map (naming.1, ·)) ∘
              (·, event)) = (messageIds event).map (·, instant) := by
          rw [← List.filterMap_eq_map]
          exact List.filterMap_congr fun messageId _ => by simp [timed]
        rw [stamped, List.foldl_map]

/-- All rows. -/
theorem scanned_foldl (messageIds : AuditEvent → List Json) (events : List AuditEvent) :
    Scanned messageIds events (events.foldl (GroupScan.addRow messageIds) GroupScan.empty) := by
  induction events using List.reverseRecOn with
  | nil => exact ⟨by simp [GroupScan.empty], rfl, rfl, rfl⟩
  | append_singleton events event inductionHypothesis =>
      rw [List.foldl_append]
      exact inductionHypothesis.addRow event

/-! ### What a row scan knows of a message -/

theorem mem_namings {messageIds : AuditEvent → List Json} {events : List AuditEvent}
    {messageId : Json} {event : AuditEvent} : (messageId, event) ∈ namings messageIds events ↔
      event ∈ events ∧ messageId ∈ messageIds event := by
  simp only [namings, List.mem_flatMap, List.mem_map, Prod.mk.injEq]
  constructor
  · rintro ⟨other, member, named, names, rfl, rfl⟩
    exact ⟨member, names⟩
  · rintro ⟨member, names⟩
    exact ⟨event, member, messageId, names, rfl, rfl⟩

/-- The same instants, whatever their order, have the same least one. -/
theorem min?_congr {first second : List Nat}
    (same : ∀ instant, instant ∈ first ↔ instant ∈ second) : first.min? = second.min? := by
  apply Option.ext
  intro instant
  simp only [List.min?_eq_some_iff, same]

/-! ### The verdicts -/

/-- A verdict looks at which engines it is given, not at their order. -/
theorem membershipVerdict_eq {events : List AuditEvent} {messageId : Json} {seen engines : List Str}
    {window : Str → Option (Nat × Nat)}
    (sameSeen : ∀ engineId, engineId ∈ seen ↔ engineId ∈ observers events messageId)
    (sameWindow : ∀ engineId, window engineId = engineWindow (attributedEvents events) engineId)
    (sameEngines : ∀ engineId,
      engineId ∈ engines ↔ engineId ∈ (attributedEvents events).map (·.engineId)) :
    membershipVerdict seen (referenceMs events messageId) window engines =
      messageDiverges events messageId := by
  have noticed : seen.isEmpty = (observers events messageId).isEmpty := by
    rw [Bool.eq_iff_iff, List.isEmpty_iff, List.isEmpty_iff, List.eq_nil_iff_forall_not_mem,
      List.eq_nil_iff_forall_not_mem]
    exact forall_congr' fun engineId => not_congr (sameSeen engineId)
  have found : ∀ engineId, seen.contains engineId =
      (observers events messageId).contains engineId := fun engineId => by
    rw [Bool.eq_iff_iff, List.contains_iff_mem, List.contains_iff_mem, sameSeen]
  have missing : ∀ engineId, engineId ∈ enginesPresentButMissing seen
        (referenceMs events messageId) window engines ↔
      engineId ∈ enginesPresentButMissing (observers events messageId)
        (referenceMs events messageId) (engineWindow (attributedEvents events))
        ((attributedEvents events).map (·.engineId)) := by
    intro engineId
    cases referenceMs events messageId with
    | none => rfl
    | some instant =>
        simp only [enginesPresentButMissing, List.mem_filter, sameEngines, found, sameWindow]
  rw [Bool.eq_iff_iff]
  simp only [membershipVerdict, messageDiverges, isDivergentMessage, noticed, found,
    Bool.and_eq_true, List.any_eq_true, List.mem_append, sameSeen, missing]

/-- The migration decides as the analysis does. -/
theorem Migration0010.verdict_eq : Migration0010.verdict = membershipVerdict := by
  funext observers reference window allEngines
  cases reference with
  | none =>
      simp only [Migration0010.verdict, membershipVerdict, enginesPresentButMissing,
        isDivergentMessage, List.append_nil, Bool.false_eq, Bool.and_eq_false_iff]
      right
      apply List.any_eq_false.mpr
      intro engineId member
      simpa using member
  | some instant =>
      rw [Bool.eq_iff_iff]
      simp only [Migration0010.verdict, membershipVerdict, enginesPresentButMissing,
        isDivergentMessage, Bool.and_eq_true, Bool.not_eq_true',
        List.isEmpty_eq_false_iff_exists_mem, List.any_eq_true, List.mem_append, List.mem_filter,
        List.contains_eq_mem, decide_eq_false_iff_not]
      refine and_congr_right fun _ => ⟨?_, ?_⟩
      · rintro ⟨engineId, member, unseen, span⟩
        exact ⟨engineId, .inr ⟨member, unseen, span⟩, unseen⟩
      · rintro ⟨engineId, seen | missing, unseen⟩
        · exact absurd seen unseen
        · exact ⟨engineId, missing⟩

theorem Migration0010.messageIdValues_eq : Migration0010.messageIdValues = eventMessageIdValues :=
  rfl

section Scan

variable {events : List AuditEvent} {scan : GroupScan}

theorem Scanned.mem_observers
    (scanned : Scanned eventMessageIdValues (attributedEvents events) scan) {messageId : Json}
    {seen : List Str} (member : (messageId, seen) ∈ scan.messageEngines.entries) (engineId : Str) :
    engineId ∈ seen ↔ engineId ∈ observers events messageId := by
  rw [← Keyed.find_eq_some_iff, scanned.messageEngines, Keyed.find_gather] at member
  have gathered : engineId ∈ (some seen).getD [] ↔ _ := member ▸ Keyed.mem_foldl_addItem
  simp only [Option.getD_some, Option.getD_none, List.not_mem_nil, or_false, List.mem_map,
    List.mem_filter, decide_eq_true_eq, Prod.exists, mem_namings] at gathered
  rw [gathered]
  simp only [observers, eventsNaming, List.mem_map, List.mem_filter, List.contains_iff_mem]
  constructor
  · rintro ⟨name, engine, ⟨⟨other, event, named, paired⟩, rfl⟩, rfl⟩
    cases paired
    exact ⟨event, named, rfl⟩
  · rintro ⟨event, named, rfl⟩
    exact ⟨messageId, event.engineId, ⟨⟨messageId, event, named, rfl⟩, rfl⟩, rfl⟩

theorem Scanned.find_references
    (scanned : Scanned eventMessageIdValues (attributedEvents events) scan) (messageId : Json) :
    scan.references.find messageId = referenceMs events messageId := by
  rw [scanned.references, Keyed.find_gather, foldl_earlier, referenceMs]
  apply min?_congr
  intro instant
  simp only [List.mem_map, List.mem_filter, List.mem_filterMap, decide_eq_true_eq, Prod.exists,
    mem_namings, eventsNaming, List.contains_iff_mem, Option.map_eq_some_iff, Prod.mk.injEq]
  constructor
  · rintro ⟨name, time, ⟨⟨other, event, named, stamp, timed, rfl, rfl⟩, rfl⟩, rfl⟩
    exact ⟨event, named, timed⟩
  · rintro ⟨event, named, timed⟩
    exact ⟨messageId, instant, ⟨⟨messageId, event, named, instant, timed, rfl, rfl⟩, rfl⟩, rfl⟩

theorem Scanned.find_windows
    (scanned : Scanned eventMessageIdValues (attributedEvents events) scan) (engineId : Str) :
    scan.windows.find engineId = engineWindow (attributedEvents events) engineId := by
  rw [← find_engineWindows, scanned.windows]
  rfl

theorem Scanned.messages
    (scanned : Scanned eventMessageIdValues (attributedEvents events) scan) :
    (scan.messageEngines.entries.map Prod.fst).Perm (groupMessages events) := by
  rw [groupMessages, List.perm_ext_iff_of_nodup scan.messageEngines.unique (List.nodup_dedup _)]
  intro messageId
  rw [scanned.messageEngines, Keyed.mem_keys_gather]
  simp only [List.map_map, List.mem_dedup, List.mem_flatMap, List.mem_map, Prod.exists,
    Function.comp_apply, mem_namings]
  constructor
  · rintro ⟨name, event, named, rfl⟩
    exact ⟨event, named⟩
  · rintro ⟨event, named⟩
    exact ⟨messageId, event, named, rfl⟩

/-- The messages a scan counts are those the rollup counts. -/
theorem Scanned.divergent_eq
    (scanned : Scanned eventMessageIdValues (attributedEvents events) scan) :
    scan.divergent membershipVerdict = divergentCount events := by
  have counted : scan.divergent membershipVerdict =
      (scan.messageEngines.entries.map Prod.fst).countP (messageDiverges events) := by
    rw [GroupScan.divergent, List.countP_map]
    apply List.countP_congr
    rintro ⟨messageId, seen⟩ member
    simp only [scanned.find_references, Function.comp_apply]
    rw [membershipVerdict_eq (scanned.mem_observers member) scanned.find_windows scanned.engines]
  rw [counted, scanned.messages.countP_eq, divergentCount, groupMessages]

end Scan

/-! ### The counts of the groups -/

/-- The rows a group is scanned over. -/
theorem scannedRows_of {stored : List AuditEvent} {groupIds : List Nat} {groupId : Nat}
    (asked : groupId ∈ groupIds) :
    (((rowsOfGroups stored groupIds).filterMap scannedRow).filter (·.1 = groupId)).map (·.2) =
      attributedEvents (validGroupEvents stored groupId) := by
  rw [rowsOfGroups, attributedEvents, validGroupEvents]
  induction stored with
  | nil => rfl
  | cons event rest inductionHypothesis =>
      by_cases counts : event.countsFor groupId
      · obtain ⟨grouped, valid⟩ := AuditEvent.countsFor_iff.mp counts
        rw [List.filter_cons_of_pos (by simp [grouped, valid, asked]),
          List.filter_cons_of_pos (by exact counts)]
        by_cases blank : event.engineId = [] <;>
          simp [scannedRow, blank, grouped, inductionHypothesis]
      · have uncounted : (event :: rest).filter (·.countsFor groupId) =
            rest.filter (·.countsFor groupId) := List.filter_cons_of_neg counts
        rw [uncounted, ← inductionHypothesis]
        rw [AuditEvent.countsFor_iff] at counts
        cases grouped : event.groupId with
        | none => simp [grouped]
        | some other =>
            by_cases valid : event.parseStatus = .valid
            · have elsewhere : other ≠ groupId := fun same => counts ⟨same ▸ grouped, valid⟩
              by_cases listed : other ∈ groupIds <;> by_cases blank : event.engineId = [] <;>
                simp [scannedRow, grouped, valid, listed, blank, elsewhere]
            · simp [valid]

theorem foldl_getD {ι σ : Type*} (add : σ → ι → σ) (initial : σ) (items : List ι)
    (found : Option σ) :
    (items.foldl (fun found item => some (add (found.getD initial) item)) found).getD initial =
      items.foldl add (found.getD initial) := by
  induction items generalizing found with
  | nil => rfl
  | cons item rest inductionHypothesis => exact inductionHypothesis _

/-- The count of a group that is asked for. -/
theorem find_countGroups {stored : List AuditEvent} {groupIds : List Nat} {groupId : Nat}
    (asked : groupId ∈ groupIds) :
    (countGroups eventMessageIdValues membershipVerdict stored groupIds).find groupId =
      some (divergentCount (validGroupEvents stored groupId)) := by
  have scanned := (scanned_foldl eventMessageIdValues
    (attributedEvents (validGroupEvents stored groupId))).divergent_eq
  rw [countGroups, Keyed.find_upsertAll_entries, Keyed.find_fromKeys, if_pos asked, scanRows,
    Keyed.find_gather, scannedRows_of asked, ← scanned]
  have whole := foldl_getD (GroupScan.addRow eventMessageIdValues) GroupScan.empty
    (attributedEvents (validGroupEvents stored groupId)) none
  rw [Option.getD_none] at whole
  rw [← whole]
  -- a group without rows has the count of an empty scan
  cases (attributedEvents (validGroupEvents stored groupId)).foldl _ (none : Option GroupScan)
  · rfl
  · rfl

/-! ### Traces and rows -/

/-- Every event has an engine. -/
def AllAttributed (events : List AuditEvent) : Prop := ∀ event ∈ events, event.engineId ≠ []

theorem AllAttributed.attributedEvents_eq {events : List AuditEvent}
    (attributed : AllAttributed events) : attributedEvents events = events := by
  apply List.filter_eq_self.mpr
  intro event member
  simpa using attributed event member

theorem mem_enginesOf {events : List AuditEvent} {engineId : Str} :
    engineId ∈ enginesOf events ↔ engineId ∈ (attributedEvents events).map (·.engineId) :=
  List.mem_dedup

theorem nodup_enginesOf (events : List AuditEvent) : (enginesOf events).Nodup :=
  List.nodup_dedup _

/-- The events gathered for a message are those that name it. -/
theorem mem_of_mem_byMessage {events msgEvents : List AuditEvent} {messageId : Json}
    (gathered : (messageId, msgEvents) ∈ (byMessage events).entries) (event : AuditEvent) :
    event ∈ msgEvents ↔ event ∈ events ∧ messageId ∈ eventMessageIdValues event := by
  obtain ⟨-, whole⟩ := Keyed.find_gather_appendItem.mp (Keyed.find_eq_some_iff.mpr gathered)
  rw [whole, ← mem_namings]
  simp

section Attributed

variable {events : List AuditEvent}

theorem mem_eventsNaming_iff (attributed : AllAttributed events)
    {msgEvents : List AuditEvent} {messageId : Json}
    (gathered : (messageId, msgEvents) ∈ (byMessage events).entries) (event : AuditEvent) :
    event ∈ eventsNaming events messageId ↔ event ∈ msgEvents := by
  rw [eventsNaming, attributed.attributedEvents_eq, List.mem_filter, List.contains_iff_mem,
    mem_of_mem_byMessage gathered]

theorem mem_enginesOf_iff_observers (attributed : AllAttributed events)
    {msgEvents : List AuditEvent} {messageId : Json}
    (gathered : (messageId, msgEvents) ∈ (byMessage events).entries) (engineId : Str) :
    engineId ∈ enginesOf msgEvents ↔ engineId ∈ observers events messageId := by
  have alone : AllAttributed msgEvents := fun event member =>
    attributed event ((mem_of_mem_byMessage gathered event).mp member).1
  rw [mem_enginesOf, alone.attributedEvents_eq, observers]
  simp only [List.mem_map, mem_eventsNaming_iff attributed gathered]

theorem min?_wallTimes (attributed : AllAttributed events)
    {msgEvents : List AuditEvent} {messageId : Json}
    (gathered : (messageId, msgEvents) ∈ (byMessage events).entries) :
    (msgEvents.filterMap (·.wallTimeMs)).min? = referenceMs events messageId := by
  apply min?_congr
  intro instant
  simp only [List.mem_filterMap, mem_eventsNaming_iff attributed gathered]

/-- The verdict a trace and a row carry. -/
theorem verdict_of_gathered (attributed : AllAttributed events)
    {msgEvents : List AuditEvent} {messageId : Json}
    (gathered : (messageId, msgEvents) ∈ (byMessage events).entries) {allEngines : List Str}
    (all : ∀ engineId, engineId ∈ allEngines ↔ engineId ∈ enginesOf events) :
    membershipVerdict (enginesOf msgEvents) (msgEvents.filterMap (·.wallTimeMs)).min?
      (engineWindows events).find allEngines = messageDiverges events messageId := by
  rw [min?_wallTimes attributed gathered]
  apply membershipVerdict_eq (mem_enginesOf_iff_observers attributed gathered)
    (find_engineWindows events)
  intro engineId
  rw [all, mem_enginesOf]

theorem messages_byMessage (attributed : AllAttributed events) :
    ((byMessage events).entries.map Prod.fst).Perm (groupMessages events) := by
  rw [groupMessages, attributed.attributedEvents_eq,
    List.perm_ext_iff_of_nodup (byMessage events).unique (List.nodup_dedup _)]
  intro messageId
  rw [byMessage, Keyed.mem_keys_gather, List.mem_dedup]
  simp [List.mem_flatMap, namings]

/-- The traces that diverge are as many as the rollup counts. -/
theorem countP_traces (attributed : AllAttributed events) :
    (messageTracesForGroup events).countP (·.isDivergent) = divergentCount events := by
  have verdicts : ∀ entry ∈ messagesInOrder events,
      (messageTrace (engineWindows events) (enginesOf events) entry).isDivergent =
        messageDiverges events entry.1 := fun entry member =>
    verdict_of_gathered attributed (mem_inOrder.mp member) fun _ => Iff.rfl
  calc (messageTracesForGroup events).countP (·.isDivergent)
      = (messagesInOrder events).countP fun entry => messageDiverges events entry.1 := by
        rw [messageTracesForGroup, messageTracesFromEvents, List.countP_map]
        apply List.countP_congr
        intro entry member
        rw [Function.comp_apply, verdicts entry member]
    _ = ((byMessage events).entries.map Prod.fst).countP (messageDiverges events) := by
        rw [messagesInOrder, (perm_inOrder _ _).countP_eq, List.countP_map]
        rfl
    _ = divergentCount events := by
        rw [(messages_byMessage attributed).countP_eq, divergentCount, groupMessages]

end Attributed

/-! ### The columns -/

theorem TimelineEngine.addEvent_engineId {found : Option TimelineEngine} {event : AuditEvent}
    (same : ∀ info ∈ found, info.engineId = event.engineId) :
    (TimelineEngine.addEvent found event).engineId = event.engineId := by
  cases found with
  | none => rfl
  | some info => exact same info rfl

/-- The columns of the matrix are the engines of the group. -/
theorem timelineEngines_perm (events : List AuditEvent) :
    ((timelineEngines events).map (·.engineId)).Perm (enginesOf events) := by
  set items := (attributedEvents events).map fun event => (event.engineId, event) with itemsEq
  have keyed : ∀ entry ∈ (Keyed.gather TimelineEngine.addEvent items).entries,
      entry.2.engineId = entry.1 := by
    have kept : ∀ item ∈ items, item.2.engineId = item.1 := by
      intro item member
      obtain ⟨event, -, rfl⟩ := List.mem_map.mp member
      rfl
    apply Keyed.gather_invariant fun engineId (info : TimelineEngine) => info.engineId = engineId
    intro item member found same
    rw [← kept item member] at same ⊢
    exact TimelineEngine.addEvent_engineId same
  have columns : ((timelineEngines events).map (·.engineId)).Perm
      ((Keyed.gather TimelineEngine.addEvent items).entries.map Prod.fst) := by
    have sorted := (perm_inOrder TimelineEngine.order
      ((Keyed.gather TimelineEngine.addEvent items).entries.map Prod.snd)).map (·.engineId)
    rw [List.map_map] at sorted
    rw [← List.map_congr_left keyed]
    exact sorted
  apply columns.trans
  rw [List.perm_ext_iff_of_nodup (Keyed.unique _) (nodup_enginesOf events)]
  intro engineId
  rw [Keyed.mem_keys_gather, mem_enginesOf, itemsEq, List.map_map]
  rfl

/-! ### Agreement -/

/-- A cell says of its engine what the trace says. -/
def CellAgrees (trace : MessageTrace) (engine : TimelineEngine) (cell : MatrixCell) : Prop :=
  match cell.status with
  | .observed => engine.engineId ∈ trace.engines
  | .missed => engine.engineId ∈ trace.missedBy
  | .absent => engine.engineId ∈ trace.absentEngines

/-- A row of the matrix is about the message of a trace and agrees with it cell by cell. -/
structure RowAgrees (engines : List TimelineEngine) (trace : MessageTrace) (row : MatrixRow) :
    Prop where
  msgId : row.msgId = trace.msgId
  isDivergent : row.isDivergent = trace.isDivergent
  cells : List.Forall₂ (CellAgrees trace) engines row.cells

/-- The computations agree on a group: its stored rows, and its valid events in the order the
views were given them. -/
structure ViewsAgree (stored : List AuditEvent) (groupIds : List Nat) (groupId : Nat)
    (events : List AuditEvent) : Prop where
  streamed : (divergentCountsForGroupIds stored groupIds).find groupId =
    some ((messageTracesForGroup events).countP (·.isDivergent))
  migrated : (Migration0010.divergentCountsForGroupIds stored groupIds).find groupId =
    some ((messageTracesForGroup events).countP (·.isDivergent))
  rows : (messageObservationMatrix events).rows.countP (·.isDivergent) =
    (messageTracesForGroup events).countP (·.isDivergent)
  named : ((messageObservationMatrix events).rows.filter (·.isDivergent)).map (·.msgId) =
    ((messageTracesForGroup events).filter (·.isDivergent)).map (·.msgId)
  partition : ∀ trace ∈ messageTracesForGroup events,
    (trace.engines ++ trace.missedBy ++ trace.absentEngines).Perm (enginesOf events)
  columns : ((messageObservationMatrix events).engines.map (·.engineId)).Perm (enginesOf events)
  cells : List.Forall₂ (RowAgrees (messageObservationMatrix events).engines)
    (messageTracesForGroup events) (messageObservationMatrix events).rows

theorem mem_enginesPresentButMissing {seen allEngines : List Str} {reference : Option Nat}
    {window : Str → Option (Nat × Nat)} {engineId : Str}
    (missing : engineId ∈ enginesPresentButMissing seen reference window allEngines) :
    engineId ∈ allEngines ∧ engineId ∉ seen := by
  cases reference with
  | none => exact absurd missing List.not_mem_nil
  | some instant =>
      simp only [enginesPresentButMissing, List.mem_filter, Bool.and_eq_true, Bool.not_eq_true',
        List.contains_eq_mem, decide_eq_false_iff_not] at missing
      exact ⟨missing.1, missing.2.1⟩

theorem nodup_enginesPresentButMissing {seen allEngines : List Str} {reference : Option Nat}
    {window : Str → Option (Nat × Nat)} (distinct : allEngines.Nodup) :
    (enginesPresentButMissing seen reference window allEngines).Nodup := by
  cases reference with
  | none => exact List.nodup_nil
  | some instant => exact distinct.filter _

/-- Two column orders miss the same engines. -/
theorem mem_enginesPresentButMissing_congr {seen first second : List Str} {reference : Option Nat}
    {window : Str → Option (Nat × Nat)} (same : first.Perm second) (engineId : Str) :
    engineId ∈ enginesPresentButMissing seen reference window first ↔
      engineId ∈ enginesPresentButMissing seen reference window second := by
  cases reference with
  | none => rfl
  | some instant => simp only [enginesPresentButMissing, List.mem_filter, same.mem_iff]

/-- Observers, engines that missed the message and absent ones make up the group. -/
theorem messageTrace_partition {windows : Keyed Str (Nat × Nat)} {allEngines : List Str}
    {entry : Json × List AuditEvent} (distinct : allEngines.Nodup)
    (within : ∀ engineId ∈ enginesOf entry.2, engineId ∈ allEngines) :
    ((messageTrace windows allEngines entry).engines ++
      (messageTrace windows allEngines entry).missedBy ++
      (messageTrace windows allEngines entry).absentEngines).Perm allEngines := by
  simp only [messageTrace]
  set missedBy := enginesPresentButMissing (enginesOf entry.2)
    (entry.2.filterMap (·.wallTimeMs)).min? windows.find allEngines with missedByEq
  have missing : ∀ engineId ∈ missedBy, engineId ∈ allEngines ∧ engineId ∉ enginesOf entry.2 :=
    fun engineId member => mem_enginesPresentButMissing member
  apply (((perm_inOrder id _).append (perm_inOrder id _)).append (perm_inOrder id _)).trans
  rw [List.perm_ext_iff_of_nodup _ distinct]
  · intro engineId
    simp only [List.mem_append, List.mem_filter, Bool.not_eq_true', List.contains_eq_mem,
      decide_eq_false_iff_not]
    have observed := within engineId
    have missed := missing engineId
    tauto
  · apply List.Nodup.append
    · apply List.Nodup.append (nodup_enginesOf _) (nodup_enginesPresentButMissing distinct)
      intro engineId seen missed
      exact (missing engineId missed).2 seen
    · exact (distinct.filter _).filter _
    · intro engineId known absent
      simp only [List.mem_append, List.mem_filter, Bool.not_eq_true', List.contains_eq_mem,
        decide_eq_false_iff_not] at known absent
      tauto

/-- A cell of a row and the trace of the same message. -/
theorem matrixCell_agrees {windows : Keyed Str (Nat × Nat)} {allEngines columns : List Str}
    {entry : Json × List AuditEvent} (same : columns.Perm allEngines) {engine : TimelineEngine}
    (column : engine.engineId ∈ columns) :
    CellAgrees (messageTrace windows allEngines entry) engine
      (matrixCell entry.2 (enginesPresentButMissing (enginesOf entry.2)
        (entry.2.filterMap (·.wallTimeMs)).min? windows.find columns) engine.engineId) := by
  rw [matrixCell]
  by_cases observed : engine.engineId ∈ enginesOf entry.2
  · rw [if_pos (by simpa using observed)]
    exact mem_inOrder.mpr observed
  · rw [if_neg (by simpa using observed)]
    split
    · next missed =>
        rw [List.contains_iff_mem, mem_enginesPresentButMissing_congr same] at missed
        exact mem_inOrder.mpr missed
    · next present =>
        rw [List.contains_iff_mem, mem_enginesPresentButMissing_congr same] at present
        apply mem_inOrder.mpr
        simp only [List.mem_filter, Bool.not_eq_true', List.contains_eq_mem,
          decide_eq_false_iff_not]
        exact ⟨⟨same.subset column, observed⟩, present⟩

/-- The row of a message agrees with its trace. -/
theorem matrixRow_agrees {events : List AuditEvent} (attributed : AllAttributed events)
    {entry : Json × List AuditEvent} (gathered : entry ∈ (byMessage events).entries) :
    RowAgrees (timelineEngines events)
      (messageTrace (engineWindows events) (enginesOf events) entry)
      (matrixRow (engineWindows events) (timelineEngines events) entry) := by
  have columns := timelineEngines_perm events
  refine ⟨rfl, ?_, ?_⟩
  · have row := verdict_of_gathered attributed gathered fun _ => columns.mem_iff
    have trace := verdict_of_gathered attributed gathered fun engineId =>
      Iff.refl (engineId ∈ enginesOf events)
    exact row.trans trace.symm
  · apply List.forall₂_map_right_iff.mpr
    apply List.forall₂_same.mpr
    intro engine member
    exact matrixCell_agrees columns (List.mem_map_of_mem member)

theorem diverges_perm {first second : List AuditEvent} (same : first.Perm second)
    (messageId : Json) : Diverges first messageId ↔ Diverges second messageId := by
  have attributed : (attributedEvents first).Perm (attributedEvents second) := same.filter _
  have naming : (eventsNaming first messageId).Perm (eventsNaming second messageId) :=
    attributed.filter _
  have seen : (observers first messageId).Perm (observers second messageId) := naming.map _
  simp only [Diverges, attributed.mem_iff, naming.mem_iff, seen.mem_iff]

/-- The count does not depend on the order of the events. -/
theorem divergentCount_perm {first second : List AuditEvent} (same : first.Perm second) :
    divergentCount first = divergentCount second := by
  rw [divergentCount_of_subset same.subset, divergentCount_eq]
  refine List.countP_congr fun messageId _ => ?_
  rw [decide_eq_true_eq, decide_eq_true_eq, diverges_perm same]

/-- For valid events of a group, in any order, each with an engine, the streaming count, the
migration's copy of it, the traces and the matrix agree.  A group id is a primary key, so not 0. -/
theorem viewsAgree (stored events : List AuditEvent) (groupIds : List Nat) (groupId : Nat)
    (isKey : groupId ≠ 0) (asked : groupId ∈ groupIds)
    (valid : events.Perm (validGroupEvents stored groupId)) (attributed : AllAttributed events) :
    ViewsAgree stored groupIds groupId events := by
  have counted := countP_traces attributed
  have kept : groupId ∈ groupIds.filter (· ≠ 0) := by
    rw [List.mem_filter]
    exact ⟨asked, by simpa using isKey⟩
  have rowAgrees : ∀ entry ∈ messagesInOrder events,
      RowAgrees (timelineEngines events)
        (messageTrace (engineWindows events) (enginesOf events) entry)
        (matrixRow (engineWindows events) (timelineEngines events) entry) := fun entry member =>
    matrixRow_agrees attributed (mem_inOrder.mp member)
  constructor
  · rw [divergentCountsForGroupIds, find_countGroups kept, counted, divergentCount_perm valid]
  · rw [Migration0010.divergentCountsForGroupIds, Migration0010.verdict_eq,
      Migration0010.messageIdValues_eq, find_countGroups asked, counted,
      divergentCount_perm valid]
  · rw [messageObservationMatrix, messageTracesForGroup, messageTracesFromEvents, List.countP_map,
      List.countP_map]
    apply List.countP_congr
    intro entry member
    rw [Function.comp_apply, Function.comp_apply, (rowAgrees entry member).isDivergent]
  · rw [messageObservationMatrix, messageTracesForGroup, messageTracesFromEvents, List.filter_map,
      List.filter_map, List.map_map, List.map_map]
    have verdicts : (messagesInOrder events).filter ((·.isDivergent) ∘
          matrixRow (engineWindows events) (timelineEngines events)) =
        (messagesInOrder events).filter ((·.isDivergent) ∘
          messageTrace (engineWindows events) (enginesOf events)) := by
      apply List.filter_congr
      intro entry member
      exact (rowAgrees entry member).isDivergent
    rw [verdicts]
    rfl
  · intro trace member
    obtain ⟨entry, entryMember, rfl⟩ := List.mem_map.mp member
    apply messageTrace_partition (nodup_enginesOf events)
    intro engineId seen
    rw [mem_enginesOf_iff_observers attributed (mem_inOrder.mp entryMember), observers,
      List.mem_map] at seen
    obtain ⟨event, naming, rfl⟩ := seen
    exact mem_enginesOf.mpr (List.mem_map_of_mem (List.mem_filter.mp naming).1)
  · exact timelineEngines_perm events
  · apply List.forall₂_map_left_iff.mpr
    apply List.forall₂_map_right_iff.mpr
    exact List.forall₂_same.mpr rowAgrees

/-- An event of group 1 that names a message, or none. -/
def sighting (id : Nat) (engineId : Str) (instant : Option Nat) (messageId : Str) : AuditEvent where
  id := id
  groupId := some 1
  auditFileId := 1
  lineNumber := id
  lineHash := []
  rawLine := []
  rawEvent := .null
  rawKind := .null
  rawContext := .null
  parseStatus := .valid
  validationError := []
  schemaVersion := []
  recorderSessionId := []
  auditDataMode := []
  seq := some id
  wallTimeMs := instant
  accountRef := []
  engineId := engineId
  groupRef := []
  eventType := lit "ingest_entry"
  normalized := [(lit "msg_id", .str messageId)]

/-- Of three messages one engine observes, another misses the one inside its window. -/
def sightings : List AuditEvent :=
  [sighting 1 (lit "aa") (some 0) (lit "m1"), sighting 2 (lit "aa") (some 50) (lit "m2"),
    sighting 3 (lit "aa") (some 90) (lit "m3"), sighting 4 (lit "bb") (some 10) [],
    sighting 5 (lit "bb") (some 95) (lit "m3"), sighting 6 (lit "aa") none (lit "m4")]

theorem viewsAgree_missedMessage :
    ViewsAgree sightings [1] 1 sightings.reverse ∧
      ((messageTracesForGroup sightings.reverse).filter (·.isDivergent)).map (·.msgId) =
        [.str (lit "m2")] :=
  ⟨viewsAgree sightings sightings.reverse [1] 1 (by decide) (by decide)
    ((List.reverse_perm _).trans (List.Perm.of_eq (by decide +kernel)))
    (by unfold AllAttributed; decide +kernel),
    by decide +kernel⟩

end Goggles
