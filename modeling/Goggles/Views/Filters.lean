/-
Module: Goggles.Views.Filters
Purpose: What the listings of a group share: the filters of a request, the events a row refers to, the
  severity of a row and the line that sums an event up.
Trusted boundary: forensics/views.py, `api_filter_values`, `action_filter_values`,
  `severity_from_values`; forensics/analysis.py, `event_summary`, `action_label`,
  `secondary_action_label`.  `str.lower` is a parameter, as `str.title` is
Main exports: ApiFilters, ActionFilters, eventOf, citedEvents, severityFromValues, eventSummary
-/
import Goggles.Ingest.Metadata

namespace Goggles

/-- `api_filter_values`.  A blank text and no number filter nothing. -/
structure ApiFilters where
  engineId : Str
  accountRef : Str
  auditDataMode : Str
  messageId : Str
  eventType : Str
  severity : Str
  epoch : Option Nat
  fromMs : Option Nat
  toMs : Option Nat
  limit : Nat
  offset : Nat
deriving Repr, DecidableEq

/-- `action_filter_values`. -/
structure ActionFilters extends ApiFilters where
  origin : Str
  action : Str
deriving Repr, DecidableEq

/-- `GROUP_PROJECTION_API_DEFAULT_LIMIT`. -/
def GROUP_PROJECTION_API_DEFAULT_LIMIT : Nat := 100

/-- `default_api_filters`. -/
def defaultApiFilters : ApiFilters where
  engineId := []
  accountRef := []
  auditDataMode := []
  messageId := []
  eventType := []
  severity := []
  epoch := none
  fromMs := none
  toMs := none
  limit := GROUP_PROJECTION_API_DEFAULT_LIMIT
  offset := 0

/-- `default_action_filters`. -/
def defaultActionFilters : ActionFilters := { defaultApiFilters with origin := [], action := [] }

/-- `if filters[name]: rows.filter(column=filters[name])`. -/
def textFilter (wanted column : Str) : Bool := wanted = [] || column = wanted

/-- The two ends of the time range.  A row without a time is in none. -/
def timeFilter (fromMs toMs wallTimeMs : Option Nat) : Bool :=
  fromMs.all (fun first => wallTimeMs.any (first ≤ ·)) &&
    toMs.all (fun last => wallTimeMs.any (· ≤ last))

/-- `if filters["epoch"] is not None`: one of the columns is the epoch. -/
def epochFilter (wanted : Option Nat) (columns : List (Option Nat)) : Bool :=
  wanted.all fun epoch => columns.contains (some epoch)

/-! ### The events a row refers to -/

/-- The event of a foreign key. -/
def eventOf (events : List AuditEvent) (eventId : Nat) : Option AuditEvent :=
  events.find? (·.id = eventId)

/-- `evidence_events.all()`. -/
def citedEvents (events : List AuditEvent) (evidence : Finset Nat) : List AuditEvent :=
  inOrder eventOrderKey (events.filter (·.id ∈ evidence))

section Cited

variable {events : List AuditEvent}

theorem eventOf_eq (ids : (events.map (·.id)).Nodup) {event : AuditEvent} (member : event ∈ events) :
    eventOf events event.id = some event := by
  cases found : eventOf events event.id with
  | none =>
      have absent := List.find?_eq_none.mp found event member
      simp at absent
  | some other =>
      have sameId : other.id = event.id := by simpa using List.find?_some found
      rw [List.inj_on_of_nodup_map ids (List.mem_of_find?_eq_some found) member sameId]

/-- An event that is kept is found among the kept ones. -/
theorem eventOf_filter (ids : (events.map (·.id)).Nodup) {keep : AuditEvent → Bool} {eventId : Nat}
    (kept : ∃ event ∈ events.filter keep, event.id = eventId) :
    eventOf (events.filter keep) eventId = eventOf events eventId := by
  obtain ⟨event, member, rfl⟩ := kept
  have keptIds : ((events.filter keep).map (·.id)).Nodup := ids.sublist (List.filter_sublist.map _)
  rw [eventOf_eq keptIds member, eventOf_eq ids (List.mem_of_mem_filter member)]

/-- Evidence that is kept is found among the kept events. -/
theorem citedEvents_filter (ids : (events.map (·.id)).Nodup) {keep : AuditEvent → Bool}
    {evidence : Finset Nat}
    (kept : ∀ eventId ∈ evidence, ∃ event ∈ events.filter keep, event.id = eventId) :
    citedEvents (events.filter keep) evidence = citedEvents events evidence := by
  rw [citedEvents, citedEvents, List.filter_filter]
  apply congrArg
  apply List.filter_congr
  intro event member
  cases cited : decide (event.id ∈ evidence) with
  | false => rfl
  | true =>
      obtain ⟨other, otherKept, sameId⟩ := kept event.id (of_decide_eq_true cited)
      obtain ⟨otherMember, passes⟩ := List.mem_filter.mp otherKept
      rw [← List.inj_on_of_nodup_map ids otherMember member sameId, passes]
      rfl

end Cited

/-! ### Severity -/

def ERROR_SEVERITY_TOKENS : List Str :=
  [lit "error", lit "failed", lit "failure", lit "reject", lit "rejected", lit "unrecoverable"]

def WARNING_SEVERITY_TOKENS : List Str :=
  [lit "blocked", lit "missing", lit "partial", lit "rollback", lit "stale", lit "warning"]

/-- `token in text`. -/
def inText (token text : Str) : Bool := text.tails.any token.isPrefixOf

/-- `severity_from_values`. -/
def severityFromValues (lower : Str → Str) (values : List Str) : Str :=
  let text := (lit " ").intercalate ((values.filter (· ≠ [])).map lower)
  if ERROR_SEVERITY_TOKENS.any (inText · text) then lit "error"
  else if WARNING_SEVERITY_TOKENS.any (inText · text) then lit "warning"
  else lit "info"

/-! ### The line that sums an event up -/

/-- `" · "`, whose dot is not an ASCII character. -/
def middleDot : Str := [0x20, 0xB7, 0x20]

/-- `action_label`. -/
def actionLabel (env : Env) (value : Str) : Str :=
  if value = [] then []
  else env.title (strip (value.map fun char => if char = 0x5F then 0x20 else char))

/-- `str` of a nullable number. -/
def numberText : Option Nat → Str
  | none => lit "None"
  | some value => natText value

/-- `int_or_dash`. -/
def intOrDash : Option Nat → Str
  | none => lit "-"
  | some value => natText value

/-- `secondary_action_label`. -/
def secondaryActionLabel (event : AuditEvent) : Str :=
  let origin := event.text "human_action_origin"
  let phase := event.text "human_action_phase"
  let fields := event.items "human_action_fields"
  let fromEpoch := event.number "from_epoch"
  let toEpoch := event.number "to_epoch"
  let parts :=
    (if origin = [] then [] else [origin]) ++
    (if phase = [] then [] else [phase]) ++
    (if fields = [] then [] else [(lit ", ").intercalate (fields.map valueIfStr)]) ++
    (if fromEpoch.isNone && toEpoch.isNone then []
      else [lit "epoch " ++ intOrDash fromEpoch ++ lit " -> " ++ intOrDash toEpoch])
  middleDot.intercalate parts

/-- What follows a dot, when there is something. -/
def dotted (suffix : Str) : Str := if suffix = [] then [] else middleDot ++ suffix

/-- `event_summary`. -/
def eventSummary (env : Env) (event : AuditEvent) : Str :=
  let action := event.text "human_action_action"
  let eventType := event.eventType
  if eventType = lit "human_action" then actionLabel env action ++ dotted (secondaryActionLabel event)
  else if eventType = lit "publish_attempt" then
    let relayCount := (event.items "relay_urls").length
    lit "publish attempt" ++ middleDot ++ natText relayCount ++ lit " relay" ++
      (if relayCount = 1 then [] else lit "s")
  else if eventType = lit "publish_outcome" then
    lit "publish outcome" ++ middleDot ++ natText (event.items "accepted_relay_urls").length ++
      lit " accepted / " ++ natText (event.items "failed_relays").length ++ lit " failed"
  else if eventType = lit "publish_failure" then lit "publish failure" ++ dotted event.reason
  else if action ≠ [] then eventType ++ middleDot ++ actionLabel env action
  else if eventType = lit "fork_resolution" then
    event.text "winner" ++ lit " at source epoch " ++ numberText (event.number "source_epoch")
  else if eventType = lit "convergence_decision" then
    lit "tip " ++ numberText (event.number "current_tip_epoch") ++ lit " -> " ++
      intOrDash (event.number "selected_tip_epoch")
  else if eventType = lit "epoch_confirmed" then
    lit "epoch " ++ numberText (event.number "from_epoch") ++ lit " -> " ++
      numberText (event.number "to_epoch")
  else if eventType = lit "epoch_rolled_back" then
    lit "rollback " ++ numberText (event.number "pending_epoch") ++ lit " -> " ++
      numberText (event.number "restored_epoch")
  else if eventType = lit "peeler_outcome" then
    event.outcome ++
      if event.flag "fallback_snapshot_used" = some true then lit " with snapshot fallback" else []
  else if eventType = lit "message_state_changed" then event.msgId ++ lit " -> " ++ event.newState
  else if eventType = lit "ingest_outcome" then
    event.outcomeKind ++ lit " epoch " ++ intOrDash (event.number "epoch")
  else if eventType = lit "send_outcome" then
    event.text "intent_kind" ++ lit " -> " ++ event.resultKind
  else eventType

end Goggles
