/-
Module: Goggles.Timeline.Fields
Purpose: What the timeline reads off an event, the index of its engines, and the dictionaries it is
  made of, from which empty fields are left out.
Trusted boundary: forensics/analysis.py, `event_epoch`, `primary_msg_id` to `primary_reason`,
  `event_tone`, `relay_summary`, `unique_in_order` to `compact_item`
Main exports: EngineIndex, TimelineRole, eventEpoch, eventTone, relaySummary, uniqueInOrder,
  summarizeCounts, compactItem, lookup_compactItem
-/
import Goggles.Library.Grouping
import Goggles.Views.Actions

namespace Goggles

/-! ### Constants -/

def FAILED_MESSAGE_STATES : List Str := [lit "failed", lit "epoch_invalidated"]

def DEFERRED_MESSAGE_STATES : List Str := [lit "peel_deferred"]

def PEELER_WARNING_OUTCOMES : List Str := [lit "decrypt_failed", lit "stale_epoch"]

/-- The types of events that are about messages and not about the state of the group. -/
def MESSAGE_EVENT_TYPES : List Str :=
  [lit "ingest_entry", lit "ingest_outcome", lit "send_entry", lit "send_outcome",
    lit "publish_attempt", lit "publish_outcome", lit "publish_failure", lit "human_action",
    lit "peeler_outcome", lit "message_state_changed", lit "rejection"]

def EPOCH_CHANGE_RESULT_KINDS : List Str := [lit "group_created", lit "group_evolution"]

/-! ### What is read off an event -/

/-- `first_present`: zero is present. -/
def firstPresent (values : List (Option Nat)) : Option Nat := values.findSome? id

/-- `event_epoch`. -/
def eventEpoch (event : AuditEvent) : Option Nat :=
  firstPresent [event.number "epoch", event.number "source_epoch", event.number "to_epoch",
    event.number "pending_epoch", event.number "current_tip_epoch", event.number "selected_tip_epoch"]

/-- A chain of `or` on texts. -/
def firstText (texts : List Str) : Str := (texts.find? (· ≠ [])).getD []

/-- `(event.human_action_message_ids or [None])[0]`. -/
def AuditEvent.firstHumanActionMessageId (event : AuditEvent) : Json :=
  event.humanActionMessageIds.headD .null

/-- `primary_msg_id`. -/
def primaryMsgId (event : AuditEvent) : Json :=
  (Json.str (firstText [event.msgId, event.outboundMsgId, event.invalidatedMsgId])).orElse
    event.firstHumanActionMessageId

/-- `primary_digest`. -/
def primaryDigest (event : AuditEvent) : Str :=
  firstText [event.text "candidate_digest", event.text "payload_digest",
    event.text "incumbent_digest"]

/-- `primary_outcome`. -/
def primaryOutcome (event : AuditEvent) : Str :=
  firstText [event.outcome, event.outcomeKind, event.text "decision", event.text "winner",
    event.newState]

/-- `primary_reason`. -/
def primaryReason (event : AuditEvent) : Str :=
  firstText [event.reason, event.text "stale_reason", event.text "detail", event.text "pending_kind"]

/-- `event_tone`. -/
def eventTone (event : AuditEvent) : Str :=
  let eventType := event.eventType
  let tone := if (lit "send_").isPrefixOf eventType then lit "send" else lit "receive"
  if eventType = lit "human_action" then
    if event.humanActionOrigin = lit "local_user" then lit "send" else lit "receive"
  else if eventType = lit "publish_failure" then lit "error"
  else if eventType = lit "publish_outcome" ∧ event.items "failed_relays" ≠ [] then
    if event.metRequiredAcks = some true then lit "send" else lit "error"
  else if eventType = lit "fork_resolution" ∨ eventType = lit "convergence_decision" then lit "fork"
  else if eventType = lit "peeler_outcome" then
    if PEELER_WARNING_OUTCOMES.contains event.outcome then lit "warning"
    else if event.outcome ≠ [] ∧ event.outcome ≠ lit "success" then lit "error"
    else tone
  else if eventType = lit "rejection" then lit "error"
  else if eventType = lit "message_state_changed" then
    if FAILED_MESSAGE_STATES.contains event.newState then lit "error"
    else if DEFERRED_MESSAGE_STATES.contains event.newState then lit "warning"
    else tone
  else tone

/-- `"" if count == 1 else "s"`. -/
def plural (count : Nat) : Str := if count = 1 then [] else lit "s"

/-- `relay_summary`. -/
def relaySummary (event : AuditEvent) : Str :=
  let relayCount := (event.items "relay_urls").length
  if event.eventType = lit "publish_attempt" then
    if relayCount = 0 then []
    else natText relayCount ++ lit " target relay" ++ plural relayCount
  else if event.eventType = lit "publish_outcome" then
    let accepted := (event.items "accepted_relay_urls").length
    let failed := (event.items "failed_relays").length
    let required := match event.number "required_acks" with
      | none => []
      | some acks => lit " / " ++ natText acks ++ lit " required"
    natText accepted ++ lit " accepted, " ++ natText failed ++ lit " failed" ++ required
  else if event.eventType = lit "publish_failure" then
    if relayCount = 0 then firstText [event.reason, event.text "detail"]
    else lit "failed on " ++ natText relayCount ++ lit " relay" ++ plural relayCount
  else []

/-! ### The engines -/

/-- `engine_idx`: the engines of a timeline, each once, numbered in order. -/
structure EngineIndex where
  engineIds : List Str
  distinct : engineIds.Nodup

namespace EngineIndex

/-- `engine_idx.get(engine_id)`. -/
def find (index : EngineIndex) (engineId : Str) : Option Nat :=
  if engineId ∈ index.engineIds then some (index.engineIds.idxOf engineId) else none

/-- `engine_count`. -/
def count (index : EngineIndex) : Nat := index.engineIds.length

variable {index : EngineIndex}

/-- An index stands for one engine. -/
theorem find_inj {one two : Str} {engine : Nat} (oneFound : index.find one = some engine)
    (twoFound : index.find two = some engine) : one = two := by
  rw [find] at oneFound twoFound
  split at oneFound
  · next member =>
      split at twoFound
      · exact (List.idxOf_inj member).mp (Option.some.inj (oneFound.trans twoFound.symm))
      · cases twoFound
  · cases oneFound

/-- The index of an engine is its place. -/
theorem find_of_getElem? {engineId : Str} {engine : Nat}
    (place : index.engineIds[engine]? = some engineId) : index.find engineId = some engine := by
  obtain ⟨within, rfl⟩ := List.getElem?_eq_some_iff.mp place
  rw [find, if_pos (List.getElem_mem within), index.distinct.idxOf_getElem]

end EngineIndex

/-! ### The roles -/

/-- What an event did to an epoch. -/
inductive TimelineRole where
  | commit
  | applied
  | rollback
deriving Repr, DecidableEq

def TimelineRole.text : TimelineRole → Str
  | .commit => lit "commit"
  | .applied => lit "applied"
  | .rollback => lit "rollback"

/-- `roles`, by the id of the event. -/
abbrev TimelineRoles := Keyed Nat TimelineRole

/-! ### Texts -/

/-- `unique_in_order`. -/
def uniqueInOrder (values : List Json) : List Json :=
  values.foldl (fun result value =>
    if !value.truthy || result.contains value then result else result ++ [value]) []

/-- `Counter(values)`. -/
def counter (values : List Str) : Keyed Str Nat :=
  Keyed.gather (fun found (_ : Str) => found.getD 0 + 1) (values.map fun value => (value, value))

/-- `summarize_counts`: the values by falling count, equal counts as they first appear. -/
def summarizeCounts (values : List Str) (limit : Nat) : Str :=
  let counts := (counter (values.filter (· ≠ []))).entries
  let mostCommon := (inOrder (fun entry => OrderDual.toDual entry.2) counts).take limit
  let parts := mostCommon.map fun (value, count) =>
    if 1 < count then value ++ lit " x" ++ natText count else value
  let extra := counts.length - limit
  (lit ", ").intercalate
    (parts ++ if 0 < extra then [lit "+" ++ natText extra ++ lit " more"] else [])

/-! ### Fields that are left out -/

/-- What `compact_item` keeps. -/
def Json.present (value : Json) : Bool := value ≠ .null && value ≠ .str []

/-- `compact_item`. -/
def compactItem (item : Dict) : Dict := item.filter (·.2.present)

/-- A field that is not empty stays. -/
theorem lookup_compactItem {item : Dict} {key : Str} {value : Json}
    (found : item.lookup key = some value) (present : value.present = true) :
    (compactItem item).lookup key = some value := by
  induction item with
  | nil => cases found
  | cons entry rest inductionHypothesis =>
      obtain ⟨name, stated⟩ := entry
      rw [lookup_cons_ite] at found
      rw [compactItem, List.filter_cons]
      split at found
      · next same =>
          obtain rfl := Option.some.inj found
          rw [if_pos present, lookup_cons_ite, if_pos same]
      · next other =>
          split
          · rw [lookup_cons_ite, if_neg other]
            exact inductionHypothesis found
          · exact inductionHypothesis found

/-- No field is added. -/
theorem lookup_compactItem_none {item : Dict} {key : Str} (absent : item.lookup key = none) :
    (compactItem item).lookup key = none := by
  rw [List.lookup_eq_none_iff] at absent ⊢
  exact fun entry member => absent entry (List.mem_of_mem_filter member)

/-- The field of a number stays. -/
theorem get_compactItem_int {item : Dict} {key : Str} {number : Nat}
    (found : item.lookup key = some (.int number)) :
    valueIfInt ((compactItem item).get key) = some number := by
  rw [Dict.get, lookup_compactItem found rfl, Option.getD_some, valueIfInt_natCast]

end Goggles
