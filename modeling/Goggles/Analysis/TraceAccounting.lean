/-
Module: Goggles.Analysis.TraceAccounting
Purpose: The numbers of a trace and of a matrix row: the instants and the observers are those of the
  events that mention the message, and the count is theirs when none of them names it twice.
Trusted boundary: none beyond the modules it imports
Main exports: AccountsFor, TraceAccounting, traceAccounting_iff
-/
import Goggles.Analysis.MessageIds
import Goggles.Analysis.MessageViews

namespace Goggles

/-- The events that mention a message, each once. -/
def mentioning (events : List AuditEvent) (msgId : Json) : List AuditEvent :=
  events.filter fun event => (eventMessageIdValues event).contains msgId

/-- Numbers that are those of the events that mention a message. -/
structure AccountsFor (events : List AuditEvent) (msgId : Json) (eventCount : Nat)
    (firstWallTimeMs lastWallTimeMs : Option Nat) (observers : List Str) : Prop where
  count : eventCount = (mentioning events msgId).length
  first : firstWallTimeMs = ((mentioning events msgId).filterMap (·.wallTimeMs)).min?
  last : lastWallTimeMs = ((mentioning events msgId).filterMap (·.wallTimeMs)).max?
  observed : ∀ engineId, engineId ∈ observers ↔
    engineId ≠ [] ∧ ∃ event ∈ mentioning events msgId, event.engineId = engineId
  once : observers.Nodup

/-- A message that is mentioned has a trace and a row, and their numbers are right. -/
structure TraceAccounting (events : List AuditEvent) (msgId : Json) : Prop where
  traced : mentioning events msgId ≠ [] → ∀ allEngines,
    ∃ trace ∈ messageTracesFromEvents events allEngines, trace.msgId = msgId
  listed : mentioning events msgId ≠ [] →
    ∃ row ∈ (messageObservationMatrix events).rows, row.msgId = msgId
  traces : ∀ allEngines, ∀ trace ∈ messageTracesFromEvents events allEngines,
    trace.msgId = msgId → AccountsFor events msgId trace.eventCount trace.firstWallTimeMs
      trace.lastWallTimeMs trace.engines
  rows : ∀ row ∈ (messageObservationMatrix events).rows,
    row.msgId = msgId → AccountsFor events msgId row.eventCount row.firstWallTimeMs
      row.lastWallTimeMs row.observers

/-! ### The gathered events -/

/-- The events that are gathered for a message: each as often as it names it. -/
def gatheredFor (events : List AuditEvent) (msgId : Json) : List AuditEvent :=
  events.flatMap fun event =>
    List.replicate ((eventMessageIdValues event).count msgId) event

theorem namings_of (events : List AuditEvent) (msgId : Json) :
    ((namings eventMessageIdValues events).filter (·.1 = msgId)).map Prod.snd =
      gatheredFor events msgId := by
  have named : ∀ (event : AuditEvent) (ids : List Json),
      ((ids.map (·, event)).filter (·.1 = msgId)).map Prod.snd =
        List.replicate (ids.count msgId) event := by
    intro event ids
    induction ids with
    | nil => rfl
    | cons first rest inductionHypothesis =>
        by_cases same : first = msgId
        · simp [same, inductionHypothesis, List.replicate_succ]
        · simp [same, inductionHypothesis]
  rw [namings, gatheredFor, List.filter_flatMap, List.map_flatMap]
  exact List.flatMap_congr fun event _ => named event _

theorem mem_byMessage_iff {events msgEvents : List AuditEvent} {msgId : Json} :
    (msgId, msgEvents) ∈ (byMessage events).entries ↔
      msgEvents ≠ [] ∧ msgEvents = gatheredFor events msgId := by
  rw [← Keyed.find_eq_some_iff, ← namings_of]
  exact Keyed.find_gather_appendItem

theorem mem_gatheredFor {events : List AuditEvent} {msgId : Json} {event : AuditEvent} :
    event ∈ gatheredFor events msgId ↔ event ∈ mentioning events msgId := by
  simp only [gatheredFor, mentioning, List.mem_flatMap, List.mem_replicate, List.mem_filter,
    List.contains_iff_mem, ne_eq, List.count_eq_zero, not_not]
  constructor
  · rintro ⟨other, member, named, rfl⟩
    exact ⟨member, named⟩
  · rintro ⟨member, named⟩
    exact ⟨event, member, named, rfl⟩

/-- As many events are gathered as mention the message, exactly when none names it twice. -/
theorem length_gatheredFor_iff (events : List AuditEvent) (msgId : Json) :
    (gatheredFor events msgId).length = (mentioning events msgId).length ↔
      ∀ event ∈ events, (eventMessageIdValues event).count msgId ≤ 1 := by
  have more : ∀ events, (mentioning events msgId).length ≤ (gatheredFor events msgId).length := by
    intro events
    induction events with
    | nil => exact Nat.le_refl _
    | cons event rest inductionHypothesis =>
        rw [gatheredFor, List.flatMap_cons, List.length_append, List.length_replicate, mentioning,
          List.filter_cons]
        change _ ≤ _ + (gatheredFor rest msgId).length
        change (mentioning rest msgId).length ≤ _ at inductionHypothesis
        split
        · next named =>
            rw [List.contains_iff_mem, ← List.count_pos_iff] at named
            rw [List.length_cons]
            change (mentioning rest msgId).length + 1 ≤ _
            omega
        · change (mentioning rest msgId).length ≤ _
          omega
  induction events with
  | nil => simp [gatheredFor, mentioning]
  | cons event rest inductionHypothesis =>
      have least := more rest
      have left : (gatheredFor (event :: rest) msgId).length =
          (eventMessageIdValues event).count msgId + (gatheredFor rest msgId).length := by
        rw [gatheredFor, List.flatMap_cons, List.length_append, List.length_replicate]
        rfl
      have right : (mentioning (event :: rest) msgId).length =
          min 1 ((eventMessageIdValues event).count msgId) + (mentioning rest msgId).length := by
        rw [mentioning, List.filter_cons]
        split
        · next named =>
            rw [List.contains_iff_mem, ← List.count_pos_iff] at named
            rw [List.length_cons]
            change (mentioning rest msgId).length + 1 = _
            omega
        · next unnamed =>
            rw [List.contains_iff_mem, ← List.count_pos_iff] at unnamed
            change (mentioning rest msgId).length = _
            omega
      rw [left, right, List.forall_mem_cons]
      constructor
      · intro same
        exact ⟨by omega, inductionHypothesis.mp (by omega)⟩
      · rintro ⟨single, later⟩
        have same := inductionHypothesis.mpr later
        omega

/-! ### The numbers -/

theorem max?_congr {first second : List Nat} (same : ∀ value, value ∈ first ↔ value ∈ second) :
    first.max? = second.max? := by
  cases found : first.max? with
  | none =>
      rw [List.max?_eq_none_iff] at found
      subst found
      rw [eq_comm, List.max?_eq_none_iff, List.eq_nil_iff_forall_not_mem]
      exact fun value member => List.not_mem_nil ((same value).mpr member)
  | some greatest =>
      rw [List.max?_eq_some_iff] at found
      rw [eq_comm, List.max?_eq_some_iff]
      exact ⟨(same greatest).mp found.1, fun value member => found.2 value ((same value).mpr member)⟩

/-- The numbers of the gathered events account for the message when their number does. -/
theorem accountsFor_gathered {events : List AuditEvent} {msgId : Json} :
    AccountsFor events msgId (gatheredFor events msgId).length
        ((gatheredFor events msgId).filterMap (·.wallTimeMs)).min?
        ((gatheredFor events msgId).filterMap (·.wallTimeMs)).max?
        (inOrder id (enginesOf (gatheredFor events msgId))) ↔
      (gatheredFor events msgId).length = (mentioning events msgId).length := by
  have times : ∀ instant, instant ∈ (gatheredFor events msgId).filterMap (·.wallTimeMs) ↔
      instant ∈ (mentioning events msgId).filterMap (·.wallTimeMs) := by
    intro instant
    simp only [List.mem_filterMap, mem_gatheredFor]
  constructor
  · exact fun accounts => accounts.count
  · intro count
    refine ⟨count, min?_congr times, max?_congr times, fun engineId => ?_, ?_⟩
    · simp only [mem_inOrder, mem_enginesOf, attributedEvents, List.mem_map, List.mem_filter,
        decide_eq_true_eq, mem_gatheredFor]
      constructor
      · rintro ⟨event, ⟨member, filled⟩, rfl⟩
        exact ⟨filled, event, member, rfl⟩
      · rintro ⟨filled, event, member, rfl⟩
        exact ⟨event, ⟨member, filled⟩, rfl⟩
    · exact (perm_inOrder id _).nodup_iff.mpr (nodup_enginesOf _)

/-- The numbers of a trace and a row are right exactly when no event names the message twice. -/
theorem traceAccounting_iff (events : List AuditEvent) (msgId : Json) :
    TraceAccounting events msgId ↔
      ∀ event ∈ events, (eventMessageIdValues event).count msgId ≤ 1 := by
  have member : ∀ {entry}, entry ∈ messagesInOrder events ↔
      entry.2 ≠ [] ∧ entry.2 = gatheredFor events entry.1 := by
    intro entry
    rw [messagesInOrder, mem_inOrder]
    exact mem_byMessage_iff
  have filled : mentioning events msgId ≠ [] ↔ gatheredFor events msgId ≠ [] := by
    simp only [ne_eq, List.eq_nil_iff_forall_not_mem, mem_gatheredFor]
  rw [← length_gatheredFor_iff]
  constructor
  · intro accounting
    by_cases blank : mentioning events msgId = []
    · rw [blank, List.length_nil, List.length_eq_zero_iff]
      by_contra gathered
      exact filled.mpr gathered blank
    · have entry : (msgId, gatheredFor events msgId) ∈ messagesInOrder events :=
        member.mpr ⟨filled.mp blank, rfl⟩
      have accounts := accounting.traces [] _ (List.mem_map_of_mem entry) rfl
      exact accounts.count
  · intro count
    have accounts := accountsFor_gathered.mpr count
    refine ⟨fun mentioned allEngines => ?_, fun mentioned => ?_, ?_, ?_⟩
    · have entry : (msgId, gatheredFor events msgId) ∈ messagesInOrder events :=
        member.mpr ⟨filled.mp mentioned, rfl⟩
      exact ⟨_, List.mem_map_of_mem entry, rfl⟩
    · have entry : (msgId, gatheredFor events msgId) ∈ messagesInOrder events :=
        member.mpr ⟨filled.mp mentioned, rfl⟩
      exact ⟨_, List.mem_map_of_mem entry, rfl⟩
    · rintro allEngines trace listed rfl
      obtain ⟨entry, inside, rfl⟩ := List.mem_map.mp listed
      have gathered := (member.mp inside).2
      simp only [messageTrace, gathered]
      exact accounts
    · rintro row listed rfl
      obtain ⟨entry, inside, rfl⟩ := List.mem_map.mp listed
      have gathered := (member.mp inside).2
      simp only [matrixRow, gathered]
      exact accounts

/-- A record of a send that produced two welcomes with one id. -/
def welcomingRecord : Str :=
  twoMessagesRecord (outboundText '2' (lit "welcome")) (outboundText '2' (lit "welcome"))

def welcomingEnv : Env :=
  digestEnv
    [(welcomingRecord, lit "23e83fd0ba84ebfe155a4e616e7dd5cd" ++ lit "ab294e5598c509d408406995619ac300")]

/-- The record is stored, and counted twice for the message. -/
theorem traceAccounting_fails_welcomes :
    ¬ TraceAccounting (run (Store.perform welcomingEnv) .empty
      [.upload (uploadOf [welcomingRecord])]).events (.str (List.replicate 64 0x32)) := by
  intro accounting
  have counts : (messageTracesFromEvents (run (Store.perform welcomingEnv) .empty
      [.upload (uploadOf [welcomingRecord])]).events []).map
        (fun trace => (trace.msgId, trace.eventCount)) = [(.str (List.replicate 64 0x32), 2)] ∧
      (mentioning (run (Store.perform welcomingEnv) .empty
        [.upload (uploadOf [welcomingRecord])]).events
          (.str (List.replicate 64 0x32))).length = 1 := by decide +kernel
  have single : ((.str (List.replicate 64 0x32), 2) : Json × Nat) ∈ (messageTracesFromEvents
      (run (Store.perform welcomingEnv) .empty [.upload (uploadOf [welcomingRecord])]).events
        []).map (fun trace => (trace.msgId, trace.eventCount)) := by
    rw [counts.1]
    exact List.mem_singleton.mpr rfl
  obtain ⟨trace, listed, same⟩ := List.mem_map.mp single
  have numbers := Prod.mk.inj same
  have accounts := accounting.traces [] trace listed numbers.1
  have count := accounts.count
  rw [counts.2, numbers.2] at count
  omega

end Goggles
