/-
Module: Goggles.Analysis.MessageIds
Purpose: The message ids the analysis reads off the columns of an event and those the delivery
  projection reads off the columns and the raw kind: where they agree, and the outbound messages the
  columns have no room for.
Trusted boundary: none beyond the modules it imports
Main exports: sentIds, welcomeIds, actedIds, IdsAgree, KeepsSentIds, idsAgree_row_iff, idsAgree_iff
-/
import Goggles.Retention.Prune

namespace Goggles

/-! ### What a clean copy leaves in its column -/

/-- A copy that reports wrong types leaves the value it read. -/
theorem CopyRule.run_get_of_clean {rule : CopyRule} {source : Dict} {state : Normalization}
    (reports : rule.mistyped.isSome = true) (clean : rule.errorsFor source = [])
    (blank : state.normalized.get rule.dest = .null) :
    (rule.run source state).normalized.get rule.dest = source.get rule.field := by
  unfold errorsFor at clean
  unfold run
  simp only at clean ⊢
  by_cases absent : source.get rule.field = .null
  · rw [if_pos absent] at clean ⊢
    rw [Option.toList_eq_nil_iff.mp clean, absent]
    exact blank
  · rw [if_neg absent] at clean ⊢
    cases accepted : rule.type.accepts (source.get rule.field) with
    | false =>
        rw [accepted] at clean
        obtain ⟨error, found⟩ := Option.isSome_iff_exists.mp reports
        simp [found] at clean
    | true =>
        simp only [accepted, Bool.not_true, Bool.false_eq_true, if_false] at clean ⊢
        rw [Option.toList_eq_nil_iff.mp clean]
        exact Dict.get_set_self _ _ _

theorem runRules_get_of_clean {rules : List CopyRule} {source : Dict} {state : Normalization}
    (distinct : (rules.map (·.dest)).Nodup) {rule : CopyRule} (member : rule ∈ rules)
    (reports : rule.mistyped.isSome = true) (clean : (runRules rules source state).errors = [])
    (blank : state.normalized.get rule.dest = .null) :
    (runRules rules source state).normalized.get rule.dest = source.get rule.field := by
  have ruleClean : rule.errorsFor source = [] := by
    rw [runRules_errors, List.append_eq_nil_iff, List.flatMap_eq_nil_iff] at clean
    exact clean.2 rule member
  apply runRules_get_of_run state distinct member _ blank
  intro before stillBlank
  exact rule.run_get_of_clean reports ruleClean stillBlank

/-! ### Outbound messages -/

/-- The ids of the outbound messages of a kind that are welcomes, or that are not. -/
def outboundIds (welcome : Bool) (messages : List Json) : List Json :=
  messages.filterMap fun message =>
    match message with
    | .dict fields =>
        if decide (Dict.get fields "artifact_kind" = .str "welcome") = welcome then
          some (Dict.get fields "msg_id")
        else none
    | _ => none

/-- The ids of the messages a kind sends, the welcomes apart. -/
def sentIds (kind : Dict) : List Json := outboundIds false (kind.get "outbound_messages").listOrEmpty

/-- The ids of the welcomes a kind sends. -/
def welcomeIds (kind : Dict) : List Json := outboundIds true (kind.get "outbound_messages").listOrEmpty

/-- The first id, as the text it is. -/
def firstId (ids : List Json) : Str := (ids.head?.map valueIfStr).getD []

/-- Every message of the list is an object with a message id. -/
def AllIdentified (messages : List Json) : Prop :=
  ∀ message ∈ messages, ∃ fields msgId, message = .dict fields ∧
    Dict.get fields "msg_id" = .str msgId ∧ isValidMessageId (.str msgId) = true

theorem ne_nil_of_isValidMessageId {msgId : Str} (valid : isValidMessageId (.str msgId) = true) :
    msgId ≠ [] := by
  rintro rfl
  simp [isValidMessageId, isHexOfLength] at valid

theorem OutboundScan.next_errors_extend (scan : OutboundScan) (index : Nat) (message : Json) :
    scan.errors <+: (scan.next index message).errors := by
  unfold OutboundScan.next
  split
  · split
    · split
      · exact List.prefix_append _ _
      · split
        · exact List.prefix_append _ _
        · split
          · exact List.prefix_rfl
          · split <;> exact List.prefix_rfl
    · exact List.prefix_append _ _
  · exact List.prefix_append _ _

theorem scanOutbound_errors_extend (index : Nat) (messages : List Json) (scan : OutboundScan) :
    scan.errors <+: (scanOutbound index messages scan).errors := by
  induction messages generalizing index scan with
  | nil => exact List.prefix_rfl
  | cons message rest inductionHypothesis =>
      exact (scan.next_errors_extend index message).trans (inductionHypothesis _ _)

/-- One message without a complaint: it is identified, and joins the welcomes or is sent. -/
theorem OutboundScan.next_of_clean {scan : OutboundScan} {index : Nat} {message : Json}
    (clean : (scan.next index message).errors = scan.errors) :
    ∃ fields msgId, message = .dict fields ∧ Dict.get fields "msg_id" = .str msgId ∧
      isValidMessageId (.str msgId) = true ∧
      scan.next index message =
        { scan with
          outboundMsgId := if scan.outboundMsgId = [] then firstId (outboundIds false [message])
            else scan.outboundMsgId
          welcomeIds := scan.welcomeIds ++ outboundIds true [message] } := by
  have unequal : ∀ error : Str, scan.errors ++ [error] ≠ scan.errors := by simp
  unfold OutboundScan.next at clean ⊢
  split at clean
  · next fields =>
      split at clean
      · next msgId found =>
          split_ifs at clean with invalid long welcome blank
          · exact absurd clean (unequal _)
          · exact absurd clean (unequal _)
          · refine ⟨fields, msgId, rfl, found, by simpa using invalid, ?_⟩
            simp [invalid, long, welcome, outboundIds, found, firstId]
          · refine ⟨fields, msgId, rfl, found, by simpa using invalid, ?_⟩
            simp [invalid, long, welcome, outboundIds, found, firstId, blank, valueIfStr]
          · refine ⟨fields, msgId, rfl, found, by simpa using invalid, ?_⟩
            simp [invalid, long, welcome, outboundIds, blank]
      · exact absurd clean (unequal _)
  · exact absurd clean (unequal _)

theorem outboundIds_cons (welcome : Bool) (message : Json) (rest : List Json) :
    outboundIds welcome (message :: rest) = outboundIds welcome [message] ++ outboundIds welcome rest := by
  rw [outboundIds, outboundIds, outboundIds, ← List.filterMap_append]
  rfl

theorem firstId_append (first second : List Json) :
    firstId (first ++ second) = if first = [] then firstId second else firstId first := by
  cases first <;> simp [firstId]

/-- The whole list without a complaint. -/
theorem scanOutbound_of_clean {index : Nat} {messages : List Json} {scan : OutboundScan}
    (clean : (scanOutbound index messages scan).errors = scan.errors) :
    AllIdentified messages ∧
      scanOutbound index messages scan =
        { scan with
          outboundMsgId := if scan.outboundMsgId = [] then firstId (outboundIds false messages)
            else scan.outboundMsgId
          welcomeIds := scan.welcomeIds ++ outboundIds true messages } := by
  induction messages generalizing index scan with
  | nil =>
      refine ⟨by simp [AllIdentified], ?_⟩
      cases scan with
      | mk outboundMsgId welcomeIds errors =>
          by_cases blank : outboundMsgId = [] <;>
            simp [scanOutbound, outboundIds, firstId, blank]
  | cons message rest inductionHypothesis =>
      rw [scanOutbound] at clean ⊢
      have headClean : (scan.next index message).errors = scan.errors := by
        have first := scan.next_errors_extend index message
        have second := scanOutbound_errors_extend (index + 1) rest (scan.next index message)
        rw [clean] at second
        exact second.eq_of_length_le first.length_le
      obtain ⟨fields, msgId, isDict, found, valid, after⟩ := OutboundScan.next_of_clean headClean
      rw [headClean.symm] at clean
      obtain ⟨identified, final⟩ := inductionHypothesis clean
      constructor
      · intro other member
        rcases List.mem_cons.mp member with same | later
        · exact ⟨fields, msgId, same.trans isDict, found, valid⟩
        · exact identified other later
      · rw [final, after, outboundIds_cons false message rest, outboundIds_cons true message rest,
          List.append_assoc, firstId_append]
        have nonEmpty := ne_nil_of_isValidMessageId valid
        by_cases blank : scan.outboundMsgId = []
        · by_cases welcome : decide (Dict.get fields "artifact_kind" = .str "welcome") = true
          · simp [blank, outboundIds, isDict, of_decide_eq_true welcome, firstId]
          · have notWelcome : ¬ Dict.get fields "artifact_kind" = .str "welcome" := by
              simpa using welcome
            simp [blank, outboundIds, isDict, notWelcome, firstId, found, valueIfStr, nonEmpty]
        · simp [blank]

/-- The columns `copy_outbound_messages` fills when it has nothing to complain about. -/
theorem copyOutboundMessages_of_clean {kind : Dict} {state : Normalization}
    (listed : kind.get "outbound_messages" = .null ∨
      ∃ messages, kind.get "outbound_messages" = .list messages)
    (clean : (copyOutboundMessages kind state).errors = [])
    (unsent : state.normalized.get "outbound_msg_id" = .null)
    (unwelcomed : state.normalized.get "outbound_welcome_msg_ids" = .null) :
    AllIdentified (kind.get "outbound_messages").listOrEmpty ∧
      valueIfStr ((copyOutboundMessages kind state).normalized.get "outbound_msg_id") =
        firstId (sentIds kind) ∧
      ((copyOutboundMessages kind state).normalized.get "outbound_welcome_msg_ids").listOrEmpty =
        welcomeIds kind := by
  have apart : lit "outbound_msg_id" ≠ lit "outbound_welcome_msg_ids" := by decide
  rcases listed with absent | ⟨messages, found⟩
  · have unchanged : copyOutboundMessages kind state = state := by
      simp only [copyOutboundMessages, absent]
    rw [unchanged, unsent, unwelcomed, sentIds, welcomeIds, absent]
    exact ⟨by simp [AllIdentified, Json.listOrEmpty], rfl, rfl⟩
  · have errors : (copyOutboundMessages kind state).errors =
        state.errors ++ (scanOutbound 0 messages ⟨[], [], []⟩).errors := by
      simp only [copyOutboundMessages, found]
      split <;> split <;> rfl
    rw [clean, eq_comm, List.append_eq_nil_iff] at errors
    obtain ⟨identified, final⟩ := scanOutbound_of_clean errors.2
    rw [if_pos rfl, List.nil_append] at final
    have falsy : (state.normalized.get "outbound_msg_id").truthy = false := by rw [unsent]; rfl
    simp only [copyOutboundMessages, found, final, Json.listOrEmpty, sentIds, welcomeIds, falsy]
    refine ⟨identified, ?_, ?_⟩
    · by_cases noneSent : firstId (outboundIds false messages) = [] <;>
        by_cases noneWelcomed : outboundIds true messages = [] <;>
          simp [noneSent, noneWelcomed, unsent, Dict.get_set_of_ne apart, valueIfStr]
    · by_cases noneSent : firstId (outboundIds false messages) = [] <;>
        by_cases noneWelcomed : outboundIds true messages = [] <;>
          simp [noneSent, noneWelcomed, unwelcomed, Dict.get_set_of_ne apart.symm]

/-! ### Columns that hold ids -/

/-- The columns the normalizer fills with lists of message ids. -/
def idColumns : List Str := ["human_action_message_ids", "outbound_welcome_msg_ids"]

/-- The columns of message ids, each with the type of its values. -/
def idColumnTypes : List (Str × CopyType) :=
  [(lit "human_action_message_ids", .messageIdList),
    (lit "outbound_welcome_msg_ids", .messageIdList), (lit "msg_id", .messageId),
    (lit "outbound_msg_id", .messageId), (lit "invalidated_msg_id", .messageId)]

/-- Every item of a list is a message id. -/
def AreIds (value : Json) : Prop := ∀ item ∈ value.listOrEmpty, isValidMessageId item = true

/-- A value of a type, or none. -/
def CopyType.Holds (type : CopyType) (value : Json) : Prop :=
  value = .null ∨ type.accepts value = true

/-- A statement that writes a column only with values of its type. -/
def CopyRule.typesColumn (column : Str × CopyType) (rule : CopyRule) : Bool :=
  rule.dest != column.1 || rule.type == column.2

def Copy.typesColumn (column : Str × CopyType) : Copy → Bool
  | .field rule => rule.typesColumn column
  | .within _ rules => rules.all (CopyRule.typesColumn column)
  | _ => true

/-- Every statement of the normalizer types the columns of ids. -/
theorem typesColumn_all : ∀ column ∈ idColumnTypes,
    (∀ entry ∈ kindBranches, ∀ copy ∈ entry.2, copy.typesColumn column = true) ∧
      (∀ rule ∈ copyHumanActionFields, rule.typesColumn column = true) ∧
      (∀ rule ∈ contextObjectRules, rule.typesColumn column = true) ∧
      column.1 ∉ envelopeFields ∧ column.1 ∉ [lit "raw_context", lit "context_operation_id",
        lit "context_human_action", lit "raw_kind", lit "event_type"] ∧
      column.1 ∉ Copy.relayUrl.dests ∧ column.1 ∉ Copy.candidates.dests ∧
      (column.1 = lit "outbound_welcome_msg_ids" → column.2 = .messageIdList) ∧
      (column.1 = lit "outbound_msg_id" → column.2 = .messageId) := by
  decide +kernel

theorem areIds_of_holds {value : Json} (holds : CopyType.messageIdList.Holds value) :
    AreIds value := by
  rcases holds with rfl | accepted
  · simp [AreIds, Json.listOrEmpty]
  · cases value with
    | list items => simpa [AreIds, Json.listOrEmpty, CopyType.accepts] using accepted
    | null | bool | int | float | str | dict => simp [CopyType.accepts] at accepted

section Typed

variable {column : Str × CopyType}

theorem CopyRule.run_holds {rule : CopyRule} (source : Dict) {state : Normalization}
    (typed : rule.typesColumn column = true)
    (before : column.2.Holds (state.normalized.get column.1)) :
    column.2.Holds ((rule.run source state).normalized.get column.1) := by
  by_cases other : column.1 = rule.dest
  · have type : rule.type = column.2 := by simpa [typesColumn, other] using typed
    unfold run
    simp only
    split
    · cases rule.missing <;> exact before
    · split
      · cases rule.mistyped <;> exact before
      · next accepted =>
          cases rule.limitError (source.get rule.field) with
          | some error => exact before
          | none =>
              simp only [Normalization.put_normalized, other, Dict.get_set_self]
              apply Or.inr
              simpa [type] using accepted
  · rw [rule.run_get_of_ne source state other]
    exact before

theorem runRules_holds {rules : List CopyRule} (source : Dict) {state : Normalization}
    (typed : ∀ rule ∈ rules, rule.typesColumn column = true)
    (before : column.2.Holds (state.normalized.get column.1)) :
    column.2.Holds ((runRules rules source state).normalized.get column.1) := by
  induction rules generalizing state with
  | nil => exact before
  | cons rule rest inductionHypothesis =>
      apply inductionHypothesis fun other member => typed other (List.mem_cons_of_mem rule member)
      exact rule.run_holds source (typed rule List.mem_cons_self) before

/-- What the loop over outbound messages has collected. -/
structure OutboundScan.Identified (scan : OutboundScan) : Prop where
  welcomeIds : ∀ item ∈ scan.welcomeIds, isValidMessageId item = true
  outboundMsgId : scan.outboundMsgId ≠ [] → isValidMessageId (.str scan.outboundMsgId) = true

/-- The loop over outbound messages collects nothing but ids. -/
theorem scanOutbound_identified (index : Nat) (messages : List Json) {scan : OutboundScan}
    (before : scan.Identified) : (scanOutbound index messages scan).Identified := by
  induction messages generalizing index scan with
  | nil => exact before
  | cons message rest inductionHypothesis =>
      apply inductionHypothesis
      unfold OutboundScan.next
      split
      · split
        · split
          · exact ⟨before.welcomeIds, before.outboundMsgId⟩
          · next valid =>
              rw [Bool.not_eq_true, Bool.not_eq_false'] at valid
              split
              · exact ⟨before.welcomeIds, before.outboundMsgId⟩
              · split
                · refine ⟨?_, before.outboundMsgId⟩
                  intro item member
                  rcases List.mem_append.mp member with old | new
                  · exact before.welcomeIds item old
                  · rw [List.mem_singleton.mp new]
                    exact valid
                · split
                  · exact ⟨before.welcomeIds, fun _ => valid⟩
                  · exact before
        · exact ⟨before.welcomeIds, before.outboundMsgId⟩
      · exact ⟨before.welcomeIds, before.outboundMsgId⟩

/-- A column keeps its type when another column or a value of the type is written. -/
theorem holds_set {normalized : Dict} {field : Str} {value : Json}
    (before : column.2.Holds (normalized.get column.1))
    (written : column.1 = field → column.2.accepts value = true) :
    column.2.Holds ((normalized.set field value).get column.1) := by
  by_cases same : column.1 = field
  · rw [same, Dict.get_set_self]
    exact .inr (written same)
  · rw [Dict.get_set_of_ne same]
    exact before

theorem Copy.run_holds {copy : Copy} (kind : Dict) {state : Normalization}
    (listed : column ∈ idColumnTypes) (typed : copy.typesColumn column = true)
    (before : column.2.Holds (state.normalized.get column.1)) :
    column.2.Holds ((copy.run kind state).normalized.get column.1) := by
  obtain ⟨-, -, -, -, -, notRelay, notCandidates, welcomeTyped, sentTyped⟩ :=
    typesColumn_all column listed
  cases copy with
  | field rule => exact rule.run_holds kind typed before
  | within key rules =>
      simp only [run]
      split
      · exact runRules_holds _ (by simpa [typesColumn] using typed) before
      · exact before
  | relayUrl => exact (Copy.run_get_of_not_mem .relayUrl kind state notRelay) ▸ before
  | winner => exact (Copy.run_get_of_not_mem .winner kind state (by simp [dests])) ▸ before
  | peelerOutcome =>
      exact (Copy.run_get_of_not_mem .peelerOutcome kind state (by simp [dests])) ▸ before
  | candidates =>
      exact (Copy.run_get_of_not_mem .candidates kind state notCandidates) ▸ before
  | outboundWelcomeMsgIds =>
      simp only [run, copyOutboundWelcomeMsgIds]
      split
      · split
        · next accepted =>
            rw [Normalization.put_normalized]
            apply holds_set before
            intro same
            rw [welcomeTyped same]
            exact accepted
        · exact before
      · exact before
  | outboundMessages =>
      simp only [run, copyOutboundMessages]
      split
      · exact before
      · next messages found =>
          have scanned : (scanOutbound 0 messages ⟨[], [], []⟩).Identified :=
            scanOutbound_identified 0 messages
              ⟨List.forall_mem_nil _, fun filled => absurd rfl filled⟩
          generalize scanOutbound 0 messages ⟨[], [], []⟩ = scan at scanned ⊢
          have welcomed : column.1 = lit "outbound_welcome_msg_ids" →
              column.2.accepts (.list scan.welcomeIds) = true := by
            intro same
            rw [welcomeTyped same]
            simpa [CopyType.accepts] using scanned.welcomeIds
          have sent : scan.outboundMsgId ≠ [] → column.1 = lit "outbound_msg_id" →
              column.2.accepts (.str scan.outboundMsgId) = true := by
            intro filled same
            rw [sentTyped same]
            exact scanned.outboundMsgId filled
          split
          · split
            · next filled =>
                rw [Normalization.put_normalized, Normalization.put_normalized]
                exact holds_set (holds_set before (sent filled.1)) welcomed
            · rw [Normalization.put_normalized]
              exact holds_set before welcomed
          · split
            · next filled =>
                rw [Normalization.put_normalized]
                exact holds_set before (sent filled.1)
            · exact before
      · exact before

theorem normalizeKind_holds (eventType : Str) (kind : Dict) {state : Normalization}
    (listed : column ∈ idColumnTypes)
    (before : column.2.Holds (state.normalized.get column.1)) :
    column.2.Holds ((normalizeKind eventType kind state).normalized.get column.1) := by
  have typed : ∀ copy ∈ kindCopies eventType, copy.typesColumn column = true := by
    intro copy member
    unfold kindCopies at member
    cases found : kindBranches.lookup eventType with
    | none => simp [found] at member
    | some copies =>
        rw [found, Option.getD_some] at member
        obtain ⟨earlier, later, split, -⟩ := List.lookup_eq_some_iff.mp found
        exact (typesColumn_all column listed).1 (eventType, copies) (by simp [split]) copy member
  unfold normalizeKind
  generalize kindCopies eventType = copies at typed
  induction copies generalizing state with
  | nil => exact before
  | cons copy rest inductionHypothesis =>
      rw [List.foldl_cons]
      apply inductionHypothesis
      · exact copy.run_holds kind listed (typed copy List.mem_cons_self) before
      · exact fun other member => typed other (List.mem_cons_of_mem copy member)

/-- The id columns of an accepted event hold nothing but ids. -/
theorem normalizeEvent_holds {data kind : Dict} {kindType : Str} {variant : Schema}
    (classified : ClassifiedEvent data kind kindType variant) (fits : EnvelopeFits data)
    (listed : column ∈ idColumnTypes) :
    column.2.Holds ((normalizeEvent data).normalized.get column.1) := by
  obtain ⟨-, actionTyped, objectTyped, notEnvelope, notWritten, -⟩ := typesColumn_all column listed
  simp only [List.mem_cons, List.not_mem_nil, or_false, not_or] at notWritten
  obtain ⟨notRawContext, notOperation, notHuman, notRaw, notType⟩ := notWritten
  have envelope : column.2.Holds ((normalizeEnvelope data).normalized.get column.1) := by
    rw [normalizeEnvelope_get_of_not_mem fits notEnvelope]
    exact .inl rfl
  have context : column.2.Holds ((normalizeContext (data.get "context")
      (normalizeEnvelope data)).normalized.get column.1) := by
    unfold normalizeContext
    split
    · exact envelope
    · next fields found =>
        apply runRules_holds _ objectTyped
        have operated : column.2.Holds (((copyContextStr "operation_id"
            "context_operation_id").run fields
              ((normalizeEnvelope data).put "raw_context" (.dict fields))).normalized.get
                column.1) := by
          rw [CopyRule.run_get_of_ne _ _ _ notOperation, Normalization.put_normalized,
            Dict.get_set_of_ne notRawContext]
          exact envelope
        unfold normalizeHumanAction
        split
        · exact operated
        · apply runRules_holds _ actionTyped
          rw [Normalization.put_normalized, Dict.get_set_of_ne notHuman]
          exact operated
        · exact operated
    · exact envelope
  rw [normalizeEvent_of_classified classified]
  apply normalizeKind_holds kindType kind listed
  rw [beforeKind, Normalization.put_normalized, Dict.get_set_of_ne notType,
    Normalization.put_normalized, Dict.get_set_of_ne notRaw]
  exact context

/-- The list columns of an accepted event hold nothing but ids. -/
theorem normalizeEvent_areIds {data kind : Dict} {kindType : Str} {variant : Schema} {field : Str}
    (classified : ClassifiedEvent data kind kindType variant) (fits : EnvelopeFits data)
    (listed : field ∈ idColumns) : AreIds ((normalizeEvent data).normalized.get field) := by
  have typed : ∀ field ∈ idColumns, (field, CopyType.messageIdList) ∈ idColumnTypes := by decide
  exact areIds_of_holds (normalizeEvent_holds classified fits (typed field listed))

end Typed

/-! ### The columns of an accepted event -/

/-- The branch begins with the copy of the message id, and copies it once. -/
def startsWithMsgId : List Copy → Bool
  | .field rule :: rest =>
      rule.field == lit "msg_id" && rule.dest == lit "msg_id" && rule.mistyped.isSome &&
        rest.all fun copy => !copy.dests.contains (lit "msg_id")
  | _ => false

/-- The types whose kind lists outbound messages. -/
def sendingTypes : List Str := ["send_outcome", "create_group_outcome"]

/-- The variants, read for the members that hold message ids. -/
theorem auditEventKinds_ids : ∀ entry ∈ auditEventKinds,
    ((entry.2.property "msg_id").isSome = true → startsWithMsgId (kindCopies entry.1) = true) ∧
      ((entry.2.property "outbound_messages").isSome = true → entry.1 ∈ sendingTypes) ∧
      ((entry.2.property "outbound_messages").all fun schema => schema.element.isSome) = true ∧
      entry.2.property "outbound_msg_id" = none ∧
      entry.2.property "outbound_welcome_msg_ids" = none := by
  decide +kernel

/-- The columns of message ids that the branches of the sending types leave alone. -/
theorem sendingTypes_apart : ∀ kindType ∈ sendingTypes,
    ∀ field ∈ [lit "msg_id", lit "invalidated_msg_id", lit "human_action_message_ids"],
      ∀ copy ∈ kindCopies kindType, field ∉ copy.dests := by
  decide +kernel

/-- No statement before the branch writes these columns. -/
theorem idColumns_fresh :
    ∀ field ∈ [lit "msg_id", lit "outbound_msg_id", lit "invalidated_msg_id",
        lit "outbound_welcome_msg_ids"],
      field ∉ envelopeFields ∧ field ∉ contextDests ∧ field ≠ lit "raw_kind" ∧
        field ≠ lit "event_type" := by
  decide +kernel

section Columns

variable {data kind : Dict} {kindType : Str} {variant : Schema}

theorem beforeKind_blank (fits : EnvelopeFits data) {field : Str}
    (fresh : field ∈ [lit "msg_id", lit "outbound_msg_id", lit "invalidated_msg_id",
      lit "outbound_welcome_msg_ids"]) :
    (beforeKind data kind kindType).normalized.get field = .null := by
  obtain ⟨notEnvelope, notContext, notRaw, notType⟩ := idColumns_fresh field fresh
  rw [beforeKind, Normalization.put_normalized, Dict.get_set_of_ne notType,
    Normalization.put_normalized, Dict.get_set_of_ne notRaw,
    normalizeContext_get_of_not_mem _ _ notContext, normalizeEnvelope_get_of_not_mem fits notEnvelope]

/-- A member no variant lists is absent. -/
theorem ClassifiedEvent.get_of_unlisted (classified : ClassifiedEvent data kind kindType variant)
    {name : Str} (unlisted : variant.property name = none) : kind.lookup name = none := by
  rcases Schema.property_cases classified.variant_valid name with
    absent | ⟨inner, value, listed, -⟩
  · exact absent
  · rw [unlisted] at listed
    cases listed

/-- The message id of the kind is in its column. -/
theorem normalizeEvent_get_msgId (classified : ClassifiedEvent data kind kindType variant)
    (fits : EnvelopeFits data) (clean : (normalizeEvent data).errors = []) {msgId : Str}
    (found : kind.get "msg_id" = .str msgId) :
    (normalizeEvent data).normalized.get "msg_id" = .str msgId := by
  have listed : (variant.property "msg_id").isSome = true := by
    rcases Schema.property_cases classified.variant_valid (lit "msg_id") with
      absent | ⟨inner, value, listed, -⟩
    · simp [Dict.get, absent] at found
    · rw [listed]
      rfl
  have starts := (auditEventKinds_ids (kindType, variant) classified.mem).1 listed
  rw [normalizeEvent_of_classified classified, normalizeKind] at clean ⊢
  cases copies : kindCopies kindType with
  | nil => simp [copies, startsWithMsgId] at starts
  | cons copy rest =>
      cases copy with
      | field rule =>
          simp only [copies, startsWithMsgId, Bool.and_eq_true, beq_iff_eq] at starts
          obtain ⟨⟨⟨reads, writes⟩, reports⟩, apart⟩ := starts
          have untouched : ∀ copy ∈ rest, lit "msg_id" ∉ copy.dests := by
            simpa using apart
          rw [copies, List.foldl_cons] at clean
          rw [List.foldl_cons, runCopies_get_of_apart kind _ untouched]
          have ruleClean : rule.errorsFor kind = [] := by
            have extended := runCopies_errors_extend rest kind
              (Copy.run kind (beforeKind data kind kindType) (.field rule))
            rw [clean, List.prefix_nil, Copy.run, CopyRule.run_errors] at extended
            exact (List.append_eq_nil_iff.mp extended).2
          have blank : (beforeKind data kind kindType).normalized.get "msg_id" = .null :=
            beforeKind_blank fits (by simp)
          rw [← writes] at blank
          have copied := rule.run_get_of_clean reports ruleClean blank
          rw [writes, reads, found] at copied
          exact copied
      | within | relayUrl | outboundMessages | outboundWelcomeMsgIds | winner | peelerOutcome
      | candidates => simp [copies, startsWithMsgId] at starts

/-- What the columns keep of the outbound messages of an accepted event. -/
structure OutboundColumns (kind : Dict) (normalized : Dict) : Prop where
  identified : AllIdentified (kind.get "outbound_messages").listOrEmpty
  sent : valueIfStr (normalized.get "outbound_msg_id") = firstId (sentIds kind)
  welcomed : (normalized.get "outbound_welcome_msg_ids").listOrEmpty = welcomeIds kind

/-- The outbound messages of an accepted event are a list when there are any. -/
theorem ClassifiedEvent.outbound_cases (classified : ClassifiedEvent data kind kindType variant) :
    kind.get "outbound_messages" = .null ∨
      kindType ∈ sendingTypes ∧ ∃ messages, kind.get "outbound_messages" = .list messages := by
  obtain ⟨-, sending, isArray, -⟩ := auditEventKinds_ids (kindType, variant) classified.mem
  rcases Schema.property_cases classified.variant_valid (lit "outbound_messages") with
    absent | ⟨inner, value, listed, present, valid⟩
  · exact .inl (by rw [Dict.get, absent]; rfl)
  · refine .inr ⟨sending (by rw [listed]; rfl), ?_⟩
    rw [listed, Option.all_some] at isArray
    cases inner with
    | array items =>
        obtain ⟨messages, rfl⟩ := Schema.eq_list_of_valid_array valid
        exact ⟨messages, by rw [Dict.get, present]; rfl⟩
    | string | pattern | integer | boolean | const | enum | object =>
        simp [Schema.element] at isArray

/-- Statements that leave the columns of outbound messages alone, and then copy these messages with
nothing to complain about. -/
theorem outboundColumns_of_clean {before after : List Copy} {start : Normalization}
    (classified : ClassifiedEvent data kind kindType variant)
    (apart : ∀ field ∈ [lit "outbound_msg_id", lit "outbound_welcome_msg_ids"],
      ∀ copy ∈ before, field ∉ copy.dests)
    (copies : ∀ state, after.foldl (fun state copy => copy.run kind state) state =
      copyOutboundMessages kind state)
    (clean : ((before ++ after).foldl (fun state copy => copy.run kind state) start).errors = [])
    (unsent : start.normalized.get "outbound_msg_id" = .null)
    (unwelcomed : start.normalized.get "outbound_welcome_msg_ids" = .null) :
    OutboundColumns kind
      ((before ++ after).foldl (fun state copy => copy.run kind state) start).normalized := by
  have noSent := runCopies_get_of_apart kind start (apart (lit "outbound_msg_id") (by simp))
  have noWelcome := runCopies_get_of_apart kind start
    (apart (lit "outbound_welcome_msg_ids") (by simp))
  rw [List.foldl_append, copies] at clean ⊢
  obtain ⟨identified, sent, welcomed⟩ := copyOutboundMessages_of_clean
    (classified.outbound_cases.imp id And.right) clean (noSent.trans unsent)
    (noWelcome.trans unwelcomed)
  exact ⟨identified, sent, welcomed⟩

theorem normalizeEvent_outboundColumns (classified : ClassifiedEvent data kind kindType variant)
    (fits : EnvelopeFits data) (clean : (normalizeEvent data).errors = [])
    (sends : kindType ∈ sendingTypes) :
    OutboundColumns kind (normalizeEvent data).normalized := by
  obtain ⟨-, -, -, noSent, noWelcomed⟩ := auditEventKinds_ids (kindType, variant) classified.mem
  have sentAbsent : kind.get "outbound_msg_id" = .null := by
    rw [Dict.get, classified.get_of_unlisted noSent]
    rfl
  have welcomedAbsent : kind.hasKey "outbound_welcome_msg_ids" = false := by
    rw [Dict.hasKey, classified.get_of_unlisted noWelcomed]
    rfl
  have unsent : (beforeKind data kind kindType).normalized.get "outbound_msg_id" = .null :=
    beforeKind_blank fits (by simp)
  have unwelcomed : (beforeKind data kind kindType).normalized.get "outbound_welcome_msg_ids" =
      .null := beforeKind_blank fits (by simp)
  rw [normalizeEvent_of_classified classified, normalizeKind] at clean ⊢
  simp only [sendingTypes, List.mem_cons, List.not_mem_nil, or_false] at sends
  rcases sends with rfl | rfl
  · have branch : kindCopies (lit "send_outcome") =
        [.field (copyStr "intent_kind"), .field (copyStr "result_kind")] ++
        [.field (copyOptionalMsgId "outbound_msg_id"), .outboundMessages,
          .outboundWelcomeMsgIds] := rfl
    rw [branch] at clean ⊢
    apply outboundColumns_of_clean classified (by decide +kernel) _ clean unsent unwelcomed
    intro state
    -- the schema admits neither of the flat members, so their copies do nothing
    have skipped : Copy.run kind state (.field (copyOptionalMsgId "outbound_msg_id")) = state := by
      simp [Copy.run, CopyRule.run, copyOptionalMsgId, copyMsgField, sentAbsent]
    simp only [List.foldl_cons, List.foldl_nil, skipped]
    simp [Copy.run, copyOutboundWelcomeMsgIds, welcomedAbsent]
  · have branch : kindCopies (lit "create_group_outcome") =
        [.field (copyStr "result_kind")] ++ [.outboundMessages] := rfl
    rw [branch] at clean ⊢
    apply outboundColumns_of_clean classified (by decide +kernel) _ clean unsent unwelcomed
    intro state
    rfl

/-- The ids the human action of the context lists. -/
def actedIds (data : Dict) : List Json :=
  (((data.get "context").dictOrEmpty.get "human_action").dictOrEmpty.get "message_ids").listOrEmpty

/-- A type whose branch leaves the column alone keeps what the context wrote. -/
theorem normalizeEvent_get_acted (classified : ClassifiedEvent data kind kindType variant)
    (fits : EnvelopeFits data) (clean : (normalizeEvent data).errors = [])
    (sends : kindType ∈ sendingTypes) :
    ((normalizeEvent data).normalized.get "human_action_message_ids").listOrEmpty =
      actedIds data := by
  obtain ⟨-, -, -, notEnvelope, notWritten, -⟩ :=
    typesColumn_all (lit "human_action_message_ids", .messageIdList) (by decide)
  simp only [List.mem_cons, List.not_mem_nil, or_false, not_or] at notWritten
  obtain ⟨notRawContext, notOperation, notHuman, notRaw, notType⟩ := notWritten
  have notObject : lit "human_action_message_ids" ∉ contextObjectRules.map (·.dest) := by
    decide +kernel
  have contextClean : (normalizeContext (data.get "context") (normalizeEnvelope data)).errors = [] := by
    have extended := normalizeKind_errors_extend kindType kind (beforeKind data kind kindType)
    rw [← normalizeEvent_of_classified classified, clean, List.prefix_nil] at extended
    exact extended
  rw [normalizeEvent_of_classified classified, normalizeKind,
    runCopies_get_of_apart kind _ (sendingTypes_apart kindType sends _ (by simp)), beforeKind,
    Normalization.put_normalized, Dict.get_set_of_ne notType, Normalization.put_normalized,
    Dict.get_set_of_ne notRaw, actedIds]
  rcases classified.context_cases with absent | ⟨fields, found, valid⟩
  · rw [absent]
    simp only [normalizeContext, normalizeEnvelope_get_of_not_mem fits notEnvelope]
    rfl
  · rw [found] at contextClean ⊢
    simp only [normalizeContext, Json.dictOrEmpty] at contextClean ⊢
    have blank : ((copyContextStr "operation_id" "context_operation_id").run fields
        ((normalizeEnvelope data).put "raw_context" (.dict fields))).normalized.get
          "human_action_message_ids" = .null := by
      rw [CopyRule.run_get_of_ne _ _ _ notOperation, Normalization.put_normalized,
        Dict.get_set_of_ne notRawContext, normalizeEnvelope_get_of_not_mem fits notEnvelope]
    rw [runRules_errors, List.append_eq_nil_iff] at contextClean
    replace contextClean := contextClean.1
    rw [runRules_get_of_not_mem _ _ _ notObject]
    generalize (copyContextStr "operation_id" "context_operation_id").run fields
      ((normalizeEnvelope data).put "raw_context" (.dict fields)) = operated at blank contextClean ⊢
    have action : Dict.get fields "human_action" = .null ∨
        ∃ humanAction, Dict.get fields "human_action" = .dict humanAction := by
      rcases Schema.object_property_cases valid (List.mem_cons_of_mem _ List.mem_cons_self) with
        missing | ⟨humanAction, present, -⟩
      · exact .inl missing
      · exact .inr ⟨humanAction, present⟩
    rcases action with missing | ⟨humanAction, present⟩
    · simp only [normalizeHumanAction, missing, blank]
      rfl
    · simp only [normalizeHumanAction, present] at contextClean ⊢
      have member : copyOptionalMsgIdList "message_ids" "human_action_message_ids" ∈
          copyHumanActionFields := by simp [copyHumanActionFields]
      have copied := runRules_get_of_clean (by decide +kernel) member rfl contextClean
        ((Dict.get_set_of_ne notHuman).trans blank)
      exact congrArg Json.listOrEmpty copied

end Columns

/-! ### The references of the projection -/

/-- A reference to the message is among the references. -/
def NamesRef (refs : List MessageRef) (messageId : Str) : Prop := ∃ ref ∈ refs, ref.msgId = messageId

theorem namesRef_addRef {refs : List MessageRef} {msgId artifactKind : Json} {messageId : Str} :
    NamesRef (addRef refs msgId artifactKind) messageId ↔
      NamesRef refs messageId ∨ (msgId = .str messageId ∧ messageId ≠ []) := by
  unfold addRef
  cases msgId with
  | str identifier =>
      simp only
      split
      · next fresh =>
          simp only [NamesRef, List.mem_append, List.mem_singleton, or_and_right, exists_or,
            exists_eq_left, Json.str.injEq]
          apply or_congr_right
          constructor
          · rintro rfl
            exact ⟨rfl, fresh.1⟩
          · exact And.left
      · next known =>
          constructor
          · exact .inl
          · rintro (named | ⟨same, nonEmpty⟩)
            · exact named
            · cases same
              by_contra unnamed
              refine known ⟨nonEmpty, ?_⟩
              intro ref member same
              exact unnamed ⟨ref, member, same⟩
  | null | bool | int | float | list | dict => simp

theorem namesRef_foldl_addRef {refs : List MessageRef} {items : List Json} {artifactKind : Json}
    {messageId : Str} :
    NamesRef (items.foldl (addRef · · artifactKind) refs) messageId ↔
      NamesRef refs messageId ∨ (.str messageId ∈ items ∧ messageId ≠ []) := by
  induction items generalizing refs with
  | nil => simp
  | cons item rest inductionHypothesis =>
      rw [List.foldl_cons, inductionHypothesis, namesRef_addRef, List.mem_cons, or_assoc,
        ← or_and_right, @eq_comm _ item]

/-- Some outbound message of the list has the id. -/
def SendsId (messages : List Json) (messageId : Str) : Prop :=
  ∃ fields, .dict fields ∈ messages ∧ Dict.get fields "msg_id" = .str messageId

theorem namesRef_foldl_addOutboundRef {refs : List MessageRef} {messages : List Json}
    {messageId : Str} :
    NamesRef (messages.foldl addOutboundRef refs) messageId ↔
      NamesRef refs messageId ∨ (SendsId messages messageId ∧ messageId ≠ []) := by
  induction messages generalizing refs with
  | nil => simp [SendsId]
  | cons message rest inductionHypothesis =>
      rw [List.foldl_cons, inductionHypothesis]
      cases message with
      | dict fields =>
          rw [addOutboundRef, namesRef_addRef, or_assoc, ← or_and_right]
          simp [SendsId, or_and_right, exists_or]
      | null | bool | int | float | str | list => simp [addOutboundRef, SendsId]

/-- The messages an event refers to, source by source. -/
theorem namesRef_messageRefsForEvent {event : AuditEvent} {messageId : Str} :
    NamesRef (messageRefsForEvent event) messageId ↔
      messageId ≠ [] ∧ (messageId ∈ [event.msgId, event.outboundMsgId, event.invalidatedMsgId] ∨
        .str messageId ∈ event.outboundWelcomeMsgIds ∨
        .str messageId ∈ event.humanActionMessageIds ∨
        event.kind.get "msg_id" = .str messageId ∨
        SendsId (event.kind.get "outbound_messages").listOrEmpty messageId) := by
  have nothing : ¬ NamesRef [] messageId := by simp [NamesRef]
  simp only [messageRefsForEvent, namesRef_foldl_addOutboundRef, namesRef_addRef,
    namesRef_foldl_addRef, nothing, false_or, Json.str.injEq, List.mem_cons, List.not_mem_nil,
    or_false, @eq_comm _ _ messageId]
  tauto

/-! ### Agreement -/

/-- The ids the analysis reads are those the projection refers to. -/
def IdsAgree (event : AuditEvent) : Prop :=
  ∀ messageId, messageId ∈ eventMessageIdValues event ↔
    ∃ ref ∈ messageRefsForEvent event, messageId = .str ref.msgId

/-- Each message the event sends that is not a welcome carries the id of the first one, or an id that
the event also names as a welcome or in the human action of its context. -/
def KeepsSentIds (event : AuditEvent) : Prop :=
  let data := event.rawEvent.dictOrEmpty
  let kind := (data.get "kind").dictOrEmpty
  ∀ messageId ∈ sentIds kind, (sentIds kind).head? = some messageId ∨
    messageId ∈ welcomeIds kind ∨ messageId ∈ actedIds data

theorem sendsId_iff {messages : List Json} {messageId : Str} :
    SendsId messages messageId ↔
      .str messageId ∈ outboundIds false messages ∨ .str messageId ∈ outboundIds true messages := by
  have listed : ∀ welcome, .str messageId ∈ outboundIds welcome messages ↔
      ∃ fields, .dict fields ∈ messages ∧
        decide (Dict.get fields "artifact_kind" = .str "welcome") = welcome ∧
          Dict.get fields "msg_id" = .str messageId := by
    intro welcome
    simp only [outboundIds, List.mem_filterMap]
    constructor
    · rintro ⟨message, member, found⟩
      split at found
      · next fields =>
          split_ifs at found with same
          exact ⟨fields, member, same, Option.some.inj found⟩
      · cases found
    · rintro ⟨fields, member, same, found⟩
      exact ⟨.dict fields, member, by simp only [if_pos same, found]⟩
  rw [listed, listed]
  constructor
  · rintro ⟨fields, member, found⟩
    cases welcome : decide (Dict.get fields "artifact_kind" = .str "welcome") with
    | false => exact .inl ⟨fields, member, welcome, found⟩
    | true => exact .inr ⟨fields, member, welcome, found⟩
  · rintro (⟨fields, member, -, found⟩ | ⟨fields, member, -, found⟩)
    · exact ⟨fields, member, found⟩
    · exact ⟨fields, member, found⟩

/-- The ids of identified messages are texts that are not blank. -/
theorem exists_text_of_mem_outboundIds {messages : List Json} (identified : AllIdentified messages)
    {welcome : Bool} {messageId : Json} (member : messageId ∈ outboundIds welcome messages) :
    ∃ text, messageId = .str text ∧ text ≠ [] := by
  obtain ⟨message, messageMember, found⟩ := List.mem_filterMap.mp member
  obtain ⟨fields, text, rfl, read, valid⟩ := identified message messageMember
  simp only [read] at found
  split_ifs at found
  exact ⟨text, (Option.some.inj found).symm, ne_nil_of_isValidMessageId valid⟩

/-- The item of an id list, as the text it is. -/
theorem AreIds.exists_text {value item : Json} (ids : AreIds value)
    (member : item ∈ value.listOrEmpty) : ∃ text, item = .str text ∧ text ≠ [] := by
  have valid := ids item member
  cases item with
  | str text => exact ⟨text, rfl, ne_nil_of_isValidMessageId valid⟩
  | null | bool | int | float | list | dict => simp [isValidMessageId, isHexOfLength] at valid

/-- When the lists hold ids, the two readings differ by what the raw kind alone names. -/
theorem idsAgree_iff_raw {event : AuditEvent}
    (welcomed : ∀ item ∈ event.outboundWelcomeMsgIds, ∃ text, item = .str text ∧ text ≠ [])
    (acted : ∀ item ∈ event.humanActionMessageIds, ∃ text, item = .str text ∧ text ≠ []) :
    IdsAgree event ↔ ∀ text : Str, text ≠ [] →
      (event.kind.get "msg_id" = .str text ∨
        SendsId (event.kind.get "outbound_messages").listOrEmpty text) →
          text ∈ [event.msgId, event.outboundMsgId, event.invalidatedMsgId] ∨
            .str text ∈ event.outboundWelcomeMsgIds ∨ .str text ∈ event.humanActionMessageIds := by
  have named : ∀ messageId : Json,
      (∃ ref ∈ messageRefsForEvent event, messageId = .str ref.msgId) ↔
      ∃ text, messageId = .str text ∧ NamesRef (messageRefsForEvent event) text := by
    intro messageId
    constructor
    · rintro ⟨ref, member, same⟩
      exact ⟨ref.msgId, same, ref, member, rfl⟩
    · rintro ⟨text, same, ref, member, rfl⟩
      exact ⟨ref, member, same⟩
  have read : ∀ messageId, messageId ∈ eventMessageIdValues event ↔
      ∃ text, messageId = .str text ∧ text ≠ [] ∧
        (text ∈ [event.msgId, event.outboundMsgId, event.invalidatedMsgId] ∨
          .str text ∈ event.outboundWelcomeMsgIds ∨ .str text ∈ event.humanActionMessageIds) := by
    intro messageId
    simp only [eventMessageIdValues, List.mem_append, List.mem_map, List.mem_filter,
      decide_eq_true_eq]
    constructor
    · rintro ((⟨text, ⟨member, nonEmpty⟩, rfl⟩ | member) | member)
      · exact ⟨text, rfl, nonEmpty, .inl member⟩
      · obtain ⟨text, rfl, nonEmpty⟩ := welcomed messageId member
        exact ⟨text, rfl, nonEmpty, .inr (.inl member)⟩
      · obtain ⟨text, rfl, nonEmpty⟩ := acted messageId member
        exact ⟨text, rfl, nonEmpty, .inr (.inr member)⟩
    · rintro ⟨text, rfl, nonEmpty, member | member | member⟩
      · exact .inl (.inl ⟨text, ⟨member, nonEmpty⟩, rfl⟩)
      · exact .inl (.inr member)
      · exact .inr member
  constructor
  · intro agree text nonEmpty raw
    have referred := (named (.str text)).mpr
      ⟨text, rfl, namesRef_messageRefsForEvent.mpr ⟨nonEmpty, .inr (.inr (.inr raw))⟩⟩
    obtain ⟨same, equal, -, member⟩ := (read _).mp ((agree _).mpr referred)
    cases equal
    exact member
  · intro covered messageId
    rw [named, read]
    apply exists_congr
    intro text
    apply and_congr_right
    intro _
    rw [namesRef_messageRefsForEvent]
    apply and_congr_right
    intro nonEmpty
    constructor
    · rintro (member | member | member)
      · exact .inl member
      · exact .inr (.inl member)
      · exact .inr (.inr (.inl member))
    · rintro (member | member | member | raw)
      · exact .inl member
      · exact .inr (.inl member)
      · exact .inr (.inr member)
      · exact covered text nonEmpty raw

/-- The first id and the listed ids cover what is sent exactly when each sent id is among them. -/
theorem coversSent_iff {kind : Dict} (acted : List Json)
    (identified : AllIdentified (kind.get "outbound_messages").listOrEmpty) :
    (∀ text : Str, text ≠ [] → SendsId (kind.get "outbound_messages").listOrEmpty text →
        text ∈ [valueIfStr .null, firstId (sentIds kind), valueIfStr .null] ∨
          .str text ∈ welcomeIds kind ∨ .str text ∈ acted) ↔
      ∀ messageId ∈ sentIds kind, (sentIds kind).head? = some messageId ∨
        messageId ∈ welcomeIds kind ∨ messageId ∈ acted := by
  have isFirst : ∀ text : Str, text ≠ [] →
      (text ∈ [valueIfStr .null, firstId (sentIds kind), valueIfStr .null] ↔
        (sentIds kind).head? = some (.str text)) := by
    intro text nonEmpty
    have notBlank : ¬ text = valueIfStr .null := nonEmpty
    simp only [List.mem_cons, List.not_mem_nil, or_false, notBlank, false_or]
    cases first : (sentIds kind).head? with
    | none => simp [firstId, first, nonEmpty]
    | some messageId =>
        have member : messageId ∈ sentIds kind := List.mem_of_mem_head? first
        obtain ⟨other, rfl, -⟩ := exists_text_of_mem_outboundIds identified member
        simp [firstId, first, valueIfStr, eq_comm]
  constructor
  · intro covered messageId member
    obtain ⟨text, rfl, nonEmpty⟩ := exists_text_of_mem_outboundIds identified member
    have found := covered text nonEmpty (sendsId_iff.mpr (.inl member))
    rwa [isFirst text nonEmpty] at found
  · intro kept text nonEmpty sends
    rw [isFirst text nonEmpty]
    rcases sendsId_iff.mp sends with sent | welcomed
    · exact kept (.str text) sent
    · exact .inr (.inl welcomed)

/-- An event carries nothing but message ids where its columns are those of a normalized one. -/
theorem isValidMessageId_of_mem {event : AuditEvent} {data kind : Dict} {kindType : Str}
    {variant : Schema} (classified : ClassifiedEvent data kind kindType variant)
    (fits : EnvelopeFits data)
    (columns : ∀ column ∈ idColumnTypes,
      event.normalized.get column.1 = (normalizeEvent data).normalized.get column.1)
    {msgId : Json} (named : msgId ∈ eventMessageIdValues event) :
    isValidMessageId msgId = true := by
  have holds : ∀ column ∈ idColumnTypes, column.2.Holds (event.normalized.get column.1) := by
    intro column listed
    rw [columns column listed]
    exact normalizeEvent_holds classified fits listed
  have single : ∀ field : Str, (field, CopyType.messageId) ∈ idColumnTypes →
      event.text field ≠ [] → isValidMessageId (.str (event.text field)) = true := by
    intro field listed filled
    rcases holds _ listed with blank | accepted
    · rw [AuditEvent.text, blank] at filled
      exact absurd rfl filled
    · cases value : event.normalized.get field with
      | str text =>
          rw [value] at accepted
          rw [AuditEvent.text, value]
          exact accepted
      | null | bool | int | float | list | dict =>
          simp [AuditEvent.text, value, valueIfStr] at filled
  simp only [eventMessageIdValues, List.mem_append, List.mem_map, List.mem_filter,
    decide_eq_true_eq, List.mem_cons, List.not_mem_nil, or_false] at named
  rcases named with (⟨text, ⟨rfl | rfl | rfl, filled⟩, rfl⟩ | welcomed) | acted
  · exact single (lit "msg_id") (by decide) filled
  · exact single (lit "outbound_msg_id") (by decide) filled
  · exact single (lit "invalidated_msg_id") (by decide) filled
  · exact areIds_of_holds (holds (lit "outbound_welcome_msg_ids", .messageIdList) (by decide)) _
      welcomed
  · exact areIds_of_holds (holds (lit "human_action_message_ids", .messageIdList) (by decide)) _
      acted

/-- The columns that hold message ids are stored. -/
theorem idColumns_persisted : ∀ field ∈ [lit "msg_id", lit "outbound_msg_id",
    lit "invalidated_msg_id", lit "outbound_welcome_msg_ids", lit "human_action_message_ids"],
      persistedNormalizedFields.contains field = true := by
  decide +kernel

/-- The row of an accepted line: the two readings agree exactly when the columns keep what it sends. -/
theorem idsAgree_row_iff {line : ParsedLine} (accepted : AcceptedLine line) (eventId fileId : Nat)
    (groupId : Option Nat) :
    IdsAgree (eventValues eventId fileId groupId line) ↔
      KeepsSentIds (eventValues eventId fileId groupId line) := by
  obtain ⟨data, found, clean, normalized⟩ := accepted.source
  obtain ⟨kind, kindType, variant, classified, fits⟩ := classified_of_clean clean
  have present : line.data.isSome = true := by rw [found]; rfl
  have column : ∀ field ∈ [lit "msg_id", lit "outbound_msg_id", lit "invalidated_msg_id",
      lit "outbound_welcome_msg_ids", lit "human_action_message_ids"],
      (eventValues eventId fileId groupId line).normalized.get field =
        (normalizeEvent data).normalized.get field := by
    intro field member
    rw [eventValues_column present (idColumns_persisted field member), normalized]
  have rowEvent : (eventValues eventId fileId groupId line).rawEvent = .dict data := by
    simp [eventValues, found]
  have rowKind : (eventValues eventId fileId groupId line).kind = kind := by
    have raw : line.normalized.get "raw_kind" = .dict kind := by
      rw [normalized, normalizeEvent_get_rawKind classified]
    have kindNonEmpty : kind ≠ [] := by
      rintro rfl
      have typed := classified.typeFound
      simp [Dict.get] at typed
    simp [AuditEvent.kind, eventValues, present, raw, Json.orElse, Json.truthy, kindNonEmpty,
      Json.dictOrEmpty]
  have dataKind : (data.get "kind").dictOrEmpty = kind := by rw [classified.kindFound]; rfl
  have welcomedIds : AreIds ((normalizeEvent data).normalized.get "outbound_welcome_msg_ids") :=
    normalizeEvent_areIds classified fits (by decide)
  have actedAreIds : AreIds ((normalizeEvent data).normalized.get "human_action_message_ids") :=
    normalizeEvent_areIds classified fits (by decide)
  have welcomeColumn : (eventValues eventId fileId groupId line).outboundWelcomeMsgIds =
      ((normalizeEvent data).normalized.get "outbound_welcome_msg_ids").listOrEmpty :=
    congrArg Json.listOrEmpty (column (lit "outbound_welcome_msg_ids") (by simp))
  have actedColumn : (eventValues eventId fileId groupId line).humanActionMessageIds =
      ((normalizeEvent data).normalized.get "human_action_message_ids").listOrEmpty :=
    congrArg Json.listOrEmpty (column (lit "human_action_message_ids") (by simp))
  have msgColumn : (eventValues eventId fileId groupId line).msgId =
      valueIfStr ((normalizeEvent data).normalized.get "msg_id") :=
    congrArg valueIfStr (column (lit "msg_id") (by simp))
  have sentColumn : (eventValues eventId fileId groupId line).outboundMsgId =
      valueIfStr ((normalizeEvent data).normalized.get "outbound_msg_id") :=
    congrArg valueIfStr (column (lit "outbound_msg_id") (by simp))
  have invalidatedColumn : (eventValues eventId fileId groupId line).invalidatedMsgId =
      valueIfStr ((normalizeEvent data).normalized.get "invalidated_msg_id") :=
    congrArg valueIfStr (column (lit "invalidated_msg_id") (by simp))
  rw [idsAgree_iff_raw (fun item member => welcomedIds.exists_text (welcomeColumn ▸ member))
    (fun item member => actedAreIds.exists_text (actedColumn ▸ member)), KeepsSentIds, rowEvent,
    rowKind, msgColumn, sentColumn, invalidatedColumn, welcomeColumn, actedColumn]
  rcases classified.outbound_cases with absent | ⟨sends, -⟩
  · -- nothing is sent, and the message id of the kind has its column
    have nothing : sentIds (((Json.dict data).dictOrEmpty.get "kind").dictOrEmpty) = [] := by
      rw [show (Json.dict data).dictOrEmpty = data from rfl, dataKind, sentIds, absent]
      rfl
    rw [nothing, absent]
    apply iff_of_true _ (by simp)
    rintro text - (msgId | ⟨fields, member, -⟩)
    · rw [normalizeEvent_get_msgId classified fits clean msgId]
      exact .inl List.mem_cons_self
    · cases member
  · obtain ⟨identified, sent, welcomed⟩ :=
      normalizeEvent_outboundColumns classified fits clean sends
    have untouched : ∀ field ∈ [lit "msg_id", lit "invalidated_msg_id"],
        (normalizeEvent data).normalized.get field = .null := by
      intro field member
      have listed : field ∈ [lit "msg_id", lit "invalidated_msg_id",
          lit "human_action_message_ids"] := by
        simp only [List.mem_cons, List.not_mem_nil, or_false] at member ⊢
        tauto
      have fresh : field ∈ [lit "msg_id", lit "outbound_msg_id", lit "invalidated_msg_id",
          lit "outbound_welcome_msg_ids"] := by
        simp only [List.mem_cons, List.not_mem_nil, or_false] at member ⊢
        tauto
      rw [normalizeEvent_of_classified classified, normalizeKind,
        runCopies_get_of_apart kind _ (sendingTypes_apart kindType sends field listed),
        beforeKind_blank fits fresh]
    have noMsgId : ∀ text, kind.get "msg_id" ≠ .str text := by
      intro text msgId
      have copied := normalizeEvent_get_msgId classified fits clean msgId
      rw [untouched (lit "msg_id") (by simp)] at copied
      cases copied
    have keeps := coversSent_iff (actedIds data) identified
    rw [untouched (lit "msg_id") (by simp), untouched (lit "invalidated_msg_id") (by simp), sent,
      welcomed, normalizeEvent_get_acted classified fits clean sends]
    simp only [noMsgId, false_or, show (Json.dict data).dictOrEmpty = data from rfl, dataKind]
    exact keeps

/-! ### Runs -/

/-- Every stored event is the row of an accepted line. -/
def RowsAccepted (store : Store) : Prop :=
  ∀ event ∈ store.events, ∃ line eventId fileId groupId, AcceptedLine line ∧
    event = eventValues eventId fileId groupId line

theorem RowsAccepted.perform {store : Store} (rows : RowsAccepted store) (env : Env)
    (operation : Operation) : RowsAccepted (store.perform env operation) := by
  have deleted : ∀ {fileIds next}, Deleted fileIds store next → RowsAccepted next := by
    intro fileIds next removed event member
    rw [removed.events] at member
    exact rows event (List.mem_of_mem_filter member)
  cases operation with
  | prune run =>
      obtain ⟨fileIds, -, removed⟩ := deleted_prune store run
      exact deleted removed
  | rebuild groupIds => exact deleted (deleted_rebuilds store groupIds)
  | upload upload =>
      rw [Store.perform]
      rcases afterUpload_cases env store upload with ⟨rejected, same⟩ | same |
        ⟨rawText, lines, stored⟩
      · rw [same]
        exact rows
      · rw [same]
        exact rows
      · intro event member
        rw [stored.events] at member
        rcases List.mem_append.mp member with old | new
        · exact rows event old
        · obtain ⟨line, lineMember, eventId, made⟩ := stored.created.origin event new
          exact ⟨line, eventId, _, _, stored.accepted line lineMember, made⟩

/-- For every event stored by any sequence of uploads, pruner runs and rebuilds: the analysis and the
delivery projection read the same ids exactly when the columns keep the ids of what it sends. -/
theorem idsAgree_iff (env : Env) (operations : List Operation) :
    ∀ event ∈ (run (Store.perform env) .empty operations).events,
      (IdsAgree event ↔ KeepsSentIds event) := by
  have preserved : ∀ store operation, RowsAccepted store →
      RowsAccepted (Store.perform env store operation) :=
    fun store operation rows => rows.perform env operation
  have start : RowsAccepted .empty := by simp [RowsAccepted, Store.empty]
  intro event member
  obtain ⟨line, eventId, fileId, groupId, accepted, rfl⟩ :=
    run_invariant preserved start operations event member
  exact idsAgree_row_iff accepted eventId fileId groupId

/-- An outbound message whose id repeats one digit. -/
def outboundText (digit : Char) (artifactKind : Str) : Str :=
  lit "\x7b\"msg_id\":\"" ++ List.replicate 64 digit.toNat ++ lit "\",\"artifact_kind\":\"" ++
    artifactKind ++ lit "\"\x7d"

/-- A record of a send that produced two messages. -/
def twoMessagesRecord (first second : Str) : Str :=
  recordText (lit "e") (lit "ab") 100 []
    (lit "\x7b\"type\":\"send_outcome\"," ++ lit "\"intent_kind\":\"app\"," ++
      lit "\"result_kind\":\"ok\"," ++ lit "\"outbound_messages\":[" ++ first ++ lit "," ++
      second ++ lit "]\x7d")

/-- A commit and its welcome. -/
def invitingRecord : Str :=
  twoMessagesRecord (outboundText '1' (lit "commit")) (outboundText '2' (lit "welcome"))

/-- A proposal and the commit that follows it. -/
def proposingRecord : Str :=
  twoMessagesRecord (outboundText '1' (lit "proposal")) (outboundText '2' (lit "commit"))

def sendingEnv : Env :=
  digestEnv
    [(proposingRecord, lit "772512c778507c8a510e6420ae471e4a" ++ lit "d046381f6412cae6a35ca51084149d0b"),
      (invitingRecord, lit "90ec14716d71f92e75a35130b509371c" ++ lit "a2f16a51ce113e437163b32a631f27e0")]

/-- The two readings of a commit with its welcome agree. -/
theorem idsAgree_iff_inviting :
    ∃ event ∈ (run (Store.perform sendingEnv) .empty
      [.upload (uploadOf [invitingRecord])]).events, IdsAgree event := by
  have keeps : ∃ event ∈ (run (Store.perform sendingEnv) .empty
      [.upload (uploadOf [invitingRecord])]).events, KeepsSentIds event := by
    unfold KeepsSentIds
    decide +kernel
  obtain ⟨event, member, kept⟩ := keeps
  exact ⟨event, member, (idsAgree_iff sendingEnv _ event member).mpr kept⟩

/-- The analysis does not see the commit that was sent after a proposal. -/
theorem idsAgree_fails_proposing :
    ∃ event ∈ (run (Store.perform sendingEnv) .empty
        [.upload (uploadOf [proposingRecord])]).events,
      eventMessageIdValues event = [.str (List.replicate 64 0x31)] ∧
        (messageRefsForEvent event).map (·.msgId) =
          [List.replicate 64 0x31, List.replicate 64 0x32] ∧
        ¬ IdsAgree event := by
  have readings : ∃ event ∈ (run (Store.perform sendingEnv) .empty
        [.upload (uploadOf [proposingRecord])]).events,
      eventMessageIdValues event = [.str (List.replicate 64 0x31)] ∧
        (messageRefsForEvent event).map (·.msgId) =
          [List.replicate 64 0x31, List.replicate 64 0x32] := by decide +kernel
  obtain ⟨event, member, read, referred⟩ := readings
  refine ⟨event, member, read, referred, ?_⟩
  intro agree
  have mentioned : List.replicate 64 0x32 ∈ (messageRefsForEvent event).map (·.msgId) := by
    rw [referred]
    simp
  obtain ⟨ref, refMember, same⟩ := List.mem_map.mp mentioned
  have listed := (agree (.str ref.msgId)).mpr ⟨ref, refMember, rfl⟩
  rw [read, same] at listed
  revert listed
  decide

end Goggles
