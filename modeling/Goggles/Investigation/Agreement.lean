/-
Module: Goggles.Investigation.Agreement
Purpose: The two readers agree: records stored in Loki under matching labels and supplied as JSONL
  lines select the same bodies for a group and give the same counts.
Trusted boundary: none beyond the modules it imports; what is assumed of the store is `StoredInLoki`
Main exports: Labelled, StoredInLoki, ReadersAgree, readersAgree
-/
import Goggles.Investigation.Jsonl
import Goggles.Investigation.Retrieval
import Goggles.Investigation.Selection

namespace Goggles

/-! ### Records and labels -/

/-- A record without a group has no text there. -/
theorem groupless_iff {body : List UInt8} {event : Dict} (parsed : parseBody body = .ok event) :
    (event.get "group_ref").truthy = false ↔ valueIfStr (event.get "group_ref") = [] := by
  have accepted : schemaErrorCode event = none := by
    unfold parseBody at parsed
    split at parsed
    · cases parsed
    split at parsed
    · split at parsed
      · next clean =>
          cases parsed
          exact clean
      · cases parsed
    · cases parsed
  obtain ⟨-, kind, kindType, variant, -, -, -, valid⟩ := schemaErrorCode_eq_none_iff.mp accepted
  cases present : event.lookup (lit "group_ref") with
  | none =>
      have absent : event.get "group_ref" = .null := by rw [Dict.get, present]; rfl
      rw [absent]
      exact ⟨fun _ => rfl, fun _ => rfl⟩
  | some value =>
      have fits := Schema.valid_property valid (lit "group_ref") hexString (by simp) present
      obtain ⟨groupRef, rfl, -⟩ := Schema.eq_str_of_valid_pattern fits
      have read : event.get "group_ref" = .str groupRef := by rw [Dict.get, present]; rfl
      rw [read]
      cases groupRef <;> simp [Json.truthy, valueIfStr]

theorem inGroup_iff {group : Str} (named : group ≠ []) (event : Dict) :
    inGroup group event = true ↔ valueIfStr (event.get "group_ref") = group := by
  rw [inGroup, decide_eq_true_eq]
  constructor
  · intro same
    rw [same]
    rfl
  · intro same
    cases found : event.get "group_ref" with
    | str groupRef =>
        rw [found] at same
        exact congrArg Json.str same
    | null | bool | int | float | list | dict =>
        rw [found] at same
        exact absurd same.symm named

/-- A label of a row; a missing one is empty. -/
def LogRow.label (row : LogRow) (name : Str) : Str := valueIfStr (row.labels.get name)

def LogRow.body (row : LogRow) : List UInt8 := encodeUtf8 row.line

/-- A row whose labels match the event in its body. -/
structure LabelledAs (env : Env) (row : LogRow) (event : Dict) : Prop where
  parsed : parseBody row.body = .ok event
  group : row.label "audit_group" = valueIfStr (event.get "group_ref")
  engine : row.label "audit_engine" = (session event).engineId
  account : row.label "audit_account" = (session event).accountRef
  recorder : row.label "audit_session" = (session event).recorderSessionId
  partition : bucket env (valueIfStr (event.get "group_ref")) (session event).engineId
    (session event).accountRef = some (row.label "audit_bucket")

/-- A row with a valid body and the labels of its record. -/
def Labelled (env : Env) (row : LogRow) : Prop := ∃ event, LabelledAs env row event

/-- The rows the group query matches. -/
def matchesGroup (partition group : Str) (row : LogRow) : Bool :=
  row.label "audit_bucket" = partition && row.label "audit_group" = group

/-- The rows a session's query matches. -/
def matchesContext (partition : Str) (item : Session) (row : LogRow) : Bool :=
  row.label "audit_bucket" = partition && row.label "audit_group" = [] &&
    row.label "audit_engine" = item.engineId && row.label "audit_account" = item.accountRef &&
    row.label "audit_session" = item.recorderSessionId

theorem LabelledAs.matchesGroup_iff {env : Env} {row : LogRow} {event : Dict}
    (labelled : LabelledAs env row event) {partition group : Str} (named : group ≠ [])
    (bucketed : bucket env group [] [] = some partition) :
    matchesGroup partition group row = true ↔ inGroup group event = true := by
  rw [inGroup_iff named, matchesGroup, Bool.and_eq_true, decide_eq_true_eq, decide_eq_true_eq,
    labelled.group]
  constructor
  · exact fun matched => matched.2
  · intro same
    have partitioned := labelled.partition
    rw [same, bucket, if_pos named] at partitioned
    rw [bucket, if_pos named] at bucketed
    rw [bucketed] at partitioned
    exact ⟨(Option.some.inj partitioned).symm, same⟩

theorem LabelledAs.matchesContext_iff {env : Env} {row : LogRow} {event : Dict}
    (labelled : LabelledAs env row event) {partition : Str} {item : Session}
    (bucketed : bucket env [] item.engineId item.accountRef = some partition) :
    matchesContext partition item row = true ↔
      (event.get "group_ref").truthy = false ∧ session event = item := by
  rw [groupless_iff labelled.parsed]
  simp only [matchesContext, Bool.and_eq_true, decide_eq_true_eq, labelled.group, labelled.engine,
    labelled.account, labelled.recorder]
  constructor
  · rintro ⟨⟨⟨⟨-, groupless⟩, engine⟩, account⟩, recorder⟩
    refine ⟨groupless, ?_⟩
    cases item
    simp only at engine account recorder
    rw [← engine, ← account, ← recorder]
  · rintro ⟨groupless, rfl⟩
    have partitioned := labelled.partition
    rw [groupless, bucketed] at partitioned
    exact ⟨⟨⟨⟨(Option.some.inj partitioned).symm, groupless⟩, rfl⟩, rfl⟩, rfl⟩

/-- The bodies in the store. -/
def storeBodies (store : List LogRow) : List (List UInt8) := store.map LogRow.body

/-- Records stored under matching labels and received in the window an investigation queries, in a
store that answers its queries. -/
structure StoredInLoki (loki : Loki) (group : Str) (start stop : Int) (store : List LogRow) :
    Prop where
  labelled : ∀ row ∈ store, Labelled loki.env row
  received : ∀ row ∈ store, inWindow (max start loki.readerCutoffNs) stop row.timestamp = true
  groupServed : ∀ partition, bucket loki.env group [] [] = some partition →
    Serves loki (loki.groupExpression partition group) (matchesGroup partition group) store
  contextsServed : ∀ item partition, GroupSession (storeBodies store) group item →
    item.complete = true → bucket loki.env [] item.engineId item.accountRef = some partition →
    Serves loki (loki.contextExpression partition item) (matchesContext partition item) store

/-- What both readers, when they complete, agree on. -/
def ReadersAgree (loki : Loki) (group : Str) (start stop : Int) (files : List (List UInt8)) : Prop :=
  ∀ jsonl investigated, readJsonl loki.env files = .ok jsonl →
    loki.investigate group start stop = .ok investigated →
    (∀ digest, (jsonl.selected group).find digest =
      (investigated.reader.evidence.selected group).find digest) ∧
    ∃ summary, jsonl.summary group .jsonl false = .ok summary ∧
      summary.Agrees investigated.summary

/-! ### What Loki returns -/

section Investigation

variable {loki : Loki} {group : Str} {start stop : Int} {store : List LogRow}

/-- A retrieval of rows that were all received in the window adds their bodies. -/
theorem retrieve_bodies (hex : HexDigests loki.env) {expression : Str} {matching : LogRow → Bool}
    (serves : Serves loki expression matching store)
    (received : ∀ row ∈ store, inWindow start stop row.timestamp = true)
    {accept : Dict → Bool} {reader next : Reader}
    (done : loki.retrieve accept expression start stop reader = .ok next) :
    ∃ bodies, bodies.Perm (storeBodies (store.filter matching)) ∧
      Evidence.addBodies loki.env bodies reader.evidence = .ok next.evidence := by
  refine ⟨_, ?_, (addRows_bodies (retrieve_spec hex serves done)).1⟩
  have all : windowRows (wantedRows loki.env matching store) start stop =
      wantedRows loki.env matching store := by
    apply List.filter_eq_self.mpr
    intro row member
    obtain ⟨stored, storedMember, rfl⟩ := List.mem_map.mp member
    exact received stored (List.mem_of_mem_filter storedMember)
  rw [all]
  apply ((perm_inOrder _ _).map _).trans
  rw [wantedRows, List.map_map]
  exact List.Perm.refl _

/-- The rows a test keeps, when it says the same of every row with some body. -/
theorem count_storeBodies_filter {matching : LogRow → Bool} {body : List UInt8} {kept : Prop}
    [Decidable kept] (same : ∀ row ∈ store, row.body = body → (matching row = true ↔ kept)) :
    (storeBodies (store.filter matching)).count body =
      if kept then (storeBodies store).count body else 0 := by
  simp only [storeBodies, List.count, List.countP_map, List.countP_filter]
  by_cases held : kept
  · rw [if_pos held]
    apply List.countP_congr
    intro row member
    simp only [Function.comp_apply, beq_iff_eq, Bool.and_eq_true]
    exact ⟨fun both => both.1, fun here => ⟨here, (same row member here).mpr held⟩⟩
  · rw [if_neg held, List.countP_eq_zero]
    intro row member
    simp only [Function.comp_apply, beq_iff_eq, Bool.and_eq_true, not_and]
    exact fun here matched => held ((same row member here).mp matched)

/-- The investigation of a group, phase by phase. -/
structure Phases (loki : Loki) (group : Str) (start stop : Int) (investigated : Investigated) where
  partition : Str
  bucketed : bucket loki.env group [] [] = some partition
  named : group ≠ []
  first : Reader
  contexts : List (Str × Session)
  grouped : loki.retrieve (loki.acceptGroup group) (loki.groupExpression partition group)
    (max start loki.readerCutoffNs) stop Reader.new = .ok first
  found : loki.contexts first.evidence group = some contexts
  contextual : loki.retrieveContexts (max start loki.readerCutoffNs) stop contexts first =
    .ok investigated.reader
  summarized : ∃ omitted,
    investigated.reader.evidence.summary group .loki omitted = .ok investigated.summary

/-- An investigation that completes queried nothing, or went through its phases. -/
theorem investigate_cases {investigated : Investigated}
    (done : loki.investigate group start stop = .ok investigated) :
    (stop ≤ max start loki.readerCutoffNs ∧ investigated.reader.evidence = Evidence.empty ∧
      Evidence.empty.summary group .loki true = .ok investigated.summary) ∨
    Nonempty (Phases loki group start stop investigated) := by
  unfold Loki.investigate at done
  split at done
  · cases done
  next named =>
  split at done
  · cases done
  dsimp only at done
  split at done
  · next closed =>
      cases summarized : Evidence.empty.summary group .loki true with
      | error incomplete =>
          rw [summarized] at done
          cases done
      | ok summary =>
          rw [summarized] at done
          cases done
          exact .inl ⟨closed, rfl, rfl⟩
  · right
    split at done
    · cases done
    next partition bucketed =>
    cases grouped : loki.retrieve (loki.acceptGroup group) (loki.groupExpression partition group)
        (max start loki.readerCutoffNs) stop Reader.new with
    | error incomplete =>
        rw [grouped] at done
        cases done
    | ok first =>
        simp only [grouped, raising, bind, Except.bind] at done
        split at done
        · cases done
        next contexts found =>
        cases contextual : loki.retrieveContexts (max start loki.readerCutoffNs) stop contexts
            first with
        | error incomplete =>
            rw [contextual] at done
            cases done
        | ok second =>
            simp only [contextual] at done
            cases summarized : second.evidence.summary group .loki
                (start < loki.readerCutoffNs) with
            | error incomplete =>
                rw [summarized] at done
                cases done
            | ok summary =>
                rw [summarized] at done
                cases done
                exact ⟨partition, bucketed, fun blank => named (.inl blank), first, contexts,
                  grouped, found, contextual, _, summarized⟩

/-! ### The sessions that are queried -/

/-- The queried sessions are the complete ones of the group's records, each once. -/
theorem contexts_spec {evidence : Evidence} {contexts : List (Str × Session)}
    (found : loki.contexts evidence group = some contexts) :
    (∀ context ∈ contexts,
      bucket loki.env [] context.2.engineId context.2.accountRef = some context.1) ∧
    (∀ item, item ∈ contexts.map Prod.snd ↔
      item ∈ evidence.groupSessions group ∧ item.complete = true) ∧
    (contexts.map Prod.snd).Nodup := by
  obtain ⟨rows, mapped, rfl⟩ := Option.map_eq_some_iff.mp found
  have sessions : rows = ((evidence.groupSessions group).filter Session.complete).map fun item =>
      ((bucket loki.env [] item.engineId item.accountRef).getD [], item) := by
    apply eq_map_of_mapM mapped
    intro item row read
    obtain ⟨partition, bucketed, rfl⟩ := Option.map_eq_some_iff.mp read
    rw [bucketed]
    rfl
  have items : rows.map Prod.snd = (evidence.groupSessions group).filter Session.complete := by
    rw [sessions, List.map_map]
    exact List.map_id _
  have order := perm_inOrder Loki.contextOrder rows
  refine ⟨fun context member => ?_, fun item => ?_, ?_⟩
  · rw [mapM_eq_some_iff] at mapped
    have listed : some context ∈ rows.map some := List.mem_map_of_mem (mem_inOrder.mp member)
    rw [← mapped] at listed
    obtain ⟨item, -, read⟩ := List.mem_map.mp listed
    obtain ⟨partition, bucketed, rfl⟩ := Option.map_eq_some_iff.mp read
    exact bucketed
  · rw [(order.map Prod.snd).mem_iff, items, List.mem_filter]
  · rw [(order.map Prod.snd).nodup_iff, items]
    exact (List.nodup_dedup _).filter _

/-- The queries of the sessions add the bodies they match, one session after the other. -/
theorem retrieveContexts_bodies (hex : HexDigests loki.env) {contexts : List (Str × Session)}
    (serves : ∀ context ∈ contexts, Serves loki (loki.contextExpression context.1 context.2)
      (matchesContext context.1 context.2) store)
    (received : ∀ row ∈ store, inWindow start stop row.timestamp = true) {reader next : Reader}
    (done : loki.retrieveContexts start stop contexts reader = .ok next) :
    ∃ bodies, bodies.Perm (contexts.flatMap fun context =>
        storeBodies (store.filter (matchesContext context.1 context.2))) ∧
      Evidence.addBodies loki.env bodies reader.evidence = .ok next.evidence := by
  induction contexts generalizing reader with
  | nil =>
      cases done
      exact ⟨[], List.Perm.refl _, rfl⟩
  | cons context rest inductionHypothesis =>
      rw [Loki.retrieveContexts, List.foldlM_cons] at done
      cases first : loki.retrieve (loki.acceptContext context.1 context.2)
          (loki.contextExpression context.1 context.2) start stop reader with
      | error incomplete =>
          rw [first] at done
          cases done
      | ok middle =>
          rw [first] at done
          obtain ⟨mine, minePerm, mineAdded⟩ :=
            retrieve_bodies hex (serves context List.mem_cons_self) received first
          obtain ⟨others, othersPerm, othersAdded⟩ := inductionHypothesis (fun other member =>
            serves other (List.mem_cons_of_mem context member)) done
          refine ⟨mine ++ others, ?_, Evidence.addBodies_append mineAdded othersAdded⟩
          rw [List.flatMap_cons]
          exact minePerm.append othersPerm

/-- Sessions that differ match a body once at most. -/
theorem count_contexts {contexts : List (Str × Session)} (once : (contexts.map Prod.snd).Nodup)
    {body : List UInt8} {event : Dict}
    (matched : ∀ context ∈ contexts, ∀ row ∈ store, row.body = body →
      (matchesContext context.1 context.2 row = true ↔
        (event.get "group_ref").truthy = false ∧ session event = context.2)) :
    (contexts.flatMap fun context =>
        storeBodies (store.filter (matchesContext context.1 context.2))).count body =
      if (event.get "group_ref").truthy = false ∧ session event ∈ contexts.map Prod.snd then
        (storeBodies store).count body else 0 := by
  induction contexts with
  | nil => simp
  | cons context rest inductionHypothesis =>
      rw [List.map_cons, List.nodup_cons] at once
      rw [List.flatMap_cons, List.count_append,
        inductionHypothesis once.2 (fun other member =>
          matched other (List.mem_cons_of_mem context member)),
        count_storeBodies_filter (matched context List.mem_cons_self), List.map_cons]
      by_cases mine : session event = context.2
      · have later : ¬ ((event.get "group_ref").truthy = false ∧
            session event ∈ rest.map Prod.snd) := fun both => once.1 (mine ▸ both.2)
        rw [if_neg later, Nat.add_zero]
        simp only [mine, List.mem_cons_self]
      · have listed : session event ∈ context.2 :: rest.map Prod.snd ↔
            session event ∈ rest.map Prod.snd := by
          rw [List.mem_cons, or_iff_right mine]
        have unmatched : ¬ ((event.get "group_ref").truthy = false ∧
            session event = context.2) := fun both => mine both.2
        rw [if_neg unmatched, Nat.zero_add]
        simp only [listed]

/-! ### Agreement -/

theorem event_of_labelled {env : Env} {row : LogRow} (labelled : Labelled env row) {event : Dict}
    (parsed : parseBody row.body = .ok event) : LabelledAs env row event := by
  obtain ⟨own, labelled⟩ := labelled
  have same := labelled.parsed
  rw [parsed] at same
  cases same
  exact labelled

theorem storeBodies_filter_subset (matching : LogRow → Bool) :
    storeBodies (store.filter matching) ⊆ storeBodies store :=
  List.map_subset _ (List.filter_subset_self store)

/-- An investigation reads bodies of the store, each relevant one as often as it is stored. -/
theorem Phases.bodies (hex : HexDigests loki.env) (stored : StoredInLoki loki group start stop store)
    (distinct : DistinctDigests loki.env (storeBodies store)) {investigated : Investigated}
    (phases : Phases loki group start stop investigated) :
    ∃ bodies, Evidence.addBodies loki.env bodies Evidence.empty =
        .ok investigated.reader.evidence ∧ bodies ⊆ storeBodies store ∧
      ∀ body event, parseBody body = .ok event → Relevant (storeBodies store) group event →
        bodies.count body = (storeBodies store).count body := by
  obtain ⟨mine, minePerm, mineAdded⟩ := retrieve_bodies hex
    (stored.groupServed _ phases.bucketed) stored.received phases.grouped
  have mineSubset : mine ⊆ storeBodies store := fun body member =>
    storeBodies_filter_subset _ (minePerm.subset member)
  have holds : Evidence.Holds loki.env mine phases.first.evidence :=
    (Evidence.holds_empty loki.env).addBodies mineAdded
  have distinctMine : DistinctDigests loki.env mine := fun left leftMember right rightMember =>
    distinct left (mineSubset leftMember) right (mineSubset rightMember)
  have matched : ∀ {body : List UInt8} {event : Dict}, parseBody body = .ok event →
      ∀ row ∈ store, row.body = body →
        (matchesGroup phases.partition group row = true ↔ inGroup group event = true) := by
    rintro _ event parsed row member rfl
    exact (event_of_labelled (stored.labelled row member) parsed).matchesGroup_iff phases.named
      phases.bucketed
  -- the records of the group are all read, so its sessions are known
  have sessions : ∀ item, GroupSession mine group item ↔
      GroupSession (storeBodies store) group item := by
    intro item
    constructor
    · rintro ⟨body, member, event, rest⟩
      exact ⟨body, mineSubset member, event, rest⟩
    · rintro ⟨body, member, event, parsed, grouped, same⟩
      obtain ⟨row, rowMember, rfl⟩ := List.mem_map.mp member
      refine ⟨row.body, minePerm.symm.subset (List.mem_map_of_mem ?_), event, parsed, grouped, same⟩
      exact List.mem_filter.mpr ⟨rowMember, (matched parsed row rowMember rfl).mpr grouped⟩
  obtain ⟨bucketed, queried, once⟩ := contexts_spec phases.found
  have known : ∀ item, item ∈ phases.contexts.map Prod.snd ↔
      GroupSession (storeBodies store) group item ∧ item.complete = true := by
    intro item
    rw [queried, holds.mem_groupSessions distinctMine, sessions]
  obtain ⟨others, othersPerm, othersAdded⟩ := retrieveContexts_bodies hex
    (fun context member =>
      have listed := (known context.2).mp (List.mem_map_of_mem member)
      stored.contextsServed context.2 context.1 listed.1 listed.2 (bucketed context member))
    stored.received phases.contextual
  refine ⟨mine ++ others, Evidence.addBodies_append mineAdded othersAdded, ?_, ?_⟩
  · apply List.append_subset.mpr ⟨mineSubset, ?_⟩
    intro body member
    obtain ⟨context, -, found⟩ := List.mem_flatMap.mp (othersPerm.subset member)
    exact storeBodies_filter_subset _ found
  · intro body event parsed relevant
    have contextual : ∀ context ∈ phases.contexts, ∀ row ∈ store, row.body = body →
        (matchesContext context.1 context.2 row = true ↔
          (event.get "group_ref").truthy = false ∧ session event = context.2) := by
      rintro context contextMember row member rfl
      exact (event_of_labelled (stored.labelled row member) parsed).matchesContext_iff
        (bucketed context contextMember)
    rw [List.count_append, minePerm.count_eq, othersPerm.count_eq,
      count_storeBodies_filter (matched parsed), count_contexts once contextual]
    rcases relevant with grouped | ⟨groupless, complete, inSession⟩
    · have text := (inGroup_iff phases.named event).mp grouped
      have referenced : ¬ ((event.get "group_ref").truthy = false ∧
          session event ∈ phases.contexts.map Prod.snd) := fun both =>
        phases.named (text ▸ (groupless_iff parsed).mp both.1)
      rw [if_pos grouped, if_neg referenced, Nat.add_zero]
    · have ungrouped : ¬ inGroup group event = true := fun grouped =>
        phases.named ((inGroup_iff phases.named event).mp grouped ▸
          (groupless_iff parsed).mp groupless)
      rw [if_neg ungrouped, if_pos ⟨groupless, (known _).mpr ⟨inSession, complete⟩⟩, Nat.zero_add]

/-! ### A store under labels -/

end Investigation

/-- The labels of a record and its line. -/
def recordLabels (env : Env) (line : Str) (event : Dict) : Dict :=
  let item := session event
  let group := valueIfStr (event.get "group_ref")
  [(lit "audit_bucket", .str ((bucket env group item.engineId item.accountRef).getD [])),
    (lit "audit_group", .str group), (lit "audit_engine", .str item.engineId),
    (lit "audit_account", .str item.accountRef), (lit "audit_session", .str item.recorderSessionId),
    (lit "audit_sha256", .str (env.sha256 (encodeUtf8 line)))]

/-- A row under the labels of the record on its line. -/
def labelledRow (env : Env) (timestamp : Int) (line : Str) : LogRow :=
  ⟨timestamp, line, recordLabels env line ((parseBody (encodeUtf8 line)).toOption.getD [])⟩

/-- It is labelled as its record, when the bucket can be computed. -/
theorem labelled_labelledRow {env : Env} {timestamp : Int} {line : Str}
    (valid : (parseBody (encodeUtf8 line)).isOk = true)
    (encodable : (labelledRow env timestamp line).label "audit_bucket" ≠ []) :
    Labelled env (labelledRow env timestamp line) := by
  cases parsed : parseBody (encodeUtf8 line) with
  | error incomplete =>
      rw [parsed] at valid
      cases valid
  | ok event =>
      have row : labelledRow env timestamp line =
          ⟨timestamp, line, recordLabels env line event⟩ := by
        rw [labelledRow, parsed]
        rfl
      rw [row] at encodable ⊢
      refine ⟨event, parsed, rfl, rfl, rfl, rfl, ?_⟩
      change (bucket env _ _ _).getD [] ≠ [] at encodable
      change _ = some ((bucket env _ _ _).getD [])
      cases bucketed : bucket env (valueIfStr (event.get "group_ref")) (session event).engineId
          (session event).accountRef with
      | none =>
          rw [bucketed] at encodable
          exact absurd rfl encodable
      | some partition => rfl

/-- The sessions of the records of a group, body by body. -/
def sessionsOf (bodies : List (List UInt8)) (group : Str) : List Session :=
  bodies.filterMap fun body =>
    match parseBody body with
    | .ok event => if inGroup group event then some (session event) else none
    | .error _ => none

theorem mem_sessionsOf {bodies : List (List UInt8)} {group : Str} {item : Session}
    (known : GroupSession bodies group item) : item ∈ sessionsOf bodies group := by
  obtain ⟨body, member, event, parsed, grouped, rfl⟩ := known
  apply List.mem_filterMap.mpr ⟨body, member, ?_⟩
  simp only [parsed, grouped, if_true]

/-- A reader of which only the selector matters. -/
def silentLoki (env : Env) : Loki where
  env := env
  transport _ _ _ _ _ := none
  expired _ := false
  serviceName := lit "s"
  environmentName := lit "e"
  nowNs := 10
  pageSize := 5
  pageSize_pos := by decide
  pageSize_le := by decide

/-- The query for the group `ab`, and the one for a session. -/
def sessionQueries (env : Env) (partition home : Str) (item : Session) :
    List (Str × (LogRow → Bool)) :=
  [((silentLoki env).groupExpression partition (lit "ab"), matchesGroup partition (lit "ab")),
    ((silentLoki env).contextExpression home item, matchesContext home item)]

/-- A reader over a store that knows these two queries. -/
def sessionLoki (env : Env) (partition home : Str) (item : Session) (store : List LogRow) : Loki :=
  { silentLoki env with
    transport := storeTransport (sessionQueries env partition home item) store }

/-- The store answers the investigation of the group `ab` when only that session is complete. -/
theorem storedInLoki_sessionLoki {env : Env} {partition home : Str} {item : Session}
    {store : List LogRow} {start stop : Int}
    (apart : (sessionQueries env partition home item).Pairwise fun first second =>
      ¬ first.1 <+: second.1 ∧ ¬ second.1 <+: first.1)
    (labelled : ∀ row ∈ store, Labelled env row)
    (digested : ∀ row ∈ store,
      row.labels.get "audit_sha256" = .str (env.sha256 (encodeUtf8 row.line)))
    (received : ∀ row ∈ store,
      inWindow (max start (silentLoki env).readerCutoffNs) stop row.timestamp = true)
    (bucketed : bucket env (lit "ab") [] [] = some partition)
    (homeBucketed : bucket env [] item.engineId item.accountRef = some home)
    (only : ∀ other ∈ sessionsOf (storeBodies store) (lit "ab"),
      other.complete = true → other = item) :
    StoredInLoki (sessionLoki env partition home item store) (lit "ab") start stop store where
  labelled := labelled
  received := received
  groupServed := by
    intro other otherBucketed
    rw [sessionLoki, silentLoki, bucketed] at otherBucketed
    cases otherBucketed
    exact serves_storeTransport rfl apart digested List.mem_cons_self
  contextsServed := by
    intro other otherHome known complete otherBucketed
    obtain rfl := only other (mem_sessionsOf known) complete
    rw [sessionLoki, silentLoki, homeBucketed] at otherBucketed
    cases otherBucketed
    exact serves_storeTransport rfl apart digested (List.mem_cons_of_mem _ List.mem_cons_self)

/-- The members that name an account and a recorder session. -/
def sessionMembers : Str :=
  lit "\"account_ref\":\"" ++ List.replicate 32 0x30 ++ lit "\",\"recorder_session_id\":\"s\","

/-- The session they name in a record of the engine `e`. -/
def recordedSession : Session := ⟨lit "e", List.replicate 32 0x30, lit "s"⟩

/-- A record of the group `ab` in that session. -/
def groupedRecord : Str :=
  recordText (lit "e") (lit "ab") 100 sessionMembers
    (lit "\x7b\"type\":\"send_entry\",\"intent_kind\":\"app\"\x7d")

/-- A record of that session without a group. -/
def grouplessRecord : Str :=
  lit "\x7b\"schema_version\":\"marmot-" ++ lit "forensics-audit/v4\",\"seq\":1," ++
    lit "\"wall_time_ms\":200,\"engine_id\":\"e\"," ++ sessionMembers ++
    lit "\"kind\":\x7b\"type\":\"send_entry\"," ++ lit "\"intent_kind\":\"app\"\x7d\x7d"

/-- Knows both records and their partitions. -/
def sessionEnv : Env :=
  hexEnv
    [(groupedRecord,
        lit "70901c561dd268530850f0ed66ff0362" ++ lit "8042d8d7074f5002c9a89e187d44a914"),
      (grouplessRecord,
        lit "1043b2b44677a9b0226792360ab2b752" ++ lit "b423dd68c3c6d5bfb1d146552c470f32"),
      (dumpKey [lit "group", lit "ab"],
        lit "1e6a4d453a14c91a4e31dc4fd629b9b6" ++ lit "889d0ca681735777161040865f05e4d9"),
      (dumpKey [lit "context", lit "e", List.replicate 32 0x30],
        lit "23a483a959558a100234c6b1eac1cc98" ++ lit "289ed0b6a980767364fbe7ae1c125e8e")]

/-- Both records, the first of them twice. -/
def sessionStore : List LogRow :=
  [labelledRow sessionEnv 5 groupedRecord, labelledRow sessionEnv 6 groupedRecord,
    labelledRow sessionEnv 7 grouplessRecord]

/-- The reader of this store. -/
def recordedLoki : Loki :=
  sessionLoki sessionEnv (lit "b1a") (lit "b10") recordedSession sessionStore

theorem storedInLoki_sessionStore : StoredInLoki recordedLoki (lit "ab") 0 10 sessionStore := by
  apply storedInLoki_sessionLoki
  · decide +kernel
  · rintro row (_ | ⟨_, _ | ⟨_, _ | ⟨_, ⟨⟩⟩⟩⟩) <;>
      exact labelled_labelledRow (by decide +kernel) (by decide +kernel)
  all_goals decide +kernel

/-- The same bodies in two files, in another order. -/
def sessionFiles : List JsonlFile :=
  [[(encodeUtf8 grouplessRecord, .crlf)],
    [(encodeUtf8 groupedRecord, .lf), ([], .lf), (encodeUtf8 groupedRecord, .lf)]]

/-- The readers agree on records that the JSONL lines carry: without a line feed, and with a carriage
return at the end only before a line end of two bytes. -/
theorem readersAgree (loki : Loki) (group : Str) (start stop : Int) (store : List LogRow)
    (files : List JsonlFile) (hex : HexDigests loki.env)
    (stored : StoredInLoki loki group start stop store)
    (distinct : DistinctDigests loki.env (storeBodies store))
    (lines : ∀ file ∈ files, ∀ line ∈ file, OneLine line)
    (supplied : (files.flatMap JsonlFile.bodies).Perm (storeBodies store)) :
    ReadersAgree loki group start stop (files.map JsonlFile.bytes) := by
  intro jsonl investigated read done
  have holdsJsonl : Evidence.Holds loki.env (files.flatMap JsonlFile.bodies) jsonl :=
    (Evidence.holds_empty loki.env).addBodies (readJsonl_bodies lines read)
  have distinctJsonl : DistinctDigests loki.env (files.flatMap JsonlFile.bodies) :=
    fun left leftMember right rightMember =>
      distinct left (supplied.subset leftMember) right (supplied.subset rightMember)
  have relevance : ∀ event, Relevant (files.flatMap JsonlFile.bodies) group event ↔
      Relevant (storeBodies store) group event := by
    intro event
    simp only [Relevant, GroupSession, supplied.mem_iff]
  -- either way Loki's evidence is of some bodies of the store, the relevant ones as often
  have found : ∃ bodies omitted, Evidence.addBodies loki.env bodies Evidence.empty =
        .ok investigated.reader.evidence ∧ bodies ⊆ storeBodies store ∧
      (∀ body event, parseBody body = .ok event → Relevant (storeBodies store) group event →
        bodies.count body = (storeBodies store).count body) ∧
      investigated.reader.evidence.summary group .loki omitted = .ok investigated.summary := by
    rcases investigate_cases done with ⟨closed, untouched, summarized⟩ | ⟨⟨phases⟩⟩
    · have none_stored : store = [] := by
        apply List.eq_nil_iff_forall_not_mem.mpr
        intro row member
        have received := stored.received row member
        simp only [inWindow, Bool.and_eq_true, decide_eq_true_eq] at received
        omega
      rw [none_stored, untouched]
      exact ⟨[], true, rfl, List.nil_subset _, fun _ _ _ _ => rfl, summarized⟩
    · obtain ⟨bodies, added, subset, counts⟩ := phases.bodies hex stored distinct
      obtain ⟨omitted, summarized⟩ := phases.summarized
      exact ⟨bodies, omitted, added, subset, counts, summarized⟩
  obtain ⟨bodies, omitted, added, subset, counts, summarized⟩ := found
  have holdsLoki : Evidence.Holds loki.env bodies investigated.reader.evidence :=
    (Evidence.holds_empty loki.env).addBodies added
  have same : Evidence.SameSelection group jsonl investigated.reader.evidence :=
    Evidence.sameSelection_of_counts holdsJsonl holdsLoki distinctJsonl
      (fun body member => supplied.symm.subset (subset member))
      (fun body event parsed relevant => by
        rw [counts body event parsed ((relevance event).mp relevant), supplied.count_eq])
  obtain ⟨summary, written, agrees⟩ := same.symm.summary_agrees summarized
  exact ⟨same.selected, summary, written, agrees.symm⟩

theorem readersAgree_sessionStore :
    ReadersAgree recordedLoki (lit "ab") 0 10 (sessionFiles.map JsonlFile.bytes) ∧
      (recordedLoki.investigate (lit "ab") 0 10).toOption.map (fun investigated =>
        (investigated.summary.selectedDistinctBodies,
          investigated.summary.duplicateOccurrences)) = some (2, 1) := by
  refine ⟨readersAgree recordedLoki (lit "ab") 0 10 sessionStore sessionFiles (hexDigests_hexEnv _)
    storedInLoki_sessionStore ?_ ?_ ?_, ?_⟩
  · unfold DistinctDigests
    decide +kernel
  · decide +kernel
  · decide +kernel
  · decide +kernel

/-- A record that ends in a carriage return. -/
def returnRecord : Str := sendRecord (lit "e") 100 ++ [0x0d]

/-- Knows it with and without its last byte. -/
def returnEnv : Env :=
  hexEnv
    [(sendRecord (lit "e") 100,
        lit "f498d216f252f53cf1579508a6ce79db" ++ lit "76102657c87ebb2a48d8335717c0d20b"),
      (returnRecord,
        lit "9e521fd2da11096a182ffbf039d46471" ++ lit "d763281405a0e936d9155275a792b074"),
      (dumpKey [lit "group", lit "ab"],
        lit "1e6a4d453a14c91a4e31dc4fd629b9b6" ++ lit "889d0ca681735777161040865f05e4d9")]

def returnStore : List LogRow := [labelledRow returnEnv 5 returnRecord]

def returnLoki : Loki := sessionLoki returnEnv (lit "b1a") (lit "b00") ⟨[], [], []⟩ returnStore

/-- The body and a line feed. -/
def returnFiles : List JsonlFile := [[(encodeUtf8 returnRecord, .lf)]]

/-- Whether the map of the selected records holds a digest, for either reader. -/
theorem ReadersAgree.find_isSome {loki : Loki} {group : Str} {start stop : Int}
    {files : List (List UInt8)} (agree : ReadersAgree loki group start stop files) (digest : Str)
    {held kept : Bool}
    (read : (readJsonl loki.env files).toOption.map (fun evidence =>
      ((evidence.selected group).find digest).isSome) = some held)
    (done : (loki.investigate group start stop).toOption.map (fun investigated =>
      ((investigated.reader.evidence.selected group).find digest).isSome) = some kept) :
    held = kept := by
  cases jsonl : readJsonl loki.env files with
  | error incomplete =>
      rw [jsonl] at read
      cases read
  | ok evidence =>
      cases investigated : loki.investigate group start stop with
      | error reason =>
          rw [investigated] at done
          cases done
      | ok result =>
          rw [jsonl] at read
          rw [investigated] at done
          cases read
          cases done
          exact congrArg Option.isSome ((agree _ _ jsonl investigated).1 digest)

/-- A carriage return at the end of a body belongs to the body in Loki and to the line in JSONL. -/
theorem readersAgree_fails_carriageReturn :
    HexDigests returnLoki.env ∧ StoredInLoki returnLoki (lit "ab") 0 10 returnStore ∧
      DistinctDigests returnLoki.env
        (encodeUtf8 (sendRecord (lit "e") 100) :: storeBodies returnStore) ∧
      (∀ file ∈ returnFiles, ∀ line ∈ file, 0x0a ∉ line.1) ∧
      (returnFiles.flatMap JsonlFile.bodies).Perm (storeBodies returnStore) ∧
      ¬ ReadersAgree returnLoki (lit "ab") 0 10 (returnFiles.map JsonlFile.bytes) := by
  refine ⟨hexDigests_hexEnv _, ?_, ?_, by decide +kernel, by decide +kernel, ?_⟩
  · apply storedInLoki_sessionLoki
    · decide +kernel
    · rintro row (_ | ⟨_, ⟨⟩⟩)
      exact labelled_labelledRow (by decide +kernel) (by decide +kernel)
    all_goals decide +kernel
  · unfold DistinctDigests
    decide +kernel
  · intro agree
    have same : false = true :=
      agree.find_isSome (returnEnv.sha256 (encodeUtf8 returnRecord)) (by decide +kernel)
        (by decide +kernel)
    cases same

end Goggles
