/-
Module: Goggles.Investigation.Canonical
Purpose: The text of a published bundle is one JSON object whose sections list what the bodies say,
  and the same text whatever the order in which the bodies were added.
Trusted boundary: none beyond the modules it imports
Main exports: readBack_bundle, ReadSections, writeBundle_canonical
-/
import Goggles.Analysis.MessageIds
import Goggles.Investigation.Agreement
import Goggles.Investigation.Content
import Goggles.Investigation.LokiReader
import Goggles.Investigation.Publication
import Goggles.Investigation.Retrieval
import Goggles.Python.ParsedText

namespace Goggles

/-! ### Fields that are read back -/

theorem Dict.reload_eq (fields : Dict) :
    fields.reload = (inOrder Prod.fst fields).map fun field =>
      (reloadText field.1, field.2.reload) := by
  have values : ∀ fields : Dict, reloadFields fields =
      fields.map fun field => (field.1, field.2.reload) := by
    intro fields
    induction fields with
    | nil => rfl
    | cons field rest inductionHypothesis =>
        rw [reloadFields, inductionHypothesis, List.map_cons]
  have sorted := map_inOrder Prod.fst (fun field : Str × Json => (field.1, field.2.reload)) fields
  rw [Dict.reload, values, ← sorted, List.map_map]
  rfl

/-- The keys of an object are told apart when they are read back. -/
def KeysApart (fields : Dict) : Prop := (fields.map fun field => reloadText field.1).Nodup

theorem Dict.lookup_of_mem {fields : Dict} (once : (fields.map Prod.fst).Nodup) {key : Str}
    {value : Json} (member : (key, value) ∈ fields) : fields.lookup key = some value := by
  induction fields with
  | nil => cases member
  | cons field rest inductionHypothesis =>
      obtain ⟨name, first⟩ := field
      rw [List.map_cons, List.nodup_cons] at once
      rw [lookup_cons_ite]
      rcases List.mem_cons.mp member with same | later
      · cases same
        rw [if_pos rfl]
      · have other : key ≠ name := by
          rintro rfl
          exact once.1 (List.mem_map.mpr ⟨(key, value), later, rfl⟩)
        rw [if_neg other, inductionHypothesis once.2 later]

/-- A member is read back under its key. -/
theorem Dict.lookup_reload {fields : Dict} (apart : KeysApart fields) {key : Str} {value : Json}
    (found : fields.lookup key = some value) :
    fields.reload.lookup (reloadText key) = some value.reload := by
  obtain ⟨before, after, split, -⟩ := List.lookup_eq_some_iff.mp found
  have member : (reloadText key, value.reload) ∈ fields.reload := by
    rw [Dict.reload_eq]
    exact List.mem_map.mpr ⟨(key, value), by rw [mem_inOrder, split]; simp, rfl⟩
  have once : (fields.reload.map Prod.fst).Nodup := by
    rw [Dict.reload_eq, List.map_map]
    exact ((perm_inOrder Prod.fst fields).map _).nodup_iff.mpr apart
  exact Dict.lookup_of_mem once member

/-! ### The text of the pieces -/

theorem bundleText_cons (piece : Option Str) (rest : List (Option Str)) :
    bundleText (piece :: rest) =
      piece.bind fun text => (bundleText rest).map fun more => text ++ more := by
  cases piece <;> rfl

theorem bundleText_append (first second : List (Option Str)) :
    bundleText (first ++ second) =
      (bundleText first).bind fun text => (bundleText second).map fun more => text ++ more := by
  induction first with
  | nil =>
      cases rest : bundleText second with
      | none => simp [bundleText, rest]
      | some more => simp [bundleText, rest]
  | cons piece rest inductionHypothesis =>
      rw [List.cons_append, bundleText_cons, bundleText_cons, inductionHypothesis]
      cases piece with
      | none => rfl
      | some text =>
          cases bundleText rest with
          | none => rfl
          | some more =>
              cases bundleText second with
              | none => rfl
              | some last => simp

section Pieces

variable {floatRepr : PyFloat → Str}

/-- The texts of listed objects are read back, with commas between them. -/
theorem readBack_listed {items : List Dict} {text : Str}
    (readable : ∀ item ∈ items, Readable floatRepr (.dict item))
    (written : bundleText ((items.map fun item => jsonDumps floatRepr (.dict item)).intersperse
      (some (lit ","))) = some text) :
    ∃ pairs : List (Str × Json), text = commaJoin (pairs.map Prod.fst) ∧
      pairs.map Prod.snd = items.map (fun item => .dict item.reload) ∧
      ∀ pair ∈ pairs, ReadBack pair.1 pair.2 := by
  induction items generalizing text with
  | nil =>
      cases written
      exact ⟨[], rfl, rfl, List.forall_mem_nil _⟩
  | cons item rest inductionHypothesis =>
      have first := readable item List.mem_cons_self
      have later := fun other member => readable other (List.mem_cons_of_mem item member)
      cases rest with
      | nil =>
          simp only [List.map_cons, List.map_nil, List.intersperse_singleton, bundleText_cons,
            bundleText, Option.bind_eq_some_iff, Option.map_some, Option.some.injEq] at written
          obtain ⟨dumped, found, rfl⟩ := written
          refine ⟨[(dumped, .dict item.reload)], rfl, rfl, ?_⟩
          intro pair member
          obtain rfl := List.mem_singleton.mp member
          exact readBack_of_jsonDumps first found
      | cons second more =>
          rw [List.map_cons, List.map_cons, List.intersperse_cons_cons, bundleText_cons,
            bundleText_cons] at written
          simp only [Option.bind_some, Option.bind_eq_some_iff, Option.map_eq_some_iff] at written
          obtain ⟨dumped, found, _, ⟨joined, restWritten, rfl⟩, rfl⟩ := written
          obtain ⟨pairs, rfl, values, reads⟩ := inductionHypothesis later restWritten
          refine ⟨(dumped, .dict item.reload) :: pairs, ?_, by rw [List.map_cons, values]; rfl, ?_⟩
          · have filled : pairs.map Prod.fst ≠ [] := by
              rintro blank
              rw [List.map_eq_nil_iff.mp blank] at values
              cases values
            rw [List.map_cons, commaJoin_cons filled]
            rfl
          · rintro pair (_ | ⟨_, member⟩)
            · exact readBack_of_jsonDumps first found
            · exact reads pair member

end Pieces

theorem commaJoin_append {first second : List Str} (filled : first ≠ []) (more : second ≠ []) :
    commaJoin (first ++ second) = commaJoin first ++ 0x2c :: commaJoin second := by
  induction first with
  | nil => exact absurd rfl filled
  | cons text rest inductionHypothesis =>
      by_cases last : rest = []
      · subst last
        have joined : commaJoin [text] = text := List.append_nil text
        rw [List.singleton_append, commaJoin_cons more, joined]
      · rw [List.cons_append, commaJoin_cons (by simp [last]), inductionHypothesis last,
          commaJoin_cons last, List.append_assoc, List.cons_append]

/-- The member of a section, with the texts of its items. -/
def sectionMember (name : Str) (pairs : List (Str × Json)) : WrittenMember where
  key := name
  text := 0x5b :: commaJoin (pairs.map Prod.fst) ++ [0x5d]
  value := .list (pairs.map Prod.snd)

theorem sectionMember_written (name : Str) (pairs : List (Str × Json)) :
    (sectionMember name pairs).written =
      jsonQuote name ++ 0x3a :: 0x5b :: commaJoin (pairs.map Prod.fst) ++ [0x5d] := by
  simp [sectionMember, WrittenMember.written, memberText]

/-- What the text of a bundle is read as. -/
def bundleObject (header : Dict) (content : BundleContent) : Dict :=
  header.reload ++
    [(lit "evidence", .list (content.evidence.map fun item => .dict item.toDict.reload)),
      (lit "conflicts", .list (content.conflicts.map fun item => .dict item.toDict.reload)),
      (lit "message_traces",
        .list (content.messageTraces.map fun item => .dict item.toDict.reload))]

/-- What must hold of the values of a bundle that is read back. -/
structure ReadableBundle (floatRepr : PyFloat → Str) (header : Dict) (content : BundleContent) :
    Prop where
  filled : header ≠ []
  values : FieldsReadable floatRepr header
  apart : (header.map (fun field => reloadText field.1) ++
    [lit "evidence", lit "conflicts", lit "message_traces"]).Nodup
  evidence : ∀ item ∈ content.evidence, Readable floatRepr (.dict item.toDict)
  conflicts : ∀ item ∈ content.conflicts, Readable floatRepr (.dict item.toDict)
  messageTraces : ∀ item ∈ content.messageTraces, Readable floatRepr (.dict item.toDict)

/-- The pieces make the text of one object: the members of the header, then the sections. -/
theorem readBack_bundle {floatRepr : PyFloat → Str} {header : Dict} {content : BundleContent}
    {text : Str} (readable : ReadableBundle floatRepr header content)
    (written : bundleText (bundlePieces floatRepr header content) = some text) :
    ReadBack text (.dict (bundleObject header content)) := by
  have listed : ∀ {ι : Type} {items : List ι} {toDict : ι → Dict} {joined : Str},
      (∀ item ∈ items, Readable floatRepr (.dict (toDict item))) →
      bundleText (((items.map toDict).map fun item =>
        jsonDumps floatRepr (.dict item)).intersperse (some (lit ","))) = some joined →
      ∃ pairs : List (Str × Json), joined = commaJoin (pairs.map Prod.fst) ∧
        pairs.map Prod.snd = items.map (fun item => .dict (toDict item).reload) ∧
        ∀ pair ∈ pairs, ReadBack pair.1 pair.2 := by
    intro ι items toDict joined each found
    have result := readBack_listed (by simpa using each) found
    rwa [List.map_map] at result
  simp only [bundlePieces, bundleText_append, bundleText_cons, bundleText, Option.bind_eq_some_iff,
    Option.map_eq_some_iff, Option.some.injEq] at written
  obtain ⟨_, ⟨_, ⟨_, ⟨_, ⟨_, ⟨_, ⟨_, ⟨headerText, dumped, rfl⟩, _, ⟨_, rfl, rfl⟩, rfl⟩,
    evidenceText, evidenceWritten, rfl⟩, _, ⟨_, rfl, rfl⟩, rfl⟩, conflictText, conflictWritten,
    rfl⟩, _, ⟨_, rfl, rfl⟩, rfl⟩, traceText, traceWritten, rfl⟩, _, ⟨_, rfl, rfl⟩, rfl⟩ := written
  obtain ⟨evidence, rfl, evidenceValues, evidenceReads⟩ :=
    listed readable.evidence evidenceWritten
  obtain ⟨conflicts, rfl, conflictValues, conflictReads⟩ :=
    listed readable.conflicts conflictWritten
  obtain ⟨traces, rfl, traceValues, traceReads⟩ := listed readable.messageTraces traceWritten
  rw [jsonDumps, Option.map_eq_some_iff] at dumped
  obtain ⟨members, dumpedFields, rfl⟩ := dumped
  obtain ⟨written, holds⟩ := writtenFields_of_dumpFields readable.values dumpedFields
  have sections : ∀ text ∈ [sectionMember (lit "evidence") evidence,
      sectionMember (lit "conflicts") conflicts, sectionMember (lit "message_traces") traces],
      ReadBack text.text text.value := by
    intro member inside
    simp only [List.mem_cons, List.not_mem_nil, or_false] at inside
    rcases inside with rfl | rfl | rfl
    · exact readBack_list evidenceReads
    · exact readBack_list conflictReads
    · exact readBack_list traceReads
  have whole := @readBack_dict (sortedMembers written ++
    [sectionMember (lit "evidence") evidence, sectionMember (lit "conflicts") conflicts,
      sectionMember (lit "message_traces") traces]) ?_ ?_
  · have names : reloadText (lit "evidence") = lit "evidence" ∧
        reloadText (lit "conflicts") = lit "conflicts" ∧
          reloadText (lit "message_traces") = lit "message_traces" := by decide
    have filled : (sortedMembers written).map WrittenMember.written ≠ [] := by
      intro blank
      have none := holds.keys
      rw [inOrder_eq_nil_iff.mp (List.map_eq_nil_iff.mp blank)] at none
      exact readable.filled (List.map_eq_nil_iff.mp none)
    have object : (sortedMembers written ++ [sectionMember (lit "evidence") evidence,
        sectionMember (lit "conflicts") conflicts,
          sectionMember (lit "message_traces") traces]).map WrittenMember.entry =
            bundleObject header content := by
      rw [List.map_append, ← holds.sorted_values]
      simp only [List.map_cons, List.map_nil, WrittenMember.entry, sectionMember, names,
        evidenceValues, conflictValues, traceValues]
      rfl
    have openings : lit ",\"evidence\":[" = 0x2c :: (jsonQuote (lit "evidence") ++ [0x3a, 0x5b]) ∧
        lit "],\"conflicts\":[" = 0x5d :: 0x2c :: (jsonQuote (lit "conflicts") ++ [0x3a, 0x5b]) ∧
        lit "],\"message_traces\":[" =
          0x5d :: 0x2c :: (jsonQuote (lit "message_traces") ++ [0x3a, 0x5b]) ∧
        lit "]\x7d" = [0x5d, 0x7d] := by decide
    obtain ⟨opening, second, third, closing⟩ := openings
    rw [object, List.map_append, commaJoin_append filled (by simp)] at whole
    simp only [List.map_cons, List.map_nil] at whole
    rw [commaJoin_cons (by simp), commaJoin_cons (by simp)] at whole
    rw [opening, second, third, closing, holds.sorted_texts, List.dropLast_concat]
    have last : commaJoin [(sectionMember (lit "message_traces") traces).written] =
        (sectionMember (lit "message_traces") traces).written := List.append_nil _
    rw [last, sectionMember_written, sectionMember_written, sectionMember_written] at whole
    simpa using whole
  · intro member inside
    rcases List.mem_append.mp inside with early | late
    · exact holds.sorted_reads member early
    · exact sections member late
  · have sorted : ((sortedMembers written).map fun member => reloadText member.key).Perm
        (header.map fun field => reloadText field.1) := by
      have keys := congrArg (List.map reloadText) holds.keys
      rw [List.map_map, List.map_map] at keys
      exact ((perm_inOrder _ _).map _).trans (.of_eq keys.symm)
    have names : [sectionMember (lit "evidence") evidence,
        sectionMember (lit "conflicts") conflicts,
          sectionMember (lit "message_traces") traces].map (fun member => reloadText member.key) =
        [lit "evidence", lit "conflicts", lit "message_traces"] := by
      simp only [List.map_cons, List.map_nil, sectionMember]
      decide
    rw [List.map_append, names]
    exact (sorted.append_right _).nodup_iff.mpr readable.apart

/-! ### Values that are read back -/

section Readable

variable {floatRepr : PyFloat → Str}

theorem fieldsReadable_iff {fields : Dict} : FieldsReadable floatRepr fields ↔
    ∀ field ∈ fields, Readable floatRepr field.2 := by
  induction fields with
  | nil => simp [FieldsReadable]
  | cons field rest inductionHypothesis =>
      obtain ⟨key, value⟩ := field
      simp [FieldsReadable, inductionHypothesis]

theorem itemsReadable_strings (texts : List Str) :
    ItemsReadable floatRepr (texts.map .str) := by
  induction texts with
  | nil => trivial
  | cons text rest inductionHypothesis => exact ⟨trivial, inductionHypothesis⟩

theorem readable_get {fields : Dict} (readable : FieldsReadable floatRepr fields) (key : Str) :
    Readable floatRepr (fields.get key) := by
  rw [Dict.get]
  cases found : fields.lookup key with
  | none => trivial
  | some value =>
      obtain ⟨before, after, rfl, -⟩ := List.lookup_eq_some_iff.mp found
      exact fieldsReadable_iff.mp readable (key, value) (by simp)

/-- The scope of a bundle is read back when the summary is. -/
theorem readable_bundleScope {summary scope : Dict} {suppliedFileCount : Option Int}
    (readable : FieldsReadable floatRepr summary)
    (bounded : bundleScope summary suppliedFileCount = .ok scope) :
    Readable floatRepr (.dict scope) := by
  unfold bundleScope at bounded
  split at bounded
  · cases bounded
  split at bounded
  · split at bounded
    · cases bounded
    · cases bounded
      have apart : ([lit "type", lit "supplied_file_count"].map reloadText).Nodup := by decide +kernel
      exact ⟨apart, trivial, trivial, trivial⟩
  split at bounded
  · split at bounded
    · cases bounded
    · cases bounded
      have apart : ([lit "type", lit "requested_receipt_window_ns",
          lit "effective_receipt_window_ns", lit "reader_cutoff_ns", lit "receipt_cutoff_omitted",
            lit "query_count"].map reloadText).Nodup := by decide +kernel
      exact ⟨apart, trivial, readable_get readable _, readable_get readable _,
        readable_get readable _, readable_get readable _, readable_get readable _, trivial⟩
  · cases bounded

/-- The header of a bundle is read back when the summary is, apart from the sections. -/
theorem readable_bundleHeader {arguments : BundleArguments} {version : Str} {scope : Dict}
    (summary : Readable floatRepr (.dict arguments.summary))
    (bounded : bundleScope arguments.summary arguments.suppliedFileCount = .ok scope) :
    FieldsReadable floatRepr (bundleHeader arguments version scope) ∧
      ((bundleHeader arguments version scope).map (fun field => reloadText field.1) ++
        [lit "evidence", lit "conflicts", lit "message_traces"]).Nodup := by
  have tool : ([lit "name", lit "package_version"].map reloadText).Nodup := by decide +kernel
  have apart : ([lit "schema_version", lit "tool", lit "source_format_version", lit "group_ref",
      lit "acquisition_time_bounds_ns", lit "scope", lit "ordering", lit "summary"].map reloadText ++
        [lit "evidence", lit "conflicts", lit "message_traces"]).Nodup := by decide +kernel
  exact ⟨⟨trivial, ⟨tool, trivial, trivial, trivial⟩, trivial, trivial, ⟨trivial, trivial, trivial⟩,
    readable_bundleScope summary.2 bounded, trivial, summary, trivial⟩, apart⟩

/-- The keys of the objects of the sections are told apart. -/
theorem EvidenceItem.keysApart (item : EvidenceItem) : KeysApart item.toDict := by
  have apart : ([lit "sha256", lit "body", lit "occurrences"].map reloadText).Nodup := by
    decide +kernel
  exact apart

theorem ConflictItem.keysApart (item : ConflictItem) : KeysApart item.toDict := by
  have apart : ([lit "identity", lit "evidence_refs"].map reloadText).Nodup := by decide +kernel
  exact apart

theorem TraceItem.keysApart (item : TraceItem) : KeysApart item.toDict := by
  have apart : ([lit "msg_id", lit "engines", lit "missing_engines", lit "missed_by",
      lit "absent_engines", lit "reference_ms", lit "is_divergent", lit "event_types",
        lit "states", lit "first_wall_time_ms", lit "last_wall_time_ms", lit "event_count",
          lit "evidence_refs"].map reloadText).Nodup := by decide +kernel
  exact apart

theorem EvidenceItem.readable (item : EvidenceItem) : Readable floatRepr (.dict item.toDict) :=
  ⟨item.keysApart, trivial, trivial, trivial, trivial⟩

/-- The members of the identity of a conflict. -/
def ConflictItem.identityDict (item : ConflictItem) : Dict :=
  [(lit "engine_id", .str item.identity.engineId), (lit "account_ref", .str item.identity.accountRef),
    (lit "recorder_session_id", .str item.identity.recorderSessionId), (lit "seq", item.seq)]

theorem ConflictItem.identityApart (item : ConflictItem) : KeysApart item.identityDict := by
  have apart : ([lit "engine_id", lit "account_ref", lit "recorder_session_id",
      lit "seq"].map reloadText).Nodup := by decide +kernel
  exact apart

theorem ConflictItem.readable {item : ConflictItem} (number : Readable floatRepr item.seq) :
    Readable floatRepr (.dict item.toDict) :=
  ⟨item.keysApart, ⟨item.identityApart, trivial, trivial, trivial, number, trivial⟩,
    itemsReadable_strings _, trivial⟩

theorem readable_optionalMs (time : Option Nat) : Readable floatRepr (optionalMs time) := by
  cases time <;> trivial

theorem TraceItem.readable {item : TraceItem} (message : Readable floatRepr item.trace.msgId) :
    Readable floatRepr (.dict item.toDict) :=
  ⟨item.keysApart, message, itemsReadable_strings _, itemsReadable_strings _,
    itemsReadable_strings _, itemsReadable_strings _, readable_optionalMs _, trivial,
    itemsReadable_strings _, itemsReadable_strings _, readable_optionalMs _, readable_optionalMs _,
    trivial, itemsReadable_strings _, trivial⟩

end Readable

/-! ### The entries as they are read -/

/-- An entry that is read from the evidence section says what an item lists. -/
def EvidenceItem.ReadAs (item : EvidenceItem) (entry : Json) : Prop :=
  ∃ fields : Dict, entry = .dict fields ∧ fields.get "sha256" = .str item.sha256 ∧
    fields.get "body" = .str item.body ∧ fields.get "occurrences" = .int item.occurrences

/-- An entry that is read from the conflicts section says what an item lists. -/
def ConflictItem.ReadAs (item : ConflictItem) (entry : Json) : Prop :=
  ∃ fields identity : Dict, entry = .dict fields ∧ fields.get "identity" = .dict identity ∧
    identity.get "engine_id" = .str item.identity.engineId ∧
    identity.get "account_ref" = .str item.identity.accountRef ∧
    identity.get "recorder_session_id" = .str item.identity.recorderSessionId ∧
    identity.get "seq" = item.seq ∧ fields.get "evidence_refs" = .list (item.evidenceRefs.map .str)

/-- An entry that is read from the traces section says what an item lists. -/
def TraceItem.ReadAs (item : TraceItem) (entry : Json) : Prop :=
  ∃ fields : Dict, entry = .dict fields ∧ fields.get "msg_id" = item.trace.msgId ∧
    fields.get "evidence_refs" = .list (item.evidenceRefs.map .str)

/-- The sections of an object that is read say what the sections of a bundle list. -/
structure ReadSections (object : Dict) (content : BundleContent) : Prop where
  evidence : ∃ entries, object.get "evidence" = .list entries ∧
    List.Forall₂ EvidenceItem.ReadAs content.evidence entries
  conflicts : ∃ entries, object.get "conflicts" = .list entries ∧
    List.Forall₂ ConflictItem.ReadAs content.conflicts entries
  messageTraces : ∃ entries, object.get "message_traces" = .list entries ∧
    List.Forall₂ TraceItem.ReadAs content.messageTraces entries

/-- A member with an ASCII key is read back under it. -/
theorem Dict.get_reload {fields : Dict} (apart : KeysApart fields) {key : Str} {value : Json}
    (ascii : ∀ char ∈ key, char < 0x80) (found : fields.lookup key = some value) :
    fields.reload.get key = value.reload := by
  have member := Dict.lookup_reload apart found
  rw [reloadText_of_ascii ascii] at member
  rw [Dict.get, member, Option.getD_some]

theorem reloadItems_strings {texts : List Str} (plain : ∀ text ∈ texts, reloadText text = text) :
    reloadItems (texts.map .str) = texts.map .str := by
  induction texts with
  | nil => rfl
  | cons text rest inductionHypothesis =>
      rw [List.map_cons, reloadItems, Json.reload, plain text List.mem_cons_self,
        inductionHypothesis fun other member => plain other (List.mem_cons_of_mem _ member)]

theorem EvidenceItem.readAs {item : EvidenceItem} (digest : reloadText item.sha256 = item.sha256)
    (body : reloadText item.body = item.body) : item.ReadAs (.dict item.toDict.reload) := by
  refine ⟨_, rfl, ?_, ?_, ?_⟩
  · rw [Dict.get_reload item.keysApart (by decide) rfl, Json.reload, digest]
  · rw [Dict.get_reload item.keysApart (by decide) rfl, Json.reload, body]
  · rw [Dict.get_reload item.keysApart (by decide) rfl, Json.reload]

theorem ConflictItem.readAs {item : ConflictItem}
    (engineId : reloadText item.identity.engineId = item.identity.engineId)
    (accountRef : reloadText item.identity.accountRef = item.identity.accountRef)
    (recorderSessionId :
      reloadText item.identity.recorderSessionId = item.identity.recorderSessionId)
    (seq : item.seq.reload = item.seq)
    (refs : ∀ ref ∈ item.evidenceRefs, reloadText ref = ref) :
    item.ReadAs (.dict item.toDict.reload) := by
  refine ⟨_, item.identityDict.reload, rfl, ?_, ?_, ?_, ?_, ?_, ?_⟩
  · rw [Dict.get_reload item.keysApart (by decide) rfl, ← Json.reload_dict]
    rfl
  · rw [Dict.get_reload item.identityApart (by decide) rfl, Json.reload, engineId]
  · rw [Dict.get_reload item.identityApart (by decide) rfl, Json.reload, accountRef]
  · rw [Dict.get_reload item.identityApart (by decide) rfl, Json.reload, recorderSessionId]
  · rw [Dict.get_reload item.identityApart (by decide) rfl, seq]
  · rw [Dict.get_reload item.keysApart (by decide) rfl, Json.reload, reloadItems_strings refs]

theorem TraceItem.readAs {item : TraceItem} (message : item.trace.msgId.reload = item.trace.msgId)
    (refs : ∀ ref ∈ item.evidenceRefs, reloadText ref = ref) :
    item.ReadAs (.dict item.toDict.reload) := by
  refine ⟨_, rfl, ?_, ?_⟩
  · rw [Dict.get_reload item.keysApart (by decide) rfl, message]
  · rw [Dict.get_reload item.keysApart (by decide) rfl, Json.reload, reloadItems_strings refs]

/-! ### The texts of a bundle -/

/-- The digits of a digest are read back as they are. -/
theorem reloadText_digest {env : Env} (hex : HexDigests env) (data : List UInt8) :
    reloadText (env.sha256 data) = env.sha256 data := by
  apply reloadText_of_ascii
  intro digit member
  have lower := (hex data).2 digit member
  simp [isLowerHexDigit] at lower
  omega

/-- The texts of a parsed event are read back as they are. -/
theorem reloadText_field {body : List UInt8} {event : Dict} (parsed : parseBody body = .ok event)
    (key : Str) : reloadText (valueIfStr (event.get key)) = valueIfStr (event.get key) := by
  obtain ⟨text, -, -, scalars, loaded⟩ := Evidence.decoded_of_parseBody parsed
  have parsedText : jsonLoads text = some (.dict event) := by
    unfold loadsAuditJson at loaded
    split at loaded
    · cases loaded
    · exact loaded
  cases found : event.lookup key with
  | none =>
      rw [Dict.get, found]
      rfl
  | some value =>
      rw [Dict.get, found, Option.getD_some]
      cases value with
      | str content => exact reloadText_of_unpaired (unpaired_of_jsonLoads scalars parsedText found)
      | null | bool | int | float | list | dict => rfl

/-- The number of a valid event is read back as it is. -/
theorem reload_seq {body : List UInt8} {event : Dict} (parsed : parseBody body = .ok event) :
    (event.get "seq").reload = event.get "seq" := by
  have valid : schemaErrorCode event = none := by
    unfold parseBody at parsed
    split at parsed
    · cases parsed
    split at parsed
    · split at parsed
      · next accepted =>
          cases parsed
          exact accepted
      · cases parsed
    · cases parsed
  obtain ⟨-, kind, kindType, variant, -, -, -, accepted⟩ := schemaErrorCode_eq_none_iff.mp valid
  rcases Schema.property_cases accepted (lit "seq") with absent | ⟨inner, value, listed, found, fits⟩
  · have blank : event.get "seq" = .null := by
      rw [Dict.get, absent, Option.getD_none]
    rw [blank]
    rfl
  · have number : event.get "seq" = value := by
      rw [Dict.get, found, Option.getD_some]
    have integer : (auditEvent variant).property (lit "seq") = some u64 := rfl
    rw [integer, Option.some.injEq] at listed
    subst listed
    rw [number]
    cases value with
    | int | float => rfl
    | null | bool | str | list | dict => simp [u64, Schema.valid, validInteger] at fits

/-- The records that were normalized have no errors. -/
theorem Evidence.reconstruct_clean {evidence : Evidence} {group : Str}
    {reconstruction : Evidence.Reconstruction}
    (reconstructed : evidence.reconstruct group = .ok reconstruction) :
    ∀ entry ∈ evidence.groupRecords group, (normalizeEvent entry.2.event).errors = [] := by
  unfold Evidence.reconstruct at reconstructed
  dsimp only at reconstructed
  split at reconstructed
  · cases reconstructed
  · next clean =>
      intro entry member
      by_contra errors
      exact clean (List.any_eq_true.mpr ⟨entry, member, decide_eq_true errors⟩)

theorem idColumnTypes_persisted : ∀ column ∈ idColumnTypes,
    persistedNormalizedFields.contains column.1 = true := by
  decide +kernel

/-- A message that is mentioned has a valid id. -/
theorem isValidMessageId_of_mentions {env : Env} {bodies : List (List UInt8)} {group : Str}
    {evidence : Evidence} {reconstruction : Evidence.Reconstruction} {msgId : Json}
    {record : Record} (holds : evidence.Holds env bodies) (distinct : DistinctDigests env bodies)
    (reconstructed : evidence.reconstruct group = .ok reconstruction)
    (mentions : Mentions bodies group msgId record) : isValidMessageId msgId = true := by
  have member : (env.sha256 record.body, record) ∈ evidence.groupRecords group := by
    rw [Evidence.groupRecords, List.mem_filter, mem_inOrder, ← Keyed.find_eq_some_iff,
      holds.find_selected_iff distinct]
    exact ⟨⟨mentions.selected, rfl⟩, mentions.grouped⟩
  have clean := Evidence.reconstruct_clean reconstructed _ member
  obtain ⟨kind, kindType, variant, classified, fits⟩ := classified_of_clean clean
  have columns : ∀ column ∈ idColumnTypes, record.model.normalized.get column.1 =
      (normalizeEvent record.event).normalized.get column.1 := by
    intro column listed
    rw [Record.model, Evidence.auditEventOf, Dict.get, lookup_filter_key,
      if_pos (idColumnTypes_persisted column listed), Dict.get]
  exact isValidMessageId_of_mem classified fits columns mentions.named

/-- A value that is a valid message id is read back as it is. -/
theorem reload_messageId {msgId : Json} (valid : isValidMessageId msgId = true) :
    msgId.reload = msgId := by
  cases msgId with
  | str text =>
      simp only [isValidMessageId, isHexOfLength, hexFullmatch, Bool.and_eq_true,
        List.all_eq_true] at valid
      rw [Json.reload, reloadText_of_ascii]
      intro digit member
      have hex := valid.2.2 digit member
      simp [isHexDigit] at hex
      omega
  | null | bool | int | float => rfl
  | list | dict => simp [isValidMessageId, isHexOfLength] at valid

section Sections

variable {env : Env} {floatRepr : PyFloat → Str} {bodies : List (List UInt8)}
  {evidence : Evidence} {group : Str} {reconstruction : Evidence.Reconstruction}

/-- The row of a conflict is about a selected record. -/
theorem exists_record_of_conflict (holds : evidence.Holds env bodies)
    (distinct : DistinctDigests env bodies) {item : ConflictItem}
    (member : item ∈ (evidence.bundleContent group reconstruction).conflicts) :
    ∃ record, SelectedRecord bodies group record ∧ item.identity = session record.event ∧
      item.seq = record.event.get "seq" := by
  obtain ⟨row, listed, rfl⟩ := List.mem_map.mp member
  obtain ⟨⟨digest, record⟩, inside, mine, seq⟩ := Evidence.exists_conflictItem_record listed
  have named : row.1.1 = session record.event := (congrArg Prod.fst mine).symm
  exact ⟨record, ((holds.mem_orderedRecords distinct).mp inside).1, named, seq⟩

/-- A trace is about a message that some record mentions. -/
theorem messageId_of_trace (holds : evidence.Holds env bodies)
    (distinct : DistinctDigests env bodies)
    (reconstructed : evidence.reconstruct group = .ok reconstruction) {item : TraceItem}
    (member : item ∈ (evidence.bundleContent group reconstruction).messageTraces) :
    item.trace.msgId.reload = item.trace.msgId := by
  obtain ⟨record, mentions⟩ :=
    ((holds.canonicalContent distinct reconstructed).traced _).mp ⟨item, member, rfl⟩
  exact reload_messageId (isValidMessageId_of_mentions holds distinct reconstructed mentions)

/-- The entries of the evidence section are read as they are. -/
theorem readAs_of_evidence (holds : evidence.Holds env bodies)
    (distinct : DistinctDigests env bodies) (hex : HexDigests env) {item : EvidenceItem}
    (member : item ∈ (evidence.bundleContent group reconstruction).evidence) :
    item.ReadAs (.dict item.toDict.reload) := by
  obtain ⟨⟨digest, record⟩, inside, rfl⟩ := List.mem_map.mp member
  obtain ⟨selected, rfl⟩ := (holds.mem_orderedRecords distinct).mp inside
  obtain ⟨text, decoded, -, scalars, -⟩ := Evidence.decoded_of_parseBody selected.parsed
  apply EvidenceItem.readAs
  · exact reloadText_digest hex _
  · rw [decoded]
    exact reloadText_of_unpaired (unpaired_of_scalars scalars)

/-- The entries of the conflicts section are read as they are. -/
theorem readAs_of_conflict (holds : evidence.Holds env bodies)
    (distinct : DistinctDigests env bodies) (hex : HexDigests env)
    (reconstructed : evidence.reconstruct group = .ok reconstruction) {item : ConflictItem}
    (member : item ∈ (evidence.bundleContent group reconstruction).conflicts) :
    item.ReadAs (.dict item.toDict.reload) := by
  obtain ⟨record, selected, named, number⟩ := exists_record_of_conflict holds distinct member
  have refs := ((holds.canonicalContent distinct reconstructed).conflictRefs item member).2
  apply ConflictItem.readAs
  · rw [named]
    exact reloadText_field selected.parsed _
  · rw [named]
    exact reloadText_field selected.parsed _
  · rw [named]
    exact reloadText_field selected.parsed _
  · rw [number]
    exact reload_seq selected.parsed
  · intro ref listed
    obtain ⟨_, -, -, rfl⟩ := (refs ref).mp listed
    exact reloadText_digest hex _

/-- The entries of the traces section are read as they are. -/
theorem readAs_of_trace (holds : evidence.Holds env bodies)
    (distinct : DistinctDigests env bodies) (hex : HexDigests env)
    (reconstructed : evidence.reconstruct group = .ok reconstruction) {item : TraceItem}
    (member : item ∈ (evidence.bundleContent group reconstruction).messageTraces) :
    item.ReadAs (.dict item.toDict.reload) := by
  have refs := ((holds.canonicalContent distinct reconstructed).traceRefs item member).2
  apply TraceItem.readAs
  · exact messageId_of_trace holds distinct reconstructed member
  · intro ref listed
    obtain ⟨_, -, rfl⟩ := (refs ref).mp listed
    exact reloadText_digest hex _

/-- The sections of an object that is read back say what they list. -/
theorem readSections_bundleObject (holds : evidence.Holds env bodies)
    (distinct : DistinctDigests env bodies) (hex : HexDigests env)
    (reconstructed : evidence.reconstruct group = .ok reconstruction) {header : Dict}
    (apart : (header.map (fun field => reloadText field.1) ++
      [lit "evidence", lit "conflicts", lit "message_traces"]).Nodup) :
    ReadSections (bundleObject header (evidence.bundleContent group reconstruction))
      (evidence.bundleContent group reconstruction) := by
  have entries := @readAs_of_evidence env bodies evidence group reconstruction holds distinct hex
  have conflicts := @readAs_of_conflict env bodies evidence group reconstruction holds distinct hex
    reconstructed
  have traces := @readAs_of_trace env bodies evidence group reconstruction holds distinct hex
    reconstructed
  generalize evidence.bundleContent group reconstruction = content at entries conflicts traces ⊢
  have once : ((bundleObject header content).map Prod.fst).Nodup := by
    rw [bundleObject, List.map_append, Dict.reload_eq, List.map_map]
    exact (((perm_inOrder Prod.fst header).map _).append_right _).nodup_iff.mpr apart
  have found : ∀ {name : Str} {value : Json}, (name, value) ∈ bundleObject header content →
      (bundleObject header content).get name = value := by
    intro name value member
    rw [Dict.get, Dict.lookup_of_mem once member, Option.getD_some]
  constructor
  · refine ⟨content.evidence.map fun item => .dict item.toDict.reload,
      found (List.mem_append_right _ (by simp)), ?_⟩
    rw [List.forall₂_map_right_iff, List.forall₂_same]
    exact fun item member => entries member
  · refine ⟨content.conflicts.map fun item => .dict item.toDict.reload,
      found (List.mem_append_right _ (by simp)), ?_⟩
    rw [List.forall₂_map_right_iff, List.forall₂_same]
    exact fun item member => conflicts member
  · refine ⟨content.messageTraces.map fun item => .dict item.toDict.reload,
      found (List.mem_append_right _ (by simp)), ?_⟩
    rw [List.forall₂_map_right_iff, List.forall₂_same]
    exact fun item member => traces member

end Sections

/-! ### A bundle that was written -/

/-- What `prepareBundle` returns. -/
theorem prepareBundle_eq_ok {toolVersion : Option Str} {evidence : Evidence}
    {arguments : BundleArguments} {header : Dict} {content : BundleContent}
    (prepared : prepareBundle toolVersion evidence arguments = .ok (header, content)) :
    ∃ reconstruction version scope,
      evidence.reconstruct arguments.group = .ok reconstruction ∧ toolVersion = some version ∧
        bundleScope arguments.summary arguments.suppliedFileCount = .ok scope ∧
        header = bundleHeader arguments version scope ∧
        content = evidence.bundleContent arguments.group reconstruction := by
  unfold prepareBundle at prepared
  cases reconstructed : evidence.reconstruct arguments.group with
  | error incomplete =>
      rw [reconstructed] at prepared
      cases prepared
  | ok reconstruction =>
      rw [reconstructed] at prepared
      cases toolVersion with
      | none => cases prepared
      | some version =>
          cases bounded : bundleScope arguments.summary arguments.suppliedFileCount with
          | error exception =>
              simp [bounded, bind, Except.bind] at prepared
          | ok scope =>
              simp only [bounded, bind, Except.bind, pure, Except.pure, Except.ok.injEq,
                Prod.mk.injEq] at prepared
              exact ⟨reconstruction, version, scope, rfl, rfl, rfl, prepared.1.symm,
                prepared.2.symm⟩

/-- What is written for some bodies is read back as what they say. -/
theorem readBack_written {env : Env} {floatRepr : PyFloat → Str} {bodies : List (List UInt8)}
    {evidence : Evidence} {arguments : BundleArguments} {toolVersion : Option Str} {header : Dict}
    {content : BundleContent} {text : Str} (holds : evidence.Holds env bodies)
    (hex : HexDigests env) (distinct : DistinctDigests env bodies)
    (numbers : ∀ body ∈ bodies, ∀ event, parseBody body = .ok event →
      Readable floatRepr (event.get "seq"))
    (summary : Readable floatRepr (.dict arguments.summary))
    (prepared : prepareBundle toolVersion evidence arguments = .ok (header, content))
    (written : bundleText (bundlePieces floatRepr header content) = some text) :
    ∃ object, jsonLoads text = some (.dict object) ∧ ReadSections object content ∧
      CanonicalContent env bodies arguments.group content := by
  obtain ⟨reconstruction, version, scope, reconstructed, -, bounded, rfl, rfl⟩ :=
    prepareBundle_eq_ok prepared
  obtain ⟨values, apart⟩ := @readable_bundleHeader _ _ version _ summary bounded
  refine ⟨_, jsonLoads_of_readBack (readBack_bundle ?_ written),
    readSections_bundleObject holds distinct hex reconstructed apart,
    holds.canonicalContent distinct reconstructed⟩
  constructor
  · exact List.cons_ne_nil _ _
  · exact values
  · exact apart
  · exact fun item _ => item.readable
  · intro item member
    obtain ⟨record, selected, -, number⟩ := exists_record_of_conflict holds distinct member
    apply ConflictItem.readable
    rw [number]
    exact numbers _ selected.present _ selected.parsed
  · intro item member
    obtain ⟨record, mentions⟩ :=
      ((holds.canonicalContent distinct reconstructed).traced _).mp ⟨item, member, rfl⟩
    apply TraceItem.readable
    have valid := isValidMessageId_of_mentions holds distinct reconstructed mentions
    cases message : item.trace.msgId with
    | str => trivial
    | null | bool | int | float | list | dict =>
        rw [message] at valid
        simp [isValidMessageId, isHexOfLength] at valid

/-- What a call leaves that returns. -/
theorem writeBundle_returned {platform : Platform} {floatRepr : PyFloat → Str}
    {toolVersion : Option Str} {isAbsolute : Bool} {target : Str} {evidence : Evidence}
    {arguments : BundleArguments} {before machine : Machine}
    (completed : writeBundle platform floatRepr toolVersion isAbsolute target evidence arguments
      before = .ok ⟨⟩ machine) :
    ∃ header content text file,
      prepareBundle toolVersion evidence arguments = .ok (header, content) ∧
      bundleText (bundlePieces floatRepr header content) = some text ∧
      machine.directory.find target = some file ∧ machine.files file = encodeUtf8 text := by
  have start : Added before [] before := ⟨by simp, by simp, fun _ _ => rfl, le_rfl⟩
  have result := @writeBundle_triple platform before floatRepr toolVersion isAbsolute target
    evidence arguments before start
  rw [completed] at result
  obtain ⟨header, content, text, prepared, complete, file, held, same⟩ := result
  exact ⟨header, content, text, file, prepared, complete,
    (held.names target file).mpr (.inr (List.mem_singleton.mpr rfl)), same⟩

/-- The file of a name holds a text. -/
def HoldsText (machine : Machine) (target : Str) (text : Str) : Prop :=
  ∃ file, machine.directory.find target = some file ∧ machine.files file = encodeUtf8 text

/-- Evidence of the same bodies in another order is prepared in the same way. -/
theorem Evidence.SameSelection.prepareBundle_eq {toolVersion : Option Str} {left right : Evidence}
    {arguments : BundleArguments} (same : SameSelection arguments.group left right) :
    prepareBundle toolVersion left arguments = prepareBundle toolVersion right arguments := by
  unfold prepareBundle
  rw [same.reconstruct_eq]
  cases right.reconstruct arguments.group with
  | error incomplete => rfl
  | ok reconstruction => simp only [same.bundleContent_eq]

/-- Two records of one session and number, about one message. -/
def conflictingBodies : List (List UInt8) :=
  [encodeUtf8 (outcomeRecord (lit "e") 100 sessionMembers 'a'),
    encodeUtf8 (outcomeRecord (lit "e") 200 sessionMembers 'a')]

/-- Knows both records. -/
def conflictingEnv : Env :=
  hexEnv
    [(outcomeRecord (lit "e") 100 sessionMembers 'a',
        lit "b0a74349c1a965c8b702e3e97e201867" ++ lit "15e76aaf98110dc70422cd8c186a11f5"),
      (outcomeRecord (lit "e") 200 sessionMembers 'a',
        lit "37c1369a56f1e0ab44fe830d45f78443" ++ lit "849af6082a40793cc46fac0cec5be7e1")]

/-- The evidence of both records. -/
def conflictingEvidence : Evidence :=
  ((Evidence.addBodies conflictingEnv conflictingBodies .empty).toOption).getD .empty

/-- The bundle of both records is written to `new`. -/
def writeConflicting : EStateM.Result BundleError Machine PUnit :=
  writeBundle (failing []) (fun _ => []) (some (lit "1")) true (lit "new") conflictingEvidence
    emptyArguments occupied

/-- A bundle that is written for some bodies is one JSON object whose sections list what the bodies
say, and every bundle written for the same bodies in another order is the same text. -/
theorem writeBundle_canonical (env : Env) (platform : Platform) (floatRepr : PyFloat → Str)
    (toolVersion : Option Str) (isAbsolute : Bool) (target : Str) (bodies : List (List UInt8))
    (evidence : Evidence) (arguments : BundleArguments) (before machine : Machine)
    (added : Evidence.addBodies env bodies .empty = .ok evidence) (hex : HexDigests env)
    (distinct : DistinctDigests env bodies)
    (numbers : ∀ body ∈ bodies, ∀ event, parseBody body = .ok event →
      Readable floatRepr (event.get "seq"))
    (summary : Readable floatRepr (.dict arguments.summary))
    (completed : writeBundle platform floatRepr toolVersion isAbsolute target evidence arguments
      before = .ok ⟨⟩ machine) :
    ∃ text, HoldsText machine target text ∧
      (∃ object content, jsonLoads text = some (.dict object) ∧ ReadSections object content ∧
        CanonicalContent env bodies arguments.group content) ∧
      ∀ (others : List (List UInt8)) (other : Evidence) (elsewhere : Platform)
        (otherAbsolute : Bool) (otherTarget : Str) (otherBefore otherMachine : Machine),
        others.Perm bodies → Evidence.addBodies env others .empty = .ok other →
        writeBundle elsewhere floatRepr toolVersion otherAbsolute otherTarget other arguments
          otherBefore = .ok ⟨⟩ otherMachine →
        HoldsText otherMachine otherTarget text := by
  have holds : evidence.Holds env bodies := by
    simpa using (Evidence.holds_empty env).addBodies added
  obtain ⟨header, content, text, file, prepared, written, found, bytes⟩ :=
    writeBundle_returned completed
  obtain ⟨object, loaded, sections, canonical⟩ :=
    readBack_written holds hex distinct numbers summary prepared written
  refine ⟨text, ⟨file, found, bytes⟩, ⟨object, content, loaded, sections, canonical⟩, ?_⟩
  intro others other elsewhere otherAbsolute otherTarget otherBefore otherMachine perm otherAdded
    otherCompleted
  have otherHolds : other.Holds env others := by
    simpa using (Evidence.holds_empty env).addBodies otherAdded
  have same : Evidence.SameSelection arguments.group evidence other :=
    Evidence.sameSelection_of_perm holds otherHolds distinct perm
  obtain ⟨otherHeader, otherContent, otherText, otherFile, otherPrepared, otherWritten, otherFound,
    otherBytes⟩ := writeBundle_returned otherCompleted
  rw [← same.prepareBundle_eq, prepared, Except.ok.injEq, Prod.mk.injEq] at otherPrepared
  obtain ⟨rfl, rfl⟩ := otherPrepared
  rw [written, Option.some.injEq] at otherWritten
  subst otherWritten
  exact ⟨otherFile, otherFound, otherBytes⟩

theorem writeBundle_canonical_conflict :
    ∃ machine text, HoldsText machine (lit "new") text ∧
      ∃ object content, jsonLoads text = some (.dict object) ∧ ReadSections object content ∧
        CanonicalContent conflictingEnv conflictingBodies (lit "ab") content := by
  have added : Evidence.addBodies conflictingEnv conflictingBodies .empty =
      .ok conflictingEvidence := by
    have present : (Evidence.addBodies conflictingEnv conflictingBodies .empty).toOption.isSome =
        true := by decide +kernel
    unfold conflictingEvidence
    cases ran : Evidence.addBodies conflictingEnv conflictingBodies .empty with
    | error incomplete =>
        rw [ran] at present
        cases present
    | ok evidence => rfl
  have distinct : DistinctDigests conflictingEnv conflictingBodies := by
    unfold DistinctDigests
    decide +kernel
  have parsed : ∀ body ∈ conflictingBodies,
      (parseBody body).toOption.map (·.get "seq") = some (.int 0) := by decide +kernel
  have returned : (leftNames writeConflicting).1 = none := by decide +kernel
  cases ran : writeConflicting with
  | error exception machine =>
      rw [ran] at returned
      cases returned
  | ok value machine =>
      have numbers : ∀ body ∈ conflictingBodies, ∀ event, parseBody body = .ok event →
          Readable (fun _ => []) (event.get "seq") := by
        intro body member event read
        have number := parsed body member
        rw [read] at number
        have zero : event.get "seq" = .int 0 := Option.some.inj number
        rw [zero]
        trivial
      have summary : Readable (fun _ => []) (.dict emptyArguments.summary) :=
        ⟨List.nodup_singleton _, trivial, trivial⟩
      obtain ⟨text, holds, listed, -⟩ := writeBundle_canonical conflictingEnv (failing [])
        (fun _ => []) (some (lit "1")) true (lit "new") conflictingBodies conflictingEvidence
        emptyArguments occupied machine added (hexDigests_hexEnv _) distinct numbers summary ran
      exact ⟨machine, text, holds, listed⟩

end Goggles
