/-
Module: Goggles.Ingest.Backfill
Purpose: The member an upload is stored with and the member that migration 0019 computes from the
  stored text: they differ where whitespace that `json.loads` does not skip surrounds a line.
Trusted boundary: forensics/migrations/0019_backfill_source_local_member_ref.py, `line_source`,
  `raw_sources`, `file_local_member_ref`
Main exports: lineSource, rawSources, backfilledMemberRef, PaddingChangesRef, backfill_iff
-/
import Goggles.Ingest.Accepted
import Goggles.Ingest.Metadata
import Goggles.Python.PlainJson
import Goggles.Store.Upload

namespace Goggles

/-! ### The migration -/

/-- `value or {}` where a dict is expected; `none` is the `AttributeError` of another value. -/
def orEmptyDict (value : Json) : Option Dict :=
  if value.truthy then
    match value with
    | .dict fields => some fields
    | _ => none
  else some []

/-- `line_source`: a `source_context` kind wins over `context.source`. -/
def lineSource (event : Dict) : Option Dict := do
  let kind ← orEmptyDict (event.get "kind")
  match kind.get "source" with
  | .dict source =>
      if kind.get "type" = .str (lit "source_context") then some source else contextSource
  | _ => contextSource
where
  contextSource : Option Dict := do
    let context ← orEmptyDict (event.get "context")
    some (context.get "source").dictOrEmpty

/-- A line that holds an event of the schema version; the others are skipped. -/
def versionedEvent (nan : Json) (rawLine : Str) : Option Dict :=
  match plainLoads nan rawLine with
  | some (.dict event) =>
      if Dict.get event "schema_version" = .str SCHEMA_VERSION then some event else none
  | _ => none

/-- `raw_sources`. -/
def rawSources (nan : Json) (rawText : Str) : Option (List Dict) :=
  ((splitOn 0x0a rawText).filterMap (versionedEvent nan)).mapM lineSource

/-- What the migration stores for a file; its `file_local_member_ref` is that of the upload. -/
def backfilledMemberRef (nan : Json) (rawText : Str) : Option Str :=
  (rawSources nan rawText).map fileLocalMemberRef

/-! ### One file speaks for one member -/

/-- `str(source.get("local_member_ref") or "").lower()`. -/
def sourceMemberRef (source : Dict) : Str :=
  (source.get "local_member_ref").textOrEmpty.map asciiLower

/-- `LOCAL_MEMBER_REF_PATTERN.fullmatch(ref)`. -/
def IsMemberRef (ref : Str) : Prop := ref.length = 32 ∧ ref.all isLowerHexDigit = true

/-- Of what is named, apart from the blank, all is one well-formed reference. -/
structure SpeaksFor (mentions : Str → Prop) (ref : Str) : Prop where
  formed : IsMemberRef ref
  mentioned : mentions ref
  alone : ∀ other, mentions other → other ≠ [] → other = ref

theorem IsMemberRef.present {ref : Str} (formed : IsMemberRef ref) : ref ≠ [] := by
  rintro rfl
  cases formed.1

/-- The one reference a file speaks for, or the blank. -/
theorem fileLocalMemberRef_eq_iff {sources : List Dict} {ref : Str} (present : ref ≠ []) :
    fileLocalMemberRef sources = ref ↔
      SpeaksFor (fun other => ∃ source ∈ sources, sourceMemberRef source = other) ref := by
  have listed : ∀ other, other ∈ ((sources.map sourceMemberRef).filter (· ≠ [])).dedup ↔
      (∃ source ∈ sources, sourceMemberRef source = other) ∧ other ≠ [] := by
    intro other
    simp
  have distinct := ((sources.map sourceMemberRef).filter (· ≠ [])).nodup_dedup
  have named : (sources.map fun source =>
      (source.get "local_member_ref").textOrEmpty.map asciiLower) = sources.map sourceMemberRef := rfl
  simp only [fileLocalMemberRef, named]
  generalize ((sources.map sourceMemberRef).filter (· ≠ [])).dedup = refs at listed distinct ⊢
  constructor
  · intro found
    split at found
    · next only =>
        split at found
        · next formed =>
            subst found
            refine ⟨formed, ((listed only).mp List.mem_cons_self).1, ?_⟩
            intro other named filled
            exact List.mem_singleton.mp ((listed other).mpr ⟨named, filled⟩)
        · exact absurd found.symm present
    · exact absurd found.symm present
  · intro speaks
    have same : refs = [ref] := by
      apply List.perm_singleton.mp
      apply (List.perm_ext_iff_of_nodup distinct (List.nodup_singleton ref)).mpr
      intro other
      rw [listed, List.mem_singleton]
      constructor
      · rintro ⟨named, filled⟩
        exact speaks.alone other named filled
      · rintro rfl
        exact ⟨speaks.mentioned, present⟩
    rw [same]
    exact if_pos speaks.formed

/-! ### What the lines declare -/

/-- Only whitespace that `json.loads` skips surrounds the line. -/
def jsonPadded (line : Str) : Bool :=
  (line.takeWhile isSpace ++ ((line.dropWhile isSpace).reverse.takeWhile isSpace).reverse).all
    isJsonSpace

/-- The reference that a line declares, read as the upload reads it. -/
def declaredRef (line : Str) : Str :=
  match loadsAuditJson (strip line) with
  | some (.dict event) => sourceMemberRef ((lineSource event).getD [])
  | _ => []

/-- A reference that some of the lines declare. -/
def Declares (lines : List Str) (ref : Str) : Prop := ref ≠ [] ∧ ∃ line ∈ lines, declaredRef line = ref

/-- All the references the lines declare are one. -/
def DeclaresOnly (lines : List Str) (ref : Str) : Prop :=
  Declares lines ref ∧ ∀ other, Declares lines other → other = ref

/-- The lines padded with JSON whitespace alone declare nothing while all the lines together declare
one member, or declare one member while another line declares another reference. -/
def PaddingChangesRef (lines : List Str) : Prop :=
  ∃ ref, IsMemberRef ref ∧
    ((DeclaresOnly lines ref ∧ ∀ other, ¬ Declares (lines.filter jsonPadded) other) ∨
      (DeclaresOnly (lines.filter jsonPadded) ref ∧ ∃ other, Declares lines other ∧ other ≠ ref))

/-! ### The lines of an accepted upload -/

theorem strip_append_space (text : Str) {char : Nat} (space : isSpace char = true) :
    strip (text ++ [char]) = strip text := by
  unfold strip
  rw [List.dropWhile_append]
  split
  · next blank =>
      rw [List.isEmpty_iff] at blank
      simp [blank, space]
  · rw [List.reverse_append, List.reverse_singleton, List.singleton_append,
      List.dropWhile_cons_of_pos space]

/-- The carriage return of a line end is stripped anyway. -/
theorem strip_dropCarriageReturn (line : Str) :
    strip (if line.getLast? = some 0x0d then line.dropLast else line) = strip line := by
  split
  · next ends =>
      have whole := List.dropLast_append_getLast? 0x0d ends
      conv_rhs => rw [← whole]
      exact (strip_append_space _ (by decide)).symm
  · rfl

/-- A line is what was stripped off and what is left. -/
theorem eq_strip_padded (line : Str) :
    line = line.takeWhile isSpace ++
      (strip line ++ ((line.dropWhile isSpace).reverse.takeWhile isSpace).reverse) := by
  rw [strip, ← List.reverse_append, List.takeWhile_append_dropWhile, List.reverse_reverse,
    List.takeWhile_append_dropWhile]

/-- What is left starts with no whitespace. -/
theorem head_strip (line : Str) : ∀ char ∈ (strip line).head?, isSpace char = false := by
  intro char member
  have starts : strip line <+: line.dropWhile isSpace := by
    rw [strip, ← List.reverse_suffix, List.reverse_reverse]
    exact List.dropWhile_suffix _
  have first : char ∈ (line.dropWhile isSpace).head? := by
    obtain ⟨rest, whole⟩ := starts
    rw [← whole, List.head?_append, member]
    rfl
  have stops := List.head?_dropWhile_not isSpace line
  rw [first] at stops
  simpa using stops

theorem all_isSpace_takeWhile (text : Str) : ∀ char ∈ text.takeWhile isSpace, isSpace char = true :=
  List.all_eq_true.mp List.all_takeWhile

/-- A blank line holds nothing for either reader. -/
theorem plainLoads_of_strip_nil {nan : Json} {line : Str} (blank : strip line = []) :
    plainLoads nan line = none := by
  apply plainLoads_blank
  intro char member
  rw [eq_strip_padded line, blank, List.nil_append, List.mem_append, List.mem_reverse] at member
  exact member.elim (all_isSpace_takeWhile _ char) (all_isSpace_takeWhile _ char)

/-- `json.loads` reads what the upload reads, unless a line is padded with other whitespace. -/
theorem plainLoads_of_loadsAuditJson {nan : Json} {line : Str} {value : Json}
    (loaded : loadsAuditJson (strip line) = some value) :
    plainLoads nan line = if jsonPadded line then some value else none := by
  have read : jsonLoads (strip line) = some value := by
    unfold loadsAuditJson at loaded
    split at loaded
    · cases loaded
    · exact loaded
  conv_lhs => rw [eq_strip_padded line]
  rw [plainLoads_padded (head_strip line) (all_isSpace_takeWhile _) _ read]
  · simp only [jsonPadded, List.all_eq_true]
  · intro char member
    exact all_isSpace_takeWhile _ char (List.mem_reverse.mp member)

/-! ### The source of an event -/

@[simp] theorem orEmptyDict_dict (fields : Dict) : orEmptyDict (.dict fields) = some fields := by
  cases fields with
  | nil => rfl
  | cons entry rest => rfl

/-- `source_context` is the kind that declares a source. -/
def sourceContextVariant : Schema :=
  (variant "source_context" ["source"] [("source", auditSourceContext)]).2

/-- The other kinds leave its column alone. -/
theorem contextSource_untouched :
    (∀ entry ∈ kindBranches, entry.1 ≠ lit "source_context" →
        lit "context_source" ∉ entry.2.flatMap Copy.dests) ∧
      kindCopies (lit "source_context") = [.field (copyDict "source" "context_source")] ∧
      auditEventKinds.lookup (lit "source_context") = some sourceContextVariant := by
  refine ⟨by decide +kernel, by decide +kernel, by rfl⟩

/-- The rule that copies `context.source`. -/
theorem contextSourceRule : ∃ rule ∈ contextObjectRules, rule.field = lit "source" ∧
    rule.dest = lit "context_source" ∧ rule.dest ∉ copyHumanActionFields.map (·.dest) ∧
    rule.dest ∉ envelopeFields ∧ rule.dest ∉ [lit "raw_context", lit "context_operation_id",
      lit "context_human_action", lit "raw_kind", lit "event_type"] := by
  decide +kernel

/-- The migration reads the source of a clean event that its row is stored with. -/
theorem lineSource_of_clean {event : Dict} (clean : (normalizeEvent event).errors = []) :
    lineSource event =
      some ((normalizeEvent event).normalized.get "context_source").dictOrEmpty := by
  obtain ⟨kind, kindType, schema, classified, fits⟩ := classified_of_clean clean
  have kindRead : orEmptyDict (event.get "kind") = some kind := by
    rw [classified.kindFound, orEmptyDict_dict]
  by_cases declares : kindType = lit "source_context"
  · subst declares
    have same : schema = sourceContextVariant :=
      Option.some.inj (classified.listed.symm.trans contextSource_untouched.2.2)
    subst same
    have kindValid : sourceContextVariant.valid (.dict kind) = true := by
      obtain ⟨value, found, valid⟩ := Schema.valid_required classified.valid
        (lit "kind") sourceContextVariant (by simp) (by simp)
      have same : value = .dict kind := by
        rw [← classified.kindFound, Dict.get, found]
        rfl
      exact same ▸ valid
    obtain ⟨value, found, valid⟩ := Schema.valid_required kindValid
      (lit "source") auditSourceContext (by simp) (by simp)
    obtain ⟨source, same⟩ := Schema.eq_dict_of_valid_object valid
    subst same
    have sourceFound : Dict.get kind "source" = .dict source := by
      rw [Dict.get, found]
      rfl
    have stored : (normalizeEvent event).normalized.get "context_source" = .dict source := by
      rw [normalizeEvent_of_classified classified, normalizeKind, contextSource_untouched.2.1,
        List.foldl_cons, List.foldl_nil, Copy.run]
      simp [CopyRule.run, copyDict, CopyType.accepts, CopyRule.limitError, sourceFound]
    rw [stored, lineSource, kindRead]
    simp [sourceFound, classified.typeFound, Json.dictOrEmpty]
  · obtain ⟨rule, member, field, dest, notAction, notEnvelope, notOther⟩ := contextSourceRule
    obtain ⟨copied, -⟩ := beforeKind_get_context classified member []
      [("device_id", .string 0), ("hardware_model", .string 0), ("platform", .string 0),
        ("app_version", .string 0), ("upload_trigger", .string 0), ("local_member_ref", refHex16)]
      (by simp [field, auditSourceContext]) notAction ⟨notEnvelope, notOther⟩ fits
    rw [field, dest] at copied
    have apart : ∀ copy ∈ kindCopies kindType, lit "context_source" ∉ copy.dests := by
      intro copy copyMember written
      unfold kindCopies at copyMember
      cases found : kindBranches.lookup kindType with
      | none => simp [found] at copyMember
      | some copies =>
          rw [found, Option.getD_some] at copyMember
          obtain ⟨before, after, split, -⟩ := List.lookup_eq_some_iff.mp found
          apply contextSource_untouched.1 (kindType, copies) (by simp [split]) declares
          exact List.mem_flatMap.mpr ⟨copy, copyMember, written⟩
    have stored : (normalizeEvent event).normalized.get "context_source" =
        (event.get "context").dictOrEmpty.get "source" := by
      rw [normalizeEvent_of_classified classified]
      exact (runCopies_get_of_apart kind _ apart).trans copied
    have contextRead : orEmptyDict (event.get "context") =
        some (event.get "context").dictOrEmpty := by
      rcases classified.context_cases with absent | ⟨fields, found, -⟩
      · rw [absent]
        rfl
      · rw [found, orEmptyDict_dict]
        rfl
    have declared : lineSource.contextSource event =
        some ((normalizeEvent event).normalized.get "context_source").dictOrEmpty := by
      rw [stored, lineSource.contextSource, contextRead]
      rfl
    rw [lineSource, kindRead, Option.bind_eq_bind, Option.bind_some]
    have other : Dict.get kind "type" ≠ .str (lit "source_context") := by
      rw [classified.typeFound]
      exact fun same => declares (Json.str.inj same)
    split
    · rw [if_neg other, declared]
    · exact declared

/-! ### The lines of an accepted upload -/

/-- Every line that is not blank is parsed. -/
theorem mem_parseRecords_of_line {env : Env} {lineNumber parsedCount : Nat} {lines : List Str}
    {parsedLines : List ParsedLine}
    (parsed : parseRecords env lineNumber parsedCount lines = some parsedLines) {line : Str}
    (member : line ∈ lines) (filled : strip line ≠ []) :
    ∃ number, parseLine env number (strip line) ∈ parsedLines := by
  induction lines generalizing lineNumber parsedCount parsedLines with
  | nil => cases member
  | cons head rest inductionHypothesis =>
      rw [parseRecords] at parsed
      split at parsed
      · cases parsed
      split at parsed
      · next blank =>
          rcases List.mem_cons.mp member with rfl | later
          · exact absurd blank filled
          · exact inductionHypothesis parsed later
      split at parsed
      · cases parsed
      obtain ⟨others, found, rfl⟩ := Option.map_eq_some_iff.mp parsed
      rcases List.mem_cons.mp member with rfl | later
      · exact ⟨lineNumber, List.mem_cons_self⟩
      · obtain ⟨number, old⟩ := inductionHypothesis found later
        exact ⟨number, List.mem_cons_of_mem _ old⟩

/-- A line that is blank, or holds a clean event. -/
def CleanLine (line : Str) : Prop :=
  strip line = [] ∨ ∃ event, loadsAuditJson (strip line) = some (.dict event) ∧
    (normalizeEvent event).errors = []

section Accepted

variable {env : Env} {dumpBytes : List UInt8} {rawText : Str} {parsedLines : List ParsedLine}

theorem cleanLine_of_accepted (accepted : validateUpload env dumpBytes = .ok (rawText, parsedLines))
    {line : Str} (member : line ∈ splitOn 0x0a rawText) : CleanLine line := by
  obtain ⟨-, -, parsed, -, clean, -⟩ := validateUpload_eq_ok_iff.mp accepted
  by_cases filled : strip line = []
  · exact .inl filled
  · have record := List.mem_map_of_mem (f := fun line : Str =>
      if line.getLast? = some 0x0d then line.dropLast else line) member
    rw [← strip_dropCarriageReturn] at filled
    obtain ⟨number, stored⟩ := mem_parseRecords_of_line parsed record filled
    obtain ⟨event, loaded, normal, -⟩ := parseLine_clean (clean _ stored)
    rw [strip_dropCarriageReturn] at loaded
    exact .inr ⟨event, loaded, normal⟩

/-- What a line that holds a clean event declares. -/
theorem declaredRef_of_clean {line : Str} {event : Dict}
    (loaded : loadsAuditJson (strip line) = some (.dict event))
    (clean : (normalizeEvent event).errors = []) :
    declaredRef line =
      sourceMemberRef ((normalizeEvent event).normalized.get "context_source").dictOrEmpty := by
  simp only [declaredRef, loaded, lineSource_of_clean clean, Option.getD_some]

theorem declaredRef_of_blank {line : Str} (blank : strip line = []) : declaredRef line = [] := by
  rw [declaredRef, blank]
  rfl

/-- The stored references are those that the lines declare. -/
theorem stored_declares (accepted : validateUpload env dumpBytes = .ok (rawText, parsedLines))
    {ref : Str} (present : ref ≠ []) :
    (∃ source ∈ parsedLines.map ParsedLine.contextSource, sourceMemberRef source = ref) ↔
      Declares (splitOn 0x0a rawText) ref := by
  obtain ⟨-, -, parsed, -, clean, -⟩ := validateUpload_eq_ok_iff.mp accepted
  constructor
  · rintro ⟨source, member, same⟩
    obtain ⟨stored, storedMember, rfl⟩ := List.mem_map.mp member
    obtain ⟨number, record, recordMember, rfl⟩ := exists_of_mem_parseRecords parsed storedMember
    obtain ⟨line, lineMember, rfl⟩ := List.mem_map.mp recordMember
    obtain ⟨event, loaded, normal, whole⟩ := parseLine_clean (clean _ storedMember)
    refine ⟨present, line, lineMember, ?_⟩
    rw [strip_dropCarriageReturn] at loaded
    rw [declaredRef_of_clean loaded normal, ← same, whole]
    rfl
  · rintro ⟨-, line, lineMember, same⟩
    have record := List.mem_map_of_mem (f := fun line : Str =>
      if line.getLast? = some 0x0d then line.dropLast else line) lineMember
    have filled : strip (if line.getLast? = some 0x0d then line.dropLast else line) ≠ [] := by
      rw [strip_dropCarriageReturn]
      intro blank
      rw [declaredRef_of_blank blank] at same
      exact present same.symm
    obtain ⟨number, stored⟩ := mem_parseRecords_of_line parsed record filled
    obtain ⟨event, loaded, normal, whole⟩ := parseLine_clean (clean _ stored)
    rw [strip_dropCarriageReturn] at loaded
    refine ⟨_, List.mem_map_of_mem stored, ?_⟩
    rw [← same, declaredRef_of_clean loaded normal, whole]
    rfl

/-- What the migration reads of a clean line. -/
theorem versionedEvent_of_clean {nan : Json} {line : Str} {event : Dict}
    (loaded : loadsAuditJson (strip line) = some (.dict event))
    (clean : (normalizeEvent event).errors = []) :
    versionedEvent nan line = if jsonPadded line then some event else none := by
  obtain ⟨kind, kindType, schema, classified, -⟩ := classified_of_clean clean
  rw [versionedEvent, plainLoads_of_loadsAuditJson loaded]
  cases jsonPadded line with
  | true => simp [classified.version]
  | false => rfl

/-- The migration raises nothing on an accepted upload, and the references it reads are those that the
lines padded with JSON whitespace declare. -/
theorem backfilled_declares (nan : Json)
    (accepted : validateUpload env dumpBytes = .ok (rawText, parsedLines)) :
    ∃ sources, rawSources nan rawText = some sources ∧ ∀ ref, ref ≠ [] →
      ((∃ source ∈ sources, sourceMemberRef source = ref) ↔
        Declares ((splitOn 0x0a rawText).filter jsonPadded) ref) := by
  have events : ∀ line ∈ splitOn 0x0a rawText, ∀ event, versionedEvent nan line = some event →
      jsonPadded line = true ∧ (normalizeEvent event).errors = [] ∧
        declaredRef line = sourceMemberRef ((lineSource event).getD []) := by
    intro line member event read
    rcases cleanLine_of_accepted accepted member with blank | ⟨other, loaded, clean⟩
    · rw [versionedEvent, plainLoads_of_strip_nil blank] at read
      cases read
    · rw [versionedEvent_of_clean loaded clean] at read
      split at read
      · next padded =>
          cases read
          refine ⟨padded, clean, ?_⟩
          rw [declaredRef_of_clean loaded clean, lineSource_of_clean clean, Option.getD_some]
      · cases read
  refine ⟨((splitOn 0x0a rawText).filterMap (versionedEvent nan)).map
    fun event => (lineSource event).getD [], ?_, ?_⟩
  · rw [rawSources, mapM_eq_some_iff, List.map_map]
    apply List.map_congr_left
    intro event member
    obtain ⟨line, lineMember, read⟩ := List.mem_filterMap.mp member
    rw [Function.comp_apply, lineSource_of_clean (events line lineMember event read).2.1,
      Option.getD_some]
  · intro ref present
    constructor
    · rintro ⟨source, member, same⟩
      obtain ⟨event, eventMember, rfl⟩ := List.mem_map.mp member
      obtain ⟨line, lineMember, read⟩ := List.mem_filterMap.mp eventMember
      obtain ⟨padded, -, declared⟩ := events line lineMember event read
      exact ⟨present, line, List.mem_filter.mpr ⟨lineMember, padded⟩, declared.trans same⟩
    · rintro ⟨-, line, member, same⟩
      obtain ⟨lineMember, padded⟩ := List.mem_filter.mp member
      rcases cleanLine_of_accepted accepted lineMember with blank | ⟨event, loaded, clean⟩
      · rw [declaredRef_of_blank blank] at same
        exact absurd same.symm present
      · have read : versionedEvent nan line = some event := by
          rw [versionedEvent_of_clean loaded clean, if_pos padded]
        refine ⟨_, List.mem_map_of_mem (List.mem_filterMap.mpr ⟨line, lineMember, read⟩), ?_⟩
        rw [← same]
        exact (events line lineMember event read).2.2.symm

/-- The reference that sources speak for, when they mention what the lines declare. -/
theorem fileLocalMemberRef_of_declares {sources : List Dict} {lines : List Str}
    (declares : ∀ ref, ref ≠ [] →
      ((∃ source ∈ sources, sourceMemberRef source = ref) ↔ Declares lines ref))
    {ref : Str} (present : ref ≠ []) :
    fileLocalMemberRef sources = ref ↔ IsMemberRef ref ∧ DeclaresOnly lines ref := by
  rw [fileLocalMemberRef_eq_iff present]
  constructor
  · rintro ⟨formed, mentioned, alone⟩
    refine ⟨formed, (declares ref present).mp mentioned, ?_⟩
    intro other declared
    exact alone other ((declares other declared.1).mpr declared) declared.1
  · rintro ⟨formed, declared, only⟩
    refine ⟨formed, (declares ref present).mpr declared, ?_⟩
    intro other mentioned filled
    exact only other ((declares other filled).mp mentioned)

/-- The stored member and the one the migration computes are the same exactly when no padding changes
what the lines declare. -/
theorem backfill_iff (nan : Json) (env : Env) (dumpBytes : List UInt8) (rawText : Str)
    (parsedLines : List ParsedLine)
    (accepted : validateUpload env dumpBytes = .ok (rawText, parsedLines)) :
    backfilledMemberRef nan rawText = some (bodySourceMetadata parsedLines).localMemberRef ↔
      ¬ PaddingChangesRef (splitOn 0x0a rawText) := by
  obtain ⟨sources, read, backfilled⟩ := backfilled_declares nan accepted
  rw [backfilledMemberRef, read, Option.map_some, Option.some.injEq]
  generalize stored : (bodySourceMetadata parsedLines).localMemberRef = member
  have live : ∀ ref, ref ≠ [] → (member = ref ↔
      IsMemberRef ref ∧ DeclaresOnly (splitOn 0x0a rawText) ref) := by
    intro ref present
    rw [← stored]
    exact fileLocalMemberRef_of_declares (fun other filled => stored_declares accepted filled) present
  have migrated : ∀ ref, ref ≠ [] → (fileLocalMemberRef sources = ref ↔
      IsMemberRef ref ∧ DeclaresOnly ((splitOn 0x0a rawText).filter jsonPadded) ref) := by
    intro ref present
    exact fileLocalMemberRef_of_declares backfilled present
  have weaker : ∀ other, Declares ((splitOn 0x0a rawText).filter jsonPadded) other →
      Declares (splitOn 0x0a rawText) other := by
    rintro other ⟨filled, line, lineMember, same⟩
    exact ⟨filled, line, (List.mem_filter.mp lineMember).1, same⟩
  constructor
  · rintro same ⟨ref, formed, ⟨only, silent⟩ | ⟨only, other, declared, apart⟩⟩
    · have whole := (live ref formed.present).mpr ⟨formed, only⟩
      exact silent ref ((migrated ref formed.present).mp (same.trans whole)).2.1
    · have part := (migrated ref formed.present).mpr ⟨formed, only⟩
      exact apart (((live ref formed.present).mp (same.symm.trans part)).2.2 other declared)
  · intro unchanged
    by_cases present : member = []
    · by_contra different
      have filled : fileLocalMemberRef sources ≠ [] := fun blank =>
        different (blank.trans present.symm)
      obtain ⟨formed, only⟩ := (migrated _ filled).mp rfl
      -- the other lines name nothing else, so the file speaks for the same member
      have whole : DeclaresOnly (splitOn 0x0a rawText) (fileLocalMemberRef sources) := by
        refine ⟨weaker _ only.1, ?_⟩
        intro other declared
        by_contra apart
        exact unchanged ⟨_, formed, .inr ⟨only, other, declared, apart⟩⟩
      exact different ((live _ filled).mpr ⟨formed, whole⟩).symm
    · obtain ⟨formed, only⟩ := (live _ present).mp rfl
      apply (migrated _ present).mpr
      refine ⟨formed, ?_, fun other declared => only.2 other (weaker other declared)⟩
      by_contra silent
      apply unchanged
      refine ⟨_, formed, .inl ⟨only, ?_⟩⟩
      intro other declared
      exact silent (only.2 other (weaker other declared) ▸ declared)

end Accepted

/-- Where every line is padded with JSON whitespace alone nothing is changed. -/
theorem not_paddingChangesRef {lines : List Str} (padded : ∀ line ∈ lines, jsonPadded line = true) :
    ¬ PaddingChangesRef lines := by
  have same : lines.filter jsonPadded = lines := List.filter_eq_self.mpr padded
  rintro ⟨ref, -, changes⟩
  rw [same] at changes
  rcases changes with ⟨only, silent⟩ | ⟨only, other, declared, apart⟩
  · exact silent ref only.1
  · exact apart (only.2 other declared)

/-- A record that declares a member, whose reference repeats one digit. -/
def memberRecord (digit : Char) : Str :=
  recordText (lit "e") (lit "ab") 100 []
    (lit "\x7b\"type\":\"source_context\",\"source\":" ++ lit "\x7b\"local_member_ref\":\"" ++
      List.replicate 32 digit.toNat ++ lit "\"\x7d\x7d")

/-- The record once with a capital letter, after a tab and before a carriage return, and once more
after a blank line. -/
def paddedText : Str :=
  [0x09] ++ memberRecord 'D' ++ [0x0d, 0x0a, 0x20, 0x0a] ++ memberRecord 'd' ++ [0x0a]

theorem backfill_paddedText : ∃ parsedLines,
    validateUpload (digestEnv []) (encodeUtf8 paddedText) = .ok (paddedText, parsedLines) ∧
      backfilledMemberRef .null paddedText =
        some (bodySourceMetadata parsedLines).localMemberRef := by
  have accepted : (validateUpload (digestEnv []) (encodeUtf8 paddedText)).toOption.map Prod.fst =
      some paddedText := by
    decide +kernel
  cases found : validateUpload (digestEnv []) (encodeUtf8 paddedText) with
  | error rejected =>
      rw [found] at accepted
      cases accepted
  | ok result =>
      obtain ⟨text, parsedLines⟩ := result
      rw [found] at accepted
      cases accepted
      exact ⟨parsedLines, rfl, (backfill_iff .null _ _ _ _ found).mpr
        (not_paddingChangesRef (by decide +kernel))⟩

/-- A record and a no-break space. -/
def noBreakText : Str := memberRecord 'd' ++ [0xa0]

theorem backfill_fails_noBreakSpace :
    ((validateUpload (digestEnv []) (encodeUtf8 noBreakText)).toOption.map fun accepted =>
        (accepted.1, (bodySourceMetadata accepted.2).localMemberRef)) =
      some (noBreakText, List.replicate 32 'd'.toNat) ∧
    backfilledMemberRef .null noBreakText = some [] := by
  decide +kernel

end Goggles
