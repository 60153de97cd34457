/-
Module: Goggles.Ingest.Validate
Purpose: From the bytes of an upload to its parsed lines, or to the code it is refused with.
Trusted boundary: forensics/ingest.py, `validate_upload` and `parse_jsonl`; SHA-256, `slugify` and
  `str.title` are parameters
Main exports: Env, ParsedLine, UploadRejected, validateUpload, validateUpload_eq_ok_iff
-/
import Goggles.Ingest.Normalize

namespace Goggles

/-! ### Parameters -/

/-- The limits of config/settings.py that validation reads. -/
structure Settings where
  maxDumpBytes : Nat := 67108864
  maxDumpRecords : Nat := 262144
  maxJsonlLineBytes : Nat := 2097152

/-- What the ingestion code calls outside the repository. -/
structure Env where
  settings : Settings := {}
  /-- `hashlib.sha256(data).hexdigest()` -/
  sha256 : List UInt8 → Str
  /-- `django.template.defaultfilters.slugify` -/
  slugify : Str → Str
  /-- `str.title` -/
  title : Str → Str

/-! ### Records -/

/-- One parsed record of an upload. -/
structure ParsedLine where
  lineNumber : Nat
  rawLine : Str
  lineHash : Str
  data : Option Dict
  normalized : Dict
  errors : List Str
deriving Repr, DecidableEq

/-- `parsed.normalized.get("engine_id")` as the text it is. -/
def ParsedLine.engineId (parsed : ParsedLine) : Str := valueIfStr (parsed.normalized.get "engine_id")

/-- `iter_jsonl_record_lines`: split on LF alone, and drop one CR before it. -/
def iterJsonlRecordLines (rawText : Str) : List Str :=
  (splitOn 0x0a rawText).map fun line =>
    if line.getLast? = some 0x0d then line.dropLast else line

/-- The body of the parser's loop for a line that is not blank. -/
def parseLine (env : Env) (lineNumber : Nat) (rawLine : Str) : ParsedLine :=
  let lineHash := env.sha256 (encodeUtf8 rawLine)
  match loadsAuditJson rawLine with
  | none => ⟨lineNumber, rawLine, lineHash, none, [], ["invalid_json"]⟩
  | some (.dict data) =>
      let result := normalizeEvent data
      ⟨lineNumber, rawLine, lineHash, some data, result.normalized, result.errors⟩
  | some _ => ⟨lineNumber, rawLine, lineHash, none, [], ["invalid_json_object"]⟩

/-- A line the parser refuses before it strips it. -/
def exceedsLineBytes (env : Env) (line : Str) : Prop :=
  env.settings.maxJsonlLineBytes < line.length ∨
    env.settings.maxJsonlLineBytes < (encodeUtf8 line).length

instance (env : Env) (line : Str) : Decidable (exceedsLineBytes env line) :=
  inferInstanceAs (Decidable (_ ∨ _))

/-- The loop of `parse_jsonl`; `none` is `AuditLogComplexityError`. -/
def parseRecords (env : Env) : (lineNumber parsedCount : Nat) → List Str → Option (List ParsedLine)
  | _, _, [] => some []
  | lineNumber, parsedCount, line :: rest =>
      if exceedsLineBytes env line then none
      else if strip line = [] then parseRecords env (lineNumber + 1) parsedCount rest
      else if env.settings.maxDumpRecords ≤ parsedCount then none
      else
        (parseRecords env (lineNumber + 1) (parsedCount + 1) rest).map
          (parseLine env lineNumber (strip line) :: ·)

/-- `parse_jsonl`. -/
def parseJsonl (env : Env) (rawText : Str) : Option (List ParsedLine) :=
  parseRecords env 1 0 (iterJsonlRecordLines rawText)

/-! ### Identity -/

/-- The loop of `has_inconsistent_identity` for one field, from the last value seen. -/
def identityConflict (field : Str) : Option Json → List ParsedLine → Bool
  | _, [] => false
  | first, line :: rest =>
      let value := line.normalized.get field
      if value.truthy then
        if first.any (· != value) then true else identityConflict field (some value) rest
      else identityConflict field first rest

/-- `has_inconsistent_identity`. -/
def hasInconsistentIdentity (parsedLines : List ParsedLine) : Bool :=
  [lit "engine_id", lit "account_ref"].any fun field => identityConflict field none parsedLines

/-! ### The upload -/

/-- A fixed operational code, with the line it is about. -/
structure UploadRejected where
  code : Str
  lineNumber : Option Nat := none
deriving Repr, DecidableEq

/-- `UploadRejected.status_code`. -/
def UploadRejected.statusCode (rejected : UploadRejected) : Nat :=
  if rejected.code = lit "ingest_failed" ∨ rejected.code = lit "ingest_busy" then 503
  else if rejected.code = lit "too_large" then 413
  else 400

/-- The codes that may leave the parser. -/
def parserCodes : List Str :=
  ["unsupported_schema", "invalid_v4_schema", "invalid_json_object", "invalid_json"]

/-- The code of a line's first error. -/
def lineErrorCode (error : Str) : Str :=
  if parserCodes.contains error then error else "storage_limit_exceeded"

/-- The first line with an error, as the rejection that names it. -/
def firstLineError : List ParsedLine → Option UploadRejected
  | [] => none
  | line :: rest =>
      match line.errors with
      | error :: _ => some ⟨lineErrorCode error, some line.lineNumber⟩
      | [] => firstLineError rest

/-- `validate_upload`. -/
def validateUpload (env : Env) (dumpBytes : List UInt8) :
    Except UploadRejected (Str × List ParsedLine) :=
  if env.settings.maxDumpBytes < dumpBytes.length then .error ⟨"too_large", none⟩
  else
    match decodeUtf8 dumpBytes with
    | none => .error ⟨"invalid_utf8", none⟩
    | some rawText =>
        match parseJsonl env rawText with
        | none => .error ⟨"processing_limit", none⟩
        | some parsedLines =>
            if parsedLines = [] then .error ⟨"empty_upload", none⟩
            else
              match firstLineError parsedLines with
              | some rejected => .error rejected
              | none =>
                  if hasInconsistentIdentity parsedLines then
                    .error ⟨"inconsistent_file_identity", none⟩
                  else .ok (rawText, parsedLines)

theorem firstLineError_eq_none_iff {parsedLines : List ParsedLine} :
    firstLineError parsedLines = none ↔ ∀ line ∈ parsedLines, line.errors = [] := by
  induction parsedLines with
  | nil => simp [firstLineError]
  | cons line rest inductionHypothesis =>
      rw [firstLineError]
      cases reported : line.errors with
      | nil => simp [reported, inductionHypothesis]
      | cons error others => simp [reported]

/-- What an accepted upload has passed. -/
theorem validateUpload_eq_ok_iff {env : Env} {dumpBytes : List UInt8} {rawText : Str}
    {parsedLines : List ParsedLine} :
    validateUpload env dumpBytes = .ok (rawText, parsedLines) ↔
      dumpBytes.length ≤ env.settings.maxDumpBytes ∧ decodeUtf8 dumpBytes = some rawText ∧
        parseJsonl env rawText = some parsedLines ∧ parsedLines ≠ [] ∧
        (∀ line ∈ parsedLines, line.errors = []) ∧ hasInconsistentIdentity parsedLines = false := by
  constructor
  · intro accepted
    unfold validateUpload at accepted
    split at accepted
    · cases accepted
    next bounded =>
    split at accepted
    · cases accepted
    next text decoded =>
    split at accepted
    · cases accepted
    next lines parsed =>
    split at accepted
    · cases accepted
    next present =>
    split at accepted
    · cases accepted
    next clean =>
    split at accepted
    · cases accepted
    next consistent =>
    cases accepted
    exact ⟨Nat.not_lt.mp bounded, decoded, parsed, present, firstLineError_eq_none_iff.mp clean,
      eq_false_of_ne_true consistent⟩
  · rintro ⟨bounded, decoded, parsed, present, clean, consistent⟩
    simp [validateUpload, Nat.not_lt.mpr bounded, decoded, parsed, present,
      firstLineError_eq_none_iff.mpr clean, consistent]

/-! ### Parsed lines -/

/-- Every parsed line is the parse of a stripped, non-blank line of the text. -/
theorem exists_of_mem_parseRecords {env : Env} {lineNumber parsedCount : Nat} {lines : List Str}
    {parsedLines : List ParsedLine}
    (parsed : parseRecords env lineNumber parsedCount lines = some parsedLines)
    {line : ParsedLine} (member : line ∈ parsedLines) :
    ∃ number, ∃ raw ∈ lines, line = parseLine env number (strip raw) := by
  induction lines generalizing lineNumber parsedCount parsedLines with
  | nil =>
      simp only [parseRecords, Option.some.injEq] at parsed
      subst parsed
      cases member
  | cons head rest inductionHypothesis =>
      rw [parseRecords] at parsed
      split at parsed
      · cases parsed
      · split at parsed
        · obtain ⟨number, raw, rawMember, same⟩ := inductionHypothesis parsed member
          exact ⟨number, raw, List.mem_cons_of_mem head rawMember, same⟩
        · split at parsed
          · cases parsed
          · obtain ⟨others, found, rfl⟩ := Option.map_eq_some_iff.mp parsed
            rcases List.mem_cons.mp member with same | old
            · exact ⟨lineNumber, head, List.mem_cons_self, same⟩
            · obtain ⟨number, raw, rawMember, same⟩ := inductionHypothesis found old
              exact ⟨number, raw, List.mem_cons_of_mem head rawMember, same⟩

/-- Line numbers increase along the parsed lines. -/
theorem lineNumber_increasing_of_parseRecords {env : Env} {lineNumber parsedCount : Nat}
    {lines : List Str} {parsedLines : List ParsedLine}
    (parsed : parseRecords env lineNumber parsedCount lines = some parsedLines) :
    (∀ line ∈ parsedLines, lineNumber ≤ line.lineNumber) ∧
      parsedLines.Pairwise (·.lineNumber < ·.lineNumber) := by
  induction lines generalizing lineNumber parsedCount parsedLines with
  | nil =>
      simp only [parseRecords, Option.some.injEq] at parsed
      subst parsed
      simp
  | cons head rest inductionHypothesis =>
      rw [parseRecords] at parsed
      split at parsed
      · cases parsed
      · split at parsed
        · obtain ⟨above, sorted⟩ := inductionHypothesis parsed
          exact ⟨fun line member => by have := above line member; omega, sorted⟩
        · split at parsed
          · cases parsed
          · obtain ⟨others, found, rfl⟩ := Option.map_eq_some_iff.mp parsed
            obtain ⟨above, sorted⟩ := inductionHypothesis found
            have number : (parseLine env lineNumber (strip head)).lineNumber = lineNumber := by
              unfold parseLine
              split <;> rfl
            refine ⟨fun line member => ?_, List.pairwise_cons.mpr ⟨fun line member => ?_, sorted⟩⟩
            · rcases List.mem_cons.mp member with rfl | old
              · exact number.ge
              · have := above line old
                omega
            · rw [number]
              have := above line member
              omega

/-- A parsed line without errors is a JSON object the normalizer passed. -/
theorem parseLine_clean {env : Env} {number : Nat} {raw : Str}
    (clean : (parseLine env number raw).errors = []) :
    ∃ data, loadsAuditJson raw = some (.dict data) ∧ (normalizeEvent data).errors = [] ∧
      parseLine env number raw =
        ⟨number, raw, env.sha256 (encodeUtf8 raw), some data, (normalizeEvent data).normalized,
          []⟩ := by
  cases loaded : loadsAuditJson raw with
  | none => simp [parseLine, loaded] at clean
  | some value =>
      cases value with
      | dict data =>
          have normal : (normalizeEvent data).errors = [] := by
            simpa [parseLine, loaded] using clean
          exact ⟨data, rfl, normal, by simp [parseLine, loaded, normal]⟩
      | null | bool | int | float | str | list => simp [parseLine, loaded] at clean

end Goggles
