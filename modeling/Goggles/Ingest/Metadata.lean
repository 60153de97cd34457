/-
Module: Goggles.Ingest.Metadata
Purpose: What an accepted file records about its lines: counts, ranges, identities and the source it
  declares.
Trusted boundary: forensics/ingest.py, `file_metadata`, `body_source_metadata` and
  `file_local_member_ref`
Main exports: fileMetadata, bodySourceMetadata, fileLocalMemberRef
-/
import Goggles.Store.Tables

namespace Goggles

/-- `sorted({...})` of the non-blank texts. -/
def sortedTexts (texts : List Str) : List Str := inOrder id (texts.filter (· ≠ [])).dedup

/-- A text of the normalized record. -/
def ParsedLine.text (parsed : ParsedLine) (field : Str) : Str :=
  valueIfStr (parsed.normalized.get field)

/-- An integer of the normalized record. -/
def ParsedLine.number (parsed : ParsedLine) (field : Str) : Option Nat :=
  valueIfInt (parsed.normalized.get field)

/-- `file_metadata`. -/
def fileMetadata (parsedLines : List ParsedLine) : FileMetadata :=
  let validLines := parsedLines.filter (·.errors = [])
  let lineNumbers := parsedLines.map (·.lineNumber)
  let seqs := validLines.filterMap (·.number "seq")
  let wallTimes := validLines.filterMap (·.number "wall_time_ms")
  { totalLineCount := parsedLines.length
    validEventCount := validLines.length
    invalidEventCount := parsedLines.length - validLines.length
    firstLineNumber := lineNumbers.min?
    lastLineNumber := lineNumbers.max?
    firstSeq := seqs.min?
    lastSeq := seqs.max?
    firstWallTimeMs := wallTimes.min?
    lastWallTimeMs := wallTimes.max?
    accountRefs := sortedTexts (validLines.map (·.text "account_ref"))
    engineIds := sortedTexts (validLines.map (·.text "engine_id"))
    groupRefs := sortedTexts (validLines.map (·.text "group_ref"))
    schemaVersions := sortedTexts (parsedLines.map (·.text "schema_version"))
    auditDataModes := sortedTexts (validLines.map (·.text "audit_data_mode")) }

/-- `line.normalized.get("context_source", {})`. -/
def ParsedLine.contextSource (parsed : ParsedLine) : Dict :=
  (parsed.normalized.get "context_source").dictOrEmpty

/-- The first non-blank value of a source key, cut to its column. -/
def firstSourceText (sources : List Dict) (key : Str) (limit : Nat) : Str :=
  match sources.find? fun source => (source.get key).truthy with
  | none => []
  | some source => (source.get key).textOrEmpty.take limit

/-- `file_local_member_ref`: one file speaks for one member. -/
def fileLocalMemberRef (sources : List Dict) : Str :=
  let lowered := sources.map fun source => (source.get "local_member_ref").textOrEmpty.map asciiLower
  match (lowered.filter (· ≠ [])).dedup with
  | [ref] => if ref.length = 32 ∧ ref.all isLowerHexDigit then ref else []
  | _ => []

/-- `body_source_metadata`. -/
def bodySourceMetadata (parsedLines : List ParsedLine) : SourceMetadata :=
  let sources := parsedLines.map ParsedLine.contextSource
  { deviceId := firstSourceText sources "device_id" 255
    hardwareModel := firstSourceText sources "hardware_model" 255
    platform := firstSourceText sources "platform" 120
    appVersion := firstSourceText sources "app_version" 120
    uploadTrigger := firstSourceText sources "upload_trigger" 160
    localMemberRef := fileLocalMemberRef sources }

end Goggles
