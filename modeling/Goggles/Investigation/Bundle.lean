/-
Module: Goggles.Investigation.Bundle
Purpose: The text of an investigation bundle: its header, and the evidence, the conflicts and the
  message traces that are written behind it piece by piece.
Trusted boundary: forensics/investigation_bundle.py, `_scope` and `write_bundle` up to its
  `stream.write`; the version in pyproject.toml and `float.__repr__` are parameters
Main exports: BundleError, BundleArguments, BundleContent, bundleContent, bundlePieces,
  bundleText, prepareBundle
-/
import Goggles.Investigation.Selection
import Goggles.Python.Dumps

namespace Goggles

def BUNDLE_VERSION : Str := "goggles-investigation-bundle/v1"

def MAX_BUNDLE_BYTES : Nat := 128 * 1024 * 1024

def ORDERING : Str :=
  lit "Within each engine/account/recorder " ++ lit "session: sequence, then body SHA-256; " ++
    lit "no global causal order."

/-- What an `OSError` is, as far as it is told apart. -/
inductive OsError where
  | fileExists
  | fileNotFound
  | other
deriving Repr, DecidableEq

/-- What `write_bundle` raises: `IncompleteEvidence`, its subclass `BundlePublicationUncertain`, an
error of the operating system, the `KeyError` of a summary without a source, or the `ValueError` of
an integer that `json.dumps` does not write. -/
inductive BundleError where
  | incomplete (reason : Str)
  | uncertain (reason : Str)
  | os (error : OsError)
  | keyError
  | valueError
deriving Repr, DecidableEq

/-! ### The header -/

/-- The arguments of `write_bundle` that the header is made of. -/
structure BundleArguments where
  group : Str
  summary : Dict
  acquisitionStartedNs : Int
  acquisitionCompletedNs : Int
  suppliedFileCount : Option Int

/-- The keys that the summary of a Loki investigation must have. -/
def lokiScopeKeys : List Str :=
  [lit "requested_receipt_window_ns", lit "queried_receipt_window_ns", lit "reader_cutoff_ns",
    lit "receipt_cutoff_omitted", lit "query_count"]

/-- `_scope`. -/
def bundleScope (summary : Dict) (suppliedFileCount : Option Int) : Except BundleError Dict :=
  match summary.lookup (lit "source") with
  | none => .error .keyError
  | some source =>
      if source = .str (lit "jsonl") then
        match suppliedFileCount with
        | none => .error (.incomplete "missing_bundle_scope")
        | some count =>
            .ok [(lit "type", .str "provided_files_only"), (lit "supplied_file_count", .int count)]
      else if source = .str (lit "loki") then
        if lokiScopeKeys.any (!summary.hasKey ·) then .error (.incomplete "missing_bundle_scope")
        else
          .ok
            [(lit "type", .str "queried_receipt_window"),
              (lit "requested_receipt_window_ns", summary.get "requested_receipt_window_ns"),
              (lit "effective_receipt_window_ns", summary.get "queried_receipt_window_ns"),
              (lit "reader_cutoff_ns", summary.get "reader_cutoff_ns"),
              (lit "receipt_cutoff_omitted", summary.get "receipt_cutoff_omitted"),
              (lit "query_count", summary.get "query_count")]
      else .error (.incomplete "unsupported_bundle_source")

/-- `header`. -/
def bundleHeader (arguments : BundleArguments) (toolVersion : Str) (scope : Dict) : Dict :=
  [(lit "schema_version", .str BUNDLE_VERSION),
    (lit "tool", .dict [(lit "name", .str "goggles-investigation-reader"),
      (lit "package_version", .str toolVersion)]),
    (lit "source_format_version", .str SCHEMA_VERSION), (lit "group_ref", .str arguments.group),
    (lit "acquisition_time_bounds_ns",
      .list [.int arguments.acquisitionStartedNs, .int arguments.acquisitionCompletedNs]),
    (lit "scope", .dict scope), (lit "ordering", .str ORDERING),
    (lit "summary", .dict arguments.summary)]

/-! ### The sections -/

/-- The order of sessions, which are tuples. -/
def Session.order (item : Session) : Lex (Str × Lex (Str × Str)) :=
  toLex (item.engineId, toLex (item.accountRef, item.recorderSessionId))

/-- The order of identities. -/
def identityOrder (key : Session × Int) : Lex (Lex (Str × Lex (Str × Str)) × Int) :=
  toLex (key.1.order, key.2)

/-- The sort key of the evidence. -/
def evidenceOrder (entry : Str × Record) :
    Lex (Lex (Str × Lex (Str × Str)) × Lex (Int × Str)) :=
  toLex ((session entry.2.event).order, toLex ((identity entry.2.event).2, entry.1))

/-- An entry of the evidence section. -/
structure EvidenceItem where
  sha256 : Str
  body : Str
  occurrences : Nat
deriving Repr, DecidableEq

/-- An entry of the conflicts section.  The number is that of the first record. -/
structure ConflictItem where
  identity : Session
  seq : Json
  evidenceRefs : List Str
deriving Repr, DecidableEq

/-- An entry of the message traces section. -/
structure TraceItem where
  trace : MessageTrace
  evidenceRefs : List Str
deriving Repr, DecidableEq

structure BundleContent where
  evidence : List EvidenceItem
  conflicts : List ConflictItem
  messageTraces : List TraceItem
deriving Repr, DecidableEq

namespace Evidence

/-- The selected records in the order of `ordered_refs`. -/
def orderedRecords (evidence : Evidence) (group : Str) : List (Str × Record) :=
  inOrder evidenceOrder (evidence.selected group).entries

/-- `identities`: the records of each identity, in the order of `ordered_refs`. -/
def orderedIdentities (evidence : Evidence) (group : Str) :
    Keyed (Session × Int) (List (Str × Record)) :=
  Keyed.gather (fun found entry => found.getD [] ++ [entry])
    ((evidence.orderedRecords group).map fun entry => (identity entry.2.event, entry))

/-- `sorted(trace_refs[msg_id])`. -/
def traceRefs (modelRefs : List (Str × AuditEvent)) (msgId : Json) : List Str :=
  inOrder id (((modelRefs.filter fun entry => (eventMessageIdValues entry.2).contains msgId).map
    Prod.fst).dedup)

/-- What the sections of a bundle list. -/
def bundleContent (evidence : Evidence) (group : Str) (reconstruction : Reconstruction) :
    BundleContent where
  evidence := (evidence.orderedRecords group).map fun entry =>
    ⟨entry.1, (decodeUtf8 entry.2.body).getD [], evidence.occurrence entry.1⟩
  conflicts :=
    ((inOrder (fun row => identityOrder row.1) (evidence.orderedIdentities group).entries).filter
      fun row => 2 ≤ row.2.length).map fun row =>
        ⟨row.1.1, ((row.2.head?.map fun entry => entry.2.event.get "seq").getD .null),
          row.2.map Prod.fst⟩
  messageTraces := reconstruction.traces.map fun trace =>
    ⟨trace, traceRefs reconstruction.modelRefs trace.msgId⟩

end Evidence

/-! ### The pieces -/

def EvidenceItem.toDict (item : EvidenceItem) : Dict :=
  [(lit "sha256", .str item.sha256), (lit "body", .str item.body),
    (lit "occurrences", .int item.occurrences)]

def ConflictItem.toDict (item : ConflictItem) : Dict :=
  [(lit "identity", .dict [(lit "engine_id", .str item.identity.engineId),
      (lit "account_ref", .str item.identity.accountRef),
      (lit "recorder_session_id", .str item.identity.recorderSessionId), (lit "seq", item.seq)]),
    (lit "evidence_refs", .list (item.evidenceRefs.map .str))]

/-- A time that may be missing. -/
def optionalMs (time : Option Nat) : Json :=
  match time with
  | none => .null
  | some milliseconds => .int milliseconds

/-- `trace | {"evidence_refs": ...}`. -/
def TraceItem.toDict (item : TraceItem) : Dict :=
  let trace := item.trace
  [(lit "msg_id", trace.msgId), (lit "engines", .list (trace.engines.map .str)),
    (lit "missing_engines", .list (trace.missingEngines.map .str)),
    (lit "missed_by", .list (trace.missedBy.map .str)),
    (lit "absent_engines", .list (trace.absentEngines.map .str)),
    (lit "reference_ms", optionalMs trace.referenceMs),
    (lit "is_divergent", .bool trace.isDivergent),
    (lit "event_types", .list (trace.eventTypes.map .str)),
    (lit "states", .list (trace.states.map .str)),
    (lit "first_wall_time_ms", optionalMs trace.firstWallTimeMs),
    (lit "last_wall_time_ms", optionalMs trace.lastWallTimeMs),
    (lit "event_count", .int trace.eventCount),
    (lit "evidence_refs", .list (item.evidenceRefs.map .str))]

section Pieces

variable (floatRepr : PyFloat → Str)

/-- The texts that are emitted, one after the other, and `none` where there is none to emit. -/
def bundlePieces (header : Dict) (content : BundleContent) : List (Option Str) :=
  let dump (fields : Dict) : Option Str := jsonDumps floatRepr (.dict fields)
  let listed (items : List Dict) : List (Option Str) :=
    (items.map dump).intersperse (some (lit ","))
  [(dump header).map List.dropLast, some (lit ",\"evidence\":[")] ++
    listed (content.evidence.map EvidenceItem.toDict) ++ [some (lit "],\"conflicts\":[")] ++
    listed (content.conflicts.map ConflictItem.toDict) ++
    [some (lit "],\"message_traces\":[")] ++
    listed (content.messageTraces.map TraceItem.toDict) ++ [some (lit "]\x7d")]

/-- The text that the pieces make. -/
def bundleText (pieces : List (Option Str)) : Option Str :=
  match pieces with
  | [] => some []
  | none :: _ => none
  | some piece :: rest => (bundleText rest).map (piece ++ ·)

/-- The bundle as far as it is computed before a file is made. -/
def prepareBundle (toolVersion : Option Str) (evidence : Evidence) (arguments : BundleArguments) :
    Except BundleError (Dict × BundleContent) := do
  match evidence.reconstruct arguments.group with
  | .error incomplete => .error (.incomplete incomplete.reason)
  | .ok reconstruction =>
      match toolVersion with
      | none => .error (.incomplete "tool_version_unavailable")
      | some version => do
          let scope ← bundleScope arguments.summary arguments.suppliedFileCount
          return (bundleHeader arguments version scope,
            evidence.bundleContent arguments.group reconstruction)

end Pieces

end Goggles
