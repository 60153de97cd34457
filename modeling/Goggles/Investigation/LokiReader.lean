/-
Module: Goggles.Investigation.LokiReader
Purpose: The bounded reader of a Loki store: its queries, the trie over body digests that resolves
  timestamp ties, the paging loop, and the investigation of a group.
Trusted boundary: forensics/investigation_reader.py, `bucket` and `LokiReader`.  The transport is a
  parameter that may answer every query differently; its answer is given as `strict_json` and `int`
  read it, and `none` is a failed request or an answer of another shape, for which `query` raises.
  The deadline is a parameter too.  A reader that has raised is not used again
Main exports: Loki, Reader, Page, Loki.query, Loki.tied, Loki.retrieve, bucket, Loki.investigate
-/
import Goggles.Investigation.Evidence
import Goggles.Python.Dumps

namespace Goggles

def MAX_QUERIES : Nat := 2000

def MAX_EXPRESSION_BYTES : Nat := 4500

/-- `READER_CUTOFF_NS`. -/
def READER_CUTOFF_NS : Int := 30 * 86400 * 10 ^ 9

/-! ### The transport -/

/-- An entry of `stream["values"]`, its timestamp read by `int`. -/
structure LokiValue where
  timestamp : Int
  line : Str
  metadata : Dict
deriving Repr, DecidableEq

/-- An entry of `result["data"]["result"]`. -/
structure LokiStream where
  stream : Dict
  values : List LokiValue
deriving Repr, DecidableEq

/-- `dict(stream["stream"])`, updated with the metadata of a value. -/
def LokiStream.metadata (stream : LokiStream) (value : LokiValue) : Dict :=
  value.metadata.foldl (fun metadata entry => metadata.set entry.1 entry.2) stream.stream

/-- A reader's parameters.  `transport` and `expired` see how many queries were sent before. -/
structure Loki where
  env : Env
  transport : Nat → Str → Int → Int → Nat → Option (List LokiStream)
  expired : Nat → Bool
  serviceName : Str
  environmentName : Str
  nowNs : Int
  pageSize : Nat
  pageSize_pos : 1 ≤ pageSize
  pageSize_le : pageSize ≤ 50000

/-- What changes in a reader while it reads. -/
structure Reader where
  queries : Nat
  evidence : Evidence

def Reader.new : Reader := ⟨0, Evidence.empty⟩

/-! ### Queries -/

/-- A row of an answer: `(timestamp, digest, body)`. -/
structure LokiRow where
  timestamp : Int
  digest : Str
  body : List UInt8
deriving Repr, DecidableEq

/-- The order of the tuples. -/
def LokiRow.order (row : LokiRow) : Lex (Int × Lex (Str × List Nat)) :=
  toLex (row.timestamp, toLex (row.digest, row.body.map UInt8.toNat))

/-- The rows of an answer, sorted, all of them inside the window that was asked for. -/
structure Page (start stop : Int) where
  rows : List LokiRow
  inside : ∀ row ∈ rows, start ≤ row.timestamp ∧ row.timestamp < stop

namespace Loki

variable (loki : Loki)

/-- One value of an answer, checked. -/
def checkedRow (start stop : Int) (stream : LokiStream) (value : LokiValue) : Option LokiRow :=
  match encodeStrict value.line with
  | none => none
  | some body =>
      if start ≤ value.timestamp ∧ value.timestamp < stop ∧
          (stream.metadata value).get "audit_sha256" = .str (loki.env.sha256 body) then
        some ⟨value.timestamp, loki.env.sha256 body, body⟩
      else none

/-- The rows of an answer; `none` is `invalid_loki_response`. -/
def checkedRows (start stop : Int) (streams : List LokiStream) : Option (List LokiRow) :=
  (streams.flatMap fun stream => stream.values.map fun value => (stream, value)).mapM
    fun entry => loki.checkedRow start stop entry.1 entry.2

theorem checkedRow_inside {start stop : Int} {stream : LokiStream} {value : LokiValue}
    {row : LokiRow} (checked : loki.checkedRow start stop stream value = some row) :
    start ≤ row.timestamp ∧ row.timestamp < stop := by
  unfold checkedRow at checked
  split at checked
  · cases checked
  · split at checked
    · next held =>
        cases checked
        exact ⟨held.1, held.2.1⟩
    · cases checked

theorem checkedRows_inside {start stop : Int} {streams : List LokiStream} {rows : List LokiRow}
    (checked : loki.checkedRows start stop streams = some rows) :
    ∀ row ∈ inOrder LokiRow.order rows, start ≤ row.timestamp ∧ row.timestamp < stop := by
  intro row member
  rw [mem_inOrder] at member
  rw [checkedRows, mapM_eq_some_iff] at checked
  have listed : some row ∈ rows.map some := List.mem_map_of_mem member
  rw [← checked, List.mem_map] at listed
  obtain ⟨entry, -, found⟩ := listed
  exact loki.checkedRow_inside found

/-- `LokiReader.query`. -/
def query (reader : Reader) (expression : Str) (start stop : Int) :
    Except IncompleteEvidence (Page start stop × Reader) :=
  if loki.expired reader.queries = true ∨ MAX_QUERIES ≤ reader.queries then
    .error ⟨"query_budget_exceeded"⟩
  else if MAX_EXPRESSION_BYTES < (encodeUtf8 expression).length then
    .error ⟨"context_expression_budget_exceeded"⟩
  else
    match loki.transport reader.queries expression start stop loki.pageSize with
    | none => .error ⟨"invalid_loki_response"⟩
    | some streams =>
        match checked : loki.checkedRows start stop streams with
        | none => .error ⟨"invalid_loki_response"⟩
        | some rows =>
            if loki.pageSize < rows.length then .error ⟨"query_page_overflow"⟩
            else
              .ok (⟨inOrder LokiRow.order rows, loki.checkedRows_inside checked⟩,
                { reader with queries := reader.queries + 1 })

/-- `LokiReader.add_rows`. -/
def addRows (accept : Dict → Bool) (rows : List LokiRow) (evidence : Evidence) :
    Except IncompleteEvidence Evidence :=
  rows.foldlM (fun evidence row => do
    let event ← parseBody row.body
    if accept event then evidence.add loki.env row.body event
    else .error ⟨"loki_label_mismatch"⟩) evidence

/-- The rows added to a reader's evidence. -/
def addTo (accept : Dict → Bool) (reader : Reader) (rows : List LokiRow) :
    Except IncompleteEvidence Reader :=
  (loki.addRows accept rows reader.evidence).map fun evidence =>
    { reader with evidence := evidence }

/-- The digits of a digest. -/
def hexDigits : Str := "0123456789abcdef"

/-- The filter `tied` appends for a prefix of the digest. -/
def digestFilter (leading : Str) : Str :=
  if leading = [] then [] else lit " | audit_sha256=~\"" ++ leading ++ lit "[0-9a-f]*\""

/-- `add_rows` of what `tied` yields, each leaf before the next query.  `room` is what
`len(prefix)` leaves of 64. -/
def tied (accept : Dict → Bool) (expression : Str) (timestamp : Int) :
    (room : Nat) → (leading : Str) → Reader → Except IncompleteEvidence Reader
  | room, leading, reader =>
    match loki.query reader (expression ++ digestFilter leading) timestamp (timestamp + 1) with
    | .error incomplete => .error incomplete
    | .ok (page, reader) =>
        if page.rows.length < loki.pageSize then loki.addTo accept reader page.rows
        else
          match room with
          | 0 => .error ⟨"unresolvable_timestamp_tie"⟩
          | room + 1 =>
              hexDigits.foldlM
                (fun reader digit => tied accept expression timestamp room (leading ++ [digit]) reader)
                reader

/-- `LokiReader.retrieve` from a cursor on. -/
def retrieve (accept : Dict → Bool) (expression : Str) (cursor stop : Int) (reader : Reader) :
    Except IncompleteEvidence Reader :=
  if cursor < stop then
    match loki.query reader expression cursor stop with
    | .error incomplete => .error incomplete
    | .ok (page, reader) =>
        match last : page.rows.getLast? with
        | none => .ok reader
        | some row =>
            if page.rows.length < loki.pageSize then loki.addTo accept reader page.rows
            else
              let boundary := row.timestamp
              have : (stop - (boundary + 1)).toNat < (stop - cursor).toNat := by
                have inside := page.inside row (List.mem_of_getLast? last)
                omega
              match loki.addTo accept reader (page.rows.filter (·.timestamp < boundary)) with
              | .error incomplete => .error incomplete
              | .ok reader =>
                  match loki.tied accept expression boundary 64 [] reader with
                  | .error incomplete => .error incomplete
                  | .ok reader => retrieve accept expression (boundary + 1) stop reader
  else .ok reader
termination_by (stop - cursor).toNat

end Loki

/-! ### Buckets -/

/-- `json.dumps(key, separators=(",", ":"), ensure_ascii=False)` of a list of texts. -/
def dumpKey (parts : List Str) : Str :=
  lit "[" ++ List.intercalate (lit ",") (parts.map jsonQuoteUnicode) ++ lit "]"

def BUCKETS : Nat := 64

/-- `bucket`; `none` is the `UnicodeEncodeError` of an unpaired surrogate.  Eight bytes of the
digest are sixteen digits. -/
def bucket (env : Env) (group engine account : Str) : Option Str :=
  let key := if group ≠ [] then [lit "group", group] else [lit "context", engine, account]
  (encodeStrict (dumpKey key)).map fun data =>
    let number := hexNumber ((env.sha256 data).take 16) % BUCKETS
    lit "b" ++ [hexDigit (number / 16), hexDigit (number % 16)]

/-! ### The investigation of a group -/

/-- What `investigate` raises. -/
inductive InvestigationError where
  | incomplete (incomplete : IncompleteEvidence)
  | valueError (reason : Str)
deriving Repr, DecidableEq

/-- The summary with the windows, and the reader it was read from. -/
structure Investigated where
  summary : Evidence.Summary
  requestedReceiptWindowNs : Int × Int
  queriedReceiptWindowNs : Option (Int × Int)
  readerCutoffNs : Int
  queryCount : Nat
  reader : Reader

/-- An `IncompleteEvidence` leaves `investigate` as it is. -/
def raising {ρ : Type*} : Except IncompleteEvidence ρ → Except InvestigationError ρ
  | .ok value => .ok value
  | .error incomplete => .error (.incomplete incomplete)

namespace Loki

variable (loki : Loki)

def readerCutoffNs : Int := loki.nowNs - READER_CUTOFF_NS

/-- The stream selector of a bucket. -/
def selector (partition : Str) : Str :=
  lit "\x7bservice_name=" ++ jsonQuote loki.serviceName ++ lit ",deployment_environment_name=" ++
    jsonQuote loki.environmentName ++ lit ",audit_bucket=" ++ jsonQuote partition ++ lit "\x7d"

/-- The query of the records of a group. -/
def groupExpression (partition group : Str) : Str :=
  loki.selector partition ++ lit " | audit_group=" ++ jsonQuote group

/-- The query of the records of a session without a group. -/
def contextExpression (partition : Str) (item : Session) : Str :=
  loki.selector partition ++ lit " | audit_group=\"\" | audit_engine=" ++ jsonQuote item.engineId ++
    lit " and audit_account=" ++ jsonQuote item.accountRef ++ lit " and audit_session=" ++
    jsonQuote item.recorderSessionId

/-- The records the group query may return. -/
def acceptGroup (group : Str) (event : Dict) : Bool :=
  inGroup group event &&
    bucket loki.env (valueIfStr (event.get "group_ref")) [] [] == bucket loki.env group [] []

/-- The records a context query may return. -/
def acceptContext (partition : Str) (item : Session) (event : Dict) : Bool :=
  !(event.get "group_ref").truthy && session event == item &&
    bucket loki.env [] (session event).engineId (session event).accountRef == some partition

/-- The order of `sorted(pairs.items())` and of `sorted(identities)` in it. -/
def contextOrder (context : Str × Session) : Lex (Str × Lex (Str × Lex (Str × Str))) :=
  toLex (context.1, toLex (context.2.engineId,
    toLex (context.2.accountRef, context.2.recorderSessionId)))

/-- The complete sessions of the group read so far, each with its bucket. -/
def contexts (evidence : Evidence) (group : Str) : Option (List (Str × Session)) :=
  (((evidence.groupSessions group).filter Session.complete).mapM fun item =>
    (bucket loki.env [] item.engineId item.accountRef).map (·, item)).map (inOrder contextOrder)

/-- The queries of the sessions, one after the other. -/
def retrieveContexts (start stop : Int) (contexts : List (Str × Session)) (reader : Reader) :
    Except IncompleteEvidence Reader :=
  contexts.foldlM (fun reader context =>
    loki.retrieve (loki.acceptContext context.1 context.2)
      (loki.contextExpression context.1 context.2) start stop reader) reader

/-- `LokiReader.investigate` of a fresh reader. -/
def investigate (group : Str) (start stop : Int) : Except InvestigationError Investigated :=
  if group = [] ∨ group.any (fun char => !isHexDigit char) then
    .error (.valueError "group_ref_must_be_hex")
  else if stop ≤ start then .error (.valueError "inverted_receipt_window")
  else
    let cutoff := loki.readerCutoffNs
    let opening := max start cutoff
    if stop ≤ opening then do
      let summary ← raising (Evidence.empty.summary group .loki true)
      return ⟨summary, (start, stop), none, cutoff, 0, Reader.new⟩
    else
      match bucket loki.env group [] [] with
      | none => .error (.valueError "unencodable text")
      | some partition => do
          let reader ← raising (loki.retrieve (loki.acceptGroup group)
            (loki.groupExpression partition group) opening stop Reader.new)
          match loki.contexts reader.evidence group with
          | none => .error (.valueError "unencodable text")
          | some contexts => do
              let reader ← raising (loki.retrieveContexts opening stop contexts reader)
              let summary ← raising (reader.evidence.summary group .loki (start < cutoff))
              return ⟨summary, (start, stop), some (opening, stop), cutoff, reader.queries, reader⟩

end Loki

end Goggles
