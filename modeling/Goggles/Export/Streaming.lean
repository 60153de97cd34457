/-
Module: Goggles.Export.Streaming
Purpose: The export of a group as lines of JSON: a manifest, the rows of each section and one terminal
  line, which says `eof` only when every line before it was written.
Trusted boundary: forensics/streaming.py.  The JSON text of a value a caller passes in is a parameter,
  and may raise; a count is written whatever its size
Main exports: exportLine, streamNdjson, exportAttempts, FailsClosed, streamNdjson_failsClosed
-/
import Goggles.Library.Emitting
import Goggles.Library.Keyed
import Goggles.Python.Dumps

namespace Goggles

/-! ### Lines -/

/-- A value in a record: what the streamer itself writes, or a value of the caller. -/
inductive ExportValue (ω : Type) where
  | text (content : Str)
  | flag (isSet : Bool)
  | counts (entries : List (Str × Nat))
  | object (value : ω)

/-- `json.dumps` of a dict, from the texts of its values. -/
def objectText (members : List (Str × Str)) : Str :=
  0x7b :: commaJoin (members.map memberText) ++ [0x7d]

section Lines

variable {ε ω : Type} (encode : ω → Except ε Str)

/-- The JSON text of a value, in the order of its keys. -/
def ExportValue.jsonText : ExportValue ω → Except ε Str
  | .text content => .ok (jsonQuote content)
  | .flag isSet => .ok (if isSet then lit "true" else lit "false")
  | .counts entries => .ok (objectText (entries.map fun entry => (entry.1, natText entry.2)))
  | .object value => encode value

/-- `_line`. -/
def exportLine (record : List (Str × ExportValue ω)) : Except ε Str := do
  let members ← record.mapM fun member => do return (member.1, ← member.2.jsonText encode)
  return objectText members ++ [0x0a]

/-- `{"t": tag, **payload}`. -/
def tagged (tag : Str) (payload : List (Str × ω)) : List (Str × ExportValue ω) :=
  (Keyed.gather (fun _ value => value) ((lit "t", .text tag) ::
    payload.map fun member => (member.1, .object member.2))).entries

/-- The record that ends a complete export. -/
def eofRecord (ω : Type) (counts : List (Str × Nat)) : List (Str × ExportValue ω) :=
  [(lit "t", .text (lit "eof")), (lit "complete", .flag true), (lit "counts", .counts counts)]

/-- The record that ends an export that failed. -/
def exportError (ω : Type) : List (Str × ExportValue ω) :=
  [(lit "t", .text (lit "error")), (lit "complete", .flag false)]

end Lines

/-! ### The stream -/

/-- `rows.iterator()`: rows one after the other, and the exception that ends them when they do not just
run out. -/
structure RowIterator (ε ρ : Type) where
  rows : List ρ
  failure : Option ε

/-- `ExportSection`. -/
structure ExportSection (ε ω ρ : Type) where
  recordType : Str
  rows : RowIterator ε ρ
  toPayload : ρ → Except ε (List (Str × ω))

section Stream

variable {ε ω ρ : Type} (encode : ω → Except ε Str)

/-- The line of a row. -/
def ExportSection.rowLine (part : ExportSection ε ω ρ) (row : ρ) : Except ε Str := do
  let payload ← part.toPayload row
  exportLine encode (tagged part.recordType payload)

/-- The loop over the rows of a section, which counts them. -/
def streamRows (part : ExportSection ε ω ρ) : List ρ → Nat → EStateM ε (List Str) Nat
  | [], count =>
      match part.rows.failure with
      | none => pure count
      | some exception => throw exception
  | row :: rest, count => do
      yieldItem (part.rowLine encode row)
      streamRows part rest (count + 1)

/-- The loop over the sections. -/
def streamSections : List (ExportSection ε ω ρ) → Keyed Str Nat →
    EStateM ε (List Str) (Keyed Str Nat)
  | [], counts => pure counts
  | part :: rest, counts => do
      let count ← streamRows encode part part.rows.rows 0
      streamSections rest (counts.upsert part.recordType fun _ => count)

/-- The body of the `try` of `stream_ndjson`. -/
def streamBody (manifest : List (Str × ω)) (sections : List (ExportSection ε ω ρ)) :
    EStateM ε (List Str) PUnit := do
  yieldItem (exportLine encode (tagged (lit "manifest") manifest))
  let counts ← streamSections encode sections .empty
  yieldItem (exportLine encode (eofRecord ω counts.entries))

/-- `stream_ndjson`. -/
def streamNdjson (manifest : List (Str × ω)) (sections : List (ExportSection ε ω ρ)) :
    EStateM ε (List Str) PUnit :=
  handle (streamBody encode manifest sections) fun _ =>
    yieldItem (exportLine encode (exportError ω))

/-- The lines that the stream yields. -/
def ndjsonLines (manifest : List (Str × ω)) (sections : List (ExportSection ε ω ρ)) : List Str :=
  match streamNdjson encode manifest sections [] with
  | .ok _ lines | .error _ lines => lines

end Stream

/-! ### Terminal lines -/

/-- The line that ends a complete export. -/
def eofLine (counts : List (Str × Nat)) : Str :=
  objectText [(lit "t", jsonQuote (lit "eof")), (lit "complete", lit "true"),
    (lit "counts", objectText (counts.map fun entry => (entry.1, natText entry.2)))] ++ [0x0a]

/-- The line that ends an export that failed. -/
def errorLine : Str :=
  objectText [(lit "t", jsonQuote (lit "error")), (lit "complete", lit "false")] ++ [0x0a]

theorem eofLine_ne_errorLine (counts : List (Str × Nat)) : eofLine counts ≠ errorLine := by
  intro same
  have letters : (eofLine counts)[7]? = errorLine[7]? := by rw [same]
  have eof : (eofLine counts)[7]? = some 0x6f := rfl
  rw [eof] at letters
  revert letters
  decide +kernel

section Stream

variable {ε ω ρ : Type} (encode : ω → Except ε Str)

/-- The terminal lines are always written. -/
theorem exportLine_eofRecord (counts : List (Str × Nat)) :
    exportLine encode (eofRecord ω counts) = .ok (eofLine counts) := rfl

theorem exportLine_exportError : exportLine encode (exportError ω) = .ok errorLine := rfl

/-! ### What is attempted -/

/-- The rows of a section, each with the record type, and the exception that ends them. -/
def ExportSection.attempts (part : ExportSection ε ω ρ) : List (Option Str × Except ε Str) :=
  (part.rows.rows.map fun row => (some part.recordType, part.rowLine encode row)) ++
    part.rows.failure.toList.map fun exception => (some part.recordType, .error exception)

/-- The manifest, then each section's rows in order. -/
def exportAttempts (manifest : List (Str × ω)) (sections : List (ExportSection ε ω ρ)) :
    List (Option Str × Except ε Str) :=
  (none, exportLine encode (tagged (lit "manifest") manifest)) ::
    sections.flatMap (ExportSection.attempts encode)

variable {encode}

theorem emits_streamRows (part : ExportSection ε ω ρ) (rows : List ρ) (count : Nat) :
    Emits (streamRows encode part rows count)
      (rows.map (part.rowLine encode) ++ part.rows.failure.toList.map .error)
      (count + rows.length) := by
  induction rows generalizing count with
  | nil =>
      rw [streamRows]
      cases part.rows.failure with
      | none => exact .pure count
      | some exception => exact .throw exception count
  | cons row rest inductionHypothesis =>
      rw [streamRows, List.length_cons, show count + (rest.length + 1) = count + 1 + rest.length by omega]
      exact (Emits.yieldItem (part.rowLine encode row)).bind (inductionHypothesis (count + 1))

/-- The counts after the sections. -/
def sectionCounts (sections : List (ExportSection ε ω ρ)) (counts : Keyed Str Nat) : Keyed Str Nat :=
  sections.foldl (fun counts part => counts.upsert part.recordType fun _ => part.rows.rows.length) counts

theorem emits_streamSections (sections : List (ExportSection ε ω ρ)) (counts : Keyed Str Nat) :
    Emits (streamSections encode sections counts)
      ((sections.flatMap (ExportSection.attempts encode)).map Prod.snd)
      (sectionCounts sections counts) := by
  induction sections generalizing counts with
  | nil => exact .pure counts
  | cons part rest inductionHypothesis =>
      have rows := @emits_streamRows _ _ _ encode part part.rows.rows 0
      rw [Nat.zero_add] at rows
      rw [streamSections, List.flatMap_cons, List.map_append, ExportSection.attempts, List.map_append,
        List.map_map, List.map_map]
      exact rows.bind (inductionHypothesis _)

theorem emits_streamBody (manifest : List (Str × ω)) (sections : List (ExportSection ε ω ρ)) :
    Emits (streamBody encode manifest sections)
      ((exportAttempts encode manifest sections).map Prod.snd ++
        [.ok (eofLine (sectionCounts sections .empty).entries)]) ⟨⟩ := by
  have closed : Emits (do
        let counts ← streamSections encode sections .empty
        yieldItem (exportLine encode (eofRecord ω counts.entries)))
      ((sections.flatMap (ExportSection.attempts encode)).map Prod.snd ++
        [.ok (eofLine (sectionCounts sections .empty).entries)]) ⟨⟩ := by
    refine (emits_streamSections sections .empty).bind ?_
    rw [exportLine_eofRecord]
    exact .yieldItem _
  have opened := (Emits.yieldItem (exportLine encode (tagged (lit "manifest") manifest)))
  exact opened.bind closed

/-- The stream writes its attempts up to the first that raises, and then one terminal line. -/
theorem ndjsonLines_eq (manifest : List (Str × ω)) (sections : List (ExportSection ε ω ρ)) :
    ndjsonLines encode manifest sections =
      emittedOf ((exportAttempts encode manifest sections).map Prod.snd) ++
        [if (raisedBy ((exportAttempts encode manifest sections).map Prod.snd)).isNone then
          eofLine (sectionCounts sections .empty).entries else errorLine] := by
  have run := @Emits.handled _ _ _ _ errorLine (@emits_streamBody _ _ _ encode manifest sections) []
  rw [raisedBy_map_ok, emittedOf_map_ok, List.nil_append, emittedOf_append, raisedBy_append] at run
  rw [ndjsonLines, streamNdjson, exportLine_exportError, run]
  cases raisedBy ((exportAttempts encode manifest sections).map Prod.snd) with
  | none => simp [raisedBy, emittedOf]
  | some exception => simp

/-! ### What the stream promises -/

/-- What was written before the terminal line, each line of a row with its record type, and the
terminal line. -/
structure FailsClosed (attempts : List (Option Str × Except ε Str)) (recordTypes : List Str)
    (written : List (Option Str × Str)) (terminal : Str) : Prop where
  inOrder : written.map (fun line => (line.1, Except.ok line.2)) <+: attempts
  eof_iff : (∃ counts, terminal = eofLine counts) ↔ written.length = attempts.length
  counted : written.length = attempts.length → ∃ counts, terminal = eofLine counts ∧
    counts.map Prod.fst = recordTypes ∧
    ∀ entry ∈ counts, entry.2 = written.countP (·.1 = some entry.1)
  failed : written.length ≠ attempts.length → terminal = errorLine

/-- What is written, with the labels of its attempts. -/
theorem exists_written {ι : Type} (attempts : List (ι × Except ε Str)) :
    ∃ written : List (ι × Str), written.map Prod.snd = emittedOf (attempts.map Prod.snd) ∧
      written.map (fun line => (line.1, Except.ok line.2)) <+: attempts := by
  induction attempts with
  | nil => exact ⟨[], rfl, List.prefix_refl _⟩
  | cons attempt rest inductionHypothesis =>
      obtain ⟨label, line | line⟩ := attempt
      · exact ⟨[], rfl, List.nil_prefix⟩
      · obtain ⟨written, same, inOrder⟩ := inductionHypothesis
        refine ⟨(label, line) :: written, ?_, (List.prefix_cons_inj _).mpr inOrder⟩
        exact congrArg (line :: ·) same

/-- The counts are those of the sections, in order, when their types differ. -/
theorem sectionCounts_entries (sections : List (ExportSection ε ω ρ)) (counts : Keyed Str Nat)
    (distinct : (counts.entries.map Prod.fst ++ sections.map (·.recordType)).Nodup) :
    (sectionCounts sections counts).entries = counts.entries ++
      sections.map fun part => (part.recordType, part.rows.rows.length) := by
  induction sections generalizing counts with
  | nil => exact (List.append_nil _).symm
  | cons part rest inductionHypothesis =>
      have absent : part.recordType ∉ counts.entries.map Prod.fst := by
        intro member
        exact (List.nodup_append.mp distinct).2.2 _ member _ List.mem_cons_self rfl
      have entries : (counts.upsert part.recordType fun _ => part.rows.rows.length).entries =
          counts.entries ++ [(part.recordType, part.rows.rows.length)] :=
        Keyed.upsertEntries_absent absent _
      have later : ((counts.upsert part.recordType fun _ => part.rows.rows.length).entries.map
          Prod.fst ++ rest.map (·.recordType)).Nodup := by
        rw [entries, List.map_append, List.append_assoc]
        exact distinct
      rw [sectionCounts, List.foldl_cons]
      exact (inductionHypothesis _ later).trans (by
        rw [entries, List.append_assoc, List.map_cons, List.singleton_append])

theorem label_of_mem {part : ExportSection ε ω ρ} {attempt : Option Str × Except ε Str}
    (member : attempt ∈ part.attempts encode) : attempt.1 = some part.recordType := by
  rw [ExportSection.attempts, List.mem_append, List.mem_map, List.mem_map] at member
  obtain ⟨_, -, rfl⟩ | ⟨_, -, rfl⟩ := member <;> rfl

/-- The rows attempted of a record type are those of the section of that type. -/
theorem countP_attempts (manifest : List (Str × ω)) {sections : List (ExportSection ε ω ρ)}
    (distinct : (sections.map (·.recordType)).Nodup) {part : ExportSection ε ω ρ}
    (member : part ∈ sections) :
    (exportAttempts encode manifest sections).countP (fun attempt =>
      attempt.1 = some part.recordType) = (part.attempts encode).length := by
  rw [exportAttempts, List.countP_cons_of_neg (by simp)]
  induction sections with
  | nil => cases member
  | cons first rest inductionHypothesis =>
      obtain ⟨apart, others⟩ := List.nodup_cons.mp distinct
      rw [List.flatMap_cons, List.countP_append]
      obtain rfl | later := List.mem_cons.mp member
      · have own : (part.attempts encode).countP (fun attempt =>
            attempt.1 = some part.recordType) = (part.attempts encode).length := by
          rw [List.countP_eq_length]
          exact fun attempt isAttempt => decide_eq_true (label_of_mem isAttempt)
        have none : (rest.flatMap (ExportSection.attempts encode)).countP (fun attempt =>
            attempt.1 = some part.recordType) = 0 := by
          rw [List.countP_eq_zero]
          intro attempt isAttempt
          obtain ⟨other, isOther, ofOther⟩ := List.mem_flatMap.mp isAttempt
          rw [label_of_mem ofOther, decide_eq_true_eq, Option.some.injEq]
          intro same
          exact apart (List.mem_map.mpr ⟨other, isOther, same⟩)
        rw [own, none, Nat.add_zero]
      · have none : (first.attempts encode).countP (fun attempt =>
            attempt.1 = some part.recordType) = 0 := by
          rw [List.countP_eq_zero]
          intro attempt isAttempt
          rw [label_of_mem isAttempt, decide_eq_true_eq, Option.some.injEq]
          intro same
          exact apart (List.mem_map.mpr ⟨part, later, same.symm⟩)
        rw [none, Nat.zero_add]
        exact inductionHypothesis others later

/-- The export of sections of different types fails closed. -/
theorem streamNdjson_failsClosed (encode : ω → Except ε Str) (manifest : List (Str × ω))
    (sections : List (ExportSection ε ω ρ)) (distinct : (sections.map (·.recordType)).Nodup) :
    ∃ written terminal, ndjsonLines encode manifest sections = written.map Prod.snd ++ [terminal] ∧
      FailsClosed (exportAttempts encode manifest sections) (sections.map (·.recordType)) written
        terminal := by
  obtain ⟨written, same, inOrder⟩ := exists_written (exportAttempts encode manifest sections)
  have complete_iff : (raisedBy ((exportAttempts encode manifest sections).map Prod.snd)).isNone =
      true ↔ written.length = (exportAttempts encode manifest sections).length := by
    rw [Option.isNone_iff_eq_none, raisedBy_eq_none_iff, ← same, List.length_map, List.length_map]
  have entries : (sectionCounts sections .empty).entries =
      sections.map fun part => (part.recordType, part.rows.rows.length) :=
    sectionCounts_entries sections .empty distinct
  refine ⟨written, _, by rw [ndjsonLines_eq, same], inOrder, ?_, ?_, ?_⟩
  · rw [← complete_iff]
    constructor
    · rintro ⟨counts, isEof⟩
      by_contra incomplete
      rw [if_neg incomplete] at isEof
      exact eofLine_ne_errorLine counts isEof.symm
    · intro complete
      exact ⟨_, if_pos complete⟩
  · intro complete
    refine ⟨_, if_pos (complete_iff.mpr complete), ?_, ?_⟩
    · rw [entries, List.map_map]
      rfl
    · rw [entries]
      intro entry member
      obtain ⟨part, isPart, rfl⟩ := List.mem_map.mp member
      have whole : written.map (fun line => (line.1, Except.ok line.2)) =
          exportAttempts encode manifest sections :=
        inOrder.eq_of_length (by rw [List.length_map, complete])
      -- nothing raised, so no iterator failed
      have exhausted : part.rows.failure = none := by
        cases failure : part.rows.failure with
        | none => rfl
        | some exception =>
            have attempted : (some part.recordType, Except.error exception) ∈
                exportAttempts encode manifest sections := by
              refine List.mem_cons_of_mem _ (List.mem_flatMap.mpr ⟨part, isPart, ?_⟩)
              simp [ExportSection.attempts, failure]
            rw [← whole] at attempted
            obtain ⟨line, -, isError⟩ := List.mem_map.mp attempted
            cases (Prod.mk.inj isError).2
      have counted := @countP_attempts _ _ _ encode manifest _ distinct _ isPart
      rw [← whole, List.countP_map, ExportSection.attempts, exhausted, Option.toList_none,
        List.map_nil, List.append_nil, List.length_map] at counted
      exact counted.symm
  · intro incomplete
    exact if_neg (mt complete_iff.mp incomplete)

/-- Every row of every section was written. -/
def RowsWritten (encode : ω → Except ε Str) (sections : List (ExportSection ε ω ρ))
    (lines : List Str) : Prop :=
  ∃ rows : List Str, (sections.flatMap (ExportSection.attempts encode)).map Prod.snd = rows.map .ok ∧
    rows.Sublist lines

end Stream

/-- A section of numbers, one of which may have no JSON text. -/
def numberSection (recordType : String) (numbers : List Nat) : ExportSection Unit Nat Nat where
  recordType := lit recordType
  rows := ⟨numbers, none⟩
  toPayload number := .ok [(lit "id", number)]

/-- The text of a number other than zero. -/
def positiveText (number : Nat) : Except Unit Str :=
  if number = 0 then .error () else .ok (natText number)

/-- A row of the second section that has no text ends the export. -/
theorem streamNdjson_failsClosed_numbers :
    ∃ written terminal, ndjsonLines positiveText [(lit "version", 1)]
        [numberSection "source" [9], numberSection "event" [1, 0, 2]] =
          written.map Prod.snd ++ [terminal] ∧
      FailsClosed (exportAttempts positiveText [(lit "version", 1)]
        [numberSection "source" [9], numberSection "event" [1, 0, 2]])
        [lit "source", lit "event"] written terminal :=
  streamNdjson_failsClosed positiveText [(lit "version", 1)]
    [numberSection "source" [9], numberSection "event" [1, 0, 2]] (by decide +kernel)

/-- A manifest that has no text ends the export with the error line, though there is no row left to
write. -/
theorem error_without_manifest :
    ndjsonLines positiveText [(lit "version", 0)] ([] : List (ExportSection Unit Nat Nat)) =
        [errorLine] ∧
      ¬ ((∃ counts, (ndjsonLines positiveText [(lit "version", 0)]
          ([] : List (ExportSection Unit Nat Nat))).getLast? = some (eofLine counts)) ↔
        RowsWritten positiveText ([] : List (ExportSection Unit Nat Nat))
          (ndjsonLines positiveText [(lit "version", 0)] ([] : List (ExportSection Unit Nat Nat)))) := by
  have output : ndjsonLines positiveText [(lit "version", 0)]
      ([] : List (ExportSection Unit Nat Nat)) = [errorLine] := by decide +kernel
  refine ⟨output, fun claimed => ?_⟩
  have written : RowsWritten positiveText ([] : List (ExportSection Unit Nat Nat))
      (ndjsonLines positiveText [(lit "version", 0)] ([] : List (ExportSection Unit Nat Nat))) :=
    ⟨[], rfl, List.nil_sublist _⟩
  obtain ⟨counts, isEof⟩ := claimed.mpr written
  rw [output, List.getLast?_singleton, Option.some.injEq] at isEof
  exact eofLine_ne_errorLine counts isEof.symm

end Goggles
