/-
Module: Goggles.Investigation.Jsonl
Purpose: The reader of explicit JSONL files, and what it reads from files of whole lines.
Trusted boundary: forensics/investigation_reader.py, `read_jsonl`; a path is given by the bytes its
  file holds
Main exports: readline, readFile, readJsonl, JsonlFile, readJsonl_bodies
-/
import Goggles.Investigation.Evidence

namespace Goggles

/-! ### The reader -/

/-- `stream.readline(limit)`: the bytes up to and with the next line feed, `limit` at most, and the
bytes after them. -/
def readline : (limit : Nat) → List UInt8 → List UInt8 × List UInt8
  | 0, bytes => ([], bytes)
  | _ + 1, [] => ([], [])
  | limit + 1, byte :: rest =>
      if byte = 0x0a then ([byte], rest)
      else (byte :: (readline limit rest).1, (readline limit rest).2)

theorem readline_append (limit : Nat) (bytes : List UInt8) :
    (readline limit bytes).1 ++ (readline limit bytes).2 = bytes := by
  induction limit generalizing bytes with
  | zero => rfl
  | succ limit inductionHypothesis =>
      cases bytes with
      | nil => rfl
      | cons byte rest =>
          rw [readline]
          split
          · rfl
          · rw [List.cons_append, inductionHypothesis]

theorem readline_rest_lt {limit : Nat} {bytes : List UInt8} (read : (readline limit bytes).1 ≠ []) :
    (readline limit bytes).2.length < bytes.length := by
  have whole := congrArg List.length (readline_append limit bytes)
  have positive := List.length_pos_iff.mpr read
  rw [List.length_append] at whole
  omega

/-- `line[:-1].removesuffix(b"\r")`. -/
def lineBody (line : List UInt8) : List UInt8 :=
  let body := line.dropLast
  if body.getLast? = some 0x0d then body.dropLast else body

/-- The loop over one stream, with the bytes read from all streams so far. -/
def readFile (env : Env) (bytes : List UInt8) (total : Nat) (evidence : Evidence) :
    Except IncompleteEvidence (Nat × Evidence) :=
  let line := (readline (MAX_LINE_BYTES + 2) bytes).1
  let rest := (readline (MAX_LINE_BYTES + 2) bytes).2
  if ended : line = [] then .ok (total, evidence)
  else if MAX_SOURCE_BYTES < total + line.length then .error ⟨"source_budget_exceeded"⟩
  else if MAX_LINE_BYTES + 2 < line.length ∨ line.getLast? ≠ some 0x0a then
    .error ⟨"incomplete_jsonl_line"⟩
  else
    have : rest.length < bytes.length := readline_rest_lt ended
    if lineBody line = [] then readFile env rest (total + line.length) evidence
    else
      match evidence.addBody env (lineBody line) with
      | .error incomplete => .error incomplete
      | .ok evidence => readFile env rest (total + line.length) evidence
termination_by bytes.length

/-- `read_jsonl`. -/
def readJsonl (env : Env) (files : List (List UInt8)) : Except IncompleteEvidence Evidence :=
  if MAX_SOURCE_FILES < files.length then .error ⟨"source_file_budget_exceeded"⟩
  else
    (files.foldlM (fun scanned bytes => readFile env bytes scanned.1 scanned.2)
      (0, Evidence.empty)).map Prod.snd

/-! ### Files of whole lines -/

/-- How a line ends. -/
inductive LineEnd where
  | lf
  | crlf
deriving Repr, DecidableEq

def LineEnd.bytes : LineEnd → List UInt8
  | .lf => [0x0a]
  | .crlf => [0x0d, 0x0a]

/-- A file of lines, each a body or blank, with their ends. -/
abbrev JsonlFile := List (List UInt8 × LineEnd)

def JsonlFile.bytes (file : JsonlFile) : List UInt8 :=
  file.flatMap fun line => line.1 ++ line.2.bytes

/-- The bodies on the lines of a file. -/
def JsonlFile.bodies (file : JsonlFile) : List (List UInt8) := (file.map Prod.fst).filter (· ≠ [])

/-- A line carries its body: there is no line feed in it, and a carriage return at its end is not
taken for one of the line's end. -/
def OneLine (line : List UInt8 × LineEnd) : Prop :=
  0x0a ∉ line.1 ∧ (line.2 = .lf → line.1.getLast? ≠ some 0x0d)

instance (line : List UInt8 × LineEnd) : Decidable (OneLine line) :=
  inferInstanceAs (Decidable (_ ∧ (_ → _)))

/-- A line that fits is read whole. -/
theorem readline_fits {limit : Nat} {text : List UInt8} (rest : List UInt8) (plain : 0x0a ∉ text)
    (fits : text.length < limit) : readline limit (text ++ 0x0a :: rest) = (text ++ [0x0a], rest) := by
  induction text generalizing limit with
  | nil =>
      cases limit with
      | zero => exact absurd fits (Nat.not_lt_zero _)
      | succ limit => rfl
  | cons byte text inductionHypothesis =>
      cases limit with
      | zero => exact absurd fits (Nat.not_lt_zero _)
      | succ limit =>
          rw [List.mem_cons, not_or] at plain
          rw [List.length_cons, Nat.add_lt_add_iff_right] at fits
          rw [List.cons_append, readline, if_neg (Ne.symm plain.1), inductionHypothesis plain.2 fits]
          rfl

/-- A line that does not fit is cut before its line feed. -/
theorem readline_cut {limit : Nat} {text : List UInt8} (rest : List UInt8) (plain : 0x0a ∉ text)
    (long : limit ≤ text.length) : (readline limit (text ++ rest)).1 = text.take limit := by
  induction limit generalizing text with
  | zero => rfl
  | succ limit inductionHypothesis =>
      cases text with
      | nil => exact absurd long (by simp)
      | cons byte text =>
          rw [List.mem_cons, not_or] at plain
          rw [List.cons_append, readline, if_neg (Ne.symm plain.1), List.take_succ_cons,
            inductionHypothesis plain.2 (by simpa using long)]

/-- A line of a file, without its line feed. -/
def lineText (line : List UInt8 × LineEnd) : List UInt8 :=
  match line.2 with
  | .lf => line.1
  | .crlf => line.1 ++ [0x0d]

theorem lineText_append (line : List UInt8 × LineEnd) :
    line.1 ++ line.2.bytes = lineText line ++ [0x0a] := by
  obtain ⟨body, ending⟩ := line
  cases ending with
  | lf => rfl
  | crlf => simp [lineText, LineEnd.bytes]

theorem plain_lineText {line : List UInt8 × LineEnd} (one : OneLine line) :
    0x0a ∉ lineText line := by
  obtain ⟨body, ending⟩ := line
  cases ending with
  | lf => exact one.1
  | crlf => simpa [lineText] using one.1

theorem lineBody_lineText {line : List UInt8 × LineEnd} (one : OneLine line) :
    lineBody (lineText line ++ [0x0a]) = line.1 := by
  obtain ⟨body, ending⟩ := line
  cases ending with
  | lf => simp [lineBody, lineText, one.2]
  | crlf => simp [lineBody, lineText]

/-- One turn of the loop, at a line that fits. -/
theorem readFile_line {env : Env} {text rest : List UInt8} (plain : 0x0a ∉ text)
    (fits : text.length < MAX_LINE_BYTES + 2) {total : Nat} {evidence : Evidence}
    {scanned : Nat × Evidence}
    (done : readFile env (text ++ 0x0a :: rest) total evidence = .ok scanned) :
    if lineBody (text ++ [0x0a]) = [] then
      readFile env rest (total + (text ++ [0x0a]).length) evidence = .ok scanned
    else
      ∃ next, evidence.addBody env (lineBody (text ++ [0x0a])) = .ok next ∧
        readFile env rest (total + (text ++ [0x0a]).length) next = .ok scanned := by
  rw [readFile] at done
  simp only [readline_fits rest plain fits] at done
  split at done
  · next ended => simp at ended
  split at done
  · cases done
  split at done
  · cases done
  split at done
  · next blank => rwa [if_pos blank]
  · next present =>
      rw [if_neg present]
      split at done
      · cases done
      · next next added => exact ⟨next, added, done⟩

/-- A line that does not fit is refused. -/
theorem readFile_cut {env : Env} {text rest : List UInt8} (plain : 0x0a ∉ text)
    (long : MAX_LINE_BYTES + 2 ≤ text.length) {total : Nat} {evidence : Evidence}
    {scanned : Nat × Evidence} : readFile env (text ++ rest) total evidence ≠ .ok scanned := by
  intro done
  have cut := readline_cut rest plain long
  rw [readFile] at done
  simp only [cut] at done
  split at done
  · next ended =>
      have size := congrArg List.length ended
      rw [List.length_take, List.length_nil] at size
      omega
  split at done
  · cases done
  split at done
  · cases done
  · next whole =>
      rw [not_or, not_not] at whole
      exact plain (List.mem_of_mem_take (List.mem_of_getLast? whole.2))

/-- A stream that is read to its end adds the bodies on its lines. -/
theorem readFile_bodies {env : Env} {file : JsonlFile} (lines : ∀ line ∈ file, OneLine line)
    {total : Nat} {evidence : Evidence} {scanned : Nat × Evidence}
    (done : readFile env file.bytes total evidence = .ok scanned) :
    Evidence.addBodies env file.bodies evidence = .ok scanned.2 := by
  induction file generalizing total evidence with
  | nil =>
      rw [readFile] at done
      cases done
      rfl
  | cons line rest inductionHypothesis =>
      have one := lines line List.mem_cons_self
      have later : ∀ other ∈ rest, OneLine other := fun other member =>
        lines other (List.mem_cons_of_mem line member)
      have shape : JsonlFile.bytes (line :: rest) =
          lineText line ++ 0x0a :: JsonlFile.bytes rest := by
        rw [JsonlFile.bytes, List.flatMap_cons, lineText_append, List.append_assoc]
        rfl
      rw [shape] at done
      by_cases fits : (lineText line).length < MAX_LINE_BYTES + 2
      · have turn := readFile_line (plain_lineText one) fits done
        rw [lineBody_lineText one] at turn
        by_cases blank : line.1 = []
        · rw [if_pos blank] at turn
          have bodies : JsonlFile.bodies (line :: rest) = JsonlFile.bodies rest :=
            List.filter_cons_of_neg (by simpa using blank)
          rw [bodies]
          exact inductionHypothesis later turn
        · rw [if_neg blank] at turn
          obtain ⟨next, added, rested⟩ := turn
          have bodies : JsonlFile.bodies (line :: rest) = line.1 :: JsonlFile.bodies rest :=
            List.filter_cons_of_pos (by simpa using blank)
          rw [bodies, Evidence.addBodies, List.foldlM_cons, added]
          exact inductionHypothesis later rested
      · exact absurd done (readFile_cut (plain_lineText one) (Nat.not_lt.mp fits))

theorem readFiles_bodies {env : Env} {files : List JsonlFile}
    (lines : ∀ file ∈ files, ∀ line ∈ file, OneLine line) {start scanned : Nat × Evidence}
    (done : (files.map JsonlFile.bytes).foldlM
      (fun scanned bytes => readFile env bytes scanned.1 scanned.2) start = .ok scanned) :
    Evidence.addBodies env (files.flatMap JsonlFile.bodies) start.2 = .ok scanned.2 := by
  induction files generalizing start with
  | nil =>
      cases done
      rfl
  | cons file rest inductionHypothesis =>
      rw [List.map_cons, List.foldlM_cons] at done
      cases first : readFile env file.bytes start.1 start.2 with
      | error incomplete =>
          rw [first] at done
          cases done
      | ok middle =>
          rw [first] at done
          rw [List.flatMap_cons]
          exact Evidence.addBodies_append
            (readFile_bodies (lines file List.mem_cons_self) first)
            (inductionHypothesis (fun other member =>
              lines other (List.mem_cons_of_mem file member)) done)

/-- What is read from files of whole lines is the bodies on them. -/
theorem readJsonl_bodies {env : Env} {files : List JsonlFile}
    (lines : ∀ file ∈ files, ∀ line ∈ file, OneLine line) {evidence : Evidence}
    (done : readJsonl env (files.map JsonlFile.bytes) = .ok evidence) :
    Evidence.addBodies env (files.flatMap JsonlFile.bodies) Evidence.empty = .ok evidence := by
  unfold readJsonl at done
  split at done
  · cases done
  cases folded : (files.map JsonlFile.bytes).foldlM
      (fun scanned bytes => readFile env bytes scanned.1 scanned.2) (0, Evidence.empty) with
  | error incomplete =>
      rw [folded] at done
      cases done
  | ok scanned =>
      rw [folded] at done
      cases done
      exact readFiles_bodies lines folded

end Goggles
