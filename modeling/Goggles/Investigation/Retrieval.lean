/-
Module: Goggles.Investigation.Retrieval
Purpose: A retrieval from a store that does not change reads every matching row of its window exactly
  once, as one query without a limit would, or raises.
Trusted boundary: none beyond the modules it imports; what is assumed of the store's answers is
  `Serves`
Main exports: LogRow, HexDigests, Serves, tied_spec, retrieve_spec, RetrievedOnce, retrieve_complete
-/
import Goggles.Investigation.LokiReader
import Goggles.Library.Paging
import Goggles.Store.Upload

namespace Goggles

/-! ### The store -/

/-- A row of the store, its labels with its metadata. -/
structure LogRow where
  timestamp : Int
  line : Str
  labels : Dict
deriving Repr, DecidableEq

/-- The rows an answer is made of. -/
def answerRows (streams : List LokiStream) : List LogRow :=
  streams.flatMap fun stream => stream.values.map fun value =>
    ⟨value.timestamp, value.line, stream.metadata value⟩

/-- The label a digest filter looks at starts with its prefix. -/
def LogRow.digestStarts (leading : Str) (row : LogRow) : Bool :=
  leading.isPrefixOf (valueIfStr (row.labels.get "audit_sha256"))

/-- The half-open window of a query. -/
def inWindow (start stop timestamp : Int) : Bool := start ≤ timestamp && timestamp < stop

/-- `hexdigest` is 64 lower-case hexadecimal digits. -/
def HexDigests (env : Env) : Prop :=
  ∀ data, (env.sha256 data).length = 64 ∧ ∀ digit ∈ env.sha256 data, isLowerHexDigit digit = true

/-- The transport answers an expression, and what `tied` makes of it, from a store that does not
change: with the earliest rows that match, whatever query it is, or not at all.  Each row carries
the digest of its body. -/
structure Serves (loki : Loki) (expression : Str) (matching : LogRow → Bool)
    (store : List LogRow) : Prop where
  answers : ∀ number leading start stop streams,
    (∀ digit ∈ leading, isLowerHexDigit digit = true) →
    loki.transport number (expression ++ Loki.digestFilter leading) start stop loki.pageSize =
      some streams →
    Earliest LogRow.timestamp loki.pageSize
      (store.filter fun row => matching row &&
        (row.digestStarts leading && inWindow start stop row.timestamp))
      (answerRows streams)
  digested : ∀ row ∈ store,
    row.labels.get "audit_sha256" = .str (loki.env.sha256 (encodeUtf8 row.line))

/-- What the reader makes of a row. -/
def LogRow.read (env : Env) (row : LogRow) : LokiRow :=
  ⟨row.timestamp, env.sha256 (encodeUtf8 row.line), encodeUtf8 row.line⟩

/-- The rows that match, as the reader reads them. -/
def wantedRows (env : Env) (matching : LogRow → Bool) (store : List LogRow) : List LokiRow :=
  (store.filter matching).map (LogRow.read env)

theorem distinguishes_order (rows : List LokiRow) : Distinguishes LokiRow.order rows := by
  rintro ⟨time, digest, body⟩ _ ⟨otherTime, otherDigest, otherBody⟩ _ same
  simp only [LokiRow.order, EmbeddingLike.apply_eq_iff_eq, Prod.mk.injEq] at same
  obtain ⟨rfl, rfl, bodies⟩ := same
  have bytes : body = otherBody := List.map_injective_iff.mpr (fun _ _ => UInt8.toNat_inj.mp) bodies
  rw [bytes]

/-! ### Queries -/

theorem eq_map_of_mapM {ι ρ : Type*} {read : ι → Option ρ} {value : ι → ρ} {items : List ι}
    {rows : List ρ} (reads : items.mapM read = some rows)
    (only : ∀ item row, read item = some row → row = value item) : rows = items.map value := by
  rw [mapM_eq_some_iff] at reads
  induction items generalizing rows with
  | nil => simpa using reads.symm
  | cons item rest inductionHypothesis =>
      cases rows with
      | nil => simp at reads
      | cons row others =>
          simp only [List.map_cons, List.cons.injEq] at reads
          rw [List.map_cons, only item row reads.1, inductionHypothesis reads.2]

theorem checkedRow_eq {loki : Loki} {start stop : Int} {stream : LokiStream} {value : LokiValue}
    {row : LokiRow} (checked : loki.checkedRow start stop stream value = some row) :
    row = LogRow.read loki.env ⟨value.timestamp, value.line, stream.metadata value⟩ := by
  unfold Loki.checkedRow encodeStrict at checked
  split at checked
  · cases checked
  · next encoded =>
      split at encoded
      · cases encoded
      · cases encoded
        split at checked
        · cases checked
          rfl
        · cases checked

theorem checkedRows_eq {loki : Loki} {start stop : Int} {streams : List LokiStream}
    {rows : List LokiRow} (checked : loki.checkedRows start stop streams = some rows) :
    rows = (answerRows streams).map (LogRow.read loki.env) := by
  rw [eq_map_of_mapM checked fun entry row found => checkedRow_eq found, answerRows,
    List.map_flatMap, List.map_flatMap]
  simp only [List.map_map, Function.comp_def]

/-- A query that returns has an answer, and the page is its rows. -/
theorem query_ok {loki : Loki} {reader next : Reader} {expression : Str} {start stop : Int}
    {page : Page start stop} (asked : loki.query reader expression start stop = .ok (page, next)) :
    next.evidence = reader.evidence ∧ ∃ streams,
      loki.transport reader.queries expression start stop loki.pageSize = some streams ∧
        page.rows = inOrder LokiRow.order ((answerRows streams).map (LogRow.read loki.env)) := by
  unfold Loki.query at asked
  split at asked
  · cases asked
  split at asked
  · cases asked
  split at asked
  · cases asked
  next streams answered =>
  split at asked
  · cases asked
  next rows checked =>
  split at asked
  · cases asked
  cases asked
  exact ⟨rfl, streams, answered, congrArg _ (checkedRows_eq checked)⟩

section Retrieval

variable {loki : Loki} {expression : Str} {matching : LogRow → Bool} {store : List LogRow}

/-- A page of the store holds the earliest of the wanted rows. -/
theorem Serves.page (serves : Serves loki expression matching store) {leading : Str}
    (digits : ∀ digit ∈ leading, isLowerHexDigit digit = true) {start stop : Int}
    {reader next : Reader} {page : Page start stop}
    (asked : loki.query reader (expression ++ Loki.digestFilter leading) start stop =
      .ok (page, next)) :
    Earliest LokiRow.timestamp loki.pageSize
      ((wantedRows loki.env matching store).filter fun row =>
        leading.isPrefixOf row.digest && inWindow start stop row.timestamp) page.rows := by
  obtain ⟨-, streams, answered, rows⟩ := query_ok asked
  have earliest : Earliest LokiRow.timestamp loki.pageSize (List.map (LogRow.read loki.env) _)
      ((answerRows streams).map (LogRow.read loki.env)) :=
    (serves.answers reader.queries leading start stop streams digits answered).map fun _ => rfl
  have wanted : ((store.filter fun row => matching row &&
        (row.digestStarts leading && inWindow start stop row.timestamp)).map
          (LogRow.read loki.env)) =
      (wantedRows loki.env matching store).filter fun row =>
        leading.isPrefixOf row.digest && inWindow start stop row.timestamp := by
    rw [wantedRows, List.filter_map, List.filter_filter]
    congr 1
    apply List.filter_congr
    intro row member
    rw [Function.comp_apply, LogRow.digestStarts, serves.digested row member, Bool.and_comm]
    rfl
  rw [wanted] at earliest
  rw [rows]
  exact earliest.perm (perm_inOrder _ _)

/-- A page that is not full is the whole window, in order. -/
theorem Serves.short_page (serves : Serves loki expression matching store) {leading : Str}
    (digits : ∀ digit ∈ leading, isLowerHexDigit digit = true) {start stop : Int}
    {reader next : Reader} {page : Page start stop}
    (asked : loki.query reader (expression ++ Loki.digestFilter leading) start stop =
      .ok (page, next)) (short : page.rows.length < loki.pageSize) :
    page.rows = inOrder LokiRow.order ((wantedRows loki.env matching store).filter fun row =>
      leading.isPrefixOf row.digest && inWindow start stop row.timestamp) := by
  obtain ⟨-, streams, -, rows⟩ := query_ok asked
  have whole := (serves.page digits asked).whole short
  apply eq_inOrder (distinguishes_order _) whole
  rw [rows]
  exact inOrder_sorted _ _

/-! ### Adding rows -/

theorem addTo_eq_ok {accept : Dict → Bool} {reader next : Reader} {rows : List LokiRow}
    (added : loki.addTo accept reader rows = .ok next) :
    loki.addRows accept rows reader.evidence = .ok next.evidence := by
  unfold Loki.addTo at added
  cases found : loki.addRows accept rows reader.evidence with
  | error incomplete =>
      rw [found] at added
      cases added
  | ok evidence =>
      rw [found] at added
      cases added
      rfl

theorem addRows_append {accept : Dict → Bool} {first second : List LokiRow}
    {evidence middle after : Evidence}
    (added : loki.addRows accept first evidence = .ok middle)
    (then_added : loki.addRows accept second middle = .ok after) :
    loki.addRows accept (first ++ second) evidence = .ok after := by
  unfold Loki.addRows at added then_added ⊢
  rw [List.foldlM_append, added]
  exact then_added

/-- Additions step by step are one addition. -/
theorem foldlM_addRows {ι : Type*} {accept : Dict → Bool}
    {step : Reader → ι → Except IncompleteEvidence Reader} {rowsOf : ι → List LokiRow}
    {items : List ι} (each : ∀ item ∈ items, ∀ reader next, step reader item = .ok next →
      loki.addRows accept (rowsOf item) reader.evidence = .ok next.evidence)
    {reader next : Reader} (done : items.foldlM step reader = .ok next) :
    loki.addRows accept (items.flatMap rowsOf) reader.evidence = .ok next.evidence := by
  induction items generalizing reader with
  | nil =>
      cases done
      rfl
  | cons item rest inductionHypothesis =>
      rw [List.foldlM_cons] at done
      cases first : step reader item with
      | error incomplete =>
          rw [first] at done
          cases done
      | ok middle =>
          rw [first] at done
          have head := each item List.mem_cons_self reader middle first
          exact addRows_append head (inductionHypothesis (fun other member =>
            each other (List.mem_cons_of_mem item member)) done)

/-! ### Ties -/

/-- The wanted rows at an instant whose digest starts with a prefix. -/
def tiedRows (wanted : List LokiRow) (timestamp : Int) (leading : Str) : List LokiRow :=
  wanted.filter fun row =>
    leading.isPrefixOf row.digest && inWindow timestamp (timestamp + 1) row.timestamp

theorem inWindow_succ_iff {start timestamp : Int} :
    inWindow start (start + 1) timestamp = true ↔ timestamp = start := by
  simp only [inWindow, Bool.and_eq_true, decide_eq_true_eq]
  omega

theorem hexDigits_eq : ∀ digit, isLowerHexDigit digit = true ↔ digit ∈ Loki.hexDigits := by
  intro digit
  have listed : Loki.hexDigits = [0x30, 0x31, 0x32, 0x33, 0x34, 0x35, 0x36, 0x37, 0x38, 0x39,
    0x61, 0x62, 0x63, 0x64, 0x65, 0x66] := by decide +kernel
  rw [listed]
  simp only [isLowerHexDigit, Bool.or_eq_true, Bool.and_eq_true, decide_eq_true_eq, List.mem_cons,
    List.not_mem_nil, or_false]
  omega

/-- A prefix with one more digit. -/
theorem isPrefixOf_snoc_iff {leading digest : Str} {digit : Nat} :
    (leading ++ [digit]).isPrefixOf digest = true ↔
      leading.isPrefixOf digest = true ∧ digest[leading.length]? = some digit := by
  simp only [List.isPrefixOf_iff_prefix]
  constructor
  · rintro ⟨rest, rfl⟩
    exact ⟨⟨digit :: rest, by simp⟩, by simp⟩
  · rintro ⟨⟨rest, rfl⟩, found⟩
    rw [List.getElem?_append_right (le_refl _), Nat.sub_self] at found
    cases rest with
    | nil => simp at found
    | cons head rest =>
        simp only [List.getElem?_cons_zero, Option.some.injEq] at found
        exact ⟨rest, by simp [found]⟩

theorem digest_of_mem_wantedRows (hex : HexDigests loki.env) {row : LokiRow}
    (member : row ∈ wantedRows loki.env matching store) :
    row.digest.length = 64 ∧ ∀ digit ∈ row.digest, isLowerHexDigit digit = true := by
  obtain ⟨stored, -, rfl⟩ := List.mem_map.mp member
  exact hex _

theorem mem_tiedRows {wanted : List LokiRow} {timestamp : Int} {leading : Str} {row : LokiRow} :
    row ∈ tiedRows wanted timestamp leading ↔
      row ∈ wanted ∧ row.timestamp = timestamp ∧ leading.isPrefixOf row.digest = true := by
  rw [tiedRows, List.mem_filter, Bool.and_eq_true, inWindow_succ_iff, and_comm (a := row.timestamp = _)]

/-- At one instant, rows under a prefix follow the digit after it. -/
theorem order_le_of_digit_lt {left right : LokiRow} {leading : Str} {first second : Nat}
    (tie : left.timestamp = right.timestamp) (leftStarts : leading.isPrefixOf left.digest = true)
    (rightStarts : leading.isPrefixOf right.digest = true)
    (leftDigit : left.digest[leading.length]? = some first)
    (rightDigit : right.digest[leading.length]? = some second) (less : first < second) :
    left.order ≤ right.order := by
  have leftNext := isPrefixOf_snoc_iff.mpr ⟨leftStarts, leftDigit⟩
  have rightNext := isPrefixOf_snoc_iff.mpr ⟨rightStarts, rightDigit⟩
  rw [List.isPrefixOf_iff_prefix] at leftNext rightNext
  obtain ⟨leftRest, leftEq⟩ := leftNext
  obtain ⟨rightRest, rightEq⟩ := rightNext
  have digests : left.digest < right.digest := by
    rw [← leftEq, ← rightEq, List.append_assoc, List.append_assoc]
    exact List.append_left_lt (List.cons_lt_cons_iff.mpr (.inl less))
  rw [LokiRow.order, LokiRow.order, Prod.Lex.toLex_le_toLex, Prod.Lex.toLex_le_toLex]
  exact .inr ⟨tie, .inl digests⟩

/-- The rows under a prefix are those under its continuations, one after the other. -/
theorem tiedRows_split (hex : HexDigests loki.env) {timestamp : Int} {leading : Str}
    (room : leading.length < 64) :
    inOrder LokiRow.order (tiedRows (wantedRows loki.env matching store) timestamp leading) =
      Loki.hexDigits.flatMap fun digit => inOrder LokiRow.order
        (tiedRows (wantedRows loki.env matching store) timestamp (leading ++ [digit])) := by
  set rows := tiedRows (wantedRows loki.env matching store) timestamp leading with rowsEq
  have split : inOrder LokiRow.order rows = (Loki.hexDigits.map some).flatMap fun each =>
      inOrder LokiRow.order (rows.filter fun row => row.digest[leading.length]? = each) := by
    apply inOrder_classes (distinguishes_order rows)
    · intro row member
      obtain ⟨wanted, -, -⟩ := mem_tiedRows.mp member
      obtain ⟨size, digits⟩ := digest_of_mem_wantedRows hex wanted
      have within : leading.length < row.digest.length := by omega
      rw [List.getElem?_eq_getElem within]
      exact List.mem_map_of_mem ((hexDigits_eq _).mp (digits _ (List.getElem_mem within)))
    · decide +kernel
    · rw [List.pairwise_map]
      have increasing : Loki.hexDigits.Pairwise (· < ·) := by decide +kernel
      refine increasing.imp fun less left leftMember right rightMember leftDigit rightDigit => ?_
      obtain ⟨-, leftTime, leftStarts⟩ := mem_tiedRows.mp leftMember
      obtain ⟨-, rightTime, rightStarts⟩ := mem_tiedRows.mp rightMember
      exact order_le_of_digit_lt (leftTime.trans rightTime.symm) leftStarts rightStarts leftDigit
        rightDigit less
  rw [split, List.flatMap_map]
  apply List.flatMap_congr
  intro digit _
  congr 1
  rw [rowsEq, tiedRows, tiedRows, List.filter_filter]
  apply List.filter_congr
  intro row _
  rw [Bool.eq_iff_iff]
  simp only [Bool.and_eq_true, decide_eq_true_eq, isPrefixOf_snoc_iff]
  tauto

/-- `tied` adds the rows at an instant in order, as one query without a limit would. -/
theorem tied_spec (hex : HexDigests loki.env) (serves : Serves loki expression matching store)
    {accept : Dict → Bool} {timestamp : Int} {room : Nat} {leading : Str} {reader next : Reader}
    (digits : ∀ digit ∈ leading, isLowerHexDigit digit = true) (sized : leading.length + room = 64)
    (done : loki.tied accept expression timestamp room leading reader = .ok next) :
    loki.addRows accept (inOrder LokiRow.order
      (tiedRows (wantedRows loki.env matching store) timestamp leading)) reader.evidence =
        .ok next.evidence := by
  induction room generalizing leading reader next with
  | zero =>
      rw [Loki.tied] at done
      split at done
      · cases done
      next page asking asked =>
      split at done
      · next short =>
          rw [← (query_ok asked).1, tiedRows, ← serves.short_page digits asked short]
          exact addTo_eq_ok done
      · cases done
  | succ room inductionHypothesis =>
      rw [Loki.tied] at done
      split at done
      · cases done
      next page asking asked =>
      split at done
      · next short =>
          rw [← (query_ok asked).1, tiedRows, ← serves.short_page digits asked short]
          exact addTo_eq_ok done
      · rw [tiedRows_split hex (by omega), ← (query_ok asked).1]
        apply foldlM_addRows _ done
        intro digit member reader next continued
        apply inductionHypothesis _ _ continued
        · intro other otherMember
          rcases List.mem_append.mp otherMember with old | new
          · exact digits other old
          · exact (hexDigits_eq other).mpr (List.mem_singleton.mp new ▸ member)
        · rw [List.length_append, List.length_singleton]
          omega

/-! ### The paging loop -/

/-- The wanted rows of a window. -/
def windowRows (wanted : List LokiRow) (start stop : Int) : List LokiRow :=
  wanted.filter fun row => inWindow start stop row.timestamp

theorem order_le_of_timestamp_lt {left right : LokiRow} (before : left.timestamp < right.timestamp) :
    left.order ≤ right.order := by
  rw [LokiRow.order, LokiRow.order, Prod.Lex.toLex_le_toLex]
  exact .inl before

/-- A window is its part before an instant of it, the rows at it, and its part after it. -/
theorem windowRows_split (wanted : List LokiRow) {cursor stop boundary : Int}
    (within : cursor ≤ boundary ∧ boundary < stop) :
    inOrder LokiRow.order (windowRows wanted cursor stop) =
      inOrder LokiRow.order ((windowRows wanted cursor stop).filter (·.timestamp < boundary)) ++
        inOrder LokiRow.order (tiedRows wanted boundary []) ++
        inOrder LokiRow.order (windowRows wanted (boundary + 1) stop) := by
  have here : (windowRows wanted cursor stop).filter (·.timestamp = boundary) =
      tiedRows wanted boundary [] := by
    rw [windowRows, tiedRows, List.filter_filter]
    apply List.filter_congr
    intro row _
    rw [Bool.eq_iff_iff]
    simp only [inWindow, List.isPrefixOf_nil_left, Bool.true_and, Bool.and_eq_true,
      decide_eq_true_eq]
    omega
  have after : (windowRows wanted cursor stop).filter (boundary < ·.timestamp) =
      windowRows wanted (boundary + 1) stop := by
    rw [windowRows, windowRows, List.filter_filter]
    apply List.filter_congr
    intro row _
    rw [Bool.eq_iff_iff]
    simp only [inWindow, Bool.and_eq_true, decide_eq_true_eq]
    omega
  rw [← here, ← after]
  exact inOrder_around (distinguishes_order _)
    (fun left _ right _ before => order_le_of_timestamp_lt before) boundary

/-- The page of a query without a digest filter. -/
theorem Serves.window_page (serves : Serves loki expression matching store) {start stop : Int}
    {reader next : Reader} {page : Page start stop}
    (asked : loki.query reader expression start stop = .ok (page, next)) :
    Earliest LokiRow.timestamp loki.pageSize
        (windowRows (wantedRows loki.env matching store) start stop) page.rows ∧
      page.rows.Pairwise (fun first second => first.order ≤ second.order) := by
  have unfiltered : expression ++ Loki.digestFilter [] = expression := List.append_nil expression
  have noDigits : ∀ digit ∈ ([] : Str), isLowerHexDigit digit = true := by simp
  constructor
  · have earliest := serves.page noDigits (unfiltered.symm ▸ asked)
    simpa [windowRows] using earliest
  · obtain ⟨-, streams, -, rows⟩ := query_ok asked
    rw [rows]
    exact inOrder_sorted _ _

/-- `retrieve` adds the wanted rows of the window from the cursor on, in order. -/
theorem retrieve_spec (hex : HexDigests loki.env) (serves : Serves loki expression matching store)
    {accept : Dict → Bool} {cursor stop : Int} {reader next : Reader}
    (done : loki.retrieve accept expression cursor stop reader = .ok next) :
    loki.addRows accept (inOrder LokiRow.order
      (windowRows (wantedRows loki.env matching store) cursor stop)) reader.evidence =
        .ok next.evidence := by
  induction left : (stop - cursor).toNat using Nat.strong_induction_on
    generalizing cursor reader with
  | _ measure inductionHypothesis =>
    rw [Loki.retrieve] at done
    split at done
    next open_window =>
      split at done
      · cases done
      next page asking asked =>
      rw [← (query_ok asked).1]
      obtain ⟨earliest, sorted⟩ := serves.window_page asked
      have short_page : page.rows.length < loki.pageSize → page.rows = inOrder LokiRow.order
          (windowRows (wantedRows loki.env matching store) cursor stop) := fun short =>
        eq_inOrder (distinguishes_order _) (earliest.whole short) sorted
      split at done
      · next empty =>
          rw [List.getLast?_eq_none_iff] at empty
          rw [← short_page (by rw [empty]; exact loki.pageSize_pos), empty]
          cases done
          rfl
      · next row last =>
          split at done
          · next short =>
              rw [← short_page short]
              exact addTo_eq_ok done
          · dsimp only at done
            split at done
            · cases done
            next before added =>
            split at done
            · cases done
            next atBoundary tied =>
            have member := List.mem_of_getLast? last
            have inside := page.inside row member
            have earlier : page.rows.filter (·.timestamp < row.timestamp) =
                inOrder LokiRow.order ((windowRows (wantedRows loki.env matching store)
                  cursor stop).filter (·.timestamp < row.timestamp)) :=
              eq_inOrder (distinguishes_order _) (earliest.before member) (sorted.filter _)
            have first := addTo_eq_ok added
            have second := tied_spec hex serves (by simp) (by simp) tied
            have rest := inductionHypothesis _ (by omega) done rfl
            rw [earlier] at first
            rw [windowRows_split _ inside]
            exact addRows_append (addRows_append first second) rest
    next closed =>
      have none_inside : windowRows (wantedRows loki.env matching store) cursor stop = [] := by
        apply List.filter_eq_nil_iff.mpr
        intro row _
        simp only [inWindow, Bool.and_eq_true, decide_eq_true_eq]
        omega
      rw [none_inside]
      cases done
      rfl

/-! ### Completeness -/

/-- Rows are added as their bodies are, and each is accepted. -/
theorem addRows_bodies {accept : Dict → Bool} {rows : List LokiRow} {before after : Evidence}
    (added : loki.addRows accept rows before = .ok after) :
    Evidence.addBodies loki.env (rows.map (·.body)) before = .ok after ∧
      ∀ row ∈ rows, ∃ event, parseBody row.body = .ok event ∧ accept event = true := by
  induction rows generalizing before with
  | nil =>
      cases added
      exact ⟨rfl, fun _ member => nomatch member⟩
  | cons row rest inductionHypothesis =>
      rw [Loki.addRows, List.foldlM_cons] at added
      cases parsed : parseBody row.body with
      | error incomplete =>
          rw [parsed] at added
          cases added
      | ok event =>
          rw [parsed] at added
          by_cases accepted : accept event = true
          · cases one : before.add loki.env row.body event with
            | error incomplete => simp [bind, Except.bind, accepted, one] at added
            | ok middle =>
                simp only [bind, Except.bind, accepted, if_true, one] at added
                obtain ⟨bodies, each⟩ := inductionHypothesis added
                have first : before.addBody loki.env row.body = .ok middle :=
                  Evidence.addBody_eq_ok_iff.mpr ⟨event, parsed, one⟩
                constructor
                · rw [List.map_cons, Evidence.addBodies, List.foldlM_cons, first]
                  exact bodies
                · intro other member
                  rcases List.mem_cons.mp member with rfl | later
                  · exact ⟨event, parsed, accepted⟩
                  · exact each other later
          · simp [bind, Except.bind, accepted] at added

/-- Rows were added as by one query without a limit: each once. -/
structure RetrievedOnce (loki : Loki) (accept : Dict → Bool) (rows : List LokiRow)
    (before after : Evidence) : Prop where
  unlimited : loki.addRows accept (inOrder LokiRow.order rows) before = .ok after
  occurrences : ∀ digest, after.occurrence digest =
    before.occurrence digest + rows.countP fun row => row.digest = digest
  recorded : ∀ row ∈ rows, (after.records.find row.digest).isSome

theorem retrievedOnce_of_addRows {accept : Dict → Bool} {rows : List LokiRow}
    (digested : ∀ row ∈ rows, row.digest = loki.env.sha256 row.body) {before after : Evidence}
    (added : loki.addRows accept (inOrder LokiRow.order rows) before = .ok after) :
    RetrievedOnce loki accept rows before after := by
  obtain ⟨counts, -, covered⟩ := Evidence.addBodies_spec (addRows_bodies added).1
  refine ⟨added, fun digest => ?_, fun row member => ?_⟩
  · rw [counts, List.countP_map, (perm_inOrder _ rows).countP_eq]
    congr 1
    apply List.countP_congr
    intro row member
    rw [digested row member]
    rfl
  · rw [digested row member]
    exact covered row.body (List.mem_map_of_mem (mem_inOrder.mpr member))

end Retrieval

/-! ### A store that answers -/

/-- The prefix a digest filter names. -/
def leadingOf (filter : Str) : Str :=
  (filter.drop (lit " | audit_sha256=~\"").length).take
    (filter.length - (lit " | audit_sha256=~\"").length - (lit "[0-9a-f]*\"").length)

theorem leadingOf_digestFilter (leading : Str) : leadingOf (Loki.digestFilter leading) = leading := by
  unfold leadingOf Loki.digestFilter
  split
  · next blank => rw [blank]; rfl
  · generalize lit " | audit_sha256=~\"" = opening
    generalize lit "[0-9a-f]*\"" = closing
    rw [List.append_assoc, List.drop_left]
    simp only [List.length_append]
    rw [show opening.length + (leading.length + closing.length) - opening.length - closing.length =
      leading.length by omega, List.take_left]

/-- A transport over a store that knows some expressions and what they match. -/
def storeTransport (expressions : List (Str × (LogRow → Bool))) (store : List LogRow) :
    Nat → Str → Int → Int → Nat → Option (List LokiStream) := fun _ query start stop limit =>
  (expressions.find? fun known => known.1.isPrefixOf query).map fun known =>
    ((inOrder LogRow.timestamp (store.filter fun row => known.2 row &&
      (row.digestStarts (leadingOf (query.drop known.1.length)) &&
        inWindow start stop row.timestamp))).take limit).map fun row =>
          ⟨row.labels, [⟨row.timestamp, row.line, []⟩]⟩

/-- Of expressions that do not begin one another, a query finds the one it continues. -/
theorem find?_continued {expressions : List (Str × (LogRow → Bool))}
    (apart : expressions.Pairwise fun first second =>
      ¬ first.1 <+: second.1 ∧ ¬ second.1 <+: first.1)
    {known : Str × (LogRow → Bool)} (member : known ∈ expressions) (rest : Str) :
    expressions.find? (fun other => other.1.isPrefixOf (known.1 ++ rest)) = some known := by
  induction expressions with
  | nil => cases member
  | cons first others inductionHypothesis =>
      rw [List.pairwise_cons] at apart
      rcases List.mem_cons.mp member with rfl | later
      · exact List.find?_cons_of_pos (by simp)
      · rw [List.find?_cons_of_neg, inductionHypothesis apart.2 later]
        rw [List.isPrefixOf_iff_prefix]
        intro begins
        have continues : known.1 <+: known.1 ++ rest := List.prefix_append _ _
        rcases List.prefix_or_prefix_of_prefix begins continues with within | within
        · exact (apart.1 known later).1 within
        · exact (apart.1 known later).2 within

/-- It serves each expression, when none begins another. -/
theorem serves_storeTransport {loki : Loki} {expressions : List (Str × (LogRow → Bool))}
    {store : List LogRow} (transport : loki.transport = storeTransport expressions store)
    (apart : expressions.Pairwise fun first second =>
      ¬ first.1 <+: second.1 ∧ ¬ second.1 <+: first.1)
    (digested : ∀ row ∈ store,
      row.labels.get "audit_sha256" = .str (loki.env.sha256 (encodeUtf8 row.line)))
    {expression : Str} {matching : LogRow → Bool} (known : (expression, matching) ∈ expressions) :
    Serves loki expression matching store := by
  refine ⟨fun number leading start stop streams _ answered => ?_, digested⟩
  have found : expressions.find? (fun known =>
      known.1.isPrefixOf (expression ++ Loki.digestFilter leading)) = some (expression, matching) :=
    find?_continued apart known _
  rw [transport, storeTransport, found, Option.map_some, Option.some.injEq] at answered
  rw [← answered, answerRows, List.flatMap_map]
  simp only [List.map_cons, List.map_nil, List.drop_left, leadingOf_digestFilter,
    LokiStream.metadata, List.foldl_nil, List.flatMap_singleton']
  exact earliest_take _ _ _

/-- An environment that knows the listed digests, and takes zeros for any other. -/
def hexEnv (digests : List (Str × Str)) : Env :=
  { digestEnv digests with
    sha256 := fun data =>
      let digest := (digestEnv digests).sha256 data
      if digest.length = 64 ∧ digest.all isLowerHexDigit then digest else List.replicate 64 0x30 }

theorem hexDigests_hexEnv (digests : List (Str × Str)) : HexDigests (hexEnv digests) := by
  intro data
  simp only [hexEnv]
  split
  · next hex => exact ⟨hex.1, List.all_eq_true.mp hex.2⟩
  · refine ⟨List.length_replicate, fun digit member => ?_⟩
    rw [List.eq_of_mem_replicate member]
    rfl

/-- Knows four records of the engine `e`. -/
def tieEnv : Env :=
  hexEnv
    [(sendRecord (lit "e") 100,
        lit "f498d216f252f53cf1579508a6ce79db" ++ lit "76102657c87ebb2a48d8335717c0d20b"),
      (sendRecord (lit "e") 200,
        lit "d3bdc75c25cda7783bfbfe7c387d3784" ++ lit "757f6fdf797d434471691f2dbccf2561"),
      (sendRecord (lit "e") 300,
        lit "13358494cb6aa6da225f83e08d166309" ++ lit "743a476441a9d7b9a0b2eb659506b5c2"),
      (sendRecord (lit "e") 400,
        lit "7d81fa960ff8ed7d8550c036b9733e5c" ++ lit "41f3215e413de19250ffc688bc513342")]

/-- A row under the label of a group. -/
def groupRow (env : Env) (timestamp : Int) (group line : Str) : LogRow :=
  ⟨timestamp, line,
    [(lit "audit_group", .str group), (lit "audit_sha256", .str (env.sha256 (encodeUtf8 line)))]⟩

def rowOfGroup (group : Str) (row : LogRow) : Bool := row.labels.get "audit_group" = .str group

/-- Three records tie at one instant. -/
def tieStore : List LogRow :=
  [groupRow tieEnv 5 (lit "ab") (sendRecord (lit "e") 100),
    groupRow tieEnv 5 (lit "ab") (sendRecord (lit "e") 200),
    groupRow tieEnv 5 (lit "ab") (sendRecord (lit "e") 300),
    groupRow tieEnv 7 (lit "ab") (sendRecord (lit "e") 400)]

/-- Reads two rows a page. -/
def tieLoki : Loki where
  env := tieEnv
  transport := storeTransport [(lit "q", rowOfGroup (lit "ab"))] tieStore
  expired _ := false
  serviceName := lit "s"
  environmentName := lit "e"
  nowNs := 10
  pageSize := 2
  pageSize_pos := by decide
  pageSize_le := by decide

/-- Retrieval from a store that does not change ends, and raises or adds every matching row of the
window exactly once, as one query without a limit would: for every page size, every distribution
of timestamps, every choice among rows of one instant, and whichever queries fail. -/
theorem retrieve_complete (loki : Loki) (expression : Str) (matching : LogRow → Bool)
    (store : List LogRow) (hex : HexDigests loki.env)
    (serves : Serves loki expression matching store) (accept : Dict → Bool) (start stop : Int)
    (reader : Reader) :
    (∃ incomplete, loki.retrieve accept expression start stop reader = .error incomplete) ∨
      ∃ next, loki.retrieve accept expression start stop reader = .ok next ∧
        RetrievedOnce loki accept
          (windowRows (wantedRows loki.env matching store) start stop) reader.evidence
          next.evidence := by
  cases done : loki.retrieve accept expression start stop reader with
  | error incomplete => exact .inl ⟨incomplete, rfl⟩
  | ok next =>
      refine .inr ⟨next, rfl, retrievedOnce_of_addRows ?_ (retrieve_spec hex serves done)⟩
      intro row member
      obtain ⟨stored, -, rfl⟩ := List.mem_map.mp (List.mem_of_mem_filter member)
      rfl

theorem retrieve_complete_tiedRecords :
    ((∃ incomplete, tieLoki.retrieve (inGroup (lit "ab")) (lit "q") 0 10 Reader.new =
        .error incomplete) ∨
      ∃ next, tieLoki.retrieve (inGroup (lit "ab")) (lit "q") 0 10 Reader.new = .ok next ∧
        RetrievedOnce tieLoki (inGroup (lit "ab"))
          (windowRows (wantedRows tieEnv (rowOfGroup (lit "ab")) tieStore) 0 10) Evidence.empty
          next.evidence) ∧
      (tieLoki.retrieve (inGroup (lit "ab")) (lit "q") 0 10 Reader.new).toOption.map
        (fun reader => (reader.queries, reader.evidence.occurrences.entries.map Prod.snd)) =
          some (19, [1, 1, 1, 1]) :=
  ⟨retrieve_complete tieLoki (lit "q") (rowOfGroup (lit "ab")) tieStore (hexDigests_hexEnv _)
    (serves_storeTransport rfl (List.pairwise_singleton _ _) (by decide +kernel)
      (List.mem_singleton.mpr rfl)) (inGroup (lit "ab")) 0 10 Reader.new, by decide +kernel⟩

end Goggles
