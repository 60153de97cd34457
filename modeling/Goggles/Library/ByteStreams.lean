/-
Module: Goggles.Library.ByteStreams
Purpose: Streams of bytes: one in memory, and one that may return less than it is asked for, with
  how a bounded read or line read of the first splits at what the second returns.
Trusted boundary: none
Main exports: firstLine, splitLines, available, available_split, memoryRead, memoryReadlines,
  ShortStream, ShortStream.call_spec, ShortStream.call_shrinks
-/
import Mathlib.Algebra.GroupWithZero.Nat
import Mathlib.Data.List.Basic
import Mathlib.Tactic.SplitIfs

namespace Goggles

/-! ### Lines -/

/-- The bytes up to the first line feed, with it. -/
def firstLine : List UInt8 → List UInt8
  | [] => []
  | byte :: rest => if byte = 0x0a then [byte] else byte :: firstLine rest

/-- A chunk ends a line. -/
def endsLine (chunk : List UInt8) : Bool := chunk.getLast? = some 0x0a

/-- The lines of some bytes, each with its line feed. -/
def splitLines : List UInt8 → List (List UInt8)
  | [] => []
  | byte :: rest =>
      if byte = 0x0a then [byte] :: splitLines rest
      else
        match splitLines rest with
        | [] => [[byte]]
        | line :: lines => (byte :: line) :: lines

theorem firstLine_eq_nil_iff {body : List UInt8} : firstLine body = [] ↔ body = [] := by
  cases body with
  | nil => simp [firstLine]
  | cons byte rest =>
      simp only [firstLine]
      split <;> simp

theorem append_drop_of_prefix {front body : List UInt8} (within : front <+: body) :
    front ++ body.drop front.length = body := by
  obtain ⟨rest, rfl⟩ := within
  rw [List.drop_left]

theorem firstLine_append_drop (body : List UInt8) :
    firstLine body ++ body.drop (firstLine body).length = body := by
  induction body with
  | nil => rfl
  | cons byte rest inductionHypothesis =>
      simp only [firstLine]
      split
      · rfl
      · rw [List.length_cons, List.drop_succ_cons, List.cons_append, inductionHypothesis]

/-- Bytes that are left start with a line. -/
theorem splitLines_of_ne_nil {body : List UInt8} (filled : body ≠ []) :
    splitLines body = firstLine body :: splitLines (body.drop (firstLine body).length) := by
  induction body with
  | nil => exact absurd rfl filled
  | cons byte rest inductionHypothesis =>
      rw [splitLines, firstLine]
      split
      · rfl
      · cases rest with
        | nil => rfl
        | cons second more =>
            rw [inductionHypothesis (List.cons_ne_nil _ _)]
            rfl

/-- What is left of a line after a part of it that does not end it. -/
theorem firstLine_drop {body : List UInt8} {count : Nat}
    (inside : endsLine ((firstLine body).take count) = false) :
    firstLine body = (firstLine body).take count ++ firstLine (body.drop count) := by
  induction body generalizing count with
  | nil => cases count <;> rfl
  | cons byte rest inductionHypothesis =>
      cases count with
      | zero => rfl
      | succ count =>
          rw [firstLine] at inside ⊢
          split at inside
          · next feed => simp [endsLine, feed] at inside
          · next other =>
              rw [if_neg other, List.take_succ_cons, List.drop_succ_cons, List.cons_append]
              congr 1
              apply inductionHypothesis
              rw [List.take_succ_cons] at inside
              cases rest with
              | nil => cases count <;> rfl
              | cons second more =>
                  cases count with
                  | zero => rfl
                  | succ count =>
                      have filled : (firstLine (second :: more)).take (count + 1) ≠ [] := by
                        simp [firstLine_eq_nil_iff]
                      rwa [endsLine, List.getLast?_cons_of_ne_nil filled] at inside

/-- A part of a line that ends it is the line. -/
theorem take_firstLine_of_endsLine {body : List UInt8} {count : Nat}
    (ends : endsLine ((firstLine body).take count) = true) :
    (firstLine body).take count = firstLine body := by
  induction body generalizing count with
  | nil => simp [firstLine, endsLine] at ends
  | cons byte rest inductionHypothesis =>
      cases count with
      | zero => simp [endsLine] at ends
      | succ count =>
          rw [firstLine] at ends ⊢
          split at ends
          · next feed => simp [feed]
          · next other =>
              rw [if_neg other, List.take_succ_cons]
              congr 1
              apply inductionHypothesis
              rw [List.take_succ_cons] at ends
              by_cases blank : (firstLine rest).take count = []
              · rw [blank] at ends
                simp [endsLine, other] at ends
              · rwa [endsLine, List.getLast?_cons_of_ne_nil blank] at ends

/-! ### What is available to one call -/

/-- What a call may return: any bytes, or those of one line. -/
def available (line : Bool) (body : List UInt8) : List UInt8 :=
  if line then firstLine body else body

section Available

variable {line : Bool} {body : List UInt8}

theorem available_eq_nil_iff : available line body = [] ↔ body = [] := by
  cases line with
  | false => rfl
  | true => exact firstLine_eq_nil_iff

theorem available_append_drop (body : List UInt8) :
    available line body ++ body.drop (available line body).length = body := by
  cases line with
  | false => simp [available]
  | true => exact firstLine_append_drop body

/-- A part that does not end a line is followed by what is available after it. -/
theorem available_split {chunk : List UInt8} {count : Nat}
    (part : chunk = (available line body).take count)
    (inside : (line && endsLine chunk) = false) :
    available line body = chunk ++ available line (body.drop chunk.length) := by
  have exact_part : chunk = (available line body).take chunk.length := by
    rw [part, List.length_take, ← List.take_eq_take_min]
  cases line with
  | false =>
      have taken : chunk = body.take chunk.length := exact_part
      change body = chunk ++ body.drop chunk.length
      conv_lhs => rw [← List.take_append_drop chunk.length body]
      rw [← taken]
  | true =>
      have taken : chunk = (firstLine body).take chunk.length := exact_part
      rw [Bool.true_and, taken] at inside
      have split := firstLine_drop inside
      rw [← taken] at split
      exact split

/-- A part that ends a line is all that is available. -/
theorem available_of_endsLine {chunk : List UInt8} {count : Nat}
    (part : chunk = (available line body).take count) (ends : (line && endsLine chunk) = true) :
    available line body = chunk := by
  rw [Bool.and_eq_true] at ends
  obtain ⟨rfl, ends⟩ := ends
  have taken : chunk = (firstLine body).take count := part
  rw [taken] at ends ⊢
  exact (take_firstLine_of_endsLine ends).symm

end Available

/-! ### Reading in memory -/

/-- The bytes a read returns that has a size, and all of them without one. -/
def upTo (size : Option Nat) (available : List UInt8) : List UInt8 :=
  match size with
  | none => available
  | some count => available.take count

theorem upTo_append {size : Option Nat} {chunk : List UInt8} (rest : List UInt8)
    (fits : ∀ count, size = some count → chunk.length ≤ count) :
    upTo size (chunk ++ rest) = chunk ++ upTo (size.map (· - chunk.length)) rest := by
  cases size with
  | none => rfl
  | some count =>
      change (chunk ++ rest).take count = chunk ++ rest.take (count - chunk.length)
      rw [List.take_append, List.take_of_length_le (fits count rfl)]

/-- A read of a stream in memory, of a line or of any bytes: what it returns, and what is left. -/
def memoryRead (line : Bool) (size : Option Nat) (body : List UInt8) : List UInt8 × List UInt8 :=
  let data := upTo size (available line body)
  (data, body.drop data.length)

section MemoryRead

variable {line : Bool} {size : Option Nat} {body chunk : List UInt8} {count : Nat}

theorem memoryRead_zero : memoryRead line (some 0) body = ([], body) := rfl

theorem memoryRead_nil : memoryRead line size [] = ([], []) := by
  have nothing : available line [] = [] := available_eq_nil_iff.mpr rfl
  cases size with
  | none => simp [memoryRead, nothing, upTo]
  | some count => simp [memoryRead, nothing, upTo]

/-- A part that ends a line and fits is what is read. -/
theorem memoryRead_ends (part : chunk = (available line body).take count)
    (ends : (line && endsLine chunk) = true)
    (fits : ∀ bound, size = some bound → chunk.length ≤ bound) :
    memoryRead line size body = (chunk, body.drop chunk.length) := by
  have whole : upTo size (available line body) = chunk := by
    rw [available_of_endsLine part ends]
    cases size with
    | none => rfl
    | some bound => exact List.take_of_length_le (fits bound rfl)
  rw [memoryRead, whole]

/-- What is read is a part that fits, and what is read after it. -/
theorem memoryRead_more (part : chunk = (available line body).take count)
    (inside : (line && endsLine chunk) = false)
    (fits : ∀ bound, size = some bound → chunk.length ≤ bound) :
    memoryRead line size body =
      (chunk ++ (memoryRead line (size.map (· - chunk.length)) (body.drop chunk.length)).1,
        (memoryRead line (size.map (· - chunk.length)) (body.drop chunk.length)).2) := by
  have split : upTo size (available line body) = chunk ++
      upTo (size.map (· - chunk.length)) (available line (body.drop chunk.length)) := by
    conv_lhs => rw [available_split part inside]
    exact upTo_append _ fits
  rw [memoryRead, split]
  simp [memoryRead, List.drop_drop]

/-- What is read and what is left are what there was. -/
theorem memoryRead_append : (memoryRead line size body).1 ++ (memoryRead line size body).2 = body := by
  have within : upTo size (available line body) <+: body := by
    have first : upTo size (available line body) <+: available line body := by
      cases size with
      | none => exact List.prefix_rfl
      | some count => exact List.take_prefix _ _
    exact first.trans ⟨_, available_append_drop body⟩
  exact append_drop_of_prefix within

/-- The next line of a stream in memory. -/
def memoryNext (body : List UInt8) : Option (List UInt8) × List UInt8 :=
  let (line, rest) := memoryRead true none body
  (if line = [] then none else some line, rest)

theorem memoryNext_eq_none {rest : List UInt8} (done : memoryNext body = (none, rest)) :
    body = [] ∧ rest = [] := by
  unfold memoryNext at done
  split at done
  next line after read =>
  have parts := Prod.mk.inj read
  split at done
  · next blank =>
      have nothing : body = [] := firstLine_eq_nil_iff.mp (parts.1.trans blank)
      subst nothing
      rw [memoryRead_nil] at read
      cases read
      cases done
      exact ⟨rfl, rfl⟩
  · cases done

theorem memoryNext_eq_some {line rest : List UInt8} (found : memoryNext body = (some line, rest)) :
    body ≠ [] ∧ line = firstLine body ∧ rest = body.drop (firstLine body).length := by
  unfold memoryNext at found
  split at found
  next first after read =>
  have parts := Prod.mk.inj read
  split at found
  · cases found
  · next filled =>
      cases found
      refine ⟨?_, parts.1.symm, parts.2.symm⟩
      rintro rfl
      exact filled parts.1.symm

theorem memoryNext_append : (memoryNext body).1.getD [] ++ (memoryNext body).2 = body := by
  have split := @memoryRead_append true none body
  unfold memoryNext
  split
  next line rest read =>
  rw [read] at split
  by_cases blank : line = []
  · rw [if_pos blank]
    rwa [blank] at split
  · rw [if_neg blank]
    exact split

theorem memoryNext_shrinks {line rest : List UInt8} (found : memoryNext body = (some line, rest)) :
    rest.length < body.length := by
  obtain ⟨filled, rfl, rfl⟩ := memoryNext_eq_some found
  have line_pos := List.length_pos_iff.mpr (mt firstLine_eq_nil_iff.mp filled)
  have body_pos := List.length_pos_iff.mpr filled
  rw [List.length_drop]
  omega

end MemoryRead

/-- The lines that are read until they have as many bytes as a hint, if there is one. -/
def takeLines (hint : Option Nat) (total : Nat) : List (List UInt8) → List (List UInt8)
  | [] => []
  | line :: rest =>
      if hint.any (· ≤ total + line.length) then [line]
      else line :: takeLines hint (total + line.length) rest

/-- `readlines` of a stream in memory, after lines of `total` bytes. -/
def memoryReadlines (hint : Option Nat) (total : Nat) (body : List UInt8) :
    List (List UInt8) × List UInt8 :=
  let lines := takeLines hint total (splitLines body)
  (lines, body.drop lines.flatten.length)

theorem memoryReadlines_nil (hint : Option Nat) (total : Nat) :
    memoryReadlines hint total [] = ([], []) := rfl

theorem memoryReadlines_of_ne_nil {hint : Option Nat} {total : Nat} {body : List UInt8}
    (filled : body ≠ []) : memoryReadlines hint total body =
      let line := firstLine body
      let rest := body.drop line.length
      if hint.any (· ≤ total + line.length) then ([line], rest)
      else
        (line :: (memoryReadlines hint (total + line.length) rest).1,
          (memoryReadlines hint (total + line.length) rest).2) := by
  rw [memoryReadlines, splitLines_of_ne_nil filled, takeLines]
  dsimp only
  split
  · simp
  · simp [memoryReadlines, List.drop_drop]

theorem flatten_splitLines (body : List UInt8) : (splitLines body).flatten = body := by
  induction body with
  | nil => rfl
  | cons byte rest inductionHypothesis =>
      rw [splitLines]
      split
      · rw [List.flatten_cons, inductionHypothesis, List.singleton_append]
      · cases found : splitLines rest with
        | nil =>
            rw [found] at inductionHypothesis
            rw [← inductionHypothesis]
            rfl
        | cons line lines =>
            rw [found] at inductionHypothesis
            rw [← inductionHypothesis]
            rfl

theorem memoryReadlines_append {hint : Option Nat} {total : Nat} {body : List UInt8} :
    (memoryReadlines hint total body).1.flatten ++ (memoryReadlines hint total body).2 = body := by
  have within : ∀ (lines : List (List UInt8)) (total : Nat),
      takeLines hint total lines <+: lines := by
    intro lines
    induction lines with
    | nil => exact fun _ => List.prefix_rfl
    | cons line rest inductionHypothesis =>
        intro total
        rw [takeLines]
        split
        · exact (List.cons_prefix_cons).mpr ⟨rfl, List.nil_prefix⟩
        · exact (List.cons_prefix_cons).mpr ⟨rfl, inductionHypothesis _⟩
  obtain ⟨rest, split⟩ := within (splitLines body) total
  have joined : (takeLines hint total (splitLines body)).flatten ++ rest.flatten = body := by
    rw [← List.flatten_append, split, flatten_splitLines]
  change (takeLines hint total (splitLines body)).flatten ++ body.drop _ = body
  exact append_drop_of_prefix ⟨_, joined⟩

/-! ### Short reads -/

/-- A stream that may return less than it is asked for: what is left of it, and how often it was
read. -/
structure ShortStream where
  remaining : List UInt8
  calls : Nat
deriving Repr, DecidableEq

namespace ShortStream

/-- A read of a line or of any bytes.  `shorten` bounds what each call returns; a call that is not
at the end returns a byte. -/
def call (shorten : Nat → Nat) (line : Bool) (limit : Nat) (stream : ShortStream) :
    List UInt8 × ShortStream :=
  let chunk := (available line stream.remaining).take (max 1 (min limit (shorten stream.calls)))
  (chunk, ⟨stream.remaining.drop chunk.length, stream.calls + 1⟩)

variable {shorten : Nat → Nat} {line : Bool} {limit : Nat} {stream : ShortStream}

/-- What a call returns: some bytes of what is available, at least one if there is one. -/
theorem call_spec (enough : 0 < limit) : ∃ count, 0 < count ∧ count ≤ limit ∧
    (call shorten line limit stream).1 = (available line stream.remaining).take count ∧
    (call shorten line limit stream).2.remaining =
      stream.remaining.drop (call shorten line limit stream).1.length :=
  ⟨max 1 (min limit (shorten stream.calls)), by omega, by omega, rfl, rfl⟩

/-- A call that returns bytes leaves less. -/
theorem call_shrinks (filled : (call shorten line limit stream).1 ≠ []) :
    (call shorten line limit stream).2.remaining.length < stream.remaining.length := by
  have some_left : stream.remaining ≠ [] := by
    intro blank
    apply filled
    have nothing : available line stream.remaining = [] := available_eq_nil_iff.mpr blank
    exact (congrArg (List.take _) nothing).trans List.take_nil
  have positive := List.length_pos_iff.mpr filled
  have before := List.length_pos_iff.mpr some_left
  have after : (call shorten line limit stream).2.remaining.length =
      stream.remaining.length - (call shorten line limit stream).1.length := List.length_drop
  omega

end ShortStream

end Goggles
