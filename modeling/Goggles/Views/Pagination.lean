/-
Module: Goggles.Views.Pagination
Purpose: The pages of a section: by slicing its rows, or by a scan that counts the rows that pass the
  filters, which are interchangeable and lose no row.
Trusted boundary: forensics/views.py, `paginated_payloads`, `pagination_payload`.  The ordered rows
  are a list, and the chunks the scan loads them in are left out
Main exports: Pagination, PageQuery, paginatedPayloads, paginatedPayloads_walk
-/
import Goggles.Library.Walks
import Goggles.Python.Text

namespace Goggles

/-- `pagination_payload`. -/
structure Pagination where
  limit : Nat
  offset : Nat
  returned : Nat
  hasMore : Bool
  nextOffset : Option Nat
deriving Repr, DecidableEq

/-- `pagination_payload(limit, offset, returned, has_more)`. -/
def paginationPayload (limit offset returned : Nat) (hasMore : Bool) : Pagination where
  limit := limit
  offset := offset
  returned := returned
  hasMore := hasMore
  nextOffset := if hasMore then some (offset + returned) else none

/-- What `paginated_payloads` is asked for, the offset apart: the limit, the severity (none is the
empty one), and the filter of the payloads. -/
structure PageQuery (π : Type*) where
  limit : Nat
  severity : Str
  payloadFilter : Option (π → Bool)

variable {ρ π : Type*}

/-- The filters that a payload must pass. -/
def PageQuery.passes (query : PageQuery π) (severityFactory : π → Str) (payload : π) : Bool :=
  (query.severity = [] || severityFactory payload = query.severity) &&
    query.payloadFilter.all (· payload)

section Pages

variable (payloadFactory : ρ → π) (severityFactory : π → Str) (query : PageQuery π)

/-- The loop over the rows: the page, and whether a row that passes is left over.  `matched` counts the
rows that passed. -/
def scanPage (offset : Nat) (page : List π) (matched : Nat) : List ρ → List π × Bool
  | [] => (page, false)
  | item :: rest =>
      let payload := payloadFactory item
      if !query.passes severityFactory payload then scanPage offset page matched rest
      else if matched < offset then scanPage offset page (matched + 1) rest
      else if query.limit ≤ page.length then (page, true)
      else scanPage offset (page ++ [payload]) (matched + 1) rest

/-- `paginated_payloads`. -/
def paginatedPayloads (ordered : List ρ) (offset : Nat) : List π × Pagination :=
  if query.severity ≠ [] ∨ query.payloadFilter.isSome then
    let (page, hasMore) := scanPage payloadFactory severityFactory query offset [] 0 ordered
    (page, paginationPayload query.limit offset page.length hasMore)
  else
    let rows := (ordered.drop offset).take (query.limit + 1)
    let payloads := (rows.take query.limit).map payloadFactory
    (payloads, paginationPayload query.limit offset payloads.length (query.limit < rows.length))

/-! ### What is returned -/

/-- The payloads that pass the filters, in order. -/
def passing (ordered : List ρ) : List π :=
  (ordered.map payloadFactory).filter (query.passes severityFactory)

variable {payloadFactory severityFactory query}

/-- What the scan adds to its page: what is left to return of the rows that pass. -/
theorem scanPage_eq {offset : Nat} (ordered : List ρ) {page : List π} {matched : Nat}
    (skipped : page = [] ∨ offset ≤ matched) (fits : page.length ≤ query.limit) :
    scanPage payloadFactory severityFactory query offset page matched ordered =
      let kept := (passing payloadFactory severityFactory query ordered).drop (offset - matched)
      (page ++ kept.take (query.limit - page.length),
        decide (query.limit - page.length < kept.length)) := by
  induction ordered generalizing page matched with
  | nil => simp [scanPage, passing]
  | cons item rest inductionHypothesis =>
      rw [scanPage]
      dsimp only
      cases passed : query.passes severityFactory (payloadFactory item) with
      | false =>
          have same : passing payloadFactory severityFactory query (item :: rest) =
              passing payloadFactory severityFactory query rest := by
            simp [passing, passed]
          rw [same]
          exact inductionHypothesis skipped fits
      | true =>
          have first : passing payloadFactory severityFactory query (item :: rest) =
              payloadFactory item :: passing payloadFactory severityFactory query rest := by
            simp [passing, passed]
          rw [first]
          simp only [Bool.not_true, Bool.false_eq_true, if_false]
          by_cases early : matched < offset
          · have blank : page = [] := skipped.resolve_right (by omega)
            rw [if_pos early, inductionHypothesis (.inl blank) fits]
            obtain ⟨more, remaining⟩ : ∃ more, offset - matched = more + 1 :=
              ⟨offset - matched - 1, by omega⟩
            have next : offset - (matched + 1) = more := by omega
            rw [remaining, next, List.drop_succ_cons]
          · have none_skipped : offset - matched = 0 := by omega
            rw [if_neg early, none_skipped, List.drop_zero]
            by_cases full : query.limit ≤ page.length
            · have room : query.limit - page.length = 0 := by omega
              rw [if_pos full, room]
              simp
            · rw [if_neg full, inductionHypothesis (.inr (by omega)) (by simp; omega)]
              obtain ⟨room, remaining⟩ : ∃ room, query.limit - page.length = room + 1 :=
                ⟨query.limit - page.length - 1, by omega⟩
              have next : query.limit - (page ++ [payloadFactory item]).length = room := by
                simp
                omega
              have skip : offset - (matched + 1) = 0 := by omega
              rw [remaining, next, skip]
              simp

/-- Both paths return the same slice of the payloads that pass. -/
theorem paginatedPayloads_eq (ordered : List ρ) (offset : Nat) :
    paginatedPayloads payloadFactory severityFactory query ordered offset =
      let whole := passing payloadFactory severityFactory query ordered
      let page := (whole.drop offset).take query.limit
      (page, paginationPayload query.limit offset page.length
        (decide (offset + query.limit < whole.length))) := by
  unfold paginatedPayloads
  split
  · rw [scanPage_eq ordered (.inl rfl) (Nat.zero_le _)]
    simp only [List.nil_append, Nat.sub_zero, List.length_nil, List.length_drop]
    congr 2
    rw [decide_eq_decide]
    omega
  · next unfiltered =>
      rw [not_or, not_not, Bool.not_eq_true, Option.isSome_eq_false_iff, Option.isNone_iff_eq_none]
        at unfiltered
      have all : passing payloadFactory severityFactory query ordered =
          ordered.map payloadFactory := by
        apply List.filter_eq_self.mpr
        intro payload _
        simp [PageQuery.passes, unfiltered]
      rw [all]
      dsimp only
      rw [List.take_take, Nat.min_eq_left (Nat.le_succ _), List.map_take, List.map_drop]
      congr 2
      rw [decide_eq_decide, List.length_take, List.length_drop, List.length_map]
      omega

/-- Without a severity and a payload filter. -/
def PageQuery.unfiltered (query : PageQuery π) : PageQuery π :=
  { query with severity := [], payloadFilter := none }

/-- Following the next offsets reads every payload that passes, once and in order; and when every
payload passes, the pages are those of the slicing path. -/
theorem paginatedPayloads_walk (payloadFactory : ρ → π) (severityFactory : π → Str)
    (query : PageQuery π) (ordered : List ρ) (positive : 1 ≤ query.limit) :
    (∃ pages, Walk (fun offset => (paginatedPayloads payloadFactory severityFactory query ordered
        offset).map id Pagination.nextOffset) 0 pages ∧
      pages.flatten = passing payloadFactory severityFactory query ordered) ∧
    ((∀ row ∈ ordered, query.passes severityFactory (payloadFactory row) = true) → ∀ offset,
      paginatedPayloads payloadFactory severityFactory query ordered offset =
        paginatedPayloads payloadFactory severityFactory query.unfiltered ordered offset) := by
  constructor
  · apply SlicePages.walk _ positive
    intro offset
    dsimp only
    rw [paginatedPayloads_eq]
    simp only [Prod.map, id, paginationPayload, decide_eq_true_eq, Prod.mk.injEq, true_and]
    split
    · rw [List.length_take, List.length_drop]
      congr 1
      omega
    · rfl
  · intro all offset
    have same : passing payloadFactory severityFactory query ordered =
        passing payloadFactory severityFactory query.unfiltered ordered := by
      unfold passing
      apply List.filter_congr
      intro payload member
      obtain ⟨row, listed, rfl⟩ := List.mem_map.mp member
      rw [all row listed]
      simp [PageQuery.passes, PageQuery.unfiltered]
    rw [paginatedPayloads_eq, paginatedPayloads_eq, same]
    rfl

/-- Rows of numbers, two to a page, of which every third is a warning. -/
theorem paginatedPayloads_walk_warnings :
    ∃ pages, Walk (fun offset => (paginatedPayloads id
        (fun payload => if payload % 3 = 0 then lit "warning" else lit "info")
        ⟨2, "warning", some (· < 20)⟩ (List.range 40) offset).map id Pagination.nextOffset) 0 pages ∧
      pages.flatten = [0, 3, 6, 9, 12, 15, 18] := by
  obtain ⟨⟨pages, walk, whole⟩, -⟩ := paginatedPayloads_walk (id : Nat → Nat)
    (fun payload => if payload % 3 = 0 then lit "warning" else lit "info")
    ⟨2, "warning", some (· < 20)⟩ (List.range 40) (by decide)
  exact ⟨pages, walk, whole.trans (by decide +kernel)⟩

end Pages

end Goggles
