/-
Module: Goggles.Library.Walks
Purpose: Lists that are read page by page: a reader starts at offset zero and follows the next
  offsets it is given until there is none.
Trusted boundary: none
Main exports: Walk, SlicePages, SlicePages.walk, no_walk_of_always_next
-/
import Mathlib.Data.List.Basic
import Mathlib.Tactic.SplitIfs

namespace Goggles

variable {α : Type*}

/-- The pages that are read from an offset on, where each offset has a page and may have a next
offset. -/
inductive Walk (page : Nat → List α × Option Nat) : Nat → List (List α) → Prop where
  | last {offset : Nat} (done : (page offset).2 = none) : Walk page offset [(page offset).1]
  | more {offset next : Nat} {pages : List (List α)} (following : (page offset).2 = some next)
      (rest : Walk page next pages) : Walk page offset ((page offset).1 :: pages)

section Walk

variable {page : Nat → List α × Option Nat}

/-- Where every page has a next one no walk ends. -/
theorem no_walk_of_always_next (always : ∀ offset, (page offset).2 ≠ none) {offset : Nat}
    {pages : List (List α)} : ¬ Walk page offset pages := by
  intro walk
  induction walk with
  | last done => exact always _ done
  | more _ _ inductionHypothesis => exact inductionHypothesis

/-- The pages are the slices of a list, and there is a next one while something is left. -/
def SlicePages (whole : List α) (limit : Nat) (page : Nat → List α × Option Nat) : Prop :=
  ∀ offset, page offset = ((whole.drop offset).take limit,
    if offset + limit < whole.length then some (offset + limit) else none)

/-- The slices from an offset on end, and are what is left of the list. -/
theorem SlicePages.walk_from {whole : List α} {limit : Nat} (slices : SlicePages whole limit page)
    (positive : 1 ≤ limit) (offset : Nat) :
    ∃ pages, Walk page offset pages ∧ pages.flatten = whole.drop offset := by
  induction left : whole.length - offset using Nat.strongRecOn generalizing offset with
  | ind count inductionHypothesis =>
  by_cases more : offset + limit < whole.length
  · obtain ⟨pages, walk, rest⟩ := inductionHypothesis _ (by omega) (offset + limit) rfl
    refine ⟨(page offset).1 :: pages, .more ?_ walk, ?_⟩
    · rw [slices offset, if_pos more]
    · rw [List.flatten_cons, rest, slices offset, ← List.drop_drop]
      exact List.take_append_drop limit _
  · refine ⟨[(page offset).1], .last ?_, ?_⟩
    · rw [slices offset, if_neg more]
    · rw [slices offset, List.flatten_singleton]
      apply List.take_of_length_le
      rw [List.length_drop]
      omega

/-- The slices of a list are read in a walk that ends, each item once and in order. -/
theorem SlicePages.walk {whole : List α} {limit : Nat} (slices : SlicePages whole limit page)
    (positive : 1 ≤ limit) : ∃ pages, Walk page 0 pages ∧ pages.flatten = whole :=
  slices.walk_from positive 0

end Walk

end Goggles
