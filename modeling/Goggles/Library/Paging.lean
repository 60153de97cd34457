/-
Module: Goggles.Library.Paging
Purpose: Pages of the earliest rows of a table: what a page that is cut off says about the rows
  before its last, and sorted rows put together from sorted classes.
Trusted boundary: none
Main exports: Earliest, earliest_take, Earliest.whole, Earliest.before, inOrder_classes, inOrder_around
-/
import Goggles.Library.Replay
import Mathlib.Order.Compare

namespace Goggles

variable {ε α τ γ : Type*}

/-! ### Pages -/

/-- A page of at most `limit` rows, none of which is later than a row left out. -/
def Earliest [LE τ] (time : ε → τ) (limit : Nat) (rows page : List ε) : Prop :=
  ∃ rest, (page ++ rest).Perm rows ∧ page.length = min limit rows.length ∧
    ∀ early ∈ page, ∀ late ∈ rest, time early ≤ time late

section Page

variable [LinearOrder τ] {time : ε → τ} {limit : Nat} {rows page : List ε}

/-- A page that is not full holds every row. -/
theorem Earliest.whole (earliest : Earliest time limit rows page) (short : page.length < limit) :
    page.Perm rows := by
  obtain ⟨rest, split, size, -⟩ := earliest
  have total : page.length + rest.length = rows.length := by
    rw [← List.length_append, split.length_eq]
  have none_left : rest = [] := by
    apply List.length_eq_zero_iff.mp
    omega
  rwa [none_left, List.append_nil] at split

/-- The first rows of a table in order of time. -/
theorem earliest_take (time : ε → τ) (limit : Nat) (rows : List ε) :
    Earliest time limit rows ((inOrder time rows).take limit) := by
  refine ⟨(inOrder time rows).drop limit, ?_, ?_, ?_⟩
  · rw [List.take_append_drop]
    exact perm_inOrder time rows
  · rw [List.length_take, (perm_inOrder time rows).length_eq]
  · have sorted := inOrder_sorted time rows
    rw [← List.take_append_drop limit (inOrder time rows), List.pairwise_append] at sorted
    exact sorted.2.2

theorem Earliest.perm (earliest : Earliest time limit rows page) {arranged : List ε}
    (same : arranged.Perm page) : Earliest time limit rows arranged := by
  obtain ⟨rest, split, size, ordered⟩ := earliest
  refine ⟨rest, (same.append_right rest).trans split, same.length_eq.trans size, ?_⟩
  exact fun early member => ordered early (same.subset member)

/-- A page read row by row. -/
theorem Earliest.map {ρ : Type*} {stamp : ρ → τ} {read : ε → ρ}
    (earliest : Earliest time limit rows page) (kept : ∀ row, stamp (read row) = time row) :
    Earliest stamp limit (rows.map read) (page.map read) := by
  obtain ⟨rest, split, size, ordered⟩ := earliest
  refine ⟨rest.map read, ?_, by rwa [List.length_map, List.length_map], ?_⟩
  · rw [← List.map_append]
    exact split.map read
  · intro early earlyMember late lateMember
    obtain ⟨first, firstMember, rfl⟩ := List.mem_map.mp earlyMember
    obtain ⟨second, secondMember, rfl⟩ := List.mem_map.mp lateMember
    rw [kept, kept]
    exact ordered first firstMember second secondMember

theorem Earliest.subset (earliest : Earliest time limit rows page) : page ⊆ rows := by
  obtain ⟨rest, split, -⟩ := earliest
  exact fun row member => split.subset (List.mem_append_left rest member)

/-- A page holds every row before any of its rows. -/
theorem Earliest.before (earliest : Earliest time limit rows page) {last : ε}
    (reached : last ∈ page) :
    (page.filter (time · < time last)).Perm (rows.filter (time · < time last)) := by
  obtain ⟨rest, split, -, ordered⟩ := earliest
  have none_before : rest.filter (time · < time last) = [] := by
    apply List.filter_eq_nil_iff.mpr
    intro late member
    rw [decide_eq_true_eq, not_lt]
    exact ordered last reached late member
  have kept := split.filter (time · < time last)
  rwa [List.filter_append, none_before, List.append_nil] at kept

end Page

/-! ### Sorting class by class -/

section Classes

variable [LinearOrder α] [DecidableEq γ] {key : ε → α} {classOf : ε → γ}

/-- Rows split into classes that follow one another are sorted class by class. -/
theorem inOrder_classes {rows : List ε} (distinct : Distinguishes key rows) {classes : List γ}
    (covered : ∀ row ∈ rows, classOf row ∈ classes) (once : classes.Nodup)
    (ordered : classes.Pairwise fun first second => ∀ left ∈ rows, ∀ right ∈ rows,
      classOf left = first → classOf right = second → key left ≤ key right) :
    inOrder key rows = classes.flatMap fun each => inOrder key (rows.filter (classOf · = each)) := by
  induction classes generalizing rows with
  | nil =>
      cases rows with
      | nil => rfl
      | cons row rest => exact absurd (covered row List.mem_cons_self) List.not_mem_nil
  | cons first classes inductionHypothesis =>
      rw [List.nodup_cons] at once
      rw [List.pairwise_cons] at ordered
      set later := rows.filter fun row => !decide (classOf row = first) with laterEq
      have subset : later ⊆ rows := List.filter_subset_self rows
      have split : (rows.filter (classOf · = first) ++ later).Perm rows :=
        List.filter_append_perm _ rows
      have elsewhere : ∀ each ∈ classes,
          later.filter (classOf · = each) = rows.filter (classOf · = each) := by
        intro each member
        rw [laterEq, List.filter_filter]
        apply List.filter_congr
        intro row _
        by_cases same : classOf row = each
        · have other : each ≠ first := fun equal => once.1 (equal ▸ member)
          simp [same, other]
        · simp [same]
      have rest : inOrder key later =
          classes.flatMap fun each => inOrder key (rows.filter (classOf · = each)) := by
        rw [inductionHypothesis (distinct.subset subset) _ once.2 _]
        · apply List.flatMap_congr
          intro each member
          rw [elsewhere each member]
        · intro row member
          rw [laterEq, List.mem_filter] at member
          have known := covered row member.1
          rw [List.mem_cons] at known
          exact known.resolve_left (by simpa using member.2)
        · exact ordered.2.imp fun apart left leftMember right rightMember =>
            apart left (subset leftMember) right (subset rightMember)
      rw [List.flatMap_cons, ← rest, ← inOrder_eq_of_perm distinct split]
      apply inOrder_append (distinct.subset split.subset)
      intro left leftMember right rightMember
      rw [List.mem_filter, decide_eq_true_eq] at leftMember
      rw [laterEq, List.mem_filter] at rightMember
      have known := covered right rightMember.1
      rw [List.mem_cons] at known
      have listed := known.resolve_left (by simpa using rightMember.2)
      exact ordered.1 _ listed left leftMember.1 right rightMember.1 leftMember.2 rfl

/-- Sorted rows are those before an instant, those at it, and those after it. -/
theorem inOrder_around [LinearOrder τ] {time : ε → τ} {rows : List ε}
    (distinct : Distinguishes key rows)
    (first : ∀ left ∈ rows, ∀ right ∈ rows, time left < time right → key left ≤ key right)
    (instant : τ) :
    inOrder key rows = inOrder key (rows.filter (time · < instant)) ++
      inOrder key (rows.filter (time · = instant)) ++
      inOrder key (rows.filter (instant < time ·)) := by
  have split : inOrder key rows = [Ordering.lt, .eq, .gt].flatMap fun each =>
      inOrder key (rows.filter fun row => compare (time row) instant = each) := by
    apply inOrder_classes distinct
    · intro row _
      cases compare (time row) instant <;> decide
    · decide
    · simp only [List.pairwise_cons, List.mem_cons, List.not_mem_nil, or_false, forall_eq_or_imp,
        forall_eq, compare_lt_iff_lt, compare_eq_iff_eq, compare_gt_iff_gt, IsEmpty.forall_iff, implies_true,
        List.Pairwise.nil, and_true]
      refine ⟨⟨?_, ?_⟩, ?_⟩
      · intro left leftMember right rightMember before here
        exact first left leftMember right rightMember (here ▸ before)
      · intro left leftMember right rightMember before after
        exact first left leftMember right rightMember (before.trans after)
      · intro left leftMember right rightMember here after
        exact first left leftMember right rightMember (here ▸ after)
  simpa [compare_lt_iff_lt, compare_eq_iff_eq, compare_gt_iff_gt] using split

end Classes

end Goggles
