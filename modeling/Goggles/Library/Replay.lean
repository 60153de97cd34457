/-
Module: Goggles.Library.Replay
Purpose: Replaying a log: events put in key order, and folds that may fail and that split into
  independent parts, one for each owner of events.
Trusted boundary: none
Main exports: inOrder, Distinguishes, inOrder_filter, filter_inOrder, inOrder_append,
  getLast?_inOrder, replay, Splits, Splits.view_replay, mapM_eq_some_iff
-/
import Mathlib.Data.List.Sort
import Mathlib.Data.List.Basic
import Mathlib.Data.Option.Basic

namespace Goggles

/-! ### Key order -/

section Order

variable {ε α : Type*} {key : ε → α}

/-- Different events of the list have different keys. -/
def Distinguishes (key : ε → α) (events : List ε) : Prop :=
  ∀ left ∈ events, ∀ right ∈ events, key left = key right → left = right

theorem Distinguishes.subset {events some : List ε} (distinct : Distinguishes key events)
    (subset : some ⊆ events) : Distinguishes key some :=
  fun left leftMember right rightMember =>
    distinct left (subset leftMember) right (subset rightMember)

/-- Lists of distinguished events with the same keys are the same. -/
theorem Distinguishes.eq_of_map_eq {events left right : List ε} (distinct : Distinguishes key events)
    (leftSubset : left ⊆ events) (rightSubset : right ⊆ events)
    (same : left.map key = right.map key) : left = right := by
  induction left generalizing right with
  | nil => exact (List.map_eq_nil_iff.mp same.symm).symm
  | cons event rest inductionHypothesis =>
      cases right with
      | nil => simp at same
      | cons other others =>
          simp only [List.map_cons, List.cons.injEq] at same
          have head := distinct event (leftSubset List.mem_cons_self) other
            (rightSubset List.mem_cons_self) same.1
          have tail := inductionHypothesis
            (fun _ member => leftSubset (List.mem_cons_of_mem event member))
            (fun _ member => rightSubset (List.mem_cons_of_mem other member)) same.2
          rw [head, tail]

variable [LinearOrder α]

/-- The events sorted by key, ties in list order. -/
def inOrder (key : ε → α) (events : List ε) : List ε :=
  events.insertionSort fun left right => key left ≤ key right

theorem perm_inOrder (key : ε → α) (events : List ε) : (inOrder key events).Perm events :=
  List.perm_insertionSort _ events

@[simp] theorem mem_inOrder {event : ε} {events : List ε} :
    event ∈ inOrder key events ↔ event ∈ events :=
  (perm_inOrder key events).mem_iff

@[simp] theorem inOrder_nil : inOrder key ([] : List ε) = [] := rfl

theorem inOrder_eq_nil_iff {events : List ε} : inOrder key events = [] ↔ events = [] := by
  rw [← List.length_eq_zero_iff, (perm_inOrder key events).length_eq, List.length_eq_zero_iff]

theorem inOrder_sorted (key : ε → α) (events : List ε) :
    (inOrder key events).Pairwise fun left right => key left ≤ key right := by
  have total : Std.Total fun left right : ε => key left ≤ key right :=
    ⟨fun left right => le_total (key left) (key right)⟩
  have transitive : IsTrans ε fun left right => key left ≤ key right :=
    ⟨fun _ _ _ first second => le_trans first second⟩
  exact List.pairwise_insertionSort _ events

theorem map_inOrder {τ : Type*} (key : τ → α) (change : ε → τ) (events : List ε) :
    (inOrder (fun event => key (change event)) events).map change =
      inOrder key (events.map change) :=
  List.map_insertionSort (fun left right => key (change left) ≤ key (change right))
    (fun left right => key left ≤ key right) change events fun _ _ _ _ => Iff.rfl

/-- A sorted arrangement of distinguished events is the key order. -/
theorem eq_inOrder {arranged events : List ε} (distinct : Distinguishes key events)
    (perm : arranged.Perm events)
    (sorted : arranged.Pairwise fun left right => key left ≤ key right) :
    arranged = inOrder key events := by
  have antisymmetric : ∀ left right, left ∈ arranged → right ∈ inOrder key events →
      key left ≤ key right → key right ≤ key left → left = right :=
    fun left right leftMember rightMember forward backward =>
      distinct left (perm.subset leftMember) right (mem_inOrder.mp rightMember)
        (le_antisymm forward backward)
  exact List.Perm.eq_of_pairwise antisymmetric sorted (inOrder_sorted key events)
    (perm.trans (perm_inOrder key events).symm)

theorem inOrder_eq_of_perm {events others : List ε} (distinct : Distinguishes key events)
    (perm : others.Perm events) : inOrder key others = inOrder key events :=
  eq_inOrder distinct ((perm_inOrder key others).trans perm) (inOrder_sorted key others)

theorem inOrder_filter {events : List ε} (distinct : Distinguishes key events) (keep : ε → Bool) :
    (inOrder key events).filter keep = inOrder key (events.filter keep) :=
  eq_inOrder (distinct.subset (List.filter_subset_self events)) ((perm_inOrder key events).filter keep)
    ((inOrder_sorted key events).filter keep)

/-- What is filtered out does not matter to where the others are inserted. -/
theorem filter_orderedInsert {key : ε → α} (keep : ε → Bool) (event : ε) {sorted : List ε}
    (ascending : sorted.Pairwise fun left right => key left ≤ key right) :
    (sorted.orderedInsert (fun left right => key left ≤ key right) event).filter keep =
      if keep event then
        (sorted.filter keep).orderedInsert (fun left right => key left ≤ key right) event
      else sorted.filter keep := by
  induction sorted with
  | nil => cases kept : keep event <;> simp [kept]
  | cons first rest inductionHypothesis =>
      obtain ⟨least, restAscending⟩ := List.pairwise_cons.mp ascending
      rw [List.orderedInsert_cons]
      by_cases before : key event ≤ key first
      · rw [if_pos before, List.filter_cons]
        split
        · have heads : ∀ later ∈ (first :: rest).filter keep, key event ≤ key later := by
            intro later member
            rcases List.mem_cons.mp (List.mem_of_mem_filter member) with rfl | inRest
            · exact before
            · exact before.trans (least later inRest)
          cases kept : (first :: rest).filter keep with
          | nil => rfl
          | cons next others =>
              rw [List.orderedInsert_cons, if_pos (heads next (kept ▸ List.mem_cons_self))]
        · rfl
      · rw [if_neg before, List.filter_cons, inductionHypothesis restAscending, List.filter_cons]
        cases keep first <;> cases keep event <;> simp [before]

/-- The order is stable, so what is filtered out does not matter to the rest. -/
theorem filter_inOrder (key : ε → α) (keep : ε → Bool) (events : List ε) :
    (inOrder key events).filter keep = inOrder key (events.filter keep) := by
  induction events with
  | nil => rfl
  | cons event rest inductionHypothesis =>
      have step : (inOrder key (event :: rest)).filter keep =
          if keep event then
            ((inOrder key rest).filter keep).orderedInsert (fun left right => key left ≤ key right) event
          else (inOrder key rest).filter keep :=
        filter_orderedInsert keep event (inOrder_sorted key rest)
      rw [step, inductionHypothesis, List.filter_cons]
      split <;> rfl

/-- The last event in key order has the greatest key. -/
theorem of_getLast?_inOrder {events : List ε} {last : ε}
    (found : (inOrder key events).getLast? = some last) :
    last ∈ events ∧ ∀ event ∈ events, key event ≤ key last := by
  obtain ⟨front, split⟩ := List.getLast?_eq_some_iff.mp found
  have sorted := inOrder_sorted key events
  rw [split] at sorted
  refine ⟨?_, ?_⟩
  · have inSorted : last ∈ inOrder key events :=
      split ▸ List.mem_append_right _ (List.mem_singleton.mpr rfl)
    exact mem_inOrder.mp inSorted
  · intro event member
    have inSorted : event ∈ front ++ [last] := split ▸ mem_inOrder.mpr member
    rcases List.mem_append.mp inSorted with before | here
    · exact (List.pairwise_append.mp sorted).2.2 event before last (List.mem_singleton.mpr rfl)
    · rw [List.mem_singleton.mp here]

/-- The event with the greatest key is the last in key order. -/
theorem getLast?_inOrder {events : List ε} (distinct : Distinguishes key events) {last : ε}
    (member : last ∈ events) (greatest : ∀ event ∈ events, key event ≤ key last) :
    (inOrder key events).getLast? = some last := by
  cases found : (inOrder key events).getLast? with
  | none =>
      rw [List.getLast?_eq_none_iff, inOrder_eq_nil_iff] at found
      rw [found] at member
      cases member
  | some other =>
      obtain ⟨otherMember, otherGreatest⟩ := of_getLast?_inOrder found
      rw [distinct other otherMember last member
        (le_antisymm (greatest other otherMember) (otherGreatest last member))]

/-- Events that all come after the others are replayed after them. -/
theorem inOrder_append {earlier later : List ε} (distinct : Distinguishes key (earlier ++ later))
    (apart : ∀ first ∈ earlier, ∀ second ∈ later, key first ≤ key second) :
    inOrder key (earlier ++ later) = inOrder key earlier ++ inOrder key later := by
  refine (eq_inOrder distinct ((perm_inOrder key earlier).append (perm_inOrder key later)) ?_).symm
  refine List.pairwise_append.mpr ⟨inOrder_sorted key earlier, inOrder_sorted key later, ?_⟩
  intro first firstMember second secondMember
  exact apart first (mem_inOrder.mp firstMember) second (mem_inOrder.mp secondMember)

/-- Only then: the sorted whole splits at the boundary exactly when nothing overtakes. -/
theorem apart_of_inOrder_append {earlier later : List ε}
    (splits : inOrder key (earlier ++ later) = inOrder key earlier ++ inOrder key later) :
    ∀ first ∈ earlier, ∀ second ∈ later, key first ≤ key second := by
  intro first firstMember second secondMember
  have sorted := inOrder_sorted key (earlier ++ later)
  rw [splits] at sorted
  exact (List.pairwise_append.mp sorted).2.2 first (mem_inOrder.mpr firstMember) second
    (mem_inOrder.mpr secondMember)

end Order

/-! ### Replay -/

section Replay

variable {σ ε ι τ : Type*}

/-- Apply the events one after the other; a step that fails ends the replay. -/
def replay (step : σ → ε → Option σ) (state : σ) : List ε → Option σ
  | [] => some state
  | event :: rest =>
      match step state event with
      | none => none
      | some next => replay step next rest

@[simp] theorem replay_nil (step : σ → ε → Option σ) (state : σ) :
    replay step state [] = some state := rfl

theorem replay_cons (step : σ → ε → Option σ) (state : σ) (event : ε) (rest : List ε) :
    replay step state (event :: rest) = (step state event).bind (replay step · rest) := by
  rw [replay]
  cases step state event <;> rfl

theorem replay_append (step : σ → ε → Option σ) (state : σ) (first second : List ε) :
    replay step state (first ++ second) =
      (replay step state first).bind (replay step · second) := by
  induction first generalizing state with
  | nil => rfl
  | cons event rest inductionHypothesis =>
      rw [List.cons_append, replay_cons, replay_cons]
      cases step state event with
      | none => rfl
      | some next => exact inductionHypothesis next

/-- What every successful step preserves, a successful replay preserves. -/
theorem replay_invariant {step : σ → ε → Option σ} {holds : σ → Prop} {events : List ε}
    (preserved : ∀ state, ∀ event ∈ events, ∀ next, step state event = some next →
      holds state → holds next)
    {state final : σ} (replayed : replay step state events = some final) (initial : holds state) :
    holds final := by
  induction events generalizing state with
  | nil => exact Option.some.inj replayed ▸ initial
  | cons event rest inductionHypothesis =>
      rw [replay_cons, Option.bind_eq_some_iff] at replayed
      obtain ⟨next, stepped, rested⟩ := replayed
      exact inductionHypothesis
        (fun state other member => preserved state other (List.mem_cons_of_mem event member))
        rested (preserved state event List.mem_cons_self next stepped initial)

/-- The state splits into one part for each owner: a step acts on the part of the event's owner
as the local step says, and leaves every other part alone. -/
structure Splits (step : σ → ε → Option σ) (owner : ε → ι) (view : ι → σ → τ)
    (localStep : τ → ε → Option τ) : Prop where
  own : ∀ state event,
    (step state event).map (view (owner event)) = localStep (view (owner event) state) event
  frame : ∀ state event next index, step state event = some next → index ≠ owner event →
    view index next = view index state

namespace Splits

variable [DecidableEq ι] {step : σ → ε → Option σ} {owner : ε → ι} {view : ι → σ → τ}
  {localStep : τ → ε → Option τ}

/-- A successful replay, seen from one owner, is the replay of that owner's events. -/
theorem view_replay (splits : Splits step owner view localStep) {state final : σ}
    {events : List ε} (replayed : replay step state events = some final) (index : ι) :
    replay localStep (view index state) (events.filter (owner · = index)) =
      some (view index final) := by
  induction events generalizing state with
  | nil =>
      cases replayed
      rfl
  | cons event rest inductionHypothesis =>
      rw [replay_cons, Option.bind_eq_some_iff] at replayed
      obtain ⟨next, stepped, rested⟩ := replayed
      have later := inductionHypothesis rested
      by_cases mine : owner event = index
      · subst mine
        have local_ := splits.own state event
        rw [stepped, Option.map_some] at local_
        rw [List.filter_cons_of_pos (by simp), replay_cons, ← local_]
        exact later
      · rw [List.filter_cons_of_neg (by simpa using mine),
          ← splits.frame state event next index stepped (Ne.symm mine)]
        exact later

end Splits

end Replay

/-! ### Reading every item -/

/-- A list is read when each of its items is. -/
theorem mapM_eq_some_iff {ι ρ : Type*} {read : ι → Option ρ} {items : List ι} {rows : List ρ} :
    items.mapM read = some rows ↔ items.map read = rows.map some := by
  induction items generalizing rows with
  | nil => cases rows <;> simp
  | cons item rest inductionHypothesis =>
      rw [List.mapM_cons, List.map_cons]
      cases found : read item with
      | none => cases rows <;> simp
      | some row =>
          cases rows with
          | nil => cases rest.mapM read <;> simp
          | cons first others =>
              have tail := @inductionHypothesis others
              cases later : rest.mapM read with
              | none => simp [← tail, later]
              | some more => simp [← tail, later]

end Goggles
