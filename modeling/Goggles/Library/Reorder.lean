/-
Module: Goggles.Library.Reorder
Purpose: Sequences that differ by exchanging neighbours which do not depend on each other: what such
  an exchange keeps, and when a log in arrival order is one of the sorted log.
Trusted boundary: none
Main exports: Reorders, Reorders.perm, Reorders.pair, Reorders.replay, replay_congr,
  pair_append_singleton_iff, reorders_inOrder, Reorders.key_le
-/
import Goggles.Library.Replay

namespace Goggles

variable {ε σ : Type*}

/-- The same events, neighbours exchanged where neither depends on the other. -/
inductive Reorders (independent : ε → ε → Prop) : List ε → List ε → Prop where
  | refl (events : List ε) : Reorders independent events events
  | cons (event : ε) {left right : List ε} (rest : Reorders independent left right) :
      Reorders independent (event :: left) (event :: right)
  | swap (first second : ε) (apart : independent first second) (events : List ε) :
      Reorders independent (first :: second :: events) (second :: first :: events)
  | trans {left middle right : List ε} (first : Reorders independent left middle)
      (second : Reorders independent middle right) : Reorders independent left right

namespace Reorders

variable {independent : ε → ε → Prop} {left right : List ε}

theorem perm (reorders : Reorders independent left right) : left.Perm right := by
  induction reorders with
  | refl events => exact .refl events
  | cons event _ inductionHypothesis => exact inductionHypothesis.cons event
  | swap first second _ events => exact .swap second first events
  | trans _ _ first second => exact first.trans second

theorem append_right (reorders : Reorders independent left right) (tail : List ε) :
    Reorders independent (left ++ tail) (right ++ tail) := by
  induction reorders with
  | refl events => exact .refl _
  | cons event _ inductionHypothesis => exact inductionHypothesis.cons event
  | swap first second apart events => exact .swap first second apart (events ++ tail)
  | trans _ _ first second => exact first.trans second

/-- An event moves to the front of events that do not depend on it. -/
theorem move {event : ε} {passed : List ε} (apart : ∀ other ∈ passed, independent other event)
    (rest : List ε) :
    Reorders independent (passed ++ event :: rest) (event :: (passed ++ rest)) := by
  induction passed with
  | nil => exact .refl _
  | cons other others inductionHypothesis =>
      have later := inductionHypothesis fun next member =>
        apart next (List.mem_cons_of_mem other member)
      apply (later.cons other).trans
      exact .swap other event (apart other List.mem_cons_self) _

/-- Dependent events keep their order. -/
theorem pair (reorders : Reorders independent left right) {first second : ε}
    (dependent : ¬ independent first second) (ordered : [first, second].Sublist left) :
    [first, second].Sublist right := by
  induction reorders with
  | refl events => exact ordered
  | cons event rest inductionHypothesis =>
      rcases List.sublist_cons_iff.mp ordered with later | ⟨tail, split, found⟩
      · exact (inductionHypothesis later).cons event
      · obtain ⟨rfl, rfl⟩ := List.cons.inj split
        apply List.Sublist.cons_cons
        rw [List.singleton_sublist] at found ⊢
        exact rest.perm.mem_iff.mp found
  | swap one two apart events =>
      rcases List.sublist_cons_iff.mp ordered with later | ⟨tail, split, found⟩
      · rcases List.sublist_cons_iff.mp later with rest | ⟨tail, split, found⟩
        · exact (rest.cons one).cons two
        · obtain ⟨rfl, rfl⟩ := List.cons.inj split
          exact (found.cons one).cons_cons first
      · obtain ⟨rfl, rfl⟩ := List.cons.inj split
        rw [List.singleton_sublist] at found
        rcases List.mem_cons.mp found with rfl | rest
        · exact absurd apart dependent
        · apply List.Sublist.cons
          apply List.Sublist.cons_cons
          exact List.singleton_sublist.mpr rest
  | trans _ _ firstHypothesis secondHypothesis =>
      exact secondHypothesis (firstHypothesis ordered)

end Reorders

/-! ### Replays -/

section Replay

variable {step : σ → ε → Option σ} {same : σ → σ → Prop}

/-- Steps that respect a relation between states make replays that do. -/
theorem replay_congr
    (congruent : ∀ state other event next, same state other → step state event = some next →
      ∃ otherNext, step other event = some otherNext ∧ same next otherNext)
    {state other final : σ} (related : same state other) {events : List ε}
    (replayed : replay step state events = some final) :
    ∃ otherFinal, replay step other events = some otherFinal ∧ same final otherFinal := by
  induction events generalizing state other with
  | nil =>
      cases replayed
      exact ⟨other, rfl, related⟩
  | cons event rest inductionHypothesis =>
      rw [replay_cons, Option.bind_eq_some_iff] at replayed
      obtain ⟨next, stepped, rested⟩ := replayed
      obtain ⟨otherNext, otherStepped, nextRelated⟩ := congruent state other event next related stepped
      obtain ⟨otherFinal, otherRested, finalRelated⟩ := inductionHypothesis nextRelated rested
      refine ⟨otherFinal, ?_, finalRelated⟩
      rw [replay_cons, otherStepped, Option.bind_some]
      exact otherRested

/-- Where independent steps commute up to a relation, reordered replays end in related states. -/
theorem Reorders.replay {independent : ε → ε → Prop} (reflexive : ∀ state, same state state)
    (transitive : ∀ one two three, same one two → same two three → same one three)
    (congruent : ∀ state other event next, same state other → step state event = some next →
      ∃ otherNext, step other event = some otherNext ∧ same next otherNext)
    (commutes : ∀ state first second next last, independent first second →
      step state first = some next → step next second = some last →
      ∃ otherNext otherLast, step state second = some otherNext ∧
        step otherNext first = some otherLast ∧ same last otherLast)
    {left right : List ε} (reorders : Reorders independent left right) {state final : σ}
    (replayed : replay step state left = some final) :
    ∃ otherFinal, Goggles.replay step state right = some otherFinal ∧ same final otherFinal := by
  induction reorders generalizing state final with
  | refl events => exact ⟨final, replayed, reflexive final⟩
  | cons event _ inductionHypothesis =>
      rw [replay_cons, Option.bind_eq_some_iff] at replayed
      obtain ⟨next, stepped, rested⟩ := replayed
      obtain ⟨otherFinal, otherRested, related⟩ := inductionHypothesis rested
      refine ⟨otherFinal, ?_, related⟩
      rw [replay_cons, stepped, Option.bind_some]
      exact otherRested
  | swap first second apart events =>
      rw [replay_cons, Option.bind_eq_some_iff] at replayed
      obtain ⟨next, stepped, rested⟩ := replayed
      rw [replay_cons, Option.bind_eq_some_iff] at rested
      obtain ⟨last, lastStepped, rested⟩ := rested
      obtain ⟨otherNext, otherLast, otherStepped, otherLastStepped, related⟩ :=
        commutes state first second next last apart stepped lastStepped
      obtain ⟨otherFinal, otherRested, finalRelated⟩ := replay_congr congruent related rested
      refine ⟨otherFinal, ?_, finalRelated⟩
      rw [replay_cons, otherStepped, Option.bind_some, replay_cons, otherLastStepped,
        Option.bind_some]
      exact otherRested
  | trans _ _ firstHypothesis secondHypothesis =>
      obtain ⟨middle, middleReplayed, firstRelated⟩ := firstHypothesis replayed
      obtain ⟨last, lastReplayed, secondRelated⟩ := secondHypothesis middleReplayed
      exact ⟨last, lastReplayed, transitive _ _ _ firstRelated secondRelated⟩

end Replay

/-! ### Pairs of a growing log -/

/-- A pair of a log that has grown by one event. -/
theorem pair_append_singleton_iff {events : List ε} {added first second : ε} :
    [first, second].Sublist (events ++ [added]) ↔
      [first, second].Sublist events ∨ (first ∈ events ∧ second = added) := by
  rw [List.sublist_append_iff]
  constructor
  · rintro ⟨front, back, split, inFront, inBack⟩
    cases back with
    | nil =>
        rw [List.append_nil] at split
        exact .inl (split ▸ inFront)
    | cons event rest =>
        obtain ⟨same, nothing⟩ : event = added ∧ rest = [] := by
          have short := inBack.length_le
          cases rest with
          | nil => exact ⟨List.mem_singleton.mp (inBack.subset List.mem_cons_self), rfl⟩
          | cons other others => simp at short
        subst same nothing
        cases front with
        | nil => simp at split
        | cons head tail =>
            simp only [List.cons_append, List.cons.injEq] at split
            obtain ⟨rfl, split⟩ := split
            cases tail with
            | nil =>
                simp only [List.nil_append, List.cons.injEq, and_true] at split
                exact .inr ⟨inFront.subset List.mem_cons_self, split⟩
            | cons other others => simp at split
  · rintro (inside | ⟨member, rfl⟩)
    · exact ⟨[first, second], [], by simp, inside, List.nil_sublist _⟩
    · exact ⟨[first], [second], rfl, List.singleton_sublist.mpr member, .refl _⟩

/-! ### Arrival order and key order -/

section Order

variable {α : Type*} [LinearOrder α] {key : ε → α} {independent : ε → ε → Prop}

/-- The head of a sorted list is the event of the list that no other precedes. -/
theorem eq_cons_of_least {events sorted : List ε} (distinct : Distinguishes key events)
    (subset : sorted ⊆ events) (ordered : sorted.Pairwise fun left right => key left ≤ key right)
    {least : ε} (member : least ∈ sorted) (isLeast : ∀ event ∈ sorted, key least ≤ key event) :
    ∃ rest, sorted = least :: rest := by
  cases sorted with
  | nil => cases member
  | cons head rest =>
      have below : key head ≤ key least := by
        rcases List.mem_cons.mp member with rfl | later
        · exact le_refl _
        · exact (List.pairwise_cons.mp ordered).1 least later
      have same : head = least := distinct head (subset List.mem_cons_self) least (subset member)
        (le_antisymm below (isLeast head List.mem_cons_self))
      exact ⟨rest, same ▸ rfl⟩

/-- Two sorted lists put one behind the other reorder to the sorted whole, when what stands in the
wrong order is independent. -/
theorem reorders_merge {earlier later whole : List ε}
    (distinct : Distinguishes key (earlier ++ later)) (perm : whole.Perm (earlier ++ later))
    (earlierOrdered : earlier.Pairwise fun left right => key left ≤ key right)
    (laterOrdered : later.Pairwise fun left right => key left ≤ key right)
    (wholeOrdered : whole.Pairwise fun left right => key left ≤ key right)
    (apart : ∀ first ∈ earlier, ∀ second ∈ later, key second < key first →
      independent first second) :
    Reorders independent (earlier ++ later) whole := by
  induction whole generalizing earlier later with
  | nil =>
      rw [← perm.nil_eq]
      exact .refl _
  | cons least rest inductionHypothesis =>
      obtain ⟨isLeast, restOrdered⟩ := List.pairwise_cons.mp wholeOrdered
      have below : ∀ event ∈ earlier ++ later, key least ≤ key event := by
        intro event member
        rcases List.mem_cons.mp (perm.mem_iff.mpr member) with rfl | inRest
        · exact le_refl _
        · exact isLeast event inRest
      by_cases first : least ∈ earlier
      · obtain ⟨others, rfl⟩ := eq_cons_of_least distinct (List.subset_append_left _ _)
          earlierOrdered first fun event member => below event (List.mem_append_left _ member)
        apply Reorders.cons
        apply inductionHypothesis
        · exact distinct.subset (List.subset_cons_self _ _)
        · exact perm.cons_inv
        · exact (List.pairwise_cons.mp earlierOrdered).2
        · exact laterOrdered
        · exact restOrdered
        · intro one oneMember two twoMember
          exact apart one (List.mem_cons_of_mem _ oneMember) two twoMember
      · have second : least ∈ later :=
          (List.mem_append.mp (perm.mem_iff.mp List.mem_cons_self)).resolve_left first
        obtain ⟨others, rfl⟩ := eq_cons_of_least distinct (List.subset_append_right _ _)
          laterOrdered second fun event member => below event (List.mem_append_right _ member)
        have passed : ∀ event ∈ earlier, independent event least := by
          intro event member
          apply apart event member least List.mem_cons_self
          apply lt_of_le_of_ne (below event (List.mem_append_left _ member))
          intro same
          have equal := distinct least (List.mem_append_right _ List.mem_cons_self) event
            (List.mem_append_left _ member) same
          exact first (equal ▸ member)
        apply (Reorders.move passed others).trans
        apply Reorders.cons
        apply inductionHypothesis
        · apply distinct.subset
          intro event member
          rcases List.mem_append.mp member with inEarlier | inOthers
          · exact List.mem_append_left _ inEarlier
          · exact List.mem_append_right _ (List.mem_cons_of_mem _ inOthers)
        · exact (perm.trans List.perm_middle).cons_inv
        · exact earlierOrdered
        · exact (List.pairwise_cons.mp laterOrdered).2
        · exact restOrdered
        · intro one oneMember two twoMember
          exact apart one oneMember two (List.mem_cons_of_mem _ twoMember)

/-- A log kept sorted part by part, against the sorted log. -/
theorem reorders_inOrder {earlier later : List ε} (distinct : Distinguishes key (earlier ++ later))
    (apart : ∀ first ∈ earlier, ∀ second ∈ later, key second < key first →
      independent first second) :
    Reorders independent (inOrder key earlier ++ inOrder key later)
      (inOrder key (earlier ++ later)) := by
  have parts := (perm_inOrder key earlier).append (perm_inOrder key later)
  have partsDistinct : Distinguishes key (inOrder key earlier ++ inOrder key later) :=
    distinct.subset parts.subset
  apply reorders_merge partsDistinct
  · exact (perm_inOrder key _).trans parts.symm
  · exact inOrder_sorted key earlier
  · exact inOrder_sorted key later
  · exact inOrder_sorted key _
  · intro first firstMember second secondMember
    exact apart first (mem_inOrder.mp firstMember) second (mem_inOrder.mp secondMember)

/-- An order of the events in which dependent events stand in key order. -/
theorem Reorders.key_le {events : List ε} {arranged : List ε}
    (reorders : Reorders independent arranged (inOrder key events)) {first second : ε}
    (dependent : ¬ independent first second) (ordered : [first, second].Sublist arranged) :
    key first ≤ key second := by
  have sorted := inOrder_sorted key events
  exact List.pairwise_iff_forall_sublist.mp sorted (reorders.pair dependent ordered)

end Order

end Goggles
