/-
Module: Goggles.Library.Sessions
Purpose: Sessions that take turns on a shared state, each holding resources that no other session may
  hold at the same time: what the steps have to respect so that everything a session relies on stays
  true under every interleaving.
Trusted boundary: none
Main exports: Sessions, Sessions.isFree, Sessions.proceed, Sessions.finish, Discipline, Guarded,
  Guarded.proceed, Guarded.finish
-/
import Goggles.Library.Keyed
import Mathlib.Data.List.Lattice

namespace Goggles

/-- A shared state, and the private state of every session in progress. -/
structure Sessions (σ π : Type*) where
  shared : σ
  active : Keyed Nat π

namespace Sessions

variable {σ π ρ : Type*}

/-- No session. -/
def idle (shared : σ) : Sessions σ π := ⟨shared, .empty⟩

/-- A session goes on, or begins, in a private state. -/
def proceed (system : Sessions σ π) (session : Nat) (shared : σ) (state : π) : Sessions σ π :=
  ⟨shared, system.active.upsert session fun _ => state⟩

/-- A session ends. -/
def finish (system : Sessions σ π) (session : Nat) (shared : σ) : Sessions σ π :=
  ⟨shared, system.active.restrict fun name => name != session⟩

@[simp] theorem shared_proceed (system : Sessions σ π) (session : Nat) (shared : σ) (state : π) :
    (system.proceed session shared state).shared = shared := rfl

@[simp] theorem shared_finish (system : Sessions σ π) (session : Nat) (shared : σ) :
    (system.finish session shared).shared = shared := rfl

theorem find_proceed (system : Sessions σ π) (session name : Nat) (shared : σ) (state : π) :
    (system.proceed session shared state).active.find name =
      if name = session then some state else system.active.find name :=
  Keyed.find_upsert _ _ _ _

theorem find_finish (system : Sessions σ π) (session name : Nat) (shared : σ) :
    (system.finish session shared).active.find name =
      if name = session then none else system.active.find name := by
  rw [finish, Keyed.find_restrict]
  by_cases same : name = session <;> simp [same]

/-- No other session holds the resource. -/
def FreeFor (holds : π → List ρ) (system : Sessions σ π) (session : Nat) (resource : ρ) : Prop :=
  ∀ other state, other ≠ session → system.active.find other = some state → resource ∉ holds state

/-- The test a session makes before it takes a resource. -/
def isFree [DecidableEq ρ] (holds : π → List ρ) (system : Sessions σ π) (session : Nat)
    (resource : ρ) : Bool :=
  system.active.entries.all fun entry =>
    entry.1 == session || !(holds entry.2).contains resource

theorem isFree_iff [DecidableEq ρ] {holds : π → List ρ} {system : Sessions σ π} {session : Nat}
    {resource : ρ} :
    system.isFree holds session resource = true ↔ system.FreeFor holds session resource := by
  simp only [isFree, List.all_eq_true, Bool.or_eq_true, beq_iff_eq, Bool.not_eq_true',
    List.contains_eq_mem, decide_eq_false_iff_not, FreeFor, Keyed.find_eq_some_iff, Prod.forall]
  constructor
  · intro tested other state apart member
    exact (tested other state member).resolve_left apart
  · intro free other state member
    by_cases same : other = session
    · exact .inl same
    · exact .inr (free other state same member)

end Sessions

/-! ### What sessions rely on -/

/-- How sessions share a state: the resources a session holds, what is true of the shared state, what
a session relies on, and the changes of the shared state that stay within some resources. -/
structure Discipline (σ π ρ : Type*) where
  holds : π → List ρ
  invariant : σ → Prop
  relies : σ → π → Prop
  within : List ρ → σ → σ → Prop
  stable : ∀ {before after : σ} {state : π} {held : List ρ}, invariant before →
    relies before state → within held before after → held.Disjoint (holds state) →
      relies after state

/-- The shared state is in order, every session has what it relies on, and no resource is held
twice. -/
structure Guarded {σ π ρ : Type*} (discipline : Discipline σ π ρ) (system : Sessions σ π) :
    Prop where
  invariant : discipline.invariant system.shared
  relies : ∀ session state, system.active.find session = some state →
    discipline.relies system.shared state
  exclusive : ∀ first second left right, first ≠ second →
    system.active.find first = some left → system.active.find second = some right →
      (discipline.holds left).Disjoint (discipline.holds right)

namespace Guarded

variable {σ π ρ : Type*} {discipline : Discipline σ π ρ} {system : Sessions σ π} {session : Nat}
  {after : σ} {state : π}

theorem idle {shared : σ} (holds : discipline.invariant shared) :
    Guarded discipline (.idle shared) where
  invariant := holds
  relies := by simp [Sessions.idle]
  exclusive := by simp [Sessions.idle]

/-- What a session holds is free for it. -/
theorem free_of_held (guarded : Guarded discipline system)
    (found : system.active.find session = some state) {resource : ρ}
    (held : resource ∈ discipline.holds state) :
    system.FreeFor discipline.holds session resource := by
  intro other otherState apart otherFound member
  exact guarded.exclusive session other state otherState (Ne.symm apart) found otherFound held member

/-- A session goes on: the change stays within what it then holds, and what it then holds was free. -/
theorem proceed (guarded : Guarded discipline system) (holds : discipline.invariant after)
    (relies : discipline.relies after state)
    (within : discipline.within (discipline.holds state) system.shared after)
    (free : ∀ resource ∈ discipline.holds state,
      system.FreeFor discipline.holds session resource) :
    Guarded discipline (system.proceed session after state) where
  invariant := holds
  relies := by
    intro name found here
    rw [Sessions.find_proceed] at here
    by_cases same : name = session
    · rw [if_pos same, Option.some.injEq] at here
      exact here ▸ relies
    · rw [if_neg same] at here
      refine discipline.stable guarded.invariant (guarded.relies name found here) within ?_
      exact fun resource mine theirs => free resource mine name found same here theirs
  exclusive := by
    intro first second left right apart leftFound rightFound
    rw [Sessions.find_proceed] at leftFound rightFound
    by_cases isFirst : first = session
    · rw [if_neg (isFirst ▸ Ne.symm apart)] at rightFound
      rw [if_pos isFirst, Option.some.injEq] at leftFound
      subst leftFound
      exact fun resource mine theirs =>
        free resource mine second right (isFirst ▸ Ne.symm apart) rightFound theirs
    · rw [if_neg isFirst] at leftFound
      by_cases isSecond : second = session
      · rw [if_pos isSecond, Option.some.injEq] at rightFound
        subst rightFound
        exact fun resource theirs mine => free resource mine first left isFirst leftFound theirs
      · rw [if_neg isSecond] at rightFound
        exact guarded.exclusive first second left right apart leftFound rightFound

/-- A session ends: its last change stays within what it held. -/
theorem finish (guarded : Guarded discipline system) (holds : discipline.invariant after)
    (found : system.active.find session = some state)
    (within : discipline.within (discipline.holds state) system.shared after) :
    Guarded discipline (system.finish session after) where
  invariant := holds
  relies := by
    intro name other here
    rw [Sessions.find_finish] at here
    by_cases same : name = session
    · simp [same] at here
    · rw [if_neg same] at here
      refine discipline.stable guarded.invariant (guarded.relies name other here) within ?_
      exact guarded.exclusive session name state other (Ne.symm same) found here
  exclusive := by
    intro first second left right apart leftFound rightFound
    rw [Sessions.find_finish] at leftFound rightFound
    by_cases isFirst : first = session
    · simp [isFirst] at leftFound
    · by_cases isSecond : second = session
      · simp [isSecond] at rightFound
      · rw [if_neg isFirst] at leftFound
        rw [if_neg isSecond] at rightFound
        exact guarded.exclusive first second left right apart leftFound rightFound

/-- A change outside every session's resources. -/
theorem update (guarded : Guarded discipline system) (holds : discipline.invariant after)
    (within : discipline.within [] system.shared after) :
    Guarded discipline { system with shared := after } where
  invariant := holds
  relies := fun name found here =>
    discipline.stable guarded.invariant (guarded.relies name found here) within
      (List.disjoint_nil_left _)
  exclusive := guarded.exclusive

end Guarded

end Goggles
