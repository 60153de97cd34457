/-
Module: Goggles.Library.Keyed
Purpose: Tables with a unique key, rows kept in creation order: find, create-or-update, restriction
  to some of the keys, and equality up to row order.
Trusted boundary: none
Main exports: Keyed, Keyed.find, Keyed.upsert, Keyed.restrict, Keyed.find_upsert,
  Keyed.restrict_upsert, Keyed.perm_of_find_eq, Keyed.upsertAll, Keyed.find_upsertAll,
  Keyed.gather, Keyed.find_gather, Keyed.gather_invariant, Keyed.fromKeys
-/
import Mathlib.Data.List.Nodup
import Mathlib.Data.List.Perm.Basic
import Mathlib.Data.List.Lookmap
import Mathlib.Data.List.Dedup
import Mathlib.Data.List.Induction

namespace Goggles

/-- An item of a list with distinct names is found by its name. -/
theorem find?_of_nodup {α κ : Type*} [DecidableEq κ] {name : α → κ} {items : List α}
    (distinct : (items.map name).Nodup) {item : α} (member : item ∈ items) :
    items.find? (fun other => decide (name other = name item)) = some item := by
  cases found : items.find? (fun other => decide (name other = name item)) with
  | none =>
      have missed := List.find?_eq_none.mp found item member
      simp at missed
  | some other =>
      have same : name other = name item := by simpa using List.find?_some found
      rw [List.inj_on_of_nodup_map distinct (List.mem_of_find?_eq_some found) member same]

/-- A table whose rows carry a unique key.  The rows stand in the order they were created. -/
structure Keyed (κ ρ : Type*) where
  entries : List (κ × ρ)
  unique : (entries.map Prod.fst).Nodup

namespace Keyed

variable {κ ρ : Type*}

@[ext] theorem ext {left right : Keyed κ ρ} (same : left.entries = right.entries) :
    left = right := by
  cases left
  cases right
  cases same
  rfl

instance [DecidableEq κ] [DecidableEq ρ] : DecidableEq (Keyed κ ρ) := fun left right =>
  decidable_of_iff (left.entries = right.entries) ⟨ext, fun same => same ▸ rfl⟩

/-- The table without rows. -/
def empty : Keyed κ ρ := ⟨[], List.nodup_nil⟩

instance : Inhabited (Keyed κ ρ) := ⟨empty⟩

@[simp] theorem entries_empty : (empty : Keyed κ ρ).entries = [] := rfl

theorem entries_nodup (table : Keyed κ ρ) : table.entries.Nodup :=
  List.Nodup.of_map Prod.fst table.unique

/-! ### Restriction -/

/-- The rows whose key satisfies a test. -/
def restrict (keep : κ → Bool) (table : Keyed κ ρ) : Keyed κ ρ where
  entries := table.entries.filter fun entry => keep entry.1
  unique := by
    have subset := (List.filter_sublist (p := fun entry => keep entry.1) (l := table.entries))
    exact table.unique.sublist (subset.map Prod.fst)

@[simp] theorem entries_restrict (keep : κ → Bool) (table : Keyed κ ρ) :
    (table.restrict keep).entries = table.entries.filter fun entry => keep entry.1 := rfl

@[simp] theorem restrict_empty (keep : κ → Bool) : (empty : Keyed κ ρ).restrict keep = empty := rfl

/-- The rows that satisfy a test. -/
def filterRows (keep : κ → ρ → Bool) (table : Keyed κ ρ) : Keyed κ ρ where
  entries := table.entries.filter fun entry => keep entry.1 entry.2
  unique := by
    have subset := (List.filter_sublist (p := fun entry => keep entry.1 entry.2)
      (l := table.entries))
    exact table.unique.sublist (subset.map Prod.fst)

@[simp] theorem entries_filterRows (keep : κ → ρ → Bool) (table : Keyed κ ρ) :
    (table.filterRows keep).entries = table.entries.filter fun entry => keep entry.1 entry.2 := rfl

/-! ### Rewriting every row -/

/-- Change every row in place, keys kept. -/
def mapRows (change : ρ → ρ) (table : Keyed κ ρ) : Keyed κ ρ where
  entries := table.entries.map fun entry => (entry.1, change entry.2)
  unique := by
    rw [List.map_map]
    exact table.unique

@[simp] theorem entries_mapRows (change : ρ → ρ) (table : Keyed κ ρ) :
    (table.mapRows change).entries = table.entries.map fun entry => (entry.1, change entry.2) := rfl

theorem mapRows_mapRows (table : Keyed κ ρ) (first second : ρ → ρ) :
    (table.mapRows first).mapRows second = table.mapRows fun row => second (first row) := by
  apply ext
  rw [entries_mapRows, entries_mapRows, entries_mapRows, List.map_map]
  rfl

theorem mapRows_eq_self {table : Keyed κ ρ} {change : ρ → ρ}
    (same : ∀ entry ∈ table.entries, change entry.2 = entry.2) : table.mapRows change = table := by
  apply ext
  rw [entries_mapRows]
  conv_rhs => rw [← List.map_id table.entries]
  apply List.map_congr_left
  intro entry member
  rw [same entry member]
  rfl

variable [DecidableEq κ]

/-! ### Find, and create or update -/

/-- The row with a key. -/
def find (table : Keyed κ ρ) (key : κ) : Option ρ := table.entries.lookup key

/-- The rows after creating or updating the one with a key. -/
def upsertEntries (key : κ) (change : Option ρ → ρ) : List (κ × ρ) → List (κ × ρ)
  | [] => [(key, change none)]
  | (found, row) :: rest =>
      if found = key then (found, change (some row)) :: rest
      else (found, row) :: upsertEntries key change rest

theorem map_fst_upsertEntries (key : κ) (change : Option ρ → ρ) (entries : List (κ × ρ)) :
    (upsertEntries key change entries).map Prod.fst =
      if key ∈ entries.map Prod.fst then entries.map Prod.fst
      else entries.map Prod.fst ++ [key] := by
  induction entries with
  | nil => simp [upsertEntries]
  | cons head rest inductionHypothesis =>
      obtain ⟨found, row⟩ := head
      by_cases here : found = key
      · simp [upsertEntries, here]
      · rw [upsertEntries, if_neg here, List.map_cons, inductionHypothesis]
        by_cases later : key ∈ rest.map Prod.fst
        · simp [later]
        · simp [later, Ne.symm here]

/-- `get_or_create` followed by the updates of the row: one row per key, changed in place or
appended. -/
def upsert (table : Keyed κ ρ) (key : κ) (change : Option ρ → ρ) : Keyed κ ρ where
  entries := upsertEntries key change table.entries
  unique := by
    rw [map_fst_upsertEntries]
    split
    · exact table.unique
    · next absent =>
        exact List.nodup_append.mpr ⟨table.unique, List.nodup_singleton key,
          fun left leftMember right rightMember => by
            rw [List.mem_singleton] at rightMember
            exact fun same => absent (rightMember ▸ same ▸ leftMember)⟩

@[simp] theorem find_empty (key : κ) : (empty : Keyed κ ρ).find key = none := rfl

theorem lookup_cons (name found : κ) (row : ρ) (rest : List (κ × ρ)) :
    ((found, row) :: rest).lookup name = if name = found then some row else rest.lookup name := by
  by_cases same : name = found
  · simp [same]
  · rw [List.lookup_cons, beq_false_of_ne same, if_neg same]

theorem find_upsert (table : Keyed κ ρ) (key name : κ) (change : Option ρ → ρ) :
    (table.upsert key change).find name =
      if name = key then some (change (table.find key)) else table.find name := by
  obtain ⟨entries, unique⟩ := table
  simp only [find, upsert]
  clear unique
  induction entries with
  | nil => simp [upsertEntries, lookup_cons]
  | cons head rest inductionHypothesis =>
      obtain ⟨found, row⟩ := head
      by_cases here : found = key
      · subst here
        by_cases asked : name = found <;> simp [upsertEntries, lookup_cons, asked]
      · rw [upsertEntries, if_neg here, lookup_cons, lookup_cons, lookup_cons,
          inductionHypothesis, if_neg (Ne.symm here)]
        by_cases asked : name = found
        · subst asked
          simp [here]
        · simp [asked]

@[simp] theorem find_upsert_self (table : Keyed κ ρ) (key : κ) (change : Option ρ → ρ) :
    (table.upsert key change).find key = some (change (table.find key)) := by
  simp [find_upsert]

theorem find_upsert_of_ne {table : Keyed κ ρ} {key name : κ} {change : Option ρ → ρ}
    (other : name ≠ key) : (table.upsert key change).find name = table.find name := by
  simp [find_upsert, other]

/-- A row is found exactly when it stands in the table under the key. -/
theorem find_eq_some_iff {table : Keyed κ ρ} {key : κ} {row : ρ} :
    table.find key = some row ↔ (key, row) ∈ table.entries := by
  obtain ⟨entries, unique⟩ := table
  simp only [find]
  induction entries with
  | nil => simp
  | cons head rest inductionHypothesis =>
      obtain ⟨found, old⟩ := head
      rw [List.map_cons, List.nodup_cons] at unique
      rw [lookup_cons, List.mem_cons, Prod.mk.injEq]
      by_cases here : key = found
      · subst here
        have absent : (key, row) ∉ rest := fun member =>
          unique.1 (List.mem_map.mpr ⟨(key, row), member, rfl⟩)
        simp [absent, eq_comm]
      · simp [here, inductionHypothesis unique.2]

theorem find_eq_none_iff {table : Keyed κ ρ} {key : κ} :
    table.find key = none ↔ key ∉ table.entries.map Prod.fst := by
  rw [Option.eq_none_iff_forall_ne_some]
  simp only [ne_eq, find_eq_some_iff, List.mem_map, Prod.exists, exists_and_right, exists_eq_right,
    not_exists]

/-- Tables that answer every find alike hold the same rows, in some order. -/
theorem perm_of_find_eq {left right : Keyed κ ρ} (same : ∀ key, left.find key = right.find key) :
    left.entries.Perm right.entries := by
  rw [List.perm_ext_iff_of_nodup left.entries_nodup right.entries_nodup]
  rintro ⟨key, row⟩
  rw [← find_eq_some_iff, ← find_eq_some_iff, same]

theorem find_eq_of_perm {left right : Keyed κ ρ} (same : left.entries.Perm right.entries)
    (key : κ) : left.find key = right.find key := by
  apply Option.ext
  intro row
  rw [find_eq_some_iff, find_eq_some_iff, same.mem_iff]

theorem find_filterRows (keep : κ → ρ → Bool) (table : Keyed κ ρ) (key : κ) :
    (table.filterRows keep).find key = (table.find key).filter (keep key) := by
  apply Option.ext
  intro row
  rw [find_eq_some_iff, entries_filterRows, List.mem_filter, ← find_eq_some_iff,
    Option.filter_eq_some_iff]

/-- The same keys with other rows. -/
def map {σ : Type*} (change : ρ → σ) (table : Keyed κ ρ) : Keyed κ σ where
  entries := table.entries.map fun entry => (entry.1, change entry.2)
  unique := by
    rw [List.map_map]
    exact table.unique

theorem find_map {σ : Type*} (change : ρ → σ) (table : Keyed κ ρ) (key : κ) :
    (table.map change).find key = (table.find key).map change := by
  apply Option.ext
  intro row
  simp only [find_eq_some_iff, Option.map_eq_some_iff, map, List.mem_map, Prod.mk.injEq,
    Prod.exists]
  constructor
  · rintro ⟨name, old, member, rfl, same⟩
    exact ⟨old, member, same⟩
  · rintro ⟨old, member, same⟩
    exact ⟨key, old, member, rfl, same⟩

/-! ### Restriction and update -/

theorem find_restrict (keep : κ → Bool) (table : Keyed κ ρ) (key : κ) :
    (table.restrict keep).find key = if keep key then table.find key else none := by
  apply Option.ext
  intro row
  by_cases kept : keep key = true
  · simp [kept, find_eq_some_iff]
  · simp [kept, find_eq_some_iff]

theorem filter_upsertEntries_of_keep {keep : κ → Bool} {key : κ} {change : Option ρ → ρ}
    (kept : keep key = true) (entries : List (κ × ρ)) :
    (upsertEntries key change entries).filter (fun entry => keep entry.1) =
      upsertEntries key change (entries.filter fun entry => keep entry.1) := by
  induction entries with
  | nil => simp [upsertEntries, kept]
  | cons head rest inductionHypothesis =>
      obtain ⟨found, row⟩ := head
      by_cases here : found = key
      · subst here
        simp [upsertEntries, kept]
      · by_cases stays : keep found = true <;>
          simp [upsertEntries, here, stays, inductionHypothesis]

theorem filter_upsertEntries_of_not_keep {keep : κ → Bool} {key : κ} {change : Option ρ → ρ}
    (dropped : keep key = false) (entries : List (κ × ρ)) :
    (upsertEntries key change entries).filter (fun entry => keep entry.1) =
      entries.filter fun entry => keep entry.1 := by
  induction entries with
  | nil => simp [upsertEntries, dropped]
  | cons head rest inductionHypothesis =>
      obtain ⟨found, row⟩ := head
      by_cases here : found = key
      · subst here
        simp [upsertEntries, dropped]
      · by_cases stays : keep found = true <;>
          simp [upsertEntries, here, stays, inductionHypothesis]

/-- An update of the last row. -/
theorem upsertEntries_last {key : κ} {older : List (κ × ρ)} (absent : key ∉ older.map Prod.fst)
    (change : Option ρ → ρ) (row : ρ) :
    upsertEntries key change (older ++ [(key, row)]) = older ++ [(key, change (some row))] := by
  induction older with
  | nil => simp [upsertEntries]
  | cons head rest inductionHypothesis =>
      rw [List.map_cons, List.mem_cons, not_or] at absent
      rw [List.cons_append, upsertEntries, if_neg (Ne.symm absent.1),
        inductionHypothesis absent.2, List.cons_append]

/-- A row created after all others. -/
theorem upsertEntries_absent {key : κ} {entries : List (κ × ρ)}
    (absent : key ∉ entries.map Prod.fst) (change : Option ρ → ρ) :
    upsertEntries key change entries = entries ++ [(key, change none)] := by
  induction entries with
  | nil => rfl
  | cons head rest inductionHypothesis =>
      rw [List.map_cons, List.mem_cons, not_or] at absent
      rw [upsertEntries, if_neg (Ne.symm absent.1), inductionHypothesis absent.2, List.cons_append]

/-- Restriction commutes with an update of a kept key, and does not see any other. -/
theorem restrict_upsert (keep : κ → Bool) (table : Keyed κ ρ) (key : κ) (change : Option ρ → ρ) :
    (table.upsert key change).restrict keep =
      if keep key then (table.restrict keep).upsert key change else table.restrict keep := by
  cases kept : keep key with
  | true => exact ext (filter_upsertEntries_of_keep kept table.entries)
  | false => exact ext (filter_upsertEntries_of_not_keep kept table.entries)

/-- The rows of an updated table: the updated one, and the others as they were. -/
theorem mem_upsert {table : Keyed κ ρ} {key : κ} {change : Option ρ → ρ} {entry : κ × ρ} :
    entry ∈ (table.upsert key change).entries ↔
      entry = (key, change (table.find key)) ∨ entry.1 ≠ key ∧ entry ∈ table.entries := by
  obtain ⟨name, row⟩ := entry
  rw [← find_eq_some_iff, find_upsert, ← find_eq_some_iff, Prod.mk.injEq]
  by_cases asked : name = key
  · simp [asked, eq_comm]
  · simp [asked]

/-! ### Sequences of updates -/

/-- Updates one after the other. -/
def upsertAll (table : Keyed κ ρ) (updates : List (κ × (Option ρ → ρ))) : Keyed κ ρ :=
  updates.foldl (fun rows update => rows.upsert update.1 update.2) table

theorem upsertAll_append (table : Keyed κ ρ) (first second : List (κ × (Option ρ → ρ))) :
    table.upsertAll (first ++ second) = (table.upsertAll first).upsertAll second :=
  List.foldl_append

/-- A row after a sequence of updates is the row after the updates of its own key. -/
theorem find_upsertAll (table : Keyed κ ρ) (updates : List (κ × (Option ρ → ρ))) (key : κ) :
    (table.upsertAll updates).find key =
      (updates.filter (·.1 = key)).foldl (fun found update => some (update.2 found))
        (table.find key) := by
  induction updates generalizing table with
  | nil => rfl
  | cons update rest inductionHypothesis =>
      rw [upsertAll, List.foldl_cons]
      have later := inductionHypothesis (table.upsert update.1 update.2)
      rw [upsertAll] at later
      rw [later]
      by_cases mine : update.1 = key
      · rw [List.filter_cons_of_pos (by simpa using mine), List.foldl_cons, ← mine,
          find_upsert_self]
      · rw [List.filter_cons_of_neg (by simpa using mine), find_upsert_of_ne (Ne.symm mine)]

/-- The rows under a key. -/
theorem filter_key (table : Keyed κ ρ) (key : κ) :
    table.entries.filter (·.1 = key) = (table.find key).toList.map (key, ·) := by
  obtain ⟨entries, unique⟩ := table
  simp only [find]
  induction entries with
  | nil => rfl
  | cons head rest inductionHypothesis =>
      obtain ⟨found, row⟩ := head
      rw [List.map_cons, List.nodup_cons] at unique
      rw [lookup_cons]
      by_cases here : found = key
      · subst here
        have none_later : rest.filter (·.1 = found) = [] := by
          apply List.filter_eq_nil_iff.mpr
          intro entry member same
          rw [decide_eq_true_eq] at same
          exact unique.1 (List.mem_map.mpr ⟨entry, member, same⟩)
        simp [none_later]
      · rw [List.filter_cons_of_neg (by simpa using here), inductionHypothesis unique.2,
          if_neg (Ne.symm here)]

/-- Overwriting one table with the rows of another. -/
theorem find_upsertAll_entries (table : Keyed κ ρ) {σ : Type*} (source : Keyed κ σ)
    (value : σ → ρ) (key : κ) :
    (table.upsertAll (source.entries.map fun entry => (entry.1, fun _ => value entry.2))).find key =
      ((source.find key).map value).or (table.find key) := by
  have mine : ((source.entries.map fun entry =>
        (entry.1, fun _ : Option ρ => value entry.2)).filter (·.1 = key)) =
      (source.entries.filter (·.1 = key)).map fun entry => (entry.1, fun _ => value entry.2) := by
    rw [List.filter_map]
    rfl
  rw [find_upsertAll, mine, filter_key]
  cases source.find key <;> rfl

/-! ### Gathering -/

variable {ι : Type*}

/-- A `defaultdict` filled item by item. -/
def gather (add : Option ρ → ι → ρ) (items : List (κ × ι)) : Keyed κ ρ :=
  empty.upsertAll (items.map fun item => (item.1, fun found => add found item.2))

theorem gather_append (add : Option ρ → ι → ρ) (items more : List (κ × ι)) :
    gather add (items ++ more) =
      more.foldl (fun table item => table.upsert item.1 fun found => add found item.2)
        (gather add items) := by
  rw [gather, List.map_append, upsertAll_append, ← gather]
  generalize gather add items = table
  rw [upsertAll, List.foldl_map]

/-- What was gathered under a key. -/
theorem find_gather (add : Option ρ → ι → ρ) (items : List (κ × ι)) (key : κ) :
    (gather add items).find key =
      ((items.filter (·.1 = key)).map (·.2)).foldl (fun found item => some (add found item))
        none := by
  rw [gather, find_upsertAll, find_empty, List.filter_map, List.foldl_map, List.foldl_map]
  rfl

theorem foldl_some_eq_none_iff {add : Option ρ → ι → ρ} {items : List ι} :
    items.foldl (fun found item => some (add found item)) none = none ↔ items = [] := by
  constructor
  · intro silent
    rcases List.eq_nil_or_concat items with rfl | ⟨older, last, rfl⟩
    · rfl
    · rw [List.concat_eq_append, List.foldl_append, List.foldl_cons, List.foldl_nil] at silent
      cases silent
  · rintro rfl
    rfl

/-- The keys of what was gathered are the keys of the items. -/
theorem mem_keys_gather {add : Option ρ → ι → ρ} {items : List (κ × ι)} {key : κ} :
    key ∈ (gather add items).entries.map Prod.fst ↔ key ∈ items.map Prod.fst := by
  rw [← not_iff_not, ← find_eq_none_iff, find_gather, foldl_some_eq_none_iff, List.map_eq_nil_iff,
    List.filter_eq_nil_iff, List.mem_map]
  simp only [decide_eq_true_eq, not_exists, not_and]

/-- `set.add` of a `defaultdict(set)`; a set is a list without repetitions. -/
def addItem [DecidableEq ι] (found : Option (List ι)) (item : ι) : List ι :=
  (found.getD []).insert item

/-- The set a fold of additions leaves. -/
theorem mem_foldl_addItem [DecidableEq ι] {items : List ι} {found : Option (List ι)} {item : ι} :
    item ∈ (items.foldl (fun found item => some (addItem found item)) found).getD [] ↔
      item ∈ items ∨ item ∈ found.getD [] := by
  induction items generalizing found with
  | nil => simp
  | cons head rest inductionHypothesis =>
      rw [List.foldl_cons, inductionHypothesis, Option.getD_some, addItem, List.mem_insert_iff,
        List.mem_cons]
      tauto

theorem nodup_foldl_addItem [DecidableEq ι] {items : List ι} {found : Option (List ι)}
    (once : (found.getD []).Nodup) :
    ((items.foldl (fun found item => some (addItem found item)) found).getD []).Nodup := by
  induction items generalizing found with
  | nil => exact once
  | cons head rest inductionHypothesis => exact inductionHypothesis once.insert

theorem of_foldl_addItem [DecidableEq ι] {items gathered : List ι}
    (found : items.foldl (fun found item => some (addItem found item)) none = some gathered) :
    gathered.Nodup ∧ ∀ item, item ∈ gathered ↔ item ∈ items := by
  have once : ((items.foldl (fun found item => some (addItem found item)) none).getD []).Nodup :=
    nodup_foldl_addItem List.nodup_nil
  rw [found, Option.getD_some] at once
  refine ⟨once, fun item => ?_⟩
  have mem : item ∈ (items.foldl (fun found item => some (addItem found item)) none).getD [] ↔ _ :=
    mem_foldl_addItem
  rw [found, Option.getD_some, Option.getD_none] at mem
  simpa using mem

/-- Sets gathered from the same items, whatever their order, have the same sizes. -/
theorem size_gather_addItem [DecidableEq ι] {items others : List (κ × ι)}
    (same : items.Perm others) (key : κ) :
    ((gather addItem items).find key).map List.length =
      ((gather addItem others).find key).map List.length := by
  have mine : ((items.filter (·.1 = key)).map (·.2)).Perm
      ((others.filter (·.1 = key)).map (·.2)) := (same.filter _).map _
  rw [find_gather, find_gather]
  generalize (items.filter (·.1 = key)).map (·.2) = first at mine ⊢
  generalize (others.filter (·.1 = key)).map (·.2) = second at mine ⊢
  cases left : first.foldl (fun found item => some (addItem found item)) none with
  | none =>
      rw [foldl_some_eq_none_iff] at left
      have right := (left ▸ mine).symm.eq_nil
      rw [right]
      rfl
  | some gathered =>
      cases right : second.foldl (fun found item => some (addItem found item)) none with
      | none =>
          rw [foldl_some_eq_none_iff] at right
          have empty := (right ▸ mine).eq_nil
          rw [empty] at left
          cases left
      | some others =>
          obtain ⟨once, inFirst⟩ := of_foldl_addItem left
          obtain ⟨othersOnce, inSecond⟩ := of_foldl_addItem right
          have bothSame : gathered.Perm others :=
            (List.perm_ext_iff_of_nodup once othersOnce).mpr fun item => by
              rw [inFirst, inSecond, mine.mem_iff]
          rw [Option.map_some, Option.map_some, bothSame.length_eq]

/-- What every addition keeps holds of every row gathered. -/
theorem gather_invariant {add : Option ρ → ι → ρ} (holds : κ → ρ → Prop) (items : List (κ × ι))
    (kept : ∀ item ∈ items, ∀ found : Option ρ, (∀ row ∈ found, holds item.1 row) →
      holds item.1 (add found item.2)) :
    ∀ entry ∈ (gather add items).entries, holds entry.1 entry.2 := by
  induction items using List.reverseRecOn with
  | nil => exact fun entry member => absurd member List.not_mem_nil
  | append_singleton items item inductionHypothesis =>
      have before := inductionHypothesis fun other member =>
        kept other (List.mem_append_left _ member)
      intro entry member
      rw [gather_append, List.foldl_cons, List.foldl_nil, mem_upsert] at member
      rcases member with rfl | ⟨-, member⟩
      · apply kept item (by simp)
        intro row found
        exact before (item.1, row) (find_eq_some_iff.mp found)
      · exact before entry member

/-- `dict.fromkeys`. -/
def fromKeys (keys : List κ) (value : ρ) : Keyed κ ρ :=
  gather (fun _ _ => value) (keys.map (·, ()))

theorem find_fromKeys (keys : List κ) (value : ρ) (key : κ) :
    (fromKeys keys value).find key = if key ∈ keys then some value else none := by
  have constant : ∀ (items : List Unit) (found : Option ρ),
      items.foldl (fun _ _ => some value) found = if items = [] then found else some value := by
    intro items
    induction items with
    | nil => exact fun _ => rfl
    | cons head rest inductionHypothesis =>
        intro found
        rw [List.foldl_cons, inductionHypothesis]
        simp
  rw [fromKeys, find_gather, constant]
  simp only [List.map_eq_nil_iff, List.filter_eq_nil_iff]
  by_cases listed : key ∈ keys
  · rw [if_pos listed, if_neg]
    intro silent
    exact silent (key, ()) (List.mem_map_of_mem listed) (by simp)
  · rw [if_neg listed, if_pos]
    intro item member same
    obtain ⟨name, named, rfl⟩ := List.mem_map.mp member
    rw [decide_eq_true_eq] at same
    exact listed (same ▸ named)

end Keyed

end Goggles
