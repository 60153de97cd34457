/-
Module: Goggles.Library.Grouping
Purpose: Items gathered by key: the groups split the items, stand in the order of their first items, and
  a stable sort keeps that order among equals.  The ends of ascending numbers are their extremes.
Trusted boundary: none
Main exports: Keyed.appendItem, Keyed.mem_gather_iff, Keyed.find_gather_appendItem,
  Keyed.pairwise_gather, Keyed.aggregate, perm_flatMap_filter, inOrder_stable
-/
import Goggles.Library.Keyed
import Goggles.Library.Replay
import Mathlib.Data.List.Perm.Basic

namespace Goggles

/-! ### A stable sort -/

section Order

variable {ε α : Type*} [LinearOrder α] {key : ε → α}

theorem pairwise_orderedInsert {before : ε → ε → Prop} {event : ε} {sorted : List ε}
    (first : ∀ other ∈ sorted, before event other)
    (ordered : sorted.Pairwise fun left right => key left < key right ∨
      key left = key right ∧ before left right) :
    (sorted.orderedInsert (fun left right => key left ≤ key right) event).Pairwise
      fun left right => key left < key right ∨ key left = key right ∧ before left right := by
  induction sorted with
  | nil => exact List.pairwise_singleton _ _
  | cons head rest inductionHypothesis =>
      obtain ⟨fromHead, restOrdered⟩ := List.pairwise_cons.mp ordered
      rw [List.orderedInsert_cons]
      split
      · next least =>
          refine List.pairwise_cons.mpr ⟨fun other member => ?_, ordered⟩
          have notLess : key event ≤ key other := by
            rcases List.mem_cons.mp member with rfl | later
            · exact least
            · rcases fromHead other later with less | ⟨same, -⟩
              · exact least.trans less.le
              · exact least.trans same.le
          rcases notLess.lt_or_eq with less | same
          · exact .inl less
          · exact .inr ⟨same, first other member⟩
      · next greater =>
          refine List.pairwise_cons.mpr ⟨fun other member => ?_, ?_⟩
          · rcases (List.mem_orderedInsert _).mp member with rfl | later
            · exact .inl (not_le.mp greater)
            · exact fromHead other later
          · exact inductionHypothesis (fun other member => first other (List.mem_cons_of_mem head member))
              restOrdered

/-- Events with equal keys keep their order. -/
theorem inOrder_stable {before : ε → ε → Prop} {events : List ε} (ordered : events.Pairwise before) :
    (inOrder key events).Pairwise fun left right =>
      key left < key right ∨ key left = key right ∧ before left right := by
  induction events with
  | nil => exact List.Pairwise.nil
  | cons event rest inductionHypothesis =>
      obtain ⟨first, restOrdered⟩ := List.pairwise_cons.mp ordered
      rw [inOrder, List.insertionSort_cons]
      apply pairwise_orderedInsert
      · exact fun other member => first other ((perm_inOrder key rest).mem_iff.mp member)
      · exact inductionHypothesis restOrdered

end Order

/-! ### Ascending numbers -/

section Ascending

variable {values : List Nat}

theorem head?_eq_min? (ascending : values.Pairwise (· ≤ ·)) : values.head? = values.min? := by
  cases values with
  | nil => rfl
  | cons first rest =>
      symm
      rw [List.head?_cons, List.min?_eq_some_iff]
      refine ⟨List.mem_cons_self, fun value member => ?_⟩
      rcases List.mem_cons.mp member with rfl | later
      · exact le_rfl
      · exact (List.pairwise_cons.mp ascending).1 value later

theorem getLast?_eq_max? (ascending : values.Pairwise (· ≤ ·)) : values.getLast? = values.max? := by
  induction values using List.reverseRecOn with
  | nil => rfl
  | append_singleton front last _ =>
      symm
      rw [List.getLast?_concat, List.max?_eq_some_iff]
      refine ⟨List.mem_append_right front (List.mem_singleton.mpr rfl), fun value member => ?_⟩
      rcases List.mem_append.mp member with before | here
      · exact (List.pairwise_append.mp ascending).2.2 value before last (List.mem_singleton.mpr rfl)
      · exact (List.mem_singleton.mp here).le

end Ascending

/-! ### Parts -/

section Parts

variable {κ ρ ι : Type*}

/-- Names taken from parts that have nothing in common are distinct. -/
theorem nodup_map_of_nodup_flatMap {items : List ι} {parts : ι → List κ} {name : ι → κ}
    (apart : (items.flatMap parts).Nodup) (named : ∀ item ∈ items, name item ∈ parts item) :
    (items.map name).Nodup := by
  induction items with
  | nil => exact List.nodup_nil
  | cons item rest inductionHypothesis =>
      rw [List.flatMap_cons, List.nodup_append] at apart
      obtain ⟨-, restApart, disjoint⟩ := apart
      rw [List.map_cons, List.nodup_cons]
      refine ⟨fun again => ?_, inductionHypothesis restApart fun other member =>
        named other (List.mem_cons_of_mem item member)⟩
      obtain ⟨other, member, same⟩ := List.mem_map.mp again
      have inRest : name item ∈ rest.flatMap parts :=
        List.mem_flatMap.mpr ⟨other, member, same ▸ named other (List.mem_cons_of_mem item member)⟩
      exact disjoint _ (named item List.mem_cons_self) _ inRest rfl

/-- Rows that make nothing of what is kept may go. -/
theorem filter_flatMap_of_foreign {rows : List ρ} {own : ρ → Bool} {parts : ρ → List ι}
    {keep : ι → Bool} (foreign : ∀ row, own row = false → (parts row).filter keep = []) :
    (rows.flatMap parts).filter keep = ((rows.filter own).flatMap parts).filter keep := by
  induction rows with
  | nil => rfl
  | cons row rest inductionHypothesis =>
      rw [List.flatMap_cons, List.filter_append, inductionHypothesis, List.filter_cons]
      cases mine : own row with
      | true => rw [if_pos rfl, List.flatMap_cons, List.filter_append]
      | false => rw [if_neg Bool.false_ne_true, foreign row mine, List.nil_append]

/-- A row is made from an item. -/
theorem exists_of_forall₂ {rows : List ρ} {items : List ι} {related : ι → ρ → Prop}
    (pairs : List.Forall₂ related items rows) {row : ρ} (member : row ∈ rows) :
    ∃ item ∈ items, related item row := by
  induction pairs with
  | nil => cases member
  | cons first later inductionHypothesis =>
      rcases List.mem_cons.mp member with rfl | inRest
      · exact ⟨_, List.mem_cons_self, first⟩
      · obtain ⟨item, isItem, isRelated⟩ := inductionHypothesis inRest
        exact ⟨item, List.mem_cons_of_mem _ isItem, isRelated⟩

/-- Rows that are rearranged one by one are rearranged as a whole. -/
theorem perm_flatMap_of_forall₂ {rows : List ρ} {items : List ι} {ofRow : ρ → List κ}
    {ofItem : ι → List κ} {related : ι → ρ → Prop} (pairs : List.Forall₂ related items rows)
    (same : ∀ item ∈ items, ∀ row, related item row → (ofRow row).Perm (ofItem item)) :
    (rows.flatMap ofRow).Perm (items.flatMap ofItem) := by
  induction pairs with
  | nil => exact .refl _
  | cons first later inductionHypothesis =>
      rw [List.flatMap_cons, List.flatMap_cons]
      refine (same _ List.mem_cons_self _ first).append (inductionHypothesis ?_)
      exact fun item member => same item (List.mem_cons_of_mem _ member)

end Parts

/-! ### Chunks -/

theorem flatten_toChunks_go {ι : Type*} (size : Nat) (items : List ι) (chunk : Array ι)
    (chunks : Array (List ι)) :
    (List.toChunks.go size items chunk chunks).flatten =
      chunks.toList.flatten ++ chunk.toList ++ items := by
  induction items generalizing chunk chunks with
  | nil => simp [List.toChunks.go]
  | cons item rest inductionHypothesis =>
      rw [List.toChunks.go]
      split
      · rw [inductionHypothesis]
        simp
      · rw [inductionHypothesis]
        simp

/-- The chunks make up the items. -/
theorem flatten_toChunks {ι : Type*} (size : Nat) (items : List ι) :
    (items.toChunks size).flatten = items := by
  cases items with
  | nil => rw [List.toChunks, List.flatten_nil]
  | cons first rest =>
      cases size with
      | zero =>
          rw [List.toChunks, List.flatten_singleton]
          exact List.cons_ne_nil first rest
      | succ size =>
          rw [List.toChunks, flatten_toChunks_go]
          · rfl
          · exact Nat.succ_ne_zero size

/-! ### Groups -/

section Groups

variable {κ ρ ι : Type*} [DecidableEq κ]

/-- Keys that cover the items split them. -/
theorem perm_flatMap_filter {key : ι → κ} {keys : List κ} (distinct : keys.Nodup) {items : List ι}
    (covered : ∀ item ∈ items, key item ∈ keys) :
    (keys.flatMap fun wanted => items.filter (key · = wanted)).Perm items := by
  induction keys generalizing items with
  | nil =>
      have empty : items = [] := List.eq_nil_iff_forall_not_mem.mpr fun item member =>
        List.not_mem_nil (covered item member)
      rw [empty]
      exact .refl _
  | cons wanted rest inductionHypothesis =>
      obtain ⟨apart, restDistinct⟩ := List.nodup_cons.mp distinct
      have later : (rest.flatMap fun other =>
            (items.filter (key · ≠ wanted)).filter (key · = other)) =
          rest.flatMap fun other => items.filter (key · = other) := by
        refine List.flatMap_congr fun other member => ?_
        rw [List.filter_filter]
        refine List.filter_congr fun item _ => ?_
        by_cases same : key item = other
        · have differs : other ≠ wanted := fun equal => apart (equal ▸ member)
          simp [same, differs]
        · simp [same]
      have others : ∀ item ∈ items.filter (key · ≠ wanted), key item ∈ rest := by
        intro item member
        obtain ⟨isItem, differs⟩ := List.mem_filter.mp member
        exact (List.mem_cons.mp (covered item isItem)).resolve_left (of_decide_eq_true differs)
      have split := inductionHypothesis restDistinct others
      rw [later] at split
      rw [List.flatMap_cons]
      refine (split.append_left _).trans ?_
      have halves := List.filter_append_perm (fun item => decide (key item = wanted)) items
      simpa using halves

/-- Keys split the items that have one of them. -/
theorem perm_flatMap_filter_mem {key : ι → κ} {keys : List κ} (distinct : keys.Nodup) {items : List ι}
    {keep : ι → Bool} (kept : ∀ item, keep item = true ↔ key item ∈ keys) :
    (keys.flatMap fun wanted => items.filter (key · = wanted)).Perm (items.filter keep) := by
  have covered : ∀ item ∈ items.filter keep, key item ∈ keys := fun item member =>
    (kept item).mp (List.mem_filter.mp member).2
  refine List.Perm.trans (.of_eq ?_) (perm_flatMap_filter distinct covered)
  refine List.flatMap_congr fun wanted member => ?_
  rw [List.filter_filter]
  refine List.filter_congr fun item _ => ?_
  by_cases same : key item = wanted
  · simp [same, (kept item).mpr (same ▸ member)]
  · simp [same]

namespace Keyed

/-- The row of a key is what its items add up to. -/
theorem mem_gather_iff {add : Option ρ → ι → ρ} {items : List (κ × ι)} {entry : κ × ρ} :
    entry ∈ (gather add items).entries ↔
      ((items.filter (·.1 = entry.1)).map (·.2)).foldl (fun found item => some (add found item))
        none = some entry.2 := by
  rw [← find_gather, find_eq_some_iff]

/-- The keys stand in the order in which they first appear. -/
theorem pairwise_gather (add : Option ρ → ι → ρ) (items : List (κ × ι)) :
    (gather add items).entries.Pairwise fun left right =>
      (items.map Prod.fst).idxOf left.1 < (items.map Prod.fst).idxOf right.1 := by
  suffices keys : ((gather add items).entries.map Prod.fst).Pairwise fun left right =>
      (items.map Prod.fst).idxOf left < (items.map Prod.fst).idxOf right by
    rw [List.pairwise_map] at keys
    exact keys
  induction items using List.reverseRecOn with
  | nil => exact List.Pairwise.nil
  | append_singleton items item inductionHypothesis =>
      have known : ∀ key ∈ (gather add items).entries.map Prod.fst,
          ((items ++ [item]).map Prod.fst).idxOf key = (items.map Prod.fst).idxOf key := by
        intro key member
        rw [List.map_append, List.idxOf_append_of_mem (mem_keys_gather.mp member)]
      have older : ((gather add items).entries.map Prod.fst).Pairwise fun left right =>
          ((items ++ [item]).map Prod.fst).idxOf left < ((items ++ [item]).map Prod.fst).idxOf right := by
        refine inductionHypothesis.imp_of_mem fun isLeft isRight less => ?_
        rw [known _ isLeft, known _ isRight]
        exact less
      rw [gather_append, List.foldl_cons, List.foldl_nil, upsert, map_fst_upsertEntries]
      split
      · exact older
      · next absent =>
          refine List.pairwise_append.mpr ⟨older, List.pairwise_singleton _ _, ?_⟩
          intro left isLeft right isRight
          rw [List.mem_singleton.mp isRight, known left isLeft, List.map_append,
            List.idxOf_append_of_notMem (mt mem_keys_gather.mpr absent)]
          exact Nat.lt_add_right _ (List.idxOf_lt_length_of_mem (mem_keys_gather.mp isLeft))

/-- `list.append` of a `defaultdict(list)`. -/
def appendItem (found : Option (List ι)) (item : ι) : List ι := found.getD [] ++ [item]

theorem foldl_appendItem (items : List ι) (found : Option (List ι)) :
    items.foldl (fun found item => some (appendItem found item)) found =
      if items = [] then found else some (found.getD [] ++ items) := by
  induction items generalizing found with
  | nil => rfl
  | cons item rest inductionHypothesis =>
      rw [List.foldl_cons, inductionHypothesis, if_neg (List.cons_ne_nil item rest)]
      split
      · next last => rw [last, appendItem]
      · rw [Option.getD_some, appendItem, List.append_assoc, List.singleton_append]

/-- A group is the items of its key, in order. -/
theorem find_gather_appendItem {items : List (κ × ι)} {key : κ} {group : List ι} :
    (gather appendItem items).find key = some group ↔
      group ≠ [] ∧ group = (items.filter (·.1 = key)).map (·.2) := by
  rw [find_gather, foldl_appendItem]
  generalize (items.filter (·.1 = key)).map (·.2) = own
  constructor
  · intro found
    split at found
    · cases found
    · next filled =>
        rw [Option.some.injEq, Option.getD_none, List.nil_append] at found
        exact ⟨found ▸ filled, found.symm⟩
  · rintro ⟨filled, same⟩
    rw [← same, if_neg filled, Option.getD_none, List.nil_append]

theorem mem_gather_appendItem {items : List (κ × ι)} {entry : κ × List ι} :
    entry ∈ (gather appendItem items).entries ↔
      entry.2 ≠ [] ∧ entry.2 = (items.filter (·.1 = entry.1)).map (·.2) := by
  rw [← find_gather_appendItem, find_eq_some_iff]

/-- What is found under a key that may be absent. -/
theorem getD_find_gather_appendItem (items : List (κ × ι)) (key : κ) :
    ((gather appendItem items).find key).getD [] = (items.filter (·.1 = key)).map (·.2) := by
  rw [find_gather, foldl_appendItem]
  split
  · next silent => rw [silent, Option.getD_none]
  · rw [Option.getD_some, Option.getD_none, List.nil_append]

/-- A value of each group: a query that groups rows by a column. -/
def aggregate {σ : Type*} (value : List ι → σ) (items : List (κ × ι)) : Keyed κ σ where
  entries := (gather appendItem items).entries.map fun entry => (entry.1, value entry.2)
  unique := by
    rw [List.map_map]
    exact (gather appendItem items).unique

theorem find_aggregate {σ : Type*} (value : List ι → σ) (items : List (κ × ι)) (key : κ) :
    (aggregate value items).find key =
      if (items.filter (·.1 = key)).map (·.2) = [] then none
      else some (value ((items.filter (·.1 = key)).map (·.2))) := by
  have mapped : (aggregate value items).find key =
      ((gather appendItem items).find key).map value := by
    ext found
    rw [find_eq_some_iff, Option.map_eq_some_iff]
    simp only [aggregate, List.mem_map, find_eq_some_iff, Prod.mk.injEq]
    constructor
    · rintro ⟨⟨name, group⟩, member, rfl, rfl⟩
      exact ⟨group, member, rfl⟩
    · rintro ⟨group, member, rfl⟩
      exact ⟨(key, group), member, rfl, rfl⟩
  rw [mapped, find_gather, foldl_appendItem]
  split
  · rfl
  · rfl

/-- `dict.setdefault`. -/
def setDefault (found : Option ι) (item : ι) : ι := found.getD item

theorem foldl_setDefault (items : List ι) (found : Option ι) :
    items.foldl (fun found item => some (setDefault found item)) found = found.or items.head? := by
  induction items generalizing found with
  | nil => rw [List.foldl_nil, List.head?_nil, Option.or_none]
  | cons item rest inductionHypothesis =>
      rw [List.foldl_cons, inductionHypothesis, List.head?_cons]
      cases found <;> rfl

/-- The first item of a key stays. -/
theorem find_gather_setDefault (items : List (κ × ι)) (key : κ) :
    (gather setDefault items).find key = ((items.filter (·.1 = key)).map (·.2)).head? := by
  rw [find_gather, foldl_setDefault, Option.none_or]

/-- The groups split the items. -/
theorem perm_gather_appendItem (items : List (κ × ι)) :
    ((gather appendItem items).entries.flatMap (·.2)).Perm (items.map (·.2)) := by
  have rows : (gather appendItem items).entries.flatMap (·.2) =
      (((gather appendItem items).entries.map Prod.fst).flatMap fun key =>
        items.filter (·.1 = key)).map (·.2) := by
    rw [List.map_flatMap, List.flatMap_map]
    exact List.flatMap_congr fun entry member => (mem_gather_appendItem.mp member).2
  rw [rows]
  refine (perm_flatMap_filter (gather appendItem items).unique fun item member => ?_).map _
  exact mem_keys_gather.mpr (List.mem_map_of_mem member)

end Keyed

end Groups

end Goggles
