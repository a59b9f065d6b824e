import Mathlib.Data.List.Dedup

/-! # Joined and grouped rows

`LEFT JOIN`, `GROUP BY` and `ARRAY_AGG(DISTINCT _)` over lists of rows, and the
dictionary of lists that a loop over a result fills. A group is what its key selects,
and a bucket is what its key selects of the rows put in.
-/

namespace Relational

variable {α β κ ν : Type*}

/-! ## Joins -/

/-- `left LEFT JOIN right ON on`: a row without partners is kept once. -/
def leftJoin (on : α → β → Bool) (left : List α) (right : List β) : List (α × Option β) :=
  left.flatMap fun a =>
    match right.filter (on a) with
    | [] => [(a, none)]
    | partner :: partners => (partner :: partners).map fun b => (a, some b)

section Join

variable {on : α → β → Bool} {left : List α} {right : List β} {a : α} {b : β}

theorem mem_leftJoin_some :
    (a, some b) ∈ leftJoin on left right ↔ a ∈ left ∧ b ∈ right ∧ on a b = true := by
  have hpartners : ∀ first : α,
      (a, some b) ∈ (match right.filter (on first) with
        | [] => [(first, none)]
        | partner :: partners => (partner :: partners).map fun b => (first, some b)) ↔
      a = first ∧ b ∈ right.filter (on first) := by
    intro first
    split
    next hnone => simp [hnone]
    next partner partners hsome =>
      rw [hsome, List.mem_map]
      constructor
      · rintro ⟨other, hmem, heq⟩
        obtain ⟨rfl, hpartner⟩ := Prod.mk.inj heq
        exact ⟨rfl, Option.some.inj hpartner ▸ hmem⟩
      · rintro ⟨rfl, hmem⟩
        exact ⟨b, hmem, rfl⟩
  simp only [leftJoin, List.mem_flatMap, hpartners, List.mem_filter]
  constructor
  · rintro ⟨first, hfirst, rfl, hmem, hon⟩
    exact ⟨hfirst, hmem, hon⟩
  · rintro ⟨hleft, hmem, hon⟩
    exact ⟨a, hleft, rfl, hmem, hon⟩

/-- The rows on the left are all kept, and no others. -/
theorem exists_mem_leftJoin : (∃ partner, (a, partner) ∈ leftJoin on left right) ↔ a ∈ left := by
  constructor
  · rintro ⟨partner, hmem⟩
    obtain ⟨first, hfirst, hjoined⟩ := List.mem_flatMap.mp hmem
    split at hjoined
    next =>
      obtain ⟨rfl, -⟩ := Prod.mk.inj (List.mem_singleton.mp hjoined)
      exact hfirst
    next =>
      obtain ⟨other, -, heq⟩ := List.mem_map.mp hjoined
      exact (Prod.mk.inj heq).1 ▸ hfirst
  · intro hleft
    cases hpartners : right.filter (on a) with
    | nil => exact ⟨none, List.mem_flatMap.mpr ⟨a, hleft, by simp [hpartners]⟩⟩
    | cons partner partners =>
        exact ⟨some partner, List.mem_flatMap.mpr ⟨a, hleft, by simp [hpartners]⟩⟩

end Join

/-! ## Groups -/

variable [DecidableEq κ] [DecidableEq ν]

/-- `GROUP BY key`. -/
def groupBy (key : α → κ) (rows : List α) : List (κ × List α) :=
  (rows.map key).dedup.map fun k => (k, rows.filter fun row => key row = k)

/-- `ARRAY_AGG(DISTINCT column) FILTER (WHERE _)`, where a row that the filter keeps has a
value: `NULL` when it keeps no row. SQL sorts the values; here they stand in the order of the
rows, for a reader that asks only which values there are. -/
def arrayAggDistinct (value : α → Option ν) (group : List α) : Option (List ν) :=
  match (group.filterMap value).dedup with
  | [] => none
  | first :: rest => some (first :: rest)

theorem keys_groupBy (key : α → κ) (rows : List α) :
    (groupBy key rows).map Prod.fst = (rows.map key).dedup := by
  simp [groupBy, Function.comp_def]

theorem mem_groupBy {key : α → κ} {rows : List α} {k : κ} {group : List α} :
    (k, group) ∈ groupBy key rows ↔
      k ∈ rows.map key ∧ group = rows.filter fun row => key row = k := by
  simp only [groupBy, List.mem_map, List.mem_dedup, Prod.mk.injEq]
  constructor
  · rintro ⟨k, hrow, rfl, rfl⟩
    exact ⟨hrow, rfl⟩
  · rintro ⟨hrow, rfl⟩
    exact ⟨k, hrow, rfl, rfl⟩

/-- `COALESCE(ARRAY_AGG(DISTINCT _), ARRAY[])`. -/
theorem coalesce_arrayAggDistinct (value : α → Option ν) (group : List α) :
    (arrayAggDistinct value group).getD [] = (group.filterMap value).dedup := by
  unfold arrayAggDistinct
  split
  next hnil => rw [hnil]; rfl
  next hcons => rw [hcons]; rfl

/-! ## Buckets -/

/-- `buckets.get(k, ())`. -/
def bucketOf (buckets : List (κ × List α)) (k : κ) : List α := (buckets.lookup k).getD []

/-- `buckets.setdefault(k, []).append(a)`. -/
def addToBucket (buckets : List (κ × List α)) (k : κ) (a : α) : List (κ × List α) :=
  match buckets with
  | [] => [(k, [a])]
  | (key, bucket) :: rest =>
      if key = k then (key, bucket ++ [a]) :: rest else (key, bucket) :: addToBucket rest k a

theorem bucketOf_cons (key k : κ) (bucket : List α) (rest : List (κ × List α)) :
    bucketOf ((key, bucket) :: rest) k = if k = key then bucket else bucketOf rest k := by
  by_cases heq : k = key
  · simp [bucketOf, heq]
  · simp [bucketOf, List.lookup_cons, heq, beq_false_of_ne heq]

theorem bucketOf_addToBucket (buckets : List (κ × List α)) (k key : κ) (a : α) :
    bucketOf (addToBucket buckets k a) key =
      if key = k then bucketOf buckets key ++ [a] else bucketOf buckets key := by
  induction buckets with
  | nil => exact bucketOf_cons k key [a] []
  | cons head rest ih =>
      obtain ⟨first, bucket⟩ := head
      simp only [addToBucket]
      split
      next hfirst =>
        subst hfirst
        simp only [bucketOf_cons]
        split <;> rfl
      next hfirst =>
        simp only [bucketOf_cons, ih]
        by_cases hkey : key = first
        · simp [hkey, hfirst]
        · simp [hkey]

/-- One row put into the buckets of all its keys. -/
theorem bucketOf_foldl_addToBucket {keys : List κ} (hnodup : keys.Nodup)
    (buckets : List (κ × List α)) (key : κ) (a : α) :
    bucketOf (keys.foldl (addToBucket · · a) buckets) key =
      bucketOf buckets key ++ if key ∈ keys then [a] else [] := by
  induction keys generalizing buckets with
  | nil => simp
  | cons k rest ih =>
      obtain ⟨hfresh, hrest⟩ := List.nodup_cons.mp hnodup
      rw [List.foldl_cons, ih hrest, bucketOf_addToBucket]
      by_cases heq : key = k
      · subst heq
        simp [hfresh]
      · simp [heq]

end Relational
