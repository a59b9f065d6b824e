import Mathlib.Algebra.BigOperators.Group.Finset.Basic
import Mathlib.Algebra.Group.Finsupp
import Mathlib.Algebra.Order.BigOperators.Group.List
import Mathlib.Data.Finset.Dedup
import Mathlib.Tactic.Abel

/-! # Tables with a primary key

A table lists its rows in insertion order under pairwise distinct keys. Rows
are replaced or added, never deleted. Every fact about a column sum follows
from one lemma: a sum is determined by the key lookup, so changing what one key
looks up changes the sum by the difference of the two rows.
-/

namespace Relational

/-- Rows under pairwise distinct keys, in insertion order. -/
structure Table (κ ρ : Type*) where
  rows : List (κ × ρ)
  nodup_keys : (rows.map Prod.fst).Nodup

namespace Table

variable {κ ρ M : Type*}

def empty : Table κ ρ := ⟨[], List.nodup_nil⟩

def keys (t : Table κ ρ) : List κ := t.rows.map Prod.fst

/-- The sum of a column expression over all rows. -/
def sum [AddCommMonoid M] (t : Table κ ρ) (f : κ → ρ → M) : M :=
  (t.rows.map fun row => f row.1 row.2).sum

variable [DecidableEq κ]

/-- The row with primary key `k`. -/
def get? (t : Table κ ρ) (k : κ) : Option ρ := t.rows.lookup k

/-- The row selected by `WHERE key = k`; no row when `k` is `NULL`. -/
def select (t : Table κ ρ) (k : Option κ) : Option ρ := k.bind t.get?

/-- Replace the row under `k`, if there is one. -/
def set (t : Table κ ρ) (k : κ) (r : ρ) : Table κ ρ where
  rows := t.rows.map fun row => if row.1 = k then (row.1, r) else row
  nodup_keys := by
    have hkeys : (t.rows.map fun row => if row.1 = k then (row.1, r) else row).map Prod.fst =
        t.rows.map Prod.fst := by
      rw [List.map_map]
      refine List.map_congr_left fun row _ => ?_
      simp only [Function.comp_apply]
      split <;> rfl
    rw [hkeys]
    exact t.nodup_keys

/-- Add a row under a fresh key; an occupied key keeps its row. -/
def insertNew (t : Table κ ρ) (k : κ) (r : ρ) : Table κ ρ :=
  if hk : k ∈ t.rows.map Prod.fst then t
  else ⟨t.rows ++ [(k, r)], by
    rw [List.map_append, List.nodup_append]
    refine ⟨t.nodup_keys, by simp, ?_⟩
    rintro a ha b hb rfl
    simp only [List.map_cons, List.map_nil, List.mem_singleton] at hb
    exact hk (hb ▸ ha)⟩

/-- The rows of a list, the first row of a key winning. -/
def ofList (rows : List (κ × ρ)) : Table κ ρ :=
  rows.foldl (fun t row => t.insertNew row.1 row.2) empty

/-- The key of the first row that satisfies `p`. -/
def find? (t : Table κ ρ) (p : κ → ρ → Bool) : Option κ :=
  (t.rows.find? fun row => p row.1 row.2).map Prod.fst

/-- Some row satisfies `p`. -/
def any (t : Table κ ρ) (p : κ → ρ → Bool) : Bool := t.rows.any fun row => p row.1 row.2

omit [DecidableEq κ] in
theorem ext_rows {t u : Table κ ρ} (hrows : t.rows = u.rows) : t = u := by
  cases t
  cases u
  cases hrows
  rfl

/-! ## Lookup -/

@[simp] theorem get?_empty (k : κ) : (empty : Table κ ρ).get? k = none := rfl

@[simp] theorem select_some (t : Table κ ρ) (k : κ) : t.select (some k) = t.get? k := rfl

@[simp] theorem select_none (t : Table κ ρ) : t.select none = none := rfl

theorem select_eq_some {t : Table κ ρ} {k : Option κ} {r : ρ} :
    t.select k = some r ↔ ∃ key, k = some key ∧ t.get? key = some r := by
  cases k <;> simp

private theorem lookup_eq_some_iff {rows : List (κ × ρ)} (hnodup : (rows.map Prod.fst).Nodup)
    {k : κ} {r : ρ} : rows.lookup k = some r ↔ (k, r) ∈ rows := by
  induction rows with
  | nil => simp
  | cons row rest ih =>
      obtain ⟨key, value⟩ := row
      obtain ⟨hfresh, hrest⟩ := List.nodup_cons.mp hnodup
      by_cases heq : k = key
      · subst heq
        have hnot : (k, r) ∉ rest := fun hmem =>
          hfresh (List.mem_map.mpr ⟨(k, r), hmem, rfl⟩)
        simp [hnot, eq_comm]
      · have hbeq : (k == key) = false := beq_false_of_ne heq
        simp [List.lookup_cons, hbeq, ih hrest, heq]

theorem get?_eq_some {t : Table κ ρ} {k : κ} {r : ρ} : t.get? k = some r ↔ (k, r) ∈ t.rows :=
  lookup_eq_some_iff t.nodup_keys

theorem get?_eq_none {t : Table κ ρ} {k : κ} : t.get? k = none ↔ k ∉ t.keys := by
  rw [Option.eq_none_iff_forall_ne_some]
  simp only [ne_eq, get?_eq_some, keys, List.mem_map, not_exists, not_and]
  constructor
  · rintro hnone ⟨key, r⟩ hmem rfl
    exact hnone r hmem
  · intro hnone r hmem
    exact hnone (k, r) hmem rfl

theorem any_eq_true {t : Table κ ρ} {p : κ → ρ → Bool} :
    t.any p = true ↔ ∃ k r, t.get? k = some r ∧ p k r = true := by
  simp only [any, List.any_eq_true, Prod.exists, get?_eq_some]

theorem get?_set (t : Table κ ρ) (k key : κ) (r : ρ) :
    (t.set k r).get? key = if key = k then (t.get? k).map fun _ => r else t.get? key := by
  obtain ⟨rows, hnodup⟩ := t
  simp only [get?, set]
  clear hnodup
  induction rows with
  | nil => simp
  | cons row rest ih =>
      obtain ⟨head, value⟩ := row
      by_cases hhead : head = k
      · subst hhead
        by_cases hkey : key = head
        · simp [hkey]
        · have hbeq : (key == head) = false := beq_false_of_ne hkey
          simp only [List.map_cons, if_true, List.lookup_cons, hbeq, ih, if_neg hkey]
      · by_cases hkey : key = head
        · subst hkey
          simp [hhead]
        · have hbeq : (key == head) = false := beq_false_of_ne hkey
          have hkhead : (k == head) = false := beq_false_of_ne (Ne.symm hhead)
          simp only [List.map_cons, if_neg hhead, List.lookup_cons, hbeq, hkhead, ih]

theorem get?_set_self {t : Table κ ρ} {k : κ} {old : ρ} (hold : t.get? k = some old) (r : ρ) :
    (t.set k r).get? k = some r := by
  simp [get?_set, hold]

theorem get?_set_of_ne (t : Table κ ρ) {k key : κ} (hne : key ≠ k) (r : ρ) :
    (t.set k r).get? key = t.get? key := by
  simp [get?_set, hne]

theorem get?_insertNew (t : Table κ ρ) (k key : κ) (r : ρ) :
    (t.insertNew k r).get? key =
      if key = k then some ((t.get? k).getD r) else t.get? key := by
  unfold insertNew
  split
  next hmem =>
    obtain ⟨⟨_, old⟩, hold, rfl⟩ := List.mem_map.mp hmem
    have hget := get?_eq_some.mpr hold
    split
    next heq => simp [heq, hget]
    next => rfl
  next hmem =>
    have hnone : t.get? k = none := get?_eq_none.mpr hmem
    have happ : ((t.rows ++ [(k, r)]).lookup key) = (t.rows.lookup key).or ([(k, r)].lookup key) :=
      List.lookup_append
    simp only [get?] at hnone ⊢
    rw [happ]
    split
    next heq => simp [heq, hnone]
    next hne =>
      have hbeq : (key == k) = false := beq_false_of_ne hne
      simp [List.lookup_cons, hbeq]

theorem get?_insertNew_self (t : Table κ ρ) (k : κ) (r : ρ) :
    (t.insertNew k r).get? k = some ((t.get? k).getD r) := by
  simp [get?_insertNew]

theorem get?_insertNew_of_ne (t : Table κ ρ) {k key : κ} (hne : key ≠ k) (r : ρ) :
    (t.insertNew k r).get? key = t.get? key := by
  simp [get?_insertNew, hne]

/-- Adding a row never changes a row that is already there. -/
theorem get?_insertNew_of_some {t : Table κ ρ} {key : κ} {old : ρ} (hold : t.get? key = some old)
    (k : κ) (r : ρ) : (t.insertNew k r).get? key = some old := by
  rw [get?_insertNew]
  split
  next heq => subst heq; simp [hold]
  next => exact hold

section Update

variable (p : κ × ρ → Prop) [DecidablePred p] (f : κ × ρ → ρ)

/-- One row of an `UPDATE`. -/
private def updateRow (t : Table κ ρ) (row : κ × ρ) : Table κ ρ :=
  if p row then t.set row.1 (f row) else t

variable {p f}

private theorem get?_updateRow_of_ne (t : Table κ ρ) {row : κ × ρ} {k : κ} (hne : k ≠ row.1) :
    (updateRow p f t row).get? k = t.get? k := by
  unfold updateRow
  split
  next => exact get?_set_of_ne _ hne _
  next => rfl

private theorem get?_updateRows_of_notMem {rows : List (κ × ρ)} (t : Table κ ρ) {k : κ}
    (hk : k ∉ rows.map Prod.fst) : (rows.foldl (updateRow p f) t).get? k = t.get? k := by
  induction rows generalizing t with
  | nil => rfl
  | cons row rest ih =>
      rw [List.map_cons, List.mem_cons, not_or] at hk
      rw [List.foldl_cons, ih _ hk.2, get?_updateRow_of_ne t hk.1]

private theorem get?_updateRows_of_mem {rows : List (κ × ρ)} (hnodup : (rows.map Prod.fst).Nodup)
    (t : Table κ ρ) {k : κ} {r : ρ} (hmem : (k, r) ∈ rows) (hr : t.get? k = some r) :
    (rows.foldl (updateRow p f) t).get? k = some (if p (k, r) then f (k, r) else r) := by
  induction rows generalizing t with
  | nil => cases hmem
  | cons row rest ih =>
      obtain ⟨hfresh, hrest⟩ := List.nodup_cons.mp hnodup
      rw [List.foldl_cons]
      rcases List.mem_cons.mp hmem with rfl | hmem
      · rw [get?_updateRows_of_notMem _ hfresh, updateRow]
        split
        next => exact get?_set_self hr _
        next => exact hr
      · have hne : k ≠ row.1 := fun heq => hfresh (heq ▸ List.mem_map_of_mem (f := Prod.fst) hmem)
        exact ih hrest _ hmem ((get?_updateRow_of_ne t hne).trans hr)

/-- `UPDATE ... SET ... WHERE p`, row by row. -/
theorem get?_foldl_set (p : κ × ρ → Prop) [DecidablePred p] (f : κ × ρ → ρ) (t : Table κ ρ)
    (k : κ) :
    (t.rows.foldl (fun u row => if p row then u.set row.1 (f row) else u) t).get? k =
      (t.get? k).map fun r => if p (k, r) then f (k, r) else r := by
  cases hr : t.get? k with
  | none => exact (get?_updateRows_of_notMem t (get?_eq_none.mp hr)).trans hr
  | some r => exact get?_updateRows_of_mem t.nodup_keys t (get?_eq_some.mp hr) hr

end Update

/-! ## Column sums -/

section Sums

variable [AddCommMonoid M]

/-- What the row under `k`, if any, contributes to a column sum. -/
def term (t : Table κ ρ) (f : κ → ρ → M) (k : κ) : M := (t.get? k).elim 0 (f k)

theorem term_of_get? {t : Table κ ρ} {k : κ} {r : ρ} (hget : t.get? k = some r)
    (f : κ → ρ → M) : t.term f k = f k r := by
  simp [term, hget]

theorem term_of_none {t : Table κ ρ} {k : κ} (hget : t.get? k = none) (f : κ → ρ → M) :
    t.term f k = 0 := by
  simp [term, hget]

/-- A column sum depends on the lookup alone: any finite set that holds the
keys indexes it. -/
theorem sum_eq_finset_sum (t : Table κ ρ) (f : κ → ρ → M) (support : Finset κ)
    (hsupport : ∀ k ∈ t.keys, k ∈ support) : t.sum f = ∑ k ∈ support, t.term f k := by
  have hkeys : ∑ k ∈ t.keys.toFinset, t.term f k = ∑ k ∈ support, t.term f k := by
    refine Finset.sum_subset (fun k hk => hsupport k (List.mem_toFinset.mp hk)) ?_
    intro k _ hnot
    exact term_of_none (get?_eq_none.mpr fun hmem => hnot (List.mem_toFinset.mpr hmem)) f
  have hnodup : t.keys.Nodup := t.nodup_keys
  rw [← hkeys, List.sum_toFinset _ hnodup, sum, keys, List.map_map]
  refine congrArg List.sum (List.map_congr_left fun row hrow => ?_)
  exact (term_of_get? (get?_eq_some.mpr hrow) f).symm

/-- Tables that look up the same rows have the same column sums. -/
theorem sum_congr {t u : Table κ ρ} {f g : κ → ρ → M}
    (hterm : ∀ k, t.term f k = u.term g k) : t.sum f = u.sum g := by
  let support := t.keys.toFinset ∪ u.keys.toFinset
  rw [t.sum_eq_finset_sum f support (by simp +contextual [support]),
    u.sum_eq_finset_sum g support (by simp +contextual [support])]
  exact Finset.sum_congr rfl fun k _ => hterm k

/-- Two pairs of column sums agree if they do so key by key. -/
theorem sum_add_sum_congr {t u v w : Table κ ρ} {f g h i : κ → ρ → M}
    (hterm : ∀ k, t.term f k + u.term g k = v.term h k + w.term i k) :
    t.sum f + u.sum g = v.sum h + w.sum i := by
  let support := t.keys.toFinset ∪ u.keys.toFinset ∪ v.keys.toFinset ∪ w.keys.toFinset
  rw [t.sum_eq_finset_sum f support (by simp +contextual [support]),
    u.sum_eq_finset_sum g support (by simp +contextual [support]),
    v.sum_eq_finset_sum h support (by simp +contextual [support]),
    w.sum_eq_finset_sum i support (by simp +contextual [support]),
    ← Finset.sum_add_distrib, ← Finset.sum_add_distrib]
  exact Finset.sum_congr rfl fun k _ => hterm k

/-- Two column sums make a third if they do so key by key. -/
theorem sum_add_sum {t u v : Table κ ρ} {f g h : κ → ρ → M}
    (hterm : ∀ k, t.term f k + u.term g k = v.term h k) : t.sum f + u.sum g = v.sum h := by
  have hzero : v.sum (fun _ _ => (0 : M)) = 0 := List.sum_eq_zero (by simp)
  rw [← add_zero (v.sum h), ← hzero]
  refine sum_add_sum_congr fun k => ?_
  rw [hterm k]
  cases hget : v.get? k with
  | none => rw [term_of_none hget, term_of_none hget, add_zero]
  | some r => rw [term_of_get? hget, term_of_get? hget, add_zero]

omit [DecidableEq κ] in
theorem sum_add (t : Table κ ρ) (f g : κ → ρ → M) :
    (t.sum fun k r => f k r + g k r) = t.sum f + t.sum g :=
  List.sum_map_add

/-- Two tables that differ at one key differ in a column sum by that key's rows. -/
theorem sum_change {t u : Table κ ρ} (f : κ → ρ → M) (k : κ)
    (hrest : ∀ key, key ≠ k → u.get? key = t.get? key) :
    u.sum f + t.term f k = t.sum f + u.term f k := by
  let support := insert k (t.keys.toFinset ∪ u.keys.toFinset)
  have hother : ∑ key ∈ support.erase k, u.term f key = ∑ key ∈ support.erase k, t.term f key := by
    refine Finset.sum_congr rfl fun key hkey => ?_
    rw [term, term, hrest key (Finset.ne_of_mem_erase hkey)]
  have hk : k ∈ support := Finset.mem_insert_self _ _
  rw [t.sum_eq_finset_sum f support (by simp +contextual [support]),
    u.sum_eq_finset_sum f support (by simp +contextual [support]),
    ← Finset.add_sum_erase support _ hk, ← Finset.add_sum_erase support _ hk, hother]
  abel

/-- A column sum to which only the row under `k` contributes. -/
theorem sum_eq_term (t : Table κ ρ) (f : κ → ρ → M) (k : κ)
    (hzero : ∀ key r, t.get? key = some r → key ≠ k → f key r = 0) : t.sum f = t.term f k := by
  let support := insert k t.keys.toFinset
  rw [t.sum_eq_finset_sum f support (by simp +contextual [support]),
    Finset.sum_eq_single k]
  · intro key _ hne
    cases hget : t.get? key with
    | none => exact term_of_none hget f
    | some r => rw [term_of_get? hget, hzero key r hget hne]
  · exact fun hnot => absurd (Finset.mem_insert_self k _) hnot

/-- A column sum to which no row contributes. -/
theorem sum_eq_zero {t : Table κ ρ} {f : κ → ρ → M}
    (hzero : ∀ k r, t.get? k = some r → f k r = 0) : t.sum f = 0 := by
  apply List.sum_eq_zero
  intro value hvalue
  obtain ⟨⟨k, r⟩, hrow, rfl⟩ := List.mem_map.mp hvalue
  exact hzero k r (get?_eq_some.mpr hrow)

omit [DecidableEq κ] in
theorem map_sum {N : Type*} [AddCommMonoid N] (hom : M →+ N) (t : Table κ ρ) (f : κ → ρ → M) :
    hom (t.sum f) = t.sum fun k r => hom (f k r) := by
  rw [sum, sum, map_list_sum, List.map_map]
  rfl

omit [DecidableEq κ] in
/-- A sum of finitely supported functions is taken pointwise. -/
theorem sum_apply {ι : Type*} (t : Table κ ρ) (f : κ → ρ → ι →₀ M) (i : ι) :
    t.sum f i = t.sum fun k r => f k r i := by
  simp only [sum]
  induction t.rows with
  | nil => rfl
  | cons row rest ih =>
      rw [List.map_cons, List.sum_cons, Finsupp.add_apply, ih, List.map_cons, List.sum_cons]

theorem sum_set {t : Table κ ρ} {k : κ} {old : ρ} (hold : t.get? k = some old) (r : ρ)
    (f : κ → ρ → M) : (t.set k r).sum f + f k old = t.sum f + f k r := by
  have hchange := sum_change f k fun key hne => t.get?_set_of_ne hne r
  rwa [term_of_get? hold, term_of_get? (get?_set_self hold r)] at hchange

/-- Replacing a row moves a column sum by what the row's own value moves. -/
theorem sum_set_add [IsRightCancelAdd M] {t : Table κ ρ} {k : κ} {old r : ρ} {f : κ → ρ → M} {d : M}
    (hold : t.get? k = some old) (hd : f k r = f k old + d) : (t.set k r).sum f = t.sum f + d := by
  have hset := sum_set hold r f
  rw [hd, ← add_assoc, add_right_comm] at hset
  exact add_right_cancel hset

theorem sum_insertNew_of_none {t : Table κ ρ} {k : κ} (hnone : t.get? k = none) (r : ρ)
    (f : κ → ρ → M) : (t.insertNew k r).sum f = t.sum f + f k r := by
  have hchange := sum_change f k fun key hne => t.get?_insertNew_of_ne hne r
  have hnew : (t.insertNew k r).get? k = some r := by simp [get?_insertNew, hnone]
  rwa [term_of_none hnone, term_of_get? hnew, add_zero] at hchange

/-- A new row that contributes nothing leaves the sum alone, present or not. -/
theorem sum_insertNew_of_zero (t : Table κ ρ) (k : κ) (r : ρ) (f : κ → ρ → M)
    (hzero : f k r = 0) : (t.insertNew k r).sum f = t.sum f := by
  cases hget : t.get? k with
  | none => rw [sum_insertNew_of_none hget, hzero, add_zero]
  | some old =>
      refine sum_congr fun key => ?_
      rw [term, term, get?_insertNew]
      split
      next heq => simp [heq, hget]
      next => rfl

section Ordered

variable [PartialOrder M] [IsOrderedAddMonoid M] {t : Table κ ρ} {f : κ → ρ → M}

theorem sum_nonneg (hnonneg : ∀ k r, t.get? k = some r → 0 ≤ f k r) : 0 ≤ t.sum f := by
  apply List.sum_nonneg
  intro value hvalue
  obtain ⟨⟨k, r⟩, hrow, rfl⟩ := List.mem_map.mp hvalue
  exact hnonneg k r (get?_eq_some.mpr hrow)

/-- A row of a column without negative values is at most the column's sum. -/
theorem le_sum_of_get? (hnonneg : ∀ k r, t.get? k = some r → 0 ≤ f k r) {k : κ} {r : ρ}
    (hget : t.get? k = some r) : f k r ≤ t.sum f := by
  have hall : ∀ value ∈ t.rows.map fun row => f row.1 row.2, 0 ≤ value := by
    intro value hvalue
    obtain ⟨⟨key, row⟩, hrow, rfl⟩ := List.mem_map.mp hvalue
    exact hnonneg key row (get?_eq_some.mpr hrow)
  exact List.single_le_sum hall _ (List.mem_map.mpr ⟨(k, r), get?_eq_some.mp hget, rfl⟩)

end Ordered

end Sums

end Table

end Relational
