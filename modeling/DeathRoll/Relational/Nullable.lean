import Mathlib.Data.List.Basic

/-! # Nullable values and the truth of SQL conditions

A nullable value is an `Option`, with `none` for `NULL`. A condition guards a
branch only when it is true; a comparison with `NULL` is neither true nor
false, so the predicates below say "the comparison is true" and fail on `NULL`.
Conjunction and disjunction of conditions are then the ordinary ones, and
negation is never applied to them.
-/

namespace Relational

variable {α : Type*}

/-- `a = b` is true. -/
def IsEq (a b : Option α) : Prop := ∃ x, a = some x ∧ b = some x

/-- `a <> b` is true. -/
def IsNe (a b : Option α) : Prop := ∃ x y, a = some x ∧ b = some y ∧ x ≠ y

/-- `a < b` is true. -/
def IsLt [LT α] (a b : Option α) : Prop := ∃ x y, a = some x ∧ b = some y ∧ x < y

/-- `a IN (...)` is true. -/
def IsIn (a : Option α) (values : List α) : Prop := ∃ x, a = some x ∧ x ∈ values

/-- `a NOT IN (...)` is true, for a list of values without `NULL`. -/
def IsNotIn (a : Option α) (values : List α) : Prop := ∃ x, a = some x ∧ x ∉ values

@[simp] theorem isEq_some {x y : α} : IsEq (some x) (some y) ↔ x = y := by
  simp [IsEq, eq_comm]

@[simp] theorem isEq_none_left (b : Option α) : ¬ IsEq none b := by simp [IsEq]

@[simp] theorem isEq_none_right (a : Option α) : ¬ IsEq a none := by simp [IsEq]

@[simp] theorem isNe_some {x y : α} : IsNe (some x) (some y) ↔ x ≠ y := by simp [IsNe]

@[simp] theorem isNe_none_left (b : Option α) : ¬ IsNe none b := by simp [IsNe]

@[simp] theorem isNe_none_right (a : Option α) : ¬ IsNe a none := by simp [IsNe]

@[simp] theorem isLt_some [LT α] {x y : α} : IsLt (some x) (some y) ↔ x < y := by simp [IsLt]

@[simp] theorem isLt_none_left [LT α] (b : Option α) : ¬ IsLt none b := by simp [IsLt]

@[simp] theorem isLt_none_right [LT α] (a : Option α) : ¬ IsLt a none := by simp [IsLt]

@[simp] theorem isIn_some {x : α} {values : List α} : IsIn (some x) values ↔ x ∈ values := by
  simp [IsIn]

@[simp] theorem isIn_none (values : List α) : ¬ IsIn none values := by simp [IsIn]

@[simp] theorem isNotIn_some {x : α} {values : List α} :
    IsNotIn (some x) values ↔ x ∉ values := by simp [IsNotIn]

@[simp] theorem isNotIn_none (values : List α) : ¬ IsNotIn none values := by simp [IsNotIn]

instance [DecidableEq α] : (a b : Option α) → Decidable (IsEq a b)
  | some x, some y => decidable_of_iff (x = y) isEq_some.symm
  | none, b => .isFalse (isEq_none_left b)
  | some x, none => .isFalse (isEq_none_right (some x))

instance [DecidableEq α] : (a b : Option α) → Decidable (IsNe a b)
  | some x, some y => decidable_of_iff (x ≠ y) isNe_some.symm
  | none, b => .isFalse (isNe_none_left b)
  | some x, none => .isFalse (isNe_none_right (some x))

instance [LT α] [DecidableLT α] : (a b : Option α) → Decidable (IsLt a b)
  | some x, some y => decidable_of_iff (x < y) isLt_some.symm
  | none, b => .isFalse (isLt_none_left b)
  | some x, none => .isFalse (isLt_none_right (some x))

instance [DecidableEq α] (values : List α) : (a : Option α) → Decidable (IsIn a values)
  | some x => decidable_of_iff (x ∈ values) isIn_some.symm
  | none => .isFalse (isIn_none values)

instance [DecidableEq α] (values : List α) : (a : Option α) → Decidable (IsNotIn a values)
  | some x => decidable_of_iff (x ∉ values) isNotIn_some.symm
  | none => .isFalse (isNotIn_none values)

/-- A value that is not known to differ from `b` is `b` once it is present. -/
theorem eq_of_not_isNe {a : Option α} {b : α} (hne : ¬ IsNe a (some b)) {x : α}
    (hx : a = some x) : x = b := by
  subst hx
  simpa using hne

end Relational
