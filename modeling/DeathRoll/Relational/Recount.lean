import Mathlib.Algebra.BigOperators.Group.Finset.Piecewise

/-! # Totals over rows

A total that is kept next to the rows it sums up: it is right when it is the sum of
what each row contributes, under any finite set of keys that misses no row. One
written row moves the right total by the change of its own share.
-/

namespace Relational

variable {κ ρ M : Type*}

/-- No row is outside of `keys`. -/
def Covers (keys : Finset κ) (rows : κ → Option ρ) : Prop := ∀ k, rows k ≠ none → k ∈ keys

variable [AddCommGroup M] {share : κ → Option ρ → M} {rows : κ → Option ρ} {total : M}

/-- The total is what the shares of all rows add up to. -/
def SumsTo (share : κ → Option ρ → M) (rows : κ → Option ρ) (total : M) : Prop :=
  ∀ keys, Covers keys rows → total = ∑ k ∈ keys, share k (rows k)

theorem sumsTo_zero (hempty : ∀ k, rows k = none) (hshare : ∀ k, share k none = 0) :
    SumsTo share rows 0 := by
  intro keys _
  simp [hempty, hshare]

variable [DecidableEq κ]

theorem SumsTo.update (h : SumsTo share rows total) (k : κ) (row : ρ) :
    SumsTo share (Function.update rows k (some row))
      (total + (share k (some row) - share k (rows k))) := by
  intro keys hkeys
  have hcovers : Covers keys rows := by
    intro other hother
    apply hkeys
    by_cases heq : other = k
    · subst heq
      simp
    · rwa [Function.update_of_ne heq]
  have hk : k ∈ keys := hkeys k (by simp)
  have hshare : ∀ other, share other (Function.update rows k (some row) other) =
      share other (rows other) +
        if other = k then share k (some row) - share k (rows k) else 0 := by
    intro other
    by_cases heq : other = k
    · subst heq
      simp
    · simp [heq]
  rw [h keys hcovers, Finset.sum_congr rfl fun other _ => hshare other, Finset.sum_add_distrib,
    Finset.sum_ite_eq', if_pos hk]

end Relational
