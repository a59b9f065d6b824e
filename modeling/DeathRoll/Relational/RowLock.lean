import Mathlib.Logic.Basic

/-! # Row locks

A row that transactions lock with `SELECT ... FOR UPDATE` or by writing it:
others keep seeing the committed value, the holder works on a value of its own,
which a commit publishes and a rollback forgets. Locks are held to the end of
the transaction, so there is one working value at a time; an invariant needs one
part for the committed value and one for a value being worked on.
-/

namespace Relational

/-- The committed value of a row, and who holds its lock with what in hand. -/
structure RowLock (τ σ π : Type*) where
  committed : σ
  holder : Option (τ × π)

namespace RowLock

variable {τ σ π : Type*}

/-- A row that nobody holds. -/
def free (s : σ) : RowLock τ σ π := ⟨s, none⟩

/-- Take the lock, or go on with it. -/
def hold (row : RowLock τ σ π) (t : τ) (p : π) : RowLock τ σ π :=
  { row with holder := some (t, p) }

section Session

variable [DecidableEq τ]

/-- What transaction `t` can go on with: what it has in hand, or a fresh start
when nobody holds the lock. `none` means that it waits. -/
def session (start : σ → π) (row : RowLock τ σ π) (t : τ) : Option π :=
  match row.holder with
  | none => some (start row.committed)
  | some (other, p) => if other = t then some p else none

/-- What transaction `t` has in hand. -/
def heldBy (row : RowLock τ σ π) (t : τ) : Option π :=
  match row.holder with
  | none => none
  | some (other, p) => if other = t then some p else none

/-- Commit what transaction `t` has in hand. -/
def publish (row : RowLock τ σ σ) (t : τ) : RowLock τ σ σ :=
  match row.heldBy t with
  | none => row
  | some s => .free s

/-- Forget what transaction `t` has in hand. -/
def release (row : RowLock τ σ π) (t : τ) : RowLock τ σ π :=
  if row.holder.map Prod.fst = some t then { row with holder := none } else row

end Session

@[simp] theorem free_committed (s : σ) : (free s : RowLock τ σ π).committed = s := rfl

@[simp] theorem free_holder (s : σ) : (free s : RowLock τ σ π).holder = none := rfl

@[simp] theorem hold_committed (row : RowLock τ σ π) (t : τ) (p : π) :
    (row.hold t p).committed = row.committed := rfl

@[simp] theorem hold_holder (row : RowLock τ σ π) (t : τ) (p : π) :
    (row.hold t p).holder = some (t, p) := rfl

@[simp] theorem session_hold [DecidableEq τ] (start : σ → π) (row : RowLock τ σ π) (t : τ) (p : π) :
    (row.hold t p).session start t = some p := by
  simp [session, hold]

@[simp] theorem hold_hold (row : RowLock τ σ π) (t u : τ) (p q : π) :
    (row.hold t p).hold u q = row.hold u q := rfl

section HeldBy

variable [DecidableEq τ] {row : RowLock τ σ π} {t u : τ} {p : π}

@[simp] theorem heldBy_free (s : σ) (t : τ) : (free s : RowLock τ σ π).heldBy t = none := rfl

theorem heldBy_hold (row : RowLock τ σ π) (t u : τ) (p : π) :
    (row.hold t p).heldBy u = if t = u then some p else none := rfl

/-- What a transaction can go on with, it holds, or it starts with on a free row. -/
theorem session_eq_some {start : σ → π} (h : row.session start t = some p) :
    row.holder = none ∧ p = start row.committed ∨ row.heldBy t = some p := by
  unfold session at h
  split at h
  next hholder =>
    rw [Option.some.injEq] at h
    exact .inl ⟨hholder, h.symm⟩
  next other q hholder =>
    right
    unfold heldBy
    rw [hholder]
    exact h

/-- One row has one holder. -/
theorem heldBy_of_ne (h : row.heldBy t = some p) (hne : u ≠ t) : row.heldBy u = none := by
  unfold heldBy at h ⊢
  split at h
  next => cases h
  next other q hholder =>
    split at h
    next heq => exact if_neg fun hsame => hne (hsame.symm.trans heq)
    next => cases h

/-- Taking a row that one can go on with takes it from nobody. -/
theorem heldBy_hold_of_ne {start : σ → π} {q : π} (h : row.session start t = some p)
    (hne : u ≠ t) : (row.hold t q).heldBy u = row.heldBy u := by
  rw [heldBy_hold, if_neg hne.symm]
  rcases session_eq_some h with ⟨hholder, -⟩ | hheld
  · rw [heldBy, hholder]
  · exact (heldBy_of_ne hheld hne).symm

@[simp] theorem release_committed (row : RowLock τ σ π) (t : τ) :
    (row.release t).committed = row.committed := by
  unfold release
  split <;> rfl

theorem heldBy_release (row : RowLock τ σ π) (t u : τ) :
    (row.release t).heldBy u = if u = t then none else row.heldBy u := by
  unfold release heldBy
  rcases row with ⟨committed, _ | ⟨other, p⟩⟩
  · simp
  · by_cases hother : other = t
    · subst hother
      by_cases hu : u = other
      · simp [hu]
      · simp [hu, Ne.symm hu]
    · by_cases hu : u = t
      · simp [hu, hother]
      · simp [hu, hother]

theorem publish_committed (row : RowLock τ σ σ) (t : τ) :
    (row.publish t).committed = (row.heldBy t).getD row.committed := by
  unfold publish
  split
  next hnone => rw [hnone]; rfl
  next s hheld => rw [hheld]; rfl

theorem heldBy_publish (row : RowLock τ σ σ) (t u : τ) :
    (row.publish t).heldBy u = if u = t then none else row.heldBy u := by
  unfold publish
  split
  next hnone =>
    split
    next hu => rw [hu, hnone]
    next => rfl
  next s hheld =>
    split
    next => rfl
    next hu => rw [heldBy_free, heldBy_of_ne hheld hu]

end HeldBy

/-- `P` holds of the committed value and `Q` of a value being worked on. -/
structure Keeps (P : σ → Prop) (Q : σ → π → Prop) (row : RowLock τ σ π) : Prop where
  committed : P row.committed
  held : ∀ t p, row.holder = some (t, p) → Q row.committed p

namespace Keeps

variable {P : σ → Prop} {Q : σ → π → Prop} {row : RowLock τ σ π} {t : τ} {p : π}

theorem free {s : σ} (hs : P s) : Keeps P Q (free s : RowLock τ σ π) :=
  ⟨hs, fun _ _ hheld => by simp at hheld⟩

theorem hold (h : row.Keeps P Q) (hp : Q row.committed p) : (row.hold t p).Keeps P Q := by
  refine ⟨h.committed, fun _ _ hheld => ?_⟩
  rw [hold_holder, Option.some.injEq, Prod.mk.injEq] at hheld
  exact hheld.2 ▸ hp

theorem release [DecidableEq τ] (h : row.Keeps P Q) (t : τ) : (row.release t).Keeps P Q := by
  unfold RowLock.release
  split
  · exact ⟨h.committed, fun _ _ hheld => by simp at hheld⟩
  · exact h

theorem session [DecidableEq τ] {start : σ → π} (h : row.Keeps P Q)
    (hstart : ∀ s, P s → Q s (start s)) (hsession : row.session start t = some p) :
    Q row.committed p := by
  unfold RowLock.session at hsession
  split at hsession
  next =>
    rw [Option.some.injEq] at hsession
    exact hsession ▸ hstart _ h.committed
  next other q hholder =>
    split at hsession
    · rw [Option.some.injEq] at hsession
      exact h.held other p (hsession ▸ hholder)
    · cases hsession

theorem heldBy [DecidableEq τ] (h : row.Keeps P Q) (hheld : row.heldBy t = some p) :
    Q row.committed p := by
  unfold RowLock.heldBy at hheld
  split at hheld
  next => cases hheld
  next other q hholder =>
    split at hheld
    · rw [Option.some.injEq] at hheld
      exact h.held other p (hheld ▸ hholder)
    · cases hheld

theorem mono {P' : σ → Prop} {Q' : σ → π → Prop} (h : row.Keeps P Q) (hP : ∀ s, P s → P' s)
    (hQ : ∀ s p, Q s p → Q' s p) : row.Keeps P' Q' :=
  ⟨hP _ h.committed, fun t p hheld => hQ _ _ (h.held t p hheld)⟩

end Keeps

end RowLock

end Relational
