import DeathRoll.Relational.Transaction

/-! # Statements that commit on their own

Outside a transaction block every statement is a transaction of its own, and the connection
may break around any of them. A program that sends such statements for one item after the
other stops at the first error, with the statements of the items before it committed.
-/

namespace Relational

/-- What becomes of a statement on its way to the server and back. -/
inductive Delivery where
  | answered
  /-- Lost on its way, or cancelled by the server. -/
  | undone
  /-- Lost on the way back: it has run and, if it could, committed. -/
  | unanswered
deriving DecidableEq

namespace Tx

variable {σ ε α β ι : Type}

theorem outcome_pure (a : α) (s : σ) : (pure a : Tx σ ε α).outcome s = (.ok a, s) := rfl

theorem outcome_bind_of_ok {x : Tx σ ε α} {f : α → Tx σ ε β} {s s' : σ} {a : α}
    (hrun : x.outcome s = (.ok a, s')) : (x >>= f).outcome s = (f a).outcome s' := by
  have hx : StateT.run (ExceptT.run x) s = (.ok a, s') := hrun
  simp only [outcome, ExceptT.run_bind, StateT.run_bind, hx]
  rfl

theorem outcome_bind_of_error {x : Tx σ ε α} {f : α → Tx σ ε β} {s s' : σ} {e : ε}
    (hrun : x.outcome s = (.error e, s')) : (x >>= f).outcome s = (.error e, s') := by
  have hx : StateT.run (ExceptT.run x) s = (.error e, s') := hrun
  simp only [outcome, ExceptT.run_bind, StateT.run_bind, hx]
  rfl

/-! ## One statement -/

/-- A statement on its own: what it does is committed or rolled back before the next one. -/
def autocommit (restore : σ → σ → σ) (lost : ε) (delivery : Delivery) (x : Tx σ ε α) :
    Tx σ ε α :=
  ExceptT.mk fun s =>
    match delivery with
    | .answered => transact restore x s
    | .undone => (.error lost, s)
    | .unanswered => (.error lost, (transact restore x s).2)

section Autocommit

variable {ν : Type} {restore : σ → σ → σ} {lost : ε} {delivery : Delivery} {x : Tx σ ε α} {s : σ}
  {post : α → σ → Prop}

theorem autocommit_undone :
    (autocommit restore lost .undone x).outcome s = (.error lost, s) := rfl

/-- An answered statement that can return does. -/
theorem autocommit_answered (hwp : x.wp post (fun _ => False) s) :
    ∃ a s', (autocommit restore lost .answered x).outcome s = (.ok a, s') ∧ post a s' := by
  obtain ⟨a, s', hrun, hpost⟩ := exists_outcome_of_wp hwp
  refine ⟨a, s', ?_, hpost⟩
  change transact restore x s = _
  rw [transact, hrun]

/-- An unanswered one takes effect and fails all the same. -/
theorem autocommit_unanswered (hwp : x.wp post (fun _ => False) s) :
    ∃ a s', (autocommit restore lost .unanswered x).outcome s = (.error lost, s') ∧ post a s' := by
  obtain ⟨a, s', hrun, hpost⟩ := exists_outcome_of_wp hwp
  refine ⟨a, s', ?_, hpost⟩
  change (Except.error lost, (transact restore x s).2) = _
  rw [transact, hrun]

/-- A statement that can only raise leaves what a rollback leaves. -/
theorem autocommit_raises {view : σ → ν} {raised : ε → Prop}
    (hrestore : ∀ t, view (restore s t) = view s) (hwp : x.wp (fun _ _ => False) raised s) :
    ∃ e s', (autocommit restore lost delivery x).outcome s = (.error e, s') ∧ view s' = view s := by
  rcases hrun : x.outcome s with ⟨result, t⟩
  cases result with
  | ok a => exact (post_of_outcome hwp hrun).elim
  | error e =>
      have htransact : transact restore x s = (.error e, restore s t) := by rw [transact, hrun]
      cases delivery with
      | answered => exact ⟨e, restore s t, htransact, hrestore t⟩
      | undone => exact ⟨lost, s, rfl, rfl⟩
      | unanswered =>
          refine ⟨lost, restore s t, ?_, hrestore t⟩
          change (Except.error lost, (transact restore x s).2) = _
          rw [htransact]

end Autocommit

/-! ## One item after the other -/

/-- `for item in items: await f(item)`. -/
def each (f : ι → Tx σ ε α) : List ι → Tx σ ε Unit
  | [] => pure ()
  | item :: rest => do
      let _ ← f item
      each f rest

/-- The bodies of the items return, one after the other. -/
inductive Returns (f : ι → Tx σ ε α) : σ → List ι → σ → Prop
  | nil (s : σ) : Returns f s [] s
  | cons {s s₁ s₂ : σ} {item : ι} {rest : List ι} {a : α}
      (hitem : (f item).outcome s = (.ok a, s₁)) (hrest : Returns f s₁ rest s₂) :
      Returns f s (item :: rest) s₂

/-- Where a run over the items stops: behind the last one, or at the first error. -/
inductive Stops (f : ι → Tx σ ε α) (s : σ) (items : List ι) : Except ε Unit → σ → Prop
  | through {s' : σ} (hdone : Returns f s items s') : Stops f s items (.ok ()) s'
  | failedAt {s₁ s₂ : σ} {done : List ι} {item : ι} {rest : List ι} {e : ε}
      (hitems : items = done ++ item :: rest) (hdone : Returns f s done s₁)
      (hitem : (f item).outcome s₁ = (.error e, s₂)) : Stops f s items (.error e) s₂

theorem each_stops (f : ι → Tx σ ε α) (items : List ι) (s : σ) :
    Stops f s items ((each f items).outcome s).1 ((each f items).outcome s).2 := by
  induction items generalizing s with
  | nil => exact .through (.nil s)
  | cons item rest ih =>
      rcases hitem : (f item).outcome s with ⟨result, s₁⟩
      cases result with
      | error e =>
          rw [each, outcome_bind_of_error hitem]
          exact .failedAt (List.nil_append _).symm (.nil s) hitem
      | ok a =>
          rw [each, outcome_bind_of_ok hitem]
          have hrest := ih s₁
          generalize ((each f rest).outcome s₁).1 = final at hrest ⊢
          generalize ((each f rest).outcome s₁).2 = s₂ at hrest ⊢
          cases hrest with
          | through hdone => exact .through (.cons hitem hdone)
          | failedAt hitems hdone hlast =>
              exact .failedAt (by rw [hitems, List.cons_append]) (.cons hitem hdone) hlast

/-- A run whose items return up to one that raises ends there. -/
theorem each_outcome_of_error {f : ι → Tx σ ε α} {s s₁ s₂ : σ} {done : List ι} {item : ι} {e : ε}
    (hdone : Returns f s done s₁) (hitem : (f item).outcome s₁ = (.error e, s₂))
    (rest : List ι) : (each f (done ++ item :: rest)).outcome s = (.error e, s₂) := by
  induction hdone with
  | nil s => exact outcome_bind_of_error hitem
  | cons hfirst _ ih => exact (outcome_bind_of_ok hfirst).trans (ih hitem)

end Tx

end Relational
