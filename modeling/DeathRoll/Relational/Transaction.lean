import Mathlib.Logic.Basic

/-! # Transactions and their weakest preconditions

A transaction reads and writes a state and may raise. Its weakest precondition
takes one postcondition for a normal return and one for a raised error, so the
same rules serve partial correctness (every error allowed) and the absence of
particular errors. The rules turn the body of a transaction into a formula about
the state it starts from, one conjunct per path.
-/

namespace Relational

/-- A body that reads and writes a state `σ` and may raise an error `ε`. -/
abbrev Tx (σ ε α : Type) := ExceptT ε (StateM σ) α

namespace Tx

variable {σ ε α β : Type}

/-- The outcome of a body, with the state it stopped in. -/
def outcome (x : Tx σ ε α) (s : σ) : Except ε α × σ := StateT.run (ExceptT.run x) s

/-- Return the value, or raise `e` when there is none. -/
def require (e : ε) : Option α → Tx σ ε α
  | some a => pure a
  | none => throw e

/-- Return the value of a computation that needs no state, or raise its error. -/
def orThrow : Except ε α → Tx σ ε α
  | .ok a => pure a
  | .error e => throw e

/-- `IF c THEN RAISE e; END IF`. -/
def raiseIf (c : Prop) [Decidable c] (e : ε) : Tx σ ε Unit :=
  if c then throw e else pure ()

/-- `IF c THEN x; END IF`. -/
def ifDo (c : Prop) [Decidable c] (x : Tx σ ε Unit) : Tx σ ε Unit :=
  if c then x else pure ()

/-- From `s`, a normal return satisfies `post` and a raised error satisfies `raised`. -/
def wp (x : Tx σ ε α) (post : α → σ → Prop) (raised : ε → Prop) (s : σ) : Prop :=
  match x.outcome s with
  | (.ok a, s') => post a s'
  | (.error e, _) => raised e

variable {post : α → σ → Prop} {raised : ε → Prop} {s : σ}

theorem wp_pure (a : α) : wp (pure a : Tx σ ε α) post raised s ↔ post a s := Iff.rfl

theorem wp_throw (e : ε) : wp (throw e : Tx σ ε α) post raised s ↔ raised e := Iff.rfl

theorem wp_get {post : σ → σ → Prop} :
    wp (get : Tx σ ε σ) post raised s ↔ post s s := Iff.rfl

theorem wp_set (s' : σ) {post : PUnit → σ → Prop} :
    wp (set s' : Tx σ ε PUnit) post raised s ↔ post ⟨⟩ s' := Iff.rfl

theorem wp_modify (f : σ → σ) {post : PUnit → σ → Prop} :
    wp (modify f : Tx σ ε PUnit) post raised s ↔ post ⟨⟩ (f s) := Iff.rfl

theorem wp_bind (x : Tx σ ε α) (f : α → Tx σ ε β) {post : β → σ → Prop} :
    wp (x >>= f) post raised s ↔ wp x (fun a s' => wp (f a) post raised s') raised s := by
  have hrun : outcome (x >>= f) s = match x.outcome s with
      | (.ok a, s') => (f a).outcome s'
      | (.error e, s') => (.error e, s') := by
    simp only [outcome, ExceptT.run_bind, StateT.run_bind]
    rcases hx : StateT.run (ExceptT.run x) s with ⟨result, s'⟩
    cases result <;> rfl
  unfold wp
  rw [hrun]
  rcases x.outcome s with ⟨result, s'⟩
  cases result <;> rfl

theorem wp_require (e : ε) (o : Option α) :
    wp (require e o : Tx σ ε α) post raised s ↔
      (o = none → raised e) ∧ ∀ a, o = some a → post a s := by
  cases o with
  | none => simp [require, wp_throw]
  | some a => simp [require, wp_pure]

theorem wp_ite (c : Prop) [Decidable c] (x y : Tx σ ε α) :
    wp (if c then x else y) post raised s ↔
      (c → wp x post raised s) ∧ (¬ c → wp y post raised s) := by
  by_cases hc : c <;> simp [hc]

theorem wp_dite (c : Prop) [Decidable c] (x : c → Tx σ ε α) (y : ¬ c → Tx σ ε α) :
    wp (if hc : c then x hc else y hc) post raised s ↔
      (∀ hc : c, wp (x hc) post raised s) ∧ (∀ hc : ¬ c, wp (y hc) post raised s) := by
  by_cases hc : c <;> simp [hc]

theorem wp_orThrow (x : Except ε α) :
    wp (orThrow x : Tx σ ε α) post raised s ↔
      (∀ e, x = .error e → raised e) ∧ ∀ a, x = .ok a → post a s := by
  cases x with
  | error e => simp [orThrow, wp_throw]
  | ok a => simp [orThrow, wp_pure]

theorem wp_raiseIf (c : Prop) [Decidable c] (e : ε) {post : Unit → σ → Prop} :
    wp (raiseIf c e : Tx σ ε Unit) post raised s ↔ (c → raised e) ∧ (¬ c → post () s) := by
  simp only [raiseIf, wp_ite, wp_throw, wp_pure]

theorem wp_ifDo (c : Prop) [Decidable c] (x : Tx σ ε Unit) {post : Unit → σ → Prop} :
    wp (ifDo c x) post raised s ↔ (c → wp x post raised s) ∧ (¬ c → post () s) := by
  simp only [ifDo, wp_ite, wp_pure]

/-- Consequence: weaken both postconditions. -/
theorem wp_mono {x : Tx σ ε α} {post' : α → σ → Prop} {raised' : ε → Prop}
    (hwp : wp x post raised s) (hpost : ∀ a s', post a s' → post' a s')
    (hraised : ∀ e, raised e → raised' e) : wp x post' raised' s := by
  unfold wp at hwp ⊢
  rcases hrun : x.outcome s with ⟨result, s'⟩
  rw [hrun] at hwp
  cases result with
  | ok a => exact hpost a s' hwp
  | error e => exact hraised e hwp

/-- What holds of every return holds of the returns of any body. -/
theorem wp_of_forall (x : Tx σ ε α) (hpost : ∀ a s', post a s') :
    wp x post (fun _ => True) s := by
  unfold wp
  rcases x.outcome s with ⟨result, s'⟩
  cases result with
  | ok a => exact hpost a s'
  | error e => trivial

/-- A weakest precondition read off a normal return. -/
theorem post_of_outcome {x : Tx σ ε α} (hwp : wp x post raised s) {a : α} {s' : σ}
    (hrun : x.outcome s = (.ok a, s')) : post a s' := by
  unfold wp at hwp
  rwa [hrun] at hwp

/-- A weakest precondition read off a raised error. -/
theorem raised_of_outcome {x : Tx σ ε α} (hwp : wp x post raised s) {e : ε} {s' : σ}
    (hrun : x.outcome s = (.error e, s')) : raised e := by
  unfold wp at hwp
  rwa [hrun] at hwp

/-- A body that may raise nothing returns normally, with its postcondition. -/
theorem exists_outcome_of_wp {x : Tx σ ε α} (hwp : wp x post (fun _ => False) s) :
    ∃ a s', x.outcome s = (.ok a, s') ∧ post a s' := by
  unfold wp at hwp
  rcases hrun : x.outcome s with ⟨result, s'⟩
  rw [hrun] at hwp
  cases result with
  | ok a => exact ⟨a, s', rfl, hwp⟩
  | error e => exact hwp.elim

/-! ## What a body leaves alone -/

section Keeps

variable {ν : Type*} {view : σ → ν}

/-- A body that returns leaves what `view` shows as it was. -/
def Keeps (view : σ → ν) (x : Tx σ ε α) : Prop :=
  ∀ s, wp x (fun _ s' => view s' = view s) (fun _ => True) s

/-- The rule of a statement that changes nothing in view. -/
theorem wp_of_keeps {x : Tx σ ε α} (hx : x.Keeps view)
    (hpost : ∀ a s', view s' = view s → post a s') : wp x post (fun _ => True) s :=
  wp_mono (hx s) hpost fun _ h => h

/-- What is seen of an unchanged view is unchanged. -/
theorem Keeps.map {ν' : Type*} {x : Tx σ ε α} (hx : x.Keeps view) (f : ν → ν') :
    x.Keeps fun s => f (view s) :=
  fun s => wp_mono (hx s) (fun _ _ h => congrArg f h) fun _ h => h

theorem keeps_pure (a : α) : (pure a : Tx σ ε α).Keeps view := fun _ => rfl

theorem keeps_modify {f : σ → σ} (hf : ∀ s, view (f s) = view s) :
    (modify f : Tx σ ε PUnit).Keeps view := hf

theorem Keeps.bind {x : Tx σ ε α} {f : α → Tx σ ε β} (hx : x.Keeps view)
    (hf : ∀ a, (f a).Keeps view) : (x >>= f).Keeps view := by
  intro s
  rw [wp_bind]
  exact wp_of_keeps hx fun a s' hs => hs ▸ hf a s'

theorem Keeps.ifDo {x : Tx σ ε Unit} (hx : x.Keeps view) (c : Prop) [Decidable c] :
    (ifDo c x).Keeps view :=
  fun s => (wp_ifDo c x).mpr ⟨fun _ => hx s, fun _ => rfl⟩

end Keeps

end Tx

/-! ## Committing and rolling back -/

section Commit

variable {σ ε α : Type} (restore : σ → σ → σ)

/-- Run a body as one transaction: a normal return commits, an error restores
the state the body met, up to what a rollback does not undo. -/
def transact (x : Tx σ ε α) (s : σ) : Except ε α × σ :=
  match x.outcome s with
  | (.ok a, s') => (.ok a, s')
  | (.error e, s') => (.error e, restore s s')

theorem transact_ok {x : Tx σ ε α} {s s' : σ} {a : α}
    (hrun : transact restore x s = (.ok a, s')) : x.outcome s = (.ok a, s') := by
  unfold transact at hrun
  split at hrun
  next heq =>
    cases hrun
    exact heq
  next => cases hrun

/-- A transaction raises only what its body may raise. -/
theorem transact_raises {x : Tx σ ε α} {s : σ} {post : α → σ → Prop} {raised : ε → Prop}
    (hwp : x.wp post raised s) {e : ε} (hrun : (transact restore x s).1 = .error e) : raised e := by
  unfold transact at hrun
  split at hrun
  next => cases hrun
  next heq =>
    cases hrun
    exact Tx.raised_of_outcome hwp heq

/-- A transaction whose body may raise nothing commits. -/
theorem transact_returns {x : Tx σ ε α} {s : σ} {post : α → σ → Prop}
    (hwp : x.wp post (fun _ => False) s) : ∃ a, (transact restore x s).1 = .ok a := by
  obtain ⟨a, s', hrun, -⟩ := Tx.exists_outcome_of_wp hwp
  refine ⟨a, ?_⟩
  rw [transact, hrun]

end Commit

end Relational
