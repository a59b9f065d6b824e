import DeathRoll.Relational.ReadCommitted

/-! # Two bodies in lockstep

The same moves drive two bodies of the same calls. As long as every transaction
makes the same access in both, the rows, their locks and so the commits are the
same: what one body does in any interleaving, the other does.
-/

namespace Relational.Concurrent

variable {ρ : Type} {σ : ρ → Type} {τ κ ε α : Type}

variable [DecidableEq τ]

/-- A transaction makes the same access in two scripts, and what is left of them is
related. -/
inductive InStep (R : Script σ ε α → Script σ ε α → Prop) (w : Concurrent τ κ σ ε α) (tx : τ) :
    Script σ ε α → Script σ ε α → Prop
  | done (result : α) : InStep R w tx (.done result) (.done result)
  | fail (error : ε) : InStep R w tx (.fail error) (.fail error)
  | look {β : Type} {query : Snapshot σ → β} {next next' : β → Script σ ε α}
      (hnext : R (next (query ⟨w.keys, w.view tx⟩)) (next' (query ⟨w.keys, w.view tx⟩))) :
      InStep R w tx (.look query next) (.look query next')
  | select {r : ρ} {next next' : Option (σ r) → Script σ ε α}
      (habsent : w.view tx r = none → R (next none) (next' none))
      (hlocked : ∀ row, (w.rows r).session id tx = some (some row) →
        R (next (some row)) (next' (some row))) :
      InStep R w tx (.select r next) (.select r next')
  | insertNew {r : ρ} {row : σ r} {next next' : Bool → Script σ ε α}
      (hnext : ∀ inserted, R (next inserted) (next' inserted)) :
      InStep R w tx (.insertNew r row next) (.insertNew r row next')
  | write {r : ρ} {row : σ r} {next next' : Script σ ε α} (hnext : R next next') :
      InStep R w tx (.write r row next) (.write r row next')

theorem inStep_self {R : Script σ ε α → Script σ ε α → Prop} (hrefl : ∀ rest, R rest rest)
    (w : Concurrent τ κ σ ε α) (tx : τ) (rest : Script σ ε α) : InStep R w tx rest rest := by
  cases rest with
  | done result => exact .done result
  | fail error => exact .fail error
  | look query next => exact .look (hrefl _)
  | select r next => exact .select (fun _ => hrefl _) fun _ _ => hrefl _
  | insertNew r row next => exact .insertNew fun _ => hrefl _
  | write r row next => exact .write (hrefl _)

/-- The same rows and locks, and the same calls in flight with related rests. -/
structure Follows (R : κ → Script σ ε α → Script σ ε α → Prop) (w w' : Concurrent τ κ σ ε α) :
    Prop where
  keys : w'.keys = w.keys
  rows : w'.rows = w.rows
  running : ∀ tx, Option.Rel (fun left right => left.1 = right.1 ∧ R left.1 left.2 right.2)
    (w.running tx) (w'.running tx)

variable {R : κ → Script σ ε α → Script σ ε α → Prop} {w w' : Concurrent τ κ σ ε α} {tx : τ}
  {call : κ} {rest rest' : Script σ ε α}

omit [DecidableEq τ] in
theorem Follows.idle (h : w.Follows R w') (hidle : w.running tx = none) :
    w'.running tx = none := by
  have hrel := h.running tx
  rw [hidle] at hrel
  cases hrunning : w'.running tx with
  | none => rfl
  | some flight =>
      rw [hrunning] at hrel
      cases hrel

omit [DecidableEq τ] in
theorem Follows.flight (h : w.Follows R w') (hrunning : w.running tx = some (call, rest)) :
    ∃ rest', w'.running tx = some (call, rest') ∧ R call rest rest' := by
  have hrel := h.running tx
  rw [hrunning] at hrel
  cases hrunning' : w'.running tx with
  | none =>
      rw [hrunning'] at hrel
      cases hrel
  | some flight =>
      rw [hrunning'] at hrel
      obtain ⟨call', rest'⟩ := flight
      cases hrel with
      | some hboth =>
          obtain ⟨rfl, hrest⟩ := hboth
          exact ⟨rest', rfl, hrest⟩

theorem Follows.view (h : w.Follows R w') (tx : τ) : w'.view tx = w.view tx := by
  funext r
  simp only [Concurrent.view, held, committed, h.rows]

omit [DecidableEq τ] in
theorem Follows.committed (h : w.Follows R w') : w'.committed = w.committed := by
  funext r
  simp only [Concurrent.committed, h.rows]

/-- A transaction goes on in both. -/
theorem Follows.proceed (h : w.Follows R w') {v v' : Concurrent τ κ σ ε α}
    (hkeys : v'.keys = v.keys) (hrows : v'.rows = v.rows) (hrunning : v.running = w.running)
    (hrunning' : v'.running = w'.running) (hrest : R call rest rest') :
    (v.proceed tx call rest).Follows R (v'.proceed tx call rest') := by
  refine ⟨hkeys, hrows, fun other => ?_⟩
  by_cases hother : other = tx
  · subst hother
    rw [running_proceed_self, running_proceed_self]
    exact .some ⟨rfl, hrest⟩
  · rw [running_proceed_of_ne hother, running_proceed_of_ne hother, hrunning, hrunning']
    exact h.running other

variable [DecidableEq ρ]

theorem Follows.hold (h : w.Follows R w') {v u : Concurrent τ κ σ ε α}
    (hkeys : u.keys = v.keys) (hrows : u.rows = v.rows) (hrunning : v.running = w.running)
    (hrunning' : u.running = w'.running) (hrest : R call rest rest') {r : ρ}
    (row : Option (σ r)) :
    ((v.hold tx r row).proceed tx call rest).Follows R
      ((u.hold tx r row).proceed tx call rest') := by
  have hheld : (u.hold tx r row).rows = (v.hold tx r row).rows := by
    simp only [Concurrent.hold, hrows]
  exact h.proceed (v := v.hold tx r row) hkeys hheld hrunning hrunning' hrest

theorem Follows.advance (h : w.Follows R w') (hstep : InStep (R call) w tx rest rest') :
    (w.advance tx call rest).Follows R (w'.advance tx call rest') := by
  cases hstep with
  | done result => exact h
  | fail error => exact h
  | look hnext =>
      simp only [Concurrent.advance, h.keys, h.view]
      exact h.proceed h.keys h.rows rfl rfl hnext
  | select habsent hlocked =>
      simp only [Concurrent.advance, h.rows, h.view]
      split
      next hnone => exact h.proceed h.keys h.rows rfl rfl (habsent hnone)
      next hvisible =>
        split
        next => exact h
        next row hsession =>
          cases row with
          -- the row that is taken is the one that was visible
          | none => exact (hvisible (session_eq_view hsession).symm).elim
          | some row => exact h.hold h.keys h.rows rfl rfl (hlocked row hsession) _
  | insertNew hnext =>
      simp only [Concurrent.advance, h.rows, h.view]
      split
      next => exact h.proceed h.keys h.rows rfl rfl (hnext false)
      next =>
        split
        next => exact h
        next =>
          apply h.hold (v := w.enter _) (u := w'.enter _) _ h.rows rfl rfl (hnext true)
          simp only [enter, h.keys]
  | write hnext =>
      simp only [Concurrent.advance, held, h.rows]
      split
      next => exact h
      next => exact h.hold h.keys h.rows rfl rfl hnext _

omit [DecidableEq ρ] in
theorem Follows.finish (h : w.Follows R w') (tx : τ)
    (rows : (r : ρ) → RowLock τ (Option (σ r)) (Option (σ r))) :
    Follows R { w with rows, running := Function.update w.running tx none }
      { w' with rows, running := Function.update w'.running tx none } := by
  refine ⟨h.keys, rfl, fun other => ?_⟩
  by_cases hother : other = tx
  · subst hother
    simp only [Function.update_self]
    exact .none
  · simp only [Function.update_of_ne hother]
    exact h.running other

omit [DecidableEq τ] [DecidableEq ρ] in
theorem follows_quiet (R : κ → Script σ ε α → Script σ ε α → Prop) (keys : List ρ)
    (rows : Rows σ) : Follows R (quiet keys rows : Concurrent τ κ σ ε α) (quiet keys rows) :=
  ⟨rfl, rfl, fun _ => .none⟩

variable {body body' : κ → Script σ ε α}

theorem Follows.step (h : w.Follows R w') (hbody : ∀ call, R call (body call) (body' call))
    (hdone : ∀ call rest rest' result, R call rest rest' →
      (rest = .done result ↔ rest' = .done result)) {move : Move τ κ}
    (hstep : ∀ tx call rest rest', move = .next tx → w.running tx = some (call, rest) →
      R call rest rest' → InStep (R call) w tx rest rest') :
    (w.step body move).Follows R (w'.step body' move) := by
  cases move with
  | start tx call =>
      simp only [Concurrent.step]
      cases hrunning : w.running tx with
      | none =>
          rw [h.idle hrunning]
          exact h.proceed h.keys h.rows rfl rfl (hbody call)
      | some flight =>
          obtain ⟨rest', hrunning', -⟩ := h.flight hrunning
          rw [hrunning']
          exact h
  | next tx =>
      simp only [Concurrent.step]
      cases hrunning : w.running tx with
      | none =>
          rw [h.idle hrunning]
          exact h
      | some flight =>
          obtain ⟨rest', hrunning', hrest⟩ := h.flight hrunning
          rw [hrunning']
          exact h.advance (hstep tx _ _ _ rfl hrunning hrest)
  | commit tx =>
      simp only [Concurrent.step]
      cases hrunning : w.running tx with
      | none =>
          rw [h.idle hrunning]
          exact h
      | some flight =>
          obtain ⟨call, rest⟩ := flight
          obtain ⟨rest', hrunning', hrest⟩ := h.flight hrunning
          rw [hrunning']
          by_cases hresult : ∃ result, rest = .done result
          · obtain ⟨result, rfl⟩ := hresult
            obtain rfl := (hdone call _ rest' result hrest).mp rfl
            rw [h.rows]
            exact h.finish tx _
          · have hresult' : ¬ ∃ result, rest' = .done result := by
              intro hresult'
              obtain ⟨result, heq⟩ := hresult'
              exact hresult ⟨result, (hdone call rest rest' result hrest).mpr heq⟩
            cases rest with
            | done result => exact (hresult ⟨result, rfl⟩).elim
            | _ =>
                cases rest' with
                | done result => exact (hresult' ⟨result, rfl⟩).elim
                | _ => exact h
  | rollback tx =>
      simp only [Concurrent.step]
      rw [h.rows]
      exact h.finish tx _

/-- While every step that the run takes is the same in both bodies, so are its rows. -/
theorem Follows.run (h : w.Follows R w') (hbody : ∀ call, R call (body call) (body' call))
    (hdone : ∀ call rest rest' result, R call rest rest' →
      (rest = .done result ↔ rest' = .done result))
    {ok : Concurrent τ κ σ ε α → Move τ κ → Prop}
    (hstep : ∀ (w : Concurrent τ κ σ ε α) (tx : τ) (call : κ) (rest rest' : Script σ ε α),
      ok w (.next tx) → w.running tx = some (call, rest) → R call rest rest' →
      InStep (R call) w tx rest rest')
    {moves : List (Move τ κ)}
    (hok : ∀ before move, (before, move) ∈ steps (Concurrent.step body) w moves →
      ok before move) :
    (Relational.run (Concurrent.step body) w moves).Follows R
      (Relational.run (Concurrent.step body') w' moves) := by
  induction moves generalizing w w' with
  | nil => exact h
  | cons move moves ih =>
      have hmove := hok w move List.mem_cons_self
      apply ih
      · apply h.step hbody hdone
        rintro tx call rest rest' rfl hrunning hrest
        exact hstep w tx call rest rest' hmove hrunning hrest
      · intro before later hlater
        exact hok before later (List.mem_cons_of_mem _ hlater)

end Relational.Concurrent
