import DeathRoll.Relational.ReadCommitted

/-! # Serial runs

Calls that run one after the other are one of the interleavings: alone with the rows, a
transaction never waits, and commits what its script performs.
-/

namespace Relational

open Script

variable {ρ : Type} {σ : ρ → Type} {τ κ ε α : Type} [DecidableEq ρ]

/-- What a script does that is alone with the rows and holds those of `locked`: its result,
and the rows and keys that it leaves. -/
def Script.perform : Script σ ε α → Snapshot σ → List ρ → Option (α × Snapshot σ)
  | .done result, s, _ => some (result, s)
  | .fail _, _, _ => none
  | .look query next, s, locked => (next (query s)).perform s locked
  | .select r next, s, locked =>
      match s.rows r with
      | none => (next none).perform s locked
      | some row => (next (some row)).perform s (r :: locked)
  | .insertNew r row next, s, locked =>
      match s.rows r with
      | none =>
          (next true).perform ⟨r :: s.keys, Function.update s.rows r (some row)⟩ (r :: locked)
      | some _ => (next false).perform s locked
  | .write r row next, s, locked =>
      if r ∈ locked then
        next.perform ⟨s.keys, Function.update s.rows r (some row)⟩ (r :: locked)
      else none

namespace Concurrent

variable [DecidableEq τ] {body : κ → Script σ ε α} {tx : τ} {call : κ} {base : Rows σ}
  {s s' : Snapshot σ} {locked : List ρ} {rest : Script σ ε α}

/-- The rows when `tx` alone holds some of them. -/
def soloRows (tx : τ) (base rows : Rows σ) (locked : List ρ) :
    (r : ρ) → RowLock τ (Option (σ r)) (Option (σ r)) :=
  fun r => if r ∈ locked then ⟨base r, some (tx, rows r)⟩ else .free (base r)

/-- `tx` is alone. -/
def solo (tx : τ) (call : κ) (base : Rows σ) (s : Snapshot σ) (locked : List ρ)
    (rest : Script σ ε α) : Concurrent τ κ σ ε α :=
  ⟨s.keys, soloRows tx base s.rows locked, Function.update (fun _ => none) tx (some (call, rest))⟩

/-- Only rows that are held differ from what is committed. -/
def Differs (base rows : Rows σ) (locked : List ρ) : Prop := ∀ r ∉ locked, rows r = base r

theorem Differs.update {rows : Rows σ} (h : Differs base rows locked) (r : ρ) (row : Option (σ r)) :
    Differs base (Function.update rows r row) (r :: locked) := by
  intro other hother
  obtain ⟨hne, hother⟩ := not_or.mp (List.mem_cons.not.mp hother)
  rw [Function.update_of_ne hne, h other hother]

theorem session_soloRows {rows : Rows σ} (h : Differs base rows locked) (r : ρ) :
    (soloRows tx base rows locked r).session id tx = some (rows r) := by
  unfold soloRows
  split_ifs with hr
  · simp [RowLock.session]
  · simp [RowLock.session, h r hr]

theorem view_solo (h : Differs base s.rows locked) :
    (solo tx call base s locked rest).view tx = s.rows := by
  funext r
  simp only [view, held, committed, solo, soloRows]
  split_ifs with hr
  · simp [RowLock.heldBy]
  · simp [h r hr]

omit [DecidableEq τ] in
theorem update_soloRows {rows : Rows σ} (r : ρ) (row : Option (σ r)) :
    Function.update (soloRows tx base rows locked) r
        ((soloRows tx base rows locked r).hold tx row) =
      soloRows tx base (Function.update rows r row) (r :: locked) := by
  funext other
  by_cases hother : other = r
  · subst hother
    by_cases hr : other ∈ locked
    · simp [soloRows, RowLock.hold, hr]
    · simp [soloRows, RowLock.hold, RowLock.free, hr]
  · simp [soloRows, hother]

theorem solo_proceed (next : Script σ ε α) :
    (solo tx call base s locked rest).proceed tx call next = solo tx call base s locked next := by
  simp [solo, proceed]

/-- Taking a row and going on. -/
theorem solo_hold (r : ρ) (row : Option (σ r)) (keys : List ρ) (next : Script σ ε α) :
    ({ (solo tx call base s locked rest).hold tx r row with keys := keys }).proceed tx call next =
      solo tx call base ⟨keys, Function.update s.rows r row⟩ (r :: locked) next := by
  simp [solo, proceed, hold, update_soloRows]

/-- One access of a transaction that is alone. -/
theorem step_solo (body : κ → Script σ ε α) :
    (solo tx call base s locked rest).step body (.next tx) =
      (solo tx call base s locked rest).advance tx call rest := by
  simp [Concurrent.step, solo]

theorem performs_solo (h : Differs base s.rows locked) {result : α}
    (hperform : rest.perform s locked = some (result, s')) :
    ∃ n locked', Differs base s'.rows locked' ∧
      run (step body) (solo tx call base s locked rest) (List.replicate n (.next tx)) =
        solo tx call base s' locked' (.done result) := by
  -- each access of the script is one step of the run, so the count of steps grows with the script
  induction rest generalizing s locked with
  | done result' =>
      cases hperform
      exact ⟨0, locked, h, rfl⟩
  | fail error => cases hperform
  | look query next ih =>
      obtain ⟨n, locked', h', hrun⟩ := ih _ h hperform
      refine ⟨n + 1, locked', h', ?_⟩
      rw [List.replicate_succ, run_cons, step_solo, advance, solo_proceed, view_solo h]
      exact hrun
  | select r next ih =>
      rw [perform] at hperform
      cases hrow : s.rows r with
      | none =>
          rw [hrow] at hperform
          obtain ⟨n, locked', h', hrun⟩ := ih none h hperform
          refine ⟨n + 1, locked', h', ?_⟩
          rw [List.replicate_succ, run_cons, step_solo, advance, view_solo h, if_pos hrow,
            solo_proceed]
          exact hrun
      | some row =>
          rw [hrow] at hperform
          -- the row is held with the value that it has: what the transaction sees stays
          have hsame : Function.update s.rows r (some row) = s.rows := by
            rw [← hrow, Function.update_eq_self]
          obtain ⟨n, locked', h', hrun⟩ := ih (some row) (hsame ▸ h.update r (some row)) hperform
          refine ⟨n + 1, locked', h', ?_⟩
          have hstep := @solo_hold _ _ _ _ _ _ _ _ tx call base s locked (.select r next) r
            (some row) s.keys (next (some row))
          rw [hsame] at hstep
          have hsession := @session_soloRows _ _ _ _ _ tx base locked s.rows h r
          rw [List.replicate_succ, run_cons, step_solo, advance, view_solo h,
            if_neg (by rw [hrow]; exact Option.some_ne_none row)]
          simp only [solo, hsession, hrow]
          exact (congrArg (fun w => run (step body) w _) hstep).trans hrun
  | insertNew r row next ih =>
      rw [perform] at hperform
      cases hrow : s.rows r with
      | none =>
          rw [hrow] at hperform
          obtain ⟨n, locked', h', hrun⟩ := ih true (h.update r (some row)) hperform
          refine ⟨n + 1, locked', h', ?_⟩
          have hstep := @solo_hold _ _ _ _ _ _ _ _ tx call base s locked (.insertNew r row next) r
            (some row) (r :: s.keys) (next true)
          have hsession := @session_soloRows _ _ _ _ _ tx base locked s.rows h r
          rw [List.replicate_succ, run_cons, step_solo, advance, view_solo h,
            if_neg (not_not.mpr hrow)]
          simp only [solo, hsession, hrow]
          exact (congrArg (fun w => run (step body) w _) hstep).trans hrun
      | some old =>
          rw [hrow] at hperform
          obtain ⟨n, locked', h', hrun⟩ := ih false h hperform
          refine ⟨n + 1, locked', h', ?_⟩
          rw [List.replicate_succ, run_cons, step_solo, advance, view_solo h,
            if_pos (by rw [hrow]; exact Option.some_ne_none old), solo_proceed]
          exact hrun
  | write r row next ih =>
      rw [perform] at hperform
      split_ifs at hperform with hr
      obtain ⟨n, locked', h', hrun⟩ := ih (h.update r (some row)) hperform
      refine ⟨n + 1, locked', h', ?_⟩
      have hstep := @solo_hold _ _ _ _ _ _ _ _ tx call base s locked (.write r row next) r
        (some row) s.keys next
      have hheld : (solo tx call base s locked (.write r row next)).held tx r = some (s.rows r) := by
        simp [held, solo, soloRows, hr, RowLock.heldBy]
      rw [List.replicate_succ, run_cons, step_solo, advance, hheld]
      exact (congrArg (fun w => run (step body) w _) hstep).trans hrun

/-- The moves of a call that runs alone, with as many accesses as it takes. -/
def callAlone (tx : τ) (call : κ) (n : ℕ) : List (Move τ κ) :=
  .start tx call :: (List.replicate n (.next tx) ++ [.commit tx])

theorem step_start (body : κ → Script σ ε α) (tx : τ) (call : κ) (s : Snapshot σ) :
    (quiet s.keys s.rows : Concurrent τ κ σ ε α).step body (.start tx call) =
      solo tx call s.rows s [] (body call) := by
  have hfree : soloRows tx s.rows s.rows [] = fun r => .free (s.rows r) := by
    funext r
    simp [soloRows]
  simp [Concurrent.step, quiet, proceed, solo, hfree]

theorem step_commit (body : κ → Script σ ε α) (h : Differs base s.rows locked) (result : α) :
    (solo tx call base s locked (.done result)).step body (.commit tx) = quiet s.keys s.rows := by
  have hpublish : ∀ r, (soloRows tx base s.rows locked r).publish tx = .free (s.rows r) := by
    intro r
    unfold soloRows
    split_ifs with hr
    · simp [RowLock.publish, RowLock.heldBy]
    · simp [RowLock.publish, h r hr]
  simp [Concurrent.step, solo, quiet, hpublish]

/-- Accesses return nothing. -/
theorem returned_next (w : Concurrent τ κ σ ε α) (n : ℕ) :
    returned body w (List.replicate n (.next tx)) = [] := by
  induction n generalizing w with
  | zero => rfl
  | succ n ih =>
      rw [List.replicate_succ, returned, steps_cons, List.filterMap_cons_none rfl]
      exact ih _

/-- Alone, a call commits what its script performs. -/
theorem performs_call {result : α} (hperform : (body call).perform s [] = some (result, s')) :
    ∃ n, run (step body) (quiet s.keys s.rows) (callAlone tx call n) = quiet s'.keys s'.rows ∧
      returned body (quiet s.keys s.rows) (callAlone tx call n) = [(call, result)] := by
  have hstart : Differs s.rows s.rows [] := fun _ _ => rfl
  obtain ⟨n, locked', h', hrun⟩ := @performs_solo _ _ τ κ _ _ _ _ body tx call _ _ _ _ _ hstart _ hperform
  refine ⟨n, ?_, ?_⟩
  · rw [callAlone, run_cons, step_start, run_append, hrun, run_cons, run_nil, step_commit body h']
  · rw [callAlone, ← List.singleton_append, returned_append, run_cons, run_nil, step_start,
      returned_append, hrun, returned_next]
    simp [returned, commits, solo]

/-- Calls one after the other, each of which performs its script on whatever it finds. -/
theorem exists_serial (tx : τ) {calls : List κ}
    (hperform : ∀ call ∈ calls, ∀ s, ∃ result s', (body call).perform s [] = some (result, s'))
    (s : Snapshot σ) :
    ∃ moves : List (Move τ κ), (∀ move ∈ moves, Admits (· ∈ calls) move) ∧
      (returned body (quiet s.keys s.rows) moves).map Prod.fst = calls := by
  induction calls generalizing s with
  | nil => exact ⟨[], by simp, rfl⟩
  | cons call calls ih =>
      obtain ⟨result, s', hcall⟩ := hperform call List.mem_cons_self s
      obtain ⟨n, hrun, hreturned⟩ := @performs_call _ _ τ _ _ _ _ _ body tx _ _ _ _ hcall
      obtain ⟨moves, hmoves, hrest⟩ := ih
        (fun later hlater => hperform later (List.mem_cons_of_mem call hlater)) s'
      refine ⟨callAlone tx call n ++ moves, fun move hmove => ?_, ?_⟩
      · rcases List.mem_append.mp hmove with hmove | hmove
        · rcases List.mem_cons.mp hmove with rfl | hmove
          · exact List.mem_cons_self
          · rcases List.mem_append.mp hmove with hmove | hmove
            · rw [List.eq_of_mem_replicate hmove]
              trivial
            · rw [List.mem_singleton.mp hmove]
              trivial
        · have hadmits := hmoves move hmove
          cases move with
          | start tx later => exact List.mem_cons_of_mem call hadmits
          | next | commit | rollback => trivial
      · rw [returned_append, hrun, hreturned, List.map_append, hrest]
        rfl

end Concurrent

end Relational
