import DeathRoll.Relational.ReadCommitted

/-! # What a script has read

A plain `SELECT` leaves no trace in the rows: by the time its script commits, others may
have changed what it saw. Here the snapshots that a script has read are kept beside it. The
script that returns them with its result does in every interleaving what the script does,
so its postconditions may speak of them.
-/

namespace Relational

variable {ρ : Type} {σ : ρ → Type} {τ κ ε α β : Type}

namespace Script

/-- The script with the snapshots that it has read, after these, as part of its result. -/
def traced : Script σ ε α → List (Snapshot σ) → Script σ ε (α × List (Snapshot σ))
  | .done result, reads => .done (result, reads)
  | .fail error, _ => .fail error
  | .look query next, reads =>
      .look (fun s => (query s, s)) fun seen => (next seen.1).traced (reads ++ [seen.2])
  | .select r next, reads => .select r fun row => (next row).traced reads
  | .insertNew r row next, reads => .insertNew r row fun inserted => (next inserted).traced reads
  | .write r row next, reads => .write r row (next.traced reads)

/-- The script runs no plain `SELECT`. -/
def Silent : Script σ ε α → Prop
  | .done _ => True
  | .fail _ => True
  | .look _ _ => False
  | .select _ next => ∀ row, (next row).Silent
  | .insertNew _ _ next => ∀ inserted, (next inserted).Silent
  | .write _ _ next => next.Silent

theorem silent_pure (a : α) : (pure a : Script σ ε α).Silent := trivial

theorem silent_lock (r : ρ) : (lock r : Script σ ε (Option (σ r))).Silent := fun _ => trivial

theorem silent_raiseIf (c : Prop) [Decidable c] (e : ε) :
    (raiseIf c e : Script σ ε Unit).Silent := by
  unfold raiseIf
  split
  · trivial
  · trivial

theorem silent_require (e : ε) (o : Option α) : (require e o : Script σ ε α).Silent := by
  cases o with
  | none => trivial
  | some a => trivial

theorem silent_bind {x : Script σ ε α} {f : α → Script σ ε β} (hx : x.Silent)
    (hf : ∀ a, (f a).Silent) : (x >>= f).Silent := by
  change (x.bind f).Silent
  induction x with
  | done result => exact hf result
  | fail error => trivial
  | look query next ih => exact hx.elim
  | select r next ih => exact fun row => ih row (hx row)
  | insertNew r row next ih => exact fun inserted => ih inserted (hx inserted)
  | write r row next ih => exact ih hx

/-! ## Postconditions of what was read -/

section Post

variable [DecidableEq ρ] {S : Schema σ} {known : Set ρ} {rows : Rows σ}
  {reads : List (Snapshot σ)} {Q : α × List (Snapshot σ) → Set ρ → Rows σ → Prop}

theorem post_traced_bind (x : Script σ ε α) (f : α → Script σ ε β)
    {Q : β × List (Snapshot σ) → Set ρ → Rows σ → Prop} :
    ((x >>= f).traced reads).Post S Q known rows ↔
      (x.traced reads).Post S
        (fun out known' rows' => ((f out.1).traced out.2).Post S Q known' rows') known rows := by
  change ((x.bind f).traced reads).Post S Q known rows ↔ _
  induction x generalizing known rows reads with
  | done result => exact Iff.rfl
  | fail error => exact Iff.rfl
  | look query next ih =>
      refine forall₂_congr fun keys seen => ?_
      exact imp_congr_right fun _ => imp_congr_right fun _ => imp_congr_right fun _ =>
        ih (query ⟨keys, seen⟩)
  | select r next ih =>
      refine and_congr (imp_congr_right fun _ => ih none) (forall_congr' fun row => ?_)
      refine imp_congr_right fun _ => forall_congr' fun known' => ?_
      exact imp_congr_right fun _ => imp_congr_right fun _ => imp_congr_right fun _ =>
        ih (some row)
  | insertNew r row next ih =>
      refine and_congr (imp_congr_right fun _ => and_congr_right' (ih true)) ?_
      refine forall_congr' fun known' => ?_
      exact imp_congr_right fun _ => imp_congr_right fun _ => imp_congr_right fun _ => ih false
  | write r row next ih =>
      exact imp_congr_right fun _ => and_congr_right' (and_congr_right' ih)

/-- What a `SELECT` has read is kept for what follows. -/
theorem post_traced_see (query : Snapshot σ → α) (f : α → Script σ ε β)
    {Q : β × List (Snapshot σ) → Set ρ → Rows σ → Prop} :
    ((see query >>= f).traced reads).Post S Q known rows ↔
      ∀ keys seen, present seen ⊆ {r | r ∈ keys} → known ⊆ present seen → Older S seen rows →
        ((f (query ⟨keys, seen⟩)).traced (reads ++ [⟨keys, seen⟩])).Post S Q (present seen) rows :=
  Iff.rfl

theorem post_traced_pure (a : α) :
    ((pure a : Script σ ε α).traced reads).Post S Q known rows ↔ Q (a, reads) known rows := Iff.rfl

/-- What a silent script has read is what was read before. -/
theorem Silent.post_traced {x : Script σ ε α} (hx : x.Silent) :
    (x.traced reads).Post S Q known rows ↔
      x.Post S (fun a known' rows' => Q (a, reads) known' rows') known rows := by
  induction x generalizing known rows with
  | done result => exact Iff.rfl
  | fail error => exact Iff.rfl
  | look query next ih => exact hx.elim
  | select r next ih =>
      refine and_congr (imp_congr_right fun _ => ih none (hx none)) (forall₂_congr fun row _ => ?_)
      exact forall_congr' fun known' => imp_congr_right fun _ => imp_congr_right fun _ =>
        imp_congr_right fun _ => ih (some row) (hx (some row))
  | insertNew r row next ih =>
      refine and_congr (imp_congr_right fun _ => and_congr_right' (ih true (hx true))) ?_
      exact forall_congr' fun known' => imp_congr_right fun _ => imp_congr_right fun _ =>
        imp_congr_right fun _ => ih false (hx false)
  | write r row next ih =>
      exact imp_congr_right fun _ => and_congr_right' (and_congr_right' (ih hx))

theorem Silent.post_traced_bind {x : Script σ ε α} (hx : x.Silent) (f : α → Script σ ε β)
    {Q : β × List (Snapshot σ) → Set ρ → Rows σ → Prop} :
    ((x >>= f).traced reads).Post S Q known rows ↔
      x.Post S (fun a known' rows' => ((f a).traced reads).Post S Q known' rows') known rows :=
  (Script.post_traced_bind x f).trans hx.post_traced

/-- A script does what it does whether its reads are kept or not. -/
theorem Post.traced {x : Script σ ε α} {Q : α → Set ρ → Rows σ → Prop}
    (h : x.Post S Q known rows) (reads : List (Snapshot σ)) :
    (x.traced reads).Post S (fun out known' rows' => reads <+: out.2 ∧ Q out.1 known' rows') known
      rows := by
  induction x generalizing known rows reads with
  | done result => exact ⟨List.prefix_rfl, h⟩
  | fail error => trivial
  | look query next ih =>
      intro keys seen hkeys hknown hseen
      refine (ih _ (h keys seen hkeys hknown hseen) _).mono fun out known' rows' hout => ?_
      exact ⟨(List.prefix_append _ _).trans hout.1, hout.2⟩
  | select r next ih =>
      exact ⟨fun hnone => ih none (h.1 hnone) reads, fun row hrow known' hgrow hr hrefs =>
        ih (some row) (h.2 row hrow known' hgrow hr hrefs) reads⟩
  | insertNew r row next ih =>
      exact ⟨fun hfree => ⟨(h.1 hfree).1, ih true (h.1 hfree).2 reads⟩,
        fun known' hgrow hr hrow => ih false (h.2 known' hgrow hr hrow) reads⟩
  | write r row next ih => exact fun hr => ⟨(h hr).1, (h hr).2.1, ih (h hr).2.2 reads⟩

/-- What holds of a script with its reads holds of the script. -/
theorem Post.of_traced {x : Script σ ε α} {Q : α → Set ρ → Rows σ → Prop}
    (reads : List (Snapshot σ))
    (h : (x.traced reads).Post S (fun out known' rows' => Q out.1 known' rows') known rows) :
    x.Post S Q known rows := by
  induction x generalizing known rows reads with
  | done result => exact h
  | fail error => trivial
  | look query next ih =>
      exact fun keys seen hkeys hknown hseen => ih _ _ (h keys seen hkeys hknown hseen)
  | select r next ih =>
      exact ⟨fun hnone => ih none reads (h.1 hnone), fun row hrow known' hgrow hr hrefs =>
        ih (some row) reads (h.2 row hrow known' hgrow hr hrefs)⟩
  | insertNew r row next ih =>
      exact ⟨fun hfree => ⟨(h.1 hfree).1, ih true reads (h.1 hfree).2⟩,
        fun known' hgrow hr hrow => ih false reads (h.2 known' hgrow hr hrow)⟩
  | write r row next ih => exact fun hr => ⟨(h hr).1, (h hr).2.1, ih reads (h hr).2.2⟩

end Post

end Script

/-! ## Every interleaving -/

namespace Concurrent

variable [DecidableEq τ] [DecidableEq ρ]

/-- What a call in flight has read, after one more access. -/
def readsAfter (w : Concurrent τ κ σ ε α) (tx : τ) (rest : Script σ ε α)
    (own : List (Snapshot σ)) : List (Snapshot σ) :=
  match rest with
  | .look _ _ => own ++ [⟨w.keys, w.view tx⟩]
  | _ => own

/-- What the calls in flight have read, after one more move. -/
def noting (w : Concurrent τ κ σ ε α) (reads : τ → List (Snapshot σ)) :
    Move τ κ → τ → List (Snapshot σ)
  | .start tx _ =>
      match w.running tx with
      | none => Function.update reads tx []
      | some _ => reads
  | .next tx =>
      match w.running tx with
      | none => reads
      | some (_, rest) => Function.update reads tx (w.readsAfter tx rest (reads tx))
  | .commit _ => reads
  | .rollback _ => reads

/-- The snapshots that the calls in flight have read in a run, in this order. -/
def noted (body : κ → Script σ ε α) (w : Concurrent τ κ σ ε α) (moves : List (Move τ κ)) :
    τ → List (Snapshot σ) :=
  (steps (step body) w moves).foldl (fun reads taken => taken.1.noting reads taken.2) fun _ => []

/-- The same rows and locks, and every call in flight with what it has read. -/
def withReads (w : Concurrent τ κ σ ε α) (reads : τ → List (Snapshot σ)) :
    Concurrent τ κ σ ε (α × List (Snapshot σ)) :=
  ⟨w.keys, w.rows, fun tx => (w.running tx).map fun flight =>
    (flight.1, flight.2.traced (reads tx))⟩

variable {w : Concurrent τ κ σ ε α} {reads : τ → List (Snapshot σ)} {tx : τ} {call : κ}

omit [DecidableEq ρ] in
theorem withReads_proceed (w : Concurrent τ κ σ ε α) (reads : τ → List (Snapshot σ)) (tx : τ)
    (call : κ) (rest : Script σ ε α) (own : List (Snapshot σ)) :
    (w.proceed tx call rest).withReads (Function.update reads tx own) =
      (w.withReads reads).proceed tx call (rest.traced own) := by
  unfold withReads proceed
  congr 1
  funext other
  by_cases hother : other = tx
  · subst hother
    simp
  · simp [hother]

omit [DecidableEq ρ] in
theorem withReads_proceed_same (w : Concurrent τ κ σ ε α) (reads : τ → List (Snapshot σ)) (tx : τ)
    (call : κ) (rest : Script σ ε α) :
    (w.proceed tx call rest).withReads reads =
      (w.withReads reads).proceed tx call (rest.traced (reads tx)) := by
  rw [← withReads_proceed, Function.update_eq_self]

omit [DecidableEq τ] [DecidableEq ρ] in
theorem withReads_running (w : Concurrent τ κ σ ε α) (reads : τ → List (Snapshot σ)) (tx : τ) :
    (w.withReads reads).running tx =
      (w.running tx).map fun flight => (flight.1, flight.2.traced (reads tx)) := rfl

theorem advance_withReads (w : Concurrent τ κ σ ε α) (reads : τ → List (Snapshot σ)) (tx : τ)
    (call : κ) (rest : Script σ ε α) :
    (w.withReads reads).advance tx call (rest.traced (reads tx)) =
      (w.advance tx call rest).withReads
        (Function.update reads tx (w.readsAfter tx rest (reads tx))) := by
  have hproceed : ∀ (w' : Concurrent τ κ σ ε α) (rest' : Script σ ε α),
      (w'.withReads reads).proceed tx call (rest'.traced (reads tx)) =
        (w'.proceed tx call rest').withReads reads :=
    fun w' rest' => (withReads_proceed_same w' reads tx call rest').symm
  cases rest with
  | done result => simp [advance, Script.traced, readsAfter]
  | fail error => simp [advance, Script.traced, readsAfter]
  | look query next => exact (withReads_proceed w reads tx call _ _).symm
  | select r next =>
      simp only [readsAfter, Function.update_eq_self]
      by_cases hnone : w.view tx r = none
      · have hnone' : (w.withReads reads).view tx r = none := hnone
        rw [Script.traced, advance, if_pos hnone', advance, if_pos hnone]
        exact hproceed w _
      · have hnone' : (w.withReads reads).view tx r ≠ none := hnone
        rw [Script.traced, advance, if_neg hnone', advance, if_neg hnone]
        cases hsession : (w.rows r).session id tx with
        | none =>
            have hsession' : ((w.withReads reads).rows r).session id tx = none := hsession
            rw [hsession']
        | some row =>
            have hsession' : ((w.withReads reads).rows r).session id tx = some row := hsession
            rw [hsession']
            exact hproceed (w.hold tx r row) _
  | insertNew r row next =>
      simp only [readsAfter, Function.update_eq_self]
      by_cases hvisible : w.view tx r ≠ none
      · have hvisible' : (w.withReads reads).view tx r ≠ none := hvisible
        rw [Script.traced, advance, if_pos hvisible', advance, if_pos hvisible]
        exact hproceed w _
      · have hvisible' : ¬ (w.withReads reads).view tx r ≠ none := hvisible
        rw [Script.traced, advance, if_neg hvisible', advance, if_neg hvisible]
        cases hsession : (w.rows r).session id tx with
        | none =>
            have hsession' : ((w.withReads reads).rows r).session id tx = none := hsession
            rw [hsession']
        | some before =>
            have hsession' : ((w.withReads reads).rows r).session id tx = some before := hsession
            rw [hsession']
            exact hproceed ((w.enter r).hold tx r (some row)) _
  | write r row next =>
      simp only [readsAfter, Function.update_eq_self]
      rw [Script.traced, advance, advance]
      cases hheld : w.held tx r with
      | none =>
          have hheld' : (w.withReads reads).held tx r = none := hheld
          rw [hheld']
      | some mine =>
          have hheld' : (w.withReads reads).held tx r = some mine := hheld
          rw [hheld']
          exact hproceed (w.hold tx r (some row)) _

/-- The script with its reads takes every step that the script takes. -/
theorem step_withReads (body : κ → Script σ ε α) (w : Concurrent τ κ σ ε α)
    (reads : τ → List (Snapshot σ)) (move : Move τ κ) :
    (w.withReads reads).step (fun call => (body call).traced []) move =
      (w.step body move).withReads (w.noting reads move) := by
  have hended : ∀ tx, Function.update (w.withReads reads).running tx none =
      fun other => (Function.update w.running tx none other).map fun flight =>
        (flight.1, flight.2.traced (reads other)) := by
    intro tx
    funext other
    by_cases hother : other = tx
    · subst hother
      simp
    · simp [hother, withReads]
  cases move with
  | start tx call =>
      cases hrunning : w.running tx with
      | none =>
          simp only [step, noting, withReads_running, hrunning, Option.map_none]
          exact (withReads_proceed w reads tx call (body call) []).symm
      | some flight => simp only [step, noting, withReads_running, hrunning, Option.map_some]
  | next tx =>
      cases hrunning : w.running tx with
      | none => simp only [step, noting, withReads_running, hrunning, Option.map_none]
      | some flight =>
          simp only [step, noting, withReads_running, hrunning, Option.map_some]
          exact advance_withReads w reads tx flight.1 flight.2
  | commit tx =>
      cases hrunning : w.running tx with
      | none => simp only [step, noting, withReads_running, hrunning, Option.map_none]
      | some flight =>
          rcases flight with ⟨call, rest⟩
          cases rest with
          | done result =>
              simp only [step, noting, withReads_running, hrunning, Option.map_some, Script.traced,
                hended]
              rfl
          | _ =>
              simp only [step, noting, withReads_running, hrunning, Option.map_some, Script.traced]
  | rollback tx =>
      simp only [step, noting, hended]
      rfl

theorem noted_append_singleton (body : κ → Script σ ε α) (w : Concurrent τ κ σ ε α)
    (moves : List (Move τ κ)) (move : Move τ κ) :
    noted body w (moves ++ [move]) =
      (run (step body) w moves).noting (noted body w moves) move := by
  rw [noted, steps_append, List.foldl_append]
  rfl

theorem run_withReads (body : κ → Script σ ε α) (keys : List ρ) (rows : Rows σ)
    (moves : List (Move τ κ)) :
    run (step fun call => (body call).traced []) (quiet keys rows) moves =
      (run (step body) (quiet keys rows) moves).withReads (noted body (quiet keys rows) moves) := by
  induction moves using List.reverseRecOn with
  | nil => rfl
  | append_singleton moves move ih =>
      rw [run_append, run_cons, run_nil, ih, step_withReads, ← noted_append_singleton, run_append,
        run_cons, run_nil]

omit [DecidableEq τ] [DecidableEq ρ] in
theorem commits_withReads {w : Concurrent τ κ σ ε α} {tx : τ} {call : κ} {result : α}
    (hcommits : w.commits (.commit tx) = some (call, result)) (reads : τ → List (Snapshot σ)) :
    (w.withReads reads).commits (.commit tx) = some (call, (result, reads tx)) := by
  obtain ⟨_, ⟨⟩, hrunning⟩ := commits_eq_some hcommits
  simp only [commits, withReads_running, hrunning, Option.map_some, Script.traced]

/-- Every commit of a run acts on the rows committed then and on what its call has read. -/
theorem commits_acts_noted {S : Schema σ} {body : κ → Script σ ε α} {keys : List ρ} {rows : Rows σ}
    {Q : κ → Rows σ → α × List (Snapshot σ) → Rows σ → Prop}
    (hbody : Describes S rows Q fun call => (body call).traced []) (hrows : Consistent S keys rows)
    {first : List (Move τ κ)} {tx : τ} {call : κ} {result : α}
    (hcommits : (run (step body) (quiet keys rows) first).commits (.commit tx) =
      some (call, result)) :
    Q call (run (step body) (quiet keys rows) first).committed
      (result, noted body (quiet keys rows) first tx)
      (run (step body) (quiet keys rows) (first ++ [.commit tx])).committed := by
  have hacts := (sound_run hbody hrows first).commits_acts hbody
    (run_withReads body keys rows first ▸ commits_withReads hcommits _)
  rw [run_withReads, step_withReads] at hacts
  rw [run_append, run_cons, run_nil]
  exact hacts

end Concurrent

end Relational
