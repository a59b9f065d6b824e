import DeathRoll.Relational.ReadCommitted
import DeathRoll.Relational.Transaction

/-! # Serial replays

One procedure twice: as a script over locked rows, and as the body of a
transaction over a whole state. The body matches the script when, wherever the
script commits, the body returns and leaves a state that stands for the rows of
the commit. Bodies that match make every interleaving of the scripts a serial run
of the bodies, in the order of the commits.
-/

namespace Relational

open Script

variable {ρ : Type} {σ : ρ → Type} {ς ε δ α β γ θ : Type}

section Matched

variable [DecidableEq ρ] (S : Schema σ)

/-- Wherever the script commits, the body returns from `s`, and `next` is about what
the two of them leave. -/
def Script.MatchedBy (next : α → β → Set ρ → Rows σ → ς → Prop) (x : Script σ ε α)
    (t : Tx ς δ β) (known : Set ρ) (rows : Rows σ) (s : ς) : Prop :=
  x.Post S (fun a known' rows' =>
    t.wp (fun b s' => next a b known' rows' s') (fun _ => False) s) known rows

namespace Script

variable {S} {next : γ → θ → Set ρ → Rows σ → ς → Prop} {known : Set ρ} {rows : Rows σ} {s : ς}

theorem MatchedBy.mono {x : Script σ ε γ} {t : Tx ς δ θ}
    {next' : γ → θ → Set ρ → Rows σ → ς → Prop} (h : x.MatchedBy S next t known rows s)
    (hnext : ∀ a b known' rows' s', next a b known' rows' s' → next' a b known' rows' s') :
    x.MatchedBy S next' t known rows s :=
  Post.mono h fun _ _ _ hwp => Tx.wp_mono hwp (fun _ _ => hnext _ _ _ _ _) fun _ hfalse => hfalse

/-- The body goes on alone. -/
theorem matchedBy_right {x : Script σ ε γ} {t : Tx ς δ β} {g : β → Tx ς δ θ}
    (h : t.wp (fun b s' => x.MatchedBy S next (g b) known rows s') (fun _ => False) s) :
    x.MatchedBy S next (t >>= g) known rows s := by
  obtain ⟨b, s', hrun, hx⟩ := Tx.exists_outcome_of_wp h
  refine Post.mono hx fun a known' rows' hwp => ?_
  rw [Tx.wp_bind, Tx.wp, hrun]
  exact hwp

/-- The script goes on alone. -/
theorem matchedBy_left {x : Script σ ε α} {f : α → Script σ ε γ} {t : Tx ς δ θ}
    (h : x.Post S (fun a known' rows' => (f a).MatchedBy S next t known' rows' s) known rows) :
    (x >>= f).MatchedBy S next t known rows s :=
  (post_bind x f).mpr h

/-- Both go on: what the first parts leave, the rests match. -/
theorem matchedBy_bind {x : Script σ ε α} {f : α → Script σ ε γ} {t : Tx ς δ β}
    {g : β → Tx ς δ θ}
    (h : x.MatchedBy S
      (fun a b known' rows' s' => (f a).MatchedBy S next (g b) known' rows' s') t known rows s) :
    (x >>= f).MatchedBy S next (t >>= g) known rows s := by
  rw [MatchedBy, post_bind]
  refine Post.mono h fun a known₁ rows₁ hwp => ?_
  obtain ⟨b, s₁, hrun, hrest⟩ := Tx.exists_outcome_of_wp hwp
  refine Post.mono hrest fun c known₂ rows₂ hwp₂ => ?_
  rw [Tx.wp_bind, Tx.wp, hrun]
  exact hwp₂

theorem matchedBy_pure {c : γ} {d : θ} (h : next c d known rows s) :
    (pure c : Script σ ε γ).MatchedBy S next (pure d : Tx ς δ θ) known rows s := h

/-- The body drops its result. -/
theorem matchedBy_drop {next : γ → Unit → Set ρ → Rows σ → ς → Prop} {x : Script σ ε γ}
    {t : Tx ς δ β} (h : x.MatchedBy S (fun c _ => next c ()) t known rows s) :
    x.MatchedBy S next (do let _ ← t) known rows s :=
  Post.mono h fun _ _ _ hwp => (Tx.wp_bind t _).mpr hwp

/-- A script that raises never commits. -/
theorem matchedBy_fail (e : ε) (t : Tx ς δ θ) :
    (fail e : Script σ ε γ).MatchedBy S next t known rows s := trivial

theorem matchedBy_get {x : Script σ ε γ} {g : ς → Tx ς δ θ}
    (h : x.MatchedBy S next (g s) known rows s) :
    x.MatchedBy S next (get >>= g) known rows s :=
  matchedBy_right (Tx.wp_get.mpr h)

/-- `SELECT`: of what was visible, what has been seen is still there. -/
theorem matchedBy_see {query : Snapshot σ → α} {f : α → Script σ ε γ} {t : Tx ς δ θ}
    (h : ∀ keys seen, present seen ⊆ {r | r ∈ keys} → known ⊆ present seen → Older S seen rows →
      (f (query ⟨keys, seen⟩)).MatchedBy S next t (present seen) rows s) :
    (see query >>= f).MatchedBy S next t known rows s :=
  matchedBy_left h

/-- `SELECT ... FOR UPDATE` of a row that is known. -/
theorem matchedBy_lock {r : ρ} (hr : r ∈ known) {f : Option (σ r) → Script σ ε γ} {t : Tx ς δ θ}
    (h : ∀ row known', rows r = some row → known ⊆ known' → r ∈ known' → S.refs r row ⊆ known' →
      (f (some row)).MatchedBy S next t known' rows s) :
    (lock r >>= f).MatchedBy S next t known rows s := by
  apply matchedBy_left
  rw [post_lock]
  exact ⟨fun hnone => (hnone hr).elim, fun row hrow known' hgrow hr' hrefs =>
    h row known' hrow hgrow hr' hrefs⟩

/-- `SELECT ... INTO STRICT ... FOR UPDATE`: a row, or the error. -/
theorem matchedBy_lockOrRaise {r : ρ} {e : ε} {f : σ r → Script σ ε γ} {t : Tx ς δ θ}
    (h : ∀ row known', rows r = some row → known ⊆ known' → r ∈ known' → S.refs r row ⊆ known' →
      (f row).MatchedBy S next t known' rows s) :
    (do f (← require e (← lock r))).MatchedBy S next t known rows s := by
  apply matchedBy_left
  rw [post_lock]
  exact ⟨fun _ => trivial, fun row hrow known' hgrow hr hrefs =>
    h row known' hrow hgrow hr hrefs⟩

theorem matchedBy_require {next : α → β → Set ρ → Rows σ → ς → Prop} {o : Option α} {o' : Option β}
    {e : ε} {e' : δ} (h : ∀ a, o = some a → ∃ b, o' = some b ∧ next a b known rows s) :
    (require e o).MatchedBy S next (Tx.require e' o') known rows s := by
  rw [MatchedBy, post_require]
  intro a ha
  obtain ⟨b, rfl, hnext⟩ := h a ha
  exact hnext

/-- `IF c THEN RAISE e; END IF` in both, when the body raises only where the script does. -/
theorem matchedBy_raise {c c' : Prop} [Decidable c] [Decidable c'] {e : ε} {e' : δ}
    {x : Script σ ε γ} {t : Tx ς δ θ} (hraise : c' → c)
    (h : ¬ c → x.MatchedBy S next t known rows s) :
    (do raiseIf c e; x).MatchedBy S next (do Tx.raiseIf c' e'; t) known rows s := by
  apply matchedBy_bind
  rw [MatchedBy, post_raiseIf]
  intro hc
  rw [Tx.wp_raiseIf]
  exact ⟨fun hc' => hc (hraise hc'), fun _ => h hc⟩

theorem matchedBy_ite {c c' : Prop} [Decidable c] [Decidable c'] (hiff : c ↔ c')
    {x y : Script σ ε γ} {t u : Tx ς δ θ} (hx : c → x.MatchedBy S next t known rows s)
    (hy : ¬ c → y.MatchedBy S next u known rows s) :
    (if c then x else y).MatchedBy S next (if c' then t else u) known rows s := by
  by_cases hc : c
  · rw [if_pos hc, if_pos (hiff.mp hc)]
    exact hx hc
  · rw [if_neg hc, if_neg (hiff.not.mp hc)]
    exact hy hc

theorem matchedBy_ifDo {next : Unit → Unit → Set ρ → Rows σ → ς → Prop} {c c' : Prop}
    [Decidable c] [Decidable c'] (hiff : c ↔ c') {x : Script σ ε Unit} {t : Tx ς δ Unit}
    (hx : c → x.MatchedBy S next t known rows s) (hy : ¬ c → next () () known rows s) :
    (ifDo c x).MatchedBy S next (Tx.ifDo c' t) known rows s :=
  matchedBy_ite hiff hx hy

end Script

end Matched

/-! ## Replaying a run -/

namespace Concurrent

variable {τ κ ℓ : Type} [DecidableEq τ] [DecidableEq ρ] {S : Schema σ} {keys : List ρ}
  {rows : Rows σ} {body : κ → Script σ ε α} {s : ς}

/-- The calls that returned, in this order, as commands. -/
def replayed (command : κ → ℓ) (body : κ → Script σ ε α) (w : Concurrent τ κ σ ε α)
    (moves : List (Move τ κ)) : List ℓ :=
  (returned body w moves).map fun taken => command taken.1

/-- Calls that can be replayed wherever they commit are, over any interleaving, replayed
one after the other in the order of their commits. -/
theorem sound_replay {stands : Rows σ → ς → Prop} {replay : ς → ℓ → ς} {command : κ → ℓ}
    {ok : ς → ℓ → Prop}
    (hbody : ∀ before s, Older S rows before → stands before s →
      DescribesAt S rows before
        (fun call _ after => ok s (command call) ∧ stands after (replay s (command call))) body)
    (hrows : Consistent S keys rows) (hs : stands rows s) (moves : List (Move τ κ)) :
    (run (step body) (quiet keys rows : Concurrent τ κ σ ε α) moves).Sound S rows body ∧
      stands (run (step body) (quiet keys rows) moves).committed
        (run replay s (replayed command body (quiet keys rows) moves)) ∧
      ∀ taken ∈ steps replay s (replayed command body (quiet keys rows) moves),
        ok taken.1 taken.2 := by
  induction moves using List.reverseRecOn with
  | nil => exact ⟨sound_quiet body hrows, hs, fun taken htaken => (List.not_mem_nil htaken).elim⟩
  | append_singleton moves move ih =>
      obtain ⟨hsound, hstands, hok⟩ := ih
      have hhere := hbody _ _ hsound.base_older hstands
      have happend : replayed command body (quiet keys rows) (moves ++ [move]) =
          replayed command body (quiet keys rows) moves ++
            replayed command body (run (step body) (quiet keys rows) moves) [move] := by
        rw [replayed, returned_append, List.map_append, replayed, replayed]
      rw [happend, run_append, run_cons, run_nil]
      refine ⟨hsound.step_at hhere move, ?_⟩
      cases hcommits : Concurrent.commits (run (step body) (quiet keys rows) moves) move with
      | none =>
          have hnone : replayed command body (run (step body) (quiet keys rows) moves) [move] =
              [] := by
            simp [replayed, returned, hcommits]
          rw [committed_step_of_commits_eq_none body hcommits, hnone, List.append_nil]
          exact ⟨hstands, hok⟩
      | some done =>
          rcases done with ⟨call, result⟩
          obtain ⟨hcall, hafter⟩ := hsound.commits_acts_at hhere hcommits
          have hone : replayed command body (run (step body) (quiet keys rows) moves) [move] =
              [command call] := by
            simp [replayed, returned, hcommits]
          simp only [hone, run_append, run_cons, run_nil, steps_append, steps_cons, steps_nil,
            List.mem_append, List.mem_singleton]
          refine ⟨hafter, ?_⟩
          rintro taken (htaken | rfl)
          · exact hok taken htaken
          · exact hcall

end Concurrent

end Relational
