import Mathlib.Algebra.BigOperators.Group.List.Basic

/-! # Runs of a deterministic machine

A run feeds a list of commands to a step function. Two rules cover whole runs:
an invariant kept by every step holds in every state reached, and a measure that
every step changes by a known amount changes over the run by the total.
-/

namespace Relational

variable {σ ℓ M : Type*} (step : σ → ℓ → σ)

/-- The state after a list of commands. -/
def run (s : σ) (commands : List ℓ) : σ := commands.foldl step s

/-- The steps of a run: every command with the state it meets. -/
def steps : σ → List ℓ → List (σ × ℓ)
  | _, [] => []
  | s, command :: rest => (s, command) :: steps (step s command) rest

@[simp] theorem run_nil (s : σ) : run step s [] = s := rfl

@[simp] theorem run_cons (s : σ) (command : ℓ) (rest : List ℓ) :
    run step s (command :: rest) = run step (step s command) rest := rfl

@[simp] theorem steps_nil (s : σ) : steps step s [] = [] := rfl

@[simp] theorem steps_cons (s : σ) (command : ℓ) (rest : List ℓ) :
    steps step s (command :: rest) = (s, command) :: steps step (step s command) rest := rfl

theorem run_append (s : σ) (first second : List ℓ) :
    run step s (first ++ second) = run step (run step s first) second :=
  List.foldl_append

theorem steps_append (s : σ) (first second : List ℓ) :
    steps step s (first ++ second) = steps step s first ++ steps step (run step s first) second := by
  induction first generalizing s with
  | nil => rfl
  | cons command rest ih => simp [ih]

/-- Every step of a run splits it: the commands before lead to the state met. -/
theorem exists_split_of_mem_steps {s before : σ} {commands : List ℓ} {command : ℓ}
    (hmem : (before, command) ∈ steps step s commands) :
    ∃ first rest, commands = first ++ command :: rest ∧ run step s first = before := by
  induction commands generalizing s with
  | nil => simp at hmem
  | cons head tail ih =>
      rw [steps_cons, List.mem_cons] at hmem
      rcases hmem with heq | hmem
      · cases heq
        exact ⟨[], tail, rfl, rfl⟩
      · obtain ⟨first, rest, hsplit, hrun⟩ := ih hmem
        exact ⟨head :: first, rest, by rw [hsplit]; rfl, hrun⟩

variable {step}

/-- Induction on a run for an invariant whose steps may use what holds whenever
the run takes a step. -/
theorem run_invariant_of_steps {inv : σ → Prop} {ok : σ → ℓ → Prop}
    (hstep : ∀ s command, ok s command → inv s → inv (step s command))
    {s : σ} (hs : inv s) {commands : List ℓ}
    (hok : ∀ before command, (before, command) ∈ steps step s commands → ok before command) :
    inv (run step s commands) := by
  induction commands generalizing s with
  | nil => exact hs
  | cons command rest ih =>
      apply ih
      · exact hstep s command (hok s command List.mem_cons_self) hs
      · intro before later hlater
        exact hok before later (List.mem_cons_of_mem _ hlater)

/-- The invariant holds at every step of the run, not only at its end. -/
theorem steps_invariant_of_steps {inv : σ → Prop} {ok : σ → ℓ → Prop}
    (hstep : ∀ s command, ok s command → inv s → inv (step s command))
    {s : σ} (hs : inv s) {commands : List ℓ}
    (hok : ∀ before command, (before, command) ∈ steps step s commands → ok before command)
    {before : σ} {command : ℓ} (hmem : (before, command) ∈ steps step s commands) :
    inv before := by
  obtain ⟨first, rest, hsplit, rfl⟩ := exists_split_of_mem_steps step hmem
  apply run_invariant_of_steps hstep hs
  intro earlier command hearlier
  apply hok
  rw [hsplit, steps_append]
  exact List.mem_append_left _ hearlier

theorem mem_of_mem_steps {s before : σ} {commands : List ℓ} {command : ℓ}
    (hmem : (before, command) ∈ steps step s commands) : command ∈ commands := by
  obtain ⟨first, rest, hsplit, -⟩ := exists_split_of_mem_steps step hmem
  rw [hsplit]
  exact List.mem_append_right _ List.mem_cons_self

/-- Induction on a run for an invariant whose steps may use what the commands satisfy. -/
theorem run_invariant {inv : σ → Prop} {allowed : ℓ → Prop}
    (hstep : ∀ s command, allowed command → inv s → inv (step s command))
    {s : σ} (hs : inv s) {commands : List ℓ} (hallowed : ∀ command ∈ commands, allowed command) :
    inv (run step s commands) :=
  run_invariant_of_steps hstep hs fun _ command hmem => hallowed command (mem_of_mem_steps hmem)

/-- Accounting: if every step moves a measure by `delta`, a run moves it by the
sum of its steps' deltas. -/
theorem run_accounts [AddCommMonoid M] {inv : σ → Prop} {allowed : ℓ → Prop} (measure : σ → M)
    (delta : σ → ℓ → M)
    (hstep : ∀ s command, allowed command → inv s → inv (step s command))
    (hdelta : ∀ s command, allowed command → inv s →
      measure (step s command) = measure s + delta s command)
    {s : σ} (hs : inv s) {commands : List ℓ} (hallowed : ∀ command ∈ commands, allowed command) :
    measure (run step s commands) =
      measure s + ((steps step s commands).map fun taken => delta taken.1 taken.2).sum := by
  induction commands generalizing s with
  | nil => simp
  | cons command rest ih =>
      have hcommand := hallowed command List.mem_cons_self
      rw [run_cons, ih (hstep s command hcommand hs)
        (fun later hlater => hallowed later (List.mem_cons_of_mem command hlater)),
        hdelta s command hcommand hs, steps_cons, List.map_cons, List.sum_cons, add_assoc]

end Relational
