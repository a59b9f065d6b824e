import DeathRoll.Ledger.Runs
import DeathRoll.Relational.Worker

/-! # Passes of the background workers

A tick lists rows in one statement and opens a transaction for each. `dw_manager` turns
a `RaiseError` into a `BalanceError`, which every worker catches, logs and passes over;
any other error leaves the tick.
-/

namespace DeathRoll

open Relational

/-- A command with what it returns. -/
def Command.exec (s : Database) : Command → Except DbError Unit × Database
  | .call env c => c.exec env s
  | .config write => (.ok (), write.apply s)

/-- A worker's transactions, one for each listed row. -/
def pass (s : Database) (attempts : List (Attempt Command)) : Progress Database Command DbError :=
  work Command.exec DbError.IsRaise s attempts

/-- The session of a worker's transaction: the same database settings at another time. -/
def Env.at (env : Env) (now : Timestamp) : Env := { env with now := now }

/-- The pass comes to a job, `before` being all that is committed since it began. -/
def ComesTo (s : Database) (attempts : List (Attempt Command)) (attempt : Attempt Command)
    (before : List Command) : Prop :=
  ∃ earlier later, attempts = earlier ++ attempt :: later ∧ (pass s earlier).error = none ∧
    before = earlier.flatMap Attempt.commands ++ attempt.others

variable {s : Database}

theorem after_exec : after Command.exec = step := by
  funext s command
  cases command <;> rfl

theorem ComesTo.mem {attempts : List (Attempt Command)} {attempt : Attempt Command}
    {before : List Command} (hcomes : ComesTo s attempts attempt before) : attempt ∈ attempts := by
  obtain ⟨earlier, later, rfl, -, -⟩ := hcomes
  simp

/-- The transactions of a pass that committed, each with the state it met. -/
theorem mem_acted_pass {attempts : List (Attempt Command)} {trial : Database × Command} :
    trial ∈ (pass s attempts).acted ↔
      ∃ attempt before, ComesTo s attempts attempt before ∧
        trial = (run step s before, attempt.command) ∧
        (Command.exec (run step s before) attempt.command).1 = .ok () := by
  have hmet : ∀ {earlier : List (Attempt Command)} {attempt : Attempt Command},
      (pass s earlier).error = none →
      attempt.met Command.exec (pass s earlier).state =
        run step s (earlier.flatMap Attempt.commands ++ attempt.others) := by
    intro earlier attempt hfinished
    rw [run_append, ← after_exec, ← work_state_of_finished hfinished]
    rfl
  have hisOk : ∀ result : Except DbError Unit, result.isOk ↔ result = .ok () := by
    intro result
    cases result <;> simp [Except.isOk, Except.toBool]
  simp only [pass, work_acted, List.mem_filter, mem_tried, hisOk]
  constructor
  · rintro ⟨⟨earlier, attempt, later, hsplit, hfinished, rfl⟩, hok⟩
    refine ⟨attempt, _, ⟨earlier, later, hsplit, hfinished, rfl⟩, ?_, ?_⟩
    · rw [← hmet hfinished]
      rfl
    · rw [← hmet hfinished]
      exact hok
  · rintro ⟨attempt, before, ⟨earlier, later, hsplit, hfinished, rfl⟩, rfl, hok⟩
    rw [← hmet hfinished] at hok ⊢
    exact ⟨⟨earlier, attempt, later, hsplit, hfinished, rfl⟩, hok⟩

@[simp] theorem now_at (env : Env) (now : Timestamp) : (env.at now).now = now := rfl

end DeathRoll
