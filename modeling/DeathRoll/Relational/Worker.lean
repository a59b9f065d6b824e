import DeathRoll.Relational.Run

/-! # Working off a list

A worker reads a list of jobs and then runs one transaction for each. Others run
transactions of their own in between. An error that the worker catches costs only the
job it befell; any other error ends the pass. Two rules cover whole passes: what every
transaction keeps, the pass keeps; and a pass whose jobs all succeed in turn ends with
all of them done.
-/

namespace Relational

variable {σ ℓ ε : Type*}

/-- A job when its turn comes: what others have done by then, and its own command. -/
structure Attempt (ℓ : Type*) where
  others : List ℓ
  command : ℓ

/-- How a pass ends: the state, the worker's transactions with the states they met,
those of them that committed, and the error that ended the pass. -/
structure Progress (σ ℓ ε : Type*) where
  state : σ
  tried : List (σ × ℓ)
  acted : List (σ × ℓ)
  error : Option ε

variable (exec : σ → ℓ → Except ε Unit × σ) (caught : ε → Bool)

/-- The state after one command, whatever it returned. -/
def after (s : σ) (command : ℓ) : σ := (exec s command).2

/-- All that is committed up to a job's own command. -/
def Attempt.commands (attempt : Attempt ℓ) : List ℓ := attempt.others ++ [attempt.command]

/-- The state that a job's transaction meets. -/
def Attempt.met (attempt : Attempt ℓ) (s : σ) : σ := run (after exec) s attempt.others

/-- One pass over the jobs. -/
def work : σ → List (Attempt ℓ) → Progress σ ℓ ε
  | s, [] => ⟨s, [], [], none⟩
  | s, attempt :: rest =>
      let met := attempt.met exec s
      let trial := (met, attempt.command)
      match exec met attempt.command with
      | (.ok (), s') =>
          let later := work s' rest
          { later with tried := trial :: later.tried, acted := trial :: later.acted }
      | (.error e, s') =>
          if caught e then
            let later := work s' rest
            { later with tried := trial :: later.tried }
          else ⟨s', [trial], [], some e⟩

variable {exec caught} {s : σ} {attempt : Attempt ℓ} {rest attempts : List (Attempt ℓ)}

@[simp] theorem work_nil (s : σ) : work exec caught s [] = ⟨s, [], [], none⟩ := rfl

/-- A pass and then, unless an error ended it, another. -/
def Progress.andThen (first : Progress σ ℓ ε) (next : σ → Progress σ ℓ ε) : Progress σ ℓ ε :=
  match first.error with
  | some _ => first
  | none =>
      let later := next first.state
      ⟨later.state, first.tried ++ later.tried, first.acted ++ later.acted, later.error⟩

variable {first : Progress σ ℓ ε} {next : σ → Progress σ ℓ ε}

theorem Progress.andThen_of_finished (hfirst : first.error = none) :
    first.andThen next = ⟨(next first.state).state, first.tried ++ (next first.state).tried,
      first.acted ++ (next first.state).acted, (next first.state).error⟩ := by
  rw [andThen, hfirst]

theorem Progress.tried_subset_andThen : first.tried ⊆ (first.andThen next).tried := by
  rw [andThen]
  split
  next => exact List.Subset.refl _
  next => exact List.subset_append_left _ _

theorem work_cons_ok (hok : (exec (attempt.met exec s) attempt.command).1 = .ok ()) :
    work exec caught s (attempt :: rest) =
      { work exec caught (after exec (attempt.met exec s) attempt.command) rest with
        tried := (attempt.met exec s, attempt.command) ::
          (work exec caught (after exec (attempt.met exec s) attempt.command) rest).tried
        acted := (attempt.met exec s, attempt.command) ::
          (work exec caught (after exec (attempt.met exec s) attempt.command) rest).acted } := by
  rw [work, ← Prod.eta (exec (attempt.met exec s) attempt.command), hok]
  rfl

theorem work_cons_caught {e : ε}
    (herror : (exec (attempt.met exec s) attempt.command).1 = .error e) (hcaught : caught e) :
    work exec caught s (attempt :: rest) =
      { work exec caught (after exec (attempt.met exec s) attempt.command) rest with
        tried := (attempt.met exec s, attempt.command) ::
          (work exec caught (after exec (attempt.met exec s) attempt.command) rest).tried } := by
  rw [work, ← Prod.eta (exec (attempt.met exec s) attempt.command), herror]
  simp only [hcaught, if_true]
  rfl

theorem work_cons_stops {e : ε}
    (herror : (exec (attempt.met exec s) attempt.command).1 = .error e)
    (huncaught : ¬ caught e) :
    work exec caught s (attempt :: rest) =
      ⟨after exec (attempt.met exec s) attempt.command, [(attempt.met exec s, attempt.command)], [],
        some e⟩ := by
  rw [work, ← Prod.eta (exec (attempt.met exec s) attempt.command), herror]
  simp only [huncaught]
  rfl

/-- The next job either goes through or is passed over, or it ends the pass. -/
theorem work_cons_cases (exec : σ → ℓ → Except ε Unit × σ) (caught : ε → Bool) (s : σ)
    (attempt : Attempt ℓ) (rest : List (Attempt ℓ)) :
    (work exec caught s (attempt :: rest) =
        ⟨after exec (attempt.met exec s) attempt.command,
          [(attempt.met exec s, attempt.command)], [],
          (work exec caught s (attempt :: rest)).error⟩ ∧
      ∃ e, (exec (attempt.met exec s) attempt.command).1 = .error e ∧ ¬ caught e ∧
        (work exec caught s (attempt :: rest)).error = some e) ∨
    ∃ acted, work exec caught s (attempt :: rest) =
      { work exec caught (after exec (attempt.met exec s) attempt.command) rest with
        tried := (attempt.met exec s, attempt.command) ::
          (work exec caught (after exec (attempt.met exec s) attempt.command) rest).tried
        acted := acted } := by
  rcases hend : (exec (attempt.met exec s) attempt.command).1 with e | ⟨⟩
  · by_cases hcaught : caught e
    · exact .inr ⟨_, work_cons_caught hend hcaught⟩
    · rw [work_cons_stops hend hcaught]
      exact .inl ⟨rfl, e, rfl, hcaught, rfl⟩
  · exact .inr ⟨_, work_cons_ok hend⟩

/-- A pass runs commands of its jobs. -/
theorem work_run (exec : σ → ℓ → Except ε Unit × σ) (caught : ε → Bool) (s : σ)
    (attempts : List (Attempt ℓ)) :
    ∃ commands, (work exec caught s attempts).state = run (after exec) s commands ∧
      ∀ command ∈ commands, ∃ attempt ∈ attempts, command ∈ attempt.commands := by
  induction attempts generalizing s with
  | nil => exact ⟨[], rfl, nofun⟩
  | cons attempt rest ih =>
      have hfirst : after exec (attempt.met exec s) attempt.command =
          run (after exec) s attempt.commands := by
        rw [Attempt.commands, run_append]
        rfl
      rcases work_cons_cases exec caught s attempt rest with ⟨hwork, -⟩ | ⟨acted, hwork⟩
      · rw [hwork]
        exact ⟨attempt.commands, hfirst, fun command hmem => ⟨attempt, List.mem_cons_self, hmem⟩⟩
      · obtain ⟨later, hlater, hof⟩ := ih (after exec (attempt.met exec s) attempt.command)
        refine ⟨attempt.commands ++ later, ?_, fun command hmem => ?_⟩
        · rw [hwork, run_append, ← hfirst, ← hlater]
        · rcases List.mem_append.mp hmem with hmem | hmem
          · exact ⟨attempt, List.mem_cons_self, hmem⟩
          · obtain ⟨other, hother, hcommand⟩ := hof command hmem
            exact ⟨other, List.mem_cons_of_mem _ hother, hcommand⟩

/-- What every transaction keeps, a pass keeps. -/
theorem work_invariant (inv : σ → Prop)
    (hkeeps : ∀ attempt ∈ attempts, ∀ command ∈ attempt.commands, ∀ s, inv s →
      inv (after exec s command)) (hs : inv s) :
    inv (work exec caught s attempts).state := by
  obtain ⟨commands, hstate, hof⟩ := work_run exec caught s attempts
  rw [hstate]
  refine run_invariant (fun s command hcommand h => ?_) hs hof
  obtain ⟨attempt, hattempt, hmem⟩ := hcommand
  exact hkeeps attempt hattempt command hmem s h

/-- A pass over the jobs up to one that it comes to runs all their commands. -/
theorem work_state_of_finished (hfinished : (work exec caught s attempts).error = none) :
    (work exec caught s attempts).state =
      run (after exec) s (attempts.flatMap Attempt.commands) := by
  induction attempts generalizing s with
  | nil => rfl
  | cons attempt rest ih =>
      rcases work_cons_cases exec caught s attempt rest with ⟨-, e, -, -, herror⟩ | ⟨acted, hwork⟩
      · rw [herror] at hfinished
        cases hfinished
      · rw [hwork] at hfinished ⊢
        rw [List.flatMap_cons, run_append, Attempt.commands, run_append]
        exact ih hfinished

theorem work_append (exec : σ → ℓ → Except ε Unit × σ) (caught : ε → Bool) (s : σ)
    (earlier later : List (Attempt ℓ)) :
    work exec caught s (earlier ++ later) =
      (work exec caught s earlier).andThen fun s' => work exec caught s' later := by
  induction earlier generalizing s with
  | nil => rfl
  | cons attempt rest ih =>
      rw [List.cons_append]
      rcases hend : (exec (attempt.met exec s) attempt.command).1 with e | ⟨⟩
      · by_cases hcaught : caught e
        · rw [work_cons_caught hend hcaught, work_cons_caught hend hcaught, ih]
          unfold Progress.andThen
          split <;> simp_all
        · rw [work_cons_stops hend hcaught, work_cons_stops hend hcaught]
          rfl
      · rw [work_cons_ok hend, work_cons_ok hend, ih]
        unfold Progress.andThen
        split <;> simp_all

/-- The transactions tried are those of the jobs that the pass comes to. -/
theorem mem_tried {trial : σ × ℓ} :
    trial ∈ (work exec caught s attempts).tried ↔
      ∃ earlier attempt later, attempts = earlier ++ attempt :: later ∧
        (work exec caught s earlier).error = none ∧
        trial = (attempt.met exec (work exec caught s earlier).state, attempt.command) := by
  constructor
  · intro htrial
    induction attempts generalizing s with
    | nil => cases htrial
    | cons attempt rest ih =>
        have hlater : ∀ {s' : σ}, trial ∈ (work exec caught s' rest).tried →
            (∀ jobs, (work exec caught s (attempt :: jobs)).error =
                (work exec caught s' jobs).error ∧
              (work exec caught s (attempt :: jobs)).state = (work exec caught s' jobs).state) →
            ∃ earlier attempt' later, attempt :: rest = earlier ++ attempt' :: later ∧
              (work exec caught s earlier).error = none ∧
              trial = (attempt'.met exec (work exec caught s earlier).state,
                attempt'.command) := by
          intro s' hmem hsame
          obtain ⟨earlier, found, later, hsplit, hfinished, htrial⟩ := ih hmem
          refine ⟨attempt :: earlier, found, later, by rw [hsplit]; rfl, ?_, ?_⟩
          · rw [(hsame earlier).1, hfinished]
          · rw [(hsame earlier).2, htrial]
        rcases hend : (exec (attempt.met exec s) attempt.command).1 with e | ⟨⟩
        · by_cases hcaught : caught e
          · rw [work_cons_caught hend hcaught] at htrial
            rcases List.mem_cons.mp htrial with rfl | htrial
            · exact ⟨[], attempt, rest, rfl, rfl, rfl⟩
            · exact hlater htrial fun jobs => by rw [work_cons_caught hend hcaught]; trivial
          · rw [work_cons_stops hend hcaught] at htrial
            exact ⟨[], attempt, rest, rfl, rfl, List.mem_singleton.mp htrial⟩
        · rw [work_cons_ok hend] at htrial
          rcases List.mem_cons.mp htrial with rfl | htrial
          · exact ⟨[], attempt, rest, rfl, rfl, rfl⟩
          · exact hlater htrial fun jobs => by rw [work_cons_ok hend]; trivial
  · rintro ⟨earlier, attempt, later, rfl, hfinished, rfl⟩
    rw [work_append, Progress.andThen_of_finished hfinished]
    refine List.mem_append_right _ ?_
    rcases work_cons_cases exec caught (work exec caught s earlier).state attempt later with
      ⟨hwork, -⟩ | ⟨acted, hwork⟩
    · rw [hwork]
      exact List.mem_cons_self
    · rw [hwork]
      exact List.mem_cons_self

/-- Each transaction tried splits the pass into what came before and what came after. -/
theorem work_split {trial : σ × ℓ} (htrial : trial ∈ (work exec caught s attempts).tried) :
    ∃ attempt ∈ attempts, trial.2 = attempt.command ∧ ∃ before later,
      trial.1 = run (after exec) s before ∧
      (work exec caught s attempts).state =
        run (after exec) (after exec trial.1 trial.2) later ∧
      ∀ command ∈ before ++ later, ∃ attempt ∈ attempts, command ∈ attempt.commands := by
  obtain ⟨earlier, attempt, rest, rfl, hfinished, rfl⟩ := mem_tried.mp htrial
  have hbefore : attempt.met exec (work exec caught s earlier).state =
      run (after exec) s (earlier.flatMap Attempt.commands ++ attempt.others) := by
    rw [run_append, ← work_state_of_finished hfinished]
    rfl
  obtain ⟨commands, hcommands, hof⟩ := work_run exec caught
    (after exec (attempt.met exec (work exec caught s earlier).state) attempt.command) rest
  have hlater : ∃ later ⊆ commands, (work exec caught s (earlier ++ attempt :: rest)).state =
      run (after exec) (after exec (attempt.met exec (work exec caught s earlier).state)
        attempt.command) later := by
    rw [work_append, Progress.andThen_of_finished hfinished]
    rcases work_cons_cases exec caught (work exec caught s earlier).state attempt rest with
      ⟨hwork, -⟩ | ⟨acted, hwork⟩
    · rw [hwork]
      exact ⟨[], List.nil_subset _, rfl⟩
    · rw [hwork]
      exact ⟨commands, List.Subset.refl _, hcommands⟩
  obtain ⟨later, hsub, hlater⟩ := hlater
  refine ⟨attempt, by simp, rfl, _, later, hbefore, hlater, fun command hmem => ?_⟩
  rcases List.mem_append.mp hmem with hmem | hmem
  · rcases List.mem_append.mp hmem with hmem | hmem
    · obtain ⟨other, hother, hcommand⟩ := List.mem_flatMap.mp hmem
      exact ⟨other, List.mem_append_left _ hother, hcommand⟩
    · exact ⟨attempt, by simp, List.mem_append_left _ hmem⟩
  · obtain ⟨other, hother, hcommand⟩ := hof command (hsub hmem)
    exact ⟨other, by simp [hother], hcommand⟩

/-- A pass whose every failure is caught comes to all its jobs. -/
theorem work_finishes
    (hcaught : ∀ trial ∈ (work exec caught s attempts).tried, ∀ e,
      (exec trial.1 trial.2).1 = .error e → caught e) :
    (work exec caught s attempts).error = none ∧
      (work exec caught s attempts).tried.map Prod.snd = attempts.map Attempt.command := by
  induction attempts generalizing s with
  | nil => exact ⟨rfl, rfl⟩
  | cons attempt rest ih =>
      rcases work_cons_cases exec caught s attempt rest with
        ⟨hwork, e, herror, huncaught, -⟩ | ⟨acted, hwork⟩
      · rw [hwork] at hcaught
        exact absurd (hcaught _ (List.mem_singleton_self _) e herror) huncaught
      · rw [hwork] at hcaught ⊢
        obtain ⟨herror, htried⟩ :=
          ih fun trial htrial => hcaught trial (List.mem_cons_of_mem _ htrial)
        exact ⟨herror, by rw [List.map_cons, htried, List.map_cons]⟩

/-- The transactions that committed are those tried that returned. -/
theorem work_acted (exec : σ → ℓ → Except ε Unit × σ) (caught : ε → Bool) (s : σ)
    (attempts : List (Attempt ℓ)) :
    (work exec caught s attempts).acted =
      (work exec caught s attempts).tried.filter fun trial => (exec trial.1 trial.2).1.isOk := by
  induction attempts generalizing s with
  | nil => rfl
  | cons attempt rest ih =>
      rcases hend : (exec (attempt.met exec s) attempt.command).1 with e | ⟨⟩
      · by_cases hcaught : caught e
        · rw [work_cons_caught hend hcaught, List.filter_cons_of_neg]
          · exact ih _
          · simp [hend, Except.isOk, Except.toBool]
        · rw [work_cons_stops hend hcaught, List.filter_cons_of_neg]
          · rfl
          · simp [hend, Except.isOk, Except.toBool]
      · rw [work_cons_ok hend, List.filter_cons_of_pos, ← ih _]
        simp [hend, Except.isOk, Except.toBool]

/-- A pass whose jobs succeed one after the other, each making way for the next. -/
theorem work_succeeds {inv : σ → List (Attempt ℓ) → Prop}
    (hact : ∀ s attempt rest, inv s (attempt :: rest) →
      (exec (attempt.met exec s) attempt.command).1 = .ok () ∧
        inv (after exec (attempt.met exec s) attempt.command) rest)
    (hs : inv s attempts) :
    (work exec caught s attempts).error = none ∧
      (work exec caught s attempts).acted.map Prod.snd = attempts.map Attempt.command ∧
      inv (work exec caught s attempts).state [] := by
  induction attempts generalizing s with
  | nil => exact ⟨rfl, rfl, hs⟩
  | cons attempt rest ih =>
      obtain ⟨hok, hnext⟩ := hact s attempt rest hs
      obtain ⟨herror, hacted, hend⟩ := ih hnext
      rw [work_cons_ok hok]
      exact ⟨herror, by rw [List.map_cons, hacted, List.map_cons], hend⟩

/-! ## Passes in a row -/

/-- What both passes keep. -/
theorem Progress.andThen_invariant {inv : σ → Prop} (hfirst : inv first.state)
    (hnext : ∀ s, inv s → inv (next s).state) : inv (first.andThen next).state := by
  rw [andThen]
  split
  next => exact hfirst
  next => exact hnext _ hfirst

end Relational
