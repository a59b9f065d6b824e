import DeathRoll.Ledger.Roster
import DeathRoll.Workers.Pass

/-! # Expiring idle cashiers

`workers/cashier_idle.py`. The audit row of `dw.expire_cashier` needs a registered
cashier, and its foreign key violation is not an error that the tick catches.
-/

namespace DeathRoll

open Relational

/-- `status = 'online' AND last_active_at < NOW() - INTERVAL '1 hour'`. -/
def CashierStatus.Idle (row : CashierStatus) (now : Timestamp) : Prop :=
  row.status = .online ∧ row.lastActiveAt < now - 3600 * 1000000

instance (row : CashierStatus) (now : Timestamp) : Decidable (row.Idle now) := instDecidableAnd

/-- `SELECT discord_id FROM dw.cashier_status WHERE ... ORDER BY last_active_at ASC`. -/
def Database.idleCashiers (s : Database) (now : Timestamp) : List Int :=
  ((s.cashierStatus.rows.filter fun row => row.2.Idle now).insertionSort
    fun a b => a.2.lastActiveAt ≤ b.2.lastActiveAt).map Prod.fst

namespace CashierIdle

/-- The transaction for one listed cashier. -/
def attempt (env : Env) (times : Int → Timestamp) (cashier : Int) : Attempt Command :=
  ⟨[], .call (env.at (times cashier)) (.expireCashier (some cashier))⟩

/-- One pass that lists the idle cashiers at `now` and comes to each at its time in
`times`, with nobody else at work. -/
def tick (env : Env) (now : Timestamp) (times : Int → Timestamp) (s : Database) :
    Progress Database Command DbError :=
  pass s ((s.idleCashiers now).map (attempt env times))

/-- What a tick is for: it comes to every listed cashier, nobody is left idle, whoever
was idle is offline with the running session expired, and all others are as before. -/
structure Reaches (s : Database) (now : Timestamp) (times : Int → Timestamp)
    (result : Progress Database Command DbError) : Prop where
  finished : result.error = none
  count : result.acted.length = (s.idleCashiers now).length
  noneIdle : ∀ cashier row, result.state.cashierStatus.get? cashier = some row → ¬ row.Idle now
  expired : ∀ cashier row, s.cashierStatus.get? cashier = some row → row.Idle now →
    result.state.cashierStatus.get? cashier = some ⟨.offline, times cashier, times cashier⟩ ∧
      (∃ id session, s.Running cashier id session ∧
        result.state.cashierSessions.get? id = some (session.close (times cashier) .expired)) ∧
      ∀ id session, ¬ result.state.Running cashier id session
  kept : ∀ cashier, (∀ row, s.cashierStatus.get? cashier = some row → ¬ row.Idle now) →
    result.state.cashierStatus.get? cashier = s.cashierStatus.get? cashier ∧
      ∀ id session, s.cashierSessions.get? id = some session → session.discordId = cashier →
        result.state.cashierSessions.get? id = some session

end CashierIdle

variable {env : Env} {s s₀ : Database} {now : Timestamp} {times : Int → Timestamp} {cashier : Int}

theorem mem_idleCashiers :
    cashier ∈ s.idleCashiers now ↔
      ∃ row, s.cashierStatus.get? cashier = some row ∧ row.Idle now := by
  simp only [Database.idleCashiers, List.mem_map, List.mem_insertionSort, List.mem_filter,
    decide_eq_true_eq, Table.get?_eq_some]
  constructor
  · rintro ⟨⟨_, row⟩, ⟨hrow, hidle⟩, rfl⟩
    exact ⟨row, hrow, hidle⟩
  · rintro ⟨row, hrow, hidle⟩
    exact ⟨(cashier, row), ⟨hrow, hidle⟩, rfl⟩

theorem nodup_idleCashiers (s : Database) (now : Timestamp) : (s.idleCashiers now).Nodup := by
  have hperm := (List.perm_insertionSort (fun a b : Int × CashierStatus =>
    a.2.lastActiveAt ≤ b.2.lastActiveAt)
    (s.cashierStatus.rows.filter fun row => row.2.Idle now)).map Prod.fst
  refine hperm.nodup_iff.mpr (List.Nodup.sublist ?_ s.cashierStatus.nodup_keys)
  exact List.filter_sublist.map Prod.fst

namespace CashierIdle

/-- With `rest` still to come to, the pass has expired the other idle cashiers. -/
structure Swept (s : Database) (now : Timestamp) (times : Int → Timestamp) (rest : List Int)
    (s' : Database) : Prop where
  users : s'.users = s.users
  status : ∀ cashier, s'.cashierStatus.get? cashier =
    if cashier ∈ s.idleCashiers now ∧ cashier ∉ rest then
      some ⟨.offline, times cashier, times cashier⟩
    else s.cashierStatus.get? cashier
  sessions : ∀ id, s'.cashierSessions.get? id = (s.cashierSessions.get? id).map fun session =>
    if (session.discordId ∈ s.idleCashiers now ∧ session.discordId ∉ rest) ∧
        session.endedAt = none then session.close (times session.discordId) .expired
    else session

theorem swept_self (s : Database) (now : Timestamp) (times : Int → Timestamp) :
    Swept s now times (s.idleCashiers now) s := by
  refine ⟨rfl, fun cashier => ?_, fun id => ?_⟩
  · rw [if_neg fun h => h.2 h.1]
  · cases s.cashierSessions.get? id with
    | none => rfl
    | some session => rw [Option.map_some, if_neg fun h => h.1.2 h.1.1]

/-- Expiring the next cashier. -/
theorem Swept.expire {rest : List Int} {s' s'' : Database}
    (hswept : Swept s now times (cashier :: rest) s') (hidle : cashier ∈ s.idleCashiers now)
    (hfresh : cashier ∉ rest) (hexpires : s'.Expires (env.at (times cashier)) cashier s'') :
    Swept s now times rest s'' := by
  refine ⟨hexpires.users.trans hswept.users, fun other => ?_, fun id => ?_⟩
  · rw [hexpires.posts other, hswept.status other]
    by_cases heq : other = cashier
    · subst heq
      simp [hidle, hfresh]
    · simp [heq]
  · rw [hexpires.closes id, hswept.sessions id]
    cases s.cashierSessions.get? id with
    | none => rfl
    | some session =>
        simp only [Option.map_some, Option.some.injEq, List.mem_cons, not_or, now_at]
        by_cases hmine : session.discordId = cashier
        · simp [hmine, hidle, hfresh]
        · simp only [hmine, not_false_eq_true, true_and]
          refine if_neg fun hclosed => hmine ?_
          rw [← hclosed.1]
          split <;> rfl

/-- The jobs to come are the cashiers of `rest`, and the others have been expired. -/
def Sweeping (s : Database) (env : Env) (now : Timestamp) (times : Int → Timestamp)
    (s' : Database) (attempts : List (Attempt Command)) : Prop :=
  ∃ rest, attempts = rest.map (attempt env times) ∧ rest.Nodup ∧
    (∀ cashier ∈ rest, cashier ∈ s.idleCashiers now) ∧ Swept s now times rest s'

theorem Sweeping.next {s' : Database} {next : Attempt Command} {later : List (Attempt Command)}
    (husers : ∀ cashier ∈ s.idleCashiers now, s.HasUser cashier)
    (hkey : s.idleCashiers now ≠ [] → ∃ key, env.chainKey = .ok key)
    (hsweeping : Sweeping s env now times s' (next :: later)) :
    (Command.exec (next.met Command.exec s') next.command).1 = .ok () ∧
      Sweeping s env now times (after Command.exec (next.met Command.exec s') next.command)
        later := by
  obtain ⟨_ | ⟨cashier, rest⟩, heq, hnodup, hidle, hswept⟩ := hsweeping
  · cases heq
  obtain ⟨rfl, rfl⟩ := List.cons.inj heq
  obtain ⟨hfresh, hrest⟩ := List.nodup_cons.mp hnodup
  have hlisted := hidle cashier List.mem_cons_self
  obtain ⟨key, hkey⟩ := hkey (List.ne_nil_of_mem hlisted)
  obtain ⟨row, hrow, hwasIdle⟩ := mem_idleCashiers.mp hlisted
  have honline : s'.Online cashier := by
    refine ⟨row, ?_, hwasIdle.1⟩
    rw [hswept.status, if_neg fun h => h.2 List.mem_cons_self, hrow]
  have huser : s'.HasUser cashier := by
    rw [Database.HasUser, hswept.users]
    exact husers cashier hlisted
  have hok : (Call.expireCashier (some cashier)).Succeeds (env.at (times cashier)) s' :=
    expireCashier_returns honline huser hkey
  refine ⟨hok, rest, rfl, hrest, fun other hother => hidle other (List.mem_cons_of_mem _ hother), ?_⟩
  rw [after_exec]
  exact hswept.expire hlisted hfresh (expireCashier_expires hok)

/-- When every idle cashier can be expired, the pass expires them all. -/
theorem tick_sweeps (husers : ∀ cashier ∈ s.idleCashiers now, s.HasUser cashier)
    (hkey : s.idleCashiers now ≠ [] → ∃ key, env.chainKey = .ok key) :
    (tick env now times s).error = none ∧
      (tick env now times s).acted.length = (s.idleCashiers now).length ∧
      Swept s now times [] (tick env now times s).state := by
  have hstart : Sweeping s env now times s ((s.idleCashiers now).map (attempt env times)) :=
    ⟨_, rfl, nodup_idleCashiers s now, fun _ => id, swept_self s now times⟩
  have hdone : (tick env now times s).error = none ∧ (tick env now times s).acted.map Prod.snd = _ ∧
      Sweeping s env now times (tick env now times s).state [] :=
    work_succeeds (fun _ _ _ => Sweeping.next husers hkey) hstart
  obtain ⟨herror, hacted, rest, hnil, -, -, hswept⟩ := hdone
  refine ⟨herror, ?_, ?_⟩
  · simpa using congrArg List.length hacted
  · rw [List.map_eq_nil_iff.mp hnil.symm] at hswept
    exact hswept

theorem Swept.reaches {result : Progress Database Command DbError} (hs : s.RosterConsistent)
    (hswept : Swept s now times [] result.state) (herror : result.error = none)
    (hcount : result.acted.length = (s.idleCashiers now).length) :
    Reaches s now times result := by
  refine ⟨herror, hcount, fun cashier row hrow hidle => ?_, fun cashier row hrow hidle => ?_,
    fun cashier hkept => ?_⟩
  · rw [hswept.status] at hrow
    split at hrow
    next =>
      obtain rfl := Option.some.inj hrow
      cases hidle.1
    next hnot => exact hnot ⟨mem_idleCashiers.mpr ⟨row, hrow, hidle⟩, List.not_mem_nil⟩
  · have hlisted : cashier ∈ s.idleCashiers now := mem_idleCashiers.mpr ⟨row, hrow, hidle⟩
    refine ⟨by rw [hswept.status, if_pos ⟨hlisted, List.not_mem_nil⟩], ?_, ?_⟩
    · obtain ⟨id, session, hrunning⟩ := (hs.online cashier).mp ⟨row, hrow, hidle.1⟩
      refine ⟨id, session, hrunning, ?_⟩
      rw [hswept.sessions, hrunning.row, Option.map_some, hrunning.cashier,
        if_pos ⟨⟨hlisted, List.not_mem_nil⟩, hrunning.open_⟩]
    · rintro id session ⟨hget, hmine, hopen⟩
      rw [hswept.sessions] at hget
      obtain ⟨old, -, rfl⟩ := Option.map_eq_some_iff.mp hget
      split_ifs at hmine hopen with hclosed
      · cases hopen
      · exact hclosed ⟨⟨hmine ▸ hlisted, List.not_mem_nil⟩, hopen⟩
  · have hnot : cashier ∉ s.idleCashiers now := by
      rw [mem_idleCashiers]
      rintro ⟨row, hrow, hidle⟩
      exact hkept row hrow hidle
    refine ⟨by rw [hswept.status, if_neg fun h => hnot h.1], fun id session hget hmine => ?_⟩
    rw [hswept.sessions, hget, Option.map_some, if_neg fun h => hnot (hmine ▸ h.1.1)]

/-- A cashier who cannot be expired stays as the pass found them. -/
theorem tick_leaves {row : CashierStatus} (hrow : s.cashierStatus.get? cashier = some row)
    (hcannot : ¬ s.HasUser cashier ∨ ¬ ∃ key, env.chainKey = .ok key) :
    (tick env now times s).state.cashierStatus.get? cashier = some row := by
  have hkeeps : ∀ next ∈ (s.idleCashiers now).map (attempt env times),
      ∀ command ∈ next.commands, ∀ s' : Database,
      s'.users = s.users ∧ s'.cashierStatus.get? cashier = some row →
      (after Command.exec s' command).users = s.users ∧
        (after Command.exec s' command).cashierStatus.get? cashier = some row := by
    intro next hnext command hcommand s' hkept
    obtain ⟨other, -, rfl⟩ := List.mem_map.mp hnext
    obtain rfl := List.mem_singleton.mp hcommand
    rw [after_exec]
    by_cases hok : (Call.expireCashier (some other)).Succeeds (env.at (times other)) s'
    · have hexpires := expireCashier_expires hok
      refine ⟨hexpires.users.trans hkept.1, ?_⟩
      rw [attempt, hexpires.posts, if_neg, hkept.2]
      rintro rfl
      rcases hcannot with hstranger | hnokey
      · exact hstranger (by rw [Database.HasUser, ← hkept.1]; exact hexpires.user)
      · exact hnokey hexpires.key
    · obtain ⟨atError, heq⟩ := step_of_fails hok
      rw [attempt, heq]
      exact hkept
  exact (work_invariant (fun s' : Database => s'.users = s.users ∧
    s'.cashierStatus.get? cashier = some row) hkeeps ⟨rfl, hrow⟩).2

/-- From a database without cashiers on, after any run: a tick does what it is for
exactly when every idle cashier is registered and, should there be one, the chain key
is configured. -/
theorem cashier_idle_tick_iff (hstatus : s₀.cashierStatus = .empty)
    (hsessions : s₀.cashierSessions = .empty) (commands : List Command) (env : Env)
    (now : Timestamp) (times : Int → Timestamp) :
    Reaches (run step s₀ commands) now times (tick env now times (run step s₀ commands)) ↔
      ∀ cashier row, (run step s₀ commands).cashierStatus.get? cashier = some row → row.Idle now →
        (run step s₀ commands).HasUser cashier ∧ ∃ key, env.chainKey = .ok key := by
  have hs := rosterConsistent_run hstatus hsessions commands
  constructor
  · intro hreaches cashier row hrow hidle
    by_contra hcannot
    rw [not_and_or] at hcannot
    exact hreaches.noneIdle cashier row (tick_leaves hrow hcannot) hidle
  · intro hcan
    have hlisted : ∀ cashier ∈ (run step s₀ commands).idleCashiers now,
        (run step s₀ commands).HasUser cashier ∧ ∃ key, env.chainKey = .ok key := by
      intro cashier hmem
      obtain ⟨row, hrow, hidle⟩ := mem_idleCashiers.mp hmem
      exact hcan cashier row hrow hidle
    obtain ⟨herror, hcount, hswept⟩ := tick_sweeps (fun cashier hmem => (hlisted cashier hmem).1)
      fun hne => (hlisted _ (List.head_mem hne)).2
    exact hswept.reaches hs herror hcount

/-- A cashier who never deposited comes online, and then a registered one. -/
def idleRun : List Command :=
  depositRun ++
    [.call .plain (.setCashierStatus (some 7) (some "online")),
     .call (Env.plain.at 1) (.setCashierStatus (some 9) (some "online"))]

theorem cashier_idle_tick_iff_idle :
    Reaches (run step .seeded idleRun) 7200000000 (fun _ => 7200000000)
        (tick .plain 7200000000 (fun _ => 7200000000) (run step .seeded idleRun)) ↔
      ∀ cashier row, (run step .seeded idleRun).cashierStatus.get? cashier = some row →
        row.Idle 7200000000 →
        (run step .seeded idleRun).HasUser cashier ∧ ∃ key, Env.plain.chainKey = .ok key :=
  cashier_idle_tick_iff rfl rfl idleRun .plain 7200000000 fun _ => 7200000000

/-- Two hours later the tick stops at the first cashier, and both stay online. -/
theorem cashier_idle_tick_stops :
    ¬ Reaches (run step .seeded idleRun) 7200000000 (fun _ => 7200000000)
        (tick .plain 7200000000 (fun _ => 7200000000) (run step .seeded idleRun)) ∧
      (tick .plain 7200000000 (fun _ => 7200000000) (run step .seeded idleRun)).error =
        some (.foreignKeyViolation "audit_log_target_id_fkey") ∧
      (tick .plain 7200000000 (fun _ => 7200000000) (run step .seeded idleRun)
        ).state.cashierStatus.get? 7 = some ⟨.online, 0, 0⟩ ∧
      (tick .plain 7200000000 (fun _ => 7200000000) (run step .seeded idleRun)
        ).state.cashierStatus.get? 9 = some ⟨.online, 1, 1⟩ := by
  have herror : (tick .plain 7200000000 (fun _ => 7200000000)
      (run step .seeded idleRun)).error =
        some (.foreignKeyViolation "audit_log_target_id_fkey") := by
    decide +kernel
  refine ⟨fun hreaches => ?_, herror, by decide +kernel, by decide +kernel⟩
  rw [hreaches.finished] at herror
  cases herror

end CashierIdle

end DeathRoll
