import DeathRoll.Core.Seeds
import DeathRoll.Ledger.RefineLuck

/-! # Runs refine the abstract ledger

A step of a run either leaves the ledger alone (a call that raises, a
configuration write) or is a step of the abstract machine. The rules below
lift invariants and accounts of the abstract machine to runs of the database.
-/

namespace DeathRoll

open Relational Tx Account
open Finsupp (single)

variable {env : Env} {s : Database} {call : Call}

/-! ## One step -/

/-- A call that raises changes no table. -/
theorem step_of_fails (hfail : ¬ call.Succeeds env s) :
    ∃ atError, step s (.call env call) = s.rollback atError := by
  simp only [Call.Succeeds, Call.exec, transact] at hfail
  simp only [step, Call.exec, transact]
  rcases hrun : outcome (callBody env call) s with ⟨result, atError⟩
  rw [hrun] at hfail
  cases result with
  | ok => exact absurd rfl hfail
  | error e => exact ⟨atError, rfl⟩

theorem ledger_rollback (atError : Database) : (s.rollback atError).ledger = s.ledger := rfl

/-- A call that returns takes a step of the abstract ledger. -/
theorem takes_of_succeeds (hs : s.WellFormed) (hok : call.Succeeds env s) :
    s.Takes env call (step s (.call env call)) := by
  have hrun : call.exec env s = (.ok (), step s (.call env call)) := Prod.ext hok rfl
  exact post_of_outcome (callBody_refines hs call) (transact_ok _ hrun)

/-- Every call steps the abstract ledger or leaves it alone. -/
theorem ledger_step (hs : s.WellFormed) :
    (call.Succeeds env s ∧
        Ledger.Step env.now s.ledger call (step s (.call env call)).ledger) ∨
      (¬ call.Succeeds env s ∧ (step s (.call env call)).ledger = s.ledger) := by
  by_cases hok : call.Succeeds env s
  · exact .inl ⟨hok, (takes_of_succeeds hs hok).1⟩
  · obtain ⟨atError, heq⟩ := step_of_fails hok
    exact .inr ⟨hok, by rw [heq, ledger_rollback]⟩

/-- A call whose body may raise nothing returns. -/
theorem succeeds_of_wp (hwp : wp (callBody env call) (fun _ _ => True) (fun _ => False) s) :
    call.Succeeds env s := by
  obtain ⟨_, hok⟩ := transact_returns Database.rollback hwp
  exact hok

/-! ## Configuration writes -/

theorem upsert_get? {κ ρ : Type} [DecidableEq κ] (t : Table κ ρ) (k key : κ) (r : ρ) :
    (upsert t k r).get? key = if key = k then some r else t.get? key := by
  simp only [upsert, Table.get?_set, Table.get?_insertNew]
  split <;> simp_all

/-- A configuration write changes no gold, ticket, dispute or bet. -/
structure Ledger.SameState (l l' : Ledger) : Prop where
  books : l'.books = l.books
  audited : l'.audited = l.audited
  deposits : l'.deposits = l.deposits
  withdraws : l'.withdraws = l.withdraws
  disputes : l'.disputes = l.disputes
  bets : l'.bets = l.bets

theorem config_sameState (write : ConfigWrite) : s.ledger.SameState (write.apply s).ledger := by
  cases write with
  | dwConfig key value => exact ⟨rfl, rfl, rfl, rfl, rfl, rfl⟩
  | luckConfig key value => exact ⟨rfl, rfl, rfl, rfl, rfl, rfl⟩
  | gameConfig name config => exact ⟨rfl, rfl, rfl, rfl, rfl, rfl⟩
  | newPeriod id status =>
      refine ⟨?_, rfl, rfl, rfl, rfl, rfl⟩
      exact congrArg (walletBooks s.balances + ·)
        (Table.sum_insertNew_of_zero _ _ _ _ (by simp))
  | periodStatus id status =>
      refine ⟨congrArg (walletBooks s.balances + ·) ?_, rfl, rfl, rfl, rfl, rfl⟩
      change poolBooks (setPeriodStatus s.rafflePeriods id status) = _
      unfold setPeriodStatus
      split
      next => rfl
      next period hperiod => rw [poolBooks_set _ hperiod, sub_self, Finsupp.single_zero, add_zero]

theorem config_grows (write : ConfigWrite) : s.Grows (write.apply s) := by
  cases write with
  | dwConfig key value => exact .refl s
  | luckConfig key value => exact .refl s
  | gameConfig name config => exact .refl s
  | newPeriod id status =>
      refine ⟨fun _ hu => hu, fun p hp => ?_, fun _ hu => hu, fun _ => .inl⟩
      obtain ⟨row, hrow⟩ := Option.ne_none_iff_exists'.mp hp
      simp [Database.HasPeriod, ConfigWrite.apply, Table.get?_insertNew_of_some hrow]
  | periodStatus id status =>
      refine ⟨fun _ hu => hu, fun p hp => ?_, fun _ hu => hu, fun _ => .inl⟩
      change (setPeriodStatus s.rafflePeriods id status).get? p ≠ none
      unfold setPeriodStatus
      split
      next => exact hp
      next period hperiod =>
        rw [Table.get?_set]
        split
        next heq => simp [hperiod]
        next => exact hp

/-! ## Well-formedness -/

/-- A step of the ledger names no raffle period but the active one. -/
theorem Ledger.Step.rakePeriod {now : Timestamp} {l l' : Ledger} (hstep : Step now l call l')
    {id p : Int} {bet : Bet} (hbet : l'.bets.get? id = some bet)
    (hperiod : bet.rakePeriodId = some p) :
    (∃ old, l.bets.get? id = some old ∧ old.rakePeriodId = some p) ∨ l.activePeriod = some p := by
  have hset : ∀ {key : Int} {old closed : Bet}, l.bets.get? key = some old →
      closed.rakePeriodId = old.rakePeriodId → l'.bets = l.bets.set key closed →
      ∃ old, l.bets.get? id = some old ∧ old.rakePeriodId = some p := by
    intro key old closed hold hsame hbets
    rw [hbets, Table.get?_set] at hbet
    split at hbet
    next heq =>
      subst heq
      rw [hold, Option.map_some, Option.some.injEq] at hbet
      exact ⟨old, hold, by rw [← hsame, hbet, hperiod]⟩
    next => exact ⟨bet, hbet, hperiod⟩
  cases hstep with
  | betPlaced hnew hopen hfirst hcommission hrake hstake hactive hl' =>
      subst hl'
      simp only [Table.get?_insertNew] at hbet
      split at hbet
      next heq =>
        subst heq
        rw [hnew, Option.getD_none, Option.some.injEq] at hbet
        exact .inr (by rw [← hactive, hbet, hperiod])
      next => exact .inl ⟨bet, hbet, hperiod⟩
  | betResolved hcall hget hopen hcredit hclosed howner hsame hl' =>
      exact .inl (hset hget hsame (by rw [hl']))
  | betRefunded hget hopen hclosed howner hsame hl' =>
      exact .inl (hset hget hsame (by rw [hl']))
  | _ =>
      subst_vars
      exact .inl ⟨bet, hbet, hperiod⟩

/-- What holds of every bet when it is placed holds of every open bet. -/
theorem Ledger.Step.open_bets {now : Timestamp} {l l' : Ledger} (hstep : Step now l call l')
    {P : Bet → Prop}
    (hplaced : ∀ bet : Bet,
      bet.commission = (bet.betAmount * l.commissionBps bet.gameName).tdiv 10000 →
      bet.rake = (bet.betAmount * l.rakeBps).tdiv 10000 →
      bet.effectiveStake = bet.betAmount - bet.commission - bet.rake → P bet)
    (hl : ∀ id bet, l.bets.get? id = some bet → bet.status = .open → P bet) :
    ∀ id bet, l'.bets.get? id = some bet → bet.status = .open → P bet := by
  have hclose : ∀ {key : Int} {closed : Bet}, closed.status ≠ .open →
      ∀ id bet, (l.bets.set key closed).get? id = some bet → bet.status = .open → P bet := by
    intro key closed hclosed id bet hbet hopen
    rw [Table.get?_set] at hbet
    split at hbet
    next =>
      obtain ⟨_, _, rfl⟩ := Option.map_eq_some_iff.mp hbet
      exact absurd hopen hclosed
    next => exact hl id bet hbet hopen
  cases hstep with
  | betPlaced hnew hopen hfirst hcommission hrake hstake hperiod hl' =>
      subst hl'
      intro key other hother hstatus
      simp only [Table.get?_insertNew] at hother
      split at hother
      next =>
        rw [hnew, Option.getD_none, Option.some.injEq] at hother
        exact hother ▸ hplaced _ hcommission hrake hstake
      next => exact hl key other hother hstatus
  | betResolved hcall hget hopen hcredit hclosed howner hperiod hl' =>
      subst hl'
      exact hclose hclosed
  | betRefunded hget hopen hclosed howner hperiod hl' =>
      subst hl'
      exact hclose hclosed
  | _ =>
      subst_vars
      exact hl

/-- A step of the ledger leaves the configuration alone. -/
theorem Ledger.Step.config {now : Timestamp} {l l' : Ledger} (hstep : Step now l call l') :
    l'.commissionBps = l.commissionBps ∧ l'.rakeBps = l.rakeBps := by
  cases hstep <;> subst_vars <;> exact ⟨rfl, rfl⟩

theorem wellFormed_step (hs : s.WellFormed) (command : Command) : (step s command).WellFormed := by
  cases command with
  | call env call =>
      by_cases hok : call.Succeeds env s
      · obtain ⟨hstep, hgrows⟩ := takes_of_succeeds hs hok
        refine ⟨hgrows.accounts hs.treasury, hgrows.keepsRegistered hs.registered,
          fun id bet p hbet hperiod => hgrows.periods ?_⟩
        rcases hstep.rakePeriod hbet hperiod with ⟨old, hold, hsame⟩ | hactive
        · exact hs.period id old p hold hsame
        · exact hasPeriod_of_activePeriod hactive
      · obtain ⟨atError, heq⟩ := step_of_fails hok
        rw [heq]
        exact ⟨hs.treasury, hs.registered, hs.period⟩
  | config write =>
      refine ⟨(config_grows write).accounts hs.treasury,
        (config_grows write).keepsRegistered hs.registered, fun id bet p hbet hperiod => ?_⟩
      have hbets : (write.apply s).bets = s.bets := (config_sameState write).bets
      exact (config_grows write).periods (hs.period id bet p (by rwa [← hbets]) hperiod)

/-! ## Every command -/

theorem Ledger.SameState.refl (l : Ledger) : l.SameState l := ⟨rfl, rfl, rfl, rfl, rfl, rfl⟩

/-- The command is a call that returns. -/
def Command.Returns (s : Database) : Command → Prop
  | .call env call => call.Succeeds env s
  | .config _ => False

/-- A command steps the abstract ledger, or it is a failed call or a
configuration write and leaves gold, tickets, disputes and bets as they are. -/
theorem ledger_command (hs : s.WellFormed) (command : Command) :
    (∃ env call, command = .call env call ∧ call.Succeeds env s ∧
        Ledger.Step env.now s.ledger call (step s command).ledger) ∨
      (¬ command.Returns s ∧ s.ledger.SameState (step s command).ledger) := by
  cases command with
  | call env call =>
      rcases @ledger_step env s call hs with ⟨hok, hstep⟩ | ⟨hfail, hsame⟩
      · exact .inl ⟨env, call, rfl, hok, hstep⟩
      · exact .inr ⟨hfail, hsame ▸ .refl _⟩
  | config write => exact .inr ⟨id, config_sameState write⟩

/-- What every command keeps in a well-formed database, every run keeps. -/
theorem run_keeps (inv : Database → Prop)
    (hstep : ∀ s command, s.WellFormed → inv s → inv (step s command))
    (hs : s.WellFormed) (hinv : inv s) (commands : List Command) : inv (run step s commands) := by
  have hboth : ∀ s command, True → s.WellFormed ∧ inv s →
      (step s command).WellFormed ∧ inv (step s command) :=
    fun s command _ h => ⟨wellFormed_step h.1 command, hstep s command h.1 h.2⟩
  exact (run_invariant hboth ⟨hs, hinv⟩ fun _ _ => trivial).2

theorem wellFormed_run (hs : s.WellFormed) (commands : List Command) :
    (run step s commands).WellFormed :=
  run_keeps Database.WellFormed (fun _ command h _ => wellFormed_step h command) hs hs commands

/-! ## The empty ledger -/

/-- A database in which nothing has happened: a treasury with no gold, no audit
row, no ticket, dispute or bet, and empty raffle pools. Configuration, further
users, cashiers and sequences are arbitrary. -/
structure Database.EmptyLedger (s : Database) : Prop where
  treasuryUser : s.HasUser 0
  balances : s.balances = .ofList [(0, .zero)]
  auditLog : s.audit.auditLog = []
  deposits : s.depositTickets = .empty
  withdraws : s.withdrawTickets = .empty
  disputes : s.disputes = .empty
  bets : s.bets = .empty
  pools : ∀ period row, s.rafflePeriods.get? period = some row → row.poolAmount = 0

theorem Database.EmptyLedger.wellFormed (hs : s.EmptyLedger) : s.WellFormed := by
  refine ⟨?_, fun u hu => ?_, fun id bet p hbet _ => ?_⟩
  · simp [Database.HasAccount, hs.balances, Table.ofList, Table.get?_insertNew]
  · obtain rfl : u = 0 := by
      by_contra hne
      simp [Database.HasAccount, hs.balances, Table.ofList, Table.get?_insertNew, hne] at hu
    exact hs.treasuryUser
  · simp [hs.bets] at hbet

theorem seeded_empty : Database.seeded.EmptyLedger where
  treasuryUser := by simp [Database.HasUser, Database.seeded, Table.ofList, Table.get?_insertNew]
  balances := rfl
  auditLog := rfl
  deposits := rfl
  withdraws := rfl
  disputes := rfl
  bets := rfl
  pools := by simp [Database.seeded]

/-- No seeded game has a negative commission. -/
theorem seeded_commission (game : String) : 0 ≤ commissionBpsOf gameDefaults game := by
  have hrows : ∀ row ∈ gameDefaults.rows, 0 ≤ row.2.commissionBps.getD 0 := by decide
  unfold commissionBpsOf
  cases hgame : gameDefaults.get? game with
  | none => exact le_rfl
  | some config => exact hrows (game, config) (Table.get?_eq_some.mp hgame)

/-- A session at time 0 with a configured chain key and constant digests. -/
def Env.plain : Env := ⟨0, "UTC", some [1], fun _ _ => [], fun _ _ => []⟩

end DeathRoll
