import DeathRoll.Ledger.Lifecycle
import DeathRoll.Ledger.LockErrors

/-! # Locked funds

A locked balance is shared by withdraw tickets and bets. It equals what the
pending withdraws and the open bets of its owner hold in every reachable state,
whatever happens to the configuration in between. While rates are sound no call
fails for want of locked funds, and a pending withdraw can be cancelled as long
as the refunded balance fits its column.
-/

namespace DeathRoll

open Relational Tx Account
open Finsupp (single)

/-! ## Escrow -/

/-- What a withdraw ticket holds of a user's locked balance. -/
def WithdrawTicket.heldFrom (ticket : WithdrawTicket) (user : Int) : Int :=
  if ticket.discordId = user ∧ (ticket.status = .open ∨ ticket.status = .claimed) then ticket.amount
  else 0

/-- What a bet holds of a user's locked balance. -/
def Bet.heldFrom (bet : Bet) (user : Int) : Int :=
  if bet.discordId = user ∧ bet.status = .open then bet.effectiveStake else 0

/-- The amounts of a user's open or claimed withdraw tickets and the stakes of
the user's open bets. -/
def Database.escrow (s : Database) (user : Int) : Int :=
  (s.withdrawTickets.sum fun _ ticket => ticket.heldFrom user) +
    s.bets.sum fun _ bet => bet.heldFrom user

theorem WithdrawTicket.heldFrom_nonneg (ticket : WithdrawTicket) (user : Int) :
    0 ≤ ticket.heldFrom user := by
  unfold heldFrom
  split
  · exact ticket.amount_pos.le
  · exact le_rfl

theorem WithdrawTicket.heldFrom_of_pending {ticket : WithdrawTicket}
    (hstatus : ticket.status = .open ∨ ticket.status = .claimed) (user : Int) :
    ticket.heldFrom user = if ticket.discordId = user then ticket.amount else 0 := by
  simp [heldFrom, hstatus]

theorem WithdrawTicket.heldFrom_of_final {ticket : WithdrawTicket}
    (hstatus : ticket.status = .confirmed ∨ ticket.status = .cancelled) (user : Int) :
    ticket.heldFrom user = 0 := by
  rcases hstatus with hstatus | hstatus <;> simp [heldFrom, hstatus]

theorem Bet.heldFrom_of_open {bet : Bet} (hstatus : bet.status = .open) (user : Int) :
    bet.heldFrom user = if bet.discordId = user then bet.effectiveStake else 0 := by
  simp [heldFrom, hstatus]

theorem Bet.heldFrom_of_closed {bet : Bet} (hstatus : bet.status ≠ .open) (user : Int) :
    bet.heldFrom user = 0 := by
  simp [heldFrom, hstatus]

/-- A ticket that is not terminal is pending. -/
theorem pending_of_consistent {ticket : WithdrawTicket} (hcons : ticket.Consistent)
    (hstatus : ¬ ticket.status.Terminal) : ticket.status = .open ∨ ticket.status = .claimed := by
  rcases hcons.shared.status with hopen | hclaimed | hconfirmed | hcancelled
  · exact .inl hopen
  · exact .inr hclaimed
  · exact absurd (.inl hconfirmed) hstatus
  · exact absurd (.inr (.inl hcancelled)) hstatus

namespace Ledger

def escrow (l : Ledger) (user : Int) : Int :=
  (l.withdraws.sum fun _ ticket => ticket.heldFrom user) + l.bets.sum fun _ bet => bet.heldFrom user

variable {now : Timestamp} {l l' : Ledger} {call : Call}

theorem held_set {withdraws : Table String WithdrawTicket} {uid : String} {old : WithdrawTicket}
    (hold : withdraws.get? uid = some old) (new : WithdrawTicket) (u : Int) :
    ((withdraws.set uid new).sum fun _ ticket => ticket.heldFrom u) =
      (withdraws.sum fun _ ticket => ticket.heldFrom u) + (new.heldFrom u - old.heldFrom u) :=
  Table.sum_set_add hold (add_sub_cancel _ _).symm

theorem staked_set {bets : Table Int Bet} {id : Int} {old : Bet} (hold : bets.get? id = some old)
    (new : Bet) (u : Int) :
    ((bets.set id new).sum fun _ bet => bet.heldFrom u) =
      (bets.sum fun _ bet => bet.heldFrom u) + (new.heldFrom u - old.heldFrom u) :=
  Table.sum_set_add hold (add_sub_cancel _ _).symm

theorem rakeAccount_locked (period : Option Int) (rake u : Int) :
    single (rakeAccount period) rake (locked u) = 0 := by
  cases period <;> simp [rakeAccount]

/-- What a call moves in a locked balance it moves in the escrow. -/
theorem Step.escrow (hstep : Step now l call l')
    (hl : ∀ uid ticket, l.withdraws.get? uid = some ticket → ticket.Consistent) (u : Int) :
    l'.books (locked u) - l'.escrow u = l.books (locked u) - l.escrow u := by
  cases hstep with
  | withdrawOpened hnew hfresh hdelivered hl' =>
      subst hl'
      simp [Ledger.escrow, Table.sum_insertNew_of_none hnew, Finsupp.single_apply,
        WithdrawTicket.heldFrom_of_pending (.inl hfresh.status)]
      ring
  | withdrawClaimed hold hstatus hl' =>
      subst hl'
      simp only [Ledger.escrow, held_set hold, WithdrawTicket.heldFrom_of_pending (.inl hstatus)]
      simp [WithdrawTicket.heldFrom_of_pending]
  | withdrawReleased hold hstatus hl' =>
      subst hl'
      simp only [Ledger.escrow, held_set hold, WithdrawTicket.heldFrom_of_pending (.inr hstatus)]
      simp [WithdrawTicket.heldFrom_of_pending]
  | withdrawConfirmed hold hstatus hcashier hl' =>
      subst hl'
      simp only [Ledger.escrow, held_set hold, WithdrawTicket.heldFrom_of_pending (.inr hstatus)]
      simp [WithdrawTicket.heldFrom_of_final, Finsupp.single_apply]
      ring
  | withdrawCancelled hold hstatus hl' =>
      subst hl'
      have hpending := pending_of_consistent (hl _ _ hold) hstatus
      simp only [Ledger.escrow, held_set hold, WithdrawTicket.heldFrom_of_pending hpending]
      simp [WithdrawTicket.heldFrom_of_final, Finsupp.single_apply]
      ring
  | betPlaced hnew hopen hfirst hcommission hrake hstake hperiod hl' =>
      subst hl'
      simp only [Ledger.escrow, Table.sum_insertNew_of_none hnew, Bet.heldFrom_of_open hopen,
        Finsupp.add_apply, rakeAccount_locked]
      simp [Finsupp.single_apply]
      ring
  | betResolved hcall hget hopen hcredit hclosed howner hperiod hl' =>
      subst hl'
      simp only [Ledger.escrow, staked_set hget, Bet.heldFrom_of_open hopen,
        Bet.heldFrom_of_closed hclosed]
      simp [Finsupp.single_apply]
      ring
  | betRefunded hget hopen hclosed howner hperiod hl' =>
      subst hl'
      simp only [Ledger.escrow, staked_set hget, Bet.heldFrom_of_open hopen,
        Bet.heldFrom_of_closed hclosed, Finsupp.add_apply, rakeAccount_locked]
      simp [Finsupp.single_apply]
      ring
  | _ =>
      subst_vars
      simp [Ledger.escrow]

end Ledger

/-! ## Invariants of a run -/

variable {s s₀ : Database}

/-- Locked balances are what withdraws and bets hold, and tickets are consistent. -/
structure Database.Explained (s : Database) : Prop where
  tickets : s.TicketsConsistent
  locked : ∀ user, s.lockedOf user = s.escrow user

theorem explained_step (hs : s.WellFormed) (hexplained : s.Explained) (command : Command) :
    (step s command).Explained := by
  refine ⟨ticketsConsistent_step hs hexplained.tickets command, fun user => ?_⟩
  have hbooks : ∀ t : Database, t.ledger.books (locked user) - t.ledger.escrow user =
      t.lockedOf user - t.escrow user := by
    intro t
    rw [ledger_books_locked]
    rfl
  have hkept : (step s command).ledger.books (locked user) - (step s command).ledger.escrow user =
      s.ledger.books (locked user) - s.ledger.escrow user := by
    rcases ledger_command hs command with ⟨env, call, -, -, hstep⟩ | ⟨-, hsame⟩
    · exact hstep.escrow hexplained.tickets.withdraw user
    · simp only [Ledger.escrow, hsame.books, hsame.withdraws, hsame.bets]
  rw [hbooks, hbooks, hexplained.locked user, sub_self] at hkept
  exact sub_eq_zero.mp hkept

theorem Database.EmptyLedger.explained (hs : s₀.EmptyLedger) : s₀.Explained := by
  refine ⟨ticketsConsistent_run hs [], fun user => ?_⟩
  have hempty : s₀.escrow user = 0 := by
    simp [Database.escrow, hs.withdraws, hs.bets, Table.sum, Table.empty]
  rw [hempty, Database.lockedOf, Database.lockedBalance?, Table.select_some, hs.balances, Table.ofList,
    List.foldl_cons, List.foldl_nil, Table.get?_insertNew]
  split <;> rfl

theorem explained_run (hs : s₀.EmptyLedger) (commands : List Command) :
    (run step s₀ commands).Explained :=
  run_keeps Database.Explained (fun _ command hs hexplained => explained_step hs hexplained command)
    hs.wellFormed hs.explained commands

/-- No open bet holds a negative stake. -/
def Database.StakesNonneg (s : Database) : Prop :=
  ∀ id bet, s.bets.get? id = some bet → bet.status = .open → 0 ≤ bet.effectiveStake

/-- At sound rates every bet placed has a stake. -/
theorem stakesNonneg_step (hs : s.WellFormed) (command : Command)
    (hrates : ∀ env call, command = .call env call → s.SoundRates) (hstakes : s.StakesNonneg) :
    (step s command).StakesNonneg := by
  rcases ledger_command hs command with ⟨env, call, hcommand, -, hstep⟩ | ⟨-, hsame⟩
  · have hsound := hrates env call hcommand
    apply hstep.open_bets _ hstakes
    intro bet hcommission hrake hstake
    rw [hstake, hcommission, hrake]
    exact stake_nonneg bet.betAmount_pos (hsound.commission _) hsound.rake (hsound.total _)
  · have hbets : (step s command).bets = s.bets := hsame.bets
    rw [Database.StakesNonneg, hbets]
    exact hstakes

theorem Bet.heldFrom_nonneg {bet : Bet} (hstake : bet.status = .open → 0 ≤ bet.effectiveStake)
    (user : Int) : 0 ≤ bet.heldFrom user := by
  unfold heldFrom
  split
  next hopen => exact hstake hopen.2
  next => exact le_rfl

/-- An explained lock covers each of its parts. -/
theorem backed_of_explained (hexplained : s.Explained) (hstakes : s.StakesNonneg) : s.Backed := by
  have hheld : ∀ user uid ticket, s.withdrawTickets.get? uid = some ticket →
      0 ≤ ticket.heldFrom user := fun user _ ticket _ => ticket.heldFrom_nonneg user
  have hstaked : ∀ user id bet, s.bets.get? id = some bet → 0 ≤ bet.heldFrom user :=
    fun user id bet hbet => Bet.heldFrom_nonneg (hstakes id bet hbet) user
  constructor
  · intro uid ticket hticket hstatus
    have hpending := pending_of_consistent (hexplained.tickets.withdraw uid ticket hticket) hstatus
    have hpart := Table.le_sum_of_get? (hheld ticket.discordId) hticket
    have hrest := Table.sum_nonneg (hstaked ticket.discordId)
    rw [WithdrawTicket.heldFrom_of_pending hpending, if_pos rfl] at hpart
    rw [hexplained.locked, Database.escrow]
    omega
  · intro id bet hbet hopen
    have hpart := Table.le_sum_of_get? (hstaked bet.discordId) hbet
    have hrest := Table.sum_nonneg (hheld bet.discordId)
    rw [Bet.heldFrom_of_open hopen, if_pos rfl] at hpart
    rw [hexplained.locked, Database.escrow]
    omega

/-- A database whose locked balances cover its pending withdraws and open bets. -/
structure Database.Solvent (s : Database) : Prop where
  wellFormed : s.WellFormed
  explained : s.Explained
  stakes : s.StakesNonneg

theorem solvent_step (s : Database) (command : Command)
    (hrates : ∀ env call, command = .call env call → s.SoundRates) (hs : s.Solvent) :
    (step s command).Solvent :=
  ⟨wellFormed_step hs.wellFormed command, explained_step hs.wellFormed hs.explained command,
    stakesNonneg_step hs.wellFormed command hrates hs.stakes⟩

theorem Database.EmptyLedger.solvent (h₀ : s₀.EmptyLedger) : s₀.Solvent := by
  refine ⟨h₀.wellFormed, h₀.explained, fun id bet hbet => ?_⟩
  simp [h₀.bets] at hbet

/-- Every call of the run meets sound rates. -/
def RatesSound (s₀ : Database) (commands : List Command) : Prop :=
  ∀ s env call, (s, Command.call env call) ∈ steps step s₀ commands → s.SoundRates

theorem RatesSound.of_mem {commands : List Command} (h : RatesSound s₀ commands) :
    ∀ s command, (s, command) ∈ steps step s₀ commands →
      ∀ env call, command = .call env call → s.SoundRates := by
  rintro s command hmem env call rfl
  exact h s env call hmem

/-- Solvency from the empty ledger, while every call meets sound rates. -/
theorem solvent_run (h₀ : s₀.EmptyLedger) (commands : List Command)
    (hrates : RatesSound s₀ commands) : (run step s₀ commands).Solvent :=
  run_invariant_of_steps solvent_step h₀.solvent hrates.of_mem

/-! ## Cancelling a pending withdraw -/

/-- A pending withdraw whose lock is covered can be cancelled by anybody, as long
as the refunded balance fits its column. -/
theorem cancelWithdraw_returns {env : Env} (hs : s.WellFormed) {uid : String}
    {ticket : WithdrawTicket} (hticket : s.withdrawTickets.get? uid = some ticket)
    (hstatus : ¬ ticket.status.Terminal) (hcovered : ticket.amount ≤ s.lockedOf ticket.discordId)
    {key : Bytes} (hkey : env.chainKey = .ok key)
    (hroom : InBigint (s.balanceOf ticket.discordId + ticket.amount)) (actor : Int)
    (reason : Option String) :
    (Call.cancelWithdraw (some uid) (some actor) reason).Succeeds env s := by
  have hpositive := ticket.amount_pos
  obtain ⟨row, hrow⟩ : ∃ row, s.balances.get? ticket.discordId = some row := by
    by_contra hnone
    simp only [not_exists, ← Option.eq_none_iff_forall_ne_some] at hnone
    simp only [Database.lockedOf, Database.lockedBalance?, Table.select_some, hnone,
      Option.map_none, Option.getD_none] at hcovered
    omega
  have hbefore : s.balance? (some ticket.discordId) = some row.balance := by
    rw [Database.balance?, Table.select_some, hrow, Option.map_some]
  have huser : s.HasUser ticket.discordId := hs.registered _ (by simp [Database.HasAccount, hrow])
  have hshort := not_isLt_of_backed hcovered
  rw [lockedOf_of_get? hrow] at hcovered
  rw [balanceOf_of_get? hrow] at hroom
  have hwp : wp (callBody env (.cancelWithdraw (some uid) (some actor) reason)) (fun _ _ => True)
      (fun _ => False) s := by
    unfold callBody cancelWithdraw
    simp only [wp_bind, wp_get, wp_require, wp_raiseIf, wp_ifDo, wp_nullableBigint,
      wp_updateBalance, wp_updateWithdraw, wp_auditLogInsertWithChain, wp_upsertCashierStats,
      wp_pure, Table.select_some, hticket, hkey, hbefore, hrow, Option.map_some, Option.getD_some,
      Option.some.injEq, Except.ok.injEq, forall_eq', reduceCtorEq, false_implies, implies_true,
      and_true, true_and, hstatus, hshort, hroom, not_true_eq_false, not_false_eq_true, false_and]
    intro _ _ _
    constructor
    · intro e
      obtain ⟨hbalance, hlocked, hwagered, hwon⟩ := row.inRange
      have hamount := row.balance_nonneg
      have hrange : InBigint (row.lockedBalance - ticket.amount) := by
        unfold InBigint at hlocked ⊢
        omega
      apply Balance.check_ne_error
      · exact ⟨hroom, hrange, hwagered, hwon⟩
      · exact add_nonneg hamount hpositive.le
      · exact sub_nonneg.mpr hcovered
      · exact row.totalWagered_nonneg
      · exact row.totalWon_nonneg
    · intro new _ _
      exact ⟨fun hnone => huser hnone, fun _ _ hrange => hrange (CashierStats.inRange _)⟩
  exact succeeds_of_wp hwp

/-- From `s` to `s'` a withdraw was cancelled and refunded in full from the lock. -/
structure Database.Refunds (s : Database) (uid : String) (ticket : WithdrawTicket) (s' : Database) :
    Prop where
  balance : s'.balanceOf ticket.discordId = s.balanceOf ticket.discordId + ticket.amount
  locked : s'.lockedOf ticket.discordId = s.lockedOf ticket.discordId - ticket.amount
  status : (s'.withdrawTickets.get? uid).map (fun cancelled => cancelled.status) = some .cancelled

theorem cancelWithdraw_refunds {env : Env} (hs : s.WellFormed) {uid : String}
    {ticket : WithdrawTicket} (hticket : s.withdrawTickets.get? uid = some ticket)
    {actor : Option Int} {reason : Option String}
    (hok : (Call.cancelWithdraw (some uid) actor reason).Succeeds env s) :
    s.Refunds uid ticket (step s (.call env (.cancelWithdraw (some uid) actor reason))) := by
  have hstep := (takes_of_succeeds hs hok).1
  generalize step s (.call env (.cancelWithdraw (some uid) actor reason)) = s' at hstep
  cases hstep with
  | quiet hquiet => exact absurd hquiet id
  | betResolved hcall => rcases hcall with ⟨_, hcall⟩ | ⟨_, hcall, -⟩ <;> cases hcall
  | withdrawCancelled hold hstatus hl' =>
      have hold : s.withdrawTickets.get? uid = _ := hold
      rw [hticket, Option.some.injEq] at hold
      subst hold
      have hbooks := congrArg Ledger.books hl'
      have hwithdraws : s'.withdrawTickets = s.withdrawTickets.set uid _ :=
        congrArg Ledger.withdraws hl'
      refine ⟨?_, ?_, ?_⟩
      · have hwallet := DFunLike.congr_fun hbooks (wallet ticket.discordId)
        simpa [ledger_books_wallet] using hwallet
      · have hlocked := DFunLike.congr_fun hbooks (locked ticket.discordId)
        simpa [ledger_books_locked, sub_eq_add_neg] using hlocked
      · rw [hwithdraws]
        rw [Table.get?_set_self hticket]
        rfl

/-- A user without an account has the amounts of an empty one. -/
theorem exists_balanceRow (s : Database) (u : Int) :
    ∃ row : Balance, s.balanceOf u = row.balance ∧ s.lockedOf u = row.lockedBalance := by
  cases hrow : s.balances.get? u with
  | none =>
      refine ⟨.zero, ?_, ?_⟩
      · simp [Database.balanceOf, Database.balance?, hrow, Balance.zero]
      · simp [Database.lockedOf, Database.lockedBalance?, hrow, Balance.zero]
  | some row => exact ⟨row, balanceOf_of_get? hrow, lockedOf_of_get? hrow⟩

/-- Every balance fits its column. -/
theorem balanceOf_inBigint (s : Database) (u : Int) : InBigint (s.balanceOf u) := by
  obtain ⟨row, hbalance, -⟩ := exists_balanceRow s u
  exact hbalance ▸ row.inRange.1

theorem balanceOf_nonneg (s : Database) (u : Int) : 0 ≤ s.balanceOf u := by
  obtain ⟨row, hbalance, -⟩ := exists_balanceRow s u
  exact hbalance ▸ row.balance_nonneg

theorem lockedOf_inBigint (s : Database) (u : Int) : InBigint (s.lockedOf u) := by
  obtain ⟨row, -, hlocked⟩ := exists_balanceRow s u
  exact hlocked ▸ row.inRange.2.1

theorem lockedOf_nonneg (s : Database) (u : Int) : 0 ≤ s.lockedOf u := by
  obtain ⟨row, -, hlocked⟩ := exists_balanceRow s u
  exact hlocked ▸ row.lockedBalance_nonneg

/-! ## Runs -/

/-- Locked funds after a run of commands: they are explained by withdraws and
bets; at sound rates and a smallest withdraw that is not negative no call of the run
failed for want of them; and at sound rates every pending withdraw can be cancelled
with a full refund that fits its owner's balance. -/
structure LockedExplained (s₀ : Database) (commands : List Command) : Prop where
  locked : ∀ user, (run step s₀ commands).lockedOf user = (run step s₀ commands).escrow user
  spared : (∀ s env call, (s, Command.call env call) ∈ steps step s₀ commands → s.SoundConfig) →
    ∀ s env call e, (s, Command.call env call) ∈ steps step s₀ commands →
      (call.exec env s).1 = .error e → e.Spared
  cancellable : RatesSound s₀ commands → ∀ uid ticket env key actor reason,
    (run step s₀ commands).withdrawTickets.get? uid = some ticket →
    ticket.status = .open ∨ ticket.status = .claimed → env.chainKey = .ok key →
    InBigint ((run step s₀ commands).balanceOf ticket.discordId + ticket.amount) →
    (Call.cancelWithdraw (some uid) (some actor) reason).Succeeds env (run step s₀ commands) ∧
      (run step s₀ commands).Refunds uid ticket
        (step (run step s₀ commands) (.call env (.cancelWithdraw (some uid) (some actor) reason)))

/-- Locked funds are explained after every run from the empty ledger, whatever happens
to the configuration, and short of nothing while its rates are sound. -/
theorem locked_explained (hs : s₀.EmptyLedger) (commands : List Command) :
    LockedExplained s₀ commands where
  locked := (explained_run hs commands).locked
  spared := by
    intro hconfig s env call e hmem herror
    have hrates : RatesSound s₀ commands :=
      fun s env call hmem => (hconfig s env call hmem).toSoundRates
    have hmet := steps_invariant_of_steps solvent_step hs.solvent hrates.of_mem hmem
    have hbacked := backed_of_explained hmet.explained hmet.stakes
    exact transact_raises _ (callBody_spares hbacked (hconfig s env call hmem) call) herror
  cancellable := by
    intro hrates uid ticket env key actor reason hticket hpending hkey hroom
    have hend := solvent_run hs commands hrates
    have hopen : ¬ ticket.status.Terminal := by
      rcases hpending with hstatus | hstatus <;> simp [hstatus, TicketStatus.Terminal]
    have hbacked := backed_of_explained hend.explained hend.stakes
    have hcovered := hbacked.withdraw uid ticket hticket hopen
    have hok := cancelWithdraw_returns hend.wellFormed hticket hopen hcovered hkey hroom actor reason
    exact ⟨hok, cancelWithdraw_refunds hend.wellFormed hticket hok⟩

/-- A withdraw is pending while a bet is open, then claimed, then cancelled. -/
def lockRun : List Command :=
  depositRun ++
    [.call .plain (.createWithdrawTicket (some 9) (some "Char") (some "Realm") (some "EU")
      (some "Horde") (some 1000) (some 3) (some 2)),
     .call .plain (.applyBet (some 9) (some "dice") (some 1) (some 500) (some .null) (some [])
      (some "seed") (some 0) (some "key-1") (some "bet-1")),
     .call .plain (.claimTicket (some "withdraw") (some "withdraw-1") (some 7)),
     .call .plain (.cancelWithdraw (some "withdraw-1") (some 9) none)]

theorem soundRates_of_seeded (hgames : s.gameConfig.rows = gameDefaults.rows)
    (hluck : s.luckConfig.rows = seedLuckConfig.rows) : s.SoundRates := by
  have hrake : s.rakeBps = 100 := by
    rw [Database.rakeBps, Table.ext_rows hluck]
    decide
  have htotal : ∀ row ∈ gameDefaults.rows, row.2.commissionBps.getD 0 ≤ 9900 := by decide
  constructor
  · rw [Table.ext_rows hgames]
    exact seeded_commission
  · rw [hrake]
    decide
  · intro game
    rw [Table.ext_rows hgames, hrake, commissionBpsOf]
    cases hgame : gameDefaults.get? game with
    | none => decide
    | some config =>
        have hbps : config.commissionBps.getD 0 ≤ 9900 :=
          htotal (game, config) (Table.get?_eq_some.mp hgame)
        simp only [Option.bind_some]
        omega

theorem soundConfig_of_seeded (hgames : s.gameConfig.rows = gameDefaults.rows)
    (hluck : s.luckConfig.rows = seedLuckConfig.rows)
    (hdw : s.dwConfig.rows = seedDwConfig.rows) : s.SoundConfig := by
  refine ⟨soundRates_of_seeded hgames hluck, fun minimum hminimum => ?_⟩
  rw [Database.dwInt, Table.ext_rows hdw] at hminimum
  have hseed : (seedDwConfig.get? "min_withdraw_g").join = some 1000 := by decide
  rw [hseed, Option.some.injEq] at hminimum
  omega

theorem locked_explained_seeded :
    LockedExplained .seeded lockRun ∧ ∀ s env call,
      (s, Command.call env call) ∈ steps step .seeded lockRun → s.SoundConfig := by
  have hrows : ∀ taken ∈ steps step .seeded lockRun,
      taken.1.gameConfig.rows = gameDefaults.rows ∧ taken.1.luckConfig.rows = seedLuckConfig.rows ∧
        taken.1.dwConfig.rows = seedDwConfig.rows := by
    decide
  refine ⟨locked_explained seeded_empty lockRun, fun s env call hmem => ?_⟩
  exact soundConfig_of_seeded (hrows _ hmem).1 (hrows _ hmem).2.1 (hrows _ hmem).2.2

/-- A withdraw of 1000 is pending while its owner's balance grows to the largest
that fits. -/
def fullAccountRun : List Command :=
  depositRun ++
    [.call .plain (.createWithdrawTicket (some 9) (some "Char") (some "Realm") (some "EU")
      (some "Horde") (some 5000) (some 3) (some 2)),
     .config (.dwConfig "max_deposit_g" (some (2 ^ 63 - 1))),
     .call .plain (.addCashierCharacter (some 8) (some "Bank") (some "Realm") (some "EU")
      (some "Horde")),
     .call .plain (.createDepositTicket (some 9) (some "Char") (some "Realm") (some "EU")
      (some "Horde") (some (2 ^ 63 - 1)) (some 4) (some 2)),
     .call .plain (.claimTicket (some "deposit") (some "deposit-3") (some 8)),
     .call .plain (.confirmDeposit (some "deposit-3") (some 8))]

set_option maxRecDepth 8000 in
/-- The pending withdraw of a full account cannot be cancelled by anybody; and with
a negative smallest withdraw a call fails on the locked balance. -/
theorem locked_explained_limits :
    (∃ ticket,
      (run step .seeded fullAccountRun).withdrawTickets.get? "withdraw-1" = some ticket ∧
        ticket.status = .open ∧
        ∀ env actor reason, ¬ (Call.cancelWithdraw (some "withdraw-1") actor reason).Succeeds env
          (run step .seeded fullAccountRun)) ∧
    ((Call.createWithdrawTicket (some 9) (some "Char") (some "Realm") (some "EU") (some "Horde")
        (some (-5)) (some 3) (some 2)).exec .plain
      (run step .seeded
        (depositRun ++ [.config (.dwConfig "min_withdraw_g" (some (-10)))]))).1 =
      .error (.checkViolation "balances_locked_balance_check") := by
  have hstate : (run step .seeded fullAccountRun).balanceOf 9 = 2 ^ 63 - 1 ∧
      ((run step .seeded fullAccountRun).withdrawTickets.get? "withdraw-1").map (fun ticket =>
        (ticket.status, ticket.discordId, ticket.amount)) = some (.open, 9, 5000) := by
    decide
  obtain ⟨hbalance, hrow⟩ := hstate
  obtain ⟨ticket, hticket, hcolumns⟩ := Option.map_eq_some_iff.mp hrow
  simp only [Prod.mk.injEq] at hcolumns
  obtain ⟨hstatus, howner, hamount⟩ := hcolumns
  refine ⟨⟨ticket, hticket, hstatus, fun env actor reason hok => ?_⟩, rfl⟩
  have hs := wellFormed_run seeded_empty.wellFormed fullAccountRun
  have hrefund := (cancelWithdraw_refunds hs hticket hok).balance
  have hroom := balanceOf_inBigint (step (run step .seeded fullAccountRun)
    (.call env (.cancelWithdraw (some "withdraw-1") actor reason))) ticket.discordId
  rw [hrefund, howner, hamount, hbalance] at hroom
  exact absurd hroom (by decide)

end DeathRoll
