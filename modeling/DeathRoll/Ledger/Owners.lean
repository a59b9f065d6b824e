import DeathRoll.Ledger.AuditTargets

/-! # Owners have accounts

A withdraw and a bet are paid for when they are recorded, so their owner has an
account, and accounts are never deleted. The tables themselves say nothing of it:
`dw.withdraw_tickets` has no foreign key into `core.balances`.
-/

namespace DeathRoll

open Relational Account
open Finsupp (single)

/-! ## One step of the abstract ledger -/

namespace Ledger

variable {now : Timestamp} {l l' : Ledger} {call : Call} {P : Int → Prop}

/-- A new withdraw has an owner whose gold moved; the others keep theirs. -/
theorem Step.withdraw_owner (hstep : Step now l call l')
    (hmoved : ∀ user, l'.books (wallet user) ≠ l.books (wallet user) → P user)
    (hl : ∀ uid ticket, l.withdraws.get? uid = some ticket → P ticket.discordId) :
    ∀ uid ticket, l'.withdraws.get? uid = some ticket → P ticket.discordId := by
  have hset : ∀ {key : String} {old new : WithdrawTicket}, l.withdraws.get? key = some old →
      new.discordId = old.discordId →
      ∀ uid ticket, (l.withdraws.set key new).get? uid = some ticket → P ticket.discordId := by
    intro key old new hold howner uid ticket hticket
    rw [Table.get?_set] at hticket
    split at hticket
    next heq =>
      subst heq
      rw [hold, Option.map_some, Option.some.injEq] at hticket
      rw [← hticket, howner]
      exact hl _ old hold
    next => exact hl uid ticket hticket
  cases hstep with
  | @withdrawOpened _ d c r g f a t p uid ticket hnew hfresh hdelivered hl' =>
      have hpaid : P ticket.discordId := by
        have hbooks : l'.books (wallet ticket.discordId) =
            l.books (wallet ticket.discordId) - ticket.amount := by
          subst hl'
          simp [sub_eq_add_neg]
        apply hmoved
        have hpos := ticket.amount_pos
        omega
      subst hl'
      intro key other hother
      rw [Table.get?_insertNew] at hother
      split at hother
      next =>
        rw [hnew, Option.getD_none, Option.some.injEq] at hother
        exact hother ▸ hpaid
      next => exact hl key other hother
  | withdrawClaimed hold hstatus hl' =>
      subst hl'
      exact hset hold rfl
  | withdrawReleased hold hstatus hl' =>
      subst hl'
      exact hset hold rfl
  | withdrawConfirmed hold hstatus hcashier hl' =>
      subst hl'
      exact hset hold rfl
  | withdrawCancelled hold hstatus hl' =>
      subst hl'
      exact hset hold rfl
  | _ =>
      subst_vars
      exact hl

/-- A new bet has the treasury or a user whose gold moved for its owner. -/
theorem Step.bet_owner (hstep : Step now l call l') (htreasury : P 0)
    (hmoved : ∀ user, l'.books (wallet user) ≠ l.books (wallet user) → P user)
    (hl : ∀ id bet, l.bets.get? id = some bet → P bet.discordId) :
    ∀ id bet, l'.bets.get? id = some bet → P bet.discordId := by
  have hset : ∀ {key : Int} {old closed : Bet}, l.bets.get? key = some old →
      closed.discordId = old.discordId →
      ∀ id bet, (l.bets.set key closed).get? id = some bet → P bet.discordId := by
    intro key old closed hold howner id bet hbet
    rw [Table.get?_set] at hbet
    split at hbet
    next heq =>
      subst heq
      rw [hold, Option.map_some, Option.some.injEq] at hbet
      rw [← hbet, howner]
      exact hl _ old hold
    next => exact hl id bet hbet
  cases hstep with
  | @betPlaced _ c s h k n u id bet hnew hopen hfirst hcommission hrake hstake hperiod hl' =>
      have hpaid : P bet.discordId := by
        by_cases hzero : bet.discordId = 0
        · rw [hzero]
          exact htreasury
        · have hrake : single (rakeAccount l.activePeriod) (max bet.rake 0)
              (wallet bet.discordId) = 0 := by
            cases l.activePeriod <;> simp [rakeAccount, Ne.symm hzero]
          have hbooks : l'.books (wallet bet.discordId) =
              l.books (wallet bet.discordId) - bet.betAmount := by
            subst hl'
            simp [hrake, Ne.symm hzero, sub_eq_add_neg]
          apply hmoved
          have hpos := bet.betAmount_pos
          omega
      subst hl'
      intro key other hother
      rw [Table.get?_insertNew] at hother
      split at hother
      next =>
        rw [hnew, Option.getD_none, Option.some.injEq] at hother
        exact hother ▸ hpaid
      next => exact hl key other hother
  | betResolved hcall hget hopen hcredit hclosed howner hperiod hl' =>
      subst hl'
      exact hset hget howner
  | betRefunded hget hopen hclosed howner hperiod hl' =>
      subst hl'
      exact hset hget howner
  | _ =>
      subst_vars
      exact hl

end Ledger

/-! ## Runs -/

variable {s s' s₀ : Database}

/-- Owners of withdraws and of bets have accounts. -/
structure Database.OwnersHeld (s : Database) : Prop where
  withdraws : ∀ uid ticket, s.withdrawTickets.get? uid = some ticket →
    s.HasAccount ticket.discordId
  bets : ∀ id bet, s.bets.get? id = some bet → s.HasAccount bet.discordId

/-- Gold only moves on accounts that are there. -/
theorem hasAccount_of_moved (hgrows : s.Grows s') {user : Int}
    (hmoved : s'.ledger.books (wallet user) ≠ s.ledger.books (wallet user)) :
    s'.HasAccount user := by
  intro hnone
  have hzero : ∀ t : Database, t.balances.get? user = none → t.balanceOf user = 0 := by
    intro t ht
    rw [Database.balanceOf, Database.balance?, Table.select_some, ht]
    rfl
  have hbefore : s.balances.get? user = none := by
    by_contra haccount
    exact hgrows.accounts haccount hnone
  rw [ledger_books_wallet, ledger_books_wallet, hzero s' hnone, hzero s hbefore] at hmoved
  exact hmoved rfl

theorem ownersHeld_step (hs : s.WellFormed) (howners : s.OwnersHeld) (command : Command) :
    (step s command).OwnersHeld := by
  have hkept : ∀ s', s.Grows s' → s'.withdrawTickets = s.withdrawTickets → s'.bets = s.bets →
      s'.OwnersHeld := by
    intro s' hgrows hwithdraws hbets
    refine ⟨fun uid ticket hticket => ?_, fun id bet hbet => ?_⟩
    · rw [hwithdraws] at hticket
      exact hgrows.accounts (howners.withdraws uid ticket hticket)
    · rw [hbets] at hbet
      exact hgrows.accounts (howners.bets id bet hbet)
  cases command with
  | call env call =>
      by_cases hok : call.Succeeds env s
      · obtain ⟨hstep, hgrows⟩ := takes_of_succeeds hs hok
        have hmoved := fun user => @hasAccount_of_moved _ _ hgrows user
        exact ⟨hstep.withdraw_owner hmoved fun uid ticket hticket =>
            hgrows.accounts (howners.withdraws uid ticket hticket),
          hstep.bet_owner (hgrows.accounts hs.treasury) hmoved fun id bet hbet =>
            hgrows.accounts (howners.bets id bet hbet)⟩
      · obtain ⟨atError, heq⟩ := step_of_fails hok
        rw [heq]
        exact ⟨howners.withdraws, howners.bets⟩
  | config write =>
      have hsame := @config_sameState s write
      exact hkept _ (config_grows write) hsame.withdraws hsame.bets

theorem ownersHeld_run (hs : s₀.EmptyLedger) (commands : List Command) :
    (run step s₀ commands).OwnersHeld := by
  have hstart : s₀.OwnersHeld := by
    refine ⟨fun uid ticket hticket => ?_, fun id bet hbet => ?_⟩
    · simp [hs.withdraws] at hticket
    · simp [hs.bets] at hbet
  exact run_keeps Database.OwnersHeld
    (fun s command hs howners => ownersHeld_step hs howners command) hs.wellFormed hstart commands

end DeathRoll
