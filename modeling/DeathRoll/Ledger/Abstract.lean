import DeathRoll.Ledger.Call
import Mathlib.Data.Finsupp.Weight

/-! # The ledger as an abstract machine

What the database is for: books that hold gold in accounts, an audited total
for every user, and the tickets, disputes and bets that move it. A step of the
machine posts signed amounts to accounts; each constructor lists what one
branch of one call posts and the rows it changes.
-/

namespace DeathRoll

open Relational
open Finsupp (single)

/-- Where gold can be: free or locked with a user, or in a raffle pool. -/
inductive Account where
  | wallet (discordId : Int)
  | locked (discordId : Int)
  | pool (period : Int)
deriving DecidableEq

structure Ledger where
  books : Account →₀ ℤ
  /-- Sum of `balance_after - balance_before` over the audit rows of each target. -/
  audited : ℤ →₀ ℤ
  deposits : Table String Ticket
  withdraws : Table String WithdrawTicket
  disputes : Table Int Dispute
  bets : Table Int Bet
  commissionBps : String → Int
  rakeBps : Int
  activePeriod : Option Int

open Account

/-- The account that receives rake while `period` is the active period. -/
def rakeAccount : Option Int → Account
  | some period => pool period
  | none => wallet 0

/-- The columns of a ticket that nobody has touched yet. -/
structure Ticket.Fresh (ticket : Ticket) : Prop where
  status : ticket.status = .open
  claimedBy : ticket.claimedBy = none
  claimedAt : ticket.claimedAt = none
  confirmedAt : ticket.confirmedAt = none
  cancelledAt : ticket.cancelledAt = none

namespace Ledger

/-- The calls that may leave the ledger as it is: retries of what has been
done, and those that concern no gold, ticket, dispute or bet. -/
def MayBeQuiet (l : Ledger) : Call → Prop
  | .confirmDeposit u _ =>
      ∃ uid ticket, u = some uid ∧ l.deposits.get? uid = some ticket ∧ ticket.status = .confirmed
  | .confirmWithdraw u _ =>
      ∃ uid ticket, u = some uid ∧ l.withdraws.get? uid = some ticket ∧ ticket.status = .confirmed
  | .applyBet d _ _ _ _ _ _ _ k _ =>
      ∃ id bet, l.bets.get? id = some bet ∧ d = some bet.discordId ∧ k = some bet.idempotencyKey
  | .resolveBet b _ _ _ | .refundBet b _ =>
      ∃ id bet, b = some id ∧ l.bets.get? id = some bet ∧ bet.status ≠ .open
  | .addCashierCharacter .. | .removeCashierCharacter .. | .setCashierStatus ..
  | .expireCashier .. | .banUser .. | .unbanUser .. | .consumeRateToken ..
  | .grantRaffleTickets .. => True
  | _ => False

/-- One call that returns, at transaction time `now`. -/
inductive Step (now : Timestamp) : Ledger → Call → Ledger → Prop
  | quiet {l l' : Ledger} {call : Call} (hquiet : l.MayBeQuiet call) (hl' : l' = l) :
      Step now l call l'
  | depositOpened {l l' : Ledger} {d c r g f a t p} {uid : String} {ticket : Ticket}
      (hnew : l.deposits.get? uid = none) (hfresh : ticket.Fresh)
      (hl' : l' = { l with deposits := l.deposits.insertNew uid ticket }) :
      Step now l (.createDepositTicket d c r g f a t p) l'
  | depositClaimed {l l' : Ledger} {uid : String} {ticket : Ticket} {cashier : Int}
      (hticket : l.deposits.get? uid = some ticket) (hstatus : ticket.status = .open)
      (hl' : l' = { l with deposits := l.deposits.set uid (ticket.claim now (some cashier)) }) :
      Step now l (.claimTicket (some "deposit") (some uid) (some cashier)) l'
  | depositReleased {l l' : Ledger} {uid : String} {ticket : Ticket} {actor : Option Int}
      (hticket : l.deposits.get? uid = some ticket) (hstatus : ticket.status = .claimed)
      (hl' : l' = { l with deposits := l.deposits.set uid (ticket.release now) }) :
      Step now l (.releaseTicket (some "deposit") (some uid) actor) l'
  | depositConfirmed {l l' : Ledger} {uid : String} {ticket : Ticket} {cashier : Int}
      (hticket : l.deposits.get? uid = some ticket) (hstatus : ticket.status = .claimed)
      (hcashier : ∀ claimer, ticket.claimedBy = some claimer → claimer = cashier)
      (hl' : l' =
        { l with
          books := l.books + single (wallet ticket.discordId) ticket.amount
          audited := l.audited + single ticket.discordId ticket.amount
          deposits := l.deposits.set uid (ticket.confirm now) }) :
      Step now l (.confirmDeposit (some uid) (some cashier)) l'
  | depositCancelled {l l' : Ledger} {uid : String} {ticket : Ticket} {actor : Option Int}
      {reason : Option String} (hticket : l.deposits.get? uid = some ticket)
      (hstatus : ¬ ticket.status.Terminal)
      (hl' : l' = { l with deposits := l.deposits.set uid (ticket.cancel now reason) }) :
      Step now l (.cancelDeposit (some uid) actor reason) l'
  | withdrawOpened {l l' : Ledger} {d c r g f a t p} {uid : String} {ticket : WithdrawTicket}
      (hnew : l.withdraws.get? uid = none) (hfresh : ticket.Fresh)
      (hdelivered : ticket.amountDelivered = none)
      (hl' : l' =
        { l with
          books := l.books + (single (wallet ticket.discordId) (-ticket.amount) +
            single (locked ticket.discordId) ticket.amount)
          audited := l.audited + single ticket.discordId (-ticket.amount)
          withdraws := l.withdraws.insertNew uid ticket }) :
      Step now l (.createWithdrawTicket d c r g f a t p) l'
  | withdrawClaimed {l l' : Ledger} {uid : String} {ticket : WithdrawTicket} {cashier : Int}
      (hticket : l.withdraws.get? uid = some ticket) (hstatus : ticket.status = .open)
      (hl' : l' =
        { l with
          withdraws := l.withdraws.set uid
            { ticket with toTicket := ticket.toTicket.claim now (some cashier) } }) :
      Step now l (.claimTicket (some "withdraw") (some uid) (some cashier)) l'
  | withdrawReleased {l l' : Ledger} {uid : String} {ticket : WithdrawTicket} {actor : Option Int}
      (hticket : l.withdraws.get? uid = some ticket) (hstatus : ticket.status = .claimed)
      (hl' : l' =
        { l with
          withdraws := l.withdraws.set uid
            { ticket with toTicket := ticket.toTicket.release now } }) :
      Step now l (.releaseTicket (some "withdraw") (some uid) actor) l'
  | withdrawConfirmed {l l' : Ledger} {uid : String} {ticket : WithdrawTicket} {cashier : Int}
      (hticket : l.withdraws.get? uid = some ticket) (hstatus : ticket.status = .claimed)
      (hcashier : ∀ claimer, ticket.claimedBy = some claimer → claimer = cashier)
      (hl' : l' =
        { l with
          books := l.books + (single (locked ticket.discordId) (-ticket.amount) +
            single (wallet 0) ticket.fee)
          audited := l.audited + single 0 ticket.fee
          withdraws := l.withdraws.set uid
            { ticket with
              toTicket := ticket.toTicket.confirm now
              amountDelivered := some (ticket.amount - ticket.fee) } }) :
      Step now l (.confirmWithdraw (some uid) (some cashier)) l'
  | withdrawCancelled {l l' : Ledger} {uid : String} {ticket : WithdrawTicket} {actor : Option Int}
      {reason : Option String} (hticket : l.withdraws.get? uid = some ticket)
      (hstatus : ¬ ticket.status.Terminal)
      (hl' : l' =
        { l with
          books := l.books + (single (wallet ticket.discordId) ticket.amount +
            single (locked ticket.discordId) (-ticket.amount))
          audited := l.audited + single ticket.discordId ticket.amount
          withdraws := l.withdraws.set uid
            { ticket with toTicket := ticket.toTicket.cancel now reason } }) :
      Step now l (.cancelWithdraw (some uid) actor reason) l'
  | disputeOpened {l l' : Ledger} {t u o e r} {id : Int} {dispute : Dispute}
      (hnew : l.disputes.get? id = none)
      (hunique : ∀ other d, l.disputes.get? other = some d →
        ¬ (d.ticketType = dispute.ticketType ∧ d.ticketUid = dispute.ticketUid))
      (hstatus : dispute.status = .open)
      (hl' : l' = { l with disputes := l.disputes.insertNew id dispute }) :
      Step now l (.openDispute t u o e r) l'
  | disputeRejected {l l' : Ledger} {id : Int} {dispute : Dispute} {reason : Option String}
      {admin : Option Int} (hdispute : l.disputes.get? id = some dispute)
      (hstatus : ¬ dispute.status.Terminal)
      (hl' : l' =
        { l with disputes := l.disputes.set id (dispute.close now .rejected reason admin) }) :
      Step now l (.rejectDispute (some id) reason admin) l'
  | disputeDismissed {l l' : Ledger} {id : Int} {dispute : Dispute} {action : String}
      {amount admin : Option Int} (hdispute : l.disputes.get? id = some dispute)
      (hstatus : ¬ dispute.status.Terminal)
      (haction : action = "no-action" ∨ action = "force-confirm")
      (hl' : l' =
        { l with
          disputes := l.disputes.set id (dispute.close now .resolved (some action) admin) }) :
      Step now l (.resolveDispute (some id) (some action) amount admin) l'
  /-- A partial or full refund, paid from the treasury. -/
  | disputeRefunded {l l' : Ledger} {id : Int} {dispute : Dispute} {action : String}
      {amount admin : Option Int} {user paid : Int} (hdispute : l.disputes.get? id = some dispute)
      (hstatus : ¬ dispute.status.Terminal)
      (haction : action = "partial-refund" ∨ action = "refund-full" ∧
        ∃ ticket, dispute.ticketType = .withdraw ∧
          l.withdraws.get? dispute.ticketUid = some ticket ∧ user = ticket.discordId ∧
          paid = ticket.amount)
      (huser : user ≠ 0)
      (hl' : l' =
        { l with
          books := l.books + (single (wallet 0) (-paid) + single (wallet user) paid)
          audited := l.audited + (single 0 (-paid) + single user paid)
          disputes := l.disputes.set id (dispute.close now .resolved (some action) admin) }) :
      Step now l (.resolveDispute (some id) (some action) amount admin) l'
  | swept {l l' : Ledger} {amount : Int} {admin : Option Int} {reason : Option String}
      (hl' : l' =
        { l with
          books := l.books + single (wallet 0) (-amount)
          audited := l.audited + single 0 (-amount) }) :
      Step now l (.treasurySweep (some amount) admin reason) l'
  | treasuryPaid {l l' : Ledger} {amount user : Int} {admin : Option Int} {reason : Option String}
      (huser : user ≠ 0)
      (hl' : l' =
        { l with
          books := l.books + (single (wallet 0) (-amount) + single (wallet user) amount)
          audited := l.audited + (single 0 (-amount) + single user amount) }) :
      Step now l (.treasuryWithdrawToUser (some amount) (some user) admin reason) l'
  | betPlaced {l l' : Ledger} {c s h k n u} {id : Int} {bet : Bet}
      (hnew : l.bets.get? id = none) (hstatus : bet.status = .open)
      (hfirst : ∀ other b, l.bets.get? other = some b →
        ¬ (b.discordId = bet.discordId ∧ b.idempotencyKey = bet.idempotencyKey))
      (hcommission : bet.commission = (bet.betAmount * l.commissionBps bet.gameName).tdiv 10000)
      (hrake : bet.rake = (bet.betAmount * l.rakeBps).tdiv 10000)
      (hstake : bet.effectiveStake = bet.betAmount - bet.commission - bet.rake)
      (hperiod : bet.rakePeriodId = l.activePeriod)
      (hl' : l' =
        { l with
          books := l.books + (single (wallet bet.discordId) (-bet.betAmount) +
            single (locked bet.discordId) bet.effectiveStake +
            single (wallet 0) (max bet.commission 0) +
            single (rakeAccount l.activePeriod) (max bet.rake 0))
          audited := l.audited + single bet.discordId (-bet.betAmount)
          bets := l.bets.insertNew id bet }) :
      Step now l (.applyBet (some bet.discordId) (some bet.gameName) c (some bet.betAmount) s h k n
        (some bet.idempotencyKey) u) l'
  | betResolved {l l' : Ledger} {call : Call} {id credit : Int} {bet closed : Bet}
      {status : Option String} {payout : Option Int}
      (hcall : (∃ outcome, call = .resolveBet (some id) status payout outcome) ∨
        ∃ multiplier, call = .cashoutMines (some id) multiplier ∧
          status = some "resolved_win" ∧
          payout = multiplier.map fun m => m.floorMul bet.effectiveStake)
      (hbet : l.bets.get? id = some bet) (hstatus : bet.status = .open)
      (hcredit : creditUser status payout bet.effectiveStake = some credit)
      (hclosed : closed.status ≠ .open) (howner : closed.discordId = bet.discordId)
      (hperiod : closed.rakePeriodId = bet.rakePeriodId)
      (hl' : l' =
        { l with
          books := l.books + (single (wallet bet.discordId) credit +
            single (locked bet.discordId) (-bet.effectiveStake) +
            single (wallet 0) (bet.effectiveStake - credit))
          audited := l.audited + single bet.discordId credit
          bets := l.bets.set id closed }) :
      Step now l call l'
  | betRefunded {l l' : Ledger} {id : Int} {bet closed : Bet} {reason : Option String}
      (hbet : l.bets.get? id = some bet) (hstatus : bet.status = .open)
      (hclosed : closed.status ≠ .open) (howner : closed.discordId = bet.discordId)
      (hperiod : closed.rakePeriodId = bet.rakePeriodId)
      (hl' : l' =
        { l with
          books := l.books + (single (wallet bet.discordId) bet.betAmount +
            single (locked bet.discordId) (-bet.effectiveStake) +
            single (wallet 0) (-max bet.commission 0) +
            single (rakeAccount bet.rakePeriodId) (-max bet.rake 0))
          audited := l.audited + single bet.discordId bet.betAmount
          bets := l.bets.set id closed }) :
      Step now l (.refundBet (some id) reason) l'

end Ledger

end DeathRoll
