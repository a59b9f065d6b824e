import DeathRoll.Core.AuditChain
import DeathRoll.Relational.Nullable
import DeathRoll.Relational.Table
import DeathRoll.Relational.Transaction
import Mathlib.Logic.Function.Basic

/-! # The database

Rows of the `core`, `dw` and `luck` tables that the ledger functions read and
write. A row's `CHECK` constraints are fields, so a stored row satisfies them
and a write that would break one has to raise. Counters that a call moves by
one (sequences, cashier counters) are unbounded; amounts are 64-bit.
-/

namespace DeathRoll

open Relational

/-- `core.users`. -/
structure User where
  banned : Bool := false
  bannedReason : Option String := none
  bannedAt : Option Timestamp := none
deriving DecidableEq

/-- The amounts of a `core.balances` row, before its constraints are checked. -/
structure BalanceRow where
  balance : Int := 0
  lockedBalance : Int := 0
  totalWagered : Int := 0
  totalWon : Int := 0
deriving DecidableEq

def BalanceRow.InRange (row : BalanceRow) : Prop :=
  InBigint row.balance ∧ InBigint row.lockedBalance ∧
    InBigint row.totalWagered ∧ InBigint row.totalWon

instance (row : BalanceRow) : Decidable row.InRange := instDecidableAnd

/-- `core.balances`, with its four `CHECK` constraints. -/
structure Balance extends BalanceRow where
  inRange : toBalanceRow.InRange
  balance_nonneg : 0 ≤ balance
  lockedBalance_nonneg : 0 ≤ lockedBalance
  totalWagered_nonneg : 0 ≤ totalWagered
  totalWon_nonneg : 0 ≤ totalWon
deriving DecidableEq

/-- The row of a newly registered user. -/
def Balance.zero : Balance :=
  ⟨{}, by decide, le_rfl, le_rfl, le_rfl, le_rfl⟩

/-- Store a computed row, or raise the constraint it breaks: overflow is found
while computing, the `CHECK`s are tested in the order of their names. -/
def Balance.check (row : BalanceRow) : Except DbError Balance :=
  if hrange : row.InRange then
    if hbalance : 0 ≤ row.balance then
      if hlocked : 0 ≤ row.lockedBalance then
        if hwagered : 0 ≤ row.totalWagered then
          if hwon : 0 ≤ row.totalWon then
            .ok ⟨row, hrange, hbalance, hlocked, hwagered, hwon⟩
          else .error (.checkViolation "balances_total_won_check")
        else .error (.checkViolation "balances_total_wagered_check")
      else .error (.checkViolation "balances_locked_balance_check")
    else .error (.checkViolation "balances_balance_check")
  else .error .bigintOutOfRange

theorem Balance.ext_row {a b : Balance} (hrow : a.toBalanceRow = b.toBalanceRow) : a = b := by
  cases a
  cases b
  cases hrow
  rfl

/-- A row is stored exactly when it is a valid row. -/
theorem Balance.check_eq_ok {row : BalanceRow} {stored : Balance} :
    Balance.check row = .ok stored ↔ stored.toBalanceRow = row := by
  constructor
  · intro hcheck
    unfold Balance.check at hcheck
    repeat' split at hcheck
    all_goals first | (cases hcheck; rfl) | cases hcheck
  · rintro rfl
    simp [Balance.check, stored.inRange, stored.balance_nonneg, stored.lockedBalance_nonneg,
      stored.totalWagered_nonneg, stored.totalWon_nonneg]

/-- A row in range without negative amounts is stored. -/
theorem Balance.check_ne_error {row : BalanceRow} (hrange : row.InRange) (hbalance : 0 ≤ row.balance)
    (hlocked : 0 ≤ row.lockedBalance) (hwagered : 0 ≤ row.totalWagered) (hwon : 0 ≤ row.totalWon)
    (e : DbError) : Balance.check row ≠ .error e := by
  simp [Balance.check, hrange, hbalance, hlocked, hwagered, hwon]

/-- The columns shared by `dw.deposit_tickets` and `dw.withdraw_tickets`. -/
structure Ticket where
  id : Int
  discordId : Int
  charName : String
  realm : String
  region : Region
  faction : Faction
  amount : Int
  status : TicketStatus
  claimedBy : Option Int := none
  claimedAt : Option Timestamp := none
  confirmedAt : Option Timestamp := none
  cancelledAt : Option Timestamp := none
  cancelReason : Option String := none
  threadId : Int
  parentChannelId : Int
  expiresAt : Timestamp
  lastActivityAt : Timestamp
  createdAt : Timestamp
  amount_pos : 0 < amount
deriving DecidableEq

/-- `dw.withdraw_tickets`; `dw.deposit_tickets` has the shared columns only. -/
structure WithdrawTicket extends Ticket where
  fee : Int
  amountDelivered : Option Int := none
  fee_nonneg : 0 ≤ fee
deriving DecidableEq

/-- `dw.disputes`. -/
structure Dispute where
  ticketType : TicketType
  ticketUid : String
  openerId : Int
  openerRole : OpenerRole
  reason : String
  status : DisputeStatus
  resolution : Option String := none
  resolvedBy : Option Int := none
  resolvedAt : Option Timestamp := none
  openedAt : Timestamp
deriving DecidableEq

/-- The key of `dw.cashier_characters`: `(discord_id, char_name, realm, region)`. -/
structure CharacterKey where
  discordId : Int
  charName : String
  realm : String
  region : Region
deriving DecidableEq

/-- `dw.cashier_characters`. -/
structure CashierCharacter where
  id : Int
  faction : Faction
  isActive : Bool
  addedAt : Timestamp
  removedAt : Option Timestamp := none
deriving DecidableEq

/-- `dw.cashier_status`. -/
structure CashierStatus where
  status : CashierState
  setAt : Timestamp
  lastActiveAt : Timestamp
deriving DecidableEq

/-- `dw.cashier_sessions`. -/
structure CashierSession where
  discordId : Int
  startedAt : Timestamp
  endedAt : Option Timestamp := none
  durationS : Option Int := none
  endReason : Option SessionEnd := none
deriving DecidableEq

/-- The columns of a `dw.cashier_stats` row, before the volume is range-checked. -/
structure CashierStatsRow where
  depositsCompleted : Int := 0
  depositsCancelled : Int := 0
  withdrawsCompleted : Int := 0
  withdrawsCancelled : Int := 0
  totalVolumeG : Int := 0
  lastActiveAt : Option Timestamp := none
deriving DecidableEq

/-- `dw.cashier_stats`. -/
structure CashierStats extends CashierStatsRow where
  inRange : InBigint totalVolumeG
deriving DecidableEq

def CashierStats.zero : CashierStats := ⟨{}, by decide⟩

/-- `luck.game_config`; `commissionBps` is `(extra_config->>'commission_bps')::INT`. -/
structure GameConfig where
  enabled : Bool
  minBet : Int
  maxBet : Int
  commissionBps : Option Int
  minBet_pos : 0 < minBet
  minBet_le_maxBet : minBet ≤ maxBet
deriving DecidableEq

/-- `luck.bets`. -/
structure Bet where
  betUid : String
  discordId : Int
  gameName : String
  channelId : Int
  betAmount : Int
  selection : Json
  status : BetStatus
  payoutAmount : Int := 0
  profit : Option Int := none
  serverSeedHash : Bytes
  clientSeed : String
  nonce : Int
  outcome : Option Json := none
  idempotencyKey : String
  placedAt : Timestamp
  resolvedAt : Option Timestamp := none
  effectiveStake : Int := 0
  commission : Int := 0
  rake : Int := 0
  rakePeriodId : Option Int := none
  betAmount_pos : 0 < betAmount
  payoutAmount_nonneg : 0 ≤ payoutAmount

/-- `luck.raffle_periods`. -/
structure RafflePeriod where
  poolAmount : Int
  status : PeriodStatus
  inRange : InBigint poolAmount
  poolAmount_nonneg : 0 ≤ poolAmount
deriving DecidableEq

/-- `luck.raffle_tickets`. -/
structure RaffleTicket where
  periodId : Int
  discordId : Int
  betId : Option Int
  grantedAt : Timestamp
deriving DecidableEq

/-- The key of `luck.rate_limit_entries`: `(discord_id, scope, bucket_start)`. -/
structure RateLimitKey where
  discordId : Int
  scope : String
  bucketStart : Timestamp
deriving DecidableEq

inductive SequenceName where
  | auditLog
  | depositTickets
  | withdrawTickets
  | disputes
  | cashierCharacters
  | cashierSessions
  | bets
  | raffleTickets
deriving DecidableEq

structure Database where
  users : Table Int User
  balances : Table Int Balance
  audit : AuditStore
  depositTickets : Table String Ticket
  withdrawTickets : Table String WithdrawTicket
  disputes : Table Int Dispute
  cashierCharacters : Table CharacterKey CashierCharacter
  cashierStatus : Table Int CashierStatus
  cashierSessions : Table Int CashierSession
  cashierStats : Table Int CashierStats
  dwConfig : Table String (Option Int)
  gameConfig : Table String GameConfig
  luckConfig : Table String (Option Int)
  bets : Table Int Bet
  rafflePeriods : Table Int RafflePeriod
  raffleTickets : Table Int RaffleTicket
  rateLimitEntries : Table RateLimitKey Int
  sequences : SequenceName → Int

/-- The body of a ledger function. -/
abbrev LedgerTx (α : Type) := Tx Database DbError α

end DeathRoll
