import DeathRoll.Core.Statements

/-! # Rate limiting and raffle tickets

`luck.consume_rate_token` and `luck.grant_raffle_tickets`.
-/

namespace DeathRoll

open Relational Tx

/-- The start of the epoch-aligned window that holds `now`. -/
def bucketStart (now : Timestamp) (windowS : Int) : Timestamp :=
  (epochSeconds now).tdiv windowS * windowS * 1000000

def consumeRateToken (env : Env) (pDiscordId : Option Int) (pScope : Option String)
    (pWindowS pMaxCount : Option Int) : LedgerTx (Option Bool) := do
  raiseIf (IsLt pWindowS (some 1) ∨ IsLt pMaxCount (some 1))
    (.invalidRateLimitArgs pWindowS pMaxCount)
  let discordId ← notNull "discord_id" pDiscordId
  let scope ← notNull "scope" pScope
  let windowS ← notNull "bucket_start" pWindowS
  let key : RateLimitKey := { discordId, scope, bucketStart := bucketStart env.now windowS }
  let s ← get
  let vCount := (s.rateLimitEntries.get? key).getD 0 + 1
  set { s with rateLimitEntries := (s.rateLimitEntries.insertNew key vCount).set key vCount }
  return pMaxCount.map fun maxCount => vCount ≤ maxCount

/-- `INSERT INTO luck.raffle_tickets ... FROM generate_series(1, n)`. -/
def insertRaffleTickets (ticket : RaffleTicket) : Nat → LedgerTx Unit
  | 0 => pure ()
  | count + 1 => do
      let id ← nextval .raffleTickets
      let s ← get
      raiseIf (s.raffleTickets.get? id ≠ none) (.uniqueViolation "raffle_tickets_pkey")
      set { s with raffleTickets := s.raffleTickets.insertNew id ticket }
      insertRaffleTickets ticket count

def grantRaffleTickets (env : Env) (pDiscordId pPeriodId pTicketCount pBetId : Option Int) :
    LedgerTx (Option Int) := do
  raiseIf (IsLt pTicketCount (some 0)) (.invalidTicketCount pTicketCount)
  if pTicketCount = some 0 then
    return some 0
  else
    let s ← get
    let period ← require (.periodNotFound pPeriodId) (s.rafflePeriods.select pPeriodId)
    raiseIf (period.status ≠ .active) (.periodNotActive pPeriodId period.status)
    if pTicketCount = none then
      -- generate_series(1, NULL) has no rows
      return none
    else
      let periodId ← require (.periodNotFound pPeriodId) pPeriodId
      let discordId ← notNull "discord_id" pDiscordId
      raiseIf (s.users.get? discordId = none)
        (.foreignKeyViolation "raffle_tickets_discord_id_fkey")
      raiseIf (pBetId ≠ none ∧ s.bets.select pBetId = none)
        (.foreignKeyViolation "raffle_tickets_bet_id_fkey")
      insertRaffleTickets { periodId, discordId, betId := pBetId, grantedAt := env.now }
        (pTicketCount.getD 0).toNat
      return pTicketCount

end DeathRoll
