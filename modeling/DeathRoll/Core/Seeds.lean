import DeathRoll.Core.Database

/-! # The seeded database

The database as the migrations leave it: the treasury user with no gold, the
locked economic decisions of `dw.global_config`, the nine games and the
`luck.global_config` defaults.
-/

namespace DeathRoll

open Relational

/-- The rows inserted into `dw.global_config`. -/
def seedDwConfig : Table String (Option Int) :=
  .ofList [
    ("min_deposit_g", some 200),
    ("max_deposit_g", some 200000),
    ("min_withdraw_g", some 1000),
    ("max_withdraw_g", some 200000),
    ("withdraw_fee_bps", some 200),
    ("deposit_fee_bps", some 0),
    ("daily_user_limit_g", some 0),
    ("ticket_expiry_open_s", some 86400),
    ("ticket_repinging_s", some 3600),
    ("ticket_claim_idle_s", some 1800),
    ("ticket_claim_expiry_s", some 7200),
    ("cashier_auto_offline_s", some 3600)]

/-- A seeded game: enabled, bets from 100 to 500000. -/
def seedGame (commissionBps : Option Int) : GameConfig :=
  { enabled := true, minBet := 100, maxBet := 500000, commissionBps := commissionBps
    minBet_pos := by decide, minBet_le_maxBet := by decide }

/-- The rows inserted into `luck.game_config`. -/
def gameDefaults : Table String GameConfig :=
  .ofList [
    ("coinflip", seedGame none),
    ("dice", seedGame none),
    ("ninetyninex", seedGame none),
    ("hotcold", seedGame none),
    ("mines", seedGame none),
    ("blackjack", seedGame (some 450)),
    ("roulette", seedGame (some 236)),
    ("diceduel", seedGame none),
    ("stakingduel", seedGame none)]

/-- The rows inserted into `luck.global_config`. -/
def seedLuckConfig : Table String (Option Int) :=
  .ofList [
    ("raffle_rake_bps", some 100),
    ("raffle_ticket_threshold_g", some 100),
    ("bet_rate_limit_per_60s", some 30),
    ("command_rate_limit_per_60s", some 30)]

def Database.seeded : Database where
  users := .ofList [(0, {})]
  balances := .ofList [(0, .zero)]
  audit := ⟨[], none⟩
  depositTickets := .empty
  withdrawTickets := .empty
  disputes := .empty
  cashierCharacters := .empty
  cashierStatus := .empty
  cashierSessions := .empty
  cashierStats := .empty
  dwConfig := seedDwConfig
  gameConfig := gameDefaults
  luckConfig := seedLuckConfig
  bets := .empty
  rafflePeriods := .empty
  raffleTickets := .empty
  rateLimitEntries := .empty
  sequences := fun _ => 0

end DeathRoll
