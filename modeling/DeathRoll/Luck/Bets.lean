import DeathRoll.Core.Statements

/-! # Bet functions

`luck.apply_bet`, `luck.resolve_bet`, `luck.refund_bet` and
`luck.cashout_mines`. A placed bet leaves the bettor's balance as an effective
stake in the locked balance, a commission for the treasury and a rake for the
active raffle period, or for the treasury while no period is active.
-/

namespace DeathRoll

open Relational Tx

/-- `COALESCE(value_int, 0)` of `raffle_rake_bps`, 0 without a row. -/
def Database.rakeBps (s : Database) : Int := (s.luckConfig.get? "raffle_rake_bps").join.getD 0

/-- `SELECT id FROM luck.raffle_periods WHERE status = 'active' ORDER BY id DESC LIMIT 1`. -/
def Database.activePeriod (s : Database) : Option Int :=
  ((s.rafflePeriods.rows.filter fun row => row.2.status = .active).map Prod.fst).max?

/-- `(p_bet_amount * bps) / 10000`. -/
def bpsShare (amount : Option Int) (bps : Int) : LedgerTx (Option Int) := do
  let product ← nullableBigint (amount.map fun amount => amount * bps)
  return product.map fun product => product.tdiv 10000

/-- `INSERT INTO luck.bets ... RETURNING id`. -/
def insertBet (bet : Bet) : LedgerTx Int := do
  let id ← nextval .bets
  let s ← get
  raiseIf (s.bets.get? id ≠ none) (.uniqueViolation "bets_pkey")
  raiseIf (s.bets.any fun _ other => other.betUid = bet.betUid) (.uniqueViolation "bets_bet_uid_key")
  raiseIf (s.bets.any fun _ other =>
      other.discordId = bet.discordId ∧ other.idempotencyKey = bet.idempotencyKey)
    (.uniqueViolation "bets_discord_id_idempotency_key_key")
  raiseIf (s.users.get? bet.discordId = none) (.foreignKeyViolation "bets_discord_id_fkey")
  raiseIf (s.gameConfig.get? bet.gameName = none) (.foreignKeyViolation "bets_game_name_fkey")
  set (s.addBet id bet)
  return id

/-- The columns of a new bet, with the constraints of its `INSERT`. -/
def openBet (env : Env) (discordId betAmount vEffectiveStake vCommission vRake : Int)
    (pGameName : Option String) (pChannelId : Option Int) (pSelection : Option Json)
    (pServerSeedHash : Option Bytes) (pClientSeed : Option String) (pNonce : Option Int)
    (pIdempotencyKey pBetUid : Option String) (vActivePeriod : Option Int) : LedgerTx Bet := do
  let betUid ← notNull "bet_uid" pBetUid
  let gameName ← notNull "game_name" pGameName
  let channelId ← notNull "channel_id" pChannelId
  let selection ← notNull "selection" pSelection
  let serverSeedHash ← notNull "server_seed_hash" pServerSeedHash
  let clientSeed ← notNull "client_seed" pClientSeed
  let nonce ← notNull "nonce" pNonce
  let idempotencyKey ← notNull "idempotency_key" pIdempotencyKey
  if hbet : 0 < betAmount then
    return { betUid, discordId, gameName, channelId, betAmount, selection, status := .open,
             serverSeedHash, clientSeed, nonce, idempotencyKey, placedAt := env.now,
             effectiveStake := vEffectiveStake, commission := vCommission, rake := vRake,
             rakePeriodId := vActivePeriod, betAmount_pos := hbet, payoutAmount_nonneg := zero_nonneg }
  else throw (.checkViolation "bets_bet_amount_check")

def applyBet (env : Env) (pDiscordId : Option Int) (pGameName : Option String)
    (pChannelId pBetAmount : Option Int) (pSelection : Option Json)
    (pServerSeedHash : Option Bytes) (pClientSeed : Option String) (pNonce : Option Int)
    (pIdempotencyKey pBetUid : Option String) : LedgerTx (Int × Bool) := do
  let s ← get
  let vExistingId := s.bets.find? fun _ bet =>
    pDiscordId = some bet.discordId ∧ pIdempotencyKey = some bet.idempotencyKey
  if vExistingId ≠ none then
    return (vExistingId.getD 0, true)
  else
    let game ← require (.unknownGame pGameName) (s.gameConfig.select pGameName)
    let vCommissionBps := game.commissionBps.getD 0
    raiseIf (¬ game.enabled) (.gamePaused pGameName)
    raiseIf (IsLt pBetAmount (some game.minBet) ∨ IsLt (some game.maxBet) pBetAmount)
      (.betOutOfRange pBetAmount (some game.minBet) (some game.maxBet))
    let vRakeBps := s.rakeBps
    raiseIf (¬ InInteger vRakeBps) .integerOutOfRange
    let vCommission ← bpsShare pBetAmount vCommissionBps
    let vRake ← bpsShare pBetAmount vRakeBps
    let betAfterCommission ← nullableBigint
      (pBetAmount.map fun amount => amount - vCommission.getD 0)
    let vEffectiveStake ← nullableBigint
      (betAfterCommission.map fun amount => amount - vRake.getD 0)
    let row ← require (.betUserNotRegistered pDiscordId) (s.balances.select pDiscordId)
    let vUserBalance := row.balance
    raiseIf ((s.users.select pDiscordId).map User.banned = some true) (.betUserBanned pDiscordId)
    raiseIf (IsLt (some vUserBalance) pBetAmount)
      (.betInsufficientBalance (some vUserBalance) pBetAmount)
    let vActivePeriod := s.activePeriod
    let discordId ← require (.betUserNotRegistered pDiscordId) pDiscordId
    let betAmount ← notNull "balance" pBetAmount
    let stake ← notNull "locked_balance" vEffectiveStake
    let commission := vCommission.getD 0
    let rake := vRake.getD 0
    updateBalance discordId fun row =>
      { row with
        balance := row.balance - betAmount, lockedBalance := row.lockedBalance + stake,
        totalWagered := row.totalWagered + betAmount }
    ifDo (0 < commission) <|
      updateBalance 0 fun row => { row with balance := row.balance + commission }
    ifDo (0 < rake ∧ vActivePeriod ≠ none) <|
      addToPool (vActivePeriod.getD 0) rake
    ifDo (0 < rake ∧ vActivePeriod = none) <|
      updateBalance 0 fun row => { row with balance := row.balance + rake }
    let bet ← openBet env discordId betAmount stake commission rake pGameName pChannelId pSelection
      pServerSeedHash pClientSeed pNonce pIdempotencyKey pBetUid vActivePeriod
    let vNewBetId ← insertBet bet
    let _ ← auditLogInsertWithChain env
      { actorType := .user
        actorId := pDiscordId
        targetId := pDiscordId
        action := some "bet_placed"
        amount := pBetAmount
        balanceBefore := some vUserBalance
        balanceAfter := some (vUserBalance - betAmount)
        reason := some ("Bet placed: " ++ formatText pBetUid ++ " " ++ formatInt pBetAmount ++
          " G on " ++ formatText pGameName)
        refType := some "luck_bet"
        refId := some (toString vNewBetId)
        botName := "luck"
        metadata := .obj [("game_name", .ofText? pGameName), ("bet_uid", .ofText? pBetUid),
          ("channel_id", .ofInt? pChannelId), ("commission", .int commission),
          ("rake", .int rake), ("effective_stake", .int stake), ("nonce", .ofInt? pNonce)] }
    return (vNewBetId, false)

/-- The statuses `luck.resolve_bet` admits. -/
def resolvedStatuses : List String := ["resolved_win", "resolved_loss", "resolved_tie"]

/-- What a resolution credits to the bettor; anything but a win or a loss,
`NULL` included, is a tie. -/
def creditUser (pStatus : Option String) (pPayout : Option Int) (effectiveStake : Int) :
    Option Int :=
  if IsEq pStatus (some "resolved_win") then pPayout
  else if IsEq pStatus (some "resolved_loss") then some 0
  else some effectiveStake

/-- What a resolution adds to the treasury. -/
def treasuryDelta (pStatus : Option String) (pPayout : Option Int) (effectiveStake : Int) :
    Option Int :=
  if IsEq pStatus (some "resolved_win") then pPayout.map fun payout => effectiveStake - payout
  else if IsEq pStatus (some "resolved_loss") then some effectiveStake
  else some 0

/-- `UPDATE luck.bets SET status = _, payout_amount = _, profit = _, outcome = _,
resolved_at = NOW() WHERE id = _`. -/
def closeBet (env : Env) (id : Int) (bet : Bet) (status : BetStatus) (payout profit : Int)
    (outcome : Option Json) : LedgerTx Unit :=
  if hpayout : 0 ≤ payout then
    modify fun s =>
      s.setBet id
        { bet with
          status := status, payoutAmount := payout, profit := some profit, outcome := outcome,
          resolvedAt := some env.now, payoutAmount_nonneg := hpayout }
  else throw (.checkViolation "bets_payout_amount_check")

def resolveBet (env : Env) (pBetId : Option Int) (pStatus : Option String) (pPayout : Option Int)
    (pOutcome : Option Json) : LedgerTx Unit := do
  raiseIf (IsNotIn pStatus resolvedStatuses) (.invalidBetStatus pStatus)
  raiseIf (IsLt pPayout (some 0)) (.invalidPayout pPayout)
  let s ← get
  let vBet ← require (.betNotFound pBetId) (s.bets.select pBetId)
  if IsEq (some vBet.status.text) pStatus ∧ IsEq (some vBet.payoutAmount) pPayout then
    -- idempotent retry
    return
  else
    raiseIf (vBet.status ≠ .open) (.betAlreadyTerminal pBetId vBet.status pStatus)
    let vBalanceBefore := (s.balances.get? vBet.discordId).map fun row => row.balance
    let vCreditUser := creditUser pStatus pPayout vBet.effectiveStake
    let vTreasuryDelta ← nullableBigint (treasuryDelta pStatus pPayout vBet.effectiveStake)
    let credit ← notNull "balance" vCreditUser
    updateBalance vBet.discordId fun row =>
      { row with
        balance := row.balance + credit, lockedBalance := row.lockedBalance - vBet.effectiveStake,
        totalWon := row.totalWon + credit }
    let delta := vTreasuryDelta.getD 0
    ifDo (delta ≠ 0) <|
      updateBalance 0 fun row => { row with balance := row.balance + delta }
    let betId ← require (.betNotFound pBetId) pBetId
    let status ← checkedText "status" BetStatus.ofText pStatus
    let payout ← notNull "payout_amount" pPayout
    closeBet env betId vBet status payout (payout - vBet.betAmount) pOutcome
    let _ ← auditLogInsertWithChain env
      { actorType := .system
        actorId := some vBet.discordId
        targetId := some vBet.discordId
        action := some "bet_resolved"
        amount := pPayout
        balanceBefore := vBalanceBefore
        balanceAfter := vBalanceBefore.map fun balance => balance + credit
        reason := some ("Bet resolved: " ++ vBet.betUid ++ " status=" ++ formatText pStatus ++
          " payout=" ++ formatInt pPayout)
        refType := some "luck_bet"
        refId := some (toString betId)
        botName := "luck"
        metadata := .obj [("game_name", .text vBet.gameName), ("bet_uid", .text vBet.betUid),
          ("status", .ofText? pStatus), ("effective_stake", .int vBet.effectiveStake),
          ("treasury_delta", .int delta), ("outcome", pOutcome.getD .null)] }

def refundBet (env : Env) (pBetId : Option Int) (pReason : Option String) : LedgerTx Unit := do
  let s ← get
  let vBet ← require (.betNotFound pBetId) (s.bets.select pBetId)
  if vBet.status = .refunded then
    -- idempotent retry
    return
  else
    raiseIf (vBet.status ≠ .open) (.betAlreadyClosed pBetId vBet.status)
    let vBalanceBefore := (s.balances.get? vBet.discordId).map fun row => row.balance
    updateBalance vBet.discordId fun row =>
      { row with
        balance := row.balance + vBet.betAmount,
        lockedBalance := row.lockedBalance - vBet.effectiveStake,
        totalWagered := row.totalWagered - vBet.betAmount }
    ifDo (0 < vBet.commission) <|
      updateBalance 0 fun row => { row with balance := row.balance - vBet.commission }
    ifDo (0 < vBet.rake ∧ vBet.rakePeriodId ≠ none) <|
      addToPool (vBet.rakePeriodId.getD 0) (-vBet.rake)
    ifDo (0 < vBet.rake ∧ vBet.rakePeriodId = none) <|
      updateBalance 0 fun row => { row with balance := row.balance - vBet.rake }
    let betId ← require (.betNotFound pBetId) pBetId
    closeBet env betId vBet .refunded 0 0 (some (.obj [("reason", .ofText? pReason)]))
    let _ ← auditLogInsertWithChain env
      { actorType := .system
        actorId := some vBet.discordId
        targetId := some vBet.discordId
        action := some "bet_refunded"
        amount := some vBet.betAmount
        balanceBefore := vBalanceBefore
        balanceAfter := vBalanceBefore.map fun balance => balance + vBet.betAmount
        reason := some ("Bet refunded: " ++ vBet.betUid ++ " reason=" ++ formatText pReason)
        refType := some "luck_bet"
        refId := some (toString betId)
        botName := "luck"
        metadata := .obj [("game_name", .text vBet.gameName), ("bet_uid", .text vBet.betUid),
          ("reason", .ofText? pReason)] }

def cashoutMines (env : Env) (pBetId : Option Int) (pMultiplier : Option Numeric) :
    LedgerTx Unit := do
  let multiplier := pMultiplier.getD ⟨1, 0⟩
  -- a NULL multiplier passes the test and makes v_payout NULL
  raiseIf (multiplier.unscaled ≤ 0) (.invalidMultiplier multiplier)
  let vBet ← require (.betNotFound pBetId) ((← get).bets.select pBetId)
  raiseIf (vBet.gameName ≠ "mines") (.notMinesBet vBet.gameName)
  raiseIf (vBet.status ≠ .open) (.betAlreadyClosed pBetId vBet.status)
  let vPayout ← nullableBigint
    (pMultiplier.map fun multiplier => multiplier.floorMul vBet.effectiveStake)
  resolveBet env pBetId (some "resolved_win") vPayout
    (some (.obj [("cashout", .bool true),
      ("multiplier", .ofText? (pMultiplier.map Numeric.text))]))

end DeathRoll
