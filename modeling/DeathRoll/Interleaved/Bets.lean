import DeathRoll.Fairness.Engine
import DeathRoll.Interleaved.Rows
import DeathRoll.Ledger.Runs
import DeathRoll.Luck.Bets
import DeathRoll.Relational.Traced

/-! # Bets under concurrency

`luck.apply_bet`, `luck.resolve_bet`, `luck.refund_bet` and `luck.cashout_mines`,
statement by statement, next to writes of raffle periods and to any other
functions. `luck.apply_bet` looks for an earlier bet of the same key before it
locks anything.
-/

namespace DeathRoll.Interleaved

open Relational Script

/-! ## The functions -/

/-- What the two reads of the configuration return. Its tables are written at any
time and nothing here locks them, so a call comes with what it has read. -/
structure BetConfig where
  /-- The row of `luck.game_config`, if there is one. -/
  game : Option GameConfig
  /-- `raffle_rake_bps` of `luck.global_config`, 0 without a row. -/
  rakeBps : Int

/-- The arguments of `luck.apply_bet`. -/
structure BetParams where
  pDiscordId : Option Int
  pGameName : Option String
  pChannelId : Option Int
  pBetAmount : Option Int
  pSelection : Option Json
  pServerSeedHash : Option Bytes
  pClientSeed : Option String
  pNonce : Option Int
  pIdempotencyKey : Option String
  pBetUid : Option String

def lockBet (id : Int) : LedgerScript (Option Bet) := lock (LedgerKey.bet id)

def lockPeriod (id : Int) : LedgerScript (Option RafflePeriod) := lock (LedgerKey.rafflePeriod id)

/-- `SELECT * FROM luck.bets WHERE id = _ FOR UPDATE`. -/
def selectBet : Option Int → LedgerScript (Option Bet)
  | none => pure none
  | some id => lockBet id

/-- `SELECT id FROM luck.bets WHERE discord_id = _ AND idempotency_key = _`. -/
def selectExisting : Option Int → Option String → LedgerScript (Option Int)
  | some discordId, some idempotencyKey => see fun s => s.rows (.betKey discordId idempotencyKey)
  | _, _ => pure none

/-- `SELECT id FROM luck.raffle_periods WHERE status = 'active' ORDER BY id DESC LIMIT 1`. -/
def activePeriod (s : Snapshot LedgerKey.Row) : Option Int :=
  (s.keys.filterMap fun
    | .rafflePeriod id =>
        (s.rows (.rafflePeriod id)).bind fun period =>
          if period.status = .active then some id else none
    | _ => none).max?

/-- `(p_bet_amount * bps) / 10000`. -/
def bpsShare (amount : Option Int) (bps : Int) : LedgerScript (Option Int) := do
  let product ← nullableBigint (amount.map fun amount => amount * bps)
  return product.map fun product => product.tdiv 10000

/-- `UPDATE luck.raffle_periods SET pool_amount = pool_amount + _ WHERE id = _`. -/
def addToPool (period amount : Int) : LedgerScript Unit := do
  match ← lockPeriod period with
  | none => pure ()
  | some row =>
      if hrange : InBigint (row.poolAmount + amount) then
        if hnonneg : 0 ≤ row.poolAmount + amount then
          store (.rafflePeriod period)
            (⟨row.poolAmount + amount, row.status, hrange, hnonneg⟩ : RafflePeriod)
        else .fail (.checkViolation "raffle_periods_pool_amount_check")
      else .fail .bigintOutOfRange

/-- The columns of a new bet, with the constraints of its `INSERT`. -/
def openBet (env : Env) (discordId betAmount vEffectiveStake vCommission vRake : Int)
    (p : BetParams) (vActivePeriod : Option Int) : LedgerScript Bet := do
  let betUid ← notNull "bet_uid" p.pBetUid
  let gameName ← notNull "game_name" p.pGameName
  let channelId ← notNull "channel_id" p.pChannelId
  let selection ← notNull "selection" p.pSelection
  let serverSeedHash ← notNull "server_seed_hash" p.pServerSeedHash
  let clientSeed ← notNull "client_seed" p.pClientSeed
  let nonce ← notNull "nonce" p.pNonce
  let idempotencyKey ← notNull "idempotency_key" p.pIdempotencyKey
  if hbet : 0 < betAmount then
    return { betUid, discordId, gameName, channelId, betAmount, selection, status := .open,
             serverSeedHash, clientSeed, nonce, idempotencyKey, placedAt := env.now,
             effectiveStake := vEffectiveStake, commission := vCommission, rake := vRake,
             rakePeriodId := vActivePeriod, betAmount_pos := hbet, payoutAmount_nonneg := zero_nonneg }
  else .fail (.checkViolation "bets_bet_amount_check")

/-- `INSERT INTO luck.bets`, with the id that the sequence gives. The user is looked
up first: nothing deletes one. The game's row has just been read. -/
def insertBet (id : Int) (bet : Bet) : LedgerScript Unit := do
  let user ← see fun s => s.rows (.user bet.discordId)
  raiseIf (user = none) (.foreignKeyViolation "bets_discord_id_fkey")
  addOrRaise (.bet id) bet (.uniqueViolation "bets_pkey")
  addOrRaise (.betUid bet.betUid) id (.uniqueViolation "bets_bet_uid_key")
  addOrRaise (.betKey bet.discordId bet.idempotencyKey) id
    (.uniqueViolation "bets_discord_id_idempotency_key_key")

/-- `luck.apply_bet` once it has found no earlier bet. -/
def placeBet (env : Env) (nextId : Int) (config : BetConfig) (p : BetParams) :
    LedgerScript (Int × Bool) := do
  let game ← require (.unknownGame p.pGameName) config.game
  let vCommissionBps := game.commissionBps.getD 0
  raiseIf (¬ game.enabled) (.gamePaused p.pGameName)
  raiseIf (IsLt p.pBetAmount (some game.minBet) ∨ IsLt (some game.maxBet) p.pBetAmount)
    (.betOutOfRange p.pBetAmount (some game.minBet) (some game.maxBet))
  raiseIf (¬ InInteger config.rakeBps) .integerOutOfRange
  let vCommission ← bpsShare p.pBetAmount vCommissionBps
  let vRake ← bpsShare p.pBetAmount config.rakeBps
  let betAfterCommission ← nullableBigint
    (p.pBetAmount.map fun amount => amount - vCommission.getD 0)
  let vEffectiveStake ← nullableBigint
    (betAfterCommission.map fun amount => amount - vRake.getD 0)
  let discordId ← require (.betUserNotRegistered p.pDiscordId) p.pDiscordId
  let row ← require (.betUserNotRegistered p.pDiscordId) (← lockBalance discordId)
  let vUserBalance := row.balance
  let vUserBanned ← see fun s => (s.rows (.user discordId)).map User.banned
  raiseIf (vUserBanned = some true) (.betUserBanned p.pDiscordId)
  raiseIf (IsLt (some vUserBalance) p.pBetAmount)
    (.betInsufficientBalance (some vUserBalance) p.pBetAmount)
  let vActivePeriod ← see activePeriod
  let betAmount ← notNull "balance" p.pBetAmount
  let stake ← notNull "locked_balance" vEffectiveStake
  let commission := vCommission.getD 0
  let rake := vRake.getD 0
  updateBalance discordId fun row =>
    { row with
      balance := row.balance - betAmount, lockedBalance := row.lockedBalance + stake,
      totalWagered := row.totalWagered + betAmount }
  ifDo (0 < commission) <|
    updateBalance 0 fun row => { row with balance := row.balance + commission }
  ifDo (0 < rake ∧ vActivePeriod ≠ none) <|
    addToPool (vActivePeriod.getD 0) rake
  ifDo (0 < rake ∧ vActivePeriod = none) <|
    updateBalance 0 fun row => { row with balance := row.balance + rake }
  let bet ← openBet env discordId betAmount stake commission rake p vActivePeriod
  insertBet nextId bet
  auditLogInsertWithChain env
    { actorType := .user
      actorId := p.pDiscordId
      targetId := p.pDiscordId
      action := some "bet_placed"
      amount := p.pBetAmount
      balanceBefore := some vUserBalance
      balanceAfter := some (vUserBalance - betAmount)
      reason := some ("Bet placed: " ++ formatText p.pBetUid ++ " " ++ formatInt p.pBetAmount ++
        " G on " ++ formatText p.pGameName)
      refType := some "luck_bet"
      refId := some (toString nextId)
      botName := "luck"
      metadata := .obj [("game_name", .ofText? p.pGameName), ("bet_uid", .ofText? p.pBetUid),
        ("channel_id", .ofInt? p.pChannelId), ("commission", .int commission),
        ("rake", .int rake), ("effective_stake", .int stake), ("nonce", .ofInt? p.pNonce)] }
  return (nextId, false)

def applyBet (env : Env) (nextId : Int) (config : BetConfig) (p : BetParams) :
    LedgerScript (Int × Bool) := do
  match ← selectExisting p.pDiscordId p.pIdempotencyKey with
  | some vExistingId => return (vExistingId, true)
  | none => placeBet env nextId config p

/-- `UPDATE luck.bets SET status = _, payout_amount = _, profit = _, outcome = _,
resolved_at = NOW() WHERE id = _` on the bet that is held. -/
def closeBet (env : Env) (id : Int) (bet : Bet) (status : BetStatus) (payout profit : Int)
    (outcome : Option Json) : LedgerScript Unit :=
  if hpayout : 0 ≤ payout then
    store (.bet id)
      ({ bet with
        status := status, payoutAmount := payout, profit := some profit, outcome := outcome,
        resolvedAt := some env.now, payoutAmount_nonneg := hpayout } : Bet)
  else .fail (.checkViolation "bets_payout_amount_check")

def resolveBet (env : Env) (pBetId : Option Int) (pStatus : Option String) (pPayout : Option Int)
    (pOutcome : Option Json) : LedgerScript Unit := do
  raiseIf (IsNotIn pStatus resolvedStatuses) (.invalidBetStatus pStatus)
  raiseIf (IsLt pPayout (some 0)) (.invalidPayout pPayout)
  let vBet ← require (.betNotFound pBetId) (← selectBet pBetId)
  if IsEq (some vBet.status.text) pStatus ∧ IsEq (some vBet.payoutAmount) pPayout then
    -- idempotent retry
    return
  else
    raiseIf (vBet.status ≠ .open) (.betAlreadyTerminal pBetId vBet.status pStatus)
    let vBalanceBefore := (← lockBalance vBet.discordId).map fun row => row.balance
    let vCreditUser := creditUser pStatus pPayout vBet.effectiveStake
    let vTreasuryDelta ← nullableBigint (treasuryDelta pStatus pPayout vBet.effectiveStake)
    let credit ← notNull "balance" vCreditUser
    updateBalance vBet.discordId fun row =>
      { row with
        balance := row.balance + credit, lockedBalance := row.lockedBalance - vBet.effectiveStake,
        totalWon := row.totalWon + credit }
    let delta := vTreasuryDelta.getD 0
    ifDo (delta ≠ 0) <|
      updateBalance 0 fun row => { row with balance := row.balance + delta }
    let betId ← require (.betNotFound pBetId) pBetId
    let text ← notNull "status" pStatus
    let status ← require (.checkViolation "status") (BetStatus.ofText text)
    let payout ← notNull "payout_amount" pPayout
    closeBet env betId vBet status payout (payout - vBet.betAmount) pOutcome
    auditLogInsertWithChain env
      { actorType := .system
        actorId := some vBet.discordId
        targetId := some vBet.discordId
        action := some "bet_resolved"
        amount := pPayout
        balanceBefore := vBalanceBefore
        balanceAfter := vBalanceBefore.map fun balance => balance + credit
        reason := some ("Bet resolved: " ++ vBet.betUid ++ " status=" ++ formatText pStatus ++
          " payout=" ++ formatInt pPayout)
        refType := some "luck_bet"
        refId := some (toString betId)
        botName := "luck"
        metadata := .obj [("game_name", .text vBet.gameName), ("bet_uid", .text vBet.betUid),
          ("status", .ofText? pStatus), ("effective_stake", .int vBet.effectiveStake),
          ("treasury_delta", .int delta), ("outcome", pOutcome.getD .null)] }

def refundBet (env : Env) (pBetId : Option Int) (pReason : Option String) : LedgerScript Unit := do
  let vBet ← require (.betNotFound pBetId) (← selectBet pBetId)
  if vBet.status = .refunded then
    -- idempotent retry
    return
  else
    raiseIf (vBet.status ≠ .open) (.betAlreadyClosed pBetId vBet.status)
    let vBalanceBefore := (← lockBalance vBet.discordId).map fun row => row.balance
    updateBalance vBet.discordId fun row =>
      { row with
        balance := row.balance + vBet.betAmount,
        lockedBalance := row.lockedBalance - vBet.effectiveStake,
        totalWagered := row.totalWagered - vBet.betAmount }
    ifDo (0 < vBet.commission) <|
      updateBalance 0 fun row => { row with balance := row.balance - vBet.commission }
    ifDo (0 < vBet.rake ∧ vBet.rakePeriodId ≠ none) <|
      addToPool (vBet.rakePeriodId.getD 0) (-vBet.rake)
    ifDo (0 < vBet.rake ∧ vBet.rakePeriodId = none) <|
      updateBalance 0 fun row => { row with balance := row.balance - vBet.rake }
    let betId ← require (.betNotFound pBetId) pBetId
    closeBet env betId vBet .refunded 0 0 (some (.obj [("reason", .ofText? pReason)]))
    auditLogInsertWithChain env
      { actorType := .system
        actorId := some vBet.discordId
        targetId := some vBet.discordId
        action := some "bet_refunded"
        amount := some vBet.betAmount
        balanceBefore := vBalanceBefore
        balanceAfter := vBalanceBefore.map fun balance => balance + vBet.betAmount
        reason := some ("Bet refunded: " ++ vBet.betUid ++ " reason=" ++ formatText pReason)
        refType := some "luck_bet"
        refId := some (toString betId)
        botName := "luck"
        metadata := .obj [("game_name", .text vBet.gameName), ("bet_uid", .text vBet.betUid),
          ("reason", .ofText? pReason)] }

def cashoutMines (env : Env) (pBetId : Option Int) (pMultiplier : Option Numeric) :
    LedgerScript Unit := do
  let multiplier := pMultiplier.getD ⟨1, 0⟩
  -- a NULL multiplier passes the test and makes v_payout NULL
  raiseIf (multiplier.unscaled ≤ 0) (.invalidMultiplier multiplier)
  let vBet ← require (.betNotFound pBetId) (← selectBet pBetId)
  raiseIf (vBet.gameName ≠ "mines") (.notMinesBet vBet.gameName)
  raiseIf (vBet.status ≠ .open) (.betAlreadyClosed pBetId vBet.status)
  let vPayout ← nullableBigint
    (pMultiplier.map fun multiplier => multiplier.floorMul vBet.effectiveStake)
  resolveBet env pBetId (some "resolved_win") vPayout
    (some (.obj [("cashout", .bool true),
      ("multiplier", .ofText? (pMultiplier.map Numeric.text))]))

/-- `INSERT INTO luck.raffle_periods`. -/
def insertPeriod (id : Int) (period : RafflePeriod) : LedgerScript Unit :=
  addOrRaise (.rafflePeriod id) period (.uniqueViolation "raffle_periods_pkey")

/-- `UPDATE luck.raffle_periods SET status = _ WHERE id = _`. -/
def setPeriodStatus (id : Int) (status : PeriodStatus) : LedgerScript Unit := do
  match ← lockPeriod id with
  | none => pure ()
  | some period => store (.rafflePeriod id) ({ period with status } : RafflePeriod)

/-- The calls on bets, writes of raffle periods, and `other` functions. -/
inductive BetCall (ω : Type) where
  | applyBet (nextId : Int) (config : BetConfig) (params : BetParams)
  | resolveBet (pBetId : Option Int) (pStatus : Option String) (pPayout : Option Int)
      (pOutcome : Option Json)
  | refundBet (pBetId : Option Int) (pReason : Option String)
  | cashoutMines (pBetId : Option Int) (pMultiplier : Option Numeric)
  | insertPeriod (id : Int) (period : RafflePeriod)
  | setPeriodStatus (id : Int) (status : PeriodStatus)
  | other (call : ω)

/-- The id of the bet and whether it was there before, from `luck.apply_bet` alone. -/
abbrev BetResult := Option (Int × Bool)

def betBody {ω : Type} (other : Env → ω → LedgerScript Unit) :
    Env × BetCall ω → LedgerScript BetResult
  | (env, .applyBet nextId config params) => do
      let result ← applyBet env nextId config params
      return some result
  | (env, .resolveBet pBetId pStatus pPayout pOutcome) => do
      resolveBet env pBetId pStatus pPayout pOutcome
      return none
  | (env, .refundBet pBetId pReason) => do
      refundBet env pBetId pReason
      return none
  | (env, .cashoutMines pBetId pMultiplier) => do
      cashoutMines env pBetId pMultiplier
      return none
  | (_, .insertPeriod id period) => do
      insertPeriod id period
      return none
  | (_, .setPeriodStatus id status) => do
      setPeriodStatus id status
      return none
  | (env, .other call) => do
      other env call
      return none

/-! ## What the calls write -/

/-- `total_wagered` of a user. -/
def wagered (discordId : Int) (rows : LedgerRows) : Int :=
  ((rows (.balance discordId)).map fun row => row.totalWagered).getD 0

/-- `total_won` of a user. -/
def won (discordId : Int) (rows : LedgerRows) : Int :=
  ((rows (.balance discordId)).map fun row => row.totalWon).getD 0

/-- `pool_amount` of a raffle period. -/
def pool (period : Int) (rows : LedgerRows) : Int :=
  ((rows (.rafflePeriod period)).map fun row => row.poolAmount).getD 0

/-- The `bet_placed` rows of the audit log about a bet. -/
def placements (id : Int) (rows : LedgerRows) : Nat :=
  (auditLog rows).countP fun content =>
    content.action = "bet_placed" ∧ content.refType = "luck_bet" ∧
      content.refId = some (toString id)

/-- What a bet has wagered, unless it was refunded. -/
def wageredOf (discordId : Int) : Option Bet → Int
  | none => 0
  | some bet => if bet.discordId = discordId ∧ bet.status ≠ .refunded then bet.betAmount else 0

/-- What a resolved bet has won: its payout, nothing, or its stake back. -/
def wonOf (discordId : Int) : Option Bet → Int
  | none => 0
  | some bet =>
      if bet.discordId = discordId then
        match bet.status with
        | .resolvedWin => bet.payoutAmount
        | .resolvedTie => bet.effectiveStake
        | _ => 0
      else 0

/-- What a raffle period has from a bet, unless it was refunded. -/
def rakeOf (period : Int) : Option Bet → Int
  | none => 0
  | some bet =>
      if bet.rakePeriodId = some period ∧ bet.status ≠ .refunded then bet.rake else 0

/-- What goes into the pool for a bet: a negative rake stays out. -/
def pooledOf (period : Int) (bet : Option Bet) : Int := max (rakeOf period bet) 0

/-- What the treasury takes of a bet: the commission, and the rake while no period is
active. -/
def treasuryShare (commission rake : Int) (period : Option Int) : Int :=
  max commission 0 + if period = none then max rake 0 else 0

/-- The treasury's row moves by `amount`, if it is known to be there. -/
structure TreasuryMoves (known : Set LedgerKey) (amount : Int) (before after : LedgerRows) : Prop where
  frame : ∀ r, r ≠ .balance 0 → after r = before r
  wagered : ∀ discordId, wagered discordId after = wagered discordId before
  won : ∀ discordId, won discordId after = won discordId before
  balance : .balance 0 ∈ known → balanceOf 0 after = balanceOf 0 before + amount

/-- The pool of the period, if there is one, moves by `amount`. -/
structure PoolMoves (period : Option Int) (amount : Int) (before after : LedgerRows) : Prop where
  frame : ∀ r, (∀ p, r ≠ .rafflePeriod p) → after r = before r
  periods : ∀ p, after (.rafflePeriod p) = none ↔ before (.rafflePeriod p) = none
  pool : ∀ p, pool p after = pool p before + if period = some p then amount else 0

/-- Both shares of a bet move: `pooled` for its period and `taken` for the treasury. -/
structure SharesMove (known : Set LedgerKey) (period : Option Int) (pooled taken : Int)
    (before after : LedgerRows) : Prop where
  frame : ∀ r, r ≠ .balance 0 → (∀ p, r ≠ .rafflePeriod p) → after r = before r
  periods : ∀ p, after (.rafflePeriod p) = none ↔ before (.rafflePeriod p) = none
  wagered : ∀ discordId, wagered discordId after = wagered discordId before
  won : ∀ discordId, won discordId after = won discordId before
  pool : ∀ p, pool p after = pool p before + if period = some p then pooled else 0
  balance : .balance 0 ∈ known → balanceOf 0 after = balanceOf 0 before + taken

/-- One bet has a new row, and the denormalised counters follow it. -/
structure BetMoves (id : Int) (bet : Bet) (before after : LedgerRows) : Prop where
  bets : ∀ other, after (.bet other) = if other = id then some bet else before (.bet other)
  periods : ∀ p, after (.rafflePeriod p) = none ↔ before (.rafflePeriod p) = none
  wagered : ∀ discordId, wagered discordId after =
    wagered discordId before + (wageredOf discordId (some bet) -
      wageredOf discordId (before (.bet id)))
  won : ∀ discordId, won discordId after =
    won discordId before + (wonOf discordId (some bet) - wonOf discordId (before (.bet id)))
  pool : ∀ p, pool p after =
    pool p before + (pooledOf p (some bet) - pooledOf p (before (.bet id)))

/-- What a function that is not about bets leaves alone. -/
structure KeepsBets (before after : LedgerRows) : Prop where
  bets : ∀ id, after (.bet id) = before (.bet id)
  keys : ∀ discordId key, after (.betKey discordId key) = before (.betKey discordId key)
  periods : ∀ p, after (.rafflePeriod p) = before (.rafflePeriod p)
  wagered : ∀ discordId, wagered discordId after = wagered discordId before
  won : ∀ discordId, won discordId after = won discordId before
  placements : ∀ id, placements id after = placements id before

/-- The call is about the user's bet with this idempotency key. -/
def BetParams.Applies (params : BetParams) (discordId : Int) (key : String) : Prop :=
  params.pDiscordId = some discordId ∧ params.pIdempotencyKey = some key

instance (params : BetParams) (discordId : Int) (key : String) :
    Decidable (params.Applies discordId key) := instDecidableAnd

def BetCall.Applies {ω : Type} (discordId : Int) (key : String) : BetCall ω → Prop
  | .applyBet _ _ params => params.Applies discordId key
  | _ => False

/-- The call returns only after it has inserted something, or found it inserted. -/
def BetCall.Inserts {ω : Type} : BetCall ω → Prop
  | .applyBet _ _ _ => True
  | .insertPeriod _ _ => True
  | _ => False

/-- What a call that returns has done to the rows. -/
inductive BetWrites {ω : Type} : BetCall ω → LedgerRows → BetResult → LedgerRows → Prop
  | existing {nextId : Int} {config : BetConfig} {params : BetParams} {discordId : Int}
      {key : String} {id : Int} {before : LedgerRows} (happlies : params.Applies discordId key)
      (hkey : before (.betKey discordId key) = some id) :
      BetWrites (.applyBet nextId config params) before (some (id, true)) before
  | placed {id : Int} {config : BetConfig} {params : BetParams} {bet : Bet}
      {before after : LedgerRows} (happlies : params.Applies bet.discordId bet.idempotencyKey)
      (hamount : params.pBetAmount = some bet.betAmount) (hopen : bet.status = .open)
      (hrake : 0 ≤ config.rakeBps → 0 ≤ bet.rake) (hnew : before (.bet id) = none)
      (hfree : before (.betKey bet.discordId bet.idempotencyKey) = none)
      (hperiod : ∀ p, bet.rakePeriodId = some p → before (.rafflePeriod p) ≠ none)
      (hkeys : ∀ discordId key, after (.betKey discordId key) =
        if discordId = bet.discordId ∧ key = bet.idempotencyKey then some id
        else before (.betKey discordId key))
      (hplaced : ∀ other, placements other after =
        placements other before + if other = id then 1 else 0)
      (hcharged : balanceOf bet.discordId after =
        balanceOf bet.discordId before - bet.betAmount +
          if bet.discordId = 0 then treasuryShare bet.commission bet.rake bet.rakePeriodId else 0)
      (hmoves : BetMoves id bet before after) :
      BetWrites (.applyBet id config params) before (some (id, false)) after
  | closed {call : BetCall ω} {id : Int} {bet closed : Bet} {before after : LedgerRows}
      (hcall : ¬ call.Inserts)
      (hbet : before (.bet id) = some bet) (hopen : bet.status = .open)
      (hclosed : closed.status ≠ .open) (hdiscordId : closed.discordId = bet.discordId)
      (hkey : closed.idempotencyKey = bet.idempotencyKey) (hrake : closed.rake = bet.rake)
      (hperiod : closed.rakePeriodId = bet.rakePeriodId)
      (hkeys : ∀ discordId key, after (.betKey discordId key) = before (.betKey discordId key))
      (hplaced : ∀ other, placements other after = placements other before)
      (hmoves : BetMoves id closed before after) : BetWrites call before none after
  | unchanged {call : BetCall ω} {before : LedgerRows}
      (hcall : ¬ call.Inserts) : BetWrites call before none before
  | newPeriod {id : Int} {period : RafflePeriod} {before : LedgerRows}
      (hnew : before (.rafflePeriod id) = none) :
      BetWrites (.insertPeriod id period) before none
        (Function.update before (.rafflePeriod id) (some period))
  | periodStatus {id : Int} {status : PeriodStatus} {period : RafflePeriod} {before : LedgerRows}
      (hperiod : before (.rafflePeriod id) = some period) :
      BetWrites (.setPeriodStatus id status) before none
        (Function.update before (.rafflePeriod id) (some { period with status }))
  | other {call : ω} {before after : LedgerRows} (hkeeps : KeepsBets before after) :
      BetWrites (.other call) before none after

variable {known : Set LedgerKey} {rows : LedgerRows}

theorem post_lockBet {Q : Option Bet → Set LedgerKey → LedgerRows → Prop} (id : Int) :
    (lockBet id).Post ledgerSchema Q known rows ↔
      (.bet id ∉ known → Q none known rows) ∧
        ∀ bet, rows (.bet id) = some bet → ∀ known', known ⊆ known' → .bet id ∈ known' →
          LedgerKey.Refs (.bet id) bet ⊆ known' → Q (some bet) known' rows :=
  post_lock _

theorem post_lockPeriod {Q : Option RafflePeriod → Set LedgerKey → LedgerRows → Prop} (id : Int) :
    (lockPeriod id).Post ledgerSchema Q known rows ↔
      (.rafflePeriod id ∉ known → Q none known rows) ∧
        ∀ row, rows (.rafflePeriod id) = some row → ∀ known', known ⊆ known' →
          .rafflePeriod id ∈ known' → Q (some row) known' rows :=
  post_lock_of_refs fun _ => rfl

/-- An index row that a `SELECT` finds is the index row. -/
theorem post_selectExisting {Q : Option Int → Set LedgerKey → LedgerRows → Prop}
    (pDiscordId : Option Int) (pIdempotencyKey : Option String)
    (h : ∀ known' existing, known ⊆ known' →
      (∀ id, existing = some id → ∃ discordId key, pDiscordId = some discordId ∧
        pIdempotencyKey = some key ∧ rows (.betKey discordId key) = some id) →
      Q existing known' rows) :
    (selectExisting pDiscordId pIdempotencyKey).Post ledgerSchema Q known rows := by
  unfold selectExisting
  split
  next discordId key =>
    intro keys seen hkeys hknown hseen
    apply h _ _ hknown
    intro id hid
    obtain ⟨row, hrow, hkeeps⟩ := hseen _ _ hid
    exact ⟨discordId, key, rfl, rfl, hrow.trans (congrArg some (Eq.symm hkeeps))⟩
  next => exact h _ _ subset_rfl (by simp)

/-- The active period is there. -/
theorem post_activePeriod {Q : Option Int → Set LedgerKey → LedgerRows → Prop}
    (h : ∀ known' active, known ⊆ known' →
      (∀ p, active = some p → .rafflePeriod p ∈ known' ∧ rows (.rafflePeriod p) ≠ none) →
      Q active known' rows) :
    (see activePeriod : LedgerScript (Option Int)).Post ledgerSchema Q known rows := by
  intro keys seen hkeys hknown hseen
  apply h _ _ hknown
  intro p hp
  obtain ⟨key, -, hkey⟩ := List.mem_filterMap.mp (List.max?_mem hp)
  split at hkey
  next id =>
    obtain ⟨period, hperiod, hactive⟩ := Option.bind_eq_some_iff.mp hkey
    split at hactive
    · cases hactive
      have hpresent : seen (.rafflePeriod p) ≠ none :=
        Option.ne_none_iff_exists'.mpr ⟨period, hperiod⟩
      exact ⟨hpresent, hseen.present_subset hpresent⟩
    · cases hactive
  next => cases hkey

/-! ### The shares of a bet -/

variable {before after : LedgerRows}

theorem wagered_congr {discordId : Int}
    (h : after (.balance discordId) = before (.balance discordId)) :
    wagered discordId after = wagered discordId before := by
  rw [wagered, wagered, h]

theorem won_congr {discordId : Int}
    (h : after (.balance discordId) = before (.balance discordId)) :
    won discordId after = won discordId before := by
  rw [won, won, h]

theorem pool_congr {period : Int} (h : after (.rafflePeriod period) = before (.rafflePeriod period)) :
    pool period after = pool period before := by
  rw [pool, pool, h]

theorem balanceOf_congr {discordId : Int}
    (h : after (.balance discordId) = before (.balance discordId)) :
    balanceOf discordId after = balanceOf discordId before := by
  rw [balanceOf, balanceOf, h]

theorem TreasuryMoves.refl (known : Set LedgerKey) (rows : LedgerRows) :
    TreasuryMoves known 0 rows rows :=
  ⟨fun _ _ => rfl, fun _ => rfl, fun _ => rfl, fun _ => (add_zero _).symm⟩

theorem PoolMoves.refl (period : Option Int) (rows : LedgerRows) : PoolMoves period 0 rows rows :=
  ⟨fun _ _ => rfl, fun _ => Iff.rfl, fun _ => by simp⟩

theorem TreasuryMoves.update {row new : Balance} {amount : Int}
    (hrow : rows (.balance 0) = some row)
    (hnew : new.toBalanceRow = { row.toBalanceRow with balance := row.balance + amount }) :
    TreasuryMoves known amount rows (Function.update rows (.balance 0) (some new)) where
  frame := fun _ hr => Function.update_of_ne hr _ _
  wagered := by
    intro discordId
    by_cases hzero : discordId = 0
    · subst hzero
      simp [Interleaved.wagered, hrow, hnew]
    · exact wagered_congr (Function.update_of_ne (by simp [hzero]) _ _)
  won := by
    intro discordId
    by_cases hzero : discordId = 0
    · subst hzero
      simp [Interleaved.won, hrow, hnew]
    · exact won_congr (Function.update_of_ne (by simp [hzero]) _ _)
  balance := fun _ => by simp [balanceOf, hrow, hnew]

/-- A conditional update of the treasury's balance. -/
theorem post_updateTreasury {Q : Unit → Set LedgerKey → LedgerRows → Prop} (c : Prop) [Decidable c]
    {amount : Int} {assign : BalanceRow → BalanceRow}
    (hassign : ∀ row, assign row = { row with balance := row.balance + amount })
    (h : ∀ known' rows', known ⊆ known' →
      TreasuryMoves known (if c then amount else 0) rows rows' → Q () known' rows') :
    (ifDo c (updateBalance 0 assign)).Post ledgerSchema Q known rows := by
  rw [post_ifDo, post_updateBalance]
  refine ⟨fun hc => ?_, fun hc => ?_⟩
  · rw [if_pos hc] at h
    constructor
    · intro hunknown
      apply h _ _ subset_rfl
      exact ⟨fun _ _ => rfl, fun _ => rfl, fun _ => rfl, fun hknown => (hunknown hknown).elim⟩
    · intro row hrow known' hgrow _ new hnew
      exact h _ _ hgrow (.update hrow (hnew.trans (hassign _)))
  · rw [if_neg hc] at h
    exact h _ _ subset_rfl (.refl known rows)

theorem PoolMoves.update {period amount : Int} {row new : RafflePeriod}
    (hrow : rows (.rafflePeriod period) = some row)
    (hnew : new.poolAmount = row.poolAmount + amount) :
    PoolMoves (some period) amount rows
      (Function.update rows (.rafflePeriod period) (some new)) where
  frame := fun _ hr => Function.update_of_ne (hr period) _ _
  periods := by
    intro p
    by_cases hp : p = period
    · subst hp
      simp [hrow]
    · rw [Function.update_of_ne (by simp [hp])]
  pool := by
    intro p
    by_cases hp : p = period
    · subst hp
      simp [Interleaved.pool, hrow, hnew]
    · rw [if_neg (by simp [Ne.symm hp]), add_zero]
      exact pool_congr (Function.update_of_ne (by simp [hp]) _ _)

/-- A conditional update of the pool of the period, if there is one. -/
theorem post_addToPool {Q : Unit → Set LedgerKey → LedgerRows → Prop} (c : Prop) [Decidable c]
    {period : Option Int} {amount : Int}
    (hperiod : ∀ p, period = some p → .rafflePeriod p ∈ known)
    (h : ∀ known' rows', known ⊆ known' →
      PoolMoves period (if c then amount else 0) rows rows' → Q () known' rows') :
    (ifDo (c ∧ period ≠ none) (addToPool (period.getD 0) amount)).Post ledgerSchema Q known
      rows := by
  rw [post_ifDo]
  refine ⟨fun ⟨hc, hsome⟩ => ?_, fun hskip => ?_⟩
  · obtain ⟨p, rfl⟩ := Option.ne_none_iff_exists'.mp hsome
    rw [if_pos hc] at h
    simp only [addToPool, Option.getD_some, post_bind, post_lockPeriod]
    refine ⟨fun hnone => (hnone (hperiod p rfl)).elim, ?_⟩
    intro row hrow known' hgrow hknown
    split
    · split
      · rw [post_store_of_refs rfl]
        exact fun _ => ⟨fun _ _ => trivial, h _ _ hgrow (.update hrow rfl)⟩
      · trivial
    · trivial
  · apply h _ _ subset_rfl
    by_cases hc : c
    · have hnone : period = none := by
        by_contra hsome
        exact hskip ⟨hc, hsome⟩
      subst hnone
      exact ⟨fun _ _ => rfl, fun _ => Iff.rfl, fun _ => by simp⟩
    · rw [if_neg hc]
      exact .refl period rows

theorem SharesMove.of {known₁ known₂ : Set LedgerKey} {period : Option Int}
    {pooled taken₁ taken₂ : Int} {rows₁ rows₂ rows₃ rows₄ : LedgerRows} (hgrow : known₁ ⊆ known₂)
    (h₁ : TreasuryMoves known₁ taken₁ rows₁ rows₂) (h₂ : PoolMoves period pooled rows₂ rows₃)
    (h₃ : TreasuryMoves known₂ taken₂ rows₃ rows₄) :
    SharesMove known₁ period pooled (taken₁ + taken₂) rows₁ rows₄ where
  frame := fun r hr hp => by rw [h₃.frame r hr, h₂.frame r hp, h₁.frame r hr]
  periods := fun p => by rw [h₃.frame _ (by simp), h₂.periods, h₁.frame _ (by simp)]
  wagered := fun discordId =>
    (h₃.wagered discordId).trans
      ((wagered_congr (h₂.frame _ (by simp))).trans (h₁.wagered discordId))
  won := fun discordId =>
    (h₃.won discordId).trans ((won_congr (h₂.frame _ (by simp))).trans (h₁.won discordId))
  pool := fun p => by
    rw [pool_congr (h₃.frame _ (by simp)), h₂.pool, pool_congr (h₁.frame _ (by simp))]
  balance := fun hknown => by
    rw [h₃.balance (hgrow hknown), balanceOf_congr (h₂.frame _ (by simp)), h₁.balance hknown,
      add_assoc]

theorem SharesMove.mono {known' : Set LedgerKey} {period : Option Int} {pooled taken : Int}
    (h : SharesMove known' period pooled taken before after) (hgrow : known ⊆ known') :
    SharesMove known period pooled taken before after :=
  { h with balance := fun hknown => h.balance (hgrow hknown) }

theorem ite_pos_mul (sign amount : Int) :
    (if 0 < amount then sign * amount else 0) = sign * max amount 0 := by
  split
  next hpos => rw [max_eq_left hpos.le]
  next hneg => rw [max_eq_right (not_lt.mp hneg), mul_zero]

/-- The three statements that move the shares of a bet. -/
theorem post_shares {Q : Unit → Set LedgerKey → LedgerRows → Prop} (sign : Int)
    {commission rake amount : Int} {period : Option Int} {assign₁ assign₂ : BalanceRow → BalanceRow}
    (hassign₁ : ∀ row, assign₁ row = { row with balance := row.balance + sign * commission })
    (hamount : amount = sign * rake)
    (hassign₂ : ∀ row, assign₂ row = { row with balance := row.balance + sign * rake })
    (hperiod : ∀ p, period = some p → .rafflePeriod p ∈ known)
    (h : ∀ known' rows', known ⊆ known' →
      SharesMove known period (sign * max rake 0) (sign * treasuryShare commission rake period)
        rows rows' → Q () known' rows') :
    (ifDo (0 < commission) (updateBalance 0 assign₁)).Post ledgerSchema
      (fun _ known₁ rows₁ =>
        (ifDo (0 < rake ∧ period ≠ none) (addToPool (period.getD 0) amount)).Post ledgerSchema
          (fun _ known₂ rows₂ =>
            (ifDo (0 < rake ∧ period = none) (updateBalance 0 assign₂)).Post ledgerSchema Q
              known₂ rows₂)
          known₁ rows₁)
      known rows := by
  apply post_updateTreasury _ hassign₁
  intro known₁ rows₁ hgrow₁ hmoves₁
  apply post_addToPool _ fun p hp => hgrow₁ (hperiod p hp)
  intro known₂ rows₂ hgrow₂ hmoves₂
  apply post_updateTreasury _ hassign₂
  intro known₃ rows₃ hgrow₃ hmoves₃
  apply h _ _ (hgrow₁.trans (hgrow₂.trans hgrow₃))
  rw [hamount, ite_pos_mul] at hmoves₂
  have htaken : sign * treasuryShare commission rake period =
      (if 0 < commission then sign * commission else 0) +
        if 0 < rake ∧ period = none then sign * rake else 0 := by
    rw [treasuryShare, mul_add, ite_pos_mul]
    congr 1
    by_cases hnone : period = none
    · simp [hnone, ite_pos_mul]
    · simp [hnone]
  rw [htaken]
  exact .of (hgrow₁.trans hgrow₂) hmoves₁ hmoves₂ hmoves₃

/-! ### One bet -/

theorem wageredOf_of_ne {discordId : Int} {bet : Option Bet}
    (h : ∀ row, bet = some row → row.discordId ≠ discordId) : wageredOf discordId bet = 0 := by
  cases bet with
  | none => rfl
  | some row => simp [wageredOf, h row rfl]

theorem wonOf_of_ne {discordId : Int} {bet : Option Bet}
    (h : ∀ row, bet = some row → row.discordId ≠ discordId) : wonOf discordId bet = 0 := by
  cases bet with
  | none => rfl
  | some row => simp [wonOf, h row rfl]

theorem pooledOf_of_ne {period : Int} {bet : Option Bet}
    (h : ∀ row, bet = some row → row.rakePeriodId ≠ some period) : pooledOf period bet = 0 := by
  cases bet with
  | none => rfl
  | some row => simp [pooledOf, rakeOf, h row rfl]

/-- The account of the bettor, then the shares, then the bet's rows and an audit row. -/
theorem BetMoves.of {id : Int} {bet : Bet} {row new : Balance} {mid : LedgerRows}
    {pooled taken : Int}
    (hold : ∀ old, before (.bet id) = some old →
      old.discordId = bet.discordId ∧ old.rakePeriodId = bet.rakePeriodId)
    (hrow : before (.balance bet.discordId) = some row)
    (hwagered : new.totalWagered = row.totalWagered +
      (wageredOf bet.discordId (some bet) - wageredOf bet.discordId (before (.bet id))))
    (hwon : new.totalWon = row.totalWon +
      (wonOf bet.discordId (some bet) - wonOf bet.discordId (before (.bet id))))
    (hshares : SharesMove known bet.rakePeriodId pooled taken
      (Function.update before (.balance bet.discordId) (some new)) mid)
    (hpooled : ∀ p, bet.rakePeriodId = some p →
      pooled = pooledOf p (some bet) - pooledOf p (before (.bet id)))
    (hbets : ∀ other, after (.bet other) = if other = id then some bet else before (.bet other))
    (hafter : ∀ r, (∀ other, r ≠ .bet other) → (∀ uid, r ≠ .betUid uid) →
      (∀ discordId key, r ≠ .betKey discordId key) → r ≠ .auditLog → after r = mid r) :
    BetMoves id bet before after := by
  -- between `mid` and `after` only the rows of the bet and the audit log are written
  have hbalance : ∀ discordId, after (.balance discordId) = mid (.balance discordId) :=
    fun discordId => hafter _ (by simp) (by simp) (by simp) (by simp)
  have hperiod : ∀ p, after (.rafflePeriod p) = mid (.rafflePeriod p) :=
    fun p => hafter _ (by simp) (by simp) (by simp) (by simp)
  constructor
  · exact hbets
  · intro p
    rw [hperiod, hshares.periods, Function.update_of_ne (by simp)]
  · intro discordId
    rw [wagered_congr (hbalance discordId), hshares.wagered]
    by_cases hself : discordId = bet.discordId
    · subst hself
      simp [Interleaved.wagered, hrow, hwagered]
    · rw [wagered_congr (Function.update_of_ne (by simp [hself]) _ _),
        wageredOf_of_ne fun other hother => by cases hother; exact Ne.symm hself,
        wageredOf_of_ne fun old hbet => by rw [(hold old hbet).1]; exact Ne.symm hself]
      omega
  · intro discordId
    rw [won_congr (hbalance discordId), hshares.won]
    by_cases hself : discordId = bet.discordId
    · subst hself
      simp [Interleaved.won, hrow, hwon]
    · rw [won_congr (Function.update_of_ne (by simp [hself]) _ _),
        wonOf_of_ne fun other hother => by cases hother; exact Ne.symm hself,
        wonOf_of_ne fun old hbet => by rw [(hold old hbet).1]; exact Ne.symm hself]
      omega
  · intro p
    rw [pool_congr (hperiod p), hshares.pool, pool_congr (Function.update_of_ne (by simp) _ _)]
    by_cases hp : bet.rakePeriodId = some p
    · rw [if_pos hp, hpooled p hp]
    · rw [if_neg hp, pooledOf_of_ne fun other hother => by cases hother; exact hp,
        pooledOf_of_ne fun old hbet => by rw [(hold old hbet).2]; exact hp, sub_self]

theorem auditContent_fields {env : Env} {p : AuditParams} {content : AuditContent}
    (h : auditContent env p = some content) :
    p.action = some content.action ∧ p.refType = some content.refType ∧
      content.refId = p.refId := by
  simp only [auditContent, Option.bind_eq_bind, Option.bind_eq_some_iff] at h
  obtain ⟨actorId, -, targetId, -, action, haction, balanceBefore, -, balanceAfter, -, refType,
    hrefType, hcontent⟩ := h
  cases hcontent
  exact ⟨haction, hrefType, rfl⟩

theorem auditContent_changes {env : Env} {p : AuditParams} {content : AuditContent}
    (h : auditContent env p = some content) :
    p.targetId = some content.targetId ∧ p.balanceBefore = some content.balanceBefore ∧
      p.balanceAfter = some content.balanceAfter := by
  simp only [auditContent, Option.bind_eq_bind, Option.bind_eq_some_iff] at h
  obtain ⟨actorId, -, targetId, htarget, action, -, balanceBefore, hbefore, balanceAfter, hafter,
    refType, -, hcontent⟩ := h
  cases hcontent
  exact ⟨htarget, hbefore, hafter⟩

theorem placements_congr {id : Int} (h : after .auditLog = before .auditLog) :
    placements id after = placements id before := by
  rw [placements, placements, auditLog, auditLog, h]

/-- Only a `bet_placed` row counts, and only for its own bet. -/
theorem placements_append {content : AuditContent} {id : Int}
    (htype : content.refType = "luck_bet") (hid : content.refId = some (toString id))
    (other : Int) :
    placements other (Function.update rows .auditLog (some (auditLog rows ++ [content]))) =
      placements other rows + if content.action = "bet_placed" ∧ other = id then 1 else 0 := by
  have hsame : (toString id = toString other) ↔ other = id :=
    ⟨fun h => (int_repr_injective h).symm, fun h => by rw [h]⟩
  simp only [placements, auditLog, Function.update_self, Option.getD_some, List.countP_append,
    List.countP_singleton, htype, hid, Option.some.injEq, hsame, true_and, decide_eq_true_eq]

/-! ### What a call on one bet moves -/

/-- The account of the bettor before and after, what the pool of the bet's period gets, the
rows once the account and the shares have moved, and the audit row. -/
structure BetEffect where
  row : Balance
  new : Balance
  pooled : Int
  mid : LedgerRows
  content : AuditContent

/-- The rows with the audit row. -/
def BetEffect.logged (e : BetEffect) (rows : LedgerRows) : LedgerRows :=
  Function.update rows .auditLog (some (auditLog rows ++ [e.content]))

/-- The bettor is paid, the treasury takes its share, and the audit row says what was paid. -/
structure BetEffect.Moves (e : BetEffect) (known : Set LedgerKey) (id : Int) (bet : Bet)
    (paid taken : Int) (rows : LedgerRows) : Prop where
  row : rows (.balance bet.discordId) = some e.row
  balance : e.new.balance = e.row.balance + paid
  shares : SharesMove (insert (.balance bet.discordId) known) bet.rakePeriodId e.pooled taken
    (Function.update rows (.balance bet.discordId) (some e.new)) e.mid
  refType : e.content.refType = "luck_bet"
  refId : e.content.refId = some (toString id)
  targetId : e.content.targetId = bet.discordId
  change : e.content.balanceAfter - e.content.balanceBefore = paid

section Moves

variable {e : BetEffect} {id : Int} {bet : Bet} {paid taken : Int}

theorem BetEffect.Moves.frame (h : e.Moves known id bet paid taken rows) {r : LedgerKey}
    (hbalance : ∀ discordId, r ≠ .balance discordId) (hperiod : ∀ p, r ≠ .rafflePeriod p) :
    e.mid r = rows r := by
  rw [h.shares.frame r (hbalance 0) hperiod, Function.update_of_ne (hbalance _)]

/-- The audit row, as its insertion reads it. -/
theorem BetEffect.Moves.of {row new : Balance} {pooled : Int} {mid : LedgerRows} {env : Env}
    {p : AuditParams} {content : AuditContent} {known' : Set LedgerKey}
    (hcontent : auditContent env p = some content) (hrow : rows (.balance bet.discordId) = some row)
    (hnew : new.balance = row.balance + paid)
    (hshares : SharesMove known' bet.rakePeriodId pooled taken
      (Function.update rows (.balance bet.discordId) (some new)) mid)
    (hgrow : known ⊆ known') (hself : .balance bet.discordId ∈ known')
    (htype : p.refType = some "luck_bet") (hid : p.refId = some (toString id))
    (htarget : p.targetId = some bet.discordId) (hbefore : p.balanceBefore = some row.balance)
    (hafter : p.balanceAfter = some (row.balance + paid)) :
    (BetEffect.mk row new pooled mid content).Moves known id bet paid taken rows := by
  obtain ⟨htarget', hbefore', hafter'⟩ := auditContent_changes hcontent
  obtain ⟨-, htype', hid'⟩ := auditContent_fields hcontent
  refine ⟨hrow, hnew, hshares.mono (Set.insert_subset hself hgrow), ?_, hid'.trans hid, ?_, ?_⟩
  · exact Option.some.inj (htype'.symm.trans htype)
  · exact Option.some.inj (htarget'.symm.trans htarget)
  · rw [← Option.some.inj (hbefore.symm.trans hbefore'),
      ← Option.some.inj (hafter.symm.trans hafter'), add_sub_cancel_left]

end Moves

/-! ### The functions -/

theorem post_bpsShare {Q : Option Int → Set LedgerKey → LedgerRows → Prop} (amount : Option Int)
    (bps : Int) (h : Q ((amount.map fun amount => amount * bps).map fun product =>
      product.tdiv 10000) known rows) :
    (bpsShare amount bps).Post ledgerSchema Q known rows := by
  simp only [bpsShare, post_bind, post_nullableBigint, post_pure]
  exact fun _ => h

/-- The new bet has what was computed for it. -/
theorem post_openBet {Q : Bet → Set LedgerKey → LedgerRows → Prop} (env : Env)
    (discordId betAmount vEffectiveStake vCommission vRake : Int) (p : BetParams)
    (vActivePeriod : Option Int)
    (h : ∀ bet : Bet, bet.discordId = discordId → p.pIdempotencyKey = some bet.idempotencyKey →
      bet.betAmount = betAmount → bet.status = .open → bet.commission = vCommission →
      bet.rake = vRake → bet.rakePeriodId = vActivePeriod → Q bet known rows) :
    (openBet env discordId betAmount vEffectiveStake vCommission vRake p vActivePeriod).Post
      ledgerSchema Q known rows := by
  simp only [openBet, post_bind, post_notNull]
  intro betUid _ gameName _ channelId _ selection _ serverSeedHash _ clientSeed _ nonce _
    idempotencyKey hkey
  split
  · exact h _ rfl hkey rfl rfl rfl rfl rfl
  · trivial

/-- A new bet with its two index rows. -/
def insertedBet (id : Int) (bet : Bet) (rows : LedgerRows) : LedgerRows :=
  Function.update (Function.update (Function.update rows (.bet id) (some bet))
    (.betUid bet.betUid) (some id)) (.betKey bet.discordId bet.idempotencyKey) (some id)

theorem insertedBet_frame (id : Int) (bet : Bet) {r : LedgerKey} (hbet : ∀ other, r ≠ .bet other)
    (huid : ∀ uid, r ≠ .betUid uid) (hkey : ∀ discordId key, r ≠ .betKey discordId key) :
    insertedBet id bet rows r = rows r := by
  rw [insertedBet, Function.update_of_ne (hkey _ _), Function.update_of_ne (huid _),
    Function.update_of_ne (hbet _)]

theorem insertedBet_bet (id : Int) (bet : Bet) (other : Int) :
    insertedBet id bet rows (.bet other) = if other = id then some bet else rows (.bet other) := by
  rw [insertedBet, Function.update_of_ne (by simp), Function.update_of_ne (by simp)]
  by_cases hother : other = id
  · subst hother
    simp
  · rw [Function.update_of_ne (by simp [hother]), if_neg hother]

theorem insertedBet_betKey (id : Int) (bet : Bet) (discordId : Int) (key : String) :
    insertedBet id bet rows (.betKey discordId key) =
      if discordId = bet.discordId ∧ key = bet.idempotencyKey then some id
      else rows (.betKey discordId key) := by
  rw [insertedBet]
  by_cases hkey : discordId = bet.discordId ∧ key = bet.idempotencyKey
  · obtain ⟨rfl, rfl⟩ := hkey
    simp
  · rw [Function.update_of_ne (by simpa using hkey), Function.update_of_ne (by simp),
      Function.update_of_ne (by simp), if_neg hkey]

theorem post_insertBet {Q : Unit → Set LedgerKey → LedgerRows → Prop} (id : Int) (bet : Bet)
    (hbalance : .balance bet.discordId ∈ known)
    (hperiod : ∀ p, bet.rakePeriodId = some p → .rafflePeriod p ∈ known)
    (h : ∀ known', known ⊆ known' → rows (.bet id) = none →
      rows (.betKey bet.discordId bet.idempotencyKey) = none →
      Q () known' (insertedBet id bet rows)) :
    (insertBet id bet).Post ledgerSchema Q known rows := by
  simp only [insertBet, post_bind, post_see, post_raiseIf, post_addOrRaise]
  intro keys seen hkeys hknown hseen huser hnew
  constructor
  · rintro r (rfl | rfl | ⟨p, hp, rfl⟩)
    · exact huser
    · exact hknown hbalance
    · exact hknown (hperiod p hp)
  · intro huid
    refine ⟨Set.empty_subset _, ?_⟩
    intro hkey
    refine ⟨Set.empty_subset _, ?_⟩
    apply h _ _ hnew
    · simpa using hkey
    · exact fun r hr => Set.mem_insert_of_mem _ (Set.mem_insert_of_mem _
        (Set.mem_insert_of_mem _ (hknown hr)))

theorem silent_nullableBigint (value : Option Int) : (nullableBigint value).Silent := by
  unfold nullableBigint
  split
  · trivial
  · split
    · trivial
    · trivial

theorem silent_bpsShare (amount : Option Int) (bps : Int) : (bpsShare amount bps).Silent :=
  silent_bind (silent_nullableBigint _) fun _ => silent_pure _

/-- What `bps` take of an amount. -/
def shareOf (amount : Option Int) (bps : Int) : Int := (amount.getD 0 * bps).tdiv 10000

theorem bpsShare_getD (amount : Option Int) (bps : Int) :
    (((amount.map fun amount => amount * bps).map fun product => product.tdiv 10000).getD 0) =
      shareOf amount bps := by
  cases amount with
  | none => simp [shareOf]
  | some amount => rfl

/-- A bet is placed: its amount leaves the account, and the bet is new. -/
structure PlacesBet (known : Set LedgerKey) (id : Int) (config : BetConfig) (p : BetParams)
    (bet : Bet) (e : BetEffect) (rows : LedgerRows) : Prop
    extends e.Moves known id bet (-bet.betAmount)
      (treasuryShare bet.commission bet.rake bet.rakePeriodId) rows where
  applies : p.Applies bet.discordId bet.idempotencyKey
  amount : p.pBetAmount = some bet.betAmount
  opened : bet.status = .open
  commission : ∃ game, config.game = some game ∧
    bet.commission = shareOf p.pBetAmount (game.commissionBps.getD 0)
  rake : bet.rake = shareOf p.pBetAmount config.rakeBps
  period : ∀ q, bet.rakePeriodId = some q → rows (.rafflePeriod q) ≠ none
  pooled : e.pooled = max bet.rake 0
  wagered : e.new.totalWagered = e.row.totalWagered + bet.betAmount
  won : e.new.totalWon = e.row.totalWon
  fresh : e.mid (.bet id) = none
  free : e.mid (.betKey bet.discordId bet.idempotencyKey) = none
  action : e.content.action = "bet_placed"

/-- `placeBet` places a bet. Its second `SELECT` is the one that finds the active period. -/
theorem post_traced_placeBet
    {Q : (Int × Bool) × List (Snapshot LedgerKey.Row) → Set LedgerKey → LedgerRows → Prop}
    (env : Env) (nextId : Int) (config : BetConfig) (p : BetParams)
    (reads : List (Snapshot LedgerKey.Row)) (hlog : .auditLog ∈ known)
    (h : ∀ bet e user period more known', PlacesBet known nextId config p bet e rows →
      activePeriod period = bet.rakePeriodId →
      Q ((nextId, false), reads ++ [user] ++ [period] ++ more) known'
        (e.logged (insertedBet nextId bet e.mid))) :
    ((placeBet env nextId config p).traced reads).Post ledgerSchema Q known rows := by
  unfold placeBet
  rw [(silent_require _ _).post_traced_bind, post_require]
  intro game hgame
  rw [(silent_raiseIf _ _).post_traced_bind, post_raiseIf]
  intro _
  rw [(silent_raiseIf _ _).post_traced_bind, post_raiseIf]
  intro _
  rw [(silent_raiseIf _ _).post_traced_bind, post_raiseIf]
  intro _
  rw [(silent_bpsShare _ _).post_traced_bind]
  apply post_bpsShare
  rw [(silent_bpsShare _ _).post_traced_bind]
  apply post_bpsShare
  rw [(silent_nullableBigint _).post_traced_bind, post_nullableBigint]
  intro _
  rw [(silent_nullableBigint _).post_traced_bind, post_nullableBigint]
  intro _
  rw [(silent_require _ _).post_traced_bind, post_require]
  intro d hd
  rw [(show (lockBalance d).Silent from silent_lock _).post_traced_bind, post_lockBalance]
  refine ⟨fun _ => ?_, fun row hrow known₁ hgrow₁ hknown₁ => ?_⟩
  · rw [(silent_require _ _).post_traced_bind, post_require]
    simp
  rw [(silent_require _ _).post_traced_bind, post_require]
  rintro _ ⟨⟩
  rw [post_traced_see]
  intro keys seen hkeys hknown hseen
  rw [(silent_raiseIf _ _).post_traced_bind, post_raiseIf]
  intro _
  rw [(silent_raiseIf _ _).post_traced_bind, post_raiseIf]
  intro _
  rw [post_traced_see]
  intro keys' seen' hkeys' hknown' hseen'
  have hactive : ∀ period, activePeriod ⟨keys', seen'⟩ = some period →
      .rafflePeriod period ∈ present seen' ∧ rows (.rafflePeriod period) ≠ none := by
    have hpost : (see activePeriod : LedgerScript (Option Int)).Post ledgerSchema
        (fun active known' _ => ∀ period, active = some period →
          .rafflePeriod period ∈ known' ∧ rows (.rafflePeriod period) ≠ none)
        (present seen) rows :=
      post_activePeriod fun _ _ _ hfound => hfound
    exact hpost keys' seen' hkeys' hknown' hseen'
  obtain ⟨active, hread⟩ : ∃ active, activePeriod ⟨keys', seen'⟩ = active := ⟨_, rfl⟩
  rw [hread] at hactive ⊢
  -- what follows reads nothing that matters here
  refine (Post.traced (Q := fun result _ after => result = (nextId, false) ∧
    ∃ bet e, PlacesBet known nextId config p bet e rows ∧ bet.rakePeriodId = active ∧
      after = e.logged (insertedBet nextId bet e.mid)) ?_ _).mono ?_
  · simp only [post_bind, post_notNull, post_updateBalance, bpsShare_getD]
    intro amount hamount stake hstake
    have hknown₂ : .balance d ∈ present seen' := hknown' (hknown hknown₁)
    refine ⟨fun hnone => (hnone hknown₂).elim, ?_⟩
    intro row' hrow' known₃ hgrow₃ hknown₃ new hnewRow
    cases hrow.symm.trans hrow'
    apply post_shares 1 (fun _ => by rw [one_mul]) (one_mul _).symm (fun _ => by rw [one_mul])
      fun p hp => hgrow₃ (hactive p hp).1
    intro known₄ mid hgrow₄ hshares
    apply post_openBet
    intro bet hdiscordId hkey hbetAmount hopen hcommission hrake hperiod
    apply post_insertBet
    · rw [hdiscordId]
      exact hgrow₄ hknown₃
    · intro p hp
      rw [hperiod] at hp
      exact hgrow₄ (hgrow₃ (hactive p hp).1)
    intro known₅ hgrow₅ hnew hfree
    apply post_auditLogInsertWithChain
    · exact hgrow₅ (hgrow₄ (hgrow₃ (hknown' (hknown (hgrow₁ hlog)))))
    intro known₆ content _ hcontent _
    subst hdiscordId
    rw [one_mul, one_mul, ← hcommission, ← hrake, ← hperiod] at hshares
    refine ⟨rfl, bet, ⟨row, new, max bet.rake 0, mid, content⟩, ?_, hperiod, rfl⟩
    constructor
    case toMoves =>
      refine .of hcontent hrow ?_ hshares
        (fun r hr => hgrow₃ (hknown' (hknown (hgrow₁ hr)))) hknown₃ rfl rfl hd rfl ?_
      · rw [hnewRow, hbetAmount, sub_eq_add_neg]
      · rw [hbetAmount, sub_eq_add_neg]
    case applies => exact ⟨hd, hkey⟩
    case amount => exact hbetAmount ▸ hamount
    case opened => exact hopen
    case commission => exact ⟨game, hgame, hcommission⟩
    case rake => exact hrake
    case period => exact fun q hq => (hactive q (hperiod.symm.trans hq)).2
    case pooled => rfl
    case wagered => rw [hnewRow, hbetAmount]
    case won => rw [hnewRow]
    case fresh => exact hnew
    case free => exact hfree
    case action => exact (Option.some.inj (auditContent_fields hcontent).1).symm
  · rintro ⟨result, _⟩ known' after ⟨⟨more, rfl⟩, rfl, bet, e, hplaces, hperiod, rfl⟩
    exact h bet e _ _ more known' hplaces (hread.trans hperiod.symm)

theorem PlacesBet.writes {ω : Type} {id : Int} {config : BetConfig} {p : BetParams} {bet : Bet}
    {e : BetEffect} (h : PlacesBet known id config p bet e rows) :
    BetWrites (.applyBet id config p : BetCall ω) rows (some (id, false))
      (e.logged (insertedBet id bet e.mid)) := by
  have hbet : rows (.bet id) = none := by
    rw [← h.fresh, h.frame (by simp) (by simp)]
  have hbalance := h.balance
  have hopen := h.opened
  apply BetWrites.placed h.applies h.amount hopen
  · intro hbps
    have hproduct : 0 ≤ bet.betAmount * config.rakeBps := mul_nonneg bet.betAmount_pos.le hbps
    rw [h.rake, h.amount]
    exact Int.tdiv_nonneg hproduct (by decide)
  · exact hbet
  · rw [← h.free, h.frame (by simp) (by simp)]
  · exact h.period
  · intro discordId key
    rw [BetEffect.logged, Function.update_of_ne (by simp), insertedBet_betKey,
      h.frame (by simp) (by simp)]
  · intro other
    have hlogged : placements other (insertedBet id bet e.mid) = placements other rows :=
      placements_congr ((insertedBet_frame _ _ (by simp) (by simp) (by simp)).trans
        (h.frame (by simp) (by simp)))
    rw [BetEffect.logged, placements_append h.refType h.refId, hlogged]
    simp [h.action]
  · rw [BetEffect.logged, balanceOf_congr (Function.update_of_ne (by simp) _ _),
      balanceOf_congr (insertedBet_frame _ _ (by simp) (by simp) (by simp))]
    -- the treasury may bet as well, and then its shares come back to the same row
    by_cases hzero : bet.discordId = 0
    · rw [if_pos hzero, hzero, h.shares.balance (by simp [hzero]), ← hzero]
      simp [balanceOf, h.row, hbalance, sub_eq_add_neg]
    · rw [if_neg hzero, balanceOf_congr (h.shares.frame _ (by simp [hzero]) (by simp))]
      simp [balanceOf, h.row, hbalance, sub_eq_add_neg]
  · apply BetMoves.of (by simp [hbet]) h.row _ _ h.shares
    · intro q hq
      simp [pooledOf, rakeOf, hbet, hq, hopen, h.pooled]
    · intro other
      rw [BetEffect.logged, Function.update_of_ne (by simp), insertedBet_bet,
        h.frame (by simp) (by simp)]
    · intro r hbets huid hkeys hlog
      rw [BetEffect.logged, Function.update_of_ne hlog, insertedBet_frame _ _ hbets huid hkeys]
    · simp [h.wagered, hbet, wageredOf, hopen]
    · simp [h.won, hbet, wonOf, hopen]

theorem placeBet_post {ω : Type} (env : Env) (nextId : Int) (config : BetConfig) (p : BetParams)
    (hlog : .auditLog ∈ known) :
    (placeBet env nextId config p).Post ledgerSchema
      (fun result _ after => BetWrites (.applyBet nextId config p : BetCall ω) rows (some result) after)
      known rows :=
  .of_traced [] (post_traced_placeBet env nextId config p [] hlog
    fun _ _ _ _ _ _ hplaces _ => hplaces.writes)

theorem applyBet_post {ω : Type} (env : Env) (nextId : Int) (config : BetConfig) (p : BetParams)
    (hlog : .auditLog ∈ known) :
    (applyBet env nextId config p).Post ledgerSchema
      (fun result _ after =>
        BetWrites (.applyBet nextId config p : BetCall ω) rows (some result) after)
      known rows := by
  simp only [applyBet, post_bind]
  apply post_selectExisting
  intro known₁ existing hgrow₁ hexisting
  cases existing with
  | none => exact placeBet_post env nextId config p (hgrow₁ hlog)
  | some id =>
      obtain ⟨discordId, key, hdiscordId, hkey, hrow⟩ := hexisting id rfl
      exact .existing ⟨hdiscordId, hkey⟩ hrow

/-- A bet closed with a status and a payout: the columns that the functions read stay. -/
structure ClosedAs (bet closed : Bet) (status : BetStatus) (payout : Int) : Prop where
  status : closed.status = status
  payoutAmount : closed.payoutAmount = payout
  discordId : closed.discordId = bet.discordId
  idempotencyKey : closed.idempotencyKey = bet.idempotencyKey
  betAmount : closed.betAmount = bet.betAmount
  effectiveStake : closed.effectiveStake = bet.effectiveStake
  rake : closed.rake = bet.rake
  rakePeriodId : closed.rakePeriodId = bet.rakePeriodId

theorem ClosedAs.congr {bet closed : Bet} {status : BetStatus} {payout : Int}
    (h : ClosedAs bet closed status payout) :
    ClosedAs bet closed closed.status closed.payoutAmount :=
  { h with status := rfl, payoutAmount := rfl }

/-- A refund takes the bet out of the counters, a resolution leaves it in. -/
theorem ClosedAs.wageredOf_eq {bet closed : Bet} {status : BetStatus} {payout : Int}
    (h : ClosedAs bet closed status payout) (hopen : bet.status = .open) (discordId : Int) :
    wageredOf discordId (some closed) =
      if status = .refunded then 0 else wageredOf discordId (some bet) := by
  by_cases hrefunded : status = .refunded
  · simp [wageredOf, h.status, hrefunded]
  · simp [wageredOf, h.discordId, h.status, h.betAmount, hopen, hrefunded]

theorem ClosedAs.pooledOf_eq {bet closed : Bet} {status : BetStatus} {payout : Int}
    (h : ClosedAs bet closed status payout) (hopen : bet.status = .open) (period : Int) :
    pooledOf period (some closed) =
      if status = .refunded then 0 else pooledOf period (some bet) := by
  by_cases hrefunded : status = .refunded
  · simp [pooledOf, rakeOf, h.status, hrefunded]
  · simp [pooledOf, rakeOf, h.rakePeriodId, h.status, h.rake, hopen, hrefunded]

theorem post_closeBet {Q : Unit → Set LedgerKey → LedgerRows → Prop} (env : Env) (id : Int)
    (bet : Bet) (status : BetStatus) (payout profit : Int) (outcome : Option Json)
    (hrefs : LedgerKey.Refs (.bet id) bet ⊆ known)
    (h : ∀ closed, ClosedAs bet closed status payout →
      Q () known (Function.update rows (.bet id) (some closed))) :
    (closeBet env id bet status payout profit outcome).Post ledgerSchema Q known rows := by
  unfold closeBet
  split
  · rw [post_store]
    exact fun _ => ⟨hrefs, fun _ _ => trivial, h _ ⟨rfl, rfl, rfl, rfl, rfl, rfl, rfl, rfl⟩⟩
  · trivial

/-- An open bet is closed: its bettor is paid, and the counters follow its columns. -/
structure ClosesBet (known : Set LedgerKey) (id : Int) (bet closed : Bet) (paid taken : Int)
    (e : BetEffect) (rows : LedgerRows) : Prop extends e.Moves known id bet paid taken rows where
  found : rows (.bet id) = some bet
  opened : bet.status = .open
  closedAs : ClosedAs bet closed closed.status closed.payoutAmount
  ended : closed.status ≠ .open
  wagered : e.new.totalWagered = e.row.totalWagered +
    (wageredOf bet.discordId (some closed) - wageredOf bet.discordId (some bet))
  won : e.new.totalWon = e.row.totalWon +
    (wonOf bet.discordId (some closed) - wonOf bet.discordId (some bet))
  pooled : ∀ p, bet.rakePeriodId = some p →
    e.pooled = pooledOf p (some closed) - pooledOf p (some bet)
  action : e.content.action ≠ "bet_placed"

/-- The rows with the closed bet and the audit row. -/
def BetEffect.closing (e : BetEffect) (id : Int) (closed : Bet) : LedgerRows :=
  e.logged (Function.update e.mid (.bet id) (some closed))

theorem ClosesBet.writes {ω : Type} {call : BetCall ω} {id paid taken : Int} {bet closed : Bet}
    {e : BetEffect} (h : ClosesBet known id bet closed paid taken e rows)
    (hcall : ¬ call.Inserts) : BetWrites call rows none (e.closing id closed) := by
  have hclosed := h.closedAs
  apply BetWrites.closed hcall h.found h.opened h.ended hclosed.discordId hclosed.idempotencyKey
    hclosed.rake hclosed.rakePeriodId
  · intro discordId key
    rw [BetEffect.closing, BetEffect.logged, Function.update_of_ne (by simp),
      Function.update_of_ne (by simp), h.frame (by simp) (by simp)]
  · intro other
    have hlogged : placements other (Function.update e.mid (.bet id) (some closed)) =
        placements other rows :=
      placements_congr ((Function.update_of_ne (by simp) _ _).trans (h.frame (by simp) (by simp)))
    rw [BetEffect.closing, BetEffect.logged, placements_append h.refType h.refId, hlogged]
    simp [h.action]
  · have hrow := h.row
    have hwagered := h.wagered
    have hwon := h.won
    have hshares := h.shares
    have hpooled := h.pooled
    rw [← hclosed.discordId] at hrow hwagered hwon hshares
    rw [← hclosed.rakePeriodId] at hshares hpooled
    apply BetMoves.of _ hrow (by rw [h.found]; exact hwagered) (by rw [h.found]; exact hwon) hshares
    · rw [h.found]
      exact hpooled
    · intro other
      rw [BetEffect.closing, BetEffect.logged, Function.update_of_ne (by simp)]
      by_cases hother : other = id
      · subst hother
        simp
      · rw [Function.update_of_ne (by simp [hother]), if_neg hother, h.frame (by simp) (by simp)]
    · intro r hbets huid hkeys hlog
      rw [BetEffect.closing, BetEffect.logged, Function.update_of_ne hlog,
        Function.update_of_ne (hbets id)]
    · intro old hold
      cases h.found.symm.trans hold
      exact ⟨hclosed.discordId.symm, hclosed.rakePeriodId.symm⟩

/-- The treasury pays or takes the difference, and no pool moves. -/
theorem TreasuryMoves.shares {amount : Int} (h : TreasuryMoves known amount before after)
    (period : Option Int) : SharesMove known period 0 (amount + 0) before after :=
  .of subset_rfl h (.refl period after) (.refl known after)

/-- A resolution credits what the bet has won. -/
theorem creditUser_eq {pStatus : Option String} {pPayout : Option Int} {text : String}
    {status : BetStatus} {stake credit payout : Int}
    (hadmitted : ¬ IsNotIn pStatus resolvedStatuses) (htext : pStatus = some text)
    (hstatus : BetStatus.ofText text = some status) (hpayout : pPayout = some payout)
    (hcredit : creditUser pStatus pPayout stake = some credit) :
    (status = .resolvedWin ∧ credit = payout) ∨ (status = .resolvedLoss ∧ credit = 0) ∨
      (status = .resolvedTie ∧ credit = stake) := by
  subst htext hpayout
  have hmem : text ∈ resolvedStatuses := by simpa using hadmitted
  simp only [resolvedStatuses, List.mem_cons, List.not_mem_nil, or_false] at hmem
  rcases hmem with rfl | rfl | rfl
  · simp_all [BetStatus.ofText, creditUser]
  · simp_all [BetStatus.ofText, creditUser]
  · simp_all [BetStatus.ofText, creditUser]

theorem treasuryDelta_eq {pStatus : Option String} {pPayout : Option Int} {stake credit : Int}
    (hcredit : creditUser pStatus pPayout stake = some credit) :
    treasuryDelta pStatus pPayout stake = some (stake - credit) := by
  unfold creditUser at hcredit
  unfold treasuryDelta
  split_ifs at hcredit ⊢
  · rw [hcredit, Option.map_some]
  · cases hcredit
    rw [sub_zero]
  · cases hcredit
    rw [sub_self]

/-- `luck.resolve_bet` finds a bet that is no longer open, or closes it. -/
theorem post_resolveBet {Q : Unit → Set LedgerKey → LedgerRows → Prop} (env : Env)
    (pBetId : Option Int) (pStatus : Option String) (pPayout : Option Int) (pOutcome : Option Json)
    (hlog : .auditLog ∈ known)
    (hretry : ∀ id bet known', pBetId = some id → rows (.bet id) = some bet →
      bet.status ≠ .open → Q () known' rows)
    (hclose : ∀ id bet closed credit e known', pBetId = some id →
      creditUser pStatus pPayout bet.effectiveStake = some credit →
      ClosesBet known id bet closed credit (bet.effectiveStake - credit) e rows →
      Q () known' (e.closing id closed)) :
    (resolveBet env pBetId pStatus pPayout pOutcome).Post ledgerSchema Q known rows := by
  cases pBetId with
  | none => simp [resolveBet, selectBet, post_bind, post_raiseIf, post_pure, post_require]
  | some id =>
      simp only [resolveBet, selectBet, post_bind, post_raiseIf, post_lockBet, post_require]
      intro hadmitted hpayout
      refine ⟨by simp, ?_⟩
      rintro bet hbet known₁ hgrow₁ hknown₁ hrefs₁ _ ⟨⟩
      split
      next hsame =>
        -- a status that resolves is not that of an open bet
        refine hretry id bet _ rfl hbet fun hopen => ?_
        obtain ⟨text, htext, rfl⟩ := hsame.1
        cases htext
        rw [isNotIn_some, not_not, hopen] at hadmitted
        exact absurd hadmitted (by decide)
      next =>
        simp only [post_bind, post_raiseIf, post_lockBalance, post_nullableBigint, post_notNull,
          post_updateBalance]
        intro hopen
        have hopen : bet.status = .open := not_not.mp hopen
        have hbalance : .balance bet.discordId ∈ known₁ := hrefs₁ (.inr (.inl rfl))
        refine ⟨fun hnone => (hnone hbalance).elim, ?_⟩
        intro row hrow known₂ hgrow₂ hknown₂ hbig credit hcredit
        refine ⟨fun hnone => (hnone hknown₂).elim, ?_⟩
        intro row' hrow' known₃ hgrow₃ hknown₃ new hnew
        cases hrow.symm.trans hrow'
        rw [treasuryDelta_eq hcredit, Option.getD_some]
        apply post_updateTreasury _ fun _ => rfl
        intro known₄ mid hgrow₄ htreasury
        simp only [post_require]
        intro _ hid text htext status hstatus payout hpayout
        cases hid
        apply post_closeBet
        · exact fun r hr => hgrow₄ (hgrow₃ (hgrow₂ (hrefs₁ hr)))
        intro closed hclosed
        apply post_auditLogInsertWithChain _ _ (hgrow₄ (hgrow₃ (hgrow₂ (hgrow₁ hlog))))
        intro known₅ content hgrow₅ hcontent _
        -- won, lost and tied: the credit is what the counter of winnings grows by
        have hcases := creditUser_eq hadmitted htext hstatus hpayout hcredit
        have hresolved : status ≠ .open ∧ status ≠ .refunded := by
          rcases hcases with ⟨rfl, -⟩ | ⟨rfl, -⟩ | ⟨rfl, -⟩ <;> simp
        have hwon : wonOf bet.discordId (some closed) = credit := by
          rcases hcases with ⟨rfl, rfl⟩ | ⟨rfl, rfl⟩ | ⟨rfl, rfl⟩ <;>
            simp [wonOf, hclosed.discordId, hclosed.status, hclosed.payoutAmount,
              hclosed.effectiveStake]
        have htaken : (if bet.effectiveStake - credit ≠ 0 then bet.effectiveStake - credit else 0) +
            0 = bet.effectiveStake - credit := by
          split_ifs with hzero
          · exact add_zero _
          · rw [add_zero, not_not.mp hzero]
        have hshares := htreasury.shares bet.rakePeriodId
        rw [htaken] at hshares
        refine hclose _ bet closed credit ⟨row, new, 0, mid, content⟩ _ rfl hcredit ?_
        constructor
        case toMoves =>
          exact .of hcontent hrow (by rw [hnew]) hshares (hgrow₁.trans (hgrow₂.trans hgrow₃))
            (hgrow₃ hknown₂) rfl rfl rfl rfl rfl
        case found => exact hbet
        case opened => exact hopen
        case closedAs => exact hclosed.congr
        case ended => exact hclosed.status ▸ hresolved.1
        case wagered =>
          rw [hclosed.wageredOf_eq hopen, if_neg hresolved.2, sub_self, add_zero, hnew]
        case won =>
          rw [hwon, hnew]
          simp [wonOf, hopen]
        case pooled =>
          intro p hp
          rw [hclosed.pooledOf_eq hopen, if_neg hresolved.2, sub_self]
        case action =>
          rw [← Option.some.inj (auditContent_fields hcontent).1]
          decide

theorem resolveBet_post {ω : Type} {call : BetCall ω}
    (hcall : ¬ call.Inserts) (env : Env) (pBetId : Option Int)
    (pStatus : Option String) (pPayout : Option Int) (pOutcome : Option Json)
    (hlog : .auditLog ∈ known) :
    (resolveBet env pBetId pStatus pPayout pOutcome).Post ledgerSchema
      (fun _ _ after => BetWrites call rows none after) known rows :=
  post_resolveBet env pBetId pStatus pPayout pOutcome hlog (fun _ _ _ _ _ _ => .unchanged hcall)
    fun _ _ _ _ _ _ _ _ hcloses => hcloses.writes hcall

/-- `luck.refund_bet` finds a bet that was refunded, or closes it. -/
theorem post_refundBet {Q : Unit → Set LedgerKey → LedgerRows → Prop} (env : Env)
    (pBetId : Option Int) (pReason : Option String) (hlog : .auditLog ∈ known)
    (hretry : ∀ id bet known', pBetId = some id → rows (.bet id) = some bet →
      bet.status ≠ .open → Q () known' rows)
    (hclose : ∀ id bet closed e known', pBetId = some id →
      ClosesBet known id bet closed bet.betAmount
        (-treasuryShare bet.commission bet.rake bet.rakePeriodId) e rows →
      Q () known' (e.closing id closed)) :
    (refundBet env pBetId pReason).Post ledgerSchema Q known rows := by
  cases pBetId with
  | none => simp [refundBet, selectBet, post_bind, post_pure, post_require]
  | some id =>
      simp only [refundBet, selectBet, post_bind, post_lockBet, post_require]
      refine ⟨by simp, ?_⟩
      rintro bet hbet known₁ hgrow₁ hknown₁ hrefs₁ _ ⟨⟩
      split
      next hrefunded =>
        refine hretry id bet _ rfl hbet fun hopen => ?_
        rw [hopen] at hrefunded
        cases hrefunded
      next =>
        simp only [post_bind, post_raiseIf, post_lockBalance, post_updateBalance]
        intro hopen
        have hopen : bet.status = .open := not_not.mp hopen
        have hbalance : .balance bet.discordId ∈ known₁ := hrefs₁ (.inr (.inl rfl))
        refine ⟨fun hnone => (hnone hbalance).elim, ?_⟩
        intro row hrow known₂ hgrow₂ hknown₂
        refine ⟨fun hnone => (hnone hknown₂).elim, ?_⟩
        intro row' hrow' known₃ hgrow₃ hknown₃ new hnew
        cases hrow.symm.trans hrow'
        apply post_shares (-1) (fun _ => by rw [neg_one_mul, sub_eq_add_neg]) (neg_one_mul _).symm
          (fun _ => by rw [neg_one_mul, sub_eq_add_neg])
          fun p hp => hgrow₃ (hgrow₂ (hrefs₁ (.inr (.inr ⟨p, hp, rfl⟩))))
        intro known₄ mid hgrow₄ hshares
        simp only [post_require]
        intro _ hid
        cases hid
        apply post_closeBet
        · exact fun r hr => hgrow₄ (hgrow₃ (hgrow₂ (hrefs₁ hr)))
        intro closed hclosed
        apply post_auditLogInsertWithChain _ _ (hgrow₄ (hgrow₃ (hgrow₂ (hgrow₁ hlog))))
        intro known₅ content hgrow₅ hcontent _
        rw [neg_one_mul (treasuryShare _ _ _)] at hshares
        refine hclose _ bet closed ⟨row, new, -1 * max bet.rake 0, mid, content⟩ _ rfl ?_
        constructor
        case toMoves =>
          exact .of hcontent hrow (by rw [hnew]) hshares (hgrow₁.trans (hgrow₂.trans hgrow₃))
            hknown₃ rfl rfl rfl rfl rfl
        case found => exact hbet
        case opened => exact hopen
        case closedAs => exact hclosed.congr
        case ended => simp [hclosed.status]
        case wagered =>
          rw [hclosed.wageredOf_eq hopen, if_pos rfl, hnew]
          simp [wageredOf, hopen, sub_eq_add_neg]
        case won =>
          rw [hnew]
          simp [wonOf, hclosed.status, hopen]
        case pooled =>
          intro p hp
          rw [hclosed.pooledOf_eq hopen, if_pos rfl]
          simp [pooledOf, rakeOf, hopen, hp]
        case action =>
          rw [← Option.some.inj (auditContent_fields hcontent).1]
          decide

theorem refundBet_post {ω : Type} {call : BetCall ω}
    (hcall : ¬ call.Inserts) (env : Env) (pBetId : Option Int)
    (pReason : Option String) (hlog : .auditLog ∈ known) :
    (refundBet env pBetId pReason).Post ledgerSchema
      (fun _ _ after => BetWrites call rows none after) known rows :=
  post_refundBet env pBetId pReason hlog (fun _ _ _ _ _ _ => .unchanged hcall)
    fun _ _ _ _ _ _ hcloses => hcloses.writes hcall

theorem cashoutMines_post {ω : Type} {call : BetCall ω}
    (hcall : ¬ call.Inserts) (env : Env) (pBetId : Option Int)
    (pMultiplier : Option Numeric) (hlog : .auditLog ∈ known) :
    (cashoutMines env pBetId pMultiplier).Post ledgerSchema
      (fun _ _ after => BetWrites call rows none after) known rows := by
  cases pBetId with
  | none => simp [cashoutMines, selectBet, post_bind, post_raiseIf, post_pure, post_require]
  | some id =>
      simp only [cashoutMines, selectBet, post_bind, post_raiseIf, post_lockBet, post_require,
        post_nullableBigint]
      intro hmultiplier
      refine ⟨by simp, ?_⟩
      intro bet hbet known₁ hgrow₁ hknown₁ hrefs₁ _ _ hgame hopen hbig
      exact resolveBet_post hcall env (some id) _ _ _ (hgrow₁ hlog)

/-! ## Any call -/

/-- Other functions, which do nothing to bets. -/
def LeavesBets {ω : Type} (other : Env → ω → LedgerScript Unit) : Prop :=
  ∀ env call known rows, .auditLog ∈ known →
    (other env call).Post ledgerSchema (fun _ _ after => KeepsBets rows after) known rows

theorem betBody_describes {ω : Type} {other : Env → ω → LedgerScript Unit}
    (hother : LeavesBets other) {base : LedgerRows} (hlog : .auditLog ∈ present base) :
    Concurrent.Describes ledgerSchema base
      (fun call before result after => BetWrites call.2 before result after) (betBody other) where
  post := by
    rintro ⟨env, call⟩ rows -
    cases call with
    | applyBet nextId config params =>
        exact (post_bind _ _).mpr (applyBet_post env nextId config params hlog)
    | resolveBet pBetId pStatus pPayout pOutcome =>
        exact (post_bind _ _).mpr
          (resolveBet_post (by simp [BetCall.Inserts]) env pBetId pStatus pPayout pOutcome hlog)
    | refundBet pBetId pReason =>
        exact (post_bind _ _).mpr
          (refundBet_post (by simp [BetCall.Inserts]) env pBetId pReason hlog)
    | cashoutMines pBetId pMultiplier =>
        exact (post_bind _ _).mpr
          (cashoutMines_post (by simp [BetCall.Inserts]) env pBetId pMultiplier hlog)
    | insertPeriod id period =>
        simp only [betBody, insertPeriod, post_bind, post_addOrRaise, post_pure]
        exact fun hnew => ⟨Set.empty_subset _, .newPeriod hnew⟩
    | setPeriodStatus id status =>
        simp only [betBody, setPeriodStatus, post_bind, post_lockPeriod, post_pure]
        refine ⟨fun _ => .unchanged (by simp [BetCall.Inserts]), ?_⟩
        intro period hperiod known' hgrow hknown
        rw [post_store_of_refs rfl]
        exact fun _ => ⟨fun _ _ => trivial, .periodStatus hperiod⟩
    | other call =>
        exact (post_bind _ _).mpr ((hother env call _ rows hlog).mono fun _ _ _ h => .other h)

end DeathRoll.Interleaved
