import DeathRoll.Interleaved.MatchedPayments
import DeathRoll.Interleaved.RateTokens
import DeathRoll.Interleaved.Sessions

/-! # Characters, bans and helpers under concurrency

`dw.add_cashier_character`, `dw.remove_cashier_character`, `dw.ban_user`, `dw.unban_user`,
`luck.consume_rate_token` and `luck.grant_raffle_tickets`, statement by statement. With
them every function of the ledger that is not about bets is a script.
-/

namespace DeathRoll.Interleaved

open Relational Script

/-! ## Cashier characters -/

def lockCharacter (key : CharacterKey) : LedgerScript (Option CashierCharacter) :=
  lock (LedgerKey.cashierCharacter key)

/-- `INSERT INTO dw.cashier_characters ... ON CONFLICT (discord_id, char_name, realm, region)
DO UPDATE SET is_active = TRUE, removed_at = NULL RETURNING id`, with the id that the sequence
gives. -/
def upsertCharacter (env : Env) (newId : Int) (key : CharacterKey) (faction : Faction) :
    LedgerScript Int := do
  let added ← add (.cashierCharacter key)
    ({ id := newId, faction, isActive := true, addedAt := env.now } : CashierCharacter)
  if added then return newId
  else
    match ← lockCharacter key with
    | none => return newId
    | some row =>
        store (.cashierCharacter key)
          ({ row with isActive := true, removedAt := none } : CashierCharacter)
        return row.id

def addCashierCharacter (env : Env) (newId : Int) (pDiscordId : Option Int)
    (pChar pRealm pRegion pFaction : Option String) : LedgerScript Int := do
  raiseIf (IsNotIn pRegion Region.texts) .invalidRegionBare
  raiseIf (IsNotIn pFaction Faction.texts) .invalidFactionBare
  let discordId ← notNull "discord_id" pDiscordId
  let charName ← notNull "char_name" pChar
  let realm ← notNull "realm" pRealm
  let region ← checkedText "region" Region.ofText pRegion
  let faction ← checkedText "faction" Faction.ofText pFaction
  let id ← upsertCharacter env newId { discordId, charName, realm, region } faction
  let target ← registeredOr0 discordId
  auditLogInsertWithChain env
    { actorType := .cashier
      actorId := pDiscordId
      targetId := some target
      action := some "cashier_addchar"
      amount := none
      balanceBefore := some 0
      balanceAfter := some 0
      reason := some ("Cashier registered char " ++ formatText pChar ++ " on " ++
        formatText pRealm ++ "-" ++ formatText pRegion ++ " (" ++ formatText pFaction ++ ")")
      refType := some "cashier_character"
      refId := some (toString id)
      botName := "dw"
      metadata := .obj [("char", .ofText? pChar), ("realm", .ofText? pRealm),
        ("region", .ofText? pRegion), ("faction", .ofText? pFaction)] }
  return id

/-- The character that the four arguments name, if none of them is `NULL`. -/
def characterKey (pDiscordId : Option Int) (pChar pRealm pRegion : Option String) :
    Option CharacterKey := do
  let discordId ← pDiscordId
  let charName ← pChar
  let realm ← pRealm
  let region ← Region.ofText (← pRegion)
  return { discordId, charName, realm, region }

def removeCashierCharacter (env : Env) (pDiscordId : Option Int)
    (pChar pRealm pRegion : Option String) : LedgerScript Unit := do
  let key ← require .characterNotFoundOrAlreadyRemoved
    (characterKey pDiscordId pChar pRealm pRegion)
  let row ← require .characterNotFoundOrAlreadyRemoved (← lockCharacter key)
  raiseIf (row.isActive = false) .characterNotFoundOrAlreadyRemoved
  store (.cashierCharacter key)
    ({ row with isActive := false, removedAt := some env.now } : CashierCharacter)
  let target ← registeredOr0 key.discordId
  auditLogInsertWithChain env
    { actorType := .cashier
      actorId := pDiscordId
      targetId := some target
      action := some "cashier_removechar"
      amount := none
      balanceBefore := some 0
      balanceAfter := some 0
      reason := some ("Cashier removed char " ++ formatText pChar ++ " on " ++
        formatText pRealm ++ "-" ++ formatText pRegion)
      refType := some "cashier_character"
      refId := none
      botName := "dw"
      metadata := .obj [("char", .ofText? pChar), ("realm", .ofText? pRealm),
        ("region", .ofText? pRegion)] }

/-! ## Bans -/

/-- `UPDATE core.users SET ... WHERE discord_id = _`, and whether it found the row. -/
def updateUser (discordId : Int) (new : User) : LedgerScript Bool := do
  match ← lockUser discordId with
  | none => return false
  | some _ =>
      store (.user discordId) new
      return true

def banUser (env : Env) (pUserId : Option Int) (pReason : Option String)
    (pAdminId : Option Int) : LedgerScript Unit := do
  raiseIf (IsEq pUserId (some 0)) .cannotBanTreasury
  let userId ← notNull "discord_id" pUserId
  insertUser userId
  insertBalance userId
  let vWasBanned := (← lockUser userId).map User.banned
  let _ ← updateUser userId
    { banned := true, bannedReason := pReason, bannedAt := some env.now }
  auditLogInsertWithChain env
    { actorType := .admin
      actorId := pAdminId
      targetId := pUserId
      action := some "user_banned"
      amount := none
      balanceBefore := some 0
      balanceAfter := some 0
      reason := some (pReason.getD "banned")
      refType := some "user"
      refId := some (toString userId)
      botName := "dw"
      metadata := .obj [("was_already_banned", .bool (vWasBanned.getD false))] }

def unbanUser (env : Env) (pUserId pAdminId : Option Int) : LedgerScript Unit := do
  let userId ← require .userNotRegistered pUserId
  let found ← updateUser userId {}
  raiseIf (found = false) .userNotRegistered
  auditLogInsertWithChain env
    { actorType := .admin
      actorId := pAdminId
      targetId := pUserId
      action := some "user_unbanned"
      amount := none
      balanceBefore := some 0
      balanceAfter := some 0
      reason := some "admin unban"
      refType := some "user"
      refId := some (toString userId)
      botName := "dw"
      metadata := .obj [] }

/-! ## Helpers -/

/-- `luck.consume_rate_token` on the rows of `luck.rate_limit_entries` among all rows. -/
def consumeToken (call : RateCall) : LedgerScript (Option Bool) :=
  (consumeRateToken call).embed LedgerKey.rateLimitEntry fun
    | .rateLimitEntry key => some key
    | _ => none

/-- `SELECT status FROM luck.raffle_periods WHERE id = _`. -/
def selectPeriodStatus (id : Option Int) : LedgerScript (Option PeriodStatus) :=
  see fun s => (id.bind fun id => s.rows (.rafflePeriod id)).map RafflePeriod.status

/-- `INSERT INTO luck.raffle_tickets ... FROM generate_series(1, n)`, with the ids that the
sequence gives. -/
def insertRaffleTickets (ticket : RaffleTicket) : List Int → LedgerScript Unit
  | [] => pure ()
  | id :: rest => do
      addOrRaise (.raffleTicket id) ticket (.uniqueViolation "raffle_tickets_pkey")
      insertRaffleTickets ticket rest

def grantRaffleTickets (env : Env) (nextIds : ℕ → Int)
    (pDiscordId pPeriodId pTicketCount pBetId : Option Int) : LedgerScript (Option Int) := do
  raiseIf (IsLt pTicketCount (some 0)) (.invalidTicketCount pTicketCount)
  if pTicketCount = some 0 then
    return some 0
  else
    let vPeriodStatus ← require (.periodNotFound pPeriodId) (← selectPeriodStatus pPeriodId)
    raiseIf (vPeriodStatus ≠ .active) (.periodNotActive pPeriodId vPeriodStatus)
    if pTicketCount = none then
      -- generate_series(1, NULL) has no rows
      return none
    else
      let periodId ← require (.periodNotFound pPeriodId) pPeriodId
      let discordId ← notNull "discord_id" pDiscordId
      insertRaffleTickets { periodId, discordId, betId := pBetId, grantedAt := env.now }
        ((List.range (pTicketCount.getD 0).toNat).map nextIds)
      -- the foreign keys are looked up at the end of the statement; nothing deletes a period
      let user ← see fun s => s.rows (.user discordId)
      raiseIf (user = none) (.foreignKeyViolation "raffle_tickets_discord_id_fkey")
      let bet ← see fun s => pBetId.bind fun id => s.rows (.bet id)
      raiseIf (pBetId ≠ none ∧ bet = none) (.foreignKeyViolation "raffle_tickets_bet_id_fkey")
      return pTicketCount

/-! ## All functions that are not about bets -/

/-- The calls on cashier characters and bans, and the two helpers of the games. -/
inductive AccountCall where
  | addCashierCharacter (newId : Int) (pDiscordId : Option Int)
      (pChar pRealm pRegion pFaction : Option String)
  | removeCashierCharacter (pDiscordId : Option Int) (pChar pRealm pRegion : Option String)
  | banUser (pUserId : Option Int) (pReason : Option String) (pAdminId : Option Int)
  | unbanUser (pUserId pAdminId : Option Int)
  | consumeRateToken (pDiscordId : Option Int) (pScope : Option String)
      (pWindowS pMaxCount : Option Int)
  | grantRaffleTickets (nextIds : ℕ → Int) (pDiscordId pPeriodId pTicketCount pBetId : Option Int)

def accountBody (env : Env) : AccountCall → LedgerScript Unit
  | .addCashierCharacter newId pDiscordId pChar pRealm pRegion pFaction => do
      let _ ← addCashierCharacter env newId pDiscordId pChar pRealm pRegion pFaction
  | .removeCashierCharacter pDiscordId pChar pRealm pRegion =>
      removeCashierCharacter env pDiscordId pChar pRealm pRegion
  | .banUser pUserId pReason pAdminId => banUser env pUserId pReason pAdminId
  | .unbanUser pUserId pAdminId => unbanUser env pUserId pAdminId
  | .consumeRateToken pDiscordId pScope pWindowS pMaxCount => do
      let _ ← consumeToken { now := env.now, pDiscordId, pScope, pWindowS, pMaxCount }
  | .grantRaffleTickets nextIds pDiscordId pPeriodId pTicketCount pBetId => do
      let _ ← grantRaffleTickets env nextIds pDiscordId pPeriodId pTicketCount pBetId

/-- The calls that are not about bets. -/
inductive OtherCall where
  | ticket (call : TicketCall)
  | dispute (call : DisputeCall)
  | session (call : SessionCall)
  | account (call : AccountCall)
  | treasurySweep (pAmount pAdminId : Option Int) (pReason : Option String)

def otherBody (env : Env) : OtherCall → LedgerScript Unit
  | .ticket call => ticketBody (env, call)
  | .dispute call => disputeBody (env, call)
  | .session call => sessionBody (env, call)
  | .account call => accountBody env call
  | .treasurySweep pAmount pAdminId pReason => do
      let _ ← treasurySweep env pAmount pAdminId pReason

end DeathRoll.Interleaved
