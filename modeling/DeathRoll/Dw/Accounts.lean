import DeathRoll.Dw.Treasury

/-! # Cashier and ban functions

`dw.add_cashier_character`, `remove_cashier_character`, `set_cashier_status`,
`expire_cashier`, `ban_user` and `unban_user`. None of them moves gold.
-/

namespace DeathRoll

open Relational Tx

/-! ## Cashiers -/

def addCashierCharacter (env : Env) (pDiscordId : Option Int)
    (pChar pRealm pRegion pFaction : Option String) : LedgerTx Int := do
  raiseIf (IsNotIn pRegion Region.texts) .invalidRegionBare
  raiseIf (IsNotIn pFaction Faction.texts) .invalidFactionBare
  let newId ← nextval .cashierCharacters
  let discordId ← notNull "discord_id" pDiscordId
  let charName ← notNull "char_name" pChar
  let realm ← notNull "realm" pRealm
  let region ← checkedText "region" Region.ofText pRegion
  let faction ← checkedText "faction" Faction.ofText pFaction
  let s ← get
  let key : CharacterKey := { discordId, charName, realm, region }
  -- ON CONFLICT DO UPDATE keeps the row's id and faction
  let row := (s.cashierCharacters.get? key).getD
    { id := newId, faction, isActive := true, addedAt := env.now }
  let row := { row with isActive := true, removedAt := none }
  set { s with
    cashierCharacters := (s.cashierCharacters.insertNew key row).set key row }
  let _ ← auditLogInsertWithChain env
    { actorType := .cashier
      actorId := pDiscordId
      targetId := some (s.registeredOr0 pDiscordId)
      action := some "cashier_addchar"
      amount := none
      balanceBefore := some 0
      balanceAfter := some 0
      reason := some ("Cashier registered char " ++ formatText pChar ++ " on " ++
        formatText pRealm ++ "-" ++ formatText pRegion ++ " (" ++ formatText pFaction ++ ")")
      refType := some "cashier_character"
      refId := some (toString row.id)
      botName := "dw"
      metadata := .obj [("char", .ofText? pChar), ("realm", .ofText? pRealm),
        ("region", .ofText? pRegion), ("faction", .ofText? pFaction)] }
  return row.id

/-- The active character the four arguments name. -/
def Database.activeCharacter? (s : Database) (pDiscordId : Option Int)
    (pChar pRealm pRegion : Option String) : Option (CharacterKey × CashierCharacter) := do
  let key : CharacterKey :=
    { discordId := ← pDiscordId, charName := ← pChar, realm := ← pRealm,
      region := ← Region.ofText (← pRegion) }
  let row ← s.cashierCharacters.get? key
  if row.isActive then return (key, row) else none

def removeCashierCharacter (env : Env) (pDiscordId : Option Int)
    (pChar pRealm pRegion : Option String) : LedgerTx Unit := do
  let s ← get
  let found ← require .characterNotFoundOrAlreadyRemoved
    (s.activeCharacter? pDiscordId pChar pRealm pRegion)
  set { s with
    cashierCharacters := s.cashierCharacters.set found.1
      { found.2 with isActive := false, removedAt := some env.now } }
  let _ ← auditLogInsertWithChain env
    { actorType := .cashier
      actorId := pDiscordId
      targetId := some (s.registeredOr0 pDiscordId)
      action := some "cashier_removechar"
      amount := none
      balanceBefore := some 0
      balanceAfter := some 0
      reason := some ("Cashier removed char " ++ formatText pChar ++ " on " ++
        formatText pRealm ++ "-" ++ formatText pRegion)
      refType := some "cashier_character"
      refId := none
      botName := "dw"
      metadata := .obj [("char", .ofText? pChar), ("realm", .ofText? pRealm),
        ("region", .ofText? pRegion)] }

/-- `UPDATE dw.cashier_sessions SET ended_at = NOW(), duration_s = _, end_reason = _
WHERE discord_id = _ AND ended_at IS NULL`. -/
def endSessions (env : Env) (cashier : Int) (reason : SessionEnd) : LedgerTx Unit :=
  modify fun s =>
    { s with
      cashierSessions := s.cashierSessions.rows.foldl
        (fun table row =>
          if row.2.discordId = cashier ∧ row.2.endedAt = none then
            table.set row.1
              { row.2 with
                endedAt := some env.now,
                durationS := some (epochSeconds (env.now - row.2.startedAt)),
                endReason := some reason }
          else table)
        s.cashierSessions }

def insertSession (env : Env) (cashier : Int) : LedgerTx Unit := do
  let id ← nextval .cashierSessions
  let s ← get
  raiseIf (s.cashierSessions.get? id ≠ none) (.uniqueViolation "cashier_sessions_pkey")
  set { s with
    cashierSessions := s.cashierSessions.insertNew id
      { discordId := cashier, startedAt := env.now } }

def setCashierStatus (env : Env) (pDiscordId : Option Int) (pStatus : Option String) :
    LedgerTx Unit := do
  raiseIf (IsNotIn pStatus CashierState.texts) (.invalidStatus pStatus)
  let s ← get
  let vOldStatus := (s.cashierStatus.select pDiscordId).map CashierStatus.status
  let discordId ← notNull "discord_id" pDiscordId
  let status ← checkedText "status" CashierState.ofText pStatus
  let row : CashierStatus := { status, setAt := env.now, lastActiveAt := env.now }
  set { s with cashierStatus := (s.cashierStatus.insertNew discordId row).set discordId row }
  ifDo (status = .online ∧ vOldStatus ≠ some .online) (insertSession env discordId)
  ifDo (status ≠ .online ∧ vOldStatus = some .online)
    (endSessions env discordId (if status = .break then .manualBreak else .manualOffline))
  let _ ← auditLogInsertWithChain env
    { actorType := .cashier
      actorId := pDiscordId
      targetId := some (s.registeredOr0 pDiscordId)
      action := some ("cashier_status_" ++ status.text)
      amount := none
      balanceBefore := some 0
      balanceAfter := some 0
      reason := some ("Cashier moved to " ++ status.text)
      refType := some "cashier_status"
      refId := some (toString discordId)
      botName := "dw"
      metadata := .obj [("previous", .text ((vOldStatus.map CashierState.text).getD "never"))] }

def expireCashier (env : Env) (pDiscordId : Option Int) : LedgerTx Unit := do
  let s ← get
  let vOldStatus := (s.cashierStatus.select pDiscordId).map CashierStatus.status
  raiseIf (vOldStatus ≠ some .online) .cashierNotOnline
  let discordId ← notNull "discord_id" pDiscordId
  set { s with
    cashierStatus := s.cashierStatus.set discordId
      { status := .offline, setAt := env.now, lastActiveAt := env.now } }
  endSessions env discordId .expired
  let _ ← auditLogInsertWithChain env
    { actorType := .system
      actorId := some 0
      targetId := pDiscordId
      action := some "cashier_status_offline_expired"
      amount := none
      balanceBefore := some 0
      balanceAfter := some 0
      reason := some "idle for >1h — auto-offline by cashier_idle_worker"
      refType := some "cashier_status"
      refId := some (toString discordId)
      botName := "dw"
      metadata := .obj [("previous", .text CashierState.online.text)] }

/-! ## Bans -/

def banUser (env : Env) (pUserId : Option Int) (pReason : Option String) (pAdminId : Option Int) :
    LedgerTx Unit := do
  raiseIf (IsEq pUserId (some 0)) .cannotBanTreasury
  let userId ← notNull "discord_id" pUserId
  insertUser userId
  insertBalance userId
  let s ← get
  let vWasBanned := (s.users.get? userId).map User.banned
  set (s.setUser userId { banned := true, bannedReason := pReason, bannedAt := some env.now })
  let _ ← auditLogInsertWithChain env
    { actorType := .admin
      actorId := pAdminId
      targetId := pUserId
      action := some "user_banned"
      amount := none
      balanceBefore := some 0
      balanceAfter := some 0
      reason := some (pReason.getD "banned")
      refType := some "user"
      refId := some (toString userId)
      botName := "dw"
      metadata := .obj [("was_already_banned", .bool (vWasBanned.getD false))] }

def unbanUser (env : Env) (pUserId pAdminId : Option Int) : LedgerTx Unit := do
  let s ← get
  raiseIf (s.users.select pUserId = none) .userNotRegistered
  let userId ← require .userNotRegistered pUserId
  set (s.setUser userId {})
  let _ ← auditLogInsertWithChain env
    { actorType := .admin
      actorId := pAdminId
      targetId := pUserId
      action := some "user_unbanned"
      amount := none
      balanceBefore := some 0
      balanceAfter := some 0
      reason := some "admin unban"
      refType := some "user"
      refId := some (toString userId)
      botName := "dw"
      metadata := .obj [] }

end DeathRoll
