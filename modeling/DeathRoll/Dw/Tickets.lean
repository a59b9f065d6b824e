import DeathRoll.Core.Statements

/-! # Ticket functions

`dw.create_deposit_ticket`, `confirm_deposit`, `cancel_deposit`, the same three
for withdraws, and `claim_ticket` and `release_ticket` for both kinds. Arguments
are nullable, as in SQL; a required column given `NULL` raises where its row is
written.
-/

namespace DeathRoll

open Relational Tx

/-- `SELECT value_int FROM dw.global_config WHERE key = _`. -/
def Database.dwInt (s : Database) (key : String) : Option Int := (s.dwConfig.get? key).join

/-- `SELECT balance FROM core.balances WHERE discord_id = _`. -/
def Database.balance? (s : Database) (discordId : Option Int) : Option Int :=
  (s.balances.select discordId).map fun row => row.balance

/-- `SELECT locked_balance FROM core.balances WHERE discord_id = _`. -/
def Database.lockedBalance? (s : Database) (discordId : Option Int) : Option Int :=
  (s.balances.select discordId).map fun row => row.lockedBalance

/-- `COALESCE((SELECT discord_id FROM core.users WHERE discord_id = _), 0)`. -/
def Database.registeredOr0 (s : Database) (discordId : Option Int) : Int :=
  if s.users.select discordId = none then 0 else discordId.getD 0

/-- The shared columns of a new ticket, with the constraints of its `INSERT`. -/
def openTicket (env : Env) (table : String) (sequence : SequenceName) (pDiscordId : Option Int)
    (pChar pRealm pRegion pFaction : Option String) (pAmount pThreadId pParentChannelId : Option Int)
    (vExpires : Timestamp) : LedgerTx Ticket := do
  let id ← nextval sequence
  let discordId ← notNull "discord_id" pDiscordId
  let charName ← notNull "char_name" pChar
  let realm ← notNull "realm" pRealm
  let region ← checkedText "region" Region.ofText pRegion
  let faction ← checkedText "faction" Faction.ofText pFaction
  let amount ← notNull "amount" pAmount
  let threadId ← notNull "thread_id" pThreadId
  let parentChannelId ← notNull "parent_channel_id" pParentChannelId
  if hamount : 0 < amount then
    return { id, discordId, charName, realm, region, faction, amount, status := .open, threadId,
             parentChannelId, expiresAt := vExpires, lastActivityAt := env.now,
             createdAt := env.now, amount_pos := hamount }
  else throw (.checkViolation (table ++ "_amount_check"))

/-! ## Ticket updates -/

/-- `SET status = 'claimed', claimed_by = _, claimed_at = NOW(), last_activity_at = NOW()`. -/
@[simps] def Ticket.claim (ticket : Ticket) (now : Timestamp) (cashier : Option Int) : Ticket :=
  { ticket with
    status := .claimed, claimedBy := cashier, claimedAt := some now, lastActivityAt := now }

/-- `SET status = 'open', claimed_by = NULL, claimed_at = NULL, last_activity_at = NOW()`. -/
@[simps] def Ticket.release (ticket : Ticket) (now : Timestamp) : Ticket :=
  { ticket with status := .open, claimedBy := none, claimedAt := none, lastActivityAt := now }

/-- `SET status = 'confirmed', confirmed_at = NOW(), last_activity_at = NOW()`. -/
@[simps] def Ticket.confirm (ticket : Ticket) (now : Timestamp) : Ticket :=
  { ticket with status := .confirmed, confirmedAt := some now, lastActivityAt := now }

/-- `SET status = 'cancelled', cancelled_at = NOW(), cancel_reason = _, last_activity_at = NOW()`. -/
@[simps] def Ticket.cancel (ticket : Ticket) (now : Timestamp) (reason : Option String) : Ticket :=
  { ticket with
    status := .cancelled, cancelledAt := some now, cancelReason := reason, lastActivityAt := now }

/-! ## Deposits -/

/-- `INSERT INTO dw.deposit_tickets`. -/
def insertDeposit (uid : String) (ticket : Ticket) : LedgerTx Unit := do
  let s ← get
  raiseIf (s.depositTickets.any fun _ other => other.id = ticket.id)
    (.uniqueViolation "deposit_tickets_pkey")
  raiseIf (s.depositTickets.get? uid ≠ none) (.uniqueViolation "deposit_tickets_ticket_uid_key")
  raiseIf (s.depositTickets.any fun _ other => other.threadId = ticket.threadId)
    (.uniqueViolation "deposit_tickets_thread_id_key")
  set (s.addDeposit uid ticket)

def createDepositTicket (env : Env) (pDiscordId : Option Int)
    (pChar pRealm pRegion pFaction : Option String)
    (pAmount pThreadId pParentChannelId : Option Int) : LedgerTx String := do
  let s ← get
  -- no row: not banned
  raiseIf ((s.users.select pDiscordId).map User.banned = some true) .userBanned
  let vMin ← require (.globalConfigMissing .deposit) (s.dwInt "min_deposit_g")
  let vMax ← require (.globalConfigMissing .deposit) (s.dwInt "max_deposit_g")
  let vTtlS ← require (.globalConfigMissing .deposit) (s.dwInt "ticket_expiry_open_s")
  raiseIf (IsLt pAmount (some vMin) ∨ IsLt (some vMax) pAmount)
    (.amountOutOfRange pAmount (some vMin) (some vMax))
  raiseIf (IsNotIn pRegion Region.texts) (.invalidRegion pRegion)
  raiseIf (IsNotIn pFaction Faction.texts) (.invalidFaction pFaction)
  let vExpires := env.now + vTtlS * 1000000
  let vUid := "deposit-" ++ toString (← nextval .depositTickets)
  let ticket ← openTicket env "deposit_tickets" .depositTickets pDiscordId pChar pRealm pRegion
    pFaction pAmount pThreadId pParentChannelId vExpires
  insertDeposit vUid ticket
  let s ← get
  let vBalance := (s.balance? pDiscordId).getD 0
  let _ ← auditLogInsertWithChain env
    { actorType := .user
      actorId := pDiscordId
      targetId := some (s.registeredOr0 pDiscordId)
      action := some "deposit_ticket_opened"
      amount := pAmount
      balanceBefore := some vBalance
      balanceAfter := some vBalance
      reason := some ("Deposit ticket opened for " ++ formatText pChar ++ " on " ++
        formatText pRealm ++ "-" ++ formatText pRegion)
      refType := some "deposit_ticket"
      refId := some vUid
      botName := "dw"
      metadata := .obj [("char", .ofText? pChar), ("realm", .ofText? pRealm),
        ("region", .ofText? pRegion), ("faction", .ofText? pFaction)] }
  return vUid

def confirmDeposit (env : Env) (pTicketUid : Option String) (pCashierId : Option Int) :
    LedgerTx (Option Int) := do
  let s ← get
  let vTicket ← require .ticketNotFound (s.depositTickets.select pTicketUid)
  if vTicket.status = .confirmed ∧ IsEq vTicket.claimedBy pCashierId then
    -- idempotent retry
    return s.balance? (some vTicket.discordId)
  else
    raiseIf (vTicket.status ≠ .claimed) (.ticketNotClaimed vTicket.status)
    raiseIf (IsNe vTicket.claimedBy pCashierId) (.wrongCashier vTicket.claimedBy pCashierId)
    let uid ← require .ticketNotFound pTicketUid
    insertUser vTicket.discordId
    insertBalance vTicket.discordId
    let vBefore := (← get).balance? (some vTicket.discordId)
    let vAfter ← nullableBigint (vBefore.map fun balance => balance + vTicket.amount)
    updateBalance vTicket.discordId fun row => { row with balance := vAfter.getD 0 }
    updateDeposit uid vTicket (vTicket.confirm env.now)
    let _ ← auditLogInsertWithChain env
      { actorType := .cashier
        actorId := pCashierId
        targetId := some vTicket.discordId
        action := some "deposit_confirmed"
        amount := some vTicket.amount
        balanceBefore := vBefore
        balanceAfter := vAfter
        reason := some ("Deposit confirmed by cashier " ++ formatInt pCashierId ++ " for char " ++
          vTicket.charName ++ " on " ++ vTicket.realm ++ "-" ++ vTicket.region.text)
        refType := some "deposit_ticket"
        refId := pTicketUid
        botName := "dw"
        metadata := .obj [("char", .text vTicket.charName), ("realm", .text vTicket.realm),
          ("region", .text vTicket.region.text), ("faction", .text vTicket.faction.text)] }
    let cashier ← notNull "discord_id" pCashierId
    upsertCashierStats cashier fun stats =>
      { stats with
        depositsCompleted := stats.depositsCompleted + 1
        totalVolumeG := stats.totalVolumeG + vTicket.amount
        lastActiveAt := some env.now }
    return vAfter

def cancelDeposit (env : Env) (pTicketUid : Option String) (pActorId : Option Int)
    (pReason : Option String) : LedgerTx Unit := do
  let vTicket ← require .ticketNotFound ((← get).depositTickets.select pTicketUid)
  raiseIf vTicket.status.Terminal (.ticketAlreadyTerminal vTicket.status)
  let uid ← require .ticketNotFound pTicketUid
  updateDeposit uid vTicket (vTicket.cancel env.now pReason)
  let s ← get
  let vBalance := (s.balance? (some vTicket.discordId)).getD 0
  let _ ← auditLogInsertWithChain env
    { actorType := if IsEq pActorId (some vTicket.discordId) then .user else .cashier
      actorId := pActorId
      targetId := some (s.registeredOr0 (some vTicket.discordId))
      action := some "deposit_cancelled"
      amount := some vTicket.amount
      balanceBefore := some vBalance
      balanceAfter := some vBalance
      reason := some (pReason.getD "cancelled")
      refType := some "deposit_ticket"
      refId := pTicketUid
      botName := "dw"
      metadata := .obj [("char", .text vTicket.charName), ("realm", .text vTicket.realm)] }

/-! ## Withdraws -/

/-- `INSERT INTO dw.withdraw_tickets`. -/
def insertWithdraw (uid : String) (ticket : Ticket) (fee : Int) : LedgerTx Unit := do
  let s ← get
  raiseIf (s.withdrawTickets.any fun _ other => other.id = ticket.id)
    (.uniqueViolation "withdraw_tickets_pkey")
  raiseIf (s.withdrawTickets.get? uid ≠ none) (.uniqueViolation "withdraw_tickets_ticket_uid_key")
  raiseIf (s.withdrawTickets.any fun _ other => other.threadId = ticket.threadId)
    (.uniqueViolation "withdraw_tickets_thread_id_key")
  raiseIf (s.users.get? ticket.discordId = none)
    (.foreignKeyViolation "withdraw_tickets_discord_id_fkey")
  if hfee : 0 ≤ fee then
    set (s.addWithdraw uid { toTicket := ticket, fee := fee, fee_nonneg := hfee })
  else throw (.checkViolation "withdraw_tickets_fee_check")

def createWithdrawTicket (env : Env) (pDiscordId : Option Int)
    (pChar pRealm pRegion pFaction : Option String)
    (pAmount pThreadId pParentChannelId : Option Int) : LedgerTx String := do
  let s ← get
  let vMin ← require (.globalConfigMissing .withdraw) (s.dwInt "min_withdraw_g")
  let vMax ← require (.globalConfigMissing .withdraw) (s.dwInt "max_withdraw_g")
  let vFeeBps ← require (.globalConfigMissing .withdraw) (s.dwInt "withdraw_fee_bps")
  let vTtlS ← require (.globalConfigMissing .withdraw) (s.dwInt "ticket_expiry_open_s")
  raiseIf (IsLt pAmount (some vMin) ∨ IsLt (some vMax) pAmount)
    (.amountOutOfRange pAmount (some vMin) (some vMax))
  raiseIf (IsNotIn pRegion Region.texts) (.invalidRegion pRegion)
  raiseIf (IsNotIn pFaction Faction.texts) (.invalidFaction pFaction)
  let vBanned ← require .userNotRegistered ((s.users.select pDiscordId).map User.banned)
  raiseIf (vBanned = true) .userBanned
  let vBalance := s.balance? pDiscordId
  raiseIf (IsLt vBalance pAmount) (.insufficientBalance vBalance pAmount)
  let vFee := (← nullableBigint (pAmount.map fun amount => amount * vFeeBps)).map fun product =>
    product.tdiv 10000
  let vExpires := env.now + vTtlS * 1000000
  let vUid := "withdraw-" ++ toString (← nextval .withdrawTickets)
  let discordId ← notNull "discord_id" pDiscordId
  let amount ← notNull "balance" pAmount
  updateBalance discordId fun row =>
    { row with
      balance := row.balance - amount, lockedBalance := row.lockedBalance + amount }
  let ticket ← openTicket env "withdraw_tickets" .withdrawTickets pDiscordId pChar pRealm pRegion
    pFaction pAmount pThreadId pParentChannelId vExpires
  let fee ← notNull "fee" vFee
  insertWithdraw vUid ticket fee
  let _ ← auditLogInsertWithChain env
    { actorType := .user
      actorId := pDiscordId
      targetId := pDiscordId
      action := some "withdraw_locked"
      amount := pAmount
      balanceBefore := vBalance
      balanceAfter := vBalance.map fun balance => balance - amount
      reason := some ("Withdraw locked " ++ toString amount ++ " G (fee " ++ toString fee ++
        " G); deliver " ++ toString (amount - fee) ++ " G ingame to " ++ formatText pChar ++
        " on " ++ formatText pRealm ++ "-" ++ formatText pRegion)
      refType := some "withdraw_ticket"
      refId := some vUid
      botName := "dw"
      metadata := .obj [("char", .ofText? pChar), ("realm", .ofText? pRealm),
        ("region", .ofText? pRegion), ("faction", .ofText? pFaction),
        ("fee_bps", .int vFeeBps), ("fee", .int fee)] }
  return vUid

def confirmWithdraw (env : Env) (pTicketUid : Option String) (pCashierId : Option Int) :
    LedgerTx (Option Int) := do
  let s ← get
  let vTicket ← require .ticketNotFound (s.withdrawTickets.select pTicketUid)
  let vBefore := s.balance? (some vTicket.discordId)
  if vTicket.status = .confirmed ∧ IsEq vTicket.claimedBy pCashierId then
    -- idempotent retry
    return vBefore
  else
    raiseIf (vTicket.status ≠ .claimed) (.ticketNotClaimed vTicket.status)
    raiseIf (IsNe vTicket.claimedBy pCashierId) (.wrongCashier vTicket.claimedBy pCashierId)
    let vLocked := s.lockedBalance? (some vTicket.discordId)
    raiseIf (IsLt vLocked (some vTicket.amount))
      (.invariantViolationLockedTooLow vLocked vTicket.amount)
    let uid ← require .ticketNotFound pTicketUid
    updateBalance vTicket.discordId fun row =>
      { row with lockedBalance := row.lockedBalance - vTicket.amount }
    let vTreasuryBefore := (← get).balance? (some 0)
    updateBalance 0 fun row => { row with balance := row.balance + vTicket.fee }
    updateWithdraw uid vTicket
      { vTicket with
        toTicket := vTicket.toTicket.confirm env.now
        amountDelivered := some (vTicket.amount - vTicket.fee) }
    let _ ← auditLogInsertWithChain env
      { actorType := .cashier
        actorId := pCashierId
        targetId := some vTicket.discordId
        action := some "withdraw_confirmed"
        amount := some vTicket.amount
        balanceBefore := vBefore
        balanceAfter := vBefore
        reason := some ("Withdraw confirmed: " ++ toString vTicket.amount ++ " G out, " ++
          toString (vTicket.amount - vTicket.fee) ++ " G delivered ingame, " ++
          toString vTicket.fee ++ " G fee")
        refType := some "withdraw_ticket"
        refId := pTicketUid
        botName := "dw"
        metadata := .obj [("char", .text vTicket.charName), ("realm", .text vTicket.realm),
          ("region", .text vTicket.region.text), ("faction", .text vTicket.faction.text),
          ("fee", .int vTicket.fee), ("amount_delivered", .int (vTicket.amount - vTicket.fee))] }
    let _ ← auditLogInsertWithChain env
      { actorType := .system
        actorId := some 0
        targetId := some 0
        action := some "treasury_fee_credit"
        amount := some vTicket.fee
        balanceBefore := vTreasuryBefore
        balanceAfter := vTreasuryBefore.map fun balance => balance + vTicket.fee
        reason := some "Withdraw fee accrued to treasury"
        refType := some "withdraw_ticket"
        refId := pTicketUid
        botName := "dw"
        metadata := .obj [("source_user", .int vTicket.discordId)] }
    let cashier ← notNull "discord_id" pCashierId
    upsertCashierStats cashier fun stats =>
      { stats with
        withdrawsCompleted := stats.withdrawsCompleted + 1
        totalVolumeG := stats.totalVolumeG + vTicket.amount
        lastActiveAt := some env.now }
    return vBefore

def cancelWithdraw (env : Env) (pTicketUid : Option String) (pActorId : Option Int)
    (pReason : Option String) : LedgerTx (Option Int) := do
  let s ← get
  let vTicket ← require .ticketNotFound (s.withdrawTickets.select pTicketUid)
  raiseIf vTicket.status.Terminal (.ticketAlreadyTerminal vTicket.status)
  let vBefore := s.balance? (some vTicket.discordId)
  let vLocked := s.lockedBalance? (some vTicket.discordId)
  raiseIf (IsLt vLocked (some vTicket.amount))
    (.invariantViolationLockedTooLow vLocked vTicket.amount)
  let uid ← require .ticketNotFound pTicketUid
  -- v_after is NULL, and the UPDATE finds no row, when the owner has no balance
  let vAfter ← nullableBigint (vBefore.map fun balance => balance + vTicket.amount)
  updateBalance vTicket.discordId fun row =>
    { row with
      balance := vAfter.getD 0, lockedBalance := row.lockedBalance - vTicket.amount }
  updateWithdraw uid vTicket { vTicket with toTicket := vTicket.toTicket.cancel env.now pReason }
  let _ ← auditLogInsertWithChain env
    { actorType := if IsEq pActorId (some vTicket.discordId) then .user else .cashier
      actorId := pActorId
      targetId := some vTicket.discordId
      action := some "withdraw_cancelled_refund"
      amount := some vTicket.amount
      balanceBefore := vBefore
      balanceAfter := vAfter
      reason := some (pReason.getD "cancelled")
      refType := some "withdraw_ticket"
      refId := pTicketUid
      botName := "dw"
      metadata := .obj [("refunded", .int vTicket.amount)] }
  -- a cashier-side cancel counts in the claimer's statistics; the owner's does not
  ifDo (IsNe pActorId (some vTicket.discordId) ∧ vTicket.claimedBy ≠ none) <|
    upsertCashierStats (vTicket.claimedBy.getD 0) fun stats =>
      { stats with
        withdrawsCancelled := stats.withdrawsCancelled + 1, lastActiveAt := some env.now }
  return vAfter

/-! ## Claim and release -/

/-- The ticket a type and uid name: any type but `'deposit'`, `NULL` included,
reads `dw.withdraw_tickets`. -/
def Database.ticket? (s : Database) (pTicketType : Option String) (pTicketUid : Option String) :
    Option Ticket :=
  if IsEq pTicketType (some "deposit") then s.depositTickets.select pTicketUid
  else (s.withdrawTickets.select pTicketUid).map WithdrawTicket.toTicket

/-- `UPDATE` of shared columns on the ticket a type and uid name. -/
def updateTicket (pTicketType : Option String) (uid : String) (assign : Ticket → Ticket) :
    LedgerTx Unit := do
  let s ← get
  if IsEq pTicketType (some "deposit") then
    match s.depositTickets.get? uid with
    | none => pure ()
    | some ticket => updateDeposit uid ticket (assign ticket)
  else
    match s.withdrawTickets.get? uid with
    | none => pure ()
    | some ticket => updateWithdraw uid ticket { ticket with toTicket := assign ticket.toTicket }

/-- The cashier has an active character in the region. -/
def Database.servesRegion (s : Database) (cashier : Option Int) (region : Region) : Bool :=
  s.cashierCharacters.any fun key row =>
    cashier = some key.discordId ∧ key.region = region ∧ row.isActive

def claimTicket (env : Env) (pTicketType pTicketUid : Option String) (pCashierId : Option Int) :
    LedgerTx Unit := do
  raiseIf (IsNotIn pTicketType TicketType.texts) .invalidTicketType
  let s ← get
  let vTicket ← require .ticketNotFound (s.ticket? pTicketType pTicketUid)
  raiseIf (vTicket.status ≠ .open) (.alreadyClaimed vTicket.status)
  raiseIf (¬ s.servesRegion pCashierId vTicket.region) (.regionMismatch pCashierId vTicket.region)
  let uid ← require .ticketNotFound pTicketUid
  updateTicket pTicketType uid fun ticket => ticket.claim env.now pCashierId
  let vBalance := (s.balance? (some vTicket.discordId)).getD 0
  let _ ← auditLogInsertWithChain env
    { actorType := .cashier
      actorId := pCashierId
      targetId := some (s.registeredOr0 (some vTicket.discordId))
      action := pTicketType.map fun ticketType => ticketType ++ "_claimed"
      amount := some vTicket.amount
      balanceBefore := some vBalance
      balanceAfter := some vBalance
      reason := some ("Cashier " ++ formatInt pCashierId ++ " claimed " ++
        formatText pTicketType ++ " ticket")
      refType := pTicketType.map fun ticketType => ticketType ++ "_ticket"
      refId := pTicketUid
      botName := "dw"
      metadata := .obj [("region", .text vTicket.region.text)] }

def releaseTicket (env : Env) (pTicketType pTicketUid : Option String) (pActorId : Option Int) :
    LedgerTx Unit := do
  raiseIf (IsNotIn pTicketType TicketType.texts) .invalidTicketType
  let s ← get
  let vTicket ← require .ticketNotFound (s.ticket? pTicketType pTicketUid)
  raiseIf (vTicket.status ≠ .claimed) (.ticketNotClaimed vTicket.status)
  raiseIf (IsNe vTicket.claimedBy pActorId) (.wrongCashier vTicket.claimedBy pActorId)
  let uid ← require .ticketNotFound pTicketUid
  updateTicket pTicketType uid fun ticket => ticket.release env.now
  let vBalance := (s.balance? (some vTicket.discordId)).getD 0
  let _ ← auditLogInsertWithChain env
    { actorType := .cashier
      actorId := pActorId
      targetId := some (s.registeredOr0 (some vTicket.discordId))
      action := pTicketType.map fun ticketType => ticketType ++ "_released"
      amount := some vTicket.amount
      balanceBefore := some vBalance
      balanceAfter := some vBalance
      reason := some ("Cashier " ++ formatInt pActorId ++ " released the ticket")
      refType := pTicketType.map fun ticketType => ticketType ++ "_ticket"
      refId := pTicketUid
      botName := "dw"
      metadata := .obj [] }

end DeathRoll
