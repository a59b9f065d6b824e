import DeathRoll.Interleaved.Deposits
import DeathRoll.Ledger.Lifecycle

/-! # Tickets under concurrency

The functions that create tickets and those that close a withdraw, statement by
statement, next to the deposit flow. Every ticket moves under its row's lock, and
the counters of `dw.cashier_stats` move under theirs: here is what one commit does
to both.
-/

namespace DeathRoll.Interleaved

open Relational Script

/-! ## The functions -/

/-- What the reads of `dw.global_config` return. Its rows are written at any time
and nothing here locks them, so a call comes with what it has read. -/
structure TicketConfig where
  min : Option Int
  max : Option Int
  ticketExpiryOpenS : Option Int
  withdrawFeeBps : Option Int

/-- What the ticket's sequence gives, for its uid and for its id. -/
structure TicketSerials where
  uid : Int
  id : Int

/-- The arguments of `dw.create_deposit_ticket` and `dw.create_withdraw_ticket`. -/
structure TicketParams where
  pDiscordId : Option Int
  pChar : Option String
  pRealm : Option String
  pRegion : Option String
  pFaction : Option String
  pAmount : Option Int
  pThreadId : Option Int
  pParentChannelId : Option Int

def lockUser (discordId : Int) : LedgerScript (Option User) := lock (LedgerKey.user discordId)

/-- A `NOT NULL` text column restricted by `CHECK (column IN (...))`. -/
def checkedText {α : Type} (column : String) (ofText : String → Option α)
    (value : Option String) : LedgerScript α := do
  let text ← notNull column value
  require (.checkViolation column) (ofText text)

/-- The shared columns of a new ticket, with the constraints of its `INSERT`. -/
def openTicket (env : Env) (table : String) (id : Int) (p : TicketParams) (vExpires : Timestamp) :
    LedgerScript Ticket := do
  let discordId ← notNull "discord_id" p.pDiscordId
  let charName ← notNull "char_name" p.pChar
  let realm ← notNull "realm" p.pRealm
  let region ← checkedText "region" Region.ofText p.pRegion
  let faction ← checkedText "faction" Faction.ofText p.pFaction
  let amount ← notNull "amount" p.pAmount
  let threadId ← notNull "thread_id" p.pThreadId
  let parentChannelId ← notNull "parent_channel_id" p.pParentChannelId
  if hamount : 0 < amount then
    return { id, discordId, charName, realm, region, faction, amount, status := .open, threadId,
             parentChannelId, expiresAt := vExpires, lastActivityAt := env.now,
             createdAt := env.now, amount_pos := hamount }
  else .fail (.checkViolation (table ++ "_amount_check"))

/-- `INSERT INTO dw.deposit_tickets`. -/
def insertDeposit (uid : String) (ticket : Ticket) : LedgerScript Unit := do
  addOrRaise (.ticketId .deposit ticket.id) uid (.uniqueViolation "deposit_tickets_pkey")
  addOrRaise (.deposit uid) ticket (.uniqueViolation "deposit_tickets_ticket_uid_key")
  addOrRaise (.ticketThread .deposit ticket.threadId) uid
    (.uniqueViolation "deposit_tickets_thread_id_key")

def createDepositTicket (env : Env) (serials : TicketSerials) (config : TicketConfig)
    (p : TicketParams) : LedgerScript String := do
  let vBanned ← see fun s => p.pDiscordId.bind fun id => (s.rows (.user id)).map User.banned
  -- no row: not banned
  raiseIf (vBanned = some true) .userBanned
  let vMin ← require (.globalConfigMissing .deposit) config.min
  let vMax ← require (.globalConfigMissing .deposit) config.max
  let vTtlS ← require (.globalConfigMissing .deposit) config.ticketExpiryOpenS
  raiseIf (IsLt p.pAmount (some vMin) ∨ IsLt (some vMax) p.pAmount)
    (.amountOutOfRange p.pAmount (some vMin) (some vMax))
  raiseIf (IsNotIn p.pRegion Region.texts) (.invalidRegion p.pRegion)
  raiseIf (IsNotIn p.pFaction Faction.texts) (.invalidFaction p.pFaction)
  let vExpires := env.now + vTtlS * 1000000
  let vUid := "deposit-" ++ toString serials.uid
  let ticket ← openTicket env "deposit_tickets" serials.id p vExpires
  insertDeposit vUid ticket
  let vBalance := (← selectBalance ticket.discordId).getD 0
  let target ← registeredOr0 ticket.discordId
  auditLogInsertWithChain env
    { actorType := .user
      actorId := p.pDiscordId
      targetId := some target
      action := some "deposit_ticket_opened"
      amount := p.pAmount
      balanceBefore := some vBalance
      balanceAfter := some vBalance
      reason := some ("Deposit ticket opened for " ++ formatText p.pChar ++ " on " ++
        formatText p.pRealm ++ "-" ++ formatText p.pRegion)
      refType := some "deposit_ticket"
      refId := some vUid
      botName := "dw"
      metadata := .obj [("char", .ofText? p.pChar), ("realm", .ofText? p.pRealm),
        ("region", .ofText? p.pRegion), ("faction", .ofText? p.pFaction)] }
  return vUid

/-- `INSERT INTO dw.withdraw_tickets`; the user is looked up, since nothing deletes one. -/
def insertWithdraw (uid : String) (ticket : Ticket) (fee : Int) : LedgerScript Unit :=
  if hfee : 0 ≤ fee then do
    addOrRaise (.ticketId .withdraw ticket.id) uid (.uniqueViolation "withdraw_tickets_pkey")
    addOrRaise (.withdraw uid)
      ({ toTicket := ticket, fee := fee, fee_nonneg := hfee } : WithdrawTicket)
      (.uniqueViolation "withdraw_tickets_ticket_uid_key")
    addOrRaise (.ticketThread .withdraw ticket.threadId) uid
      (.uniqueViolation "withdraw_tickets_thread_id_key")
    let user ← see fun s => s.rows (.user ticket.discordId)
    raiseIf (user = none) (.foreignKeyViolation "withdraw_tickets_discord_id_fkey")
  else .fail (.checkViolation "withdraw_tickets_fee_check")

def createWithdrawTicket (env : Env) (serials : TicketSerials) (config : TicketConfig)
    (p : TicketParams) : LedgerScript String := do
  let vMin ← require (.globalConfigMissing .withdraw) config.min
  let vMax ← require (.globalConfigMissing .withdraw) config.max
  let vFeeBps ← require (.globalConfigMissing .withdraw) config.withdrawFeeBps
  let vTtlS ← require (.globalConfigMissing .withdraw) config.ticketExpiryOpenS
  raiseIf (IsLt p.pAmount (some vMin) ∨ IsLt (some vMax) p.pAmount)
    (.amountOutOfRange p.pAmount (some vMin) (some vMax))
  raiseIf (IsNotIn p.pRegion Region.texts) (.invalidRegion p.pRegion)
  raiseIf (IsNotIn p.pFaction Faction.texts) (.invalidFaction p.pFaction)
  let discordId ← require .userNotRegistered p.pDiscordId
  let user ← require .userNotRegistered (← lockUser discordId)
  raiseIf (user.banned = true) .userBanned
  let vBalance := (← lockBalance discordId).map fun row => row.balance
  raiseIf (IsLt vBalance p.pAmount) (.insufficientBalance vBalance p.pAmount)
  let vFee := (← nullableBigint (p.pAmount.map fun amount => amount * vFeeBps)).map fun product =>
    product.tdiv 10000
  let vExpires := env.now + vTtlS * 1000000
  let vUid := "withdraw-" ++ toString serials.uid
  let amount ← notNull "balance" p.pAmount
  updateBalance discordId fun row =>
    { row with
      balance := row.balance - amount, lockedBalance := row.lockedBalance + amount }
  let ticket ← openTicket env "withdraw_tickets" serials.id p vExpires
  let fee ← notNull "fee" vFee
  insertWithdraw vUid ticket fee
  auditLogInsertWithChain env
    { actorType := .user
      actorId := p.pDiscordId
      targetId := p.pDiscordId
      action := some "withdraw_locked"
      amount := p.pAmount
      balanceBefore := vBalance
      balanceAfter := vBalance.map fun balance => balance - amount
      reason := some ("Withdraw locked " ++ toString amount ++ " G (fee " ++ toString fee ++
        " G); deliver " ++ toString (amount - fee) ++ " G ingame to " ++ formatText p.pChar ++
        " on " ++ formatText p.pRealm ++ "-" ++ formatText p.pRegion)
      refType := some "withdraw_ticket"
      refId := some vUid
      botName := "dw"
      metadata := .obj [("char", .ofText? p.pChar), ("realm", .ofText? p.pRealm),
        ("region", .ofText? p.pRegion), ("faction", .ofText? p.pFaction),
        ("fee_bps", .int vFeeBps), ("fee", .int fee)] }
  return vUid

def confirmWithdraw (env : Env) (pTicketUid : Option String) (pCashierId : Option Int) :
    LedgerScript (Option Int) := do
  let vTicket ← require .ticketNotFound (← selectWithdraw pTicketUid)
  if vTicket.status = .confirmed ∧ IsEq vTicket.claimedBy pCashierId then
    -- idempotent retry
    selectBalance vTicket.discordId
  else
    raiseIf (vTicket.status ≠ .claimed) (.ticketNotClaimed vTicket.status)
    raiseIf (IsNe vTicket.claimedBy pCashierId) (.wrongCashier vTicket.claimedBy pCashierId)
    let row ← lockBalance vTicket.discordId
    let vBefore := row.map fun row => row.balance
    let vLocked := row.map fun row => row.lockedBalance
    raiseIf (IsLt vLocked (some vTicket.amount))
      (.invariantViolationLockedTooLow vLocked vTicket.amount)
    let uid ← require .ticketNotFound pTicketUid
    updateBalance vTicket.discordId fun row =>
      { row with lockedBalance := row.lockedBalance - vTicket.amount }
    let vTreasuryBefore := (← lockBalance 0).map fun row => row.balance
    updateBalance 0 fun row => { row with balance := row.balance + vTicket.fee }
    updateWithdraw uid vTicket
      { vTicket with
        toTicket := vTicket.toTicket.confirm env.now
        amountDelivered := some (vTicket.amount - vTicket.fee) }
    auditLogInsertWithChain env
      { actorType := .cashier
        actorId := pCashierId
        targetId := some vTicket.discordId
        action := some "withdraw_confirmed"
        amount := some vTicket.amount
        balanceBefore := vBefore
        balanceAfter := vBefore
        reason := some ("Withdraw confirmed: " ++ toString vTicket.amount ++ " G out, " ++
          toString (vTicket.amount - vTicket.fee) ++ " G delivered ingame, " ++
          toString vTicket.fee ++ " G fee")
        refType := some "withdraw_ticket"
        refId := pTicketUid
        botName := "dw"
        metadata := .obj [("char", .text vTicket.charName), ("realm", .text vTicket.realm),
          ("region", .text vTicket.region.text), ("faction", .text vTicket.faction.text),
          ("fee", .int vTicket.fee), ("amount_delivered", .int (vTicket.amount - vTicket.fee))] }
    auditLogInsertWithChain env
      { actorType := .system
        actorId := some 0
        targetId := some 0
        action := some "treasury_fee_credit"
        amount := some vTicket.fee
        balanceBefore := vTreasuryBefore
        balanceAfter := vTreasuryBefore.map fun balance => balance + vTicket.fee
        reason := some "Withdraw fee accrued to treasury"
        refType := some "withdraw_ticket"
        refId := pTicketUid
        botName := "dw"
        metadata := .obj [("source_user", .int vTicket.discordId)] }
    let cashier ← notNull "discord_id" pCashierId
    upsertCashierStats cashier fun stats =>
      { stats with
        withdrawsCompleted := stats.withdrawsCompleted + 1
        totalVolumeG := stats.totalVolumeG + vTicket.amount
        lastActiveAt := some env.now }
    return vBefore

def cancelWithdraw (env : Env) (pTicketUid : Option String) (pActorId : Option Int)
    (pReason : Option String) : LedgerScript (Option Int) := do
  let vTicket ← require .ticketNotFound (← selectWithdraw pTicketUid)
  raiseIf vTicket.status.Terminal (.ticketAlreadyTerminal vTicket.status)
  let row ← lockBalance vTicket.discordId
  let vBefore := row.map fun row => row.balance
  let vLocked := row.map fun row => row.lockedBalance
  raiseIf (IsLt vLocked (some vTicket.amount))
    (.invariantViolationLockedTooLow vLocked vTicket.amount)
  let uid ← require .ticketNotFound pTicketUid
  -- v_after is NULL, and the UPDATE finds no row, when the owner has no balance
  let vAfter ← nullableBigint (vBefore.map fun balance => balance + vTicket.amount)
  updateBalance vTicket.discordId fun row =>
    { row with
      balance := vAfter.getD 0, lockedBalance := row.lockedBalance - vTicket.amount }
  updateWithdraw uid vTicket { vTicket with toTicket := vTicket.toTicket.cancel env.now pReason }
  auditLogInsertWithChain env
    { actorType := if IsEq pActorId (some vTicket.discordId) then .user else .cashier
      actorId := pActorId
      targetId := some vTicket.discordId
      action := some "withdraw_cancelled_refund"
      amount := some vTicket.amount
      balanceBefore := vBefore
      balanceAfter := vAfter
      reason := some (pReason.getD "cancelled")
      refType := some "withdraw_ticket"
      refId := pTicketUid
      botName := "dw"
      metadata := .obj [("refunded", .int vTicket.amount)] }
  -- a cashier-side cancel counts in the claimer's statistics; the owner's does not
  ifDo (IsNe pActorId (some vTicket.discordId) ∧ vTicket.claimedBy ≠ none) <|
    upsertCashierStats (vTicket.claimedBy.getD 0) fun stats =>
      { stats with
        withdrawsCancelled := stats.withdrawsCancelled + 1, lastActiveAt := some env.now }
  return vAfter

/-- The calls on tickets. -/
inductive TicketCall where
  | createDepositTicket (serials : TicketSerials) (config : TicketConfig) (params : TicketParams)
  | createWithdrawTicket (serials : TicketSerials) (config : TicketConfig) (params : TicketParams)
  | claimTicket (pTicketType pTicketUid : Option String) (pCashierId : Option Int)
  | releaseTicket (pTicketType pTicketUid : Option String) (pActorId : Option Int)
  | confirmDeposit (pTicketUid : Option String) (pCashierId : Option Int)
  | cancelDeposit (pTicketUid : Option String) (pActorId : Option Int) (pReason : Option String)
  | confirmWithdraw (pTicketUid : Option String) (pCashierId : Option Int)
  | cancelWithdraw (pTicketUid : Option String) (pActorId : Option Int) (pReason : Option String)

def ticketBody : Env × TicketCall → LedgerScript Unit
  | (env, .createDepositTicket serials config params) => do
      let _ ← createDepositTicket env serials config params
  | (env, .createWithdrawTicket serials config params) => do
      let _ ← createWithdrawTicket env serials config params
  | (env, .claimTicket pTicketType pTicketUid pCashierId) =>
      claimTicket env pTicketType pTicketUid pCashierId
  | (env, .releaseTicket pTicketType pTicketUid pActorId) =>
      releaseTicket env pTicketType pTicketUid pActorId
  | (env, .confirmDeposit pTicketUid pCashierId) => do
      let _ ← confirmDeposit env pTicketUid pCashierId
  | (env, .cancelDeposit pTicketUid pActorId pReason) =>
      cancelDeposit env pTicketUid pActorId pReason
  | (env, .confirmWithdraw pTicketUid pCashierId) => do
      let _ ← confirmWithdraw env pTicketUid pCashierId
  | (env, .cancelWithdraw pTicketUid pActorId pReason) => do
      let _ ← cancelWithdraw env pTicketUid pActorId pReason

/-! ## What a commit does -/

/-- The ticket of a kind and uid. -/
def ticketAt (rows : LedgerRows) : TicketType × String → Option Ticket
  | (.deposit, uid) => rows (.deposit uid)
  | (.withdraw, uid) => (rows (.withdraw uid)).map WithdrawTicket.toTicket

theorem ticketAt_withdraw {rows : LedgerRows} {uid : String} {ticket : WithdrawTicket}
    (hticket : rows (.withdraw uid) = some ticket) :
    ticketAt rows (.withdraw, uid) = some ticket.toTicket := by
  simp [ticketAt, hticket]

/-- The counters of a cashier, zeros without a row. -/
def statsAt (rows : LedgerRows) (cashier : Int) : CashierStatsRow :=
  ((rows (.cashierStats cashier)).getD CashierStats.zero).toCashierStatsRow

/-- Fee and delivered amount of a withdraw. -/
def payoutAt (rows : LedgerRows) (uid : String) : Option (Int × Option Int) :=
  (rows (.withdraw uid)).map fun ticket => (ticket.fee, ticket.amountDelivered)

/-- A new withdraw has a fee, and nothing is delivered. -/
def openPayout (k : TicketType × String) (fee : Int) (payouts : String → Option (Int × Option Int)) :
    String → Option (Int × Option Int) :=
  match k with
  | (.deposit, _) => payouts
  | (.withdraw, uid) => Function.update payouts uid (some (fee, none))

/-- What a confirmed withdraw delivers is its amount less the fee. -/
def deliverPayout (k : TicketType × String) (amount : Int)
    (payouts : String → Option (Int × Option Int)) : String → Option (Int × Option Int) :=
  match k with
  | (.deposit, _) => payouts
  | (.withdraw, uid) =>
      Function.update payouts uid ((payouts uid).map fun (fee, _) => (fee, some (amount - fee)))

/-- One more completed ticket. -/
def addCompleted (kind : TicketType) (amount : Int) (now : Timestamp) (stats : CashierStatsRow) :
    CashierStatsRow :=
  match kind with
  | .deposit =>
      { stats with
        depositsCompleted := stats.depositsCompleted + 1
        totalVolumeG := stats.totalVolumeG + amount
        lastActiveAt := some now }
  | .withdraw =>
      { stats with
        withdrawsCompleted := stats.withdrawsCompleted + 1
        totalVolumeG := stats.totalVolumeG + amount
        lastActiveAt := some now }

/-- One more cancelled withdraw. -/
def addCancelledWithdraw (now : Timestamp) (stats : CashierStatsRow) : CashierStatsRow :=
  { stats with
    withdrawsCancelled := stats.withdrawsCancelled + 1
    lastActiveAt := some now }

/-- The call as one to the whole ledger, where the serials and the configuration are read. -/
def TicketCall.call : TicketCall → Call
  | .createDepositTicket _ _ p =>
      .createDepositTicket p.pDiscordId p.pChar p.pRealm p.pRegion p.pFaction p.pAmount p.pThreadId
        p.pParentChannelId
  | .createWithdrawTicket _ _ p =>
      .createWithdrawTicket p.pDiscordId p.pChar p.pRealm p.pRegion p.pFaction p.pAmount p.pThreadId
        p.pParentChannelId
  | .claimTicket pTicketType pTicketUid pCashierId => .claimTicket pTicketType pTicketUid pCashierId
  | .releaseTicket pTicketType pTicketUid pActorId => .releaseTicket pTicketType pTicketUid pActorId
  | .confirmDeposit pTicketUid pCashierId => .confirmDeposit pTicketUid pCashierId
  | .cancelDeposit pTicketUid pActorId pReason => .cancelDeposit pTicketUid pActorId pReason
  | .confirmWithdraw pTicketUid pCashierId => .confirmWithdraw pTicketUid pCashierId
  | .cancelWithdraw pTicketUid pActorId pReason => .cancelWithdraw pTicketUid pActorId pReason

/-- The call claims no ticket. -/
def TicketCall.ClaimsNone (call : TicketCall) : Prop :=
  ∀ (kind : TicketType) uid cashier, call.call ≠ kind.claimCall uid cashier

theorem claimsNone_iff {call : TicketCall} :
    call.ClaimsNone ↔ ∀ kind uid cashier,
      call ≠ .claimTicket (some (TicketType.text kind)) (some uid) (some cashier) := by
  refine forall_congr' fun kind => forall₂_congr fun uid cashier => not_congr ?_
  cases call <;> simp [TicketCall.call, claimCall_eq]

/-- The ticket that a call is to cancel, and for whom. -/
def TicketCall.cancels : TicketCall → Option ((TicketType × String) × Option Int)
  | .cancelDeposit (some uid) actor _ => some ((.deposit, uid), actor)
  | .cancelWithdraw (some uid) actor _ => some ((.withdraw, uid), actor)
  | _ => none

variable {known : Set LedgerKey} {rows before after : LedgerRows}

/-- What a call that returns has done to tickets, payouts and counters. -/
inductive TicketWrites (env : Env) (call : TicketCall) (before after : LedgerRows) : Prop
  | same (hcall : call.cancels = none) (htickets : ticketAt after = ticketAt before)
      (hstats : statsAt after = statsAt before) (hpayouts : payoutAt after = payoutAt before)
      (hclaims : call.ClaimsNone)
  | opened {k : TicketType × String} {ticket : Ticket} (hcall : call.cancels = none)
      (hnew : ticketAt before k = none) (hopen : ticket.Fresh)
      (htickets : ticketAt after = Function.update (ticketAt before) k (some ticket))
      (hstats : statsAt after = statsAt before)
      (hpayouts : ∃ fee, payoutAt after = openPayout k fee (payoutAt before))
      (hclaims : call.ClaimsNone)
  | claimed {k : TicketType × String} {ticket : Ticket} {cashier : Int}
      (hcall : call.cancels = none) (hticket : ticketAt before k = some ticket)
      (hstatus : ticket.status = .open)
      (htickets : ticketAt after =
        Function.update (ticketAt before) k (some (ticket.claim env.now (some cashier))))
      (hstats : statsAt after = statsAt before) (hpayouts : payoutAt after = payoutAt before)
      (hclaims : call.call = k.1.claimCall k.2 cashier)
  | released {k : TicketType × String} {ticket : Ticket} (hcall : call.cancels = none)
      (hticket : ticketAt before k = some ticket) (hstatus : ticket.status = .claimed)
      (htickets : ticketAt after =
        Function.update (ticketAt before) k (some (ticket.release env.now)))
      (hstats : statsAt after = statsAt before) (hpayouts : payoutAt after = payoutAt before)
      (hclaims : call.ClaimsNone)
  | confirmed {k : TicketType × String} {ticket : Ticket} {cashier : Int}
      (hcall : call.cancels = none) (hticket : ticketAt before k = some ticket)
      (hstatus : ticket.status = .claimed) (hclaimed : ¬ IsNe ticket.claimedBy (some cashier))
      (htickets : ticketAt after =
        Function.update (ticketAt before) k (some (ticket.confirm env.now)))
      (hstats : statsAt after = Function.update (statsAt before) cashier
        (addCompleted k.1 ticket.amount env.now (statsAt before cashier)))
      (hpayouts : payoutAt after = deliverPayout k ticket.amount (payoutAt before))
      (hconfirms : call.call = k.1.confirmCall k.2 cashier)
  | cancelled {k : TicketType × String} {ticket : Ticket} {actor : Int} {reason : Option String}
      (hcall : call.cancels = some (k, some actor)) (hticket : ticketAt before k = some ticket)
      (hstatus : ¬ ticket.status.Terminal)
      (htickets : ticketAt after =
        Function.update (ticketAt before) k (some (ticket.cancel env.now reason)))
      (hstats : statsAt after =
        match ticket.claimedBy with
        | none => statsAt before
        | some cashier =>
            if k.1 = .withdraw ∧ actor ≠ ticket.discordId then
              Function.update (statsAt before) cashier
                (addCancelledWithdraw env.now (statsAt before cashier))
            else statsAt before)
      (hpayouts : payoutAt after = payoutAt before)

/-! ### Views of an update -/

/-- What the counters are recomputed from, and the counters. -/
def counted (rows : LedgerRows) := (ticketAt rows, payoutAt rows, statsAt rows)

/-- A row that shows in no view. -/
def LedgerKey.Unseen : LedgerKey → Prop
  | .deposit _ | .withdraw _ | .cashierStats _ => False
  | _ => True

/-- The rows behind the views. -/
def seen (rows : LedgerRows) (k : {k : LedgerKey // ¬ k.Unseen}) : Option k.1.Row := rows k

theorem seen_update {r : LedgerKey} (hr : r.Unseen) (row : Option r.Row) :
    seen (Function.update rows r row) = seen rows := by
  funext ⟨k, hk⟩
  refine Function.update_of_ne ?_ _ _
  rintro rfl
  exact hk hr

theorem deposit_of_seen (hseen : seen after = seen before) (uid : String) :
    after (.deposit uid) = before (.deposit uid) :=
  congrFun hseen ⟨.deposit uid, id⟩

theorem withdraw_of_seen (hseen : seen after = seen before) (uid : String) :
    after (.withdraw uid) = before (.withdraw uid) :=
  congrFun hseen ⟨.withdraw uid, id⟩

theorem stats_of_seen (hseen : seen after = seen before) (cashier : Int) :
    after (.cashierStats cashier) = before (.cashierStats cashier) :=
  congrFun hseen ⟨.cashierStats cashier, id⟩

theorem counted_of_seen (hseen : seen after = seen before) : counted after = counted before := by
  refine Prod.ext (funext fun ⟨kind, uid⟩ => ?_)
    (Prod.ext (funext fun uid => ?_) (funext fun cashier => ?_))
  · cases kind with
    | deposit => exact deposit_of_seen hseen uid
    | withdraw => exact congrArg (Option.map WithdrawTicket.toTicket) (withdraw_of_seen hseen uid)
  · change payoutAt after uid = payoutAt before uid
    rw [payoutAt, withdraw_of_seen hseen, payoutAt]
  · change statsAt after cashier = statsAt before cashier
    rw [statsAt, stats_of_seen hseen, statsAt]

theorem counted_eq {tickets : TicketType × String → Option Ticket}
    {payouts : String → Option (Int × Option Int)} {stats : Int → CashierStatsRow} :
    counted rows = (tickets, payouts, stats) ↔
      ticketAt rows = tickets ∧ payoutAt rows = payouts ∧ statsAt rows = stats := by
  simp [counted]

theorem views_of_seen (hseen : seen after = seen before) :
    ticketAt after = ticketAt before ∧ payoutAt after = payoutAt before ∧
      statsAt after = statsAt before :=
  counted_eq.mp (counted_of_seen hseen)

theorem counted_update_deposit (uid : String) (ticket : Ticket) :
    counted (Function.update rows (.deposit uid) (some ticket)) =
      (Function.update (ticketAt rows) (.deposit, uid) (some ticket), payoutAt rows,
        statsAt rows) := by
  refine Prod.ext (funext fun ⟨kind, other⟩ => ?_)
    (Prod.ext (funext fun _ => by simp [counted, payoutAt]) (funext fun _ => by simp [counted, statsAt]))
  cases kind with
  | withdraw => simp [counted, ticketAt]
  | deposit =>
      by_cases hother : other = uid
      · subst hother
        simp [counted, ticketAt]
      · simp [counted, ticketAt, hother]

theorem counted_update_withdraw (uid : String) (ticket : WithdrawTicket) :
    counted (Function.update rows (.withdraw uid) (some ticket)) =
      (Function.update (ticketAt rows) (.withdraw, uid) (some ticket.toTicket),
        Function.update (payoutAt rows) uid (some (ticket.fee, ticket.amountDelivered)),
        statsAt rows) := by
  refine Prod.ext (funext fun ⟨kind, other⟩ => ?_)
    (Prod.ext (funext fun other => ?_) (funext fun _ => by simp [counted, statsAt]))
  · cases kind with
    | deposit => simp [counted, ticketAt]
    | withdraw =>
        by_cases hother : other = uid
        · subst hother
          simp [counted, ticketAt]
        · simp [counted, ticketAt, hother]
  · by_cases hother : other = uid
    · subst hother
      simp [counted, payoutAt]
    · simp [counted, payoutAt, hother]

/-- The payout columns of a withdraw stay. -/
theorem counted_update_shared {uid : String} {held : WithdrawTicket} {ticket : Ticket}
    (hheld : rows (.withdraw uid) = some held) :
    counted (Function.update rows (.withdraw uid) (some { held with toTicket := ticket })) =
      (Function.update (ticketAt rows) (.withdraw, uid) (some ticket), payoutAt rows,
        statsAt rows) := by
  have hpayout : payoutAt rows uid = some (held.fee, held.amountDelivered) := by
    rw [payoutAt, hheld, Option.map_some]
  rw [counted_update_withdraw, ← hpayout, Function.update_eq_self]

theorem counted_update_stats (cashier : Int) (stats : CashierStats) :
    counted (Function.update rows (.cashierStats cashier) (some stats)) =
      (ticketAt rows, payoutAt rows,
        Function.update (statsAt rows) cashier stats.toCashierStatsRow) := by
  refine Prod.ext (funext fun ⟨kind, uid⟩ => ?_)
    (Prod.ext (funext fun _ => by simp [counted, payoutAt]) (funext fun other => ?_))
  · cases kind <;> simp [counted, ticketAt]
  · by_cases hother : other = cashier
    · subst hother
      simp [counted, statsAt]
    · simp [counted, statsAt, hother]

/-! ### Statements -/

theorem updateBalance_keeps (discordId : Int) (assign : BalanceRow → BalanceRow) :
    (updateBalance discordId assign).Keeps ledgerSchema seen := by
  refine keeps_bind (keeps_lock _) fun row => ?_
  cases row with
  | none => exact keeps_pure ()
  | some row =>
      refine keeps_bind (keeps_orThrow _) fun new => ?_
      exact keeps_store rfl (fun _ => trivial) fun _ => seen_update (r := .balance discordId) trivial _

theorem auditLogInsert_keeps (env : Env) (p : AuditParams) :
    (auditLogInsertWithChain env p).Keeps ledgerSchema seen := by
  refine keeps_bind (keeps_orThrow _) fun _ => ?_
  refine keeps_bind (keeps_lock _) fun log => ?_
  refine keeps_bind (keeps_require _ _) fun actorId => ?_
  refine keeps_bind (keeps_require _ _) fun targetId => ?_
  refine keeps_bind (keeps_require _ _) fun action => ?_
  refine keeps_bind (keeps_require _ _) fun balanceBefore => ?_
  refine keeps_bind (keeps_require _ _) fun balanceAfter => ?_
  refine keeps_bind (keeps_require _ _) fun refType => ?_
  refine keeps_bind (keeps_see _) fun target => ?_
  refine keeps_bind (keeps_raiseIf _ _) fun _ => ?_
  exact keeps_store rfl (fun _ => trivial) fun _ => seen_update (r := .auditLog) trivial _

theorem insertUser_keeps (discordId : Int) :
    (insertUser discordId).Keeps ledgerSchema seen :=
  keeps_bind (keeps_add rfl fun _ _ => seen_update (r := .user discordId) trivial _)
    fun _ => keeps_pure ()

theorem insertBalance_keeps (discordId : Int) :
    (insertBalance discordId).Keeps ledgerSchema seen :=
  keeps_bind (keeps_add rfl fun _ _ => seen_update (r := .balance discordId) trivial _)
    fun _ => keeps_pure ()

/-- An audit row that goes in has an actor and an action. -/
theorem post_auditLogInsert_named {Q : Unit → Set LedgerKey → LedgerRows → Prop} (env : Env)
    (p : AuditParams)
    (h : ∀ known' rows' actor action, known ⊆ known' → seen rows' = seen rows →
      p.actorId = some actor → p.action = some action → Q () known' rows') :
    (auditLogInsertWithChain env p).Post ledgerSchema Q known rows := by
  cases hactor : p.actorId with
  | none =>
      simp [auditLogInsertWithChain, post_bind, post_orThrow, post_lockAuditLog,
        post_notNull, hactor]
  | some actor =>
      cases haction : p.action with
      | none =>
          simp [auditLogInsertWithChain, post_bind, post_orThrow, post_lockAuditLog,
            post_notNull, haction]
      | some action =>
          exact post_of_keeps (auditLogInsert_keeps env p) fun _ known' rows' hgrow hsame =>
            h known' rows' actor action hgrow hsame hactor haction

/-- Where the ticket of a kind and uid is. -/
def ticketKey : TicketType × String → LedgerKey
  | (.deposit, uid) => .deposit uid
  | (.withdraw, uid) => .withdraw uid

/-- The kind that a type names: any but `'deposit'`, `NULL` included, is a withdraw. -/
def kindOf (pTicketType : Option String) : TicketType :=
  if IsEq pTicketType (some "deposit") then .deposit else .withdraw

theorem some_text_kindOf {name : String} (htype : ¬ IsNotIn (some name) TicketType.texts) :
    some (kindOf (some name)).text = some name := by
  rw [isNotIn_some, not_not, TicketType.texts, List.mem_pair] at htype
  rcases htype with rfl | rfl
  · simp [kindOf, TicketType.text]
  · simp [kindOf, TicketType.text]

theorem post_selectTicket {Q : Option Ticket → Set LedgerKey → LedgerRows → Prop}
    {pTicketType pTicketUid : Option String} (hnone : Q none known rows)
    (h : ∀ uid ticket known', pTicketUid = some uid → known ⊆ known' →
      ticketKey (kindOf pTicketType, uid) ∈ known' →
      ticketAt rows (kindOf pTicketType, uid) = some ticket → Q (some ticket) known' rows) :
    (selectTicket pTicketType pTicketUid).Post ledgerSchema Q known rows := by
  unfold selectTicket
  unfold kindOf at h
  split
  next htype =>
    rw [if_pos htype] at h
    cases pTicketUid with
    | none => exact hnone
    | some uid =>
        rw [selectDeposit, post_lockDeposit]
        refine ⟨fun _ => hnone, fun ticket hticket known' hgrow hknown' => ?_⟩
        exact h uid ticket known' rfl hgrow hknown' hticket
  next htype =>
    rw [if_neg htype] at h
    rw [post_bind]
    cases pTicketUid with
    | none => exact hnone
    | some uid =>
        rw [selectWithdraw, post_lockWithdraw]
        refine ⟨fun _ => hnone, fun ticket hticket known' hgrow hknown' => ?_⟩
        exact h uid ticket.toTicket known' rfl hgrow hknown' (ticketAt_withdraw hticket)

theorem post_updateTicket {Q : Unit → Set LedgerKey → LedgerRows → Prop}
    {pTicketType : Option String} {uid : String} {ticket : Ticket} {assign : Ticket → Ticket}
    (hknown : ticketKey (kindOf pTicketType, uid) ∈ known)
    (hticket : ticketAt rows (kindOf pTicketType, uid) = some ticket)
    (hkeeps : ∀ ticket, LedgerKey.Keeps (.deposit uid) ticket (assign ticket))
    (h : ∀ known' rows', known ⊆ known' →
      counted rows' = (Function.update (ticketAt rows) (kindOf pTicketType, uid)
        (some (assign ticket)), payoutAt rows, statsAt rows) → Q () known' rows') :
    (updateTicket pTicketType uid assign).Post ledgerSchema Q known rows := by
  by_cases htype : IsEq pTicketType (some "deposit")
  · have hkind : kindOf pTicketType = .deposit := if_pos htype
    rw [hkind] at hknown hticket h
    obtain ⟨_, rfl, htext⟩ := htype
    cases htext
    refine post_updateTicket_deposit hticket hknown (hkeeps ticket) fun known' hgrow => ?_
    exact h known' _ hgrow (counted_update_deposit uid _)
  · have hkind : kindOf pTicketType = .withdraw := if_neg htype
    rw [hkind] at hknown hticket h
    obtain ⟨held, hheld, rfl⟩ := Option.map_eq_some_iff.mp hticket
    refine post_updateTicket_withdraw htype hheld hknown (hkeeps _) fun known' hgrow => ?_
    exact h known' _ hgrow (counted_update_shared hheld)

/-- A new ticket is untouched. -/
theorem post_openTicket {Q : Ticket → Set LedgerKey → LedgerRows → Prop} (env : Env)
    (table : String) (id : Int) (p : TicketParams) (vExpires : Timestamp)
    (h : ∀ ticket, ticket.Fresh → Q ticket known rows) :
    (openTicket env table id p vExpires).Post ledgerSchema Q known rows := by
  simp only [openTicket, checkedText, post_bind, post_notNull, post_require]
  intro discordId _ charName _ realm _ regionText _ region _ factionText _ faction _ amount _
    threadId _ parentChannelId _
  split
  · exact h _ ⟨rfl, rfl, rfl, rfl, rfl⟩
  · trivial

theorem addIndex_keeps {r : LedgerKey} {row : r.Row} (hr : r.Unseen)
    (hrefs : LedgerKey.Refs r row = ∅) (e : DbError) :
    (addOrRaise r row e : LedgerScript Unit).Keeps ledgerSchema seen :=
  keeps_addOrRaise e hrefs fun _ _ => seen_update hr _

/-- A ticket goes in under a uid that is free. -/
theorem post_insertDeposit {Q : Unit → Set LedgerKey → LedgerRows → Prop} (uid : String)
    (ticket : Ticket)
    (h : ∀ known' rows', known ⊆ known' → ticketAt rows (.deposit, uid) = none →
      counted rows' =
        (Function.update (ticketAt rows) (.deposit, uid) (some ticket), payoutAt rows,
          statsAt rows) →
      Q () known' rows') :
    (insertDeposit uid ticket).Post ledgerSchema Q known rows := by
  rw [insertDeposit, post_bind]
  refine post_of_keeps (addIndex_keeps (r := .ticketId .deposit ticket.id) trivial rfl _) ?_
  intro _ known₁ rows₁ hgrow₁ hsame₁
  obtain ⟨htickets₁, hpayouts₁, hstats₁⟩ := views_of_seen hsame₁
  rw [post_bind, post_addOrRaise]
  intro hnew
  refine ⟨Set.empty_subset _, ?_⟩
  refine post_of_keeps
    (addIndex_keeps (r := .ticketThread .deposit ticket.threadId) trivial rfl _) ?_
  intro _ known₂ rows₂ hgrow₂ hsame₂
  refine h known₂ rows₂ (hgrow₁.trans ((Set.subset_insert _ _).trans hgrow₂)) ?_ ?_
  · rw [← htickets₁]
    exact hnew
  · rw [counted_of_seen hsame₂, counted_update_deposit, htickets₁, hpayouts₁, hstats₁]

theorem post_insertWithdraw {Q : Unit → Set LedgerKey → LedgerRows → Prop} (uid : String)
    (ticket : Ticket) (fee : Int)
    (h : ∀ known' rows', known ⊆ known' → ticketAt rows (.withdraw, uid) = none →
      counted rows' =
        (Function.update (ticketAt rows) (.withdraw, uid) (some ticket),
          Function.update (payoutAt rows) uid (some (fee, none)), statsAt rows) →
      Q () known' rows') :
    (insertWithdraw uid ticket fee).Post ledgerSchema Q known rows := by
  unfold insertWithdraw
  split
  next hfee =>
    rw [post_bind]
    refine post_of_keeps (addIndex_keeps (r := .ticketId .withdraw ticket.id) trivial rfl _) ?_
    intro _ known₁ rows₁ hgrow₁ hsame₁
    obtain ⟨htickets₁, hpayouts₁, hstats₁⟩ := views_of_seen hsame₁
    rw [post_bind, post_addOrRaise]
    intro hnew
    refine ⟨Set.empty_subset _, ?_⟩
    rw [post_bind]
    refine post_of_keeps
      (addIndex_keeps (r := .ticketThread .withdraw ticket.threadId) trivial rfl _) ?_
    intro _ known₂ rows₂ hgrow₂ hsame₂
    rw [post_bind]
    refine post_see_of_forall _ fun user known₃ hgrow₃ => ?_
    refine (post_raiseIf _ _).mpr fun _ => ?_
    have hgrow : known ⊆ known₃ :=
      hgrow₁.trans ((Set.subset_insert _ _).trans (hgrow₂.trans hgrow₃))
    refine h known₃ rows₂ hgrow ?_ ?_
    · rw [← htickets₁]
      exact congrArg (Option.map WithdrawTicket.toTicket) hnew
    · rw [counted_of_seen hsame₂, counted_update_withdraw, htickets₁, hpayouts₁, hstats₁]
  next => trivial

/-! ### Functions -/

theorem createDepositTicket_writes (env : Env) (serials : TicketSerials) (config : TicketConfig)
    (p : TicketParams) :
    (createDepositTicket env serials config p).Post ledgerSchema
      (fun _ _ after => TicketWrites env (.createDepositTicket serials config p) rows after)
      known rows := by
  rw [createDepositTicket, post_bind]
  refine post_see_of_forall _ fun banned known₁ _ => ?_
  simp only [post_bind, post_raiseIf, post_require]
  intro _ vMin _ vMax _ vTtlS _ _ _ _
  refine post_openTicket _ _ _ _ _ fun ticket hfresh => ?_
  refine post_insertDeposit _ _ fun known₂ rows₁ _ hnew hsame₁ => ?_
  refine post_see_of_forall _ fun balance known₃ _ => ?_
  refine post_see_of_forall _ fun target known₄ _ => ?_
  refine post_of_keeps (auditLogInsert_keeps _ _) fun _ known₅ rows₂ _ hsame₂ => ?_
  obtain ⟨htickets, hpayouts, hstats⟩ :=
    counted_eq.mp ((counted_of_seen hsame₂).trans hsame₁)
  exact .opened rfl hnew hfresh htickets hstats ⟨0, hpayouts⟩ (by simp [claimsNone_iff])

theorem createWithdrawTicket_writes (env : Env) (serials : TicketSerials) (config : TicketConfig)
    (p : TicketParams) :
    (createWithdrawTicket env serials config p).Post ledgerSchema
      (fun _ _ after => TicketWrites env (.createWithdrawTicket serials config p) rows after)
      known rows := by
  simp only [createWithdrawTicket, post_bind, post_raiseIf, post_require]
  intro vMin _ vMax _ vFeeBps _ vTtlS _ _ _ _ discordId _
  refine post_lock_of_forall _ fun user known₁ _ => ?_
  intro _ _ _
  refine post_lock_of_forall _ fun row known₂ _ => ?_
  intro _
  rw [post_nullableBigint]
  simp only [post_notNull]
  intro _ amount _
  refine post_of_keeps (updateBalance_keeps _ _) fun _ known₃ rows₁ _ hsame₁ => ?_
  refine post_openTicket _ _ _ _ _ fun ticket hfresh fee _ => ?_
  refine post_insertWithdraw _ _ _ fun known₄ rows₂ _ hnew hsame₂ => ?_
  refine post_of_keeps (auditLogInsert_keeps _ _) fun _ known₅ rows₃ _ hsame₃ => ?_
  obtain ⟨htickets₁, hpayouts₁, hstats₁⟩ := views_of_seen hsame₁
  rw [htickets₁] at hnew
  rw [htickets₁, hpayouts₁, hstats₁] at hsame₂
  obtain ⟨htickets, hpayouts, hstats⟩ :=
    counted_eq.mp ((counted_of_seen hsame₃).trans hsame₂)
  exact .opened rfl hnew hfresh htickets hstats ⟨fee, hpayouts⟩ (by simp [claimsNone_iff])

theorem claimTicket_writes (env : Env) (pTicketType pTicketUid : Option String)
    (pCashierId : Option Int) :
    (claimTicket env pTicketType pTicketUid pCashierId).Post ledgerSchema
      (fun _ _ after =>
        TicketWrites env (.claimTicket pTicketType pTicketUid pCashierId) rows after)
      known rows := by
  simp only [claimTicket, post_bind, post_raiseIf, post_require]
  intro htype
  refine post_selectTicket (by simp) fun uid ticket known₁ huid _ hknown₁ hticket => ?_
  subst huid
  rintro _ ⟨⟩ hstatus
  rw [not_ne_iff] at hstatus
  refine post_servesRegion _ _ fun known₂ served hgrow₂ hserved hmatch => ?_
  rintro _ ⟨⟩
  obtain ⟨cashier, rfl⟩ := hserved (Bool.eq_true_of_not_eq_false hmatch)
  refine post_updateTicket (hgrow₂ hknown₁) hticket (fun _ => ⟨rfl, rfl⟩) ?_
  intro known₃ rows₁ _ hsame₁
  refine post_see_of_forall _ fun balance known₄ _ => ?_
  refine post_see_of_forall _ fun target known₅ _ => ?_
  refine post_auditLogInsert_named _ _ fun known₆ rows₂ _ action _ hsame₂ _ haction => ?_
  obtain ⟨name, rfl, -⟩ := Option.map_eq_some_iff.mp haction
  obtain ⟨htickets, hpayouts, hstats⟩ :=
    counted_eq.mp ((counted_of_seen hsame₂).trans hsame₁)
  exact .claimed rfl hticket hstatus htickets hstats hpayouts
    (congrArg (Call.claimTicket · (some uid) (some cashier)) (some_text_kindOf htype).symm)

theorem releaseTicket_writes (env : Env) (pTicketType pTicketUid : Option String)
    (pActorId : Option Int) :
    (releaseTicket env pTicketType pTicketUid pActorId).Post ledgerSchema
      (fun _ _ after =>
        TicketWrites env (.releaseTicket pTicketType pTicketUid pActorId) rows after)
      known rows := by
  simp only [releaseTicket, post_bind, post_raiseIf, post_require]
  intro _
  refine post_selectTicket (by simp) fun uid ticket known₁ huid _ hknown₁ hticket => ?_
  subst huid
  rintro _ ⟨⟩ hstatus _ _ ⟨⟩
  rw [not_ne_iff] at hstatus
  refine post_updateTicket hknown₁ hticket (fun _ => ⟨rfl, rfl⟩) ?_
  intro known₂ rows₁ _ hsame₁
  refine post_see_of_forall _ fun balance known₃ _ => ?_
  refine post_see_of_forall _ fun target known₄ _ => ?_
  refine post_of_keeps (auditLogInsert_keeps _ _) fun _ known₅ rows₂ _ hsame₂ => ?_
  obtain ⟨htickets, hpayouts, hstats⟩ :=
    counted_eq.mp ((counted_of_seen hsame₂).trans hsame₁)
  exact .released rfl hticket hstatus htickets hstats hpayouts (by simp [claimsNone_iff])

/-- A counting step on the statistics of a cashier, at the end of a call. -/
theorem post_countStats {Q : Unit → Set LedgerKey → LedgerRows → Prop} (cashier : Int)
    (count : CashierStatsRow → CashierStatsRow)
    (h : ∀ known' rows', counted rows' = (ticketAt rows, payoutAt rows,
      Function.update (statsAt rows) cashier (count (statsAt rows cashier))) → Q () known' rows') :
    (upsertCashierStats cashier count).Post ledgerSchema Q known rows := by
  refine post_upsertCashierStats _ _ fun known' stats _ hstats => h known' _ ?_
  rw [counted_update_stats, hstats]
  rfl

theorem confirmDeposit_writes (env : Env) (pTicketUid : Option String) (pCashierId : Option Int) :
    (confirmDeposit env pTicketUid pCashierId).Post ledgerSchema
      (fun _ _ after => TicketWrites env (.confirmDeposit pTicketUid pCashierId) rows after)
      known rows := by
  cases pTicketUid with
  | none => simp [confirmDeposit, selectDeposit, post_bind, post_pure, post_require]
  | some uid =>
      simp only [confirmDeposit, selectDeposit, post_bind, post_lockDeposit, post_require, post_ite,
        post_raiseIf, post_nullableBigint, post_notNull, post_pure]
      refine ⟨by simp, ?_⟩
      rintro ticket hticket known₁ _ _ _ ⟨⟩
      constructor
      · intro _
        exact post_see_of_forall _ fun _ _ _ => .same rfl rfl rfl rfl (by simp [claimsNone_iff])
      · rintro _ hstatus hclaimed _ ⟨⟩
        rw [not_ne_iff] at hstatus
        refine post_of_keeps (insertUser_keeps _) fun _ known₂ rows₁ _ hseen₁ => ?_
        refine post_of_keeps (insertBalance_keeps _) fun _ known₃ rows₂ _ hseen₂ => ?_
        refine post_lock_of_forall _ fun row known₄ _ _ => ?_
        refine post_of_keeps (updateBalance_keeps _ _) fun _ known₅ rows₃ _ hseen₃ => ?_
        have hseen := hseen₃.trans (hseen₂.trans hseen₁)
        have hheld : rows₃ (.deposit uid) = some ticket := (deposit_of_seen hseen uid).trans hticket
        have hkeeps : LedgerKey.Keeps (.deposit uid) ticket (ticket.confirm env.now) := ⟨rfl, rfl⟩
        refine post_updateDeposit hheld hkeeps ?_
        refine post_of_keeps (auditLogInsert_keeps _ _) fun _ known₆ rows₄ _ hseen₄ => ?_
        intro cashier hcashier
        subst hcashier
        refine post_countStats _ _ fun known₇ rows₅ hcounted₅ => ?_
        obtain ⟨htickets₃, hpayouts₃, hstats₃⟩ := views_of_seen hseen
        obtain ⟨htickets₄, hpayouts₄, hstats₄⟩ :=
          counted_eq.mp ((counted_of_seen hseen₄).trans (counted_update_deposit uid _))
        rw [htickets₄, hpayouts₄, hstats₄, htickets₃, hpayouts₃, hstats₃] at hcounted₅
        obtain ⟨htickets, hpayouts, hstats⟩ := counted_eq.mp hcounted₅
        exact .confirmed (k := (.deposit, uid)) rfl hticket hstatus hclaimed htickets hstats hpayouts
          rfl

theorem cancelDeposit_writes (env : Env) (pTicketUid : Option String) (pActorId : Option Int)
    (pReason : Option String) :
    (cancelDeposit env pTicketUid pActorId pReason).Post ledgerSchema
      (fun _ _ after => TicketWrites env (.cancelDeposit pTicketUid pActorId pReason) rows after)
      known rows := by
  cases pTicketUid with
  | none => simp [cancelDeposit, selectDeposit, post_bind, post_pure, post_require]
  | some uid =>
      simp only [cancelDeposit, selectDeposit, post_bind, post_lockDeposit, post_require,
        post_raiseIf]
      refine ⟨by simp, ?_⟩
      rintro ticket hticket known₁ _ _ _ ⟨⟩ hstatus _ ⟨⟩
      have hkeeps : LedgerKey.Keeps (.deposit uid) ticket (ticket.cancel env.now pReason) :=
        ⟨rfl, rfl⟩
      refine post_updateDeposit hticket hkeeps ?_
      refine post_see_of_forall _ fun balance known₂ _ => ?_
      refine post_see_of_forall _ fun target known₃ _ => ?_
      refine post_auditLogInsert_named _ _ fun known₄ rows₁ actor _ _ hseen₁ hactor _ => ?_
      obtain rfl : pActorId = some actor := hactor
      obtain ⟨htickets, hpayouts, hstats⟩ :=
        counted_eq.mp ((counted_of_seen hseen₁).trans (counted_update_deposit uid _))
      refine .cancelled rfl hticket hstatus htickets ?_ hpayouts
      rw [hstats]
      cases ticket.claimedBy <;> simp

theorem confirmWithdraw_writes (env : Env) (pTicketUid : Option String) (pCashierId : Option Int) :
    (confirmWithdraw env pTicketUid pCashierId).Post ledgerSchema
      (fun _ _ after => TicketWrites env (.confirmWithdraw pTicketUid pCashierId) rows after)
      known rows := by
  cases pTicketUid with
  | none => simp [confirmWithdraw, selectWithdraw, post_bind, post_pure, post_require]
  | some uid =>
      simp only [confirmWithdraw, selectWithdraw, post_bind, post_lockWithdraw, post_require,
        post_ite, post_raiseIf, post_notNull, post_pure]
      refine ⟨by simp, ?_⟩
      rintro ticket hticket known₁ _ _ _ ⟨⟩
      constructor
      · intro _
        exact post_see_of_forall _ fun _ _ _ => .same rfl rfl rfl rfl (by simp [claimsNone_iff])
      · rintro _ hstatus hclaimed
        rw [not_ne_iff] at hstatus
        refine post_lock_of_forall _ fun row known₂ _ => ?_
        rintro _ _ ⟨⟩
        refine post_of_keeps (updateBalance_keeps _ _) fun _ known₃ rows₁ _ hseen₁ => ?_
        refine post_lock_of_forall _ fun treasury known₄ _ => ?_
        refine post_of_keeps (updateBalance_keeps _ _) fun _ known₅ rows₂ _ hseen₂ => ?_
        have hseen := hseen₂.trans hseen₁
        have hheld : rows₂ (.withdraw uid) = some ticket :=
          (withdraw_of_seen hseen uid).trans hticket
        refine post_updateWithdraw hheld ⟨rfl, rfl, rfl⟩ ?_
        refine post_of_keeps (auditLogInsert_keeps _ _) fun _ known₆ rows₃ _ hseen₃ => ?_
        refine post_of_keeps (auditLogInsert_keeps _ _) fun _ known₇ rows₄ _ hseen₄ => ?_
        intro cashier hcashier
        subst hcashier
        refine post_countStats _ _ fun known₈ rows₅ hcounted₅ => ?_
        obtain ⟨htickets₂, hpayouts₂, hstats₂⟩ := views_of_seen hseen
        obtain ⟨htickets₄, hpayouts₄, hstats₄⟩ := counted_eq.mp
          ((counted_of_seen (hseen₄.trans hseen₃)).trans (counted_update_withdraw uid _))
        rw [htickets₄, hpayouts₄, hstats₄, htickets₂, hpayouts₂, hstats₂] at hcounted₅
        obtain ⟨htickets, hpayouts, hstats⟩ := counted_eq.mp hcounted₅
        refine .confirmed rfl (ticketAt_withdraw hticket) hstatus hclaimed htickets hstats ?_ rfl
        simp [hpayouts, deliverPayout, payoutAt, hticket]

theorem cancelWithdraw_writes (env : Env) (pTicketUid : Option String) (pActorId : Option Int)
    (pReason : Option String) :
    (cancelWithdraw env pTicketUid pActorId pReason).Post ledgerSchema
      (fun _ _ after => TicketWrites env (.cancelWithdraw pTicketUid pActorId pReason) rows after)
      known rows := by
  cases pTicketUid with
  | none => simp [cancelWithdraw, selectWithdraw, post_bind, post_pure, post_require]
  | some uid =>
      simp only [cancelWithdraw, selectWithdraw, post_bind, post_lockWithdraw, post_require,
        post_raiseIf, post_nullableBigint, post_ifDo, post_pure]
      refine ⟨by simp, ?_⟩
      rintro ticket hticket known₁ _ _ _ ⟨⟩ hstatus
      refine post_lock_of_forall _ fun row known₂ _ => ?_
      rintro _ _ ⟨⟩ _
      refine post_of_keeps (updateBalance_keeps _ _) fun _ known₃ rows₁ _ hseen₁ => ?_
      have hheld : rows₁ (.withdraw uid) = some ticket :=
        (withdraw_of_seen hseen₁ uid).trans hticket
      refine post_updateWithdraw hheld ⟨rfl, rfl, rfl⟩ ?_
      refine post_auditLogInsert_named _ _ fun known₄ rows₂ actor _ _ hseen₂ hactor _ => ?_
      obtain rfl : pActorId = some actor := hactor
      obtain ⟨htickets₁, hpayouts₁, hstats₁⟩ := views_of_seen hseen₁
      obtain ⟨htickets₂, hpayouts₂, hstats₂⟩ :=
        counted_eq.mp ((counted_of_seen hseen₂).trans (counted_update_shared hheld))
      rw [htickets₁] at htickets₂
      rw [hpayouts₁] at hpayouts₂
      rw [hstats₁] at hstats₂
      have hat := ticketAt_withdraw hticket
      constructor
      · rintro ⟨hother, hclaimed⟩
        rw [isNe_some] at hother
        obtain ⟨cashier, hcashier⟩ := Option.ne_none_iff_exists'.mp hclaimed
        refine post_countStats _ _ fun known₅ rows₃ hcounted₃ => ?_
        rw [htickets₂, hpayouts₂, hstats₂, hcashier] at hcounted₃
        obtain ⟨htickets, hpayouts, hstats⟩ := counted_eq.mp hcounted₃
        refine .cancelled rfl hat hstatus htickets ?_ hpayouts
        rw [hstats, hcashier]
        simp only [hother, ne_eq, not_false_eq_true, and_self, if_true]
        rfl
      · intro hnone
        rw [not_and_or, isNe_some, not_ne_iff, not_ne_iff] at hnone
        refine .cancelled rfl hat hstatus htickets₂ ?_ hpayouts₂
        rw [hstats₂]
        rcases hnone with rfl | hnone
        · cases ticket.claimedBy <;> simp
        · simp [hnone]

/-- Whatever the interleaving, the commit of a call does to tickets and counters
what the call says. -/
theorem ticketBody_describes {base : LedgerRows} :
    Concurrent.Describes ledgerSchema base
      (fun call before _ after => TicketWrites call.1 call.2 before after) ticketBody where
  post := by
    rintro ⟨env, call⟩ rows -
    cases call <;> simp only [ticketBody, post_bind, post_pure]
    case createDepositTicket => exact createDepositTicket_writes _ _ _ _
    case createWithdrawTicket => exact createWithdrawTicket_writes _ _ _ _
    case claimTicket => exact claimTicket_writes _ _ _ _
    case releaseTicket => exact releaseTicket_writes _ _ _ _
    case confirmDeposit => exact confirmDeposit_writes _ _ _
    case cancelDeposit => exact cancelDeposit_writes _ _ _ _
    case confirmWithdraw => exact confirmWithdraw_writes _ _ _
    case cancelWithdraw => exact cancelWithdraw_writes _ _ _ _

end DeathRoll.Interleaved
