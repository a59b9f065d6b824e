import DeathRoll.Core.Database
import Mathlib.Tactic.Simps.Basic

/-! # Statements shared by the ledger functions

The `INSERT`s and `UPDATE`s that several functions issue, each with the
constraint checks of its table, and the weakest-precondition rule by which
callers use it. `core.audit_log_insert_with_chain` is here as well.
-/

namespace DeathRoll

open Relational Tx

/-! ## Writes

One write to one table each; everything else is unchanged.
-/

namespace Database

variable (s : Database)

@[simps] def addUser (discordId : Int) (row : User) : Database :=
  { s with users := s.users.insertNew discordId row }

@[simps] def setUser (discordId : Int) (row : User) : Database :=
  { s with users := s.users.set discordId row }

@[simps] def addBalance (discordId : Int) (row : Balance) : Database :=
  { s with balances := s.balances.insertNew discordId row }

@[simps] def setBalance (discordId : Int) (row : Balance) : Database :=
  { s with balances := s.balances.set discordId row }

@[simps] def setPeriod (id : Int) (row : RafflePeriod) : Database :=
  { s with rafflePeriods := s.rafflePeriods.set id row }

@[simps] def addDeposit (uid : String) (row : Ticket) : Database :=
  { s with depositTickets := s.depositTickets.insertNew uid row }

@[simps] def setDeposit (uid : String) (row : Ticket) : Database :=
  { s with depositTickets := s.depositTickets.set uid row }

@[simps] def addWithdraw (uid : String) (row : WithdrawTicket) : Database :=
  { s with withdrawTickets := s.withdrawTickets.insertNew uid row }

@[simps] def setWithdraw (uid : String) (row : WithdrawTicket) : Database :=
  { s with withdrawTickets := s.withdrawTickets.set uid row }

@[simps] def addDispute (id : Int) (row : Dispute) : Database :=
  { s with disputes := s.disputes.insertNew id row }

@[simps] def setDispute (id : Int) (row : Dispute) : Database :=
  { s with disputes := s.disputes.set id row }

@[simps] def addBet (id : Int) (row : Bet) : Database :=
  { s with bets := s.bets.insertNew id row }

@[simps] def setBet (id : Int) (row : Bet) : Database :=
  { s with bets := s.bets.set id row }

@[simps] def upsertStats (cashier : Int) (row : CashierStats) : Database :=
  { s with cashierStats := (s.cashierStats.insertNew cashier row).set cashier row }

@[simps] def advance (name : SequenceName) : Database :=
  { s with sequences := Function.update s.sequences name (s.sequences name + 1) }

/-- Append an audit row under the next id. -/
@[simps] def withAudit (env : Env) (key : Bytes) (content : AuditContent) : Database :=
  { s.advance .auditLog with
    audit := s.audit.insertWithChain env key (s.sequences .auditLog + 1) content }

end Database

/-! ## Statements -/

/-- A `NOT NULL` column. -/
def notNull {α : Type} (column : String) (value : Option α) : LedgerTx α :=
  require (.notNullViolation column) value

/-- A `NOT NULL` text column restricted by `CHECK (column IN (...))`. -/
def checkedText {α : Type} (column : String) (ofText : String → Option α)
    (value : Option String) : LedgerTx α := do
  let text ← notNull column value
  require (.checkViolation column) (ofText text)

/-- A 64-bit intermediate result. -/
def bigint (value : Int) : LedgerTx Int :=
  if InBigint value then pure value else throw .bigintOutOfRange

/-- A 64-bit intermediate result that is `NULL` when an operand is. -/
def nullableBigint : Option Int → LedgerTx (Option Int)
  | none => pure none
  | some value => do return some (← bigint value)

/-- `nextval`. -/
def nextval (name : SequenceName) : LedgerTx Int := do
  let s ← get
  set (s.advance name)
  return s.sequences name + 1

/-- `INSERT INTO core.users ... ON CONFLICT (discord_id) DO NOTHING`. -/
def insertUser (discordId : Int) : LedgerTx Unit :=
  modify fun s => s.addUser discordId {}

/-- `INSERT INTO core.balances (discord_id, balance) VALUES (_, 0) ON CONFLICT DO NOTHING`;
the callers have just inserted the referenced user. -/
def insertBalance (discordId : Int) : LedgerTx Unit :=
  modify fun s => s.addBalance discordId .zero

/-- `UPDATE core.balances SET ... WHERE discord_id = _`; no row is no error. -/
def updateBalance (discordId : Int) (assign : BalanceRow → BalanceRow) : LedgerTx Unit := do
  match (← get).balances.get? discordId with
  | none => pure ()
  | some row =>
      match Balance.check (assign row.toBalanceRow) with
      | .error e => throw e
      | .ok row => modify fun s => s.setBalance discordId row

/-- `UPDATE luck.raffle_periods SET pool_amount = pool_amount + _ WHERE id = _`. -/
def addToPool (period amount : Int) : LedgerTx Unit := do
  match (← get).rafflePeriods.get? period with
  | none => pure ()
  | some row =>
      if hrange : InBigint (row.poolAmount + amount) then
        if hnonneg : 0 ≤ row.poolAmount + amount then
          modify fun s =>
            s.setPeriod period ⟨row.poolAmount + amount, row.status, hrange, hnonneg⟩
        else throw (.checkViolation "raffle_periods_pool_amount_check")
      else throw .bigintOutOfRange

/-- `dw.ticket_terminal_status_immutable`, the trigger before every ticket update. -/
def ticketTerminalStatusImmutable (table : String) (old new : TicketStatus) : LedgerTx Unit :=
  raiseIf (old.Terminal ∧ old ≠ new) (.cannotTransition table old new)

/-- `UPDATE dw.deposit_tickets SET ...` on the selected ticket. -/
def updateDeposit (uid : String) (old new : Ticket) : LedgerTx Unit := do
  ticketTerminalStatusImmutable "deposit_tickets" old.status new.status
  modify fun s => s.setDeposit uid new

/-- `UPDATE dw.withdraw_tickets SET ...` on the selected ticket. -/
def updateWithdraw (uid : String) (old new : WithdrawTicket) : LedgerTx Unit := do
  ticketTerminalStatusImmutable "withdraw_tickets" old.status new.status
  modify fun s => s.setWithdraw uid new

/-- `INSERT INTO dw.cashier_stats ... ON CONFLICT (discord_id) DO UPDATE SET ...`:
a missing row is inserted with the counters that the update adds to zero. -/
def upsertCashierStats (cashier : Int) (add : CashierStatsRow → CashierStatsRow) :
    LedgerTx Unit := do
  let row := add (((← get).cashierStats.get? cashier).getD .zero).toCashierStatsRow
  if hrange : InBigint row.totalVolumeG then
    modify fun s => s.upsertStats cashier ⟨row, hrange⟩
  else throw .bigintOutOfRange

/-! ## The audit row -/

/-- The parameters of `core.audit_log_insert_with_chain`. -/
structure AuditParams where
  actorType : ActorType
  actorId : Option Int
  targetId : Option Int
  action : Option String
  amount : Option Int
  balanceBefore : Option Int
  balanceAfter : Option Int
  reason : Option String
  refType : Option String
  refId : Option String
  botName : String
  metadata : Json

/-- `core.audit_log_insert_with_chain`. The row's `NOT NULL` columns and its
reference to `core.users` are checked by the `INSERT`. -/
def auditLogInsertWithChain (env : Env) (p : AuditParams) : LedgerTx Int := do
  let vChainKey ← orThrow env.chainKey
  let vNewId ← nextval .auditLog
  let actorId ← notNull "actor_id" p.actorId
  let targetId ← notNull "target_id" p.targetId
  let action ← notNull "action" p.action
  let balanceBefore ← notNull "balance_before" p.balanceBefore
  let balanceAfter ← notNull "balance_after" p.balanceAfter
  let refType ← notNull "ref_type" p.refType
  let s ← get
  raiseIf (s.users.get? targetId = none) (.foreignKeyViolation "audit_log_target_id_fkey")
  let content : AuditContent :=
    { ts := env.now, actorType := p.actorType, actorId, targetId, action, amount := p.amount,
      balanceBefore, balanceAfter, reason := p.reason, refType, refId := p.refId,
      botName := p.botName, metadata := p.metadata }
  set { s with audit := s.audit.insertWithChain env vChainKey vNewId content }
  return vNewId

/-! ## Rules -/

variable {s : Database} {raised : DbError → Prop}

theorem wp_notNull {α : Type} {post : α → Database → Prop} (column : String) (value : Option α) :
    wp (notNull column value) post raised s ↔
      (value = none → raised (.notNullViolation column)) ∧ ∀ a, value = some a → post a s :=
  wp_require _ _

theorem wp_checkedText {α : Type} {post : α → Database → Prop} (column : String)
    (ofText : String → Option α) (value : Option String) :
    wp (checkedText column ofText value) post raised s ↔
      (value = none → raised (.notNullViolation column)) ∧
        ∀ text, value = some text → (ofText text = none → raised (.checkViolation column)) ∧
          ∀ a, ofText text = some a → post a s := by
  simp only [checkedText, wp_bind, wp_notNull, wp_require]

theorem wp_bigint {post : Int → Database → Prop} (value : Int) :
    wp (bigint value) post raised s ↔
      (InBigint value → post value s) ∧ (¬ InBigint value → raised .bigintOutOfRange) := by
  simp only [bigint, wp_ite, wp_pure, wp_throw]

theorem wp_nullableBigint {post : Option Int → Database → Prop} (value : Option Int) :
    wp (nullableBigint value) post raised s ↔
      (∀ x, value = some x → ¬ InBigint x → raised .bigintOutOfRange) ∧
        ((∀ x, value = some x → InBigint x) → post value s) := by
  cases value with
  | none => simp [nullableBigint, wp_pure]
  | some x =>
      simp only [nullableBigint, wp_bind, wp_bigint, wp_pure, Option.some.injEq, forall_eq']
      exact and_comm

theorem wp_nextval {post : Int → Database → Prop} (name : SequenceName) :
    wp (nextval name) post raised s ↔
      post (s.sequences name + 1) (s.advance name) := Iff.rfl

theorem wp_insertUser {post : Unit → Database → Prop} (discordId : Int) :
    wp (insertUser discordId) post raised s ↔
      post () (s.addUser discordId {}) := Iff.rfl

theorem wp_insertBalance {post : Unit → Database → Prop} (discordId : Int) :
    wp (insertBalance discordId) post raised s ↔
      post () (s.addBalance discordId .zero) := Iff.rfl

theorem wp_updateBalance {post : Unit → Database → Prop} (discordId : Int)
    (assign : BalanceRow → BalanceRow) :
    wp (updateBalance discordId assign) post raised s ↔
      (s.balances.get? discordId = none → post () s) ∧
        ∀ row, s.balances.get? discordId = some row →
          (∀ e, Balance.check (assign row.toBalanceRow) = .error e → raised e) ∧
            ∀ new : Balance, new.toBalanceRow = assign row.toBalanceRow →
              post () (s.setBalance discordId new) := by
  simp only [updateBalance, wp_bind, wp_get]
  cases hrow : s.balances.get? discordId with
  | none => simp [wp_pure]
  | some row =>
      simp only [reduceCtorEq, false_implies, Option.some.injEq, forall_eq', true_and]
      cases hcheck : Balance.check (assign row.toBalanceRow) with
      | error e =>
          have hnone : ∀ new : Balance, new.toBalanceRow ≠ assign row.toBalanceRow := by
            intro new heq
            rw [Balance.check_eq_ok.mpr heq] at hcheck
            cases hcheck
          simp [wp_throw, hnone]
      | ok new =>
          have hnew := Balance.check_eq_ok.mp hcheck
          have hiff : ∀ other : Balance, other.toBalanceRow = assign row.toBalanceRow ↔
              other = new := by
            intro other
            exact ⟨fun heq => Balance.ext_row (heq.trans hnew.symm), fun heq => heq ▸ hnew⟩
          simp [wp_modify, hiff]

theorem wp_addToPool {post : Unit → Database → Prop} (period amount : Int) :
    wp (addToPool period amount) post raised s ↔
      (s.rafflePeriods.get? period = none → post () s) ∧
        ∀ row, s.rafflePeriods.get? period = some row →
          (¬ InBigint (row.poolAmount + amount) → raised .bigintOutOfRange) ∧
          (InBigint (row.poolAmount + amount) → ¬ 0 ≤ row.poolAmount + amount →
            raised (.checkViolation "raffle_periods_pool_amount_check")) ∧
          ∀ new : RafflePeriod, new.poolAmount = row.poolAmount + amount →
            new.status = row.status →
            post () (s.setPeriod period new) := by
  simp only [addToPool, wp_bind, wp_get]
  cases hrow : s.rafflePeriods.get? period with
  | none => simp [wp_pure]
  | some row =>
      simp only [reduceCtorEq, false_implies, Option.some.injEq, forall_eq', true_and, wp_dite,
        wp_modify, wp_throw]
      constructor
      · rintro ⟨hin, hout⟩
        refine ⟨hout, fun hrange hneg => (hin hrange).2 hneg, ?_⟩
        rintro ⟨pool, status, hrange, hnonneg⟩ rfl rfl
        exact (hin hrange).1 hnonneg
      · rintro ⟨hout, hneg, hok⟩
        exact ⟨fun hrange => ⟨fun hnonneg => hok ⟨_, _, hrange, hnonneg⟩ rfl rfl, hneg hrange⟩,
          hout⟩

theorem wp_ticketTerminalStatusImmutable {post : Unit → Database → Prop} (table : String)
    (old new : TicketStatus) :
    wp (ticketTerminalStatusImmutable table old new) post raised s ↔
      (old.Terminal ∧ old ≠ new → raised (.cannotTransition table old new)) ∧
        (¬ (old.Terminal ∧ old ≠ new) → post () s) := by
  simp only [ticketTerminalStatusImmutable, wp_raiseIf]

theorem wp_updateDeposit {post : Unit → Database → Prop} (uid : String) (old new : Ticket) :
    wp (updateDeposit uid old new) post raised s ↔
      (old.status.Terminal ∧ old.status ≠ new.status →
        raised (.cannotTransition "deposit_tickets" old.status new.status)) ∧
        (¬ (old.status.Terminal ∧ old.status ≠ new.status) →
          post () (s.setDeposit uid new)) := by
  simp only [updateDeposit, wp_bind, wp_ticketTerminalStatusImmutable, wp_modify]

theorem wp_updateWithdraw {post : Unit → Database → Prop} (uid : String)
    (old new : WithdrawTicket) :
    wp (updateWithdraw uid old new) post raised s ↔
      (old.status.Terminal ∧ old.status ≠ new.status →
        raised (.cannotTransition "withdraw_tickets" old.status new.status)) ∧
        (¬ (old.status.Terminal ∧ old.status ≠ new.status) →
          post () (s.setWithdraw uid new)) := by
  simp only [updateWithdraw, wp_bind, wp_ticketTerminalStatusImmutable, wp_modify]

theorem wp_upsertCashierStats {post : Unit → Database → Prop} (cashier : Int)
    (add : CashierStatsRow → CashierStatsRow) :
    wp (upsertCashierStats cashier add) post raised s ↔
      (∀ new : CashierStats,
        new.toCashierStatsRow = add ((s.cashierStats.get? cashier).getD .zero).toCashierStatsRow →
          post () (s.upsertStats cashier new)) ∧
        (¬ InBigint (add ((s.cashierStats.get? cashier).getD .zero).toCashierStatsRow).totalVolumeG →
          raised .bigintOutOfRange) := by
  simp only [upsertCashierStats, wp_bind, wp_get, wp_dite, wp_modify, wp_throw]
  refine and_congr_left' ⟨?_, fun hnew hrange => hnew ⟨_, hrange⟩ rfl⟩
  rintro hpost ⟨row, hrange⟩ rfl
  exact hpost hrange

/-- An audit row that goes in has every required column and an existing target. -/
theorem wp_auditLogInsertWithChain {post : Int → Database → Prop} (env : Env) (p : AuditParams) :
    wp (auditLogInsertWithChain env p) post raised s ↔
      (∀ e, env.chainKey = .error e → raised e) ∧ ∀ key, env.chainKey = .ok key →
      (p.actorId = none → raised (.notNullViolation "actor_id")) ∧
        ∀ actorId, p.actorId = some actorId →
      (p.targetId = none → raised (.notNullViolation "target_id")) ∧
        ∀ targetId, p.targetId = some targetId →
      (p.action = none → raised (.notNullViolation "action")) ∧
        ∀ action, p.action = some action →
      (p.balanceBefore = none → raised (.notNullViolation "balance_before")) ∧
        ∀ balanceBefore, p.balanceBefore = some balanceBefore →
      (p.balanceAfter = none → raised (.notNullViolation "balance_after")) ∧
        ∀ balanceAfter, p.balanceAfter = some balanceAfter →
      (p.refType = none → raised (.notNullViolation "ref_type")) ∧
        ∀ refType, p.refType = some refType →
      (s.users.get? targetId = none → raised (.foreignKeyViolation "audit_log_target_id_fkey")) ∧
        (¬ s.users.get? targetId = none →
          post (s.sequences .auditLog + 1)
            (s.withAudit env key
              { ts := env.now, actorType := p.actorType, actorId, targetId, action,
                amount := p.amount, balanceBefore, balanceAfter, reason := p.reason, refType,
                refId := p.refId, botName := p.botName, metadata := p.metadata })) := by
  simp only [auditLogInsertWithChain, wp_bind, wp_orThrow, wp_nextval, wp_notNull, wp_get,
    wp_raiseIf, wp_set, wp_pure, Database.advance_users]
  rfl

end DeathRoll
