import DeathRoll.Core.Statements
import DeathRoll.Relational.ReadCommitted

/-! # Rows and statements under concurrency

The rows that the ledger functions lock, one key each, and the `INSERT`s and
`UPDATE`s that several functions issue, as scripts. A unique index is a table of
its own, from the indexed columns to the row's key. The audit log is appended to
under the lock of `core.audit_chain_state`, so it is one row here; ids and hashes
of its rows are left out. The `FOR KEY SHARE` lock of a foreign key check makes
others wait but shows nothing, so the check is a plain look.
-/

namespace DeathRoll.Interleaved

open Relational Script

/-- The `dw.cashier_status` row of a cashier, with the cashier's rows of
`dw.cashier_sessions`: the two functions that write those hold the status row. -/
structure CashierRow where
  status : CashierStatus
  sessions : List CashierSession
deriving DecidableEq

inductive LedgerKey where
  | user (discordId : Int)
  | balance (discordId : Int)
  | auditLog
  | deposit (uid : String)
  | withdraw (uid : String)
  /-- The primary key of the ticket tables, next to the `ticket_uid` of the row. -/
  | ticketId (ticketType : TicketType) (id : Int)
  /-- The unique index on `thread_id` of the ticket tables. -/
  | ticketThread (ticketType : TicketType) (threadId : Int)
  | dispute (id : Int)
  /-- The unique index on `dw.disputes (ticket_type, ticket_uid)`. -/
  | disputeOf (ticketType : TicketType) (ticketUid : String)
  | cashierCharacter (key : CharacterKey)
  | cashierStatus (discordId : Int)
  | cashierStats (discordId : Int)
  | bet (id : Int)
  /-- The unique index on `luck.bets (bet_uid)`. -/
  | betUid (betUid : String)
  /-- The unique index on `luck.bets (discord_id, idempotency_key)`. -/
  | betKey (discordId : Int) (idempotencyKey : String)
  | rafflePeriod (id : Int)
  | raffleTicket (id : Int)
  /-- The `UNIQUE` key of `luck.rate_limit_entries`, whose rows are counts. -/
  | rateLimitEntry (key : RateLimitKey)
deriving DecidableEq

namespace LedgerKey

abbrev Row : LedgerKey → Type
  | .user _ => User
  | .balance _ => Balance
  | .auditLog => List AuditContent
  | .deposit _ => Ticket
  | .withdraw _ => WithdrawTicket
  | .ticketId _ _ => String
  | .ticketThread _ _ => String
  | .dispute _ => Dispute
  | .disputeOf _ _ => Int
  | .cashierCharacter _ => CashierCharacter
  | .cashierStatus _ => CashierRow
  | .cashierStats _ => CashierStats
  | .bet _ => Bet
  | .betUid _ => Int
  | .betKey _ _ => Int
  | .rafflePeriod _ => RafflePeriod
  | .raffleTicket _ => RaffleTicket
  | .rateLimitEntry _ => Int

/-- What every statement keeps of a row: the columns that no function assigns. -/
def Keeps : (r : LedgerKey) → r.Row → r.Row → Prop
  | .deposit _, old, new => old.discordId = new.discordId ∧ old.amount = new.amount
  | .withdraw _, old, new =>
      old.discordId = new.discordId ∧ old.amount = new.amount ∧ old.fee = new.fee
  | .dispute _, old, new => old.ticketType = new.ticketType ∧ old.ticketUid = new.ticketUid
  | .ticketId _ _, old, new => old = new
  | .ticketThread _ _, old, new => old = new
  | .disputeOf _ _, old, new => old = new
  | .betUid _, old, new => old = new
  | .betKey _ _, old, new => old = new
  | _, _, _ => True

/-- The rows that a row refers to: a bet its user, the account that the stake came
from and the raffle period. -/
def Refs : (r : LedgerKey) → r.Row → Set LedgerKey
  | .bet _, row => {k | k = .user row.discordId ∨ k = .balance row.discordId ∨
      ∃ period, row.rakePeriodId = some period ∧ k = .rafflePeriod period}
  | _, _ => ∅

theorem refs_eq_empty {r : LedgerKey} (hr : ∀ id, r ≠ .bet id) (row : r.Row) : r.Refs row = ∅ := by
  cases r with
  | bet id => exact (hr id rfl).elim
  | _ => rfl

theorem keeps_refl (r : LedgerKey) (row : r.Row) : r.Keeps row row := by
  cases r <;> simp [Keeps]

theorem keeps_trans (r : LedgerKey) (a b c : r.Row) (hab : r.Keeps a b) (hbc : r.Keeps b c) :
    r.Keeps a c := by
  cases r <;> simp_all [Keeps]

end LedgerKey

def ledgerSchema : Schema LedgerKey.Row where
  keeps := LedgerKey.Keeps
  refs := LedgerKey.Refs
  refl := LedgerKey.keeps_refl
  trans := LedgerKey.keeps_trans

abbrev LedgerRows := Rows LedgerKey.Row

/-- A database as the migrations leave it, with any rows added since: the audit log
has its row in `core.audit_chain_state`. -/
structure Migrated (keys : List LedgerKey) (rows : LedgerRows) : Prop
    extends Concurrent.Consistent ledgerSchema keys rows where
  auditLog : .auditLog ∈ present rows

/-- A balance to start from. -/
def startBalance : Balance :=
  ⟨{ balance := 9000 }, by decide, by decide, by decide, by decide, by decide⟩

/-- The rows of a list. -/
def rowsOf (entries : List ((r : LedgerKey) × r.Row)) : LedgerRows := fun r =>
  entries.findSome? fun entry => if h : entry.1 = r then some (h ▸ entry.2) else none

theorem rowsOf_ne_none {entries : List ((r : LedgerKey) × r.Row)} {r : LedgerKey}
    (hr : rowsOf entries r ≠ none) : r ∈ entries.map Sigma.fst := by
  obtain ⟨row, hrow⟩ := Option.ne_none_iff_exists'.mp hr
  obtain ⟨entry, hentry, hrow⟩ := List.exists_of_findSome?_eq_some hrow
  rw [List.mem_map]
  refine ⟨entry, hentry, ?_⟩
  by_contra hne
  rw [dif_neg hne] at hrow
  cases hrow

/-- A list without bets has no foreign keys to check. -/
theorem migrated_rowsOf (entries : List ((r : LedgerKey) × r.Row))
    (hlog : .auditLog ∈ present (rowsOf entries))
    (hbets : ∀ entry ∈ entries, ∀ id, entry.1 ≠ .bet id) :
    Migrated (entries.map Sigma.fst) (rowsOf entries) where
  keys := fun _ => rowsOf_ne_none
  closed := by
    intro r row hrow
    have hmem := rowsOf_ne_none (by rw [hrow]; exact Option.some_ne_none row)
    obtain ⟨entry, hentry, hkey⟩ := List.mem_map.mp hmem
    have hrefs : ledgerSchema.refs r row = ∅ :=
      LedgerKey.refs_eq_empty (fun id hbet => hbets entry hentry id (hkey.trans hbet)) row
    rw [hrefs]
    exact fun k hk => hk.elim
  auditLog := hlog

/-- The body of a ledger function, statement by statement. -/
abbrev LedgerScript (α : Type) := Script LedgerKey.Row DbError α

/-! ## Statements -/

/-! `SELECT ... FOR UPDATE`, or the search of an `UPDATE`, on one table each. -/

def lockBalance (discordId : Int) : LedgerScript (Option Balance) :=
  lock (LedgerKey.balance discordId)

def lockAuditLog : LedgerScript (Option (List AuditContent)) := lock LedgerKey.auditLog

def lockDeposit (uid : String) : LedgerScript (Option Ticket) :=
  lock (LedgerKey.deposit uid)

def lockWithdraw (uid : String) : LedgerScript (Option WithdrawTicket) :=
  lock (LedgerKey.withdraw uid)

def lockStats (cashier : Int) : LedgerScript (Option CashierStats) :=
  lock (LedgerKey.cashierStats cashier)

/-- A `NOT NULL` column. -/
def notNull {α : Type} (column : String) (value : Option α) : LedgerScript α :=
  require (.notNullViolation column) value

/-- A 64-bit intermediate result that is `NULL` when an operand is. -/
def nullableBigint : Option Int → LedgerScript (Option Int)
  | none => pure none
  | some value => if InBigint value then pure (some value) else .fail .bigintOutOfRange

/-- `SELECT balance FROM core.balances WHERE discord_id = _`. -/
def selectBalance (discordId : Int) : LedgerScript (Option Int) :=
  see fun s => (s.rows (.balance discordId)).map fun row => row.balance

/-- `COALESCE((SELECT discord_id FROM core.users WHERE discord_id = _), 0)`. -/
def registeredOr0 (discordId : Int) : LedgerScript Int :=
  see fun s => if (s.rows (.user discordId)).isSome then discordId else 0

/-- `INSERT INTO core.users ... ON CONFLICT (discord_id) DO NOTHING`. -/
def insertUser (discordId : Int) : LedgerScript Unit := do
  let _ ← add (.user discordId) ({} : User)

/-- `INSERT INTO core.balances (discord_id, balance) VALUES (_, 0) ON CONFLICT DO NOTHING`. -/
def insertBalance (discordId : Int) : LedgerScript Unit := do
  let _ ← add (.balance discordId) Balance.zero

/-- `UPDATE core.balances SET ... WHERE discord_id = _`; no row is no error. -/
def updateBalance (discordId : Int) (assign : BalanceRow → BalanceRow) : LedgerScript Unit := do
  match ← lockBalance discordId with
  | none => pure ()
  | some row =>
      let new ← orThrow (Balance.check (assign row.toBalanceRow))
      store (.balance discordId) new

/-- A `dw.cashier_stats` row to be stored. -/
def checkStats (row : CashierStatsRow) : Except DbError CashierStats :=
  if hrange : InBigint row.totalVolumeG then .ok ⟨row, hrange⟩ else .error .bigintOutOfRange

/-- `INSERT INTO dw.cashier_stats ... ON CONFLICT (discord_id) DO UPDATE SET ...`:
what is inserted is what the update adds to zero. -/
def upsertCashierStats (cashier : Int) (count : CashierStatsRow → CashierStatsRow) :
    LedgerScript Unit := do
  let fresh ← orThrow (checkStats (count {}))
  let added ← add (.cashierStats cashier) fresh
  ifDo (added = false) do
    match ← lockStats cashier with
    | none => pure ()
    | some row =>
        let new ← orThrow (checkStats (count row.toCashierStatsRow))
        store (.cashierStats cashier) new

/-- `dw.ticket_terminal_status_immutable`, the trigger before every ticket update. -/
def ticketTerminalStatusImmutable (table : String) (old new : TicketStatus) : LedgerScript Unit :=
  raiseIf (old.Terminal ∧ old ≠ new) (.cannotTransition table old new)

/-- `UPDATE dw.deposit_tickets SET ...` on the ticket that is held. -/
def updateDeposit (uid : String) (old new : Ticket) : LedgerScript Unit := do
  ticketTerminalStatusImmutable "deposit_tickets" old.status new.status
  store (.deposit uid) new

/-- `UPDATE dw.withdraw_tickets SET ...` on the ticket that is held. -/
def updateWithdraw (uid : String) (old new : WithdrawTicket) : LedgerScript Unit := do
  ticketTerminalStatusImmutable "withdraw_tickets" old.status new.status
  store (.withdraw uid) new

/-- `core.audit_log_insert_with_chain`, whose row of `core.audit_chain_state` is
there from the migration on. -/
def auditLogInsertWithChain (env : Env) (p : AuditParams) : LedgerScript Unit := do
  let _ ← orThrow env.chainKey
  let log ← lockAuditLog
  let actorId ← notNull "actor_id" p.actorId
  let targetId ← notNull "target_id" p.targetId
  let action ← notNull "action" p.action
  let balanceBefore ← notNull "balance_before" p.balanceBefore
  let balanceAfter ← notNull "balance_after" p.balanceAfter
  let refType ← notNull "ref_type" p.refType
  let target ← see fun s => s.rows (.user targetId)
  raiseIf (target = none) (.foreignKeyViolation "audit_log_target_id_fkey")
  let content : AuditContent :=
    { ts := env.now, actorType := p.actorType, actorId, targetId, action, amount := p.amount,
      balanceBefore, balanceAfter, reason := p.reason, refType, refId := p.refId,
      botName := p.botName, metadata := p.metadata }
  store .auditLog (log.getD [] ++ [content])

/-! ## Rules -/

/-- `core.audit_log`. -/
def auditLog (rows : LedgerRows) : List AuditContent := (rows .auditLog).getD []

def balanceOf (discordId : Int) (rows : LedgerRows) : Int :=
  ((rows (.balance discordId)).map fun row => row.balance).getD 0

/-- The row that a call with these parameters inserts, when every required column
has a value. -/
def auditContent (env : Env) (p : AuditParams) : Option AuditContent := do
  let actorId ← p.actorId
  let targetId ← p.targetId
  let action ← p.action
  let balanceBefore ← p.balanceBefore
  let balanceAfter ← p.balanceAfter
  let refType ← p.refType
  return { ts := env.now, actorType := p.actorType, actorId, targetId, action, amount := p.amount,
           balanceBefore, balanceAfter, reason := p.reason, refType, refId := p.refId,
           botName := p.botName, metadata := p.metadata }

variable {known : Set LedgerKey} {rows : LedgerRows}

theorem update_ne_none {r : LedgerKey} (other : LedgerKey) {row : other.Row}
    (h : rows r ≠ none) : Function.update rows other (some row) r ≠ none := by
  change r ∈ present _
  rw [present_update]
  exact Set.mem_insert_of_mem other h

theorem balanceOf_update_of_ne {discordId : Int} {r : LedgerKey} (hr : r ≠ .balance discordId)
    (row : Option r.Row) :
    balanceOf discordId (Function.update rows r row) = balanceOf discordId rows := by
  rw [balanceOf, balanceOf, Function.update_of_ne hr.symm]

@[simp] theorem auditLog_update {r : LedgerKey} (hr : r ≠ .auditLog) (row : Option r.Row) :
    auditLog (Function.update rows r row) = auditLog rows := by
  rw [auditLog, auditLog, Function.update_of_ne hr.symm]

/-- Locking a row without foreign keys. -/
theorem post_lock_of_refs {r : LedgerKey} (hrefs : ∀ row, LedgerKey.Refs r row = ∅)
    {Q : Option r.Row → Set LedgerKey → LedgerRows → Prop} :
    (lock r : LedgerScript (Option r.Row)).Post ledgerSchema Q known rows ↔
      (r ∉ known → Q none known rows) ∧
        ∀ row, rows r = some row → ∀ known', known ⊆ known' → r ∈ known' →
          Q (some row) known' rows := by
  rw [post_lock]
  simp [ledgerSchema, hrefs]

/-- Writing a row without foreign keys. -/
theorem post_store_of_refs {r : LedgerKey} {row : r.Row} (hrefs : LedgerKey.Refs r row = ∅)
    {Q : Unit → Set LedgerKey → LedgerRows → Prop} :
    (store r row : LedgerScript Unit).Post ledgerSchema Q known rows ↔
      (r ∈ known → (∀ old, rows r = some old → r.Keeps old row) ∧
        Q () known (Function.update rows r (some row))) := by
  rw [post_store]
  simp [ledgerSchema, hrefs]

/-- `INSERT ... ON CONFLICT DO NOTHING` of a row without foreign keys: there is a
row afterwards. -/
theorem post_add_of_refs {r : LedgerKey} {row : r.Row} (hrefs : LedgerKey.Refs r row = ∅)
    {Q : Unit → Set LedgerKey → LedgerRows → Prop}
    (h : ∀ known', known ⊆ known' → r ∈ known' →
      Q () known' (Function.update rows r (some ((rows r).getD row)))) :
    (do let _ ← add r row : LedgerScript Unit).Post ledgerSchema Q known rows := by
  simp only [post_bind, post_add, post_pure, ledgerSchema, hrefs]
  constructor
  · intro hnone
    rw [hnone] at h
    exact ⟨Set.empty_subset _, h _ (Set.subset_insert _ _) (Set.mem_insert _ _)⟩
  · intro known' hgrow hr hrow
    obtain ⟨row', hrow'⟩ := Option.ne_none_iff_exists'.mp hrow
    rw [hrow', Option.getD_some, ← hrow', Function.update_eq_self] at h
    exact h known' hgrow hr

theorem post_lockBalance {Q : Option Balance → Set LedgerKey → LedgerRows → Prop} (discordId : Int) :
    (lockBalance discordId).Post ledgerSchema Q known rows ↔
      (.balance discordId ∉ known → Q none known rows) ∧
        ∀ row, rows (.balance discordId) = some row → ∀ known', known ⊆ known' → .balance discordId ∈ known' →
          Q (some row) known' rows :=
  post_lock_of_refs fun _ => rfl

theorem post_lockAuditLog {Q : Option (List AuditContent) → Set LedgerKey → LedgerRows → Prop} :
    lockAuditLog.Post ledgerSchema Q known rows ↔
      (.auditLog ∉ known → Q none known rows) ∧
        ∀ row, rows .auditLog = some row → ∀ known', known ⊆ known' → .auditLog ∈ known' →
          Q (some row) known' rows :=
  post_lock_of_refs fun _ => rfl

theorem post_lockDeposit {Q : Option Ticket → Set LedgerKey → LedgerRows → Prop} (uid : String) :
    (lockDeposit uid).Post ledgerSchema Q known rows ↔
      (.deposit uid ∉ known → Q none known rows) ∧
        ∀ row, rows (.deposit uid) = some row → ∀ known', known ⊆ known' → .deposit uid ∈ known' →
          Q (some row) known' rows :=
  post_lock_of_refs fun _ => rfl

theorem post_lockWithdraw {Q : Option WithdrawTicket → Set LedgerKey → LedgerRows → Prop} (uid : String) :
    (lockWithdraw uid).Post ledgerSchema Q known rows ↔
      (.withdraw uid ∉ known → Q none known rows) ∧
        ∀ row, rows (.withdraw uid) = some row → ∀ known', known ⊆ known' → .withdraw uid ∈ known' →
          Q (some row) known' rows :=
  post_lock_of_refs fun _ => rfl

theorem post_lockStats {Q : Option CashierStats → Set LedgerKey → LedgerRows → Prop} (cashier : Int) :
    (lockStats cashier).Post ledgerSchema Q known rows ↔
      (.cashierStats cashier ∉ known → Q none known rows) ∧
        ∀ row, rows (.cashierStats cashier) = some row → ∀ known', known ⊆ known' → .cashierStats cashier ∈ known' →
          Q (some row) known' rows :=
  post_lock_of_refs fun _ => rfl

theorem post_notNull {α : Type} {Q : α → Set LedgerKey → LedgerRows → Prop} (column : String)
    (value : Option α) :
    (notNull column value).Post ledgerSchema Q known rows ↔
      ∀ a, value = some a → Q a known rows :=
  post_require _ _

theorem post_nullableBigint {Q : Option Int → Set LedgerKey → LedgerRows → Prop}
    (value : Option Int) :
    (nullableBigint value).Post ledgerSchema Q known rows ↔
      ((∀ x, value = some x → InBigint x) → Q value known rows) := by
  cases value with
  | none => simp [nullableBigint, post_pure]
  | some x => simp [nullableBigint, post_ite, post_pure, post_fail]

theorem post_selectBalance {Q : Option Int → Set LedgerKey → LedgerRows → Prop} (discordId : Int)
    (h : ∀ known' balance, known ⊆ known' → Q balance known' rows) :
    (selectBalance discordId).Post ledgerSchema Q known rows :=
  fun _ _ _ hknown _ => h _ _ hknown

theorem post_registeredOr0 {Q : Int → Set LedgerKey → LedgerRows → Prop} (discordId : Int)
    (h : ∀ known' target, known ⊆ known' → Q target known' rows) :
    (registeredOr0 discordId).Post ledgerSchema Q known rows :=
  fun _ _ _ hknown _ => h _ _ hknown

theorem post_insertUser {Q : Unit → Set LedgerKey → LedgerRows → Prop} (discordId : Int)
    (h : ∀ known', known ⊆ known' → .user discordId ∈ known' →
      Q () known' (Function.update rows (.user discordId)
        (some ((rows (.user discordId)).getD ({} : User))))) :
    (insertUser discordId).Post ledgerSchema Q known rows :=
  post_add_of_refs rfl h

theorem post_insertBalance {Q : Unit → Set LedgerKey → LedgerRows → Prop} (discordId : Int)
    (h : ∀ known', known ⊆ known' → .balance discordId ∈ known' →
      Q () known' (Function.update rows (.balance discordId)
        (some ((rows (.balance discordId)).getD Balance.zero)))) :
    (insertBalance discordId).Post ledgerSchema Q known rows :=
  post_add_of_refs rfl h

theorem post_updateBalance {Q : Unit → Set LedgerKey → LedgerRows → Prop} (discordId : Int)
    (assign : BalanceRow → BalanceRow) :
    (updateBalance discordId assign).Post ledgerSchema Q known rows ↔
      (.balance discordId ∉ known → Q () known rows) ∧
        ∀ row : Balance, rows (.balance discordId) = some row → ∀ known', known ⊆ known' →
          .balance discordId ∈ known' → ∀ new : Balance,
          new.toBalanceRow = assign row.toBalanceRow →
          Q () known' (Function.update rows (.balance discordId) (some new)) := by
  simp only [updateBalance, post_bind, post_lockBalance, post_pure]
  apply and_congr_right'
  apply forall_congr'
  intro row
  apply imp_congr_right
  intro hrow
  apply forall_congr'
  intro known'
  apply imp_congr_right
  intro hgrow
  apply imp_congr_right
  intro hbalance
  simp only [post_orThrow, Balance.check_eq_ok, post_store_of_refs (show LedgerKey.Refs
    (.balance discordId) _ = ∅ from rfl)]
  simp [hbalance, LedgerKey.Keeps]

theorem checkStats_eq_ok {row : CashierStatsRow} {stored : CashierStats} :
    checkStats row = .ok stored ↔ stored.toCashierStatsRow = row := by
  rcases stored with ⟨stored, hstored⟩
  unfold checkStats
  split
  next hrange =>
    simp only [Except.ok.injEq, CashierStats.mk.injEq]
    exact eq_comm
  next hrange =>
    simp only [reduceCtorEq, false_iff]
    rintro rfl
    exact hrange hstored

/-- One counting step, on the row or on a row of zeros. -/
theorem post_upsertCashierStats {Q : Unit → Set LedgerKey → LedgerRows → Prop} (cashier : Int)
    (count : CashierStatsRow → CashierStatsRow)
    (h : ∀ known' (new : CashierStats), known ⊆ known' → new.toCashierStatsRow =
      count ((rows (.cashierStats cashier)).getD CashierStats.zero).toCashierStatsRow →
      Q () known' (Function.update rows (.cashierStats cashier) (some new))) :
    (upsertCashierStats cashier count).Post ledgerSchema Q known rows := by
  simp only [upsertCashierStats, post_bind, post_orThrow, post_add, post_ifDo, checkStats_eq_ok]
  intro fresh hfresh
  constructor
  · intro hnone
    refine ⟨Set.empty_subset _, fun hfalse => (Bool.noConfusion hfalse), fun _ => ?_⟩
    apply h _ _ (Set.subset_insert _ _)
    rw [hnone]
    exact hfresh
  · intro known₁ hgrow₁ hknown hrow
    refine ⟨fun _ => ?_, fun hfalse => (hfalse trivial).elim⟩
    simp only [post_lockStats]
    refine ⟨fun hnone => (hnone hknown).elim, ?_⟩
    intro row hrow known₂ hgrow₂ hknown₂
    simp only [post_bind, post_orThrow, checkStats_eq_ok, post_store_of_refs (show LedgerKey.Refs
      (.cashierStats cashier) _ = ∅ from rfl)]
    intro new hnew hheld
    refine ⟨fun _ _ => trivial, ?_⟩
    apply h _ _ (hgrow₁.trans hgrow₂)
    rw [hrow]
    exact hnew

/-- An audit row goes in with every required column and an existing target. -/
theorem post_auditLogInsertWithChain {Q : Unit → Set LedgerKey → LedgerRows → Prop} (env : Env)
    (p : AuditParams) (hlog : .auditLog ∈ known)
    (h : ∀ known' content, known ⊆ known' → auditContent env p = some content →
      rows (.user content.targetId) ≠ none →
      Q () known' (Function.update rows .auditLog (some (auditLog rows ++ [content])))) :
    (auditLogInsertWithChain env p).Post ledgerSchema Q known rows := by
  simp only [auditLogInsertWithChain, post_bind, post_orThrow, post_lockAuditLog, post_notNull,
    post_see, post_raiseIf, post_store_of_refs (show LedgerKey.Refs .auditLog _ = ∅ from rfl)]
  intro key hkey
  refine ⟨fun hnone => (hnone hlog).elim, ?_⟩
  intro log hrow known' hgrow hlog' actorId hactor targetId htarget action haction before hbefore
    after hafter refType hrefType keys seen hkeys hknown hseen huser hheld
  refine ⟨fun _ _ => trivial, ?_⟩
  have hcontent : auditContent env p = some
      { ts := env.now, actorType := p.actorType, actorId, targetId, action, amount := p.amount,
        balanceBefore := before, balanceAfter := after, reason := p.reason, refType,
        refId := p.refId, botName := p.botName, metadata := p.metadata } := by
    simp [auditContent, hactor, htarget, haction, hbefore, hafter, hrefType]
  have hlog : auditLog rows = log := by
    rw [auditLog, hrow]
    rfl
  rw [← hlog]
  exact h _ _ (hgrow.trans hknown) hcontent (hseen.present_subset huser)

end DeathRoll.Interleaved
