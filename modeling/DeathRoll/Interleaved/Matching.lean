import DeathRoll.Interleaved.Bets
import DeathRoll.Interleaved.Disputes
import DeathRoll.Interleaved.Tickets
import DeathRoll.Relational.Replay

/-! # Statements against rows and against the database

Committed rows stand for a database when they are its rows, the audit log up to the
columns that some functions read without a lock. Each statement that a script and a
ledger function share does the same to both.
-/

namespace DeathRoll.Interleaved

open Relational Script

/-! ## What settling calls keep -/

/-- The rows that no call writes which settles something. -/
def LedgerKey.Frozen : LedgerKey → Prop
  | .cashierCharacter _ => True
  | _ => False

/-- The rows that a row refers to: to the foreign keys of bets come the account of a
withdraw, which its gold was taken from, and the ticket that a dispute was opened on. -/
def LedgerKey.Owners : (r : LedgerKey) → r.Row → Set LedgerKey
  | .withdraw _, row => {.balance row.discordId}
  | .dispute _, row => {ticketKey (row.ticketType, row.ticketUid)}
  | r, row => r.Refs row

def settlementSchema : Schema LedgerKey.Row where
  keeps r old new := r.Keeps old new ∧ (r.Frozen → old = new)
  refs := LedgerKey.Owners
  refl r row := ⟨LedgerKey.keeps_refl r row, fun _ => rfl⟩
  trans r a b c hab hbc :=
    ⟨LedgerKey.keeps_trans r a b c hab.1 hbc.1, fun hr => (hab.2 hr).trans (hbc.2 hr)⟩

/-! ## Rows and the database -/

/-- An audit row without the columns that are not always read under a lock. -/
def underLock (content : AuditContent) : AuditContent :=
  { content with targetId := 0, balanceBefore := 0, balanceAfter := 0 }

/-- The database as rows; its indexes and sessions are left out. -/
def rowOf (s : Database) : LedgerRows
  | .user id => s.users.get? id
  | .balance id => s.balances.get? id
  | .auditLog => some (s.audit.auditLog.map AuditRow.content)
  | .deposit uid => s.depositTickets.get? uid
  | .withdraw uid => s.withdrawTickets.get? uid
  | .dispute id => s.disputes.get? id
  | .cashierCharacter key => s.cashierCharacters.get? key
  | .cashierStats id => s.cashierStats.get? id
  | .bet id => s.bets.get? id
  | .rafflePeriod id => s.rafflePeriods.get? id
  | .raffleTicket id => s.raffleTickets.get? id
  | .rateLimitEntry key => s.rateLimitEntries.get? key
  | .ticketId _ _ | .ticketThread _ _ | .disputeOf _ _ | .cashierStatus _ | .betUid _
  | .betKey _ _ => none

def LedgerKey.Agrees : (r : LedgerKey) → Option r.Row → Option r.Row → Prop
  | .auditLog, row, row' => (row.getD []).map underLock = (row'.getD []).map underLock
  | .ticketId _ _, _, _ | .ticketThread _ _, _, _ | .disputeOf _ _, _, _ | .cashierStatus _, _, _
  | .betUid _, _, _ | .betKey _ _, _, _ => True
  | _, row, row' => row = row'

/-- The committed rows are those of the database. -/
def Stands (rows : LedgerRows) (s : Database) : Prop :=
  ∀ r : LedgerKey, r.Agrees (rows r) (rowOf s r)

theorem LedgerKey.agrees_refl (r : LedgerKey) (row : Option r.Row) : r.Agrees row row := by
  cases r <;> simp [Agrees]

section Lookup

variable {rows : LedgerRows} {s : Database}

theorem Stands.user (h : Stands rows s) (id : Int) : s.users.get? id = rows (.user id) :=
  (h (.user id)).symm

theorem Stands.balance (h : Stands rows s) (id : Int) : s.balances.get? id = rows (.balance id) :=
  (h (.balance id)).symm

theorem Stands.balance? (h : Stands rows s) {id : Int} {row : Balance}
    (hrow : rows (.balance id) = some row) : s.balance? (some id) = some row.balance := by
  rw [Database.balance?, Table.select_some, h.balance, hrow, Option.map_some]

theorem Stands.lockedBalance? (h : Stands rows s) {id : Int} {row : Balance}
    (hrow : rows (.balance id) = some row) :
    s.lockedBalance? (some id) = some row.lockedBalance := by
  rw [Database.lockedBalance?, Table.select_some, h.balance, hrow, Option.map_some]

theorem Stands.deposit (h : Stands rows s) (uid : String) :
    s.depositTickets.get? uid = rows (.deposit uid) := (h (.deposit uid)).symm

theorem Stands.withdraw (h : Stands rows s) (uid : String) :
    s.withdrawTickets.get? uid = rows (.withdraw uid) := (h (.withdraw uid)).symm

theorem Stands.dispute (h : Stands rows s) (id : Int) :
    s.disputes.get? id = rows (.dispute id) := (h (.dispute id)).symm

theorem Stands.character (h : Stands rows s) (key : CharacterKey) :
    s.cashierCharacters.get? key = rows (.cashierCharacter key) :=
  (h (.cashierCharacter key)).symm

theorem Stands.stats (h : Stands rows s) (id : Int) :
    s.cashierStats.get? id = rows (.cashierStats id) := (h (.cashierStats id)).symm

theorem Stands.bet (h : Stands rows s) (id : Int) : s.bets.get? id = rows (.bet id) :=
  (h (.bet id)).symm

theorem Stands.period (h : Stands rows s) (id : Int) :
    s.rafflePeriods.get? id = rows (.rafflePeriod id) := (h (.rafflePeriod id)).symm

end Lookup

/-! ## Writes -/

section Writes

variable {rows : LedgerRows} {s s' : Database}

/-- Rows and database change under one key. -/
theorem Stands.update (h : Stands rows s) {r : LedgerKey} {row : Option r.Row}
    (hrow : r.Agrees row (rowOf s' r)) (hother : ∀ k, k ≠ r → rowOf s' k = rowOf s k) :
    Stands (Function.update rows r row) s' := by
  intro k
  by_cases hk : k = r
  · subst hk
    rwa [Function.update_self]
  · rw [Function.update_of_ne hk, hother k hk]
    exact h k

theorem get?_set_of_some {κ ρ : Type} [DecidableEq κ] {t : Table κ ρ} {k : κ} {old : ρ}
    (hold : t.get? k = some old) (new : ρ) : (t.set k new).get? k = some new := by
  rw [Table.get?_set, if_pos rfl, hold, Option.map_some]

theorem get?_set_of_ne {κ ρ : Type} [DecidableEq κ] (t : Table κ ρ) {k key : κ} (hkey : key ≠ k)
    (new : ρ) : (t.set k new).get? key = t.get? key := by
  rw [Table.get?_set, if_neg hkey]

theorem get?_insertNew_of_ne {κ ρ : Type} [DecidableEq κ] (t : Table κ ρ) {k key : κ}
    (hkey : key ≠ k) (new : ρ) : (t.insertNew k new).get? key = t.get? key := by
  rw [Table.get?_insertNew, if_neg hkey]

theorem Stands.addUser (h : Stands rows s) (id : Int) (user : User) :
    Stands (Function.update rows (.user id) (some ((rows (.user id)).getD user)))
      (s.addUser id user) := by
  apply h.update
  · change _ = (s.users.insertNew id user).get? id
    rw [Table.get?_insertNew, if_pos rfl, h.user]
  · intro k hk
    cases k with
    | user other => exact get?_insertNew_of_ne _ (fun heq => hk (congrArg LedgerKey.user heq)) _
    | _ => rfl

theorem Stands.addBalance (h : Stands rows s) (id : Int) (balance : Balance) :
    Stands (Function.update rows (.balance id) (some ((rows (.balance id)).getD balance)))
      (s.addBalance id balance) := by
  apply h.update
  · change _ = (s.balances.insertNew id balance).get? id
    rw [Table.get?_insertNew, if_pos rfl, h.balance]
  · intro k hk
    cases k with
    | balance other => exact get?_insertNew_of_ne _ (fun heq => hk (congrArg LedgerKey.balance heq)) _
    | _ => rfl

theorem Stands.setBalance (h : Stands rows s) {id : Int} {old : Balance}
    (hold : rows (.balance id) = some old) (new : Balance) :
    Stands (Function.update rows (.balance id) (some new)) (s.setBalance id new) := by
  apply h.update
  · exact (get?_set_of_some ((h.balance id).trans hold) new).symm
  · intro k hk
    cases k with
    | balance other => exact get?_set_of_ne _ (fun heq => hk (congrArg LedgerKey.balance heq)) _
    | _ => rfl

theorem Stands.setDeposit (h : Stands rows s) {uid : String} {old : Ticket}
    (hold : rows (.deposit uid) = some old) (new : Ticket) :
    Stands (Function.update rows (.deposit uid) (some new)) (s.setDeposit uid new) := by
  apply h.update
  · exact (get?_set_of_some ((h.deposit uid).trans hold) new).symm
  · intro k hk
    cases k with
    | deposit other => exact get?_set_of_ne _ (fun heq => hk (congrArg LedgerKey.deposit heq)) _
    | _ => rfl

theorem Stands.setWithdraw (h : Stands rows s) {uid : String} {old : WithdrawTicket}
    (hold : rows (.withdraw uid) = some old) (new : WithdrawTicket) :
    Stands (Function.update rows (.withdraw uid) (some new)) (s.setWithdraw uid new) := by
  apply h.update
  · exact (get?_set_of_some ((h.withdraw uid).trans hold) new).symm
  · intro k hk
    cases k with
    | withdraw other => exact get?_set_of_ne _ (fun heq => hk (congrArg LedgerKey.withdraw heq)) _
    | _ => rfl

theorem Stands.setDispute (h : Stands rows s) {id : Int} {old : Dispute}
    (hold : rows (.dispute id) = some old) (new : Dispute) :
    Stands (Function.update rows (.dispute id) (some new)) (s.setDispute id new) := by
  apply h.update
  · exact (get?_set_of_some ((h.dispute id).trans hold) new).symm
  · intro k hk
    cases k with
    | dispute other => exact get?_set_of_ne _ (fun heq => hk (congrArg LedgerKey.dispute heq)) _
    | _ => rfl

theorem Stands.setBet (h : Stands rows s) {id : Int} {old : Bet}
    (hold : rows (.bet id) = some old) (new : Bet) :
    Stands (Function.update rows (.bet id) (some new)) (s.setBet id new) := by
  apply h.update
  · exact (get?_set_of_some ((h.bet id).trans hold) new).symm
  · intro k hk
    cases k with
    | bet other => exact get?_set_of_ne _ (fun heq => hk (congrArg LedgerKey.bet heq)) _
    | _ => rfl

theorem Stands.setPeriod (h : Stands rows s) {id : Int} {old : RafflePeriod}
    (hold : rows (.rafflePeriod id) = some old) (new : RafflePeriod) :
    Stands (Function.update rows (.rafflePeriod id) (some new)) (s.setPeriod id new) := by
  apply h.update
  · exact (get?_set_of_some ((h.period id).trans hold) new).symm
  · intro k hk
    cases k with
    | rafflePeriod other => exact get?_set_of_ne _ (fun heq => hk (congrArg LedgerKey.rafflePeriod heq)) _
    | _ => rfl

theorem Stands.upsertStats (h : Stands rows s) (cashier : Int) (new : CashierStats) :
    Stands (Function.update rows (.cashierStats cashier) (some new))
      (s.upsertStats cashier new) := by
  apply h.update
  · change _ = ((s.cashierStats.insertNew cashier new).set cashier new).get? cashier
    have hinserted : (s.cashierStats.insertNew cashier new).get? cashier =
        some ((s.cashierStats.get? cashier).getD new) := by
      rw [Table.get?_insertNew, if_pos rfl]
    rw [get?_set_of_some hinserted]
  · intro k hk
    cases k with
    | cashierStats other =>
        have hne : other ≠ cashier := fun heq => hk (congrArg LedgerKey.cashierStats heq)
        change ((s.cashierStats.insertNew cashier new).set cashier new).get? other = _
        rw [get?_set_of_ne _ hne, get?_insertNew_of_ne _ hne]
        rfl
    | _ => rfl

/-- An audit row that agrees up to what was read without a lock. -/
theorem Stands.withAudit (h : Stands rows s) (env : Env) (key : Bytes)
    {content content' : AuditContent} (hcontent : underLock content = underLock content') :
    Stands (Function.update rows .auditLog (some (auditLog rows ++ [content])))
      (s.withAudit env key content') := by
  apply h.update
  · have hlog := h .auditLog
    simp only [LedgerKey.Agrees, rowOf, Option.getD_some] at hlog
    simp only [LedgerKey.Agrees, rowOf, Database.withAudit_audit, AuditStore.insertWithChain,
      Option.getD_some, List.map_append, List.map_cons, List.map_nil, hcontent, auditLog, hlog]
  · intro k hk
    cases k with
    | auditLog => exact (hk rfl).elim
    | _ => rfl

end Writes

/-! ## Statements -/

variable {known : Set LedgerKey} {rows : LedgerRows} {s : Database}

section Values

variable {α : Type} {next : α → α → Set LedgerKey → LedgerRows → Database → Prop}

theorem matchedBy_notNull {column : String} {value : Option α}
    (h : ∀ a, value = some a → next a a known rows s) :
    (notNull column value).MatchedBy settlementSchema next (DeathRoll.notNull column value) known
      rows s :=
  matchedBy_require fun a ha => ⟨a, ha, h a ha⟩

theorem matchedBy_nullableBigint
    {next : Option Int → Option Int → Set LedgerKey → LedgerRows → Database → Prop}
    {value : Option Int} (h : next value value known rows s) :
    (nullableBigint value).MatchedBy settlementSchema next (DeathRoll.nullableBigint value) known
      rows s := by
  cases value with
  | none => exact matchedBy_pure h
  | some x =>
      by_cases hx : InBigint x
      · simp only [nullableBigint, DeathRoll.nullableBigint, bigint, if_pos hx, pure_bind]
        exact matchedBy_pure h
      · simp only [nullableBigint, if_neg hx]
        exact matchedBy_fail _ _

end Values

variable {next : Unit → Unit → Set LedgerKey → LedgerRows → Database → Prop}

theorem matchedBy_insertUser (h : Stands rows s) {id : Int}
    (hnext : ∀ rows' known', rows' = Function.update rows (.user id)
        (some ((rows (.user id)).getD ({} : User))) → known ⊆ known' → .user id ∈ known' →
      Stands rows' (s.addUser id {}) → next () () known' rows' (s.addUser id {})) :
    (insertUser id).MatchedBy settlementSchema next (DeathRoll.insertUser id) known rows s := by
  have hstands := h.addUser id {}
  simp only [MatchedBy, insertUser, post_bind, post_add, post_pure, wp_insertUser]
  constructor
  · intro hnone
    refine ⟨Set.empty_subset _, hnext _ _ ?_ (Set.subset_insert _ _) (Set.mem_insert _ _) ?_⟩
    · rw [hnone]
      rfl
    · rwa [hnone] at hstands
  · intro known' hgrow huser hrow
    obtain ⟨user, hrow⟩ := Option.ne_none_iff_exists'.mp hrow
    have hsame : Function.update rows (.user id) (some ((rows (.user id)).getD ({} : User))) =
        rows := by
      rw [hrow, Option.getD_some, ← hrow, Function.update_eq_self]
    rw [hsame] at hstands
    exact hnext _ _ hsame.symm hgrow huser hstands

theorem matchedBy_insertBalance (h : Stands rows s) {id : Int}
    (hnext : ∀ rows' known', rows' = Function.update rows (.balance id)
        (some ((rows (.balance id)).getD Balance.zero)) → known ⊆ known' → .balance id ∈ known' →
      Stands rows' (s.addBalance id .zero) → next () () known' rows' (s.addBalance id .zero)) :
    (insertBalance id).MatchedBy settlementSchema next (DeathRoll.insertBalance id) known rows
      s := by
  have hstands := h.addBalance id .zero
  simp only [MatchedBy, insertBalance, post_bind, post_add, post_pure, wp_insertBalance]
  constructor
  · intro hnone
    refine ⟨Set.empty_subset _, hnext _ _ ?_ (Set.subset_insert _ _) (Set.mem_insert _ _) ?_⟩
    · rw [hnone]
      rfl
    · rwa [hnone] at hstands
  · intro known' hgrow hbalance hrow
    obtain ⟨balance, hrow⟩ := Option.ne_none_iff_exists'.mp hrow
    have hsame : Function.update rows (.balance id)
        (some ((rows (.balance id)).getD Balance.zero)) = rows := by
      rw [hrow, Option.getD_some, ← hrow, Function.update_eq_self]
    rw [hsame] at hstands
    exact hnext _ _ hsame.symm hgrow hbalance hstands

/-- The update of a balance that is known finds it. -/
theorem matchedBy_updateBalance (h : Stands rows s) {id : Int} (hid : .balance id ∈ known)
    {assign : BalanceRow → BalanceRow}
    (hnext : ∀ (row new : Balance) rows' known', rows (.balance id) = some row →
      new.toBalanceRow = assign row.toBalanceRow →
      rows' = Function.update rows (.balance id) (some new) → known ⊆ known' →
      Stands rows' (s.setBalance id new) → next () () known' rows' (s.setBalance id new)) :
    (updateBalance id assign).MatchedBy settlementSchema next (DeathRoll.updateBalance id assign)
      known rows s := by
  simp only [MatchedBy, updateBalance, post_bind, wp_updateBalance]
  refine (post_lock (LedgerKey.balance id)).mpr ⟨fun hnone => (hnone hid).elim, ?_⟩
  intro row hrow known' hgrow hid' hrefs
  simp only [post_bind, post_orThrow, Balance.check_eq_ok, post_store]
  intro new hnew hheld
  refine ⟨Set.empty_subset _, fun old hold => ⟨trivial, fun hfrozen => hfrozen.elim⟩, ?_, ?_⟩
  · intro hnone
    rw [h.balance, hrow] at hnone
    cases hnone
  · intro row' hrow'
    rw [h.balance, hrow, Option.some.injEq] at hrow'
    subst hrow'
    constructor
    · intro e herror
      rw [Balance.check_eq_ok.mpr hnew] at herror
      cases herror
    · intro new' hnew'
      obtain rfl := Balance.ext_row (hnew'.trans hnew.symm)
      exact hnext row new' _ known' hrow hnew' rfl hgrow (h.setBalance hrow new')

theorem matchedBy_updateDeposit (h : Stands rows s) {uid : String} {old new : Ticket}
    (hold : rows (.deposit uid) = some old) (hkeeps : LedgerKey.Keeps (.deposit uid) old new)
    (hnext : ∀ rows', rows' = Function.update rows (.deposit uid) (some new) →
      Stands rows' (s.setDeposit uid new) → next () () known rows' (s.setDeposit uid new)) :
    (updateDeposit uid old new).MatchedBy settlementSchema next
      (DeathRoll.updateDeposit uid old new) known rows s := by
  simp only [MatchedBy, updateDeposit, ticketTerminalStatusImmutable, post_bind, post_raiseIf,
    post_store, wp_updateDeposit]
  intro htrigger hheld
  refine ⟨Set.empty_subset _, fun row hrow => ⟨?_, fun hfrozen => hfrozen.elim⟩,
    fun hterminal => htrigger hterminal, fun _ => hnext _ rfl (h.setDeposit hold new)⟩
  cases hold.symm.trans hrow
  exact hkeeps

theorem matchedBy_updateWithdraw (h : Stands rows s) {uid : String} {old new : WithdrawTicket}
    (hold : rows (.withdraw uid) = some old) (hkeeps : LedgerKey.Keeps (.withdraw uid) old new)
    (howner : .balance old.discordId ∈ known)
    (hnext : ∀ rows', rows' = Function.update rows (.withdraw uid) (some new) →
      Stands rows' (s.setWithdraw uid new) → next () () known rows' (s.setWithdraw uid new)) :
    (updateWithdraw uid old new).MatchedBy settlementSchema next
      (DeathRoll.updateWithdraw uid old new) known rows s := by
  simp only [MatchedBy, updateWithdraw, ticketTerminalStatusImmutable, post_bind, post_raiseIf,
    post_store, wp_updateWithdraw]
  intro htrigger hheld
  refine ⟨?_, fun row hrow => ⟨?_, fun hfrozen => hfrozen.elim⟩,
    fun hterminal => htrigger hterminal, fun _ => hnext _ rfl (h.setWithdraw hold new)⟩
  · rintro k rfl
    exact hkeeps.1 ▸ howner
  · cases hold.symm.trans hrow
    exact hkeeps

/-- One counting step, on the row or on a row of zeros. -/
theorem matchedBy_upsertCashierStats (h : Stands rows s) {cashier : Int}
    {count : CashierStatsRow → CashierStatsRow}
    (hnext : ∀ new rows' known', rows' = Function.update rows (.cashierStats cashier) (some new) →
      known ⊆ known' → Stands rows' (s.upsertStats cashier new) →
      next () () known' rows' (s.upsertStats cashier new)) :
    (upsertCashierStats cashier count).MatchedBy settlementSchema next
      (DeathRoll.upsertCashierStats cashier count) known rows s := by
  -- the body counts on what the script finds, and so in range
  have hbody : ∀ (new : CashierStats) known', new.toCashierStatsRow =
      count ((rows (.cashierStats cashier)).getD CashierStats.zero).toCashierStatsRow →
      known ⊆ known' → (DeathRoll.upsertCashierStats cashier count).wp (fun _ s' => next () () known'
        (Function.update rows (.cashierStats cashier) (some new)) s') (fun _ => False) s := by
    intro new known' hnew hgrow
    rw [wp_upsertCashierStats, h.stats, ← hnew]
    refine ⟨fun stored hstored => ?_, fun hrange => hrange new.inRange⟩
    obtain rfl : stored = new := by
      cases stored
      cases new
      cases hstored
      rfl
    exact hnext stored _ known' rfl hgrow (h.upsertStats cashier stored)
  simp only [MatchedBy, upsertCashierStats, post_bind, post_orThrow, post_add, post_ifDo,
    checkStats_eq_ok]
  intro fresh hfresh
  constructor
  · intro hnone
    refine ⟨Set.empty_subset _, fun hfalse => (Bool.noConfusion hfalse), fun _ => ?_⟩
    apply hbody _ _ _ (Set.subset_insert _ _)
    rw [hnone]
    exact hfresh
  · intro known₁ hgrow₁ hknown hrow
    refine ⟨fun _ => ?_, fun hfalse => (hfalse trivial).elim⟩
    refine (post_lock (LedgerKey.cashierStats cashier)).mpr ⟨fun hnone => (hnone hknown).elim, ?_⟩
    intro row hrow known₂ hgrow₂ hknown₂ hrefs
    simp only [post_bind, post_orThrow, checkStats_eq_ok, post_store]
    intro new hnew hheld
    refine ⟨Set.empty_subset _, fun old hold => ⟨trivial, fun hfrozen => hfrozen.elim⟩, ?_⟩
    apply hbody _ _ _ (hgrow₁.trans hgrow₂)
    rw [hrow]
    exact hnew

/-! ### The audit row -/

/-- The parameters of two audit rows that differ in what is read without a lock, and
what the first of them has the second has. -/
structure Alike (rows : LedgerRows) (p p' : AuditParams) : Prop where
  same : { p' with
    targetId := p.targetId, balanceBefore := p.balanceBefore, balanceAfter := p.balanceAfter } = p
  before : p.balanceBefore ≠ none → p'.balanceBefore ≠ none
  after : p.balanceAfter ≠ none → p'.balanceAfter ≠ none
  target : ∀ target, p.targetId = some target → rows (.user target) ≠ none →
    ∃ target', p'.targetId = some target' ∧ rows (.user target') ≠ none

theorem Alike.refl (rows : LedgerRows) (p : AuditParams) : Alike rows p p :=
  ⟨rfl, id, id, fun target htarget huser => ⟨target, htarget, huser⟩⟩

/-- Where the script's audit row goes in, the body's does. -/
theorem wp_audit {post : Int → Database → Prop} (h : Stands rows s) (env : Env)
    {p p' : AuditParams} (halike : Alike rows p p') {key : Bytes} (hkey : env.chainKey = .ok key)
    {content : AuditContent} (hcontent : auditContent env p = some content)
    (huser : rows (.user content.targetId) ≠ none)
    (hpost : ∀ id s', Stands
      (Function.update rows .auditLog (some (auditLog rows ++ [content]))) s' → post id s') :
    (DeathRoll.auditLogInsertWithChain env p').wp post (fun _ => False) s := by
  obtain ⟨actorType, actorId, targetId, action, amount, balanceBefore, balanceAfter, reason,
    refType, refId, botName, metadata⟩ := p
  obtain ⟨actorType', actorId', targetId', action', amount', balanceBefore', balanceAfter', reason',
    refType', refId', botName', metadata'⟩ := p'
  obtain ⟨hsame, hbefore, hafter, htarget⟩ := halike
  cases hsame
  simp only [auditContent, Option.bind_eq_bind, Option.bind_eq_some_iff] at hcontent
  obtain ⟨actor, rfl, target, rfl, action, rfl, before, rfl, after, rfl, refType, rfl, hcontent⟩ :=
    hcontent
  cases hcontent
  obtain ⟨target', rfl, huser'⟩ := htarget _ rfl huser
  obtain ⟨before', rfl⟩ := Option.ne_none_iff_exists'.mp (hbefore (Option.some_ne_none _))
  obtain ⟨after', rfl⟩ := Option.ne_none_iff_exists'.mp (hafter (Option.some_ne_none _))
  simp only [wp_auditLogInsertWithChain, hkey, reduceCtorEq, false_implies, implies_true, true_and,
    Except.ok.injEq, forall_eq', Option.some.injEq, h.user]
  exact ⟨huser', fun _ => hpost _ _ (h.withAudit env key rfl)⟩

theorem matchedBy_audit
    {next : Unit → Int → Set LedgerKey → LedgerRows → Database → Prop} (h : Stands rows s)
    (hlog : .auditLog ∈ known) (env : Env) {p p' : AuditParams} (halike : Alike rows p p')
    (hnext : ∀ content id rows' known' s',
      rows' = Function.update rows .auditLog (some (auditLog rows ++ [content])) →
      known ⊆ known' → Stands rows' s' → next () id known' rows' s') :
    (auditLogInsertWithChain env p).MatchedBy settlementSchema next
      (DeathRoll.auditLogInsertWithChain env p') known rows s := by
  simp only [MatchedBy, auditLogInsertWithChain, notNull, post_bind, post_orThrow, post_require,
    post_see, post_raiseIf, post_store]
  intro key hkey
  refine (post_lock LedgerKey.auditLog).mpr ⟨fun hnone => (hnone hlog).elim, ?_⟩
  intro log hrow known' hgrow hlog' hrefs actorId hactor targetId htarget action haction before
    hbefore after hafter refType hrefType keys seen hkeys hknown hseen huser hheld
  refine ⟨Set.empty_subset _, fun old hold => ⟨trivial, fun hfrozen => hfrozen.elim⟩, ?_⟩
  have hcontent : auditContent env p = some
      { ts := env.now, actorType := p.actorType, actorId, targetId, action, amount := p.amount,
        balanceBefore := before, balanceAfter := after, reason := p.reason, refType,
        refId := p.refId, botName := p.botName, metadata := p.metadata } := by
    simp [auditContent, hactor, htarget, haction, hbefore, hafter, hrefType]
  have hlog : log = auditLog rows := by
    rw [auditLog, hrow]
    rfl
  rw [Option.getD_some, hlog]
  exact wp_audit h env halike hkey hcontent (hseen.present_subset huser) fun id s' hs' =>
    hnext _ id _ _ s' rfl (hgrow.trans hknown) hs'

end DeathRoll.Interleaved
