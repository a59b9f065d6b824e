import DeathRoll.Balance.Exceptions
import DeathRoll.Ledger.LockErrors
import DeathRoll.Ledger.Runs

/-! # The wrappers of the ledger functions

`dw_manager` calls each `dw.*` function through a wrapper that turns a `RaiseError` into a
typed exception. Every statement that a wrapped function raises by has its entry in the
table, and no trigger speaks up behind a function's own checks; so a caller gets the class
that the statement was written for, whatever values it prints.
-/

namespace DeathRoll

open Relational Tx Text

/-! ## Wrappers -/

/-- What a wrapper raises: the translation of a `RaiseError`, or the driver's own error. -/
inductive WrapperError where
  | balance (error : BalanceError)
  | driver (error : DbError)

/-- `except asyncpg.RaiseError as e: raise translate_pg_error(e) from e`. -/
def translateRaise (error : DbError) : WrapperError :=
  if error.IsRaise then .balance (translatePgError error.message) else .driver error

/-- A function called through its wrapper, in a transaction of its own. -/
def wrapped {α : Type} (body : LedgerTx α) (s : Database) : Except WrapperError α × Database :=
  let ended := transact Database.rollback body s
  (ended.1.mapError translateRaise, ended.2)

/-- The calls that have a wrapper. -/
def Call.Wrapped : Call → Prop
  | .applyBet .. | .resolveBet .. | .refundBet .. | .cashoutMines .. | .consumeRateToken ..
  | .grantRaffleTickets .. => False
  | _ => True

/-- The arguments that a wrapper declares as `Literal` are among the values it lists. -/
def Call.Literals : Call → Prop
  | .createDepositTicket _ _ _ region faction _ _ _
  | .createWithdrawTicket _ _ _ region faction _ _ _ =>
      ¬ IsNotIn region Region.texts ∧ ¬ IsNotIn faction Faction.texts
  | .setCashierStatus _ status => ¬ IsNotIn status CashierState.texts
  | .resolveDispute _ action _ _ => ¬ IsNotIn action resolutions
  | _ => True

/-! ## Errors that translate -/

/-- The error is the driver's, or has its class; and with `Literal` arguments it quotes no
text. -/
def DbError.Translates (literals : Prop) (error : DbError) : Prop :=
  (error.IsRaise = false ∨ ∃ named, error.errorClass = some named) ∧
    (literals → error.format.quotes = [])

section Statements

variable (literals : Prop)

/-- The statements that quote no text. -/
theorem translates_unquoted :
    (DbError.userBanned.Translates literals ∧
      (∀ flow, (DbError.globalConfigMissing flow).Translates literals) ∧
      (∀ a b c, (DbError.amountOutOfRange a b c).Translates literals) ∧
      DbError.ticketNotFound.Translates literals ∧
      (∀ status, (DbError.ticketNotClaimed status).Translates literals) ∧
      (∀ a b, (DbError.wrongCashier a b).Translates literals) ∧
      (∀ status, (DbError.ticketAlreadyTerminal status).Translates literals) ∧
      DbError.userNotRegistered.Translates literals ∧
      (∀ a b, (DbError.insufficientBalance a b).Translates literals) ∧
      (∀ a b, (DbError.invariantViolationLockedTooLow a b).Translates literals) ∧
      DbError.invalidTicketType.Translates literals ∧
      (∀ status, (DbError.alreadyClaimed status).Translates literals) ∧
      ∀ a region, (DbError.regionMismatch a region).Translates literals) ∧
    (DbError.invalidRegionBare.Translates literals ∧
      DbError.invalidFactionBare.Translates literals ∧
      DbError.characterNotFoundOrAlreadyRemoved.Translates literals ∧
      DbError.cashierNotOnline.Translates literals ∧
      DbError.invalidOpenerRole.Translates literals ∧
      DbError.disputeNotFound.Translates literals ∧
      (∀ status, (DbError.disputeAlreadyTerminal status).Translates literals) ∧
      DbError.partialRefundRequiresPositiveAmount.Translates literals ∧
      DbError.refundFullOnlyForWithdrawDisputes.Translates literals ∧
      DbError.amountMustBePositive.Translates literals ∧
      DbError.treasuryRowMissing.Translates literals ∧
      (∀ a b, (DbError.insufficientTreasurySweep a b).Translates literals) ∧
      (∀ a b, (DbError.insufficientTreasurySend a b).Translates literals) ∧
      DbError.cannotWithdrawToTreasurySelf.Translates literals ∧
      DbError.cannotBanTreasury.Translates literals) ∧
    (∀ column, (DbError.notNullViolation column).Translates literals) ∧
    (∀ name, (DbError.checkViolation name).Translates literals) ∧
    (∀ name, (DbError.uniqueViolation name).Translates literals) ∧
    (∀ name, (DbError.foreignKeyViolation name).Translates literals) ∧
    DbError.bigintOutOfRange.Translates literals := by
  constructorm* _ ∧ _ <;> intros <;>
    exact ⟨by first | exact .inl rfl | exact .inr ⟨_, rfl⟩, fun _ => rfl⟩

/-- A statement that quotes a text translates only when `Literal` arguments rule it out. -/
theorem translates_quoted (text : Option String) :
    ((DbError.invalidRegion text).Translates literals ↔ ¬ literals) ∧
      ((DbError.invalidFaction text).Translates literals ↔ ¬ literals) ∧
      ((DbError.invalidStatus text).Translates literals ↔ ¬ literals) ∧
      ((DbError.invalidAction text).Translates literals ↔ ¬ literals) := by
  have hquoted : ∀ {error : DbError} {named : BalanceErrorClass},
      error.errorClass = some named → error.format.quotes = [raiseText text] →
        (error.Translates literals ↔ ¬ literals) := by
    intro error named hclass hquotes
    simp [DbError.Translates, hclass, hquotes]
  exact ⟨hquoted rfl rfl, hquoted rfl rfl, hquoted rfl rfl, hquoted rfl rfl⟩

variable {env : Env} {s : Database}

theorem chainKey_translates : ∀ e, env.chainKey = .error e → e.Translates literals := by
  intro e herror
  unfold Env.chainKey at herror
  split at herror <;> cases herror <;> exact ⟨.inr ⟨_, rfl⟩, fun _ => rfl⟩

theorem check_translates (row : BalanceRow) :
    ∀ e, Balance.check row = .error e → e.Translates literals := by
  intro e herror
  unfold Balance.check at herror
  repeat' split at herror
  all_goals cases herror
  all_goals exact ⟨.inl rfl, fun _ => rfl⟩

theorem auditLogInsert_translates {post : Int → Database → Prop} (p : AuditParams) :
    wp (auditLogInsertWithChain env p) post (DbError.Translates literals) s ↔
      ∀ key actorId targetId action before after refType, env.chainKey = .ok key →
        p.actorId = some actorId → p.targetId = some targetId → p.action = some action →
        p.balanceBefore = some before → p.balanceAfter = some after → p.refType = some refType →
        ¬ s.users.get? targetId = none →
        post (s.sequences .auditLog + 1)
          (s.withAudit env key ⟨env.now, p.actorType, actorId, targetId, action, p.amount, before,
            after, p.reason, refType, p.refId, p.botName, p.metadata⟩) := by
  rw [wp_auditLogInsertWithChain]
  simp only [translates_unquoted, implies_true, true_and]
  constructor
  · rintro ⟨-, hpost⟩ key actorId targetId action before after refType hkey hactor htarget haction
      hbefore hafter href
    exact hpost key hkey actorId hactor targetId htarget action haction before hbefore after hafter
      refType href
  · intro hpost
    refine ⟨chainKey_translates literals, ?_⟩
    intro key hkey actorId hactor targetId htarget action haction before hbefore after hafter
      refType href
    exact hpost key actorId targetId action before after refType hkey hactor htarget haction
      hbefore hafter href

theorem updateBalance_translates {post : Unit → Database → Prop} (u : Int)
    (assign : BalanceRow → BalanceRow) :
    wp (updateBalance u assign) post (DbError.Translates literals) s ↔
      (s.balances.get? u = none → post () s) ∧
        ∀ row, s.balances.get? u = some row →
          ∀ new : Balance, new.toBalanceRow = assign row.toBalanceRow →
            post () (s.setBalance u new) := by
  have hcheck : ∀ row, (∀ e, Balance.check row = .error e → e.Translates literals) = True :=
    fun row => eq_true (check_translates literals row)
  simp only [wp_updateBalance, hcheck, true_and]

theorem updateTicket_translates (t : Option String) (uid : String) (assign : Ticket → Ticket)
    {ticket : Ticket} {post : Unit → Database → Prop}
    (hticket : s.ticket? t (some uid) = some ticket) (hpending : ¬ ticket.status.Terminal)
    (hpost : ∀ s', post () s') :
    wp (updateTicket t uid assign) post (DbError.Translates literals) s := by
  unfold Database.ticket? at hticket
  unfold updateTicket
  simp only [wp_bind, wp_get, wp_ite]
  refine ⟨fun hdeposit => ?_, fun hwithdraw => ?_⟩
  · rw [if_pos hdeposit, Table.select_some] at hticket
    rw [hticket]
    exact (wp_updateDeposit uid ticket _).mpr
      ⟨fun hterminal => absurd hterminal.1 hpending, fun _ => hpost _⟩
  · rw [if_neg hwithdraw, Table.select_some] at hticket
    obtain ⟨w, hw, rfl⟩ := Option.map_eq_some_iff.mp hticket
    rw [hw]
    exact (wp_updateWithdraw uid w _).mpr
      ⟨fun hterminal => absurd hterminal.1 hpending, fun _ => hpost _⟩

/-! ## Functions -/

variable {literals}

theorem createDepositTicket_translates (d : Option Int) (c r g f : Option String)
    (a t p : Option Int)
    (hliterals : literals → ¬ IsNotIn g Region.texts ∧ ¬ IsNotIn f Faction.texts) :
    wp (createDepositTicket env d c r g f a t p) (fun _ _ => True) (DbError.Translates literals)
      s := by
  unfold createDepositTicket openTicket insertDeposit
  simp only [wp_bind, wp_get, wp_set, wp_pure, wp_throw, wp_require, wp_raiseIf, wp_dite,
    wp_notNull, wp_checkedText, wp_nextval, auditLogInsert_translates, translates_unquoted,
    translates_quoted, implies_true, and_true, true_and]
  intro _ _ _ _ _ _ _ _
  exact ⟨fun hregion hall => (hliterals hall).1 hregion,
    fun _ hfaction hall => (hliterals hall).2 hfaction⟩

theorem confirmDeposit_translates (u : Option String) (c : Option Int) :
    wp (confirmDeposit env u c) (fun _ _ => True) (DbError.Translates literals) s := by
  unfold confirmDeposit
  simp only [wp_bind, wp_get, wp_pure, wp_require, wp_raiseIf, wp_ite, wp_notNull,
    wp_nullableBigint, wp_insertUser, wp_insertBalance, wp_updateDeposit, wp_upsertCashierStats,
    updateBalance_translates, auditLogInsert_translates, translates_unquoted, implies_true,
    and_true, true_and]
  intro ticket _ _ hclaimed _ _ _ _
  have hpending : ¬ ticket.status.Terminal := by
    rw [not_not.mp hclaimed]
    decide
  simp only [hpending, false_and, false_implies, implies_true, and_self]

theorem cancelDeposit_translates (u : Option String) (a : Option Int) (r : Option String) :
    wp (cancelDeposit env u a r) (fun _ _ => True) (DbError.Translates literals) s := by
  unfold cancelDeposit
  simp only [wp_bind, wp_get, wp_pure, wp_require, wp_raiseIf, wp_updateDeposit,
    auditLogInsert_translates, translates_unquoted, implies_true, and_true, true_and]
  intro ticket _ hpending _ _
  simp only [hpending, false_and, false_implies]

theorem createWithdrawTicket_translates (d : Option Int) (c r g f : Option String)
    (a t p : Option Int)
    (hliterals : literals → ¬ IsNotIn g Region.texts ∧ ¬ IsNotIn f Faction.texts) :
    wp (createWithdrawTicket env d c r g f a t p) (fun _ _ => True) (DbError.Translates literals)
      s := by
  unfold createWithdrawTicket openTicket insertWithdraw
  simp only [wp_bind, wp_get, wp_set, wp_pure, wp_throw, wp_require, wp_raiseIf, wp_dite,
    wp_notNull, wp_checkedText, wp_nextval, wp_nullableBigint, updateBalance_translates,
    auditLogInsert_translates, translates_unquoted, translates_quoted, implies_true, and_true,
    true_and]
  intro _ _ _ _ _ _ _ _ _
  exact ⟨fun hregion hall => (hliterals hall).1 hregion,
    fun _ hfaction hall => (hliterals hall).2 hfaction⟩

theorem confirmWithdraw_translates (u : Option String) (c : Option Int) :
    wp (confirmWithdraw env u c) (fun _ _ => True) (DbError.Translates literals) s := by
  unfold confirmWithdraw
  simp only [wp_bind, wp_get, wp_pure, wp_require, wp_raiseIf, wp_ite, wp_notNull,
    wp_updateWithdraw, wp_upsertCashierStats, updateBalance_translates, auditLogInsert_translates,
    translates_unquoted, implies_true, and_true, true_and]
  intro ticket _ _ hclaimed _ _ _ _
  have hpending : ¬ ticket.status.Terminal := by
    rw [not_not.mp hclaimed]
    decide
  simp only [hpending, false_and, false_implies, implies_true, and_self]

theorem cancelWithdraw_translates (u : Option String) (a : Option Int) (r : Option String) :
    wp (cancelWithdraw env u a r) (fun _ _ => True) (DbError.Translates literals) s := by
  unfold cancelWithdraw
  simp only [wp_bind, wp_get, wp_pure, wp_require, wp_raiseIf, wp_ifDo, wp_nullableBigint,
    wp_updateWithdraw, wp_upsertCashierStats, updateBalance_translates, auditLogInsert_translates,
    translates_unquoted, implies_true, and_true, true_and]
  intro ticket _ hpending _ _ _ _
  simp only [hpending, false_and, false_implies, implies_true, and_self]

theorem claimTicket_translates (t u : Option String) (c : Option Int) :
    wp (claimTicket env t u c) (fun _ _ => True) (DbError.Translates literals) s := by
  unfold claimTicket
  simp only [wp_bind, wp_get, wp_pure, wp_require, wp_raiseIf, auditLogInsert_translates,
    translates_unquoted, implies_true, true_and]
  rintro - ticket hticket hopen - uid rfl
  refine updateTicket_translates literals _ _ _ hticket ?_ fun _ => trivial
  rw [not_not.mp hopen]
  decide

theorem releaseTicket_translates (t u : Option String) (a : Option Int) :
    wp (releaseTicket env t u a) (fun _ _ => True) (DbError.Translates literals) s := by
  unfold releaseTicket
  simp only [wp_bind, wp_get, wp_pure, wp_require, wp_raiseIf, auditLogInsert_translates,
    translates_unquoted, implies_true, true_and]
  rintro - ticket hticket hclaimed - uid rfl
  refine updateTicket_translates literals _ _ _ hticket ?_ fun _ => trivial
  rw [not_not.mp hclaimed]
  decide

theorem treasurySweep_translates (a d : Option Int) (r : Option String) :
    wp (treasurySweep env a d r) (fun _ _ => True) (DbError.Translates literals) s := by
  unfold treasurySweep
  simp only [wp_bind, wp_get, wp_pure, wp_require, wp_raiseIf, updateBalance_translates,
    auditLogInsert_translates, translates_unquoted, implies_true, and_true]

theorem treasuryWithdrawToUser_translates (a u d : Option Int) (r : Option String) :
    wp (treasuryWithdrawToUser env a u d r) (fun _ _ => True) (DbError.Translates literals) s := by
  unfold treasuryWithdrawToUser
  simp only [wp_bind, wp_get, wp_pure, wp_require, wp_raiseIf, wp_notNull, wp_nullableBigint,
    wp_insertUser, wp_insertBalance, updateBalance_translates, auditLogInsert_translates,
    translates_unquoted, implies_true, and_true]

theorem openDispute_translates (t u : Option String) (o : Option Int) (e r : Option String) :
    wp (openDispute env t u o e r) (fun _ _ => True) (DbError.Translates literals) s := by
  unfold openDispute insertDispute
  simp only [wp_bind, wp_get, wp_set, wp_pure, wp_require, wp_raiseIf, wp_notNull, wp_checkedText,
    wp_nextval, auditLogInsert_translates, translates_unquoted, implies_true, and_true]

theorem resolveDispute_translates (d : Option Int) (c : Option String) (a b : Option Int)
    (hliterals : literals → ¬ IsNotIn c resolutions) :
    wp (resolveDispute env d c a b) (fun _ _ => True) (DbError.Translates literals) s := by
  unfold resolveDispute payRefund treasuryWithdrawToUser
  simp only [wp_bind, wp_get, wp_modify, wp_pure, wp_require, wp_raiseIf, wp_ifDo, wp_notNull,
    wp_nullableBigint, wp_insertUser, wp_insertBalance, updateBalance_translates,
    auditLogInsert_translates, translates_unquoted, translates_quoted, implies_true, and_true,
    true_and]
  exact fun _ _ _ haction hall => hliterals hall haction

theorem rejectDispute_translates (d : Option Int) (r : Option String) (a : Option Int) :
    wp (rejectDispute env d r a) (fun _ _ => True) (DbError.Translates literals) s := by
  unfold rejectDispute
  simp only [wp_bind, wp_get, wp_modify, wp_pure, wp_require, wp_raiseIf,
    auditLogInsert_translates, translates_unquoted, implies_true, and_true]

theorem addCashierCharacter_translates (d : Option Int) (c r g f : Option String) :
    wp (addCashierCharacter env d c r g f) (fun _ _ => True) (DbError.Translates literals) s := by
  unfold addCashierCharacter
  simp only [wp_bind, wp_get, wp_set, wp_pure, wp_raiseIf, wp_notNull, wp_checkedText, wp_nextval,
    auditLogInsert_translates, translates_unquoted, implies_true, and_true]

theorem removeCashierCharacter_translates (d : Option Int) (c r g : Option String) :
    wp (removeCashierCharacter env d c r g) (fun _ _ => True) (DbError.Translates literals) s := by
  unfold removeCashierCharacter
  simp only [wp_bind, wp_get, wp_set, wp_pure, wp_require, auditLogInsert_translates,
    translates_unquoted, implies_true, and_true]

theorem setCashierStatus_translates (d : Option Int) (t : Option String)
    (hliterals : literals → ¬ IsNotIn t CashierState.texts) :
    wp (setCashierStatus env d t) (fun _ _ => True) (DbError.Translates literals) s := by
  unfold setCashierStatus insertSession endSessions
  simp only [wp_bind, wp_get, wp_set, wp_modify, wp_pure, wp_raiseIf, wp_ifDo, wp_notNull,
    wp_checkedText, wp_nextval, auditLogInsert_translates, translates_unquoted, translates_quoted,
    implies_true, and_true]
  exact fun hstatus hall => hliterals hall hstatus

theorem expireCashier_translates (d : Option Int) :
    wp (expireCashier env d) (fun _ _ => True) (DbError.Translates literals) s := by
  unfold expireCashier endSessions
  simp only [wp_bind, wp_get, wp_set, wp_modify, wp_pure, wp_raiseIf, wp_notNull,
    auditLogInsert_translates, translates_unquoted, implies_true, and_true]

theorem banUser_translates (u : Option Int) (r : Option String) (a : Option Int) :
    wp (banUser env u r a) (fun _ _ => True) (DbError.Translates literals) s := by
  unfold banUser
  simp only [wp_bind, wp_get, wp_set, wp_pure, wp_raiseIf, wp_notNull, wp_insertUser,
    wp_insertBalance, auditLogInsert_translates, translates_unquoted, implies_true, and_true]

theorem unbanUser_translates (u a : Option Int) :
    wp (unbanUser env u a) (fun _ _ => True) (DbError.Translates literals) s := by
  unfold unbanUser
  simp only [wp_bind, wp_get, wp_set, wp_pure, wp_require, wp_raiseIf, auditLogInsert_translates,
    translates_unquoted, implies_true, and_true]

end Statements

/-! ## Every wrapper -/

variable {env : Env} {s : Database}

theorem callBody_translates {call : Call} (hwrapped : call.Wrapped) :
    wp (callBody env call) (fun _ _ => True) (DbError.Translates call.Literals) s := by
  cases call <;> first | exact hwrapped.elim | simp only [callBody, wp_bind, wp_pure]
  case createDepositTicket => exact createDepositTicket_translates _ _ _ _ _ _ _ _ fun h => h
  case confirmDeposit => exact confirmDeposit_translates ..
  case cancelDeposit => exact cancelDeposit_translates ..
  case createWithdrawTicket => exact createWithdrawTicket_translates _ _ _ _ _ _ _ _ fun h => h
  case confirmWithdraw => exact confirmWithdraw_translates ..
  case cancelWithdraw => exact cancelWithdraw_translates ..
  case claimTicket => exact claimTicket_translates ..
  case releaseTicket => exact releaseTicket_translates ..
  case openDispute => exact openDispute_translates ..
  case resolveDispute => exact resolveDispute_translates _ _ _ _ fun h => h
  case rejectDispute => exact rejectDispute_translates ..
  case treasurySweep => exact treasurySweep_translates ..
  case treasuryWithdrawToUser => exact treasuryWithdrawToUser_translates ..
  case addCashierCharacter => exact addCashierCharacter_translates ..
  case removeCashierCharacter => exact removeCashierCharacter_translates ..
  case setCashierStatus => exact setCashierStatus_translates _ _ fun h => h
  case expireCashier => exact expireCashier_translates ..
  case banUser => exact banUser_translates ..
  case unbanUser => exact unbanUser_translates ..

/-- What reaches the caller of a wrapper when the database raises `e`: the driver's error, or
the exception with the message of `e`. Its class is that of the statement, unless a text that
the message quotes holds the sentinel of an entry further up the table. -/
structure WrapperError.Reports (literals : Prop) (e : DbError) (error : WrapperError) : Prop where
  driver : e.IsRaise = false → error = .driver e
  balance : e.IsRaise = true → ∃ named translated, e.errorClass = some named ∧
    error = .balance translated ∧ translated.message = e.message ∧
      (translated.errorClass = named ↔
        ∀ entry ∈ aheadOf sentinels named, ∀ text ∈ e.format.quotes, ¬ entry.1 <:+: lower text) ∧
      (literals → translated.errorClass = named)

/-- Whatever a wrapped function raises, in any state and on any arguments, its caller gets the
exception of the statement that raised it. -/
theorem wrapper_reports {call : Call} (hwrapped : call.Wrapped) {e : DbError}
    (hraised : (call.exec env s).1 = .error e) :
    ∃ error, (wrapped (callBody env call) s).1 = .error error ∧ error.Reports call.Literals e := by
  have htranslates := transact_raises Database.rollback (callBody_translates hwrapped) hraised
  refine ⟨translateRaise e, ?_, ?_, ?_⟩
  · have hended : (transact Database.rollback (callBody env call) s).1 = .error e := hraised
    rw [wrapped, hended]
    rfl
  · intro hdriver
    simp [translateRaise, hdriver]
  · intro hraise
    obtain ⟨named, hclass⟩ := htranslates.1.resolve_left (by simp [hraise])
    refine ⟨named, translatePgError e.message, hclass, by simp [translateRaise, hraise], rfl,
      translatePgError_class hclass, fun hliterals => ?_⟩
    rw [translatePgError_of_unquoted hclass (htranslates.2 hliterals)]

/-- An admin's slip: a status that is none, and whose text is a sentinel. -/
theorem wrapper_reports_stray :
    ∃ error, (wrapped (callBody .plain (.setCashierStatus (some 7) (some "user_not_registered")))
        .seeded).1 = .error error ∧
      error.Reports (Call.setCashierStatus (some 7) (some "user_not_registered")).Literals
        (.invalidStatus (some "user_not_registered")) :=
  @wrapper_reports .plain .seeded (.setCashierStatus (some 7) (some "user_not_registered")) trivial
    _ rfl

end DeathRoll
