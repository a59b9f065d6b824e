import DeathRoll.Ledger.RefineLuck

/-! # Errors about locked funds

Which calls can fail because too little is locked: only those that release a
lock, and those only when the lock is short. The other errors are spared.
-/

namespace DeathRoll

open Relational Tx

/-- Any error but the two that report locked funds too low. -/
@[simp] def DbError.Spared : DbError → Prop
  | .invariantViolationLockedTooLow _ _ => False
  | .checkViolation name => name ≠ "balances_locked_balance_check"
  | _ => True

/-! ## When locks cannot be short -/

/-- Rates are not negative and take at most the whole bet. -/
structure Database.SoundRates (s : Database) : Prop where
  commission : ∀ game, 0 ≤ commissionBpsOf s.gameConfig game
  rake : 0 ≤ s.rakeBps
  total : ∀ game, commissionBpsOf s.gameConfig game + s.rakeBps ≤ 10000

/-- Sound rates, and the smallest withdraw is not negative either. -/
structure Database.SoundConfig (s : Database) : Prop extends s.SoundRates where
  minWithdraw : ∀ minimum, s.dwInt "min_withdraw_g" = some minimum → 0 ≤ minimum

/-- Every pending withdraw and every open bet is covered by its owner's lock. -/
structure Database.Backed (s : Database) : Prop where
  withdraw : ∀ uid ticket, s.withdrawTickets.get? uid = some ticket → ¬ ticket.status.Terminal →
    ticket.amount ≤ s.lockedOf ticket.discordId
  stake : ∀ id bet, s.bets.get? id = some bet → bet.status = .open →
    bet.effectiveStake ≤ s.lockedOf bet.discordId

variable {env : Env} {s : Database}

/-- The stake of a bet at sound rates. -/
theorem stake_nonneg {amount commission rake : Int} (hamount : 0 < amount)
    (hcommission : 0 ≤ commission) (hrake : 0 ≤ rake) (htotal : commission + rake ≤ 10000) :
    0 ≤ amount - (amount * commission).tdiv 10000 - (amount * rake).tdiv 10000 := by
  rw [Int.tdiv_eq_ediv_of_nonneg (mul_nonneg hamount.le hcommission),
    Int.tdiv_eq_ediv_of_nonneg (mul_nonneg hamount.le hrake)]
  have hshares : amount * commission + amount * rake ≤ amount * 10000 := by
    rw [← mul_add]
    exact mul_le_mul_of_nonneg_left htotal hamount.le
  omega

/-- The other check constraints that the ledger functions can break. -/
theorem constraint_names_ne :
    ("region" ≠ "balances_locked_balance_check" ∧ "faction" ≠ "balances_locked_balance_check" ∧
      "ticket_type" ≠ "balances_locked_balance_check" ∧
      "opener_role" ≠ "balances_locked_balance_check" ∧
      "status" ≠ "balances_locked_balance_check") ∧
    "deposit_tickets" ++ "_amount_check" ≠ "balances_locked_balance_check" ∧
    "withdraw_tickets" ++ "_amount_check" ≠ "balances_locked_balance_check" ∧
    "withdraw_tickets_fee_check" ≠ "balances_locked_balance_check" ∧
    "raffle_periods_pool_amount_check" ≠ "balances_locked_balance_check" ∧
    "bets_bet_amount_check" ≠ "balances_locked_balance_check" ∧
    "bets_payout_amount_check" ≠ "balances_locked_balance_check" := by
  decide

theorem not_isLt_of_backed {u amount : Int} (hbacked : amount ≤ s.lockedOf u) :
    ¬ IsLt (s.lockedBalance? (some u)) (some amount) := by
  rintro ⟨locked, _, hlocked, heq, hlt⟩
  obtain rfl := Option.some.inj heq
  rw [Database.lockedOf, hlocked] at hbacked
  exact absurd hlt (not_lt.mpr hbacked)

/-! ## Statements -/

theorem chainKey_spared (env : Env) : ∀ e, env.chainKey = .error e → e.Spared := by
  intro e herror
  unfold Env.chainKey at herror
  split at herror <;> cases herror <;> exact trivial

theorem auditLogInsert_spares {post : Int → Database → Prop} (p : AuditParams) :
    wp (auditLogInsertWithChain env p) post DbError.Spared s ↔
      ∀ key actorId targetId action before after refType, env.chainKey = .ok key →
        p.actorId = some actorId → p.targetId = some targetId → p.action = some action →
        p.balanceBefore = some before → p.balanceAfter = some after → p.refType = some refType →
        ¬ s.users.get? targetId = none →
        post (s.sequences .auditLog + 1)
          (s.withAudit env key ⟨env.now, p.actorType, actorId, targetId, action, p.amount, before,
            after, p.reason, refType, p.refId, p.botName, p.metadata⟩) := by
  rw [wp_auditLogInsertWithChain]
  constructor
  · rintro ⟨-, hpost⟩ key actorId targetId action before after refType hkey hactor htarget haction
      hbefore hafter href huser
    exact ((((((((hpost key hkey).2 actorId hactor).2 targetId htarget).2 action haction).2 before
      hbefore).2 after hafter).2 refType href).2 huser)
  · intro hpost
    refine ⟨chainKey_spared env, fun key hkey => ⟨fun _ => trivial, fun actorId hactor =>
      ⟨fun _ => trivial, fun targetId htarget => ⟨fun _ => trivial, fun action haction =>
      ⟨fun _ => trivial, fun before hbefore => ⟨fun _ => trivial, fun after hafter =>
      ⟨fun _ => trivial, fun refType href => ⟨fun _ => trivial, fun huser => ?_⟩⟩⟩⟩⟩⟩⟩⟩
    exact hpost key actorId targetId action before after refType hkey hactor htarget haction
      hbefore hafter href huser

/-- A row fails the check of its locked balance only when that is negative. -/
theorem check_spares (row : BalanceRow) :
    (∀ e, Balance.check row = .error e → e.Spared) ↔
      (row.InRange → 0 ≤ row.balance → 0 ≤ row.lockedBalance) := by
  unfold Balance.check
  by_cases hrange : row.InRange
  · by_cases hbalance : 0 ≤ row.balance
    · by_cases hlocked : 0 ≤ row.lockedBalance
      · by_cases hwagered : 0 ≤ row.totalWagered
        · by_cases hwon : 0 ≤ row.totalWon <;>
            simp [hrange, hbalance, hlocked, hwagered, hwon, DbError.Spared]
        · simp [hrange, hbalance, hlocked, hwagered, DbError.Spared]
      · simp [hrange, hbalance, hlocked, DbError.Spared]
    · simp [hrange, hbalance, DbError.Spared]
  · simp [hrange, DbError.Spared]

theorem updateBalance_spares {post : Unit → Database → Prop} (u : Int)
    (assign : BalanceRow → BalanceRow) :
    wp (updateBalance u assign) post DbError.Spared s ↔
      (s.balances.get? u = none → post () s) ∧
        ∀ row, s.balances.get? u = some row →
          ((assign row.toBalanceRow).InRange → 0 ≤ (assign row.toBalanceRow).balance →
            0 ≤ (assign row.toBalanceRow).lockedBalance) ∧
          ∀ new : Balance, new.toBalanceRow = assign row.toBalanceRow →
            post () (s.setBalance u new) := by
  simp only [wp_updateBalance, check_spares]

/-! ## Functions that keep locks -/

theorem createDepositTicket_spares (d : Option Int) (c r g f : Option String) (a t p : Option Int) :
    wp (createDepositTicket env d c r g f a t p) (fun _ _ => True) DbError.Spared s := by
  unfold createDepositTicket openTicket insertDeposit
  simp only [wp_bind, wp_get, wp_set, wp_pure, wp_throw, wp_require, wp_raiseIf, wp_dite,
    wp_notNull, wp_checkedText, wp_nextval, auditLogInsert_spares, DbError.Spared,
    constraint_names_ne, ne_eq, not_false_eq_true, implies_true, and_true]

theorem confirmDeposit_spares (u : Option String) (c : Option Int) :
    wp (confirmDeposit env u c) (fun _ _ => True) DbError.Spared s := by
  unfold confirmDeposit
  simp only [wp_bind, wp_get, wp_pure, wp_require, wp_raiseIf, wp_ite, wp_notNull,
    wp_nullableBigint, wp_insertUser, wp_insertBalance, wp_updateDeposit, wp_upsertCashierStats,
    updateBalance_spares, auditLogInsert_spares, Balance.lockedBalance_nonneg, DbError.Spared,
    ne_eq, implies_true, and_true]

theorem cancelDeposit_spares (u : Option String) (a : Option Int) (r : Option String) :
    wp (cancelDeposit env u a r) (fun _ _ => True) DbError.Spared s := by
  unfold cancelDeposit
  simp only [wp_bind, wp_get, wp_pure, wp_require, wp_raiseIf, wp_updateDeposit,
    auditLogInsert_spares, DbError.Spared, ne_eq, implies_true, and_true]

theorem treasurySweep_spares (a d : Option Int) (r : Option String) :
    wp (treasurySweep env a d r) (fun _ _ => True) DbError.Spared s := by
  unfold treasurySweep
  simp only [wp_bind, wp_get, wp_pure, wp_require, wp_raiseIf, updateBalance_spares,
    auditLogInsert_spares, Balance.lockedBalance_nonneg, DbError.Spared, implies_true, and_true]

theorem treasuryWithdrawToUser_spares (a u d : Option Int) (r : Option String) :
    wp (treasuryWithdrawToUser env a u d r) (fun _ _ => True) DbError.Spared s := by
  unfold treasuryWithdrawToUser
  simp only [wp_bind, wp_get, wp_pure, wp_require, wp_raiseIf, wp_notNull, wp_nullableBigint,
    wp_insertUser, wp_insertBalance, updateBalance_spares, auditLogInsert_spares,
    Balance.lockedBalance_nonneg, DbError.Spared, implies_true, and_true]

theorem openDispute_spares (t u : Option String) (o : Option Int) (e r : Option String) :
    wp (openDispute env t u o e r) (fun _ _ => True) DbError.Spared s := by
  unfold openDispute insertDispute
  simp only [wp_bind, wp_get, wp_set, wp_pure, wp_require, wp_raiseIf, wp_notNull, wp_checkedText,
    wp_nextval, auditLogInsert_spares, DbError.Spared, constraint_names_ne, ne_eq,
    not_false_eq_true, implies_true, and_true]

theorem rejectDispute_spares (d : Option Int) (r : Option String) (a : Option Int) :
    wp (rejectDispute env d r a) (fun _ _ => True) DbError.Spared s := by
  unfold rejectDispute
  simp only [wp_bind, wp_get, wp_modify, wp_pure, wp_require, wp_raiseIf, auditLogInsert_spares,
    DbError.Spared, implies_true, and_true]

theorem addCashierCharacter_spares (d : Option Int) (c r g f : Option String) :
    wp (addCashierCharacter env d c r g f) (fun _ _ => True) DbError.Spared s := by
  unfold addCashierCharacter
  simp only [wp_bind, wp_get, wp_set, wp_pure, wp_raiseIf, wp_notNull, wp_checkedText, wp_nextval,
    auditLogInsert_spares, DbError.Spared, constraint_names_ne, ne_eq, not_false_eq_true,
    implies_true, and_true]

theorem removeCashierCharacter_spares (d : Option Int) (c r g : Option String) :
    wp (removeCashierCharacter env d c r g) (fun _ _ => True) DbError.Spared s := by
  unfold removeCashierCharacter
  simp only [wp_bind, wp_get, wp_set, wp_pure, wp_require, auditLogInsert_spares, DbError.Spared,
    implies_true, and_true]

theorem setCashierStatus_spares (d : Option Int) (t : Option String) :
    wp (setCashierStatus env d t) (fun _ _ => True) DbError.Spared s := by
  unfold setCashierStatus insertSession endSessions
  simp only [wp_bind, wp_get, wp_set, wp_modify, wp_pure, wp_raiseIf, wp_ifDo, wp_notNull,
    wp_checkedText, wp_nextval, auditLogInsert_spares, DbError.Spared, constraint_names_ne, ne_eq,
    not_false_eq_true, implies_true, and_true]

theorem expireCashier_spares (d : Option Int) :
    wp (expireCashier env d) (fun _ _ => True) DbError.Spared s := by
  unfold expireCashier endSessions
  simp only [wp_bind, wp_get, wp_set, wp_modify, wp_pure, wp_raiseIf, wp_notNull,
    auditLogInsert_spares, DbError.Spared, ne_eq, implies_true, and_true]

theorem banUser_spares (u : Option Int) (r : Option String) (a : Option Int) :
    wp (banUser env u r a) (fun _ _ => True) DbError.Spared s := by
  unfold banUser
  simp only [wp_bind, wp_get, wp_set, wp_pure, wp_raiseIf, wp_notNull, wp_insertUser,
    wp_insertBalance, auditLogInsert_spares, DbError.Spared, implies_true, and_true]

theorem unbanUser_spares (u a : Option Int) :
    wp (unbanUser env u a) (fun _ _ => True) DbError.Spared s := by
  unfold unbanUser
  simp only [wp_bind, wp_get, wp_set, wp_pure, wp_require, wp_raiseIf, auditLogInsert_spares,
    DbError.Spared, implies_true, and_true]

theorem consumeRateToken_spares (d : Option Int) (p : Option String) (w m : Option Int) :
    wp (consumeRateToken env d p w m) (fun _ _ => True) DbError.Spared s := by
  unfold consumeRateToken
  simp only [wp_bind, wp_get, wp_set, wp_pure, wp_raiseIf, wp_notNull, DbError.Spared, implies_true,
    and_true]

theorem resolveDispute_spares (d : Option Int) (c : Option String) (a b : Option Int) :
    wp (resolveDispute env d c a b) (fun _ _ => True) DbError.Spared s := by
  unfold resolveDispute payRefund treasuryWithdrawToUser
  simp only [wp_bind, wp_get, wp_modify, wp_pure, wp_require, wp_raiseIf, wp_ifDo, wp_notNull,
    wp_nullableBigint, wp_insertUser, wp_insertBalance, updateBalance_spares, auditLogInsert_spares,
    Balance.lockedBalance_nonneg, DbError.Spared, ne_eq, implies_true, and_true]

theorem insertRaffleTickets_spares (ticket : RaffleTicket) (count : Nat) :
    wp (insertRaffleTickets ticket count) (fun _ _ => True) DbError.Spared s := by
  induction count generalizing s with
  | zero => trivial
  | succ count ih =>
      unfold insertRaffleTickets
      simp only [wp_bind, wp_get, wp_set, wp_raiseIf, wp_nextval, DbError.Spared, ne_eq,
        implies_true, true_and]
      exact fun _ => ih

theorem grantRaffleTickets_spares (d p n b : Option Int) :
    wp (grantRaffleTickets env d p n b) (fun _ _ => True) DbError.Spared s := by
  unfold grantRaffleTickets
  simp only [insertRaffleTickets_spares, wp_bind, wp_get, wp_pure, wp_require, wp_raiseIf, wp_ite,
    wp_notNull, DbError.Spared, ne_eq, implies_true, and_true]

theorem updateTicket_spares (t : Option String) (uid : String) (assign : Ticket → Ticket)
    {post : Unit → Database → Prop} (hpost : ∀ s', post () s') :
    wp (updateTicket t uid assign) post DbError.Spared s := by
  unfold updateTicket
  simp only [wp_bind, wp_get, wp_ite]
  constructor
  · intro _
    cases s.depositTickets.get? uid with
    | none => exact hpost s
    | some ticket => exact (wp_updateDeposit uid ticket _).mpr ⟨fun _ => trivial, fun _ => hpost _⟩
  · intro _
    cases s.withdrawTickets.get? uid with
    | none => exact hpost s
    | some ticket => exact (wp_updateWithdraw uid ticket _).mpr ⟨fun _ => trivial, fun _ => hpost _⟩

theorem claimTicket_spares (t u : Option String) (c : Option Int) :
    wp (claimTicket env t u c) (fun _ _ => True) DbError.Spared s := by
  unfold claimTicket
  simp only [wp_bind, wp_get, wp_pure, wp_require, wp_raiseIf, auditLogInsert_spares,
    DbError.Spared, ne_eq, implies_true, true_and]
  intros
  exact updateTicket_spares _ _ _ fun _ => trivial

theorem releaseTicket_spares (t u : Option String) (a : Option Int) :
    wp (releaseTicket env t u a) (fun _ _ => True) DbError.Spared s := by
  unfold releaseTicket
  simp only [wp_bind, wp_get, wp_pure, wp_require, wp_raiseIf, auditLogInsert_spares,
    DbError.Spared, ne_eq, implies_true, true_and]
  intros
  exact updateTicket_spares _ _ _ fun _ => trivial

/-! ## Functions that lock and release -/

theorem createWithdrawTicket_spares (hconfig : s.SoundConfig) (d : Option Int)
    (c r g f : Option String) (a t p : Option Int) :
    wp (createWithdrawTicket env d c r g f a t p) (fun _ _ => True) DbError.Spared s := by
  unfold createWithdrawTicket openTicket insertWithdraw
  simp only [wp_bind, wp_get, wp_set, wp_pure, wp_throw, wp_require, wp_raiseIf, wp_dite,
    wp_notNull, wp_checkedText, wp_nextval, wp_nullableBigint, updateBalance_spares,
    auditLogInsert_spares, DbError.Spared, constraint_names_ne, ne_eq, not_false_eq_true,
    implies_true, and_true, true_and]
  intro minimum hminimum _ _ _ _ _ _ hamount _ _ _ _ _ _ _ user _ amount hsome row _ _ _
  have hlocked := row.lockedBalance_nonneg
  have hnonneg := hconfig.minWithdraw minimum hminimum
  rw [hsome, isLt_some, not_or] at hamount
  omega

theorem confirmWithdraw_spares (hs : s.Backed) (u : Option String) (c : Option Int) :
    wp (confirmWithdraw env u c) (fun _ _ => True) DbError.Spared s := by
  unfold confirmWithdraw
  simp only [wp_bind, wp_get, wp_pure, wp_require, wp_raiseIf, wp_ite, wp_notNull,
    wp_updateWithdraw, wp_upsertCashierStats, updateBalance_spares, auditLogInsert_spares,
    Balance.lockedBalance_nonneg, DbError.Spared, ne_eq, implies_true, and_true, true_and]
  intro ticket hticket _ hstatus _
  obtain ⟨uid, rfl, hget⟩ := Table.select_eq_some.mp hticket
  have hopen : ¬ ticket.status.Terminal := by
    rw [not_not.mp hstatus]
    decide
  have hbacked := hs.withdraw uid ticket hget hopen
  constructor
  · exact not_isLt_of_backed hbacked
  · intro _ _ _ row hrow _ _
    rw [lockedOf_of_get? hrow] at hbacked
    omega

theorem cancelWithdraw_spares (hs : s.Backed) (u : Option String) (a : Option Int)
    (r : Option String) :
    wp (cancelWithdraw env u a r) (fun _ _ => True) DbError.Spared s := by
  unfold cancelWithdraw
  simp only [wp_bind, wp_get, wp_pure, wp_require, wp_raiseIf, wp_ifDo, wp_nullableBigint,
    wp_updateWithdraw, wp_upsertCashierStats, updateBalance_spares, auditLogInsert_spares,
    DbError.Spared, ne_eq, implies_true, and_true, true_and]
  intro ticket hticket hstatus
  obtain ⟨uid, rfl, hget⟩ := Table.select_eq_some.mp hticket
  have hbacked := hs.withdraw uid ticket hget hstatus
  constructor
  · exact not_isLt_of_backed hbacked
  · intro _ _ _ _ row hrow _ _
    rw [lockedOf_of_get? hrow] at hbacked
    omega

theorem applyBet_spares (hconfig : s.SoundConfig) (d : Option Int) (g : Option String)
    (c b : Option Int) (e : Option Json) (h : Option Bytes) (k : Option String) (n : Option Int)
    (i u : Option String) :
    wp (applyBet env d g c b e h k n i u) (fun _ _ => True) DbError.Spared s := by
  unfold applyBet openBet insertBet
  simp only [wp_bind, wp_get, wp_set, wp_pure, wp_throw, wp_require, wp_raiseIf, wp_ifDo, wp_ite,
    wp_dite, wp_notNull, wp_nextval, wp_nullableBigint, wp_bpsShare, wp_addToPool,
    updateBalance_spares, auditLogInsert_spares, Balance.lockedBalance_nonneg, DbError.Spared,
    constraint_names_ne, ne_eq, not_false_eq_true, implies_true, and_true, true_and]
  intro _ game hgame _ hrange _ _ _ _ _ _ _ _ _ user huser amount hamount stake hstake row hrow _ _
  subst hamount
  simp only [Option.map_some, Option.getD_some, Option.some.injEq] at hstake
  rw [isLt_some, isLt_some, not_or] at hrange
  have hpositive := game.minBet_pos
  obtain ⟨name, rfl, hget⟩ := Table.select_eq_some.mp hgame
  have hbps : commissionBpsOf s.gameConfig name = game.commissionBps.getD 0 := by
    simp [commissionBpsOf, hget]
  have hnonneg := stake_nonneg (by omega : 0 < amount) (hconfig.commission name) hconfig.rake
    (hconfig.total name)
  rw [hbps, hstake] at hnonneg
  have hlocked := row.lockedBalance_nonneg
  omega

theorem resolveBet_spares (hs : s.Backed) (b : Option Int) (t : Option String) (p : Option Int)
    (o : Option Json) : wp (resolveBet env b t p o) (fun _ _ => True) DbError.Spared s := by
  unfold resolveBet closeBet
  simp only [wp_bind, wp_get, wp_modify, wp_pure, wp_throw, wp_require, wp_raiseIf, wp_ifDo, wp_ite,
    wp_dite, wp_notNull, wp_checkedText, wp_nullableBigint, updateBalance_spares,
    auditLogInsert_spares, Balance.lockedBalance_nonneg, DbError.Spared, constraint_names_ne, ne_eq,
    not_false_eq_true, implies_true, and_true, true_and]
  intro _ _ bet hbet _ hopen _ credit _ row hrow _ _
  obtain ⟨id, rfl, hget⟩ := Table.select_eq_some.mp hbet
  have hbacked := hs.stake id bet hget (not_not.mp hopen)
  rw [lockedOf_of_get? hrow] at hbacked
  omega

theorem refundBet_spares (hs : s.Backed) (b : Option Int) (r : Option String) :
    wp (refundBet env b r) (fun _ _ => True) DbError.Spared s := by
  unfold refundBet closeBet
  simp only [wp_bind, wp_get, wp_modify, wp_pure, wp_throw, wp_require, wp_raiseIf, wp_ifDo, wp_ite,
    wp_dite, wp_addToPool, updateBalance_spares, auditLogInsert_spares,
    Balance.lockedBalance_nonneg, DbError.Spared, constraint_names_ne, ne_eq, not_false_eq_true,
    implies_true, and_true, true_and]
  intro bet hbet _ hopen row hrow _ _
  obtain ⟨id, rfl, hget⟩ := Table.select_eq_some.mp hbet
  have hbacked := hs.stake id bet hget (not_not.mp hopen)
  rw [lockedOf_of_get? hrow] at hbacked
  omega

theorem cashoutMines_spares (hs : s.Backed) (b : Option Int) (m : Option Numeric) :
    wp (cashoutMines env b m) (fun _ _ => True) DbError.Spared s := by
  unfold cashoutMines
  simp only [wp_bind, wp_get, wp_require, wp_raiseIf, wp_nullableBigint, DbError.Spared, ne_eq,
    implies_true, true_and]
  intros
  exact resolveBet_spares hs ..

/-! ## Every call -/

/-- A call fails on locked funds only when a lock is short or the configuration
is unsound. -/
theorem callBody_spares (hs : s.Backed) (hconfig : s.SoundConfig) (call : Call) :
    wp (callBody env call) (fun _ _ => True) DbError.Spared s := by
  cases call <;> simp only [callBody, wp_bind, wp_pure]
  case createDepositTicket => exact createDepositTicket_spares ..
  case confirmDeposit => exact confirmDeposit_spares ..
  case cancelDeposit => exact cancelDeposit_spares ..
  case createWithdrawTicket => exact createWithdrawTicket_spares hconfig ..
  case confirmWithdraw => exact confirmWithdraw_spares hs ..
  case cancelWithdraw => exact cancelWithdraw_spares hs ..
  case claimTicket => exact claimTicket_spares ..
  case releaseTicket => exact releaseTicket_spares ..
  case openDispute => exact openDispute_spares ..
  case resolveDispute => exact resolveDispute_spares ..
  case rejectDispute => exact rejectDispute_spares ..
  case treasurySweep => exact treasurySweep_spares ..
  case treasuryWithdrawToUser => exact treasuryWithdrawToUser_spares ..
  case addCashierCharacter => exact addCashierCharacter_spares ..
  case removeCashierCharacter => exact removeCashierCharacter_spares ..
  case setCashierStatus => exact setCashierStatus_spares ..
  case expireCashier => exact expireCashier_spares ..
  case banUser => exact banUser_spares ..
  case unbanUser => exact unbanUser_spares ..
  case applyBet => exact applyBet_spares hconfig ..
  case resolveBet => exact resolveBet_spares hs ..
  case refundBet => exact refundBet_spares hs ..
  case cashoutMines => exact cashoutMines_spares hs ..
  case consumeRateToken => exact consumeRateToken_spares ..
  case grantRaffleTickets => exact grantRaffleTickets_spares ..

end DeathRoll
