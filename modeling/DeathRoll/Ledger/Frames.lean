import DeathRoll.Ledger.Locked

/-! # What the functions leave alone

Few functions write the wagered totals and the bets, the cashiers' statistics, or the
cashiers' status and sessions. All others leave these as they are, and each of the few
writes one of the three.
-/

namespace DeathRoll

open Relational Tx

variable {env : Env} {s s' : Database}

/-! ## What is in view -/

/-- The wagered total of an account, 0 without one. -/
def Database.wageredOf (s : Database) (discordId : Int) : Int :=
  ((s.balances.get? discordId).map fun row => row.totalWagered).getD 0

/-- All wagered totals, and the bets. -/
def Database.wagers (s : Database) : (Int → Int) × Table Int Bet := (s.wageredOf, s.bets)

/-- The cashiers at work, and their sessions. -/
def Database.roster (s : Database) : Table Int CashierStatus × Table Int CashierSession :=
  (s.cashierStatus, s.cashierSessions)

/-- What few functions write: the wagers and the tables of the cashiers. -/
def Database.observed (s : Database) := (s.wagers, s.cashierStats, s.roster)

/-- The tables of the cashiers. -/
def Database.cashiers (s : Database) := (s.cashierStats, s.roster)

/-- What the functions see that count for a cashier. -/
def Database.uncounted (s : Database) := (s.wagers, s.roster)

/-- What the functions see that move a cashier. -/
def Database.unmoved (s : Database) := (s.wagers, s.cashierStats)

theorem wageredOf_of_get? {u : Int} {row : Balance} (hrow : s.balances.get? u = some row) :
    s.wageredOf u = row.totalWagered := by
  simp [Database.wageredOf, hrow]

theorem wageredOf_nonneg (s : Database) (u : Int) : 0 ≤ s.wageredOf u := by
  cases hrow : s.balances.get? u with
  | none => simp [Database.wageredOf, hrow]
  | some row =>
      rw [wageredOf_of_get? hrow]
      exact row.totalWagered_nonneg

theorem wageredOf_setBalance {u : Int} {old : Balance} (hold : s.balances.get? u = some old)
    (new : Balance) :
    (s.setBalance u new).wageredOf = Function.update s.wageredOf u new.totalWagered := by
  funext v
  by_cases hv : v = u
  · subst hv
    simp [Database.wageredOf, Table.get?_set_self hold]
  · simp [Database.wageredOf, Table.get?_set_of_ne _ hv, hv]

/-- A user's row is created with nothing wagered. -/
theorem wageredOf_addBalance (u : Int) : (s.addBalance u .zero).wageredOf = s.wageredOf := by
  funext v
  simp only [Database.wageredOf, Database.addBalance_balances, Table.get?_insertNew]
  split
  next heq =>
    subst heq
    cases s.balances.get? v <;> rfl
  next => rfl

/-! ## Statements -/

theorem updateBalance_keeps {u : Int} {assign : BalanceRow → BalanceRow}
    (hassign : ∀ row, (assign row).totalWagered = row.totalWagered) :
    (updateBalance u assign).Keeps Database.observed := by
  refine fun s => (wp_updateBalance u assign).mpr ⟨fun _ => rfl, fun old hold =>
    ⟨fun _ _ => trivial, fun new hnew => Prod.ext (Prod.ext ?_ rfl) rfl⟩⟩
  have hsame : new.totalWagered = s.wageredOf u := by
    rw [wageredOf_of_get? hold, ← hassign old.toBalanceRow, ← hnew]
  simp only [Database.observed, Database.wagers, wageredOf_setBalance hold, hsame,
    Function.update_eq_self]

theorem ifDo_updateBalance_keeps {c : Prop} [Decidable c] {u : Int}
    {assign : BalanceRow → BalanceRow}
    (hassign : ∀ row, (assign row).totalWagered = row.totalWagered) :
    (ifDo c (updateBalance u assign)).Keeps Database.observed :=
  (updateBalance_keeps hassign).ifDo c

theorem insertBalance_keeps {u : Int} : (insertBalance u).Keeps Database.observed :=
  keeps_modify fun _ => Prod.ext (Prod.ext (wageredOf_addBalance u) rfl) rfl

theorem addToPool_keeps {period amount : Int} : (addToPool period amount).Keeps Database.observed :=
  fun _ => (wp_addToPool period amount).mpr
    ⟨fun _ => rfl, fun _ _ => ⟨fun _ => trivial, fun _ _ => trivial, fun _ _ _ => rfl⟩⟩

theorem auditLogInsert_keeps {env : Env} {p : AuditParams} :
    (auditLogInsertWithChain env p).Keeps Database.observed := by
  intro s
  unfold auditLogInsertWithChain
  simp only [wp_bind, wp_orThrow, wp_nextval, wp_notNull, wp_get, wp_raiseIf, wp_set, wp_pure,
    implies_true, true_and]
  intros
  rfl

theorem updateBalance_uncounted {u : Int} {assign : BalanceRow → BalanceRow}
    (hassign : ∀ row, (assign row).totalWagered = row.totalWagered) :
    (updateBalance u assign).Keeps Database.uncounted :=
  (updateBalance_keeps hassign).map fun o => (o.1, o.2.2)

theorem insertBalance_uncounted {u : Int} : (insertBalance u).Keeps Database.uncounted :=
  insertBalance_keeps.map fun o => (o.1, o.2.2)

theorem auditLogInsert_uncounted {p : AuditParams} :
    (auditLogInsertWithChain env p).Keeps Database.uncounted :=
  auditLogInsert_keeps.map fun o => (o.1, o.2.2)

theorem auditLogInsert_unmoved {p : AuditParams} :
    (auditLogInsertWithChain env p).Keeps Database.unmoved :=
  auditLogInsert_keeps.map fun o => (o.1, o.2.1)

/-! ## Functions that neither place nor close a bet -/

theorem createDepositTicket_keeps {d : Option Int} {c r g f : Option String} {a t p : Option Int} :
    (createDepositTicket env d c r g f a t p).Keeps Database.observed := by
  intro s
  unfold createDepositTicket openTicket insertDeposit
  simp only [wp_bind, wp_get, wp_set, wp_pure, wp_throw, wp_require, wp_raiseIf, wp_dite,
    wp_notNull, wp_checkedText, wp_nextval, implies_true, and_true, true_and]
  intros
  exact wp_of_keeps auditLogInsert_keeps fun _ _ h => h

theorem confirmDeposit_keeps {u : Option String} {c : Option Int} :
    (confirmDeposit env u c).Keeps Database.uncounted := by
  intro s
  unfold confirmDeposit
  simp only [wp_bind, wp_get, wp_pure, wp_require, wp_raiseIf, wp_ite, wp_notNull,
    wp_nullableBigint, wp_insertUser, wp_updateDeposit, wp_upsertCashierStats, implies_true,
    and_true, true_and]
  intro ticket _ _ _ _ uid _
  refine wp_of_keeps insertBalance_uncounted fun _ s₁ h₁ _ => ?_
  refine wp_of_keeps (updateBalance_uncounted fun _ => rfl) fun _ s₂ h₂ _ => ?_
  refine wp_of_keeps auditLogInsert_uncounted fun _ s₃ h₃ cashier _ stats _ => ?_
  exact h₃.trans (h₂.trans h₁)

theorem cancelDeposit_keeps {u : Option String} {a : Option Int} {r : Option String} :
    (cancelDeposit env u a r).Keeps Database.observed := by
  intro s
  unfold cancelDeposit
  simp only [wp_bind, wp_get, wp_pure, wp_require, wp_raiseIf, wp_updateDeposit, implies_true,
    true_and]
  intros
  exact wp_of_keeps auditLogInsert_keeps fun _ _ h => h

theorem createWithdrawTicket_keeps {d : Option Int} {c r g f : Option String}
    {a t p : Option Int} :
    (createWithdrawTicket env d c r g f a t p).Keeps Database.observed := by
  intro s
  unfold createWithdrawTicket openTicket insertWithdraw
  simp only [wp_bind, wp_get, wp_set, wp_pure, wp_throw, wp_require, wp_raiseIf, wp_dite,
    wp_notNull, wp_checkedText, wp_nextval, wp_nullableBigint, implies_true, and_true, true_and]
  intros
  refine wp_of_keeps (updateBalance_keeps fun _ => rfl) fun _ s₁ h₁ => ?_
  intros
  exact wp_of_keeps auditLogInsert_keeps fun _ _ h => h.trans h₁

theorem confirmWithdraw_keeps {u : Option String} {c : Option Int} :
    (confirmWithdraw env u c).Keeps Database.uncounted := by
  intro s
  unfold confirmWithdraw
  simp only [wp_bind, wp_get, wp_pure, wp_require, wp_raiseIf, wp_ite, wp_notNull,
    wp_updateWithdraw, wp_upsertCashierStats, implies_true, and_true, true_and]
  intro ticket _ _ _ _ _ uid _
  refine wp_of_keeps (updateBalance_uncounted fun _ => rfl) fun _ s₁ h₁ => ?_
  refine wp_of_keeps (updateBalance_uncounted fun _ => rfl) fun _ s₂ h₂ _ => ?_
  refine wp_of_keeps auditLogInsert_uncounted fun _ s₃ h₃ => ?_
  refine wp_of_keeps auditLogInsert_uncounted fun _ s₄ h₄ cashier _ stats _ => ?_
  exact h₄.trans (h₃.trans (h₂.trans h₁))

theorem cancelWithdraw_keeps {u : Option String} {a : Option Int} {r : Option String} :
    (cancelWithdraw env u a r).Keeps Database.uncounted := by
  intro s
  unfold cancelWithdraw
  simp only [wp_bind, wp_get, wp_pure, wp_require, wp_raiseIf, wp_ifDo, wp_nullableBigint,
    wp_updateWithdraw, wp_upsertCashierStats, implies_true, and_true, true_and]
  intro ticket _ _ _ uid _ _
  refine wp_of_keeps (updateBalance_uncounted fun _ => rfl) fun _ s₁ h₁ _ => ?_
  refine wp_of_keeps auditLogInsert_uncounted fun _ s₂ h₂ => ?_
  exact ⟨fun _ _ _ => h₂.trans h₁, fun _ => h₂.trans h₁⟩

theorem updateTicket_keeps {t : Option String} {uid : String} {assign : Ticket → Ticket} :
    (updateTicket t uid assign).Keeps Database.observed := by
  intro s
  unfold updateTicket
  simp only [wp_bind, wp_get, wp_ite]
  constructor
  · intro _
    cases s.depositTickets.get? uid with
    | none => rfl
    | some ticket => exact (wp_updateDeposit uid ticket _).mpr ⟨fun _ => trivial, fun _ => rfl⟩
  · intro _
    cases s.withdrawTickets.get? uid with
    | none => rfl
    | some ticket => exact (wp_updateWithdraw uid ticket _).mpr ⟨fun _ => trivial, fun _ => rfl⟩

theorem claimTicket_keeps {t u : Option String} {c : Option Int} :
    (claimTicket env t u c).Keeps Database.observed := by
  intro s
  unfold claimTicket
  simp only [wp_bind, wp_get, wp_pure, wp_require, wp_raiseIf, implies_true, true_and]
  intros
  refine wp_of_keeps updateTicket_keeps fun _ s₁ h₁ => ?_
  exact wp_of_keeps auditLogInsert_keeps fun _ _ h => h.trans h₁

theorem releaseTicket_keeps {t u : Option String} {a : Option Int} :
    (releaseTicket env t u a).Keeps Database.observed := by
  intro s
  unfold releaseTicket
  simp only [wp_bind, wp_get, wp_pure, wp_require, wp_raiseIf, implies_true, true_and]
  intros
  refine wp_of_keeps updateTicket_keeps fun _ s₁ h₁ => ?_
  exact wp_of_keeps auditLogInsert_keeps fun _ _ h => h.trans h₁

theorem openDispute_keeps {t u : Option String} {o : Option Int} {e r : Option String} :
    (openDispute env t u o e r).Keeps Database.observed := by
  intro s
  unfold openDispute insertDispute
  simp only [wp_bind, wp_get, wp_set, wp_pure, wp_require, wp_raiseIf, wp_notNull, wp_checkedText,
    wp_nextval, implies_true, true_and]
  intros
  exact wp_of_keeps auditLogInsert_keeps fun _ _ h => h

theorem rejectDispute_keeps {d : Option Int} {r : Option String} {a : Option Int} :
    (rejectDispute env d r a).Keeps Database.observed := by
  intro s
  unfold rejectDispute
  simp only [wp_bind, wp_get, wp_modify, wp_pure, wp_require, wp_raiseIf, implies_true, true_and]
  intros
  exact wp_of_keeps auditLogInsert_keeps fun _ _ h => h

theorem treasurySweep_keeps {a d : Option Int} {r : Option String} :
    (treasurySweep env a d r).Keeps Database.observed := by
  intro s
  unfold treasurySweep
  simp only [wp_bind, wp_get, wp_pure, wp_require, wp_raiseIf, implies_true, true_and]
  intros
  refine wp_of_keeps (updateBalance_keeps fun _ => rfl) fun _ s₁ h₁ => ?_
  exact wp_of_keeps auditLogInsert_keeps fun _ _ h => h.trans h₁

theorem treasuryWithdrawToUser_keeps {a u d : Option Int} {r : Option String} :
    (treasuryWithdrawToUser env a u d r).Keeps Database.observed := by
  intro s
  unfold treasuryWithdrawToUser
  simp only [wp_bind, wp_get, wp_pure, wp_require, wp_raiseIf, wp_notNull, wp_nullableBigint,
    wp_insertUser, implies_true, true_and]
  intro amount _ _ _ before _ _ user _
  refine wp_of_keeps insertBalance_keeps fun _ s₁ h₁ _ => ?_
  refine wp_of_keeps (updateBalance_keeps fun _ => rfl) fun _ s₂ h₂ => ?_
  refine wp_of_keeps (updateBalance_keeps fun _ => rfl) fun _ s₃ h₃ => ?_
  refine wp_of_keeps auditLogInsert_keeps fun _ s₄ h₄ => ?_
  refine wp_of_keeps auditLogInsert_keeps fun _ s₅ h₅ => ?_
  exact h₅.trans (h₄.trans (h₃.trans (h₂.trans h₁)))

theorem payRefund_keeps {before : Database} {dispute : Dispute} {d : Option Int}
    {c : Option String} {a b : Option Int} :
    (payRefund env before dispute d c a b).Keeps Database.observed := by
  intro s
  unfold payRefund
  simp only [wp_bind, wp_require, wp_raiseIf, wp_ifDo, implies_true, true_and]
  have hfull : ∀ s₁ : Database, s₁.observed = s.observed → ∀ p q r t,
      wp (treasuryWithdrawToUser env p q r t) (fun _ s' => s'.observed = s.observed) (fun _ => True)
        s₁ := by
    intro s₁ h₁ p q r t
    exact wp_of_keeps treasuryWithdrawToUser_keeps fun _ _ h => h.trans h₁
  refine ⟨fun _ amount _ _ => ?_, fun _ => ⟨fun _ _ => hfull s rfl .., trivial⟩⟩
  refine wp_of_keeps treasuryWithdrawToUser_keeps fun _ s₁ h₁ => ?_
  exact ⟨fun _ _ => hfull s₁ h₁ .., fun _ => h₁⟩

theorem resolveDispute_keeps {d : Option Int} {c : Option String} {a b : Option Int} :
    (resolveDispute env d c a b).Keeps Database.observed := by
  intro s
  unfold resolveDispute
  simp only [wp_bind, wp_get, wp_modify, wp_pure, wp_require, wp_raiseIf, implies_true, true_and]
  intros
  refine wp_of_keeps payRefund_keeps fun _ s₁ h₁ _ _ => ?_
  exact wp_of_keeps auditLogInsert_keeps fun _ _ h => h.trans h₁

theorem addCashierCharacter_keeps {d : Option Int} {c r g f : Option String} :
    (addCashierCharacter env d c r g f).Keeps Database.observed := by
  intro s
  unfold addCashierCharacter
  simp only [wp_bind, wp_get, wp_set, wp_pure, wp_raiseIf, wp_notNull, wp_checkedText, wp_nextval,
    implies_true, true_and]
  intros
  exact wp_of_keeps auditLogInsert_keeps fun _ _ h => h

theorem removeCashierCharacter_keeps {d : Option Int} {c r g : Option String} :
    (removeCashierCharacter env d c r g).Keeps Database.observed := by
  intro s
  unfold removeCashierCharacter
  simp only [wp_bind, wp_get, wp_set, wp_pure, wp_require, implies_true, true_and]
  intros
  exact wp_of_keeps auditLogInsert_keeps fun _ _ h => h

theorem setCashierStatus_keeps {d : Option Int} {t : Option String} :
    (setCashierStatus env d t).Keeps Database.unmoved := by
  have hinsert : ∀ cashier, (insertSession env cashier).Keeps Database.unmoved := by
    intro cashier s
    unfold insertSession
    simp only [wp_bind, wp_get, wp_set, wp_nextval, wp_raiseIf, implies_true, true_and]
    exact fun _ => rfl
  have hend : ∀ cashier reason, (endSessions env cashier reason).Keeps Database.unmoved :=
    fun _ _ => keeps_modify fun _ => rfl
  intro s
  unfold setCashierStatus
  simp only [wp_bind, wp_get, wp_set, wp_pure, wp_raiseIf, wp_notNull, wp_checkedText,
    implies_true, true_and]
  intros
  refine wp_of_keeps ((hinsert _).ifDo _) fun _ s₁ h₁ => ?_
  refine wp_of_keeps ((hend _ _).ifDo _) fun _ s₂ h₂ => ?_
  exact wp_of_keeps auditLogInsert_unmoved fun _ _ h => h.trans (h₂.trans h₁)

theorem expireCashier_keeps {d : Option Int} :
    (expireCashier env d).Keeps Database.unmoved := by
  intro s
  unfold expireCashier endSessions
  simp only [wp_bind, wp_get, wp_set, wp_modify, wp_pure, wp_raiseIf, wp_notNull, implies_true,
    true_and]
  intros
  exact wp_of_keeps auditLogInsert_unmoved fun _ _ h => h

theorem banUser_keeps {u : Option Int} {r : Option String} {a : Option Int} :
    (banUser env u r a).Keeps Database.observed := by
  intro s
  unfold banUser
  simp only [wp_bind, wp_get, wp_set, wp_pure, wp_raiseIf, wp_notNull, wp_insertUser, implies_true,
    true_and]
  intros
  refine wp_of_keeps insertBalance_keeps fun _ s₁ h₁ => ?_
  exact wp_of_keeps auditLogInsert_keeps fun _ _ h => h.trans h₁

theorem unbanUser_keeps {u a : Option Int} :
    (unbanUser env u a).Keeps Database.observed := by
  intro s
  unfold unbanUser
  simp only [wp_bind, wp_get, wp_set, wp_pure, wp_require, wp_raiseIf, implies_true, true_and]
  intros
  exact wp_of_keeps auditLogInsert_keeps fun _ _ h => h

theorem consumeRateToken_keeps {d : Option Int} {p : Option String} {w m : Option Int} :
    (consumeRateToken env d p w m).Keeps Database.observed := by
  intro s
  unfold consumeRateToken
  simp only [wp_bind, wp_get, wp_set, wp_pure, wp_raiseIf, wp_notNull, implies_true, true_and]
  intros
  rfl

theorem insertRaffleTickets_keeps {ticket : RaffleTicket} {count : Nat} :
    (insertRaffleTickets ticket count).Keeps Database.observed := by
  intro s
  induction count generalizing s with
  | zero => rfl
  | succ count ih =>
      unfold insertRaffleTickets
      simp only [wp_bind, wp_get, wp_set, wp_raiseIf, wp_nextval, implies_true, true_and]
      exact fun _ => ih _

theorem grantRaffleTickets_keeps {d p n b : Option Int} :
    (grantRaffleTickets env d p n b).Keeps Database.observed := by
  intro s
  unfold grantRaffleTickets
  simp only [wp_bind, wp_get, wp_pure, wp_require, wp_raiseIf, wp_ite, wp_notNull, implies_true,
    true_and]
  intros
  exact wp_of_keeps insertRaffleTickets_keeps fun _ _ h => h

/-! ## Functions that place or close a bet -/

theorem updateBalance_cashiers {u : Int} {assign : BalanceRow → BalanceRow} :
    (updateBalance u assign).Keeps Database.cashiers :=
  fun _ => (wp_updateBalance u assign).mpr ⟨fun _ => rfl, fun _ _ => ⟨fun _ _ => trivial,
    fun _ _ => rfl⟩⟩

theorem auditLogInsert_cashiers {p : AuditParams} :
    (auditLogInsertWithChain env p).Keeps Database.cashiers :=
  auditLogInsert_keeps.map Prod.snd

theorem applyBet_keeps {d : Option Int} {g : Option String} {c b : Option Int} {e : Option Json}
    {h : Option Bytes} {k : Option String} {n : Option Int} {i u : Option String} :
    (applyBet env d g c b e h k n i u).Keeps Database.cashiers := by
  intro s
  unfold applyBet
  simp only [wp_bind, wp_get, wp_require, wp_ite, wp_raiseIf, wp_nullableBigint, wp_bpsShare,
    wp_notNull, wp_pure, implies_true, true_and]
  intros
  refine wp_of_keeps updateBalance_cashiers fun _ s₁ h₁ => ?_
  refine wp_of_keeps (updateBalance_cashiers.ifDo _) fun _ s₂ h₂ => ?_
  refine wp_of_keeps ((addToPool_keeps.map Prod.snd).ifDo _) fun _ s₃ h₃ => ?_
  refine wp_of_keeps (updateBalance_cashiers.ifDo _) fun _ s₄ h₄ => ?_
  refine openBet_open fun bet _ _ _ _ _ _ _ _ _ => insertBet_adds fun id _ _ => ?_
  refine wp_of_keeps auditLogInsert_cashiers fun _ s₅ h₅ => ?_
  exact h₅.trans (h₄.trans (h₃.trans (h₂.trans h₁)))

theorem resolveBet_keeps {b : Option Int} {t : Option String} {p : Option Int} {o : Option Json} :
    (resolveBet env b t p o).Keeps Database.cashiers := by
  intro s
  unfold resolveBet
  simp only [wp_bind, wp_get, wp_require, wp_ite, wp_raiseIf, wp_nullableBigint, wp_notNull,
    wp_checkedText, wp_pure, implies_true, true_and]
  intros
  refine wp_of_keeps updateBalance_cashiers fun _ s₁ h₁ => ?_
  refine wp_of_keeps (updateBalance_cashiers.ifDo _) fun _ s₂ h₂ => ?_
  intros
  refine closeBet_closes fun closed _ _ _ => ?_
  exact wp_of_keeps auditLogInsert_cashiers fun _ s₃ h₃ => h₃.trans (h₂.trans h₁)

theorem cashoutMines_keeps {b : Option Int} {m : Option Numeric} :
    (cashoutMines env b m).Keeps Database.cashiers := by
  intro s
  unfold cashoutMines
  simp only [wp_bind, wp_get, wp_require, wp_raiseIf, wp_nullableBigint, implies_true, true_and]
  intros
  exact resolveBet_keeps _

theorem refundBet_keeps {b : Option Int} {r : Option String} :
    (refundBet env b r).Keeps Database.cashiers := by
  intro s
  unfold refundBet
  simp only [wp_bind, wp_get, wp_require, wp_ite, wp_raiseIf, wp_pure, implies_true, true_and]
  intros
  refine wp_of_keeps updateBalance_cashiers fun _ s₁ h₁ => ?_
  refine wp_of_keeps (updateBalance_cashiers.ifDo _) fun _ s₂ h₂ => ?_
  refine wp_of_keeps ((addToPool_keeps.map Prod.snd).ifDo _) fun _ s₃ h₃ => ?_
  refine wp_of_keeps (updateBalance_cashiers.ifDo _) fun _ s₄ h₄ => ?_
  intros
  refine closeBet_closes fun closed _ _ _ => ?_
  refine wp_of_keeps auditLogInsert_cashiers fun _ s₅ h₅ => ?_
  exact h₅.trans (h₄.trans (h₃.trans (h₂.trans h₁)))

end DeathRoll
