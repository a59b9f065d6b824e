import DeathRoll.Interleaved.MatchedTickets

/-! # Payments match their scripts

The treasury's functions, the two that close a dispute, and the three that close a
bet: wherever the script commits, the function returns, and the new rows stand for
what it leaves.
-/

namespace DeathRoll.Interleaved

open Relational Script

def treasurySweep (env : Env) (pAmount pAdminId : Option Int) (pReason : Option String) :
    LedgerScript Int := do
  let amount ← require .amountMustBePositive pAmount
  raiseIf (amount ≤ 0) .amountMustBePositive
  let treasury ← require .treasuryRowMissing (← lockBalance 0)
  let vBefore := treasury.balance
  raiseIf (vBefore < amount) (.insufficientTreasurySweep (some vBefore) (some amount))
  updateBalance 0 fun row => { row with balance := vBefore - amount }
  auditLogInsertWithChain env
    { actorType := .admin
      actorId := pAdminId
      targetId := some 0
      action := some "treasury_swept"
      amount := some amount
      balanceBefore := some vBefore
      balanceAfter := some (vBefore - amount)
      reason := some (pReason.getD "admin treasury sweep")
      refType := some "treasury"
      refId := some ("sweep:" ++ toString (epochSeconds env.now))
      botName := "dw"
      metadata := .obj [("admin_id", .ofInt? pAdminId)] }
  return vBefore - amount

/-! ## The treasury -/

variable {known : Set LedgerKey} {rows : LedgerRows} {s : Database}

theorem treasurySweep_matched (h : Stands rows s) (hlog : .auditLog ∈ known) (env : Env)
    (pAmount pAdminId : Option Int) (pReason : Option String) :
    (treasurySweep env pAmount pAdminId pReason).MatchedBy settlementSchema Standing
      (DeathRoll.treasurySweep env pAmount pAdminId pReason) known rows s := by
  unfold treasurySweep DeathRoll.treasurySweep
  apply matchedBy_bind
  apply matchedBy_require
  rintro amount rfl
  refine ⟨amount, rfl, ?_⟩
  apply matchedBy_raise id
  intro hpos
  apply matchedBy_get
  apply matchedBy_lockOrRaise
  intro treasury known₁ hrow hgrow₁ htreasury₁ _
  rw [h.balance? hrow]
  apply matchedBy_raise id
  intro hfunds
  apply matchedBy_bind
  apply matchedBy_updateBalance h htreasury₁
  intro old new rows₂ known₂ hold hnew hrows₂ hgrow₂ h₂
  apply matchedBy_bind
  apply matchedBy_audit h₂ (hgrow₂ (hgrow₁ hlog)) env (.refl _ _)
  intro content id rows₃ known₃ s₃ hrows₃ hgrow₃ h₃
  exact h₃

theorem treasuryWithdrawToUser_matched
    {next : Unit → Unit → Set LedgerKey → LedgerRows → Database → Prop} (h : Stands rows s)
    (hlog : .auditLog ∈ known) (env : Env)
    (pAmount pTargetUser pAdminId : Option Int) (pReason : Option String)
    (hnext : ∀ rows' known' s', AccountsOnly rows rows' → known ⊆ known' → Stands rows' s' →
      next () () known' rows' s') :
    (treasuryWithdrawToUser env pAmount pTargetUser pAdminId pReason).MatchedBy settlementSchema
      next (DeathRoll.treasuryWithdrawToUser env pAmount pTargetUser pAdminId pReason) known rows
      s := by
  unfold treasuryWithdrawToUser DeathRoll.treasuryWithdrawToUser
  apply matchedBy_bind
  apply matchedBy_require
  rintro amount rfl
  refine ⟨amount, rfl, ?_⟩
  apply matchedBy_raise id
  intro hpos
  apply matchedBy_raise id
  intro hself
  apply matchedBy_get
  apply matchedBy_lockOrRaise
  intro treasury known₁ htreasuryRow hgrow₁ htreasury₁ _
  rw [h.balance? htreasuryRow]
  apply matchedBy_raise id
  intro hfunds
  apply matchedBy_bind
  apply matchedBy_notNull
  rintro target rfl
  apply matchedBy_bind
  apply matchedBy_insertUser h
  intro rows₂ known₂ hrows₂ hgrow₂ huser h₂
  apply matchedBy_bind
  apply matchedBy_insertBalance h₂
  intro rows₃ known₃ hrows₃ hgrow₃ hbalance h₃
  apply matchedBy_lock hbalance
  intro held known₄ hheld hgrow₄ hbalance₄ _
  apply matchedBy_get
  rw [h₃.balance? hheld]
  apply matchedBy_bind
  apply matchedBy_nullableBigint
  apply matchedBy_bind
  have htreasury₄ : LedgerKey.balance 0 ∈ known₄ := hgrow₄ (hgrow₃ (hgrow₂ htreasury₁))
  apply matchedBy_updateBalance h₃ htreasury₄
  intro old₅ new₅ rows₅ known₅ hold₅ hnew₅ hrows₅ hgrow₅ h₅
  apply matchedBy_bind
  apply matchedBy_updateBalance h₅ (hgrow₅ hbalance₄)
  intro old₆ new₆ rows₆ known₆ hold₆ hnew₆ hrows₆ hgrow₆ h₆
  have hgrow : known ⊆ known₆ := fun r hr =>
    hgrow₆ (hgrow₅ (hgrow₄ (hgrow₃ (hgrow₂ (hgrow₁ hr)))))
  apply matchedBy_bind
  apply matchedBy_audit h₆ (hgrow hlog) env (.refl _ _)
  intro content₇ id₇ rows₇ known₇ s₇ hrows₇ hgrow₇ h₇
  apply matchedBy_drop
  apply matchedBy_audit h₇ (hgrow₇ (hgrow hlog)) env (.refl _ _)
  intro content₈ id₈ rows₈ known₈ s₈ hrows₈ hgrow₈ h₈
  apply hnext _ _ _ _ (hgrow.trans (hgrow₇.trans hgrow₈)) h₈
  intro r hlog huser hbalance
  subst hrows₈ hrows₇ hrows₆ hrows₅ hrows₃ hrows₂
  simp [hlog, huser, hbalance]

/-! ## Disputes -/

section Reads

variable {α β : Type} {next : α → β → Set LedgerKey → LedgerRows → Database → Prop}

theorem matchedBy_selectDispute (h : Stands rows s) {pDisputeId : Option Int} {e e' : DbError}
    {f : Dispute → LedgerScript α} {g : Dispute → LedgerTx β}
    (hnext : ∀ id dispute known', pDisputeId = some id → rows (.dispute id) = some dispute →
      known ⊆ known' → .dispute id ∈ known' → ticketKey (dispute.ticketType, dispute.ticketUid) ∈ known' →
      (f dispute).MatchedBy settlementSchema next (g dispute) known' rows s) :
    (do f (← require e (← selectDispute pDisputeId))).MatchedBy settlementSchema next
      (do g (← Tx.require e' (s.disputes.select pDisputeId))) known rows s := by
  cases pDisputeId with
  | none => exact matchedBy_fail e _
  | some id =>
      apply matchedBy_lockOrRaise
      intro dispute known' hdispute hgrow hknown hrefs
      rw [Table.select_some, h.dispute, hdispute]
      exact hnext id dispute known' rfl hdispute hgrow hknown (hrefs rfl)

/-- The owner of a ticket does not change, and a ticket that is known has one. -/
theorem matchedBy_selectOwner (h : Stands rows s) {dispute : Dispute}
    (hticket : ticketKey (dispute.ticketType, dispute.ticketUid) ∈ known) {f : Option Int → LedgerScript α} {t : LedgerTx β}
    (hnext : ∀ owner known', s.disputedUser dispute = some owner → known ⊆ known' →
      (f (some owner)).MatchedBy settlementSchema next t known' rows s) :
    (do f (← selectOwner (dispute.ticketType = TicketType.deposit) dispute.ticketUid)).MatchedBy
      settlementSchema next t known rows s := by
  apply matchedBy_see
  intro keys seen _ hknown hseen
  cases htype : dispute.ticketType with
  | deposit =>
      rw [htype, ticketKey] at hticket
      obtain ⟨ticket, hrow⟩ := Option.ne_none_iff_exists'.mp (hknown hticket)
      obtain ⟨ticket', hrow', ⟨howner, -⟩, -⟩ := hseen _ _ hrow
      simp only [decide_true, if_true, hrow, Option.map_some]
      apply hnext _ _ _ hknown
      rw [Database.disputedUser, htype, h.deposit, hrow', howner]
      rfl
  | withdraw =>
      rw [htype, ticketKey] at hticket
      obtain ⟨ticket, hrow⟩ := Option.ne_none_iff_exists'.mp (hknown hticket)
      obtain ⟨ticket', hrow', ⟨howner, -⟩, -⟩ := hseen _ _ hrow
      simp only [reduceCtorEq, decide_false, Bool.false_eq_true, if_false, hrow, Option.map_some]
      apply hnext _ _ _ hknown
      rw [Database.disputedUser, htype, h.withdraw, hrow', howner]
      rfl

/-- The amount of a withdraw does not change. -/
theorem matchedBy_selectAmount (h : Stands rows s) {uid : String}
    (hticket : .withdraw uid ∈ known) {f : Option Int → LedgerScript α} {t : LedgerTx β}
    (hnext : ∀ (ticket : WithdrawTicket) known', s.withdrawTickets.get? uid = some ticket →
      known ⊆ known' → (f (some ticket.amount)).MatchedBy settlementSchema next t known' rows s) :
    (do f (← selectAmount uid)).MatchedBy settlementSchema next t known rows s := by
  apply matchedBy_see
  intro keys seen _ hknown hseen
  obtain ⟨ticket, hrow⟩ := Option.ne_none_iff_exists'.mp (hknown hticket)
  obtain ⟨ticket', hrow', ⟨-, hamount, -⟩, -⟩ := hseen _ _ hrow
  simp only [hrow, Option.map_some, hamount]
  exact hnext ticket' _ ((h.withdraw uid).trans hrow') hknown

end Reads

/-- The end of both functions: the dispute is stored, and the audit row is written. -/
theorem matchedBy_closeDispute (h : Stands rows s) (hlog : .auditLog ∈ known) (env : Env)
    {id : Int} {dispute : Dispute} (hdispute : rows (.dispute id) = some dispute)
    (hticket : ticketKey (dispute.ticketType, dispute.ticketUid) ∈ known) (status : DisputeStatus) (resolution : Option String)
    (resolvedBy : Option Int) (p : AuditParams) :
    (do
      store (LedgerKey.dispute id) (dispute.close env.now status resolution resolvedBy)
      auditLogInsertWithChain env p).MatchedBy settlementSchema Standing
      (do
        modify fun s : Database =>
          s.setDispute id (dispute.close env.now status resolution resolvedBy)
        let _ ← DeathRoll.auditLogInsertWithChain env p) known rows s := by
  apply matchedBy_bind
  simp only [MatchedBy, post_store, Tx.wp_modify]
  intro hheld
  refine ⟨?_, fun old hold => ⟨?_, fun hfrozen => hfrozen.elim⟩, ?_⟩
  · rintro k rfl
    exact hticket
  · cases hdispute.symm.trans hold
    exact ⟨rfl, rfl⟩
  · apply matchedBy_drop
    apply matchedBy_audit (h.setDispute hdispute _) hlog env (.refl _ _)
    intro content audit rows' known' s' _ _ h'
    exact h'

theorem rejectDispute_matched (h : Stands rows s) (hlog : .auditLog ∈ known) (env : Env)
    (pDisputeId : Option Int) (pReason : Option String) (pAdminId : Option Int) :
    (rejectDispute env pDisputeId pReason pAdminId).MatchedBy settlementSchema Standing
      (DeathRoll.rejectDispute env pDisputeId pReason pAdminId) known rows s := by
  unfold rejectDispute DeathRoll.rejectDispute
  apply matchedBy_get
  apply matchedBy_selectDispute h
  intro disputeId dispute known₁ hid hdispute hgrow₁ hknown₁ hticket
  apply matchedBy_raise id
  intro hlive
  apply matchedBy_selectOwner h hticket
  intro owner known₂ howner hgrow₂
  subst hid
  apply matchedBy_bind
  apply matchedBy_require
  rintro _ ⟨⟩
  refine ⟨disputeId, rfl, ?_⟩
  rw [howner]
  exact matchedBy_closeDispute h (hgrow₂ (hgrow₁ hlog)) env hdispute (hgrow₂ hticket) _ _ _ _

theorem payRefund_matched {next : Unit → Unit → Set LedgerKey → LedgerRows → Database → Prop}
    (h : Stands rows s) (hlog : .auditLog ∈ known) (env : Env) {dispute : Dispute} {owner : Int}
    (hticket : ticketKey (dispute.ticketType, dispute.ticketUid) ∈ known)
    (howner : s.disputedUser dispute = some owner) (pDisputeId : Option Int)
    (pAction : Option String) (pAmount pResolvedBy : Option Int)
    (hnext : ∀ rows' known' s', AccountsOnly rows rows' → known ⊆ known' → Stands rows' s' →
      next () () known' rows' s') :
    (payRefund env dispute (some owner) pDisputeId pAction pAmount pResolvedBy).MatchedBy
      settlementSchema next
      (DeathRoll.payRefund env s dispute pDisputeId pAction pAmount pResolvedBy) known rows s := by
  unfold payRefund DeathRoll.payRefund
  simp only [howner]
  by_cases hpartial : IsEq pAction (some "partial-refund")
  · have hfull : ¬ IsEq pAction (some "refund-full") := by
      rintro ⟨action, rfl, hfull⟩
      obtain ⟨_, ⟨⟩, hpartial⟩ := hpartial
      simp [← hfull] at hpartial
    simp only [if_pos hpartial, Tx.ifDo, if_neg hfull, bind_pure_unit]
    apply matchedBy_bind
    apply matchedBy_require
    rintro amount rfl
    refine ⟨amount, rfl, ?_⟩
    apply matchedBy_raise id
    intro hpos
    exact treasuryWithdrawToUser_matched h hlog env _ _ _ _ hnext
  · simp only [if_neg hpartial, Tx.ifDo, pure_bind]
    apply matchedBy_ifDo Iff.rfl
    · intro hfull
      apply matchedBy_raise id
      intro htype
      have hwithdraw : LedgerKey.withdraw dispute.ticketUid ∈ known := by
        rw [not_not.mp htype] at hticket
        exact hticket
      apply matchedBy_selectAmount h hwithdraw
      intro ticket known₁ hselected hgrow₁
      rw [hselected]
      apply treasuryWithdrawToUser_matched h (hgrow₁ hlog)
      intro rows' known' s' haccounts hgrow
      exact hnext rows' known' s' haccounts (hgrow₁.trans hgrow)
    · intro hfull
      exact hnext _ _ _ (.refl rows) le_rfl h

theorem resolveDispute_matched (h : Stands rows s) (hlog : .auditLog ∈ known) (env : Env)
    (pDisputeId : Option Int) (pAction : Option String) (pAmount pResolvedBy : Option Int) :
    (resolveDispute env pDisputeId pAction pAmount pResolvedBy).MatchedBy settlementSchema Standing
      (DeathRoll.resolveDispute env pDisputeId pAction pAmount pResolvedBy) known rows s := by
  unfold resolveDispute DeathRoll.resolveDispute
  apply matchedBy_get
  apply matchedBy_selectDispute h
  intro disputeId dispute known₁ hid hdispute hgrow₁ hknown₁ hticket
  apply matchedBy_raise id
  intro hlive
  apply matchedBy_raise id
  intro haction
  apply matchedBy_selectOwner h hticket
  intro owner known₂ howner hgrow₂
  have hlog₂ : LedgerKey.auditLog ∈ known₂ := hgrow₂ (hgrow₁ hlog)
  apply matchedBy_bind
  apply payRefund_matched h hlog₂ env (hgrow₂ hticket) howner
  intro rows₃ known₃ s₃ haccounts hgrow₃ h₃
  subst hid
  apply matchedBy_bind
  apply matchedBy_require
  rintro _ ⟨⟩
  refine ⟨disputeId, rfl, ?_⟩
  rw [howner]
  apply matchedBy_closeDispute h₃ (hgrow₃ hlog₂) env
  · rw [haccounts _ (by simp) (by simp) (by simp), hdispute]
  · exact hgrow₃ (hgrow₂ hticket)

/-! ## Bets -/

section Statements

variable {next : Unit → Unit → Set LedgerKey → LedgerRows → Database → Prop}

/-- The rows that the bet refers to are known. -/
abbrev Staked (bet : Bet) (known : Set LedgerKey) : Prop :=
  LedgerKey.Refs (.bet 0) bet ⊆ known

theorem matchedBy_selectBet {α β : Type}
    {next : α → β → Set LedgerKey → LedgerRows → Database → Prop} (h : Stands rows s)
    {pBetId : Option Int} {e e' : DbError} {f : Bet → LedgerScript α} {g : Bet → LedgerTx β}
    (hnext : ∀ betId bet known', pBetId = some betId → rows (.bet betId) = some bet →
      known ⊆ known' → .bet betId ∈ known' → Staked bet known' →
      (f bet).MatchedBy settlementSchema next (g bet) known' rows s) :
    (do f (← require e (← selectBet pBetId))).MatchedBy settlementSchema next
      (do g (← Tx.require e' (s.bets.select pBetId))) known rows s := by
  cases pBetId with
  | none => exact matchedBy_fail e _
  | some betId =>
      apply matchedBy_lockOrRaise
      intro bet known' hbet hgrow hknown hrefs
      rw [Table.select_some, h.bet, hbet]
      exact hnext betId bet known' rfl hbet hgrow hknown hrefs

/-- A share that the treasury gets or gives back. -/
theorem matchedBy_treasuryIf (h : Stands rows s) (htreasury : .balance 0 ∈ known) (c : Prop)
    [Decidable c] {assign : BalanceRow → BalanceRow}
    (hnext : ∀ rows' known' s', (∀ betId, rows' (.bet betId) = rows (.bet betId)) →
      known ⊆ known' → Stands rows' s' → next () () known' rows' s') :
    (ifDo c (updateBalance 0 assign)).MatchedBy settlementSchema next
      (Tx.ifDo c (DeathRoll.updateBalance 0 assign)) known rows s := by
  apply matchedBy_ifDo Iff.rfl
  · intro hc
    apply matchedBy_updateBalance h htreasury
    intro old new rows' known' hold hnew hrows' hgrow h'
    apply hnext _ _ _ _ hgrow h'
    intro betId
    rw [hrows', Function.update_of_ne (by simp)]
  · intro hc
    exact hnext _ _ _ (fun _ => rfl) le_rfl h

theorem matchedBy_addToPool (h : Stands rows s) {period : Int}
    (hperiod : .rafflePeriod period ∈ known) {amount : Int}
    (hnext : ∀ rows' known' s', (∀ betId, rows' (.bet betId) = rows (.bet betId)) →
      known ⊆ known' → Stands rows' s' → next () () known' rows' s') :
    (addToPool period amount).MatchedBy settlementSchema next
      (DeathRoll.addToPool period amount) known rows s := by
  unfold addToPool DeathRoll.addToPool
  apply matchedBy_get
  apply matchedBy_lock hperiod
  intro row known' hrow hgrow hperiod' _
  rw [h.period, hrow]
  by_cases hrange : InBigint (row.poolAmount + amount)
  · by_cases hnonneg : 0 ≤ row.poolAmount + amount
    · simp only [dif_pos hrange, dif_pos hnonneg, MatchedBy, post_store, Tx.wp_modify]
      intro hheld
      refine ⟨Set.empty_subset _, fun old hold => ⟨trivial, fun hfrozen => hfrozen.elim⟩, ?_⟩
      apply hnext _ _ _ _ hgrow (h.setPeriod hrow _)
      intro betId
      rw [Function.update_of_ne (by simp)]
    · simp only [dif_pos hrange, dif_neg hnonneg]
      exact matchedBy_fail _ _
  · simp only [dif_neg hrange]
    exact matchedBy_fail _ _

/-- The rake goes back out of the pool of the bet's period. -/
theorem matchedBy_poolIf (h : Stands rows s) {bet : Bet} (hstaked : Staked bet known) {c : Prop}
    [Decidable c] {amount : Int}
    (hnext : ∀ rows' known' s', (∀ betId, rows' (.bet betId) = rows (.bet betId)) →
      known ⊆ known' → Stands rows' s' → next () () known' rows' s') :
    (ifDo (c ∧ bet.rakePeriodId ≠ none)
      (addToPool (bet.rakePeriodId.getD 0) amount)).MatchedBy settlementSchema next
      (Tx.ifDo (c ∧ bet.rakePeriodId ≠ none)
        (DeathRoll.addToPool (bet.rakePeriodId.getD 0) amount)) known rows s := by
  apply matchedBy_ifDo Iff.rfl
  · rintro ⟨-, hperiod⟩
    obtain ⟨period, hperiod⟩ := Option.ne_none_iff_exists'.mp hperiod
    apply matchedBy_addToPool h _ hnext
    rw [hperiod]
    exact hstaked (.inr (.inr ⟨period, hperiod, rfl⟩))
  · intro hc
    exact hnext _ _ _ (fun _ => rfl) le_rfl h

/-- The end of both functions: the bet is stored, and the audit row is written. -/
theorem matchedBy_closeBet (h : Stands rows s) (hlog : .auditLog ∈ known) (env : Env)
    {betId : Int} {bet : Bet} (hbet : rows (.bet betId) = some bet) (hstaked : Staked bet known)
    (status : BetStatus) (payout profit : Int) (outcome : Option Json) (p : AuditParams) :
    (do
      closeBet env betId bet status payout profit outcome
      auditLogInsertWithChain env p).MatchedBy settlementSchema Standing
      (do
        DeathRoll.closeBet env betId bet status payout profit outcome
        let _ ← DeathRoll.auditLogInsertWithChain env p) known rows s := by
  apply matchedBy_bind
  unfold closeBet DeathRoll.closeBet
  by_cases hpayout : 0 ≤ payout
  · simp only [dif_pos hpayout, MatchedBy, post_store, Tx.wp_modify]
    intro hheld
    refine ⟨hstaked, fun old hold => ⟨trivial, fun hfrozen => hfrozen.elim⟩, ?_⟩
    apply matchedBy_drop
    apply matchedBy_audit (h.setBet hbet _) hlog env (.refl _ _)
    intro content audit rows' known' s' _ _ h'
    exact h'
  · simp only [dif_neg hpayout]
    exact matchedBy_fail _ _

end Statements

theorem resolveBet_matched (h : Stands rows s) (hlog : .auditLog ∈ known)
    (htreasury : .balance 0 ∈ known) (env : Env) (pBetId : Option Int) (pStatus : Option String)
    (pPayout : Option Int) (pOutcome : Option Json) :
    (resolveBet env pBetId pStatus pPayout pOutcome).MatchedBy settlementSchema Standing
      (DeathRoll.resolveBet env pBetId pStatus pPayout pOutcome) known rows s := by
  unfold resolveBet DeathRoll.resolveBet
  apply matchedBy_raise id
  intro hstatus
  apply matchedBy_raise id
  intro hsign
  apply matchedBy_get
  apply matchedBy_selectBet h
  intro betId bet known₁ hid hbet hgrow₁ hknown₁ hstaked
  apply matchedBy_ite Iff.rfl
  · intro hretry
    exact h
  · intro hretry
    apply matchedBy_raise id
    intro hopen
    have hbalance : LedgerKey.balance bet.discordId ∈ known₁ := hstaked (.inr (.inl rfl))
    apply matchedBy_lock hbalance
    intro account known₂ haccount hgrow₂ hbalance₂ _
    rw [h.balance, haccount]
    apply matchedBy_bind
    apply matchedBy_nullableBigint
    apply matchedBy_bind
    apply matchedBy_notNull
    intro credit hcredit
    apply matchedBy_bind
    apply matchedBy_updateBalance h hbalance₂
    intro old new rows₃ known₃ hold hnew hrows₃ hgrow₃ h₃
    apply matchedBy_bind
    apply matchedBy_treasuryIf h₃ (hgrow₃ (hgrow₂ (hgrow₁ htreasury)))
    intro rows₄ known₄ s₄ hbets₄ hgrow₄ h₄
    have hgrow : known₁ ⊆ known₄ := fun r hr => hgrow₄ (hgrow₃ (hgrow₂ hr))
    subst hid
    apply matchedBy_bind
    apply matchedBy_require
    rintro _ ⟨⟩
    refine ⟨betId, rfl, ?_⟩
    simp only [DeathRoll.checkedText, bind_assoc]
    apply matchedBy_bind
    apply matchedBy_notNull
    intro text htext
    apply matchedBy_bind
    apply matchedBy_require
    intro status hof
    refine ⟨status, hof, ?_⟩
    apply matchedBy_bind
    apply matchedBy_notNull
    intro payout hpayout
    apply matchedBy_closeBet h₄ (hgrow (hgrow₁ hlog)) env
    · rw [hbets₄, hrows₃, Function.update_of_ne (by simp), hbet]
    · exact hstaked.trans hgrow

theorem refundBet_matched (h : Stands rows s) (hlog : .auditLog ∈ known)
    (htreasury : .balance 0 ∈ known) (env : Env) (pBetId : Option Int) (pReason : Option String) :
    (refundBet env pBetId pReason).MatchedBy settlementSchema Standing
      (DeathRoll.refundBet env pBetId pReason) known rows s := by
  unfold refundBet DeathRoll.refundBet
  apply matchedBy_get
  apply matchedBy_selectBet h
  intro betId bet known₁ hid hbet hgrow₁ hknown₁ hstaked
  apply matchedBy_ite Iff.rfl
  · intro hretry
    exact h
  · intro hretry
    apply matchedBy_raise id
    intro hopen
    have hbalance : LedgerKey.balance bet.discordId ∈ known₁ := hstaked (.inr (.inl rfl))
    apply matchedBy_lock hbalance
    intro account known₂ haccount hgrow₂ hbalance₂ _
    rw [h.balance, haccount]
    apply matchedBy_bind
    apply matchedBy_updateBalance h hbalance₂
    intro old new rows₃ known₃ hold hnew hrows₃ hgrow₃ h₃
    apply matchedBy_bind
    apply matchedBy_treasuryIf h₃ (hgrow₃ (hgrow₂ (hgrow₁ htreasury)))
    intro rows₄ known₄ s₄ hbets₄ hgrow₄ h₄
    have hgrow : known₁ ⊆ known₄ := fun r hr => hgrow₄ (hgrow₃ (hgrow₂ hr))
    apply matchedBy_bind
    apply matchedBy_poolIf h₄ (hstaked.trans hgrow)
    intro rows₅ known₅ s₅ hbets₅ hgrow₅ h₅
    apply matchedBy_bind
    apply matchedBy_treasuryIf h₅ (hgrow₅ (hgrow (hgrow₁ htreasury)))
    intro rows₆ known₆ s₆ hbets₆ hgrow₆ h₆
    subst hid
    apply matchedBy_bind
    apply matchedBy_require
    rintro _ ⟨⟩
    refine ⟨betId, rfl, ?_⟩
    apply matchedBy_closeBet h₆ (hgrow₆ (hgrow₅ (hgrow (hgrow₁ hlog)))) env
    · rw [hbets₆, hbets₅, hbets₄, hrows₃, Function.update_of_ne (by simp), hbet]
    · exact hstaked.trans (hgrow.trans (hgrow₅.trans hgrow₆))

theorem cashoutMines_matched (h : Stands rows s) (hlog : .auditLog ∈ known)
    (htreasury : .balance 0 ∈ known) (env : Env) (pBetId : Option Int)
    (pMultiplier : Option Numeric) :
    (cashoutMines env pBetId pMultiplier).MatchedBy settlementSchema Standing
      (DeathRoll.cashoutMines env pBetId pMultiplier) known rows s := by
  unfold cashoutMines DeathRoll.cashoutMines
  apply matchedBy_raise id
  intro hmultiplier
  apply matchedBy_get
  apply matchedBy_selectBet h
  intro betId bet known₁ hid hbet hgrow₁ hknown₁ hstaked
  apply matchedBy_raise id
  intro hgame
  apply matchedBy_raise id
  intro hopen
  apply matchedBy_bind
  apply matchedBy_nullableBigint
  exact resolveBet_matched h (hgrow₁ hlog) (hgrow₁ htreasury) env _ _ _ _

end DeathRoll.Interleaved
