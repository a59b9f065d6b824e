import DeathRoll.Ledger.Lifecycle

/-! # Whom the audit rows name

Deposit tickets and cashiers need not belong to a registered user, but the target of
an audit row must. Most calls redirect the row to the treasury or register the target
themselves; `dw.open_dispute` and `dw.expire_cashier` do neither.
-/

namespace DeathRoll

open Relational Tx

/-- The error of an audit row whose target is not registered. -/
def auditTargetMissing : DbError := .foreignKeyViolation "audit_log_target_id_fkey"

/-- Any other error. -/
def DbError.OtherThanTarget : DbError → Prop
  | .foreignKeyViolation name => name ≠ "audit_log_target_id_fkey"
  | _ => True

/-- The ticket of every dispute belongs to a registered user. -/
def Database.DisputesRegistered (s : Database) : Prop :=
  ∀ id dispute, s.disputes.get? id = some dispute →
    ∃ ticket, s.ticketOf dispute.ticketType dispute.ticketUid = some ticket ∧
      s.HasUser ticket.discordId

/-- The call passes its own checks and then audits somebody who is not registered. -/
inductive Database.TargetsStranger (s : Database) : Call → Prop
  | dispute {kind : TicketType} {uid : String} {ticket : Ticket} {opener : Int}
      {role : OpenerRole} {roleText reason : String}
      (hticket : s.ticketOf kind uid = some ticket) (hstranger : ¬ s.HasUser ticket.discordId)
      (hrole : OpenerRole.ofText roleText = some role)
      (hid : s.disputes.get? (s.sequences .disputes + 1) = none)
      (hfirst : ∀ id dispute, s.disputes.get? id = some dispute →
        ¬ (dispute.ticketType = kind ∧ dispute.ticketUid = uid)) :
      TargetsStranger s (.openDispute (some kind.text) (some uid) (some opener) (some roleText)
        (some reason))
  | expire {cashier : Int} {row : CashierStatus}
      (hrow : s.cashierStatus.get? cashier = some row) (hstatus : row.status = .online)
      (hstranger : ¬ s.HasUser cashier) : TargetsStranger s (.expireCashier (some cashier))

variable {env : Env} {s s₀ : Database} {call : Call}

/-! ## Targets that are registered -/

theorem hasUser_registeredOr0 (hs : s.HasUser 0) (discordId : Option Int) :
    s.HasUser (s.registeredOr0 discordId) := by
  unfold Database.registeredOr0
  split
  next => exact hs
  next hregistered =>
    cases discordId with
    | none => exact hs
    | some u => exact hregistered

theorem Database.WellFormed.hasUser_zero (hs : s.WellFormed) : s.HasUser 0 :=
  hs.registered 0 hs.treasury

theorem Database.WellFormed.hasUser_of_balance? (hs : s.WellFormed) {u balance : Int}
    (hbalance : s.balance? (some u) = some balance) : s.HasUser u := by
  refine hs.registered u fun hnone => ?_
  rw [Database.balance?, Table.select_some, hnone] at hbalance
  cases hbalance

theorem ticket?_text (kind : TicketType) (uid : String) :
    s.ticket? (some kind.text) (some uid) = s.ticketOf kind uid := by
  cases kind <;> simp [Database.ticket?, Database.ticketOf, TicketType.text]

/-! ## Rules -/

theorem auditLogInsert_targets {post : Int → Database → Prop} {p : AuditParams}
    (htarget : ∀ u, p.targetId = some u → p.balanceBefore ≠ none → s.HasUser u)
    (hpost : ∀ id s', s'.users = s.users → post id s') :
    wp (auditLogInsertWithChain env p) post DbError.OtherThanTarget s := by
  have hkey : ∀ e, env.chainKey = .error e → e.OtherThanTarget := by
    intro e herror
    unfold Env.chainKey at herror
    split at herror <;> cases herror <;> exact trivial
  rw [wp_auditLogInsertWithChain]
  simp only [DbError.OtherThanTarget, implies_true, true_and]
  refine ⟨hkey, fun _ _ _ _ u hu _ _ before hbefore _ _ _ _ => ⟨fun hnone => ?_, fun _ => ?_⟩⟩
  · exact absurd hnone (htarget u hu (by simp [hbefore]))
  · exact hpost _ _ rfl

/-- A statement that registers nobody and names nobody in an audit row. -/
def KeepsUsers (x : LedgerTx Unit) : Prop :=
  ∀ s, wp x (fun _ s' => s'.users = s.users) DbError.OtherThanTarget s

/-- The rule of a statement that keeps the users. -/
theorem wp_of_keepsUsers {x : LedgerTx Unit} (hx : KeepsUsers x) {post : Unit → Database → Prop}
    (hpost : ∀ s', s'.users = s.users → post () s') : wp x post DbError.OtherThanTarget s :=
  wp_mono (hx s) (fun _ => hpost) fun _ => id

theorem KeepsUsers.ifDo {x : LedgerTx Unit} (hx : KeepsUsers x) (c : Prop) [Decidable c] :
    KeepsUsers (ifDo c x) :=
  fun s => (wp_ifDo c x).mpr ⟨fun _ => hx s, fun _ => rfl⟩

theorem updateBalance_keepsUsers (u : Int) (assign : BalanceRow → BalanceRow) :
    KeepsUsers (updateBalance u assign) := by
  intro s
  rw [wp_updateBalance]
  refine ⟨fun _ => rfl, fun row _ => ⟨fun e herror => ?_, fun _ _ => rfl⟩⟩
  unfold Balance.check at herror
  split_ifs at herror <;> cases herror <;> simp [DbError.OtherThanTarget]

theorem addToPool_keepsUsers (p x : Int) : KeepsUsers (addToPool p x) := by
  intro s
  rw [wp_addToPool]
  exact ⟨fun _ => rfl, fun _ _ =>
    ⟨fun _ => trivial, fun _ _ => trivial, fun _ _ _ => rfl⟩⟩

theorem updateTicket_keepsUsers (t : Option String) (uid : String) (assign : Ticket → Ticket) :
    KeepsUsers (updateTicket t uid assign) := by
  intro s
  unfold updateTicket
  simp only [wp_bind, wp_get, wp_ite]
  constructor
  · intro _
    cases s.depositTickets.get? uid with
    | none => rfl
    | some ticket =>
        exact (wp_updateDeposit uid ticket _).mpr ⟨fun _ => trivial, fun _ => rfl⟩
  · intro _
    cases s.withdrawTickets.get? uid with
    | none => rfl
    | some ticket =>
        exact (wp_updateWithdraw uid ticket _).mpr ⟨fun _ => trivial, fun _ => rfl⟩

theorem insertSession_keepsUsers (cashier : Int) : KeepsUsers (insertSession env cashier) := by
  intro s
  unfold insertSession
  simp only [wp_bind, wp_get, wp_set, wp_nextval, wp_raiseIf, DbError.OtherThanTarget,
    implies_true, true_and]
  exact fun _ => rfl

theorem endSessions_keepsUsers (cashier : Int) (reason : SessionEnd) :
    KeepsUsers (endSessions env cashier reason) :=
  fun _ => rfl

theorem closeBet_keepsUsers (id : Int) (bet : Bet) (status : BetStatus) (payout profit : Int)
    (outcome : Option Json) : KeepsUsers (closeBet env id bet status payout profit outcome) := by
  intro s
  unfold closeBet
  simp only [wp_dite, wp_modify, wp_throw, DbError.OtherThanTarget]
  exact ⟨fun _ => rfl, fun _ => trivial⟩

theorem keptTarget_names_ne :
    "withdraw_tickets_discord_id_fkey" ≠ "audit_log_target_id_fkey" ∧
      "bets_discord_id_fkey" ≠ "audit_log_target_id_fkey" ∧
      "bets_game_name_fkey" ≠ "audit_log_target_id_fkey" ∧
      "raffle_tickets_discord_id_fkey" ≠ "audit_log_target_id_fkey" ∧
      "raffle_tickets_bet_id_fkey" ≠ "audit_log_target_id_fkey" := by
  decide

/-! ## Functions that redirect, register or look up their target -/

theorem createDepositTicket_targets (hs : s.WellFormed) (d : Option Int)
    (c r g f : Option String) (a t p : Option Int) :
    wp (createDepositTicket env d c r g f a t p) (fun _ _ => True) DbError.OtherThanTarget s := by
  unfold createDepositTicket openTicket insertDeposit
  simp only [wp_bind, wp_get, wp_set, wp_pure, wp_throw, wp_require, wp_raiseIf, wp_dite,
    wp_notNull, wp_checkedText, wp_nextval, DbError.OtherThanTarget, implies_true, and_true,
    true_and]
  intros
  refine auditLogInsert_targets ?_ fun _ _ _ => trivial
  rintro _ ⟨⟩ -
  exact hasUser_registeredOr0 hs.hasUser_zero _

theorem confirmDeposit_targets (u : Option String) (c : Option Int) :
    wp (confirmDeposit env u c) (fun _ _ => True) DbError.OtherThanTarget s := by
  unfold confirmDeposit
  simp only [wp_bind, wp_get, wp_pure, wp_require, wp_raiseIf, wp_ite, wp_notNull,
    wp_nullableBigint, wp_insertUser, wp_insertBalance, wp_updateDeposit, wp_upsertCashierStats,
    DbError.OtherThanTarget, implies_true, and_true, true_and]
  intro ticket _ _ _ _ uid _ _
  refine wp_of_keepsUsers (updateBalance_keepsUsers _ _) fun s₁ h₁ _ => ?_
  refine auditLogInsert_targets ?_ fun _ _ _ => by simp
  rintro _ ⟨⟩ -
  simp [Database.HasUser, h₁, Table.get?_insertNew]

theorem cancelDeposit_targets (hs : s.WellFormed) (u : Option String) (a : Option Int)
    (r : Option String) :
    wp (cancelDeposit env u a r) (fun _ _ => True) DbError.OtherThanTarget s := by
  unfold cancelDeposit
  simp only [wp_bind, wp_get, wp_pure, wp_require, wp_raiseIf, wp_updateDeposit,
    DbError.OtherThanTarget, implies_true, true_and]
  intros
  refine auditLogInsert_targets ?_ fun _ _ _ => trivial
  rintro _ ⟨⟩ -
  exact hasUser_registeredOr0 hs.hasUser_zero _

theorem createWithdrawTicket_targets (d : Option Int) (c r g f : Option String)
    (a t p : Option Int) :
    wp (createWithdrawTicket env d c r g f a t p) (fun _ _ => True) DbError.OtherThanTarget s := by
  unfold createWithdrawTicket openTicket insertWithdraw
  simp only [wp_bind, wp_get, wp_set, wp_pure, wp_throw, wp_require, wp_raiseIf, wp_dite,
    wp_notNull, wp_checkedText, wp_nextval, wp_nullableBigint, DbError.OtherThanTarget,
    keptTarget_names_ne, ne_eq, not_false_eq_true, implies_true, and_true, true_and]
  intros
  refine wp_of_keepsUsers (updateBalance_keepsUsers _ _) fun s₁ h₁ => ?_
  rintro u rfl
  intros
  refine auditLogInsert_targets ?_ fun _ _ _ => trivial
  rintro _ ⟨⟩ -
  assumption

theorem confirmWithdraw_targets (hs : s.WellFormed) (u : Option String) (c : Option Int) :
    wp (confirmWithdraw env u c) (fun _ _ => True) DbError.OtherThanTarget s := by
  unfold confirmWithdraw
  simp only [wp_bind, wp_get, wp_pure, wp_require, wp_raiseIf, wp_ite, wp_notNull,
    wp_updateWithdraw, wp_upsertCashierStats, DbError.OtherThanTarget, implies_true, and_true,
    true_and]
  intro ticket _ _ _ _ _ uid _
  refine wp_of_keepsUsers (updateBalance_keepsUsers _ _) fun s₁ h₁ =>
    wp_of_keepsUsers (updateBalance_keepsUsers _ _) fun s₂ h₂ _ => ?_
  refine auditLogInsert_targets ?_ fun _ s₃ h₃ => auditLogInsert_targets ?_ fun _ _ _ => by simp
  · rintro _ ⟨⟩ hbefore
    obtain ⟨before, hbefore⟩ := Option.ne_none_iff_exists'.mp hbefore
    simpa [Database.HasUser, h₂, h₁] using hs.hasUser_of_balance? hbefore
  · rintro _ ⟨⟩ -
    simpa [Database.HasUser, h₃, h₂, h₁] using hs.hasUser_zero

theorem cancelWithdraw_targets (hs : s.WellFormed) (u : Option String) (a : Option Int)
    (r : Option String) :
    wp (cancelWithdraw env u a r) (fun _ _ => True) DbError.OtherThanTarget s := by
  unfold cancelWithdraw
  simp only [wp_bind, wp_get, wp_pure, wp_require, wp_raiseIf, wp_ifDo, wp_nullableBigint,
    wp_updateWithdraw, wp_upsertCashierStats, DbError.OtherThanTarget, implies_true, and_true,
    true_and]
  intro ticket _ _ _ uid _ _
  refine wp_of_keepsUsers (updateBalance_keepsUsers _ _) fun s₁ h₁ _ => ?_
  refine auditLogInsert_targets ?_ fun _ _ _ => by simp
  rintro _ ⟨⟩ hbefore
  obtain ⟨before, hbefore⟩ := Option.ne_none_iff_exists'.mp hbefore
  simpa [Database.HasUser, h₁] using hs.hasUser_of_balance? hbefore

theorem claimTicket_targets (hs : s.WellFormed) (t u : Option String) (c : Option Int) :
    wp (claimTicket env t u c) (fun _ _ => True) DbError.OtherThanTarget s := by
  unfold claimTicket
  simp only [wp_bind, wp_get, wp_pure, wp_require, wp_raiseIf, DbError.OtherThanTarget,
    implies_true, true_and]
  intros
  refine wp_of_keepsUsers (updateTicket_keepsUsers _ _ _) fun s₁ h₁ => auditLogInsert_targets ?_ fun _ _ _ => trivial
  rintro _ ⟨⟩ -
  simpa [Database.HasUser, h₁] using hasUser_registeredOr0 hs.hasUser_zero _

theorem releaseTicket_targets (hs : s.WellFormed) (t u : Option String) (a : Option Int) :
    wp (releaseTicket env t u a) (fun _ _ => True) DbError.OtherThanTarget s := by
  unfold releaseTicket
  simp only [wp_bind, wp_get, wp_pure, wp_require, wp_raiseIf, DbError.OtherThanTarget,
    implies_true, true_and]
  intros
  refine wp_of_keepsUsers (updateTicket_keepsUsers _ _ _) fun s₁ h₁ => auditLogInsert_targets ?_ fun _ _ _ => trivial
  rintro _ ⟨⟩ -
  simpa [Database.HasUser, h₁] using hasUser_registeredOr0 hs.hasUser_zero _

theorem treasurySweep_targets (hs : s.WellFormed) (a d : Option Int) (r : Option String) :
    wp (treasurySweep env a d r) (fun _ _ => True) DbError.OtherThanTarget s := by
  unfold treasurySweep
  simp only [wp_bind, wp_get, wp_pure, wp_require, wp_raiseIf, DbError.OtherThanTarget,
    implies_true, true_and]
  intros
  refine wp_of_keepsUsers (updateBalance_keepsUsers _ _) fun s₁ h₁ => auditLogInsert_targets ?_ fun _ _ _ => trivial
  rintro _ ⟨⟩ -
  simpa [Database.HasUser, h₁] using hs.hasUser_zero

/-- A payment from the treasury registers its receiver. -/
theorem treasuryWithdrawToUser_targets {post : Unit → Database → Prop} (hs : s.HasUser 0)
    (a u d : Option Int) (r : Option String)
    (hpost : ∀ s', (∀ v, s.HasUser v → s'.HasUser v) → post () s') :
    wp (treasuryWithdrawToUser env a u d r) post DbError.OtherThanTarget s := by
  unfold treasuryWithdrawToUser
  simp only [wp_bind, wp_get, wp_pure, wp_require, wp_raiseIf, wp_notNull, wp_nullableBigint,
    wp_insertUser, wp_insertBalance, DbError.OtherThanTarget, implies_true, true_and]
  intro amount _ _ _ before _ _ user _ _
  have hkept : ∀ v, s.HasUser v → (s.addUser user {}).HasUser v := by
    intro v hv
    obtain ⟨row, hrow⟩ := Option.ne_none_iff_exists'.mp hv
    simp [Database.HasUser, Table.get?_insertNew_of_some hrow]
  refine wp_of_keepsUsers (updateBalance_keepsUsers _ _) fun s₁ h₁ =>
    wp_of_keepsUsers (updateBalance_keepsUsers _ _) fun s₂ h₂ => ?_
  refine auditLogInsert_targets ?_ fun _ s₃ h₃ => auditLogInsert_targets ?_ fun _ s₄ h₄ => ?_
  · rintro _ ⟨⟩ -
    simpa [Database.HasUser, h₂, h₁] using hkept 0 hs
  · rintro _ ⟨⟩ -
    simp [Database.HasUser, h₃, h₂, h₁, Table.get?_insertNew]
  · refine hpost s₄ fun v hv => ?_
    simpa [Database.HasUser, h₄, h₃, h₂, h₁] using hkept v hv

theorem addCashierCharacter_targets (hs : s.WellFormed) (d : Option Int)
    (c r g f : Option String) :
    wp (addCashierCharacter env d c r g f) (fun _ _ => True) DbError.OtherThanTarget s := by
  unfold addCashierCharacter
  simp only [wp_bind, wp_get, wp_set, wp_pure, wp_raiseIf, wp_notNull, wp_checkedText, wp_nextval,
    DbError.OtherThanTarget, implies_true, true_and]
  intros
  refine auditLogInsert_targets ?_ fun _ _ _ => trivial
  rintro _ ⟨⟩ -
  exact hasUser_registeredOr0 hs.hasUser_zero _

theorem removeCashierCharacter_targets (hs : s.WellFormed) (d : Option Int)
    (c r g : Option String) :
    wp (removeCashierCharacter env d c r g) (fun _ _ => True) DbError.OtherThanTarget s := by
  unfold removeCashierCharacter
  simp only [wp_bind, wp_get, wp_set, wp_pure, wp_require, DbError.OtherThanTarget, implies_true,
    true_and]
  intros
  refine auditLogInsert_targets ?_ fun _ _ _ => trivial
  rintro _ ⟨⟩ -
  exact hasUser_registeredOr0 hs.hasUser_zero _

theorem setCashierStatus_targets (hs : s.WellFormed) (d : Option Int) (t : Option String) :
    wp (setCashierStatus env d t) (fun _ _ => True) DbError.OtherThanTarget s := by
  unfold setCashierStatus
  simp only [wp_bind, wp_get, wp_set, wp_pure, wp_raiseIf, wp_notNull, wp_checkedText,
    DbError.OtherThanTarget, implies_true, true_and]
  intros
  refine wp_of_keepsUsers ((insertSession_keepsUsers _).ifDo _) fun s₁ h₁ =>
    wp_of_keepsUsers ((endSessions_keepsUsers _ _).ifDo _) fun s₂ h₂ => ?_
  refine auditLogInsert_targets ?_ fun _ _ _ => trivial
  rintro _ ⟨⟩ -
  simpa [Database.HasUser, h₂, h₁] using hasUser_registeredOr0 hs.hasUser_zero _

theorem banUser_targets (u : Option Int) (r : Option String) (a : Option Int) :
    wp (banUser env u r a) (fun _ _ => True) DbError.OtherThanTarget s := by
  unfold banUser
  simp only [wp_bind, wp_get, wp_set, wp_pure, wp_raiseIf, wp_notNull, wp_insertUser,
    wp_insertBalance, DbError.OtherThanTarget, implies_true, true_and]
  rintro _ user rfl
  refine auditLogInsert_targets ?_ fun _ _ _ => trivial
  rintro _ ⟨⟩ -
  simp [Database.HasUser, Table.get?_set, Table.get?_insertNew]

theorem unbanUser_targets (u a : Option Int) :
    wp (unbanUser env u a) (fun _ _ => True) DbError.OtherThanTarget s := by
  unfold unbanUser
  simp only [wp_bind, wp_get, wp_set, wp_pure, wp_require, wp_raiseIf, DbError.OtherThanTarget,
    implies_true, true_and]
  rintro hregistered user rfl
  refine auditLogInsert_targets ?_ fun _ _ _ => trivial
  rintro _ ⟨⟩ -
  rw [Table.select_some] at hregistered
  simp [Database.HasUser, Table.get?_set, hregistered]

/-! ## Bets and raffle tickets -/

theorem applyBet_targets (d : Option Int) (g : Option String)
    (c b : Option Int) (e : Option Json) (h : Option Bytes) (k : Option String) (n : Option Int)
    (i u : Option String) :
    wp (applyBet env d g c b e h k n i u) (fun _ _ => True) DbError.OtherThanTarget s := by
  unfold applyBet openBet insertBet
  simp only [wp_bind, wp_get, wp_set, wp_pure, wp_throw, wp_require, wp_raiseIf, wp_ite,
    wp_dite, wp_notNull, wp_nextval, wp_bpsShare, wp_nullableBigint, DbError.OtherThanTarget,
    keptTarget_names_ne, ne_eq, not_false_eq_true, implies_true, and_true, true_and]
  intros
  refine wp_of_keepsUsers (updateBalance_keepsUsers _ _) fun s₁ h₁ => ?_
  refine wp_of_keepsUsers ((updateBalance_keepsUsers _ _).ifDo _) fun s₂ h₂ => ?_
  refine wp_of_keepsUsers ((addToPool_keepsUsers _ _).ifDo _) fun s₃ h₃ => ?_
  refine wp_of_keepsUsers ((updateBalance_keepsUsers _ _).ifDo _) fun s₄ h₄ => ?_
  intros
  subst_vars
  refine auditLogInsert_targets ?_ fun _ _ _ => trivial
  rintro _ ⟨⟩ -
  assumption

theorem resolveBet_targets (hs : s.WellFormed) (b : Option Int) (t : Option String)
    (p : Option Int) (o : Option Json) :
    wp (resolveBet env b t p o) (fun _ _ => True) DbError.OtherThanTarget s := by
  unfold resolveBet
  simp only [wp_bind, wp_get, wp_pure, wp_require, wp_raiseIf, wp_ite, wp_notNull,
    wp_checkedText, wp_nullableBigint, DbError.OtherThanTarget, implies_true, true_and]
  intros
  refine wp_of_keepsUsers (updateBalance_keepsUsers _ _) fun s₁ h₁ => ?_
  refine wp_of_keepsUsers ((updateBalance_keepsUsers _ _).ifDo _) fun s₂ h₂ => ?_
  intros
  refine wp_of_keepsUsers (closeBet_keepsUsers _ _ _ _ _ _) fun s₃ h₃ => ?_
  refine auditLogInsert_targets ?_ fun _ _ _ => trivial
  rintro _ ⟨⟩ hbefore
  obtain ⟨before, hbefore⟩ := Option.ne_none_iff_exists'.mp hbefore
  simpa [Database.HasUser, h₃, h₂, h₁] using hs.hasUser_of_balance? hbefore

theorem refundBet_targets (hs : s.WellFormed) (b : Option Int) (r : Option String) :
    wp (refundBet env b r) (fun _ _ => True) DbError.OtherThanTarget s := by
  unfold refundBet
  simp only [wp_bind, wp_get, wp_pure, wp_require, wp_raiseIf, wp_ite, DbError.OtherThanTarget,
    implies_true, true_and]
  intros
  refine wp_of_keepsUsers (updateBalance_keepsUsers _ _) fun s₁ h₁ => ?_
  refine wp_of_keepsUsers ((updateBalance_keepsUsers _ _).ifDo _) fun s₂ h₂ => ?_
  refine wp_of_keepsUsers ((addToPool_keepsUsers _ _).ifDo _) fun s₃ h₃ => ?_
  refine wp_of_keepsUsers ((updateBalance_keepsUsers _ _).ifDo _) fun s₄ h₄ => ?_
  intros
  refine wp_of_keepsUsers (closeBet_keepsUsers _ _ _ _ _ _) fun s₅ h₅ => ?_
  refine auditLogInsert_targets ?_ fun _ _ _ => trivial
  rintro _ ⟨⟩ hbefore
  obtain ⟨before, hbefore⟩ := Option.ne_none_iff_exists'.mp hbefore
  simpa [Database.HasUser, h₅, h₄, h₃, h₂, h₁] using hs.hasUser_of_balance? hbefore

theorem cashoutMines_targets (hs : s.WellFormed) (b : Option Int) (m : Option Numeric) :
    wp (cashoutMines env b m) (fun _ _ => True) DbError.OtherThanTarget s := by
  unfold cashoutMines
  simp only [wp_bind, wp_get, wp_require, wp_raiseIf, wp_nullableBigint, DbError.OtherThanTarget,
    implies_true, true_and]
  intros
  exact resolveBet_targets hs ..

theorem consumeRateToken_targets (d : Option Int) (p : Option String) (w m : Option Int) :
    wp (consumeRateToken env d p w m) (fun _ _ => True) DbError.OtherThanTarget s := by
  unfold consumeRateToken
  simp only [wp_bind, wp_get, wp_set, wp_pure, wp_raiseIf, wp_notNull, DbError.OtherThanTarget,
    implies_true, and_true]

theorem insertRaffleTickets_targets (ticket : RaffleTicket) (count : Nat) :
    wp (insertRaffleTickets ticket count) (fun _ _ => True) DbError.OtherThanTarget s := by
  induction count generalizing s with
  | zero => trivial
  | succ count ih =>
      unfold insertRaffleTickets
      simp only [wp_bind, wp_get, wp_set, wp_raiseIf, wp_nextval, DbError.OtherThanTarget,
        implies_true, true_and]
      exact fun _ => ih

theorem grantRaffleTickets_targets (d p n b : Option Int) :
    wp (grantRaffleTickets env d p n b) (fun _ _ => True) DbError.OtherThanTarget s := by
  unfold grantRaffleTickets
  simp only [insertRaffleTickets_targets, wp_bind, wp_get, wp_pure, wp_require, wp_raiseIf, wp_ite,
    wp_notNull, DbError.OtherThanTarget, keptTarget_names_ne, ne_eq, not_false_eq_true,
    implies_true, and_true]

/-! ## Disputes -/

theorem disputedUser_eq (dispute : Dispute) :
    s.disputedUser dispute =
      (s.ticketOf dispute.ticketType dispute.ticketUid).map Ticket.discordId := by
  unfold Database.disputedUser Database.ticketOf
  cases dispute.ticketType <;> simp [Function.comp_def]

theorem Database.DisputesRegistered.disputedUser (hdisputes : s.DisputesRegistered)
    {disputeId : Option Int} {dispute : Dispute}
    (hdispute : s.disputes.select disputeId = some dispute) :
    ∃ u, s.disputedUser dispute = some u ∧ s.HasUser u := by
  obtain ⟨id, rfl, hget⟩ := Table.select_eq_some.mp hdispute
  obtain ⟨ticket, hticket, huser⟩ := hdisputes id dispute hget
  exact ⟨ticket.discordId, by rw [disputedUser_eq, hticket, Option.map_some], huser⟩

theorem payRefund_targets {post : Unit → Database → Prop} (hs : s.HasUser 0) (before : Database)
    (dispute : Dispute) (d : Option Int) (c : Option String) (a b : Option Int)
    (hpost : ∀ s', (∀ v, s.HasUser v → s'.HasUser v) → post () s') :
    wp (payRefund env before dispute d c a b) post DbError.OtherThanTarget s := by
  have hfull : ∀ s₁, (∀ v, s.HasUser v → s₁.HasUser v) →
      wp (ifDo (IsEq c (some "refund-full")) do
        raiseIf (dispute.ticketType ≠ .withdraw) .refundFullOnlyForWithdrawDisputes
        treasuryWithdrawToUser env
          ((before.withdrawTickets.get? dispute.ticketUid).map fun ticket => ticket.amount)
          (before.disputedUser dispute) b (some ("refund-full dispute=" ++ formatInt d)))
        post DbError.OtherThanTarget s₁ := by
    intro s₁ h₁
    simp only [wp_ifDo, wp_bind, wp_raiseIf, DbError.OtherThanTarget, implies_true, true_and]
    refine ⟨fun _ _ => ?_, fun _ => hpost s₁ h₁⟩
    exact treasuryWithdrawToUser_targets (h₁ 0 hs) _ _ _ _ fun s₂ h₂ =>
      hpost s₂ fun v hv => h₂ v (h₁ v hv)
  unfold payRefund
  rw [wp_bind, wp_ifDo]
  simp only [wp_bind, wp_require, wp_raiseIf, DbError.OtherThanTarget, implies_true, true_and]
  refine ⟨fun _ amount _ _ => ?_, fun _ => hfull s fun _ => id⟩
  exact treasuryWithdrawToUser_targets hs _ _ _ _ fun s₁ h₁ => hfull s₁ h₁

theorem resolveDispute_targets (hs : s.WellFormed) (hdisputes : s.DisputesRegistered)
    (d : Option Int) (c : Option String) (a b : Option Int) :
    wp (resolveDispute env d c a b) (fun _ _ => True) DbError.OtherThanTarget s := by
  unfold resolveDispute
  simp only [wp_bind, wp_get, wp_modify, wp_pure, wp_require, wp_raiseIf, DbError.OtherThanTarget,
    implies_true, true_and]
  intro dispute hdispute _ _
  refine payRefund_targets hs.hasUser_zero s dispute d c a b fun s₁ h₁ id _ => ?_
  obtain ⟨u, htarget, huser⟩ := hdisputes.disputedUser hdispute
  refine auditLogInsert_targets ?_ fun _ _ _ => trivial
  rintro v hv -
  obtain rfl := Option.some.inj (htarget.symm.trans hv)
  exact h₁ u huser

theorem rejectDispute_targets (hdisputes : s.DisputesRegistered) (d : Option Int)
    (r : Option String) (a : Option Int) :
    wp (rejectDispute env d r a) (fun _ _ => True) DbError.OtherThanTarget s := by
  unfold rejectDispute
  simp only [wp_bind, wp_get, wp_modify, wp_pure, wp_require, wp_raiseIf, DbError.OtherThanTarget,
    implies_true, true_and]
  intro dispute hdispute _ id _
  obtain ⟨u, htarget, huser⟩ := hdisputes.disputedUser hdispute
  refine auditLogInsert_targets ?_ fun _ _ _ => trivial
  rintro _ ⟨⟩ -
  rw [htarget]
  exact huser

theorem TicketType.text_mem_texts (kind : TicketType) : kind.text ∈ TicketType.texts := by
  cases kind <;> decide

theorem TicketType.ofText_text (kind : TicketType) : TicketType.ofText kind.text = some kind := by
  cases kind <;> rfl

theorem TicketType.ofText_eq_some {text : String} {kind : TicketType}
    (hkind : TicketType.ofText text = some kind) : text = kind.text := by
  unfold TicketType.ofText at hkind
  split at hkind <;> cases hkind <;> rfl

theorem openDispute_targets (t u : Option String) (o : Option Int) (e r : Option String)
    (hknown : ¬ s.TargetsStranger (.openDispute t u o e r)) :
    wp (openDispute env t u o e r) (fun _ _ => True) DbError.OtherThanTarget s := by
  unfold openDispute insertDispute
  simp only [wp_bind, wp_get, wp_set, wp_pure, wp_require, wp_raiseIf, wp_notNull, wp_checkedText,
    wp_nextval, DbError.OtherThanTarget, implies_true, true_and]
  rintro - - owner howner _ rfl kind hkind uid rfl opener rfl roleText rfl role hrole reason rfl
    hid hfirst
  refine auditLogInsert_targets ?_ fun _ _ _ => trivial
  rintro _ ⟨⟩ -
  obtain rfl := TicketType.ofText_eq_some hkind
  rw [ticket?_text] at howner
  obtain ⟨ticket, hticket, rfl⟩ := Option.map_eq_some_iff.mp howner
  refine by_contra fun hstranger => hknown (.dispute hticket hstranger hrole (not_not.mp hid) ?_)
  exact fun id dispute hdispute hsame =>
    hfirst (Table.any_eq_true.mpr ⟨id, dispute, hdispute, by simpa using hsame⟩)

theorem expireCashier_targets (d : Option Int)
    (hknown : ¬ s.TargetsStranger (.expireCashier d)) :
    wp (expireCashier env d) (fun _ _ => True) DbError.OtherThanTarget s := by
  unfold expireCashier
  simp only [wp_bind, wp_get, wp_set, wp_pure, wp_raiseIf, wp_notNull, DbError.OtherThanTarget,
    implies_true, true_and]
  rintro honline cashier rfl
  refine wp_of_keepsUsers (endSessions_keepsUsers _ _) fun s₁ h₁ => ?_
  refine auditLogInsert_targets ?_ fun _ _ _ => trivial
  rintro _ ⟨⟩ -
  rw [Database.HasUser, h₁]
  rw [Table.select_some, not_ne_iff] at honline
  obtain ⟨row, hrow, hstatus⟩ := Option.map_eq_some_iff.mp honline
  exact fun hstranger => hknown (.expire hrow hstatus (not_not.mpr hstranger))

/-! ## Every call -/

/-- A call that targets no stranger is not stopped by the audit log's reference
to `core.users`. -/
theorem callBody_targets (hs : s.WellFormed) (hdisputes : s.DisputesRegistered) (call : Call)
    (hknown : ¬ s.TargetsStranger call) :
    wp (callBody env call) (fun _ _ => True) DbError.OtherThanTarget s := by
  cases call <;> simp only [callBody, wp_bind, wp_pure]
  case createDepositTicket => exact createDepositTicket_targets hs ..
  case confirmDeposit => exact confirmDeposit_targets ..
  case cancelDeposit => exact cancelDeposit_targets hs ..
  case createWithdrawTicket => exact createWithdrawTicket_targets ..
  case confirmWithdraw => exact confirmWithdraw_targets hs ..
  case cancelWithdraw => exact cancelWithdraw_targets hs ..
  case claimTicket => exact claimTicket_targets hs ..
  case releaseTicket => exact releaseTicket_targets hs ..
  case openDispute => exact openDispute_targets _ _ _ _ _ hknown
  case resolveDispute => exact resolveDispute_targets hs hdisputes ..
  case rejectDispute => exact rejectDispute_targets hdisputes ..
  case treasurySweep => exact treasurySweep_targets hs ..
  case treasuryWithdrawToUser =>
      exact treasuryWithdrawToUser_targets hs.hasUser_zero _ _ _ _ fun _ _ => trivial
  case addCashierCharacter => exact addCashierCharacter_targets hs ..
  case removeCashierCharacter => exact removeCashierCharacter_targets hs ..
  case setCashierStatus => exact setCashierStatus_targets hs ..
  case expireCashier => exact expireCashier_targets _ hknown
  case banUser => exact banUser_targets ..
  case unbanUser => exact unbanUser_targets ..
  case applyBet => exact applyBet_targets ..
  case resolveBet => exact resolveBet_targets hs ..
  case refundBet => exact refundBet_targets hs ..
  case cashoutMines => exact cashoutMines_targets hs ..
  case consumeRateToken => exact consumeRateToken_targets ..
  case grantRaffleTickets => exact grantRaffleTickets_targets ..

/-- A call that targets a stranger is stopped there, wherever it can be audited. -/
theorem callBody_targetMissing (hcall : s.TargetsStranger call) {key : Bytes}
    (hkey : env.chainKey = .ok key) :
    wp (callBody env call) (fun _ _ => False) (· = auditTargetMissing) s := by
  cases hcall with
  | @dispute kind uid ticket opener role roleText reason hticket hstranger hrole hid hfirst =>
      have hrole' : roleText ∈ OpenerRole.texts := by
        unfold OpenerRole.ofText at hrole
        split at hrole <;> simp_all [OpenerRole.texts]
      have hany : s.disputes.any (fun _ other =>
          decide (other.ticketType = kind) && decide (other.ticketUid = uid)) = false := by
        rw [Bool.eq_false_iff, Ne, Table.any_eq_true]
        rintro ⟨id, dispute, hdispute, hsame⟩
        exact hfirst id dispute hdispute (by simpa using hsame)
      have hnone := not_not.mp hstranger
      simp only [callBody, openDispute, insertDispute, wp_bind, wp_get, wp_set, wp_pure, wp_require,
        wp_raiseIf, wp_notNull, wp_checkedText, wp_nextval, wp_auditLogInsertWithChain]
      simp [kind.text_mem_texts, hrole', ticket?_text, hticket, kind.ofText_text, hrole, hid, hany,
        hkey, hnone, auditTargetMissing]
  | @expire cashier row hrow hstatus hstranger =>
      simp only [callBody, expireCashier, endSessions, wp_bind, wp_get, wp_set, wp_modify, wp_pure,
        wp_raiseIf, wp_notNull, wp_auditLogInsertWithChain]
      have hnone := not_not.mp hstranger
      simp [hrow, hstatus, hkey, hnone, auditTargetMissing]

/-- The audit log's reference to `core.users` stops some session's call exactly when
the call targets a stranger. -/
theorem exec_targetMissing_iff (hs : s.WellFormed) (hdisputes : s.DisputesRegistered) :
    (∀ env, (call.exec env s).1 ≠ .error auditTargetMissing) ↔ ¬ s.TargetsStranger call := by
  constructor
  · intro hnever hcall
    have hkey : Env.plain.chainKey = .ok [1] := rfl
    have hwp := callBody_targetMissing hcall hkey
    rcases hrun : (call.exec Env.plain s).1 with e | ⟨⟩
    · exact hnever Env.plain (by rw [hrun, transact_raises _ hwp hrun])
    · exact post_of_outcome hwp (transact_ok Database.rollback (Prod.ext hrun rfl))
  · intro hknown env hmissing
    exact transact_raises _ (callBody_targets hs hdisputes call hknown) hmissing rfl

/-! ## Runs -/

theorem step_hasUser (hs : s.WellFormed) (command : Command) {u : Int} (hu : s.HasUser u) :
    (step s command).HasUser u := by
  cases command with
  | call env call =>
      by_cases hok : call.Succeeds env s
      · exact (takes_of_succeeds hs hok).2.users hu
      · obtain ⟨atError, heq⟩ := step_of_fails hok
        rw [heq]
        exact hu
  | config write => exact (config_grows write).users hu

/-- A ticket of a registered user stays one. -/
theorem step_registeredTicket (hs : s.WellFormed) (command : Command) {kind : TicketType}
    {uid : String} (hticket : ∃ ticket, s.ticketOf kind uid = some ticket ∧
      s.HasUser ticket.discordId) :
    ∃ ticket, (step s command).ticketOf kind uid = some ticket ∧
      (step s command).HasUser ticket.discordId := by
  obtain ⟨ticket, hticket, huser⟩ := hticket
  obtain ⟨ticket', hticket', hmove⟩ := step_ticketOf hs command hticket
  have howner : ticket'.discordId = ticket.discordId := by
    rcases hmove with ⟨env, call, -, -, hmove⟩ | ⟨-, rfl⟩
    · exact hmove.discordId
    · rfl
  exact ⟨ticket', hticket', howner ▸ step_hasUser hs command huser⟩

/-- A dispute is only opened about a ticket whose owner can be audited. -/
theorem openDispute_disputes (hdisputes : s.DisputesRegistered) (t u : Option String)
    (o : Option Int) (e r : Option String) :
    wp (openDispute env t u o e r) (fun _ s' => s'.DisputesRegistered) (fun _ => True) s := by
  unfold openDispute insertDispute
  simp only [wp_bind, wp_get, wp_set, wp_pure, wp_require, wp_raiseIf, wp_notNull, wp_checkedText,
    wp_nextval, wp_auditLogInsertWithChain, implies_true, true_and]
  rintro - - owner howner _ rfl kind hkind uid rfl opener rfl _ rfl role _ reason rfl hid -
    _ _ _ _ _ ⟨⟩ _ _ _ _ _ _ _ _ huser
  obtain rfl := TicketType.ofText_eq_some hkind
  rw [ticket?_text] at howner
  obtain ⟨ticket, hticket, rfl⟩ := Option.map_eq_some_iff.mp howner
  intro id dispute hdispute
  have hnew : s.disputes.get? (s.sequences .disputes + 1) = none := not_not.mp hid
  simp only [Database.withAudit_disputes, Database.addDispute_disputes, Database.advance_disputes,
    Table.get?_insertNew, hnew, Option.getD_none] at hdispute
  split at hdispute
  next =>
    obtain rfl := Option.some.inj hdispute
    exact ⟨ticket, hticket, huser⟩
  next => exact hdisputes id dispute hdispute

theorem disputesRegistered_step (hs : s.WellFormed) (hdisputes : s.DisputesRegistered)
    (command : Command) : (step s command).DisputesRegistered := by
  intro id dispute hdispute
  have hkept : ∀ old, s.disputes.get? id = some old → dispute.ticketType = old.ticketType →
      dispute.ticketUid = old.ticketUid → ∃ ticket,
        (step s command).ticketOf dispute.ticketType dispute.ticketUid = some ticket ∧
          (step s command).HasUser ticket.discordId := by
    intro old hold hkind huid
    rw [hkind, huid]
    exact step_registeredTicket hs command (hdisputes id old hold)
  rcases ledger_command hs command with ⟨env, call, rfl, hok, hstep⟩ | ⟨hidle, hsame⟩
  · by_cases hopens : ∃ t u o e r, call = .openDispute t u o e r
    · obtain ⟨t, u, o, e, r, rfl⟩ := hopens
      have hwp : wp (callBody env (.openDispute t u o e r))
          (fun _ s' => s'.DisputesRegistered) (fun _ => True) s := by
        simp only [callBody, wp_bind, wp_pure]
        exact openDispute_disputes hdisputes ..
      exact post_of_outcome hwp (transact_ok Database.rollback (Prod.ext hok rfl)) id dispute
        hdispute
    · obtain ⟨old, hold, hkind, huid⟩ := hstep.dispute_origin
        (fun t u o e r heq => hopens ⟨t, u, o, e, r, heq⟩) hdispute
      exact hkept old hold hkind huid
  · have hdisputes' : (step s command).disputes = s.disputes := hsame.disputes
    exact hkept dispute (hdisputes' ▸ hdispute) rfl rfl

theorem disputesRegistered_run (hs : s₀.EmptyLedger) (commands : List Command) :
    (run step s₀ commands).DisputesRegistered := by
  have hstart : s₀.DisputesRegistered := by
    intro id dispute hdispute
    simp [hs.disputes] at hdispute
  exact run_keeps Database.DisputesRegistered
    (fun s command hs hdisputes => disputesRegistered_step hs hdisputes command) hs.wellFormed
    hstart commands

/-- In every reachable state, the calls that the audit log's reference to
`core.users` can stop are those that open a dispute about the ticket of a stranger or
expire a cashier who is one. -/
theorem audit_target_registered_iff (hs : s₀.EmptyLedger) (commands : List Command)
    (call : Call) :
    (∀ env, (call.exec env (run step s₀ commands)).1 ≠ .error auditTargetMissing) ↔
      ¬ (run step s₀ commands).TargetsStranger call :=
  exec_targetMissing_iff (wellFormed_run hs.wellFormed commands) (disputesRegistered_run hs commands)

/-- A newcomer opens a deposit ticket and cancels it; a cashier who never deposited
goes online. -/
def strangerRun : List Command :=
  [.call .plain (.addCashierCharacter (some 7) (some "Bank") (some "Realm") (some "EU")
    (some "Horde")),
   .call .plain (.setCashierStatus (some 7) (some "online")),
   .call .plain (.createDepositTicket (some 9) (some "Char") (some "Realm") (some "EU")
    (some "Horde") (some 5000) (some 1) (some 2)),
   .call .plain (.cancelDeposit (some "deposit-1") (some 9) none)]

theorem audit_target_registered_iff_stranger :
    (∀ env, ((Call.openDispute (some "deposit") (some "deposit-1") (some 9) (some "user")
        (some "why")).exec env (run step .seeded strangerRun)).1 ≠ .error auditTargetMissing) ↔
      ¬ (run step .seeded strangerRun).TargetsStranger
        (.openDispute (some "deposit") (some "deposit-1") (some 9) (some "user") (some "why")) :=
  audit_target_registered_iff seeded_empty strangerRun _

/-- Neither the newcomer's ticket can be disputed nor can the cashier be expired. -/
theorem audit_target_stranger :
    ((Call.openDispute (some "deposit") (some "deposit-1") (some 9) (some "user")
        (some "why")).exec .plain (run step .seeded strangerRun)).1 = .error auditTargetMissing ∧
      ((Call.expireCashier (some 7)).exec .plain (run step .seeded strangerRun)).1 =
        .error auditTargetMissing :=
  ⟨rfl, rfl⟩

end DeathRoll
