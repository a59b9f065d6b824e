import DeathRoll.Dw.Disputes
import DeathRoll.Interleaved.Rows
import DeathRoll.Ledger.Runs

/-! # Disputes under concurrency

`dw.open_dispute`, `dw.resolve_dispute` with its nested
`dw.treasury_withdraw_to_user`, and `dw.reject_dispute`, statement by statement.
Both functions that close a dispute lock it before they read its status, and the
unique index lets one dispute in per ticket.
-/

namespace DeathRoll.Interleaved

open Relational Script

/-! ## The functions -/

def lockDispute (id : Int) : LedgerScript (Option Dispute) := lock (LedgerKey.dispute id)

/-- `SELECT * FROM dw.disputes WHERE id = _ FOR UPDATE`. -/
def selectDispute : Option Int → LedgerScript (Option Dispute)
  | none => pure none
  | some id => lockDispute id

/-- `SELECT discord_id` from `dw.deposit_tickets` or `dw.withdraw_tickets`. -/
def selectOwner (ofDeposit : Bool) (ticketUid : String) : LedgerScript (Option Int) :=
  see fun s =>
    if ofDeposit then (s.rows (.deposit ticketUid)).map fun ticket => ticket.discordId
    else (s.rows (.withdraw ticketUid)).map fun ticket => ticket.discordId

/-- `SELECT amount FROM dw.withdraw_tickets WHERE ticket_uid = _`. -/
def selectAmount (ticketUid : String) : LedgerScript (Option Int) :=
  see fun s => (s.rows (.withdraw ticketUid)).map fun ticket => ticket.amount

/-- `INSERT INTO dw.disputes`, with the id that the sequence gives. -/
def insertDispute (id : Int) (dispute : Dispute) : LedgerScript Unit := do
  addOrRaise (.dispute id) dispute (.uniqueViolation "disputes_pkey")
  addOrRaise (.disputeOf dispute.ticketType dispute.ticketUid) id
    (.uniqueViolation "disputes_ticket_type_ticket_uid_key")

def openDispute (env : Env) (nextId : Int) (pTicketType pTicketUid : Option String)
    (pOpenerId : Option Int) (pOpenerRole pReason : Option String) : LedgerScript Unit := do
  raiseIf (IsNotIn pTicketType TicketType.texts) .invalidTicketType
  raiseIf (IsNotIn pOpenerRole OpenerRole.texts) .invalidOpenerRole
  let ticketUid ← require .ticketNotFound pTicketUid
  let owner ← selectOwner (IsEq pTicketType (some "deposit")) ticketUid
  let vUser ← require .ticketNotFound owner
  let type ← notNull "ticket_type" pTicketType
  let ticketType ← require (.checkViolation "ticket_type") (TicketType.ofText type)
  let openerId ← notNull "opener_id" pOpenerId
  let role ← notNull "opener_role" pOpenerRole
  let openerRole ← require (.checkViolation "opener_role") (OpenerRole.ofText role)
  let reason ← notNull "reason" pReason
  insertDispute nextId
    { ticketType, ticketUid, openerId, openerRole, reason, status := .open, openedAt := env.now }
  auditLogInsertWithChain env
    { actorType := openerRole.actorType
      actorId := pOpenerId
      targetId := some vUser
      action := some "dispute_opened"
      amount := none
      balanceBefore := some 0
      balanceAfter := some 0
      reason := pReason
      refType := some "dispute"
      refId := some (toString nextId)
      botName := "dw"
      metadata := .obj [("ticket_type", .ofText? pTicketType),
        ("ticket_uid", .ofText? pTicketUid)] }

def treasuryWithdrawToUser (env : Env) (pAmount pTargetUser pAdminId : Option Int)
    (pReason : Option String) : LedgerScript Unit := do
  let amount ← require .amountMustBePositive pAmount
  raiseIf (amount ≤ 0) .amountMustBePositive
  raiseIf (IsEq pTargetUser (some 0)) .cannotWithdrawToTreasurySelf
  let treasury ← require .treasuryRowMissing (← lockBalance 0)
  let vTreasuryBefore := treasury.balance
  raiseIf (vTreasuryBefore < amount)
    (.insufficientTreasurySend (some vTreasuryBefore) (some amount))
  let targetUser ← notNull "discord_id" pTargetUser
  insertUser targetUser
  insertBalance targetUser
  let vUserBefore := (← lockBalance targetUser).map fun row => row.balance
  let vUserAfter ← nullableBigint (vUserBefore.map fun balance => balance + amount)
  updateBalance 0 fun row => { row with balance := row.balance - amount }
  updateBalance targetUser fun row => { row with balance := vUserAfter.getD 0 }
  auditLogInsertWithChain env
    { actorType := .admin
      actorId := pAdminId
      targetId := some 0
      action := some "treasury_to_user_debit"
      amount := some amount
      balanceBefore := some vTreasuryBefore
      balanceAfter := some (vTreasuryBefore - amount)
      reason := some (pReason.getD "treasury → user")
      refType := some "treasury"
      refId := some ("to_user:" ++ toString targetUser)
      botName := "dw"
      metadata := .obj [("target_user", .int targetUser)] }
  auditLogInsertWithChain env
    { actorType := .admin
      actorId := pAdminId
      targetId := some targetUser
      action := some "treasury_to_user_credit"
      amount := some amount
      balanceBefore := vUserBefore
      balanceAfter := vUserAfter
      reason := some (pReason.getD "treasury → user")
      refType := some "treasury"
      refId := pAdminId.map fun admin => "from_treasury:" ++ toString admin
      botName := "dw"
      metadata := .obj [("admin_id", .ofInt? pAdminId)] }

/-- The payments of `dw.resolve_dispute`; `'no-action'` and `'force-confirm'`
move no money. -/
def payRefund (env : Env) (vDispute : Dispute) (vUser pDisputeId : Option Int)
    (pAction : Option String) (pAmount pResolvedBy : Option Int) : LedgerScript Unit :=
  if IsEq pAction (some "partial-refund") then do
    let amount ← require .partialRefundRequiresPositiveAmount pAmount
    raiseIf (amount ≤ 0) .partialRefundRequiresPositiveAmount
    treasuryWithdrawToUser env (some amount) vUser pResolvedBy
      (some ("partial-refund dispute=" ++ formatInt pDisputeId))
  else
    ifDo (IsEq pAction (some "refund-full")) do
      -- meant for confirmed withdraws; the ticket's status is not read
      raiseIf (vDispute.ticketType ≠ .withdraw) .refundFullOnlyForWithdrawDisputes
      let vAmount ← selectAmount vDispute.ticketUid
      treasuryWithdrawToUser env vAmount vUser pResolvedBy
        (some ("refund-full dispute=" ++ formatInt pDisputeId))

def resolveDispute (env : Env) (pDisputeId : Option Int) (pAction : Option String)
    (pAmount pResolvedBy : Option Int) : LedgerScript Unit := do
  let vDispute ← require .disputeNotFound (← selectDispute pDisputeId)
  raiseIf vDispute.status.Terminal (.disputeAlreadyTerminal vDispute.status)
  raiseIf (IsNotIn pAction resolutions) (.invalidAction pAction)
  let vUser ← selectOwner (vDispute.ticketType = .deposit) vDispute.ticketUid
  payRefund env vDispute vUser pDisputeId pAction pAmount pResolvedBy
  let disputeId ← require .disputeNotFound pDisputeId
  store (.dispute disputeId) (vDispute.close env.now .resolved pAction pResolvedBy)
  auditLogInsertWithChain env
    { actorType := .admin
      actorId := pResolvedBy
      targetId := vUser
      action := pAction.map fun action => "dispute_resolved_" ++ action
      amount := pAmount
      balanceBefore := some 0
      balanceAfter := some 0
      reason := some ("Dispute #" ++ formatInt pDisputeId ++ " resolved as " ++
        formatText pAction)
      refType := some "dispute"
      refId := some (toString disputeId)
      botName := "dw"
      metadata := .obj [("ticket_type", .text vDispute.ticketType.text),
        ("ticket_uid", .text vDispute.ticketUid)] }

def rejectDispute (env : Env) (pDisputeId : Option Int) (pReason : Option String)
    (pAdminId : Option Int) : LedgerScript Unit := do
  let vDispute ← require .disputeNotFound (← selectDispute pDisputeId)
  raiseIf vDispute.status.Terminal (.disputeAlreadyTerminal vDispute.status)
  let owner ← selectOwner (vDispute.ticketType = .deposit) vDispute.ticketUid
  -- a vanished ticket falls back to the opener
  let vUser := owner.getD vDispute.openerId
  let disputeId ← require .disputeNotFound pDisputeId
  store (.dispute disputeId) (vDispute.close env.now .rejected pReason pAdminId)
  auditLogInsertWithChain env
    { actorType := .admin
      actorId := pAdminId
      targetId := some vUser
      action := some "dispute_rejected"
      amount := none
      balanceBefore := some 0
      balanceAfter := some 0
      reason := pReason
      refType := some "dispute"
      refId := some (toString disputeId)
      botName := "dw"
      metadata := .obj [("ticket_type", .text vDispute.ticketType.text),
        ("ticket_uid", .text vDispute.ticketUid)] }

/-- The calls on disputes, and the payout that one of them nests. -/
inductive DisputeCall where
  | openDispute (nextId : Int) (pTicketType pTicketUid : Option String) (pOpenerId : Option Int)
      (pOpenerRole pReason : Option String)
  | resolveDispute (pDisputeId : Option Int) (pAction : Option String)
      (pAmount pResolvedBy : Option Int)
  | rejectDispute (pDisputeId : Option Int) (pReason : Option String) (pAdminId : Option Int)
  | treasuryWithdrawToUser (pAmount pTargetUser pAdminId : Option Int) (pReason : Option String)

def disputeBody : Env × DisputeCall → LedgerScript Unit
  | (env, .openDispute nextId pTicketType pTicketUid pOpenerId pOpenerRole pReason) =>
      openDispute env nextId pTicketType pTicketUid pOpenerId pOpenerRole pReason
  | (env, .resolveDispute pDisputeId pAction pAmount pResolvedBy) =>
      resolveDispute env pDisputeId pAction pAmount pResolvedBy
  | (env, .rejectDispute pDisputeId pReason pAdminId) =>
      rejectDispute env pDisputeId pReason pAdminId
  | (env, .treasuryWithdrawToUser pAmount pTargetUser pAdminId pReason) =>
      treasuryWithdrawToUser env pAmount pTargetUser pAdminId pReason

/-! ## What the calls write -/

/-- The dispute that a call closes. -/
def DisputeCall.closes : DisputeCall → Option Int
  | .resolveDispute pDisputeId _ _ _ => pDisputeId
  | .rejectDispute pDisputeId _ _ => pDisputeId
  | _ => none

/-- What the treasury pays when the call closes a dispute: the given amount for a
partial refund, the withdraw ticket's amount for a full one, nothing otherwise. -/
def DisputeCall.payment (rows : LedgerRows) (dispute : Dispute) : DisputeCall → Int
  | .resolveDispute _ pAction pAmount _ =>
      if pAction = some "partial-refund" then pAmount.getD 0
      else if pAction = some "refund-full" then
        ((rows (.withdraw dispute.ticketUid)).map fun ticket => ticket.amount).getD 0
      else 0
  | _ => 0

/-- Only accounts and the audit log have changed. -/
def AccountsOnly (before after : LedgerRows) : Prop :=
  ∀ r, r ≠ .auditLog → (∀ discordId, r ≠ .user discordId) → (∀ discordId, r ≠ .balance discordId) →
    after r = before r

theorem AccountsOnly.refl (rows : LedgerRows) : AccountsOnly rows rows := fun _ _ _ _ => rfl

variable {known : Set LedgerKey} {rows : LedgerRows}

theorem post_lockDispute {Q : Option Dispute → Set LedgerKey → LedgerRows → Prop} (id : Int) :
    (lockDispute id).Post ledgerSchema Q known rows ↔
      (.dispute id ∉ known → Q none known rows) ∧
        ∀ row, rows (.dispute id) = some row → ∀ known', known ⊆ known' → .dispute id ∈ known' →
          Q (some row) known' rows :=
  post_lock_of_refs fun _ => rfl

theorem post_selectOwner {Q : Option Int → Set LedgerKey → LedgerRows → Prop} (ofDeposit : Bool)
    (ticketUid : String) (h : ∀ known' owner, known ⊆ known' → Q owner known' rows) :
    (selectOwner ofDeposit ticketUid).Post ledgerSchema Q known rows :=
  fun _ _ _ hknown _ => h _ _ hknown

/-- The amount of a ticket does not change. -/
theorem post_selectAmount {Q : Option Int → Set LedgerKey → LedgerRows → Prop} (ticketUid : String)
    (h : ∀ known' selected, known ⊆ known' →
      (∀ amount, selected = some amount →
        ((rows (.withdraw ticketUid)).map fun ticket => ticket.amount) = some amount) →
      Q selected known' rows) :
    (selectAmount ticketUid).Post ledgerSchema Q known rows := by
  intro keys seen hkeys hknown hseen
  apply h _ _ hknown
  intro amount hamount
  obtain ⟨ticket, hticket, rfl⟩ := Option.map_eq_some_iff.mp hamount
  obtain ⟨row, hrow, -, hkeeps, -⟩ := hseen _ _ hticket
  rw [hrow, Option.map_some, hkeeps]

/-- A payout moves its amount out of the treasury. -/
theorem post_treasuryWithdrawToUser {Q : Unit → Set LedgerKey → LedgerRows → Prop} (env : Env)
    (pAmount pTargetUser pAdminId : Option Int) (pReason : Option String)
    (hlog : .auditLog ∈ known)
    (h : ∀ known' after amount, pAmount = some amount → known ⊆ known' → AccountsOnly rows after →
      balanceOf 0 after = balanceOf 0 rows - amount → Q () known' after) :
    (treasuryWithdrawToUser env pAmount pTargetUser pAdminId pReason).Post ledgerSchema Q
      known rows := by
  simp only [treasuryWithdrawToUser, post_bind, post_require, post_raiseIf, post_lockBalance,
    post_notNull, post_nullableBigint, post_updateBalance]
  intro amount hamount hpos hself
  refine ⟨by simp, ?_⟩
  intro treasury htreasury known₁ hgrow₁ hknown₁ _ htreasury' hfunds target htarget
  cases htreasury'
  have hne : target ≠ 0 := by
    rintro rfl
    exact hself ⟨0, htarget, rfl⟩
  apply post_insertUser
  intro known₂ hgrow₂ huser
  apply post_insertBalance
  intro known₃ hgrow₃ hbalance
  refine ⟨fun hnone => (hnone hbalance).elim, ?_⟩
  intro user huserRow known₄ hgrow₄ hbalance₄ hbig
  refine ⟨fun hnone => (hnone (hgrow₄ (hgrow₃ (hgrow₂ hknown₁)))).elim, ?_⟩
  intro treasuryRow htreasuryRow known₅ hgrow₅ hknown₅ treasury' htreasury'
  refine ⟨fun hnone => (hnone (hgrow₅ hbalance₄)).elim, ?_⟩
  intro userRow huserRow' known₆ hgrow₆ hbalance₆ user' huser'
  simp only [ne_eq, reduceCtorEq, not_false_eq_true, Function.update_of_ne,
    LedgerKey.balance.injEq, Ne.symm hne, htreasury, Option.some.injEq] at htreasuryRow
  subst htreasuryRow
  have hgrow : known ⊆ known₆ := fun r hr =>
    hgrow₆ (hgrow₅ (hgrow₄ (hgrow₃ (hgrow₂ (hgrow₁ hr)))))
  apply post_auditLogInsertWithChain _ _ (hgrow hlog)
  intro known₇ debit hgrow₇ hdebit htarget₇
  apply post_auditLogInsertWithChain _ _ (hgrow₇ (hgrow hlog))
  intro known₈ credit hgrow₈ hcredit htarget₈
  apply h _ _ amount hamount
  · exact fun r hr => hgrow₈ (hgrow₇ (hgrow hr))
  · intro r hlog huser hbalance
    simp [hlog, huser, hbalance]
  · simp [balanceOf, hne.symm, htreasury, htreasury']

/-- What a call that returns has done to the rows. -/
inductive DisputeWrites : DisputeCall → LedgerRows → LedgerRows → Prop
  | opened {call : DisputeCall} {before : LedgerRows} {id : Int} {dispute : Dispute}
      {log : List AuditContent} (hcall : call.closes = none) (hnew : before (.dispute id) = none)
      (hindex : before (.disputeOf dispute.ticketType dispute.ticketUid) = none)
      (hlive : ¬ dispute.status.Terminal) :
      DisputeWrites call before
        (Function.update (Function.update (Function.update before (.dispute id) (some dispute))
          (.disputeOf dispute.ticketType dispute.ticketUid) (some id)) .auditLog (some log))
  | closed {call : DisputeCall} {before after : LedgerRows} {id : Int} {dispute closed : Dispute}
      (hcall : call.closes = some id) (hdispute : before (.dispute id) = some dispute)
      (hlive : ¬ dispute.status.Terminal) (hafter : after (.dispute id) = some closed)
      (hclosed : closed.status.Terminal) (htype : closed.ticketType = dispute.ticketType)
      (huid : closed.ticketUid = dispute.ticketUid)
      (hpaid : balanceOf 0 after = balanceOf 0 before - call.payment before dispute)
      (hframe : ∀ r, r ≠ .dispute id → r ≠ .auditLog → (∀ discordId, r ≠ .user discordId) →
        (∀ discordId, r ≠ .balance discordId) → after r = before r) :
      DisputeWrites call before after
  | paid {call : DisputeCall} {before after : LedgerRows} (hcall : call.closes = none)
      (hframe : AccountsOnly before after) : DisputeWrites call before after

/-- The row of a dispute that has just been closed. -/
theorem closed_row {id : Int} {log : List AuditContent} (closed : Dispute) :
    (Function.update (Function.update rows (.dispute id) (some closed)) .auditLog (some log))
      (.dispute id) = some closed := by
  rw [Function.update_of_ne (by simp), Function.update_self]

theorem rejectDispute_post (env : Env) (pDisputeId : Option Int) (pReason : Option String)
    (pAdminId : Option Int) (hlog : .auditLog ∈ known) :
    (rejectDispute env pDisputeId pReason pAdminId).Post ledgerSchema
      (fun _ _ after => DisputeWrites (.rejectDispute pDisputeId pReason pAdminId) rows after)
      known rows := by
  cases pDisputeId with
  | none => simp [rejectDispute, selectDispute, post_bind, post_pure, post_require]
  | some id =>
      simp only [rejectDispute, selectDispute, post_bind, post_lockDispute, post_require,
        post_raiseIf]
      refine ⟨by simp, ?_⟩
      intro dispute hdispute known₁ hgrow₁ hknown₁ _ hdispute' hlive
      cases hdispute'
      apply post_selectOwner
      intro known₂ owner hgrow₂ _ hid
      cases hid
      rw [post_store_of_refs rfl]
      intro hheld
      refine ⟨fun old hold => ?_, ?_⟩
      · cases hdispute.symm.trans hold
        exact ⟨rfl, rfl⟩
      · apply post_auditLogInsertWithChain _ _ (hgrow₂ (hgrow₁ hlog))
        intro known₃ content hgrow₃ hcontent htarget
        apply DisputeWrites.closed rfl hdispute hlive
          (closed_row (dispute.close env.now .rejected pReason pAdminId)) (.inr rfl) rfl rfl
        · simp [balanceOf, DisputeCall.payment]
        · intro r hr hlog huser hbalance
          rw [Function.update_of_ne hlog, Function.update_of_ne hr]

theorem openDispute_post (env : Env) (nextId : Int) (pTicketType pTicketUid : Option String)
    (pOpenerId : Option Int) (pOpenerRole pReason : Option String) (hlog : .auditLog ∈ known) :
    (openDispute env nextId pTicketType pTicketUid pOpenerId pOpenerRole pReason).Post
      ledgerSchema
      (fun _ _ after => DisputeWrites (.openDispute nextId pTicketType pTicketUid pOpenerId
        pOpenerRole pReason) rows after)
      known rows := by
  simp only [openDispute, post_bind, post_raiseIf, post_require, post_notNull, insertDispute,
    post_addOrRaise]
  intro htypes hroles ticketUid hticketUid
  apply post_selectOwner
  intro known₁ owner hgrow₁ _ howner type htype ticketType hticketType openerId hopenerId role
    hrole openerRole hopenerRole reason hreason hnew
  refine ⟨Set.empty_subset _, ?_⟩
  intro hindex
  refine ⟨Set.empty_subset _, ?_⟩
  apply post_auditLogInsertWithChain
  · exact Set.mem_insert_of_mem _ (Set.mem_insert_of_mem _ (hgrow₁ hlog))
  · intro known₂ content hgrow₂ hcontent htarget
    rw [Function.update_of_ne (by simp)] at hindex
    apply DisputeWrites.opened rfl hnew hindex
    simp [DisputeStatus.Terminal]

/-- The payment made, or no payment for an action that makes none. -/
theorem post_payRefund {Q : Unit → Set LedgerKey → LedgerRows → Prop} (env : Env)
    (vDispute : Dispute) (vUser pDisputeId : Option Int) (pAction : Option String)
    (pAmount pResolvedBy : Option Int) (hlog : .auditLog ∈ known)
    (h : ∀ known' after, known ⊆ known' → AccountsOnly rows after →
      balanceOf 0 after = balanceOf 0 rows - (DisputeCall.resolveDispute pDisputeId pAction pAmount
        pResolvedBy).payment rows vDispute → Q () known' after) :
    (payRefund env vDispute vUser pDisputeId pAction pAmount pResolvedBy).Post ledgerSchema Q
      known rows := by
  simp only [payRefund, post_ite, post_ifDo, post_bind, post_require, post_raiseIf]
  refine ⟨?_, fun hpartial => ⟨?_, ?_⟩⟩
  · intro hpartial amount hamount hpos
    obtain ⟨_, rfl, hpartial⟩ := hpartial
    cases hpartial
    apply post_treasuryWithdrawToUser _ _ _ _ _ hlog
    intro known' after paid hpaid hgrow haccounts hbalance
    cases hpaid
    apply h known' after hgrow haccounts
    rw [hbalance]
    simp [DisputeCall.payment, hamount]
  · intro hfull htype
    obtain ⟨_, rfl, hfull⟩ := hfull
    cases hfull
    apply post_selectAmount
    intro known₁ selected hgrow₁ hselected
    apply post_treasuryWithdrawToUser _ _ _ _ _ (hgrow₁ hlog)
    intro known₂ after paid hpaid hgrow₂ haccounts hbalance
    apply h known₂ after (hgrow₁.trans hgrow₂) haccounts
    rw [hbalance]
    simp [DisputeCall.payment, hselected paid hpaid]
  · intro hfull
    apply h known rows subset_rfl (.refl rows)
    have hpartial' : pAction ≠ some "partial-refund" := by
      rintro rfl
      exact hpartial (by simp)
    have hfull' : pAction ≠ some "refund-full" := by
      rintro rfl
      exact hfull (by simp)
    simp [DisputeCall.payment, hpartial', hfull']

theorem resolveDispute_post (env : Env) (pDisputeId : Option Int) (pAction : Option String)
    (pAmount pResolvedBy : Option Int) (hlog : .auditLog ∈ known) :
    (resolveDispute env pDisputeId pAction pAmount pResolvedBy).Post ledgerSchema
      (fun _ _ after =>
        DisputeWrites (.resolveDispute pDisputeId pAction pAmount pResolvedBy) rows after)
      known rows := by
  cases pDisputeId with
  | none => simp [resolveDispute, selectDispute, post_bind, post_pure, post_require]
  | some id =>
      simp only [resolveDispute, selectDispute, post_bind, post_lockDispute, post_require,
        post_raiseIf]
      refine ⟨by simp, ?_⟩
      intro dispute hdispute known₁ hgrow₁ hknown₁ _ hdispute' hlive haction
      cases hdispute'
      apply post_selectOwner
      intro known₂ owner hgrow₂
      apply post_payRefund _ _ _ _ _ _ _ (hgrow₂ (hgrow₁ hlog))
      intro known₃ paid hgrow₃ haccounts hbalance _ hid
      cases hid
      have hsame : paid (.dispute id) = some dispute := by
        rw [haccounts _ (by simp) (by simp) (by simp), hdispute]
      rw [post_store_of_refs rfl]
      intro hheld
      refine ⟨fun old hold => ?_, ?_⟩
      · cases hsame.symm.trans hold
        exact ⟨rfl, rfl⟩
      · apply post_auditLogInsertWithChain _ _ (hgrow₃ (hgrow₂ (hgrow₁ hlog)))
        intro known₄ content hgrow₄ hcontent htarget
        apply DisputeWrites.closed rfl hdispute hlive
          (closed_row (dispute.close env.now .resolved pAction pResolvedBy)) (.inl rfl) rfl
          rfl
        · rw [balanceOf_update_of_ne (by simp), balanceOf_update_of_ne (by simp), hbalance]
        · intro r hr hlog huser hbalance
          rw [Function.update_of_ne hlog, Function.update_of_ne hr]
          exact haccounts r hlog huser hbalance

theorem disputeBody_describes {base : LedgerRows} (hlog : .auditLog ∈ present base) :
    Concurrent.Describes ledgerSchema base
      (fun call before _ after => DisputeWrites call.2 before after) disputeBody where
  post := by
    rintro ⟨env, call⟩ rows -
    cases call with
    | openDispute nextId pTicketType pTicketUid pOpenerId pOpenerRole pReason =>
        exact openDispute_post env nextId pTicketType pTicketUid pOpenerId pOpenerRole pReason hlog
    | resolveDispute pDisputeId pAction pAmount pResolvedBy =>
        exact resolveDispute_post env pDisputeId pAction pAmount pResolvedBy hlog
    | rejectDispute pDisputeId pReason pAdminId =>
        exact rejectDispute_post env pDisputeId pReason pAdminId hlog
    | treasuryWithdrawToUser pAmount pTargetUser pAdminId pReason =>
        apply post_treasuryWithdrawToUser env pAmount pTargetUser pAdminId pReason hlog
        intro known' after amount hamount hgrow haccounts hbalance
        exact .paid rfl haccounts

/-! ## Any interleaving -/

/-- The unique index knows every dispute. -/
def DisputesIndexed (rows : LedgerRows) : Prop :=
  ∀ id dispute, rows (.dispute id) = some dispute →
    rows (.disputeOf dispute.ticketType dispute.ticketUid) = some id

/-- 1 once the dispute is resolved or rejected. -/
def disputeClosed (id : Int) (rows : LedgerRows) : Nat :=
  match rows (.dispute id) with
  | some dispute => if dispute.status.Terminal then 1 else 0
  | none => 0

/-- 1 for a call that closes the dispute. -/
def closings (id : Int) (call : Env × DisputeCall) (_ _ : LedgerRows) : Nat :=
  if call.2.closes = some id then 1 else 0

section Disputes

variable {call : DisputeCall} {before after : LedgerRows}

theorem DisputesIndexed.step (hindexed : DisputesIndexed before)
    (h : DisputeWrites call before after) : DisputesIndexed after := by
  intro id dispute hdispute
  cases h with
  | @opened new opened log hcall hnew hindex hlive =>
      by_cases hid : id = new
      · subst hid
        simp at hdispute
        subst hdispute
        simp
      · have hold : before (.dispute id) = some dispute := by simpa [hid] using hdispute
        have hindexed := hindexed id dispute hold
        have hne : LedgerKey.disputeOf dispute.ticketType dispute.ticketUid ≠
            .disputeOf opened.ticketType opened.ticketUid := by
          intro heq
          rw [LedgerKey.disputeOf.injEq] at heq
          rw [heq.1, heq.2, hindex] at hindexed
          cases hindexed
        rw [Function.update_of_ne (by simp), Function.update_of_ne hne,
          Function.update_of_ne (by simp), hindexed]
  | @closed _ key old closed hcall hold hlive hafter hclosed htype huid hpaid hframe =>
      by_cases hid : id = key
      · subst hid
        cases hafter.symm.trans hdispute
        rw [htype, huid, hframe _ (by simp) (by simp) (by simp) (by simp)]
        exact hindexed id old hold
      · rw [hframe _ (by simp [hid]) (by simp) (by simp) (by simp)] at hdispute
        rw [hframe _ (by simp) (by simp) (by simp) (by simp)]
        exact hindexed id dispute hdispute
  | paid hcall hframe =>
      rw [hframe _ (by simp) (by simp) (by simp)] at hdispute ⊢
      exact hindexed id dispute hdispute

/-- Closing a dispute is what makes it terminal. -/
theorem disputeClosed_step (h : DisputeWrites call before after) (env : Env) (id : Int) :
    disputeClosed id after = disputeClosed id before + closings id (env, call) before after := by
  cases h with
  | @opened new opened log hcall hnew hindex hlive =>
      by_cases hid : id = new
      · subst hid
        simp [disputeClosed, closings, hcall, hnew, hlive]
      · simp [disputeClosed, closings, hcall, hid]
  | @closed _ key old closed hcall hold hlive hafter hclosed htype huid hpaid hframe =>
      by_cases hid : id = key
      · subst hid
        simp [disputeClosed, closings, hcall, hold, hafter, hlive, hclosed]
      · have hsame := hframe (.dispute id) (by simp [hid]) (by simp) (by simp) (by simp)
        simp [disputeClosed, closings, hcall, hsame, Ne.symm hid]
  | paid hcall hframe =>
      have hsame := hframe (.dispute id) (by simp) (by simp) (by simp)
      simp [disputeClosed, closings, hcall, hsame]

theorem disputeClosed_le_one (id : Int) (rows : LedgerRows) : disputeClosed id rows ≤ 1 := by
  unfold disputeClosed
  split
  · split
    · exact le_rfl
    · exact Nat.zero_le 1
  · exact Nat.zero_le 1

/-- A call that closes a dispute finds it live and pays what its action says. -/
theorem DisputeWrites.pays (h : DisputeWrites call before after) {id : Int}
    (hcall : call.closes = some id) :
    ∃ dispute, before (.dispute id) = some dispute ∧ ¬ dispute.status.Terminal ∧
      balanceOf 0 after = balanceOf 0 before - call.payment before dispute := by
  cases h with
  | opened hnone hnew hindex hlive => cases hnone.symm.trans hcall
  | closed hsome hdispute hlive hafter hclosed htype huid hpaid hframe =>
      cases hsome.symm.trans hcall
      exact ⟨_, hdispute, hlive, hpaid⟩
  | paid hnone hframe => cases hnone.symm.trans hcall

end Disputes

/-- Any number of calls, interleaved statement by statement. -/
abbrev DisputeWorld (τ : Type) := Concurrent τ (Env × DisputeCall) LedgerKey.Row DbError Unit

/-- A dispute is settled at most once: at most one call on it commits, which finds
it live and takes exactly its payment from the treasury, every other step leaves
all rows as they are, and no ticket has two disputes. -/
theorem dispute_settled_once {τ : Type} [DecidableEq τ] {keys : List LedgerKey} {rows : LedgerRows}
    (hdb : Migrated keys rows) (hindexed : DisputesIndexed rows)
    (moves : List (Move τ (Env × DisputeCall))) (id : Int) :
    let world : DisputeWorld τ := run (Concurrent.step disputeBody) (.quiet keys rows) moves
    let taken := steps (Concurrent.step disputeBody)
      (Concurrent.quiet keys rows : DisputeWorld τ) moves
    (taken.map (Concurrent.added disputeBody (closings id))).sum ≤ 1 ∧
      (∀ before move env call, (before, move) ∈ taken →
        before.commits move = some ((env, call), ()) → call.closes = some id →
        ∃ dispute, before.committed (.dispute id) = some dispute ∧ ¬ dispute.status.Terminal ∧
          balanceOf 0 (before.step disputeBody move).committed =
            balanceOf 0 before.committed - call.payment before.committed dispute) ∧
      (∀ before move, (before, move) ∈ taken → before.commits move = none →
        (before.step disputeBody move).committed = before.committed) ∧
      ∀ id₁ id₂ dispute₁ dispute₂, world.committed (.dispute id₁) = some dispute₁ →
        world.committed (.dispute id₂) = some dispute₂ →
        dispute₁.ticketType = dispute₂.ticketType → dispute₁.ticketUid = dispute₂.ticketUid →
        id₁ = id₂ := by
  intro world taken
  have hbody := disputeBody_describes hdb.auditLog
  have hkeep : ∀ (call : Env × DisputeCall) before (result : Unit) after, Older ledgerSchema rows before →
      DisputeWrites call.2 before after → DisputesIndexed before → DisputesIndexed after :=
    fun call before _ after _ h hindexed => hindexed.step h
  refine ⟨?_, ?_, ?_, ?_⟩
  · have hsum := Concurrent.committed_accounts hbody hkeep (disputeClosed id) (closings id)
      (fun call before result after _ h _ => disputeClosed_step h call.1 id) hdb.toConsistent hindexed moves
    have hle : disputeClosed id world.committed ≤ 1 := disputeClosed_le_one id _
    rw [hsum] at hle
    exact le_trans (Nat.le_add_left _ _) hle
  · intro before move env call hmem hcommits hcall
    exact (Concurrent.commits_acts_of_mem_steps hbody hdb.toConsistent hmem hcommits).pays hcall
  · intro before move _ hcommits
    exact Concurrent.committed_step_of_commits_eq_none disputeBody hcommits
  · intro id₁ id₂ dispute₁ dispute₂ hdispute₁ hdispute₂ htype huid
    have hend : DisputesIndexed world.committed :=
      Concurrent.committed_run hbody hkeep hdb.toConsistent hindexed moves
    have hindex₁ := hend id₁ dispute₁ hdispute₁
    have hindex₂ := hend id₂ dispute₂ hdispute₂
    rw [htype, huid, hindex₂] at hindex₁
    exact (Option.some.inj hindex₁).symm

theorem disputedAmount_pos : (0 : Int) < 5000 := by decide

theorem disputedFee_nonneg : (0 : Int) ≤ 100 := by decide

/-- A confirmed withdraw of user 9, with an open dispute. -/
def disputeEntries : List ((r : LedgerKey) × r.Row) :=
  [⟨.auditLog, []⟩, ⟨.user 0, {}⟩,
   ⟨.balance 0, startBalance⟩,
   ⟨.withdraw "withdraw-1",
    { id := 1, discordId := 9, charName := "Char", realm := "Realm", region := .EU,
      faction := .Horde, amount := 5000, status := .confirmed, threadId := 1, parentChannelId := 2,
      expiresAt := 86400000000, lastActivityAt := 0, createdAt := 0, amount_pos := disputedAmount_pos,
      fee := 100, fee_nonneg := disputedFee_nonneg }⟩,
   ⟨.dispute 1,
    { ticketType := .withdraw, ticketUid := "withdraw-1", openerId := 9, openerRole := .user,
      reason := "nothing arrived", status := .open, openedAt := 0 }⟩,
   ⟨.disputeOf .withdraw "withdraw-1", 1⟩]

/-- A full refund that overtakes a partial one. -/
def disputeMoves : List (Move Nat (Env × DisputeCall)) :=
  [.start 0 (.plain, .resolveDispute (some 1) (some "refund-full") none (some 0)),
   .start 1 (.plain, .resolveDispute (some 1) (some "partial-refund") (some 100) (some 0))] ++
    List.replicate 30 (.next 0) ++ [.next 1, .commit 0] ++ List.replicate 30 (.next 1) ++ [.commit 1]

theorem dispute_settled_once_overtaken :
    ((steps (Concurrent.step disputeBody)
      (Concurrent.quiet (disputeEntries.map Sigma.fst) (rowsOf disputeEntries) : DisputeWorld Nat)
      disputeMoves).map (Concurrent.added disputeBody (closings 1))).sum ≤ 1 ∧
    balanceOf 0 (run (Concurrent.step disputeBody)
      (Concurrent.quiet (disputeEntries.map Sigma.fst) (rowsOf disputeEntries) : DisputeWorld Nat)
      disputeMoves).committed = 4000 := by
  have hdb : Migrated (disputeEntries.map Sigma.fst) (rowsOf disputeEntries) :=
    migrated_rowsOf disputeEntries (Option.some_ne_none _) (by simp [disputeEntries])
  have hindexed : DisputesIndexed (rowsOf disputeEntries) := by
    intro id dispute hdispute
    have hmem := rowsOf_ne_none (by rw [hdispute]; exact Option.some_ne_none _)
    obtain rfl : id = 1 := by simpa [disputeEntries] using hmem
    have hrow : rowsOf disputeEntries (.dispute 1) = some _ := rfl
    cases hrow.symm.trans hdispute
    rfl
  exact ⟨(dispute_settled_once hdb hindexed disputeMoves 1).1, by decide +kernel⟩

end DeathRoll.Interleaved
