import DeathRoll.Ledger.Runs
import DeathRoll.Interleaved.Rows

/-! # Deposits under concurrency

`dw.claim_ticket`, `dw.release_ticket`, `dw.confirm_deposit` and
`dw.cancel_deposit`, statement by statement. Each call locks its ticket before it
reads the status, so whatever the interleaving a deposit is credited when its
ticket becomes confirmed, and at no other time.
-/

namespace DeathRoll.Interleaved

open Relational Script

/-! ## The functions -/

/-- `SELECT ... FROM dw.deposit_tickets WHERE ticket_uid = _ FOR UPDATE`. -/
def selectDeposit : Option String → LedgerScript (Option Ticket)
  | none => pure none
  | some uid => lockDeposit uid

/-- `SELECT ... FROM dw.withdraw_tickets WHERE ticket_uid = _ FOR UPDATE`. -/
def selectWithdraw : Option String → LedgerScript (Option WithdrawTicket)
  | none => pure none
  | some uid => lockWithdraw uid

/-- The ticket a type and uid name, locked: any type but `'deposit'`, `NULL`
included, reads `dw.withdraw_tickets`. -/
def selectTicket (pTicketType pTicketUid : Option String) : LedgerScript (Option Ticket) :=
  if IsEq pTicketType (some "deposit") then selectDeposit pTicketUid
  else do
    let ticket ← selectWithdraw pTicketUid
    return ticket.map WithdrawTicket.toTicket

/-- `UPDATE` of shared columns on the ticket a type and uid name. -/
def updateTicket (pTicketType : Option String) (uid : String) (assign : Ticket → Ticket) :
    LedgerScript Unit :=
  if IsEq pTicketType (some "deposit") then do
    match ← lockDeposit uid with
    | none => pure ()
    | some ticket => updateDeposit uid ticket (assign ticket)
  else do
    match ← lockWithdraw uid with
    | none => pure ()
    | some ticket => updateWithdraw uid ticket { ticket with toTicket := assign ticket.toTicket }

/-- `SELECT EXISTS`: the cashier has an active character in the region. -/
def servesRegion (cashier : Option Int) (region : Region) : LedgerScript Bool :=
  see fun s => s.keys.any fun
    | .cashierCharacter key =>
        cashier = some key.discordId ∧ key.region = region ∧
          (s.rows (.cashierCharacter key)).any CashierCharacter.isActive
    | _ => false

def claimTicket (env : Env) (pTicketType pTicketUid : Option String) (pCashierId : Option Int) :
    LedgerScript Unit := do
  raiseIf (IsNotIn pTicketType TicketType.texts) .invalidTicketType
  let vTicket ← require .ticketNotFound (← selectTicket pTicketType pTicketUid)
  raiseIf (vTicket.status ≠ .open) (.alreadyClaimed vTicket.status)
  let vMatch ← servesRegion pCashierId vTicket.region
  raiseIf (vMatch = false) (.regionMismatch pCashierId vTicket.region)
  let uid ← require .ticketNotFound pTicketUid
  updateTicket pTicketType uid fun ticket => ticket.claim env.now pCashierId
  let vBalance := (← selectBalance vTicket.discordId).getD 0
  let target ← registeredOr0 vTicket.discordId
  auditLogInsertWithChain env
    { actorType := .cashier
      actorId := pCashierId
      targetId := some target
      action := pTicketType.map fun ticketType => ticketType ++ "_claimed"
      amount := some vTicket.amount
      balanceBefore := some vBalance
      balanceAfter := some vBalance
      reason := some ("Cashier " ++ formatInt pCashierId ++ " claimed " ++
        formatText pTicketType ++ " ticket")
      refType := pTicketType.map fun ticketType => ticketType ++ "_ticket"
      refId := pTicketUid
      botName := "dw"
      metadata := .obj [("region", .text vTicket.region.text)] }

def releaseTicket (env : Env) (pTicketType pTicketUid : Option String) (pActorId : Option Int) :
    LedgerScript Unit := do
  raiseIf (IsNotIn pTicketType TicketType.texts) .invalidTicketType
  let vTicket ← require .ticketNotFound (← selectTicket pTicketType pTicketUid)
  raiseIf (vTicket.status ≠ .claimed) (.ticketNotClaimed vTicket.status)
  raiseIf (IsNe vTicket.claimedBy pActorId) (.wrongCashier vTicket.claimedBy pActorId)
  let uid ← require .ticketNotFound pTicketUid
  updateTicket pTicketType uid fun ticket => ticket.release env.now
  let vBalance := (← selectBalance vTicket.discordId).getD 0
  let target ← registeredOr0 vTicket.discordId
  auditLogInsertWithChain env
    { actorType := .cashier
      actorId := pActorId
      targetId := some target
      action := pTicketType.map fun ticketType => ticketType ++ "_released"
      amount := some vTicket.amount
      balanceBefore := some vBalance
      balanceAfter := some vBalance
      reason := some ("Cashier " ++ formatInt pActorId ++ " released the ticket")
      refType := pTicketType.map fun ticketType => ticketType ++ "_ticket"
      refId := pTicketUid
      botName := "dw"
      metadata := .obj [] }

def confirmDeposit (env : Env) (pTicketUid : Option String) (pCashierId : Option Int) :
    LedgerScript (Option Int) := do
  let vTicket ← require .ticketNotFound (← selectDeposit pTicketUid)
  if vTicket.status = .confirmed ∧ IsEq vTicket.claimedBy pCashierId then
    -- idempotent retry
    selectBalance vTicket.discordId
  else
    raiseIf (vTicket.status ≠ .claimed) (.ticketNotClaimed vTicket.status)
    raiseIf (IsNe vTicket.claimedBy pCashierId) (.wrongCashier vTicket.claimedBy pCashierId)
    let uid ← require .ticketNotFound pTicketUid
    insertUser vTicket.discordId
    insertBalance vTicket.discordId
    let vBefore := (← lockBalance vTicket.discordId).map fun row => row.balance
    let vAfter ← nullableBigint (vBefore.map fun balance => balance + vTicket.amount)
    updateBalance vTicket.discordId fun row => { row with balance := vAfter.getD 0 }
    updateDeposit uid vTicket (vTicket.confirm env.now)
    auditLogInsertWithChain env
      { actorType := .cashier
        actorId := pCashierId
        targetId := some vTicket.discordId
        action := some "deposit_confirmed"
        amount := some vTicket.amount
        balanceBefore := vBefore
        balanceAfter := vAfter
        reason := some ("Deposit confirmed by cashier " ++ formatInt pCashierId ++ " for char " ++
          vTicket.charName ++ " on " ++ vTicket.realm ++ "-" ++ vTicket.region.text)
        refType := some "deposit_ticket"
        refId := pTicketUid
        botName := "dw"
        metadata := .obj [("char", .text vTicket.charName), ("realm", .text vTicket.realm),
          ("region", .text vTicket.region.text), ("faction", .text vTicket.faction.text)] }
    let cashier ← notNull "discord_id" pCashierId
    upsertCashierStats cashier fun stats =>
      { stats with
        depositsCompleted := stats.depositsCompleted + 1
        totalVolumeG := stats.totalVolumeG + vTicket.amount
        lastActiveAt := some env.now }
    return vAfter

def cancelDeposit (env : Env) (pTicketUid : Option String) (pActorId : Option Int)
    (pReason : Option String) : LedgerScript Unit := do
  let vTicket ← require .ticketNotFound (← selectDeposit pTicketUid)
  raiseIf vTicket.status.Terminal (.ticketAlreadyTerminal vTicket.status)
  let uid ← require .ticketNotFound pTicketUid
  updateDeposit uid vTicket (vTicket.cancel env.now pReason)
  let vBalance := (← selectBalance vTicket.discordId).getD 0
  let target ← registeredOr0 vTicket.discordId
  auditLogInsertWithChain env
    { actorType := if IsEq pActorId (some vTicket.discordId) then .user else .cashier
      actorId := pActorId
      targetId := some target
      action := some "deposit_cancelled"
      amount := some vTicket.amount
      balanceBefore := some vBalance
      balanceAfter := some vBalance
      reason := some (pReason.getD "cancelled")
      refType := some "deposit_ticket"
      refId := pTicketUid
      botName := "dw"
      metadata := .obj [("char", .text vTicket.charName), ("realm", .text vTicket.realm)] }

/-- The calls of the deposit flow. -/
inductive DepositCall where
  | claimTicket (pTicketType pTicketUid : Option String) (pCashierId : Option Int)
  | releaseTicket (pTicketType pTicketUid : Option String) (pActorId : Option Int)
  | confirmDeposit (pTicketUid : Option String) (pCashierId : Option Int)
  | cancelDeposit (pTicketUid : Option String) (pActorId : Option Int) (pReason : Option String)

def depositBody : Env × DepositCall → LedgerScript (Option Int)
  | (env, .claimTicket pTicketType pTicketUid pCashierId) => do
      claimTicket env pTicketType pTicketUid pCashierId
      return none
  | (env, .releaseTicket pTicketType pTicketUid pActorId) => do
      releaseTicket env pTicketType pTicketUid pActorId
      return none
  | (env, .confirmDeposit pTicketUid pCashierId) => confirmDeposit env pTicketUid pCashierId
  | (env, .cancelDeposit pTicketUid pActorId pReason) => do
      cancelDeposit env pTicketUid pActorId pReason
      return none

/-! ## What the calls write -/

/-- The deposit ticket that a call is about. -/
def DepositCall.ticket : DepositCall → Option String
  | .claimTicket pTicketType pTicketUid _ =>
      if IsEq pTicketType (some "deposit") then pTicketUid else none
  | .releaseTicket pTicketType pTicketUid _ =>
      if IsEq pTicketType (some "deposit") then pTicketUid else none
  | .confirmDeposit pTicketUid _ => pTicketUid
  | .cancelDeposit pTicketUid _ _ => pTicketUid

/-- What a call that returns has done to the rows. -/
inductive DepositWrites (env : Env) : DepositCall → LedgerRows → LedgerRows → Prop
  | withdrawTicket {call : DepositCall} {before after : LedgerRows} (hcall : call.ticket = none)
      (hframe : ∀ r, (∀ uid, r ≠ .withdraw uid) → r ≠ .auditLog → after r = before r) :
      DepositWrites env call before after
  | claim {before : LedgerRows} {uid : String} {ticket : Ticket} {cashier : Int}
      {content : AuditContent} (hticket : before (.deposit uid) = some ticket)
      (hstatus : ticket.status = .open) :
      DepositWrites env (.claimTicket (some "deposit") (some uid) (some cashier)) before
        (Function.update
          (Function.update before (.deposit uid) (some (ticket.claim env.now (some cashier))))
          .auditLog (some (auditLog before ++ [content])))
  | release {before : LedgerRows} {uid : String} {ticket : Ticket} {actor : Option Int}
      {content : AuditContent} (hticket : before (.deposit uid) = some ticket)
      (hstatus : ticket.status = .claimed) :
      DepositWrites env (.releaseTicket (some "deposit") (some uid) actor) before
        (Function.update
          (Function.update before (.deposit uid) (some (ticket.release env.now)))
          .auditLog (some (auditLog before ++ [content])))
  | retry {before : LedgerRows} {uid : String} {ticket : Ticket} {cashier : Option Int}
      (hticket : before (.deposit uid) = some ticket) (hstatus : ticket.status = .confirmed) :
      DepositWrites env (.confirmDeposit (some uid) cashier) before before
  | confirm {before : LedgerRows} {uid : String} {ticket : Ticket} {cashier : Int}
      {content : AuditContent} {balance : Balance} {stats : CashierStats}
      (hticket : before (.deposit uid) = some ticket) (hstatus : ticket.status = .claimed)
      (hclaimed : ¬ IsNe ticket.claimedBy (some cashier))
      (hbalance : balance.balance =
        ((before (.balance ticket.discordId)).getD Balance.zero).balance + ticket.amount)
      (hstats : stats.toCashierStatsRow =
        { ((before (.cashierStats cashier)).getD CashierStats.zero).toCashierStatsRow with
          depositsCompleted := ((before (.cashierStats cashier)).getD
            CashierStats.zero).depositsCompleted + 1
          totalVolumeG := ((before (.cashierStats cashier)).getD
            CashierStats.zero).totalVolumeG + ticket.amount
          lastActiveAt := some env.now }) :
      DepositWrites env (.confirmDeposit (some uid) (some cashier)) before
        (Function.update (Function.update (Function.update (Function.update (Function.update before
          (.user ticket.discordId) (some ((before (.user ticket.discordId)).getD ({} : User))))
          (.balance ticket.discordId) (some balance))
          (.deposit uid) (some (ticket.confirm env.now)))
          .auditLog (some (auditLog before ++ [content])))
          (.cashierStats cashier) (some stats))
  | cancel {before : LedgerRows} {uid : String} {ticket : Ticket} {actor : Option Int}
      {reason : Option String} {content : AuditContent}
      (hticket : before (.deposit uid) = some ticket) (hstatus : ¬ ticket.status.Terminal) :
      DepositWrites env (.cancelDeposit (some uid) actor reason) before
        (Function.update
          (Function.update before (.deposit uid) (some (ticket.cancel env.now reason)))
          .auditLog (some (auditLog before ++ [content])))

variable {known : Set LedgerKey} {rows : LedgerRows}

/-- Only a cashier with an id serves a region. -/
theorem post_servesRegion {Q : Bool → Set LedgerKey → LedgerRows → Prop} (cashier : Option Int)
    (region : Region)
    (h : ∀ known' served, known ⊆ known' → (served = true → ∃ id, cashier = some id) →
      Q served known' rows) :
    (servesRegion cashier region).Post ledgerSchema Q known rows := by
  intro keys seen hkeys hknown hseen
  apply h _ _ hknown
  intro hserved
  obtain ⟨key, -, hkey⟩ := List.any_eq_true.mp hserved
  split at hkey
  next key =>
    simp only [decide_eq_true_eq] at hkey
    exact ⟨_, hkey.1⟩
  next => cases hkey

theorem post_updateDeposit {Q : Unit → Set LedgerKey → LedgerRows → Prop} {uid : String}
    {old new : Ticket} (hold : rows (.deposit uid) = some old)
    (hkeeps : LedgerKey.Keeps (.deposit uid) old new)
    (h : Q () known (Function.update rows (.deposit uid) (some new))) :
    (updateDeposit uid old new).Post ledgerSchema Q known rows := by
  simp only [updateDeposit, ticketTerminalStatusImmutable, post_bind, post_raiseIf,
    post_store_of_refs (show LedgerKey.Refs (.deposit uid) _ = ∅ from rfl)]
  intro htrigger hheld
  refine ⟨fun row hrow => ?_, h⟩
  cases hold.symm.trans hrow
  exact hkeeps

theorem post_updateWithdraw {Q : Unit → Set LedgerKey → LedgerRows → Prop} {uid : String}
    {old new : WithdrawTicket} (hold : rows (.withdraw uid) = some old)
    (hkeeps : LedgerKey.Keeps (.withdraw uid) old new)
    (h : Q () known (Function.update rows (.withdraw uid) (some new))) :
    (updateWithdraw uid old new).Post ledgerSchema Q known rows := by
  simp only [updateWithdraw, ticketTerminalStatusImmutable, post_bind, post_raiseIf,
    post_store_of_refs (show LedgerKey.Refs (.withdraw uid) _ = ∅ from rfl)]
  intro htrigger hheld
  refine ⟨fun row hrow => ?_, h⟩
  cases hold.symm.trans hrow
  exact hkeeps

theorem post_updateTicket_deposit {Q : Unit → Set LedgerKey → LedgerRows → Prop} {uid : String}
    {ticket : Ticket} {assign : Ticket → Ticket} (hticket : rows (.deposit uid) = some ticket)
    (hknown : .deposit uid ∈ known)
    (hkeeps : LedgerKey.Keeps (.deposit uid) ticket (assign ticket))
    (h : ∀ known', known ⊆ known' →
      Q () known' (Function.update rows (.deposit uid) (some (assign ticket)))) :
    (updateTicket (some "deposit") uid assign).Post ledgerSchema Q known rows := by
  simp only [updateTicket, isEq_some, if_true, post_bind, post_lockDeposit]
  refine ⟨fun hnone => (hnone hknown).elim, ?_⟩
  intro row hrow known' hgrow hknown'
  cases hticket.symm.trans hrow
  exact post_updateDeposit hticket hkeeps (h known' hgrow)

theorem post_updateTicket_withdraw {Q : Unit → Set LedgerKey → LedgerRows → Prop}
    {pTicketType : Option String} {uid : String} {ticket : WithdrawTicket}
    {assign : Ticket → Ticket} (htype : ¬ IsEq pTicketType (some "deposit"))
    (hticket : rows (.withdraw uid) = some ticket) (hknown : .withdraw uid ∈ known)
    (hkeeps : LedgerKey.Keeps (.deposit uid) ticket.toTicket (assign ticket.toTicket))
    (h : ∀ known', known ⊆ known' → Q () known' (Function.update rows (.withdraw uid)
      (some { ticket with toTicket := assign ticket.toTicket }))) :
    (updateTicket pTicketType uid assign).Post ledgerSchema Q known rows := by
  simp only [updateTicket, if_neg htype, post_bind, post_lockWithdraw]
  refine ⟨fun hnone => (hnone hknown).elim, ?_⟩
  intro row hrow known' hgrow hknown'
  cases hticket.symm.trans hrow
  exact post_updateWithdraw hticket ⟨hkeeps.1, hkeeps.2, rfl⟩ (h known' hgrow)

/-- What a call does to a withdraw ticket, followed by its audit row, is no
business of any deposit. -/
theorem DepositWrites.ofWithdraw {env : Env} {call : DepositCall} (hcall : call.ticket = none)
    {uid : String} {ticket : WithdrawTicket} {content : AuditContent} :
    DepositWrites env call rows
      (Function.update (Function.update rows (.withdraw uid) (some ticket)) .auditLog
        (some (auditLog (Function.update rows (.withdraw uid) (some ticket)) ++ [content]))) := by
  apply withdrawTicket hcall
  intro r hwithdraw haudit
  rw [Function.update_of_ne haudit, Function.update_of_ne (hwithdraw uid)]

/-- The end of a call: the balance and the user that the audit row names are looked up, and
the row is written. -/
theorem post_auditTicket {Q : Unit → Set LedgerKey → LedgerRows → Prop} (env : Env)
    (discordId : Int) (params : Option Int → Int → AuditParams) (hlog : .auditLog ∈ known)
    (h : ∀ content known',
      Q () known' (Function.update rows .auditLog (some (auditLog rows ++ [content])))) :
    (selectBalance discordId).Post ledgerSchema
      (fun balance known rows => (registeredOr0 discordId).Post ledgerSchema
        (fun target known rows => (auditLogInsertWithChain env (params balance target)).Post
          ledgerSchema Q known rows) known rows) known rows := by
  apply post_selectBalance
  intro known₁ balance hgrow₁
  apply post_registeredOr0
  intro known₂ target hgrow₂
  apply post_auditLogInsertWithChain
  · exact hgrow₂ (hgrow₁ hlog)
  · intro known₃ content _ _ _
    exact h content known₃

theorem claimTicket_post (env : Env) (pTicketType pTicketUid : Option String)
    (pCashierId : Option Int) (hlog : .auditLog ∈ known) :
    (claimTicket env pTicketType pTicketUid pCashierId).Post ledgerSchema
      (fun _ _ after =>
        DepositWrites env (.claimTicket pTicketType pTicketUid pCashierId) rows after)
      known rows := by
  -- every other type than `deposit` goes to the withdraws
  by_cases htype : IsEq pTicketType (some "deposit")
  · obtain ⟨_, rfl, htype⟩ := htype
    cases htype
    cases pTicketUid with
    | none =>
        simp [claimTicket, selectTicket, selectDeposit, post_bind, post_pure, post_require,
          post_raiseIf]
    | some uid =>
        simp only [claimTicket, selectTicket, selectDeposit, isEq_some, if_true, post_bind,
          post_raiseIf, post_lockDeposit, post_require]
        intro htype
        refine ⟨by simp, ?_⟩
        intro ticket hticket known₁ hgrow₁ hknown₁ _ hticket' hstatus
        cases hticket'
        apply post_servesRegion
        intro known₂ served hgrow₂ hserved hmatch _ huid
        cases huid
        obtain ⟨cashier, rfl⟩ := hserved (Bool.eq_true_of_not_eq_false hmatch)
        apply post_updateTicket_deposit hticket (hgrow₂ hknown₁) ⟨rfl, rfl⟩
        intro known₃ hgrow₃
        apply post_auditTicket _ _ _ (hgrow₃ (hgrow₂ (hgrow₁ hlog)))
        intro content _
        rw [auditLog_update (by simp)]
        exact .claim hticket (not_not.mp hstatus)
  · cases pTicketUid with
    | none =>
        simp [claimTicket, selectTicket, selectWithdraw, htype, post_bind, post_pure, post_require,
          post_raiseIf]
    | some uid =>
        simp only [claimTicket, selectTicket, selectWithdraw, if_neg htype, post_bind,
          post_raiseIf, post_lockWithdraw, post_require, post_pure]
        intro htypes
        refine ⟨by simp, ?_⟩
        intro ticket hticket known₁ hgrow₁ hknown₁ _ hticket' hstatus
        cases hticket'
        apply post_servesRegion
        intro known₂ served hgrow₂ hserved hmatch _ huid
        cases huid
        apply post_updateTicket_withdraw htype hticket (hgrow₂ hknown₁) ⟨rfl, rfl⟩
        intro known₃ hgrow₃
        apply post_auditTicket _ _ _ (hgrow₃ (hgrow₂ (hgrow₁ hlog)))
        intro content _
        apply DepositWrites.ofWithdraw
        exact if_neg htype

theorem releaseTicket_post (env : Env) (pTicketType pTicketUid : Option String)
    (pActorId : Option Int) (hlog : .auditLog ∈ known) :
    (releaseTicket env pTicketType pTicketUid pActorId).Post ledgerSchema
      (fun _ _ after =>
        DepositWrites env (.releaseTicket pTicketType pTicketUid pActorId) rows after)
      known rows := by
  -- as for the claim
  by_cases htype : IsEq pTicketType (some "deposit")
  · obtain ⟨_, rfl, htype⟩ := htype
    cases htype
    cases pTicketUid with
    | none =>
        simp [releaseTicket, selectTicket, selectDeposit, post_bind, post_pure, post_require,
          post_raiseIf]
    | some uid =>
        simp only [releaseTicket, selectTicket, selectDeposit, isEq_some, if_true, post_bind,
          post_raiseIf, post_lockDeposit, post_require]
        intro htype
        refine ⟨by simp, ?_⟩
        intro ticket hticket known₁ hgrow₁ hknown₁ _ hticket' hstatus hclaimed _ huid
        cases hticket'
        cases huid
        apply post_updateTicket_deposit hticket hknown₁ ⟨rfl, rfl⟩
        intro known₂ hgrow₂
        apply post_auditTicket _ _ _ (hgrow₂ (hgrow₁ hlog))
        intro content _
        rw [auditLog_update (by simp)]
        exact .release hticket (not_not.mp hstatus)
  · cases pTicketUid with
    | none =>
        simp [releaseTicket, selectTicket, selectWithdraw, htype, post_bind, post_pure,
          post_require, post_raiseIf]
    | some uid =>
        simp only [releaseTicket, selectTicket, selectWithdraw, if_neg htype, post_bind,
          post_raiseIf, post_lockWithdraw, post_require, post_pure]
        intro htypes
        refine ⟨by simp, ?_⟩
        intro ticket hticket known₁ hgrow₁ hknown₁ _ hticket' hstatus hclaimed _ huid
        cases hticket'
        cases huid
        apply post_updateTicket_withdraw htype hticket hknown₁ ⟨rfl, rfl⟩
        intro known₂ hgrow₂
        apply post_auditTicket _ _ _ (hgrow₂ (hgrow₁ hlog))
        intro content _
        apply DepositWrites.ofWithdraw
        exact if_neg htype

theorem cancelDeposit_post (env : Env) (pTicketUid : Option String) (pActorId : Option Int)
    (pReason : Option String) (hlog : .auditLog ∈ known) :
    (cancelDeposit env pTicketUid pActorId pReason).Post ledgerSchema
      (fun _ _ after => DepositWrites env (.cancelDeposit pTicketUid pActorId pReason) rows after)
      known rows := by
  cases pTicketUid with
  | none => simp [cancelDeposit, selectDeposit, post_bind, post_pure, post_require]
  | some uid =>
      simp only [cancelDeposit, selectDeposit, post_bind, post_lockDeposit, post_require,
        post_raiseIf]
      refine ⟨by simp, ?_⟩
      intro ticket hticket known₁ hgrow₁ hknown₁ _ hticket' hstatus _ huid
      cases hticket'
      cases huid
      have hkeeps : LedgerKey.Keeps (.deposit uid) ticket (ticket.cancel env.now pReason) :=
        ⟨rfl, rfl⟩
      apply post_updateDeposit hticket hkeeps
      apply post_auditTicket _ _ _ (hgrow₁ hlog)
      intro content _
      rw [auditLog_update (by simp)]
      exact .cancel hticket hstatus

theorem confirmDeposit_post (env : Env) (pTicketUid : Option String) (pCashierId : Option Int)
    (hlog : .auditLog ∈ known) :
    (confirmDeposit env pTicketUid pCashierId).Post ledgerSchema
      (fun _ _ after => DepositWrites env (.confirmDeposit pTicketUid pCashierId) rows after)
      known rows := by
  cases pTicketUid with
  | none => simp [confirmDeposit, selectDeposit, post_bind, post_pure, post_require]
  | some uid =>
      simp only [confirmDeposit, selectDeposit, post_bind, post_lockDeposit, post_require, post_ite,
        post_raiseIf, post_lockBalance, post_nullableBigint, post_updateBalance, post_notNull,
        post_pure]
      refine ⟨by simp, ?_⟩
      intro ticket hticket known₁ hgrow₁ hknown₁ _ hticket'
      cases hticket'
      refine ⟨?_, ?_⟩
      · rintro ⟨hstatus, -⟩
        apply post_selectBalance
        intro known₂ balance hgrow₂
        exact .retry hticket hstatus
      · intro hretry hstatus hclaimed _ huid
        cases huid
        apply post_insertUser
        intro known₂ hgrow₂ huser
        apply post_insertBalance
        intro known₃ hgrow₃ hbalance
        refine ⟨fun hnone => (hnone hbalance).elim, ?_⟩
        intro held hheld known₄ hgrow₄ hbalance₄ hbig
        refine ⟨fun hnone => (hnone hbalance₄).elim, ?_⟩
        intro row hrow known₅ hgrow₅ hbalance₅ balance hnew
        simp only [Function.update_self, Function.update_idem, ne_eq, reduceCtorEq,
          not_false_eq_true, Function.update_of_ne, Option.some.injEq, Option.map_some,
          Option.getD_some] at hheld hrow hnew ⊢
        subst hheld hrow
        have hkeeps : LedgerKey.Keeps (.deposit uid) ticket (ticket.confirm env.now) := ⟨rfl, rfl⟩
        apply post_updateDeposit (by simpa using hticket) hkeeps
        apply post_auditLogInsertWithChain
        · exact hgrow₅ (hgrow₄ (hgrow₃ (hgrow₂ (hgrow₁ hlog))))
        · intro known₆ content hgrow₆ hcontent htarget cashier hcashier
          subst hcashier
          apply post_upsertCashierStats
          intro known₇ stats hgrow₇ hstats
          simp only [ne_eq, reduceCtorEq, not_false_eq_true, Function.update_of_ne,
            auditLog_update] at hstats ⊢
          apply DepositWrites.confirm hticket (not_not.mp hstatus) hclaimed _ hstats
          rw [hnew]

theorem depositBody_describes {base : LedgerRows} (hlog : .auditLog ∈ present base) :
    Concurrent.Describes ledgerSchema base
      (fun call before _ after => DepositWrites call.1 call.2 before after) depositBody where
  post := by
    rintro ⟨env, call⟩ rows -
    cases call with
    | claimTicket pTicketType pTicketUid pCashierId =>
        simp only [depositBody, post_bind, post_pure]
        exact claimTicket_post env pTicketType pTicketUid pCashierId hlog
    | releaseTicket pTicketType pTicketUid pActorId =>
        simp only [depositBody, post_bind, post_pure]
        exact releaseTicket_post env pTicketType pTicketUid pActorId hlog
    | confirmDeposit pTicketUid pCashierId =>
        exact confirmDeposit_post env pTicketUid pCashierId hlog
    | cancelDeposit pTicketUid pActorId pReason =>
        simp only [depositBody, post_bind, post_pure]
        exact cancelDeposit_post env pTicketUid pActorId pReason hlog

/-! ## One ticket over a run -/

/-- What is credited for the ticket: its amount once it is confirmed. -/
def credited (uid : String) (rows : LedgerRows) : Int :=
  match rows (.deposit uid) with
  | some ticket => if ticket.status = .confirmed then ticket.amount else 0
  | none => 0

/-- 1 once the cashier has confirmed the ticket. -/
def confirmedBy (uid : String) (cashier : Int) (rows : LedgerRows) : Int :=
  match rows (.deposit uid) with
  | some ticket => if ticket.status = .confirmed ∧ ticket.claimedBy = some cashier then 1 else 0
  | none => 0

theorem credited_eq {uid : String} {rows : LedgerRows} {ticket : Ticket}
    (hticket : rows (.deposit uid) = some ticket) :
    credited uid rows = if ticket.status = .confirmed then ticket.amount else 0 := by
  simp [credited, hticket]

theorem confirmedBy_eq {uid : String} {rows : LedgerRows} {ticket : Ticket} {cashier : Int}
    (hticket : rows (.deposit uid) = some ticket) :
    confirmedBy uid cashier rows =
      if ticket.status = .confirmed ∧ ticket.claimedBy = some cashier then 1 else 0 := by
  simp [confirmedBy, hticket]

/-- 1 once the ticket is confirmed or cancelled. -/
def settled (uid : String) (rows : LedgerRows) : Nat :=
  match rows (.deposit uid) with
  | some ticket => if ticket.status = .confirmed ∨ ticket.status = .cancelled then 1 else 0
  | none => 0

/-- What a call on the ticket changes about a quantity. -/
def changeBy (uid : String) (quantity : LedgerRows → Int) (call : Env × DepositCall)
    (before after : LedgerRows) : Int :=
  if call.2.ticket = some uid then quantity after - quantity before else 0

def DepositCall.Settles : DepositCall → Prop
  | .confirmDeposit _ _ => True
  | .cancelDeposit _ _ _ => True
  | _ => False

instance : (call : DepositCall) → Decidable call.Settles
  | .claimTicket _ _ _ => .isFalse id
  | .releaseTicket _ _ _ => .isFalse id
  | .confirmDeposit _ _ => .isTrue trivial
  | .cancelDeposit _ _ _ => .isTrue trivial

/-- 1 for a confirm or a cancel that changes the ticket. -/
def settles (uid : String) (call : Env × DepositCall) (before after : LedgerRows) : Nat :=
  if call.2.ticket = some uid ∧ call.2.Settles ∧ after (.deposit uid) ≠ before (.deposit uid) then 1
  else 0

def depositsCompleted (cashier : Int) (rows : LedgerRows) : Int :=
  ((rows (.cashierStats cashier)).map fun row => row.depositsCompleted).getD 0

/-- Who has claimed a ticket is known, and the owner of a confirmed one is there. -/
structure DepositInv (uid : String) (rows : LedgerRows) : Prop where
  claimer : ∀ ticket, rows (.deposit uid) = some ticket →
    ticket.status = .claimed ∨ ticket.status = .confirmed → ticket.claimedBy ≠ none
  owner : ∀ ticket, rows (.deposit uid) = some ticket → ticket.status = .confirmed →
    rows (.user ticket.discordId) ≠ none ∧ rows (.balance ticket.discordId) ≠ none

section OneTicket

variable {uid : String} {env : Env} {call : DepositCall} {before after : LedgerRows}

/-- What a call does to a ticket: nothing, or one transition of its lifecycle. -/
inductive DepositMoves (env : Env) (uid : String) (call : DepositCall)
    (before after : LedgerRows) : Prop
  | elsewhere (hticket : call.ticket ≠ some uid) (hsame : after (.deposit uid) = before (.deposit uid))
  | retry (hticket : call.ticket = some uid) (hsame : after = before)
  | claim {ticket : Ticket} {cashier : Int} (hticket : call.ticket = some uid)
      (hcall : ¬ call.Settles) (hbefore : before (.deposit uid) = some ticket)
      (hstatus : ticket.status = .open)
      (hafter : after (.deposit uid) = some (ticket.claim env.now (some cashier)))
      (hframe : ∀ r, r ≠ .deposit uid → r ≠ .auditLog → after r = before r)
  | release {ticket : Ticket} (hticket : call.ticket = some uid) (hcall : ¬ call.Settles)
      (hbefore : before (.deposit uid) = some ticket) (hstatus : ticket.status = .claimed)
      (hafter : after (.deposit uid) = some (ticket.release env.now))
      (hframe : ∀ r, r ≠ .deposit uid → r ≠ .auditLog → after r = before r)
  | confirm {ticket : Ticket} {cashier : Int} (hticket : call.ticket = some uid)
      (hcall : call.Settles) (hbefore : before (.deposit uid) = some ticket)
      (hstatus : ticket.status = .claimed) (hclaimed : ¬ IsNe ticket.claimedBy (some cashier))
      (hafter : after (.deposit uid) = some (ticket.confirm env.now))
      (huser : after (.user ticket.discordId) ≠ none)
      (hbalance : after (.balance ticket.discordId) ≠ none)
      (hcredit : balanceOf ticket.discordId after =
        balanceOf ticket.discordId before + ticket.amount)
      (hstats : ∀ other, depositsCompleted other after =
        depositsCompleted other before + if other = cashier then 1 else 0)
  | cancel {ticket : Ticket} {reason : Option String} (hticket : call.ticket = some uid)
      (hcall : call.Settles) (hbefore : before (.deposit uid) = some ticket)
      (hstatus : ¬ ticket.status.Terminal)
      (hafter : after (.deposit uid) = some (ticket.cancel env.now reason))
      (hframe : ∀ r, r ≠ .deposit uid → r ≠ .auditLog → after r = before r)

theorem DepositWrites.moves (h : DepositWrites env call before after) (uid : String) :
    DepositMoves env uid call before after := by
  cases h with
  | withdrawTicket hcall hframe =>
      apply DepositMoves.elsewhere
      · rw [hcall]
        simp
      · exact hframe _ (by simp) (by simp)
  | @claim _ uid' ticket cashier content hticket hstatus =>
      by_cases huid : uid' = uid
      · subst huid
        refine .claim (by simp [DepositCall.ticket]) id hticket hstatus (by simp; rfl) ?_
        intro r hr haudit
        rw [Function.update_of_ne haudit, Function.update_of_ne hr]
      · apply DepositMoves.elsewhere
        · simp [DepositCall.ticket, huid]
        · simp [Ne.symm huid]
  | @release _ uid' ticket actor content hticket hstatus =>
      by_cases huid : uid' = uid
      · subst huid
        refine .release (by simp [DepositCall.ticket]) id hticket hstatus (by simp) ?_
        intro r hr haudit
        rw [Function.update_of_ne haudit, Function.update_of_ne hr]
      · apply DepositMoves.elsewhere
        · simp [DepositCall.ticket, huid]
        · simp [Ne.symm huid]
  | @retry _ uid' cashier ticket hticket hstatus =>
      by_cases huid : uid' = uid
      · subst huid
        exact .retry rfl rfl
      · apply DepositMoves.elsewhere
        · simp [DepositCall.ticket, huid]
        · rfl
  | @confirm _ uid' ticket cashier content balance stats hticket hstatus hclaimed hbalance
      hstats =>
      by_cases huid : uid' = uid
      · subst huid
        refine .confirm rfl trivial hticket hstatus hclaimed (by simp) (by simp) (by simp) ?_ ?_
        · simp only [balanceOf, ne_eq, reduceCtorEq, not_false_eq_true, Function.update_of_ne,
            Function.update_self, Option.map_some, Option.getD_some, hbalance]
          cases before (.balance ticket.discordId) <;> rfl
        · intro other
          by_cases hother : other = cashier
          · subst hother
            simp only [depositsCompleted, Function.update_self, Option.map_some, Option.getD_some,
              hstats, if_true]
            cases before (.cashierStats other) <;> rfl
          · simp [depositsCompleted, hother]
      · apply DepositMoves.elsewhere
        · simp [DepositCall.ticket, huid]
        · simp [Ne.symm huid]
  | @cancel _ uid' ticket actor reason content hticket hstatus =>
      by_cases huid : uid' = uid
      · subst huid
        refine .cancel rfl trivial hticket hstatus (by simp; rfl) ?_
        intro r hr haudit
        rw [Function.update_of_ne haudit, Function.update_of_ne hr]
      · apply DepositMoves.elsewhere
        · simp [DepositCall.ticket, huid]
        · simp [Ne.symm huid]

/-- No call removes a user or a balance. -/
theorem DepositWrites.stays (h : DepositWrites env call before after) {r : LedgerKey}
    (hwithdraw : ∀ uid, r ≠ .withdraw uid) (haudit : r ≠ .auditLog) (hr : before r ≠ none) :
    after r ≠ none := by
  cases h with
  | withdrawTicket hcall hframe => rwa [hframe r hwithdraw haudit]
  | claim hticket hstatus => exact update_ne_none _ (update_ne_none _ hr)
  | release hticket hstatus => exact update_ne_none _ (update_ne_none _ hr)
  | retry hticket hstatus => exact hr
  | confirm hticket hstatus hclaimed hbalance hstats =>
      apply update_ne_none
      apply update_ne_none
      apply update_ne_none
      apply update_ne_none
      exact update_ne_none _ hr
  | cancel hticket hstatus => exact update_ne_none _ (update_ne_none _ hr)

theorem DepositInv.step (hinv : DepositInv uid before) (h : DepositWrites env call before after) :
    DepositInv uid after := by
  constructor
  · intro ticket hticket hstatus
    cases h.moves uid with
    | elsewhere hcall hsame => exact hinv.claimer ticket (hsame ▸ hticket) hstatus
    | retry hcall hsame => exact hinv.claimer ticket (hsame ▸ hticket) hstatus
    | claim hcall hsettles hbefore hopen hafter hframe =>
        cases hafter.symm.trans hticket
        exact Option.some_ne_none _
    | release hcall hsettles hbefore hclaimed hafter hframe =>
        cases hafter.symm.trans hticket
        rcases hstatus with hstatus | hstatus <;> cases hstatus
    | confirm hcall hsettles hbefore hclaimed hcashier hafter huser hbalance hcredit hstats =>
        cases hafter.symm.trans hticket
        rw [Ticket.confirm_claimedBy]
        exact hinv.claimer _ hbefore (.inl hclaimed)
    | cancel hcall hsettles hbefore hlive hafter hframe =>
        cases hafter.symm.trans hticket
        rcases hstatus with hstatus | hstatus <;> cases hstatus
  · intro ticket hticket hstatus
    cases h.moves uid with
    | elsewhere hcall hsame =>
        obtain ⟨huser, hbalance⟩ := hinv.owner ticket (hsame ▸ hticket) hstatus
        exact ⟨h.stays (by simp) (by simp) huser, h.stays (by simp) (by simp) hbalance⟩
    | retry hcall hsame =>
        rw [hsame] at hticket ⊢
        exact hinv.owner ticket hticket hstatus
    | claim hcall hsettles hbefore hopen hafter hframe =>
        cases hafter.symm.trans hticket
        cases hstatus
    | release hcall hsettles hbefore hclaimed hafter hframe =>
        cases hafter.symm.trans hticket
        cases hstatus
    | confirm hcall hsettles hbefore hclaimed hcashier hafter huser hbalance hcredit hstats =>
        cases hafter.symm.trans hticket
        exact ⟨huser, hbalance⟩
    | cancel hcall hsettles hbefore hlive hafter hframe =>
        cases hafter.symm.trans hticket
        cases hstatus

/-- A call moves the owner's balance by what it makes the ticket credit. -/
theorem credited_step {ticket : Ticket} (hticket : before (.deposit uid) = some ticket)
    (h : DepositWrites env call before after) :
    credited uid after =
      credited uid before + changeBy uid (balanceOf ticket.discordId) (env, call) before after := by
  cases h.moves uid with
  | elsewhere hcall hsame => simp [credited, changeBy, hsame, hcall]
  | retry hcall hsame => simp [changeBy, hsame]
  | claim hcall hsettles hbefore hopen hafter hframe =>
      simp [credited, changeBy, balanceOf, hcall, hbefore, hafter, hopen, hframe]
  | release hcall hsettles hbefore hclaimed hafter hframe =>
      simp [credited, changeBy, balanceOf, hcall, hbefore, hafter, hclaimed, hframe]
  | confirm hcall hsettles hbefore hclaimed hcashier hafter huser hbalance hcredit hstats =>
      cases hticket.symm.trans hbefore
      simp [credited, changeBy, hcall, hbefore, hafter, hclaimed, hcredit]
  | @cancel live reason hcall hsettles hbefore hlive hafter hframe =>
      have hconfirmed : live.status ≠ .confirmed := fun h => hlive (.inl h)
      simp [credited, changeBy, balanceOf, hcall, hbefore, hafter, hconfirmed, hframe]

/-- A call counts as a completed deposit of the cashier whose confirmation it is. -/
theorem confirmedBy_step (hinv : DepositInv uid before) (cashier : Int)
    (h : DepositWrites env call before after) :
    confirmedBy uid cashier after = confirmedBy uid cashier before +
      changeBy uid (depositsCompleted cashier) (env, call) before after := by
  cases h.moves uid with
  | elsewhere hcall hsame => simp [confirmedBy, changeBy, hsame, hcall]
  | retry hcall hsame => simp [changeBy, hsame]
  | claim hcall hsettles hbefore hopen hafter hframe =>
      simp [confirmedBy, changeBy, depositsCompleted, hcall, hbefore, hafter, hopen, hframe]
  | release hcall hsettles hbefore hclaimed hafter hframe =>
      simp [confirmedBy, changeBy, depositsCompleted, hcall, hbefore, hafter, hclaimed, hframe]
  | @confirm claimed confirmer hcall hsettles hbefore hclaimed hcashier hafter huser hbalance
      hcredit hstats =>
      obtain ⟨claimer, hclaimer⟩ :=
        Option.ne_none_iff_exists'.mp (hinv.claimer _ hbefore (.inl hclaimed))
      have hsame : claimer = confirmer := eq_of_not_isNe hcashier hclaimer
      subst hsame
      simp [confirmedBy, changeBy, hcall, hbefore, hafter, hclaimed, hstats, hclaimer, eq_comm]
  | @cancel live reason hcall hsettles hbefore hlive hafter hframe =>
      have hconfirmed : live.status ≠ .confirmed := fun h => hlive (.inl h)
      simp [confirmedBy, changeBy, depositsCompleted, hcall, hbefore, hafter, hconfirmed, hframe]

/-- A confirm or cancel that changes the ticket settles it. -/
theorem settled_step (h : DepositWrites env call before after) :
    settled uid after = settled uid before + settles uid (env, call) before after := by
  cases h.moves uid with
  | elsewhere hcall hsame => simp [settled, settles, hsame, hcall]
  | retry hcall hsame => simp [settles, hsame]
  | claim hcall hsettles hbefore hopen hafter hframe =>
      simp [settled, settles, hsettles, hbefore, hafter, hopen]
  | release hcall hsettles hbefore hclaimed hafter hframe =>
      simp [settled, settles, hsettles, hbefore, hafter, hclaimed]
  | @confirm claimed confirmer hcall hsettles hbefore hclaimed hcashier hafter huser hbalance
      hcredit hstats =>
      have hchanged : claimed.confirm env.now ≠ claimed := by
        intro heq
        have hstatus := congrArg Ticket.status heq
        rw [Ticket.confirm_status, hclaimed] at hstatus
        cases hstatus
      simp [settled, settles, hcall, hsettles, hbefore, hafter, hclaimed, hchanged]
  | @cancel live reason hcall hsettles hbefore hlive hafter hframe =>
      have hconfirmed : live.status ≠ .confirmed := fun h => hlive (.inl h)
      have hcancelled : live.status ≠ .cancelled := fun h => hlive (.inr (.inl h))
      have hchanged : live.cancel env.now reason ≠ live := by
        intro heq
        have hstatus := congrArg Ticket.status heq
        exact hcancelled hstatus.symm
      simp [settled, settles, hcall, hsettles, hbefore, hafter, hconfirmed, hcancelled, hchanged]

theorem settled_le_one (uid : String) (rows : LedgerRows) : settled uid rows ≤ 1 := by
  unfold settled
  split
  · split
    · exact le_rfl
    · exact Nat.zero_le 1
  · exact Nat.zero_le 1

end OneTicket

/-! ## Any interleaving -/

section Interleaving

variable {τ : Type} [DecidableEq τ] {keys : List LedgerKey} {rows : LedgerRows}

/-- Any number of calls, interleaved statement by statement. -/
abbrev DepositWorld (τ : Type) :=
  Concurrent τ (Env × DepositCall) LedgerKey.Row DbError (Option Int)

theorem depositInv_kept (uid : String) (call : Env × DepositCall) (before : LedgerRows)
    (_ : Option Int) (after : LedgerRows) (_ : Older ledgerSchema rows before)
    (h : DepositWrites call.1 call.2 before after) (hinv : DepositInv uid before) :
    DepositInv uid after :=
  hinv.step h

theorem depositInv_of_open {uid : String} {ticket : Ticket}
    (hticket : rows (.deposit uid) = some ticket) (hopen : ticket.status = .open) :
    DepositInv uid rows := by
  constructor
  · intro other hother hstatus
    cases hticket.symm.trans hother
    rcases hstatus with hstatus | hstatus <;> cases hopen.symm.trans hstatus
  · intro other hother hstatus
    cases hticket.symm.trans hother
    cases hopen.symm.trans hstatus

/-- A deposit is credited exactly once or never: the calls on a ticket credit its
amount if it ends confirmed and nothing otherwise, one of them settles it at most,
and a confirmed ticket has a registered owner and counts once for its cashier. -/
theorem deposit_credited_once (hdb : Migrated keys rows) {uid : String} {ticket : Ticket}
    (hticket : rows (.deposit uid) = some ticket) (hopen : ticket.status = .open)
    (moves : List (Move τ (Env × DepositCall))) :
    let world : DepositWorld τ := run (Concurrent.step depositBody) (.quiet keys rows) moves
    let taken := steps (Concurrent.step depositBody)
      (Concurrent.quiet keys rows : DepositWorld τ) moves
    ∃ final, world.committed (.deposit uid) = some final ∧
      (taken.map (Concurrent.added depositBody (changeBy uid (balanceOf ticket.discordId)))).sum =
        (if final.status = .confirmed then ticket.amount else 0) ∧
      (taken.map (Concurrent.added depositBody (settles uid))).sum ≤ 1 ∧
      (∀ cashier,
        (taken.map (Concurrent.added depositBody (changeBy uid (depositsCompleted cashier)))).sum =
          if final.status = .confirmed ∧ final.claimedBy = some cashier then 1 else 0) ∧
      (final.status = .confirmed → (∃ cashier, final.claimedBy = some cashier) ∧
        world.committed (.user ticket.discordId) ≠ none ∧
        world.committed (.balance ticket.discordId) ≠ none) := by
  intro world taken
  have hbody := depositBody_describes hdb.auditLog
  have hinv := depositInv_of_open hticket hopen
  -- tickets are never deleted, and keep their owner and their amount
  obtain ⟨final, hfinal, howner, hamount⟩ :=
    (Concurrent.sound_run hbody hdb.toConsistent moves).base_older _ _ hticket
  have hend : DepositInv uid world.committed :=
    Concurrent.committed_run hbody (depositInv_kept uid) hdb.toConsistent hinv moves
  refine ⟨final, hfinal, ?_, ?_, ?_, ?_⟩
  · have hsum := Concurrent.committed_accounts hbody (depositInv_kept uid) (credited uid)
      (changeBy uid (balanceOf ticket.discordId)) (by
        intro call before result after hbase h _
        obtain ⟨live, hlive, hkeeps, -⟩ := hbase _ _ hticket
        rw [hkeeps]
        exact credited_step hlive h) hdb.toConsistent hinv moves
    have hstart : credited uid rows = 0 := by simp [credited_eq hticket, hopen]
    rw [hstart, zero_add] at hsum
    rw [hamount]
    exact hsum.symm.trans (credited_eq hfinal)
  · have hsum := Concurrent.committed_accounts hbody (depositInv_kept uid) (settled uid)
      (settles uid) (fun call before result after _ h _ => settled_step h) hdb.toConsistent hinv moves
    have hle : settled uid world.committed ≤ 1 := settled_le_one uid _
    rw [hsum] at hle
    exact le_trans (Nat.le_add_left _ _) hle
  · intro cashier
    have hsum := Concurrent.committed_accounts hbody (depositInv_kept uid)
      (confirmedBy uid cashier) (changeBy uid (depositsCompleted cashier))
      (fun call before result after _ h hinv => confirmedBy_step hinv cashier h) hdb.toConsistent hinv moves
    have hstart : confirmedBy uid cashier rows = 0 := by simp [confirmedBy_eq hticket, hopen]
    rw [hstart, zero_add] at hsum
    exact hsum.symm.trans (confirmedBy_eq hfinal)
  · intro hconfirmed
    refine ⟨Option.ne_none_iff_exists'.mp (hend.claimer final hfinal (.inr hconfirmed)), ?_⟩
    rw [howner]
    exact hend.owner final hfinal hconfirmed

end Interleaving

/-- A deposit ticket of user 9, and a cashier who can claim it. -/
def depositEntries : List ((r : LedgerKey) × r.Row) :=
  [⟨.auditLog, []⟩, ⟨.user 0, {}⟩, ⟨.balance 0, .zero⟩,
   ⟨.deposit "deposit-1",
    { id := 1, discordId := 9, charName := "Char", realm := "Realm", region := .EU,
      faction := .Horde, amount := 5000, status := .open, threadId := 1, parentChannelId := 2,
      expiresAt := 86400000000, lastActivityAt := 0, createdAt := 0, amount_pos := by decide }⟩,
   ⟨.cashierCharacter ⟨7, "Bank", "Realm", .EU⟩,
    { id := 1, faction := .Horde, isActive := true, addedAt := 0 }⟩]

/-- The cashier's claim, then a confirmation that overtakes a cancellation. -/
def depositMoves : List (Move Nat (Env × DepositCall)) :=
  [.start 0 (.plain, .claimTicket (some "deposit") (some "deposit-1") (some 7))] ++
    List.replicate 9 (.next 0) ++
    [.commit 0, .start 1 (.plain, .confirmDeposit (some "deposit-1") (some 7)),
     .start 2 (.plain, .cancelDeposit (some "deposit-1") (some 9) none)] ++
    List.replicate 20 (.next 1) ++ [.next 2, .commit 1, .next 2, .rollback 2]

theorem deposit_credited_once_overtaken :
    ((steps (Concurrent.step depositBody)
      (Concurrent.quiet (depositEntries.map Sigma.fst) (rowsOf depositEntries) : DepositWorld Nat)
      depositMoves).map
        (Concurrent.added depositBody (changeBy "deposit-1" (balanceOf 9)))).sum = 5000 := by
  have hdb : Migrated (depositEntries.map Sigma.fst) (rowsOf depositEntries) :=
    migrated_rowsOf depositEntries (Option.some_ne_none _) (by simp [depositEntries])
  have hticket : rowsOf depositEntries (.deposit "deposit-1") = some _ := rfl
  obtain ⟨final, hfinal, hsum, -⟩ := deposit_credited_once hdb hticket rfl depositMoves
  have hstatus : final.status = .confirmed := by
    have hrow : ((run (Concurrent.step depositBody) (Concurrent.quiet
      (depositEntries.map Sigma.fst) (rowsOf depositEntries) : DepositWorld Nat)
        depositMoves).committed (.deposit "deposit-1")).map Ticket.status =
          some .confirmed := by decide +kernel
    rw [hfinal] at hrow
    simpa using hrow
  rw [if_pos hstatus] at hsum
  exact hsum

end DeathRoll.Interleaved
