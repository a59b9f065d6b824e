import DeathRoll.Dw.Treasury

/-! # Dispute functions

`dw.open_dispute`, `dw.resolve_dispute` and `dw.reject_dispute`.
-/

namespace DeathRoll

open Relational Tx

/-- The resolutions `dw.resolve_dispute` admits. -/
def resolutions : List String := ["no-action", "refund-full", "force-confirm", "partial-refund"]

/-- `status IN ('resolved','rejected')`. -/
def DisputeStatus.Terminal (status : DisputeStatus) : Prop :=
  status = .resolved ∨ status = .rejected

instance (status : DisputeStatus) : Decidable status.Terminal := instDecidableOr

/-- `INSERT INTO dw.disputes ... RETURNING id`. -/
def insertDispute (dispute : Dispute) : LedgerTx Int := do
  let id ← nextval .disputes
  let s ← get
  raiseIf (s.disputes.get? id ≠ none) (.uniqueViolation "disputes_pkey")
  raiseIf (s.disputes.any fun _ other =>
      other.ticketType = dispute.ticketType ∧ other.ticketUid = dispute.ticketUid)
    (.uniqueViolation "disputes_ticket_type_ticket_uid_key")
  set (s.addDispute id dispute)
  return id

def openDispute (env : Env) (pTicketType pTicketUid : Option String) (pOpenerId : Option Int)
    (pOpenerRole pReason : Option String) : LedgerTx Int := do
  raiseIf (IsNotIn pTicketType TicketType.texts) .invalidTicketType
  raiseIf (IsNotIn pOpenerRole OpenerRole.texts) .invalidOpenerRole
  let vUser ← require .ticketNotFound
    (((← get).ticket? pTicketType pTicketUid).map Ticket.discordId)
  let ticketType ← checkedText "ticket_type" TicketType.ofText pTicketType
  let ticketUid ← notNull "ticket_uid" pTicketUid
  let openerId ← notNull "opener_id" pOpenerId
  let openerRole ← checkedText "opener_role" OpenerRole.ofText pOpenerRole
  let reason ← notNull "reason" pReason
  let vId ← insertDispute
    { ticketType, ticketUid, openerId, openerRole, reason, status := .open, openedAt := env.now }
  let _ ← auditLogInsertWithChain env
    { actorType := openerRole.actorType
      actorId := pOpenerId
      targetId := some vUser
      action := some "dispute_opened"
      amount := none
      balanceBefore := some 0
      balanceAfter := some 0
      reason := pReason
      refType := some "dispute"
      refId := some (toString vId)
      botName := "dw"
      metadata := .obj [("ticket_type", .ofText? pTicketType),
        ("ticket_uid", .ofText? pTicketUid)] }
  return vId

/-- `SELECT discord_id` from the table of the disputed ticket. -/
def Database.disputedUser (s : Database) (dispute : Dispute) : Option Int :=
  match dispute.ticketType with
  | .deposit => (s.depositTickets.get? dispute.ticketUid).map Ticket.discordId
  | .withdraw => (s.withdrawTickets.get? dispute.ticketUid).map fun ticket => ticket.discordId

/-- `SET status = _, resolution = _, resolved_by = _, resolved_at = NOW()`. -/
def Dispute.close (dispute : Dispute) (now : Timestamp) (status : DisputeStatus)
    (resolution : Option String) (resolvedBy : Option Int) : Dispute :=
  { dispute with status := status, resolution := resolution, resolvedBy := resolvedBy,
                 resolvedAt := some now }

/-- The payments of `dw.resolve_dispute`; `'no-action'` and `'force-confirm'`
move no money. -/
def payRefund (env : Env) (s : Database) (vDispute : Dispute) (pDisputeId : Option Int)
    (pAction : Option String) (pAmount pResolvedBy : Option Int) : LedgerTx Unit := do
  let vUser := s.disputedUser vDispute
  ifDo (IsEq pAction (some "partial-refund")) do
    let amount ← require .partialRefundRequiresPositiveAmount pAmount
    raiseIf (amount ≤ 0) .partialRefundRequiresPositiveAmount
    treasuryWithdrawToUser env (some amount) vUser pResolvedBy
      (some ("partial-refund dispute=" ++ formatInt pDisputeId))
  ifDo (IsEq pAction (some "refund-full")) do
    -- meant for confirmed withdraws; the ticket's status is not read
    raiseIf (vDispute.ticketType ≠ .withdraw) .refundFullOnlyForWithdrawDisputes
    let vAmount := (s.withdrawTickets.get? vDispute.ticketUid).map fun ticket => ticket.amount
    treasuryWithdrawToUser env vAmount vUser pResolvedBy
      (some ("refund-full dispute=" ++ formatInt pDisputeId))

def resolveDispute (env : Env) (pDisputeId : Option Int) (pAction : Option String)
    (pAmount pResolvedBy : Option Int) : LedgerTx Unit := do
  let s ← get
  let vDispute ← require .disputeNotFound (s.disputes.select pDisputeId)
  raiseIf vDispute.status.Terminal (.disputeAlreadyTerminal vDispute.status)
  raiseIf (IsNotIn pAction resolutions) (.invalidAction pAction)
  let vUser := s.disputedUser vDispute
  payRefund env s vDispute pDisputeId pAction pAmount pResolvedBy
  let disputeId ← require .disputeNotFound pDisputeId
  modify fun s =>
    s.setDispute disputeId (vDispute.close env.now .resolved pAction pResolvedBy)
  let _ ← auditLogInsertWithChain env
    { actorType := .admin
      actorId := pResolvedBy
      targetId := vUser
      action := pAction.map fun action => "dispute_resolved_" ++ action
      amount := pAmount
      balanceBefore := some 0
      balanceAfter := some 0
      reason := some ("Dispute #" ++ formatInt pDisputeId ++ " resolved as " ++
        formatText pAction)
      refType := some "dispute"
      refId := some (toString disputeId)
      botName := "dw"
      metadata := .obj [("ticket_type", .text vDispute.ticketType.text),
        ("ticket_uid", .text vDispute.ticketUid)] }

def rejectDispute (env : Env) (pDisputeId : Option Int) (pReason : Option String)
    (pAdminId : Option Int) : LedgerTx Unit := do
  let s ← get
  let vDispute ← require .disputeNotFound (s.disputes.select pDisputeId)
  raiseIf vDispute.status.Terminal (.disputeAlreadyTerminal vDispute.status)
  -- a vanished ticket falls back to the opener
  let vUser := (s.disputedUser vDispute).getD vDispute.openerId
  let disputeId ← require .disputeNotFound pDisputeId
  modify fun s => s.setDispute disputeId (vDispute.close env.now .rejected pReason pAdminId)
  let _ ← auditLogInsertWithChain env
    { actorType := .admin
      actorId := pAdminId
      targetId := some vUser
      action := some "dispute_rejected"
      amount := none
      balanceBefore := some 0
      balanceAfter := some 0
      reason := pReason
      refType := some "dispute"
      refId := some (toString disputeId)
      botName := "dw"
      metadata := .obj [("ticket_type", .text vDispute.ticketType.text),
        ("ticket_uid", .text vDispute.ticketUid)] }

end DeathRoll
