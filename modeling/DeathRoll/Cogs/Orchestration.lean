import DeathRoll.Balance.DwManager

/-! # Ticket orchestration

The orchestration that turns the exceptions of the ticket wrappers into outcomes. What the
database raises comes through as the text of its message: the class of the exception, and so
the outcome, is read off that text.
-/

namespace DeathRoll

open Relational

/-- The `try` of an orchestration function: a result of the wrapper, the `except` clauses on
the classes under `BalanceError`, and any other exception going through. -/
def tryWrapped {α ω : Type} (body : LedgerTx α) (success : α → ω) (except_ : BalanceError → ω)
    (s : Database) : Except DbError ω × Database :=
  let ended := wrapped body s
  match ended.1 with
  | .ok value => (.ok (success value), ended.2)
  | .error (.balance error) => (.ok (except_ error), ended.2)
  | .error (.driver error) => (.error error, ended.2)

theorem tryWrapped_snd {α ω : Type} (body : LedgerTx α) (success : α → ω)
    (except_ : BalanceError → ω) (s : Database) :
    (tryWrapped body success except_ s).2 = (transact Database.rollback body s).2 := by
  unfold tryWrapped
  dsimp only
  split <;> rfl

/-! ## Outcomes -/

/-- `LifecycleOutcome`. -/
inductive LifecycleOutcome where
  | success
  | ticketNotFound (message : String)
  | alreadyClaimed (message : String)
  | notClaimed (message : String)
  | wrongCashier (message : String)
  | regionMismatch (message : String)
  | alreadyTerminal (message : String)
  | unexpected (message : String)

/-- `ConfirmOutcome`. -/
inductive ConfirmOutcome where
  | success (newBalance : Option Int)
  | ticketNotFound (message : String)
  | notClaimed (message : String)
  | wrongCashier (message : String)
  | invariantViolation (message : String)
  | unexpected (message : String)
deriving DecidableEq

/-- `DepositOutcome`. -/
inductive DepositOutcome where
  | success (ticketUid : String)
  | userBanned (message : String)
  | amountOutOfRange (message : String)
  | invalidInput (message : String)
  | configError (message : String)
  | unexpected (message : String)
deriving DecidableEq

/-- `WithdrawOutcome`. -/
inductive WithdrawOutcome where
  | success (ticketUid : String)
  | userBanned (message : String)
  | userNotRegistered (message : String)
  | insufficientBalance (message : String)
  | amountOutOfRange (message : String)
  | invalidInput (message : String)
  | configError (message : String)
  | unexpected (message : String)
deriving DecidableEq

/-- `_ModalBase`: what a validated modal passes on. -/
structure ModalPayload where
  charName : String
  realm : String
  region : Region
  faction : Faction
  amount : Int

/-- The call that cancels a ticket. -/
def TicketType.cancelCall (kind : TicketType) (uid : String) (actorId : Int) (reason : String) :
    Call :=
  match kind with
  | .deposit => .cancelDeposit (some uid) (some actorId) (some reason)
  | .withdraw => .cancelWithdraw (some uid) (some actorId) (some reason)

namespace Orchestration

def openDepositTicket (env : Env) (payload : ModalPayload)
    (discordId threadId parentChannelId : Int) :
    Database → Except DbError DepositOutcome × Database :=
  tryWrapped
    (createDepositTicket env (some discordId) (some payload.charName) (some payload.realm)
      (some payload.region.text) (some payload.faction.text) (some payload.amount)
      (some threadId) (some parentChannelId))
    .success
    fun error =>
      match error.errorClass with
      | .userBanned => .userBanned error.message
      | .amountOutOfRange => .amountOutOfRange error.message
      | .invalidRegion | .invalidFaction => .invalidInput error.message
      | .globalConfigMissing => .configError error.message
      | _ => .unexpected error.message

def openWithdrawTicket (env : Env) (payload : ModalPayload)
    (discordId threadId parentChannelId : Int) :
    Database → Except DbError WithdrawOutcome × Database :=
  tryWrapped
    (createWithdrawTicket env (some discordId) (some payload.charName) (some payload.realm)
      (some payload.region.text) (some payload.faction.text) (some payload.amount)
      (some threadId) (some parentChannelId))
    .success
    fun error =>
      match error.errorClass with
      | .userNotRegistered => .userNotRegistered error.message
      | .userBanned => .userBanned error.message
      | .insufficientBalance => .insufficientBalance error.message
      | .amountOutOfRange => .amountOutOfRange error.message
      | .invalidRegion | .invalidFaction => .invalidInput error.message
      | .globalConfigMissing => .configError error.message
      | _ => .unexpected error.message

def claimTicketForCashier (env : Env) (ticketType : TicketType) (ticketUid : String)
    (cashierId : Int) : Database → Except DbError LifecycleOutcome × Database :=
  tryWrapped (claimTicket env (some ticketType.text) (some ticketUid) (some cashierId))
    (fun () => .success)
    fun error =>
      match error.errorClass with
      | .ticketNotFound => .ticketNotFound error.message
      | .ticketAlreadyClaimed => .alreadyClaimed error.message
      | .regionMismatch => .regionMismatch error.message
      | _ => .unexpected error.message

def releaseTicketByCashier (env : Env) (ticketType : TicketType) (ticketUid : String)
    (cashierId : Int) : Database → Except DbError LifecycleOutcome × Database :=
  tryWrapped (releaseTicket env (some ticketType.text) (some ticketUid) (some cashierId))
    (fun () => .success)
    fun error =>
      match error.errorClass with
      | .ticketNotFound => .ticketNotFound error.message
      | .ticketNotClaimed => .notClaimed error.message
      | .wrongCashier => .wrongCashier error.message
      | _ => .unexpected error.message

def cancelTicketDispatch (env : Env) (ticketType : TicketType) (ticketUid : String)
    (actorId : Int) (reason : String) : Database → Except DbError LifecycleOutcome × Database :=
  tryWrapped (callBody env (ticketType.cancelCall ticketUid actorId reason))
    (fun () => .success)
    fun error =>
      match error.errorClass with
      | .ticketNotFound => .ticketNotFound error.message
      | .ticketAlreadyTerminal => .alreadyTerminal error.message
      | _ => .unexpected error.message

/-- `confirm_deposit` or `confirm_withdraw`, by ticket type. -/
def confirmTicket (env : Env) (ticketType : TicketType) (ticketUid : String) (cashierId : Int) :
    LedgerTx (Option Int) :=
  match ticketType with
  | .deposit => confirmDeposit env (some ticketUid) (some cashierId)
  | .withdraw => confirmWithdraw env (some ticketUid) (some cashierId)

def confirmTicketDispatch (env : Env) (ticketType : TicketType) (ticketUid : String)
    (cashierId : Int) : Database → Except DbError ConfirmOutcome × Database :=
  tryWrapped (confirmTicket env ticketType ticketUid cashierId)
    .success
    fun error =>
      match error.errorClass with
      | .ticketNotFound => .ticketNotFound error.message
      | .ticketNotClaimed => .notClaimed error.message
      | .wrongCashier => .wrongCashier error.message
      | .invariantViolation => .invariantViolation error.message
      | _ => .unexpected error.message

end Orchestration

end DeathRoll
