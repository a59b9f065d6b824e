import DeathRoll.Cogs.Orchestration

/-! # Cancelling from a ticket thread

`/cancel` and `/cancel-mine` of the ticket cog. A command resolves its thread to a
ticket in one statement and cancels in a transaction of its own; between the two
others may change the ticket.
-/

namespace DeathRoll

open Relational

/-- `_format_lifecycle_failure`. -/
def formatLifecycleFailure (outcome : LifecycleOutcome) (action : String) : String :=
  match outcome with
  | .ticketNotFound _ => "❌ Cannot " ++ action ++ ": ticket not found."
  | .alreadyClaimed _ =>
      "❌ This ticket is already claimed by another cashier. " ++
        "If they're inactive, ask an admin or wait for the auto-release."
  | .regionMismatch _ =>
      "❌ You don't have an active char in this ticket's region. " ++
        "Use `/cashier addchar` first."
  | .notClaimed _ => "❌ Cannot " ++ action ++ ": ticket is not claimed."
  | .wrongCashier _ => "❌ Only the claiming cashier can " ++ action ++ " this ticket."
  | .alreadyTerminal _ => "❌ Ticket is already in a terminal state — can't " ++ action ++ " it."
  | _ => "❌ Could not " ++ action ++ " the ticket. Try again later."

/-! ## Commands -/

/-- What a command reads of `discord.Interaction`, and whether the bot has its pool. -/
structure Interaction where
  poolReady : Bool
  channelId : Option Int
  userId : Int

/-- The ticket of a thread, with the row that was selected. -/
structure TicketContext where
  ticketType : TicketType
  ticketUid : String
  ticketRow : Ticket
deriving DecidableEq

/-- `SELECT ... FROM dw.deposit_tickets WHERE thread_id = _ UNION ALL SELECT ... FROM
dw.withdraw_tickets WHERE thread_id = _ LIMIT 1`. -/
def Database.ticketInThread (s : Database) (threadId : Int) : Option TicketContext :=
  let deposit := s.depositTickets.rows.find? fun row => row.2.threadId = threadId
  let withdraw := s.withdrawTickets.rows.find? fun row => row.2.threadId = threadId
  match deposit with
  | some (uid, ticket) => some ⟨.deposit, uid, ticket⟩
  | none => withdraw.map fun row => ⟨.withdraw, row.1, row.2.toTicket⟩

/-- `_resolve_ticket_context`, or what it replies. -/
def resolveTicketContext (s : Database) (interaction : Interaction) :
    Except String TicketContext :=
  match interaction.channelId with
  | none => .error "Run this command inside a ticket thread."
  | some channelId =>
      match s.ticketInThread channelId with
      | none => .error "This channel is not bound to any open ticket."
      | some ctx => .ok ctx

/-- A command of the cog that cancels: what it passes on and replies, and when it
refuses the ticket that it selected. -/
structure CancelCommand where
  action : String
  reason : String
  done : String
  refuses : Interaction → TicketContext → Option String

namespace TicketCog

def cancel (reason : String) : CancelCommand where
  action := "cancel"
  reason := reason
  done := "Ticket cancelled."
  refuses := fun _ _ => none

def cancelMine : CancelCommand where
  action := "cancel-mine"
  reason := "cancel-mine (user)"
  done := "Your ticket has been cancelled."
  refuses := fun interaction ctx =>
    if ctx.ticketRow.discordId ≠ interaction.userId then
      some "Only the ticket owner can use `/cancel-mine`."
    else if ctx.ticketRow.status ≠ .open then
      some ("Your ticket is no longer open — ask the claiming cashier " ++
        "to `/cancel` instead.")
    else none

end TicketCog

/-- How far an invocation has got. -/
inductive Stage where
  | invoked
  | resolved (ctx : TicketContext)
  | replied (text : String)
  | crashed (error : DbError)
deriving DecidableEq

/-- What the dispatch is about to cancel. -/
def Stage.ctx? : Stage → Option TicketContext
  | .resolved ctx => some ctx
  | _ => none

theorem Stage.ctx?_eq_some {stage : Stage} {ctx : TicketContext} :
    stage.ctx? = some ctx ↔ stage = .resolved ctx := by
  cases stage <;> simp [Stage.ctx?]

/-- The command up to its next transaction's end. -/
def CancelCommand.proceed (command : CancelCommand) (interaction : Interaction) (env : Env)
    (s : Database) : Stage → Stage × Database
  | .invoked =>
      if interaction.poolReady then
        match resolveTicketContext s interaction with
        | .error text => (.replied text, s)
        | .ok ctx =>
            match command.refuses interaction ctx with
            | some text => (.replied text, s)
            | none => (.resolved ctx, s)
      else (.replied "Bot is still starting up — try again in a few seconds.", s)
  | .resolved ctx =>
      match Orchestration.cancelTicketDispatch env ctx.ticketType ctx.ticketUid interaction.userId
        command.reason s with
      | (.ok .success, s') => (.replied command.done, s')
      | (.ok outcome, s') => (.replied (formatLifecycleFailure outcome command.action), s')
      | (.error e, s') => (.crashed e, s')
  | stage => (stage, s)

/-- The database, and one invocation. -/
structure CogWorld where
  db : Database
  stage : Stage

/-- Someone else's command, or the invocation goes on. -/
inductive CogEvent where
  | other (command : Command)
  | proceed (env : Env)

def cogStep (command : CancelCommand) (interaction : Interaction) (w : CogWorld) :
    CogEvent → CogWorld
  | .other other => { w with db := step w.db other }
  | .proceed env =>
      let next := command.proceed interaction env w.db w.stage
      ⟨next.2, next.1⟩

end DeathRoll
