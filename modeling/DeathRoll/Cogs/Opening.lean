import DeathRoll.Cogs.Ticket
import DeathRoll.Ratelimit.FixedWindow
import DeathRoll.Relational.Autocommit

/-! # Opening a ticket

`/deposit` and `/withdraw`, from the slash command to the thread of the ticket. The thread
comes first, since its id is a column of the ticket: it is created, the user is added, the
database is called, and then the thread is renamed or torn down. Every one of these is a
request of its own, which can fail or go unanswered, and others go on in between.
-/

namespace DeathRoll

open Relational

/-! ## What the commands say -/

/-- `_format_deposit_failure`. -/
def formatDepositFailure : DepositOutcome → String
  | .userBanned _ =>
      "❌ You are blacklisted from creating deposit tickets. " ++
        "Open a dispute via the support channel if you believe this is in error."
  | .amountOutOfRange message => "❌ Amount out of range: " ++ message
  | .invalidInput message => "❌ Invalid input: " ++ message
  | .configError _ =>
      "❌ The bot's config is incomplete — admins should review " ++
        "`dw.global_config`. Try again later."
  | _ => "❌ Could not open the deposit ticket. Try again later."

/-- `_format_withdraw_failure`. -/
def formatWithdrawFailure : WithdrawOutcome → String
  | .userBanned _ =>
      "❌ You are blacklisted from withdrawing. Open a dispute " ++
        "via the support channel if you believe this is in error."
  | .userNotRegistered _ =>
      "❌ You don't have a balance yet — make a deposit first via " ++ "`/deposit`."
  | .insufficientBalance message => "❌ Insufficient balance: " ++ message
  | .amountOutOfRange message => "❌ Amount out of range: " ++ message
  | .invalidInput message => "❌ Invalid input: " ++ message
  | .configError _ =>
      "❌ The bot's config is incomplete — admins should review " ++
        "`dw.global_config`. Try again later."
  | _ => "❌ Could not open the withdraw ticket. Try again later."

/-- `resolve_channel_id` of the command's own channel. -/
def Database.resolveChannelId (s : Database) (kind : TicketType) : Option Int :=
  s.dwInt ("channel_id_" ++ kind.text)

/-- The reply to a command in a place where it does not belong. -/
def refuseChannel (kind : TicketType) (configured : Option Int) (channelId : Option Int) :
    Option String :=
  match configured with
  | none =>
      some ((match kind with | .deposit => "Deposit" | .withdraw => "Withdraw") ++
        " channel not configured yet — ask an admin to run `/admin setup`.")
  | some configured =>
      if channelId ≠ some configured then
        some ("Use this command in <#" ++ toString configured ++ ">.")
      else none

/-! ## The database call -/

/-- The uid of the new ticket, or what the user is told. -/
def openTicketOutcome (env : Env) (kind : TicketType) (payload : ModalPayload)
    (discordId threadId parentChannelId : Int) (s : Database) :
    Except DbError (Except String String) × Database :=
  match kind with
  | .deposit =>
      (Orchestration.openDepositTicket env payload discordId threadId parentChannelId s).map
        (Except.map fun
          | .success ticketUid => .ok ticketUid
          | outcome => .error (formatDepositFailure outcome)) id
  | .withdraw =>
      (Orchestration.openWithdrawTicket env payload discordId threadId parentChannelId s).map
        (Except.map fun
          | .success ticketUid => .ok ticketUid
          | outcome => .error (formatWithdrawFailure outcome)) id

/-! ## Invocations -/

/-- A private thread. -/
structure TicketThread where
  name : String
  parentId : Int
  members : List Int
deriving DecidableEq

/-- What an invocation holds once Discord has given it a thread under the text channel. -/
structure Hosting where
  payload : ModalPayload
  parentId : Int
  threadId : Int

/-- How far an invocation has got. -/
inductive OpeningStage where
  | invoked
  /-- In its channel; the limiter is next. -/
  | bound
  /-- The modal is shown. -/
  | asked
  | validated (payload : ModalPayload) (parentId : Int)
  | threaded (host : Hosting)
  | joined (host : Hosting)
  | opened (host : Hosting) (ticketUid : String)
  | renamed (host : Hosting) (ticketUid : String)
  | announced (host : Hosting) (ticketUid text : String)
  | rejected (host : Hosting) (text : String)
  | tornDown (host : Hosting) (deleted : Bool) (text : String)
  | replied (text : String)
  /-- An exception went through. -/
  | raised (host : Option Hosting)

/-- The thread of an invocation. -/
def OpeningStage.host? : OpeningStage → Option Hosting
  | .threaded host | .joined host | .opened host _ | .renamed host _ | .announced host ..
  | .rejected host _ | .tornDown host .. => some host
  | .raised host => host
  | _ => none

/-- One invocation of `/deposit` or `/withdraw`; `passedAt` is when the limiter let it go on. -/
structure Opening where
  kind : TicketType
  interaction : Interaction
  passedAt : Option ℚ
  stage : OpeningStage

/-- What comes of the next request of an invocation: its delivery, the session of the
database, the clock, and the id that a new thread gets. -/
structure Reply where
  delivery : Delivery
  env : Env
  monotonic : ℚ
  snowflake : Int

/-- The bot at work: the database, its limiters and clock, the guild's threads with the ids
that have been given out, and every invocation so far. -/
structure FrontDoor where
  db : Database
  limiters : TicketType → FixedWindowLimiter Int
  clock : ℚ
  threads : Int → Option TicketThread
  issued : List Int
  openings : List Opening

/-- `FixedWindowLimiter(capacity=1, window_seconds=60.0)`. -/
def ticketLimiter : FixedWindowLimiter Int where
  capacity := 1
  window := 60
  capacity_pos := by decide
  window_pos := by norm_num
  buckets := fun _ => none

namespace FrontDoor

/-- The name of a thread whose ticket has no uid yet. -/
def pendingName (kind : TicketType) (userId : Int) : String :=
  kind.text ++ "-pending-" ++ toString userId

/-- A request that edits a thread; Discord knows no thread that was deleted. -/
def editThread (w : FrontDoor) (threadId : Int) (delivery : Delivery)
    (edit : TicketThread → TicketThread) : Bool × FrontDoor :=
  match w.threads threadId, delivery with
  | none, _ | _, .undone => (false, w)
  | some thread, delivery =>
      (delivery = .answered,
        { w with threads := Function.update w.threads threadId (some (edit thread)) })

/-- `thread.delete()`. -/
def deleteThread (w : FrontDoor) (threadId : Int) (delivery : Delivery) : Bool × FrontDoor :=
  match w.threads threadId, delivery with
  | none, _ | _, .undone => (false, w)
  | _, delivery =>
      (delivery = .answered, { w with threads := Function.update w.threads threadId none })

/-- `parent.create_thread(...)`, with the id of the new thread. -/
def createThread (w : FrontDoor) (threadId : Int) (thread : TicketThread) (delivery : Delivery) :
    Bool × FrontDoor :=
  match delivery with
  | .undone => (false, w)
  | delivery =>
      (delivery = .answered,
        { w with
          threads := Function.update w.threads threadId (some thread)
          issued := threadId :: w.issued })

/-- `open_deposit_ticket` or `open_withdraw_ticket`; `none` is an exception. -/
def callDatabase (w : FrontDoor) (opening : Opening) (host : Hosting) (reply : Reply) :
    Option (Except String String) × FrontDoor :=
  let ended := openTicketOutcome reply.env opening.kind host.payload opening.interaction.userId
    host.threadId host.parentId w.db
  match reply.delivery with
  | .answered => (ended.1.toOption, { w with db := ended.2 })
  | .undone => (none, w)
  | .unanswered => (none, { w with db := ended.2 })

/-- An invocation up to the end of its next request. -/
def proceed (w : FrontDoor) (opening : Opening) (reply : Reply) : Opening × FrontDoor :=
  match opening.stage with
  | .invoked =>
      if ¬ opening.interaction.poolReady then
        ({ opening with
            stage := .replied "Bot is still starting up — try again in a few seconds." }, w)
      else if reply.delivery ≠ .answered then ({ opening with stage := .raised none }, w)
      else
        match refuseChannel opening.kind (w.db.resolveChannelId opening.kind)
          opening.interaction.channelId with
        | some text => ({ opening with stage := .replied text }, w)
        | none => ({ opening with stage := .bound }, w)
  | .bound =>
      let (granted, limiter) := (w.limiters opening.kind).acquire
        ⟨opening.interaction.userId, none, reply.monotonic⟩
      let w := { w with limiters := Function.update w.limiters opening.kind limiter }
      if ¬ granted then
        ({ opening with
            stage := .replied
              "You opened a ticket too recently. Wait a minute and try again." }, w)
      else
        ({ opening with
            passedAt := some reply.monotonic
            stage := if reply.delivery = .answered then .asked else .raised none }, w)
  | .validated payload parentId =>
      -- Discord gives out no id twice
      if reply.snowflake ∈ w.issued then (opening, w)
      else
        let name := pendingName opening.kind opening.interaction.userId
        if name.length = 0 ∨ 100 < name.length then ({ opening with stage := .raised none }, w)
        else
          let (answered, w) := w.createThread reply.snowflake
            ⟨name, parentId, []⟩ reply.delivery
          let stage :=
            if answered then .threaded ⟨payload, parentId, reply.snowflake⟩ else .raised none
          ({ opening with stage }, w)
  | .threaded host =>
      let (answered, w) := w.editThread host.threadId reply.delivery fun thread =>
        { thread with members := opening.interaction.userId :: thread.members }
      ({ opening with stage := if answered then .joined host else .raised (some host) }, w)
  | .joined host =>
      let (outcome, w) := w.callDatabase opening host reply
      let stage := match outcome with
        | some (.ok ticketUid) => .opened host ticketUid
        | some (.error text) => .rejected host text
        | none => .raised (some host)
      ({ opening with stage }, w)
  | .opened host ticketUid =>
      let (answered, w) := w.editThread host.threadId reply.delivery fun thread =>
        { thread with name := ticketUid }
      ({ opening with stage :=
          if answered then .renamed host ticketUid else .raised (some host) }, w)
  | .renamed host ticketUid =>
      if (w.threads host.threadId).isSome ∧ reply.delivery = .answered then
        let text := "Ticket opened: <#" ++ toString host.threadId ++ ">"
        ({ opening with stage := .announced host ticketUid text }, w)
      else ({ opening with stage := .raised (some host) }, w)
  | .rejected host text =>
      -- `_safe_delete_thread` lets no exception through
      let (deleted, w) := w.deleteThread host.threadId reply.delivery
      ({ opening with stage := .tornDown host deleted text }, w)
  | _ => (opening, w)

end FrontDoor

/-! ## Steps -/

/-- The calls that create a ticket. -/
def Call.OpensTicket : Call → Prop
  | .createDepositTicket .. | .createWithdrawTicket .. => True
  | _ => False

/-- The commands that create a ticket: only an opening makes them. -/
def Command.OpensTicket : Command → Prop
  | .call _ made => made.OpensTicket
  | .config _ => False

/-- What happens next. -/
inductive FrontDoorEvent where
  | invoke (kind : TicketType) (interaction : Interaction)
  | proceed (opening : Nat) (reply : Reply)
  /-- The user submits the modal: what the validation makes of it, and the channel if it is a
  text channel. -/
  | submit (opening : Nat) (input : Except String ModalPayload) (parent : Option Int)
  /-- A moderator renames a thread, or deletes it. -/
  | moderate (threadId : Int) (name : Option String)
  | other (command : Command) (hother : ¬ command.OpensTicket)

namespace FrontDoor

/-- The modal of an invocation is submitted. -/
def submit (opening : Opening) (input : Except String ModalPayload) (parent : Option Int) :
    Opening :=
  match opening.stage, input, parent with
  | .asked, .error text, _ => { opening with stage := .replied text }
  | .asked, .ok payload, some parentId => { opening with stage := .validated payload parentId }
  | .asked, .ok _, none =>
      { opening with stage := .replied "This command must be run in a server text channel." }
  | _, _, _ => opening

def step (w : FrontDoor) : FrontDoorEvent → FrontDoor
  | .invoke kind interaction =>
      { w with openings := w.openings ++ [⟨kind, interaction, none, .invoked⟩] }
  | .proceed i reply =>
      match w.openings[i]? with
      | none => w
      | some opening =>
          -- the clock is monotonic
          if reply.monotonic < w.clock then w
          else
            let (opening, w) := w.proceed opening reply
            { w with clock := reply.monotonic, openings := w.openings.set i opening }
  | .submit i input parent =>
      match w.openings[i]? with
      | none => w
      | some opening => { w with openings := w.openings.set i (submit opening input parent) }
  | .moderate threadId name =>
      match w.threads threadId with
      | none => w
      | some thread =>
          { w with
            threads := Function.update w.threads threadId
              (name.map fun name => { thread with name }) }
  | .other command _ => { w with db := DeathRoll.step w.db command }

end FrontDoor

end DeathRoll
