import DeathRoll.Cogs.Ticket
import DeathRoll.Ledger.AuditTargets
import DeathRoll.Ledger.Locked

/-! # Who cancels a claimed ticket

Neither `cancel_ticket_dispatch` nor the functions it calls look at `claimed_by`, so
a claimed ticket is cancelled for whoever asks, as soon as the call can return at all.
-/

namespace DeathRoll

open Relational Tx Account
open Finsupp (single)

variable {env : Env} {s s' s₀ : Database} {kind : TicketType} {uid : String} {ticket : Ticket}

/-! ## When a cancellation returns -/

/-- A ticket that is not final can be cancelled: the cancellation can be audited, and
the gold of a withdraw is locked and fits its owner's balance. -/
structure Database.CanCancel (s : Database) (env : Env) (kind : TicketType) (ticket : Ticket) :
    Prop where
  key : ∃ key, env.chainKey = .ok key
  covered : kind = .withdraw → ticket.amount ≤ s.lockedOf ticket.discordId
  room : kind = .withdraw → InBigint (s.balanceOf ticket.discordId + ticket.amount)

/-- From `s` to `s'` the ticket was cancelled, a withdraw with a refund to its owner. -/
structure Database.Cancels (s : Database) (kind : TicketType) (uid : String) (ticket : Ticket)
    (s' : Database) : Prop where
  status : (s'.ticketOf kind uid).map Ticket.status = some .cancelled
  refund : kind = .withdraw →
    s'.balanceOf ticket.discordId = s.balanceOf ticket.discordId + ticket.amount ∧
      s'.lockedOf ticket.discordId = s.lockedOf ticket.discordId - ticket.amount

/-- A cancellation writes an audit row. -/
theorem cancelCall_needs_key {actorId : Int} {reason : String}
    (hok : (kind.cancelCall uid actorId reason).Succeeds env s) :
    ∃ key, env.chainKey = .ok key := by
  have hwp : wp (callBody env (kind.cancelCall uid actorId reason))
      (fun _ _ => ∃ key, env.chainKey = .ok key) (fun _ => True) s := by
    cases kind with
    | deposit =>
        simp only [TicketType.cancelCall, callBody, cancelDeposit, wp_bind, wp_get, wp_require,
          wp_raiseIf, wp_updateDeposit, wp_auditLogInsertWithChain, wp_pure, implies_true,
          true_and]
        grind
    | withdraw =>
        simp only [TicketType.cancelCall, callBody, cancelWithdraw, wp_bind, wp_get, wp_require,
          wp_raiseIf, wp_ifDo, wp_nullableBigint, wp_updateBalance, wp_updateWithdraw,
          wp_auditLogInsertWithChain, wp_upsertCashierStats, wp_pure, implies_true, true_and]
        grind
  exact post_of_outcome hwp (transact_ok Database.rollback (Prod.ext hok rfl))

theorem cancelDeposit_returns (hs : s.WellFormed)
    (hticket : s.depositTickets.get? uid = some ticket) (hstatus : ¬ ticket.status.Terminal)
    {key : Bytes} (hkey : env.chainKey = .ok key) (actorId : Int) (reason : Option String) :
    (Call.cancelDeposit (some uid) (some actorId) reason).Succeeds env s := by
  apply succeeds_of_wp
  unfold callBody cancelDeposit
  simp only [wp_bind, wp_get, wp_require, wp_raiseIf, wp_updateDeposit,
    wp_auditLogInsertWithChain, wp_pure, Table.select_some, hticket, hkey, Option.some.injEq,
    Except.ok.injEq, forall_eq', reduceCtorEq, false_implies, implies_true, and_true, true_and,
    hstatus, not_false_eq_true, false_and]
  intro _ _
  exact hasUser_registeredOr0 (hs.registered 0 hs.treasury) _

theorem cancelDeposit_status (hs : s.WellFormed) {actorId : Option Int} {reason : Option String}
    (hok : (Call.cancelDeposit (some uid) actorId reason).Succeeds env s) :
    ((step s (.call env (.cancelDeposit (some uid) actorId reason))).ticketOf .deposit uid).map
      Ticket.status = some .cancelled := by
  have hstep := (takes_of_succeeds hs hok).1
  generalize step s (.call env (.cancelDeposit (some uid) actorId reason)) = s' at hstep
  cases hstep with
  | quiet hquiet => exact absurd hquiet id
  | betResolved hcall => rcases hcall with ⟨_, hcall⟩ | ⟨_, hcall, -⟩ <;> cases hcall
  | depositCancelled hold hstatus hl' =>
      have hold : s.depositTickets.get? uid = _ := hold
      have hdeposits : s'.depositTickets = s.depositTickets.set uid _ := congrArg Ledger.deposits hl'
      rw [Database.ticketOf, hdeposits, Table.get?_set_self hold]
      rfl

/-- A cancellation returns exactly when the ticket can be cancelled, whoever asks. -/
theorem cancelCall_succeeds_iff (hs : s.WellFormed) (hticket : s.ticketOf kind uid = some ticket)
    (hstatus : ¬ ticket.status.Terminal) (actorId : Int) (reason : String) :
    (kind.cancelCall uid actorId reason).Succeeds env s ↔ s.CanCancel env kind ticket := by
  cases kind with
  | deposit =>
      constructor
      · intro hok
        exact ⟨cancelCall_needs_key hok, nofun, nofun⟩
      · rintro ⟨⟨key, hkey⟩, -, -⟩
        exact cancelDeposit_returns hs hticket hstatus hkey actorId (some reason)
  | withdraw =>
      obtain ⟨row, hrow, rfl⟩ := Option.map_eq_some_iff.mp hticket
      constructor
      · intro hok
        have hrefunds := cancelWithdraw_refunds hs hrow hok
        refine ⟨cancelCall_needs_key hok, fun _ => ?_, fun _ => ?_⟩
        · rw [← sub_nonneg, ← hrefunds.locked]
          exact lockedOf_nonneg _ _
        · rw [← hrefunds.balance]
          exact balanceOf_inBigint _ _
      · rintro ⟨⟨key, hkey⟩, hcovered, hroom⟩
        exact cancelWithdraw_returns hs hrow hstatus (hcovered rfl) hkey (hroom rfl) actorId
          (some reason)

theorem cancelCall_cancels (hs : s.WellFormed) (hticket : s.ticketOf kind uid = some ticket)
    {actorId : Int} {reason : String} (hok : (kind.cancelCall uid actorId reason).Succeeds env s) :
    s.Cancels kind uid ticket (step s (.call env (kind.cancelCall uid actorId reason))) := by
  cases kind with
  | deposit => exact ⟨cancelDeposit_status hs hok, nofun⟩
  | withdraw =>
      obtain ⟨row, hrow, rfl⟩ := Option.map_eq_some_iff.mp hticket
      have hrefunds := cancelWithdraw_refunds hs hrow hok
      refine ⟨?_, fun _ => ⟨hrefunds.balance, hrefunds.locked⟩⟩
      have hstatus := hrefunds.status
      rwa [Database.ticketOf, Option.map_map]

/-- The call of a dispatch cancels a ticket that is not final exactly when it can be
cancelled. -/
theorem cancels_iff (hs : s.WellFormed) (hticket : s.ticketOf kind uid = some ticket)
    (hstatus : ¬ ticket.status.Terminal) (actorId : Int) (reason : String) :
    s.Cancels kind uid ticket (step s (.call env (kind.cancelCall uid actorId reason))) ↔
      s.CanCancel env kind ticket := by
  rw [← cancelCall_succeeds_iff hs hticket hstatus actorId reason]
  constructor
  · intro hcancels
    by_contra hfails
    obtain ⟨atError, hsame⟩ := step_of_fails hfails
    have hkept : (s.rollback atError).ticketOf kind uid = some ticket := hticket
    have hcancelled := hcancels.status
    rw [hsame, hkept, Option.map_some, Option.some.injEq] at hcancelled
    exact hstatus (.inr (.inl hcancelled))
  · exact cancelCall_cancels hs hticket

/-! ## Invocations -/

section Invocation

variable {command : CancelCommand} {interaction : Interaction} {w : CogWorld}
  {ctx : TicketContext}

/-- The dispatch is the call of the ticket's kind. -/
theorem dispatch_db (hstage : w.stage = .resolved ctx) (env : Env) :
    (cogStep command interaction w (.proceed env)).db =
      step w.db (.call env
        (ctx.ticketType.cancelCall ctx.ticketUid interaction.userId command.reason)) := by
  have hstep : (Orchestration.cancelTicketDispatch env ctx.ticketType ctx.ticketUid
      interaction.userId command.reason w.db).2 = step w.db (.call env
        (ctx.ticketType.cancelCall ctx.ticketUid interaction.userId command.reason)) := by
    rw [Orchestration.cancelTicketDispatch, tryWrapped_snd]
    rfl
  simp only [cogStep, CancelCommand.proceed, hstage, ← hstep]
  split
  all_goals next heq => exact (congrArg Prod.snd heq).symm

/-- Only the dispatch touches the database, and it makes one call. -/
theorem cogStep_db (command : CancelCommand) (interaction : Interaction) (w : CogWorld)
    (event : CogEvent) :
    (cogStep command interaction w event).db = w.db ∨
      ∃ taken, (cogStep command interaction w event).db = step w.db taken := by
  cases event with
  | other other => exact .inr ⟨other, rfl⟩
  | proceed env =>
      cases hstage : w.stage with
      | invoked =>
          left
          simp only [cogStep, CancelCommand.proceed, hstage]
          repeat' split
          all_goals rfl
      | resolved ctx => exact .inr ⟨_, dispatch_db hstage env⟩
      | replied text =>
          left
          simp only [cogStep, CancelCommand.proceed, hstage]
      | crashed error =>
          left
          simp only [cogStep, CancelCommand.proceed, hstage]

/-- Whatever others do meanwhile, the database is one that commands have reached. -/
theorem cogWorld_reached (events : List CogEvent) (w : CogWorld) :
    ∃ commands, (run (cogStep command interaction) w events).db = run step w.db commands := by
  induction events generalizing w with
  | nil => exact ⟨[], rfl⟩
  | cons event rest ih =>
      obtain ⟨commands, hrest⟩ := ih (cogStep command interaction w event)
      rcases cogStep_db command interaction w event with hsame | ⟨taken, htaken⟩
      · exact ⟨commands, by rw [run_cons, hrest, hsame]⟩
      · exact ⟨taken :: commands, by rw [run_cons, hrest, htaken, run_cons]⟩

end Invocation

/-- `/cancel` cancels a claimed ticket only for its claimer exactly when the caller is
the claimer or the ticket cannot be cancelled at all. -/
theorem cancel_by_claimer_iff (h₀ : s₀.EmptyLedger) (interaction : Interaction) (reason : String)
    (events : List CogEvent) (env : Env) {w : CogWorld}
    (hw : run (cogStep (TicketCog.cancel reason) interaction) ⟨s₀, .invoked⟩ events = w)
    {ctx : TicketContext} (hstage : w.stage = .resolved ctx)
    (hticket : w.db.ticketOf ctx.ticketType ctx.ticketUid = some ticket)
    (hclaimed : ticket.status = .claimed) :
    (w.db.Cancels ctx.ticketType ctx.ticketUid ticket
        (cogStep (TicketCog.cancel reason) interaction w (.proceed env)).db →
      ticket.claimedBy = some interaction.userId) ↔
    ticket.claimedBy = some interaction.userId ∨ ¬ w.db.CanCancel env ctx.ticketType ticket := by
  obtain ⟨commands, hreached⟩ :=
    @cogWorld_reached (TicketCog.cancel reason) interaction events ⟨s₀, .invoked⟩
  have hs := wellFormed_run h₀.wellFormed commands
  rw [← hreached, hw] at hs
  have hstatus : ¬ ticket.status.Terminal := by simp [hclaimed, TicketStatus.Terminal]
  rw [dispatch_db hstage, cancels_iff hs hticket hstatus, imp_iff_or_not]

/-- User 9 withdraws 1000 in thread 3. -/
def openedRun : List Command :=
  depositRun ++
    [.call .plain (.createWithdrawTicket (some 9) (some "Char") (some "Realm") (some "EU")
      (some "Horde") (some 1000) (some 3) (some 2))]

/-- Cashier 7 claims the withdraw. -/
def claimWithdraw : Command :=
  .call .plain (.claimTicket (some "withdraw") (some "withdraw-1") (some 7))

/-- A user has run `/cancel` in the thread of the claimed withdraw, which is resolved
by now. -/
def cancelling (userId : Int) : CogWorld :=
  run (cogStep (TicketCog.cancel "no show") ⟨true, some 3, userId⟩) ⟨.seeded, .invoked⟩
    ((openedRun ++ [claimWithdraw]).map .other ++ [.proceed .plain])

theorem cancel_by_claimer_iff_claimer :
    ∃ ctx ticket, (cancelling 7).stage = .resolved ctx ∧ ticket.claimedBy = some 7 ∧
      ((cancelling 7).db.Cancels ctx.ticketType ctx.ticketUid ticket
          (cogStep (TicketCog.cancel "no show") ⟨true, some 3, 7⟩ (cancelling 7)
            (.proceed .plain)).db →
        ticket.claimedBy = some 7) := by
  have hresolved : ((cancelling 7).stage.ctx?.bind fun ctx =>
      ((cancelling 7).db.ticketOf ctx.ticketType ctx.ticketUid).map fun ticket =>
        (ticket.status, ticket.claimedBy)) = some (.claimed, some 7) := by
    decide +kernel
  obtain ⟨ctx, hctx, hrow⟩ := Option.bind_eq_some_iff.mp hresolved
  have hstage := Stage.ctx?_eq_some.mp hctx
  obtain ⟨ticket, hticket, hcolumns⟩ := Option.map_eq_some_iff.mp hrow
  simp only [Prod.mk.injEq] at hcolumns
  obtain ⟨hclaimed, hclaimer⟩ := hcolumns
  exact ⟨ctx, ticket, hstage, hclaimer,
    (cancel_by_claimer_iff seeded_empty ⟨true, some 3, 7⟩ "no show" _ .plain rfl hstage hticket
      hclaimed).mpr (.inl hclaimer)⟩

/-- The owner of a withdraw that cashier 7 has claimed takes its gold back. -/
theorem owner_cancels_claimed :
    ((cancelling 9).db.ticketOf .withdraw "withdraw-1").map (fun ticket =>
      (ticket.status, ticket.claimedBy)) = some (.claimed, some 7) ∧
    ((cogStep (TicketCog.cancel "no show") ⟨true, some 3, 9⟩ (cancelling 9)
      (.proceed .plain)).db.ticketOf .withdraw "withdraw-1").map Ticket.status =
        some .cancelled ∧
    (cogStep (TicketCog.cancel "no show") ⟨true, some 3, 9⟩ (cancelling 9)
      (.proceed .plain)).db.balanceOf 9 = (cancelling 9).db.balanceOf 9 + 1000 := by
  decide +kernel

end DeathRoll
