import DeathRoll.Cogs.Cancel

/-! # `/cancel-mine` against claims

The owner's command refuses a ticket that was not open when it selected it. What its
transaction finds later depends on the claims and releases that commit in between.
-/

namespace DeathRoll

open Relational

variable {env : Env} {s s' s₀ : Database} {kind : TicketType} {uid : String} {ticket : Ticket}

/-! ## Claims and releases -/

/-- The command claims or releases some ticket. -/
def Command.ClaimsOrReleases : Command → Prop
  | .call _ (.claimTicket ..) => True
  | .call _ (.releaseTicket ..) => True
  | _ => False

/-- The step releases the ticket of a kind and uid. -/
def Releases (kind : TicketType) (uid : String) (taken : Database × Command) : Prop :=
  ∃ env actor, taken.2 = .call env (.releaseTicket (some kind.text) (some uid) actor) ∧
    (Call.releaseTicket (some kind.text) (some uid) actor).Succeeds env taken.1

/-- A claim of the ticket, not released since, stands at the end of a history. -/
def ClaimStands (kind : TicketType) (uid : String) (history : List (Database × Command)) : Prop :=
  ∃ first taken rest, history = first ++ taken :: rest ∧ claimOf kind uid taken ≠ none ∧
    ∀ later ∈ rest, ¬ Releases kind uid later

theorem not_claimStands_nil (kind : TicketType) (uid : String) : ¬ ClaimStands kind uid [] := by
  rintro ⟨first, taken, rest, hsplit, -⟩
  simp at hsplit

theorem claimStands_snoc (history : List (Database × Command)) (taken : Database × Command) :
    ClaimStands kind uid (history ++ [taken]) ↔
      claimOf kind uid taken ≠ none ∨
        ClaimStands kind uid history ∧ ¬ Releases kind uid taken := by
  constructor
  · rintro ⟨first, claim, rest, hsplit, hclaim, hkept⟩
    rcases List.eq_nil_or_concat rest with rfl | ⟨rest, last, rfl⟩
    · obtain ⟨-, hlast⟩ := List.append_inj' hsplit rfl
      cases hlast
      exact .inl hclaim
    · rw [List.concat_eq_append, ← List.cons_append, ← List.append_assoc] at hsplit
      obtain ⟨hhistory, hlast⟩ := List.append_inj' hsplit rfl
      cases hlast
      right
      refine ⟨⟨first, claim, rest, hhistory, hclaim, fun later hlater => ?_⟩, ?_⟩
      · exact hkept later (by simp [hlater])
      · exact hkept taken (by simp)
  · rintro (hclaim | ⟨⟨first, claim, rest, rfl, hclaim, hkept⟩, hlast⟩)
    · exact ⟨history, taken, [], rfl, hclaim, by simp⟩
    · refine ⟨first, claim, rest ++ [taken], by simp, hclaim, fun later hlater => ?_⟩
      rcases List.mem_append.mp hlater with hlater | hlater
      · exact hkept later hlater
      · rw [List.mem_singleton] at hlater
        exact hlater ▸ hlast

/-- From `s` to `s'` one ticket was replaced, and no other. -/
structure Database.Replaces (s : Database) (kind : TicketType) (uid : String) (old new : Ticket)
    (s' : Database) : Prop where
  old : s.ticketOf kind uid = some old
  new : s'.ticketOf kind uid = some new
  others : ∀ kind' uid', (kind', uid') ≠ (kind, uid) →
    s'.ticketOf kind' uid' = s.ticketOf kind' uid'

theorem replaces_deposit {old new : Ticket} (hold : s.depositTickets.get? uid = some old)
    (hdeposits : s'.depositTickets = s.depositTickets.set uid new)
    (hwithdraws : s'.withdrawTickets = s.withdrawTickets) :
    s.Replaces .deposit uid old new s' where
  old := hold
  new := by
    rw [Database.ticketOf, hdeposits]
    exact Table.get?_set_self hold new
  others := by
    intro kind' uid' hother
    cases kind' with
    | deposit =>
        have huid : uid' ≠ uid := fun heq => hother (by rw [heq])
        simp only [Database.ticketOf, hdeposits, Table.get?_set_of_ne _ huid]
    | withdraw => simp only [Database.ticketOf, hwithdraws]

theorem replaces_withdraw {old new : WithdrawTicket} (hold : s.withdrawTickets.get? uid = some old)
    (hdeposits : s'.depositTickets = s.depositTickets)
    (hwithdraws : s'.withdrawTickets = s.withdrawTickets.set uid new) :
    s.Replaces .withdraw uid old.toTicket new.toTicket s' where
  old := by rw [Database.ticketOf, hold, Option.map_some]
  new := by rw [Database.ticketOf, hwithdraws, Table.get?_set_self hold, Option.map_some]
  others := by
    intro kind' uid' hother
    cases kind' with
    | deposit => simp only [Database.ticketOf, hdeposits]
    | withdraw =>
        have huid : uid' ≠ uid := fun heq => hother (by rw [heq])
        simp only [Database.ticketOf, hwithdraws, Table.get?_set_of_ne _ huid]

/-- A claim that returns claims one open ticket. -/
theorem claimTicket_replaces (hs : s.WellFormed) {t u : Option String} {c : Option Int}
    (hok : (Call.claimTicket t u c).Succeeds env s) :
    ∃ (kind : TicketType) (uid : String) (cashier : Int) (old : Ticket),
      Call.claimTicket t u c = kind.claimCall uid cashier ∧
      s.Replaces kind uid old (old.claim env.now (some cashier))
        (step s (.call env (.claimTicket t u c))) := by
  have hstep := (takes_of_succeeds hs hok).1
  generalize step s (.call env (.claimTicket t u c)) = s' at hstep
  cases hstep with
  | quiet hquiet => exact absurd hquiet id
  | betResolved hcall => rcases hcall with ⟨_, hcall⟩ | ⟨_, hcall, -⟩ <;> cases hcall
  | @depositClaimed _ uid ticket cashier hold hstatus hl' =>
      exact ⟨.deposit, uid, cashier, ticket, rfl,
        replaces_deposit hold (congrArg Ledger.deposits hl') (congrArg Ledger.withdraws hl')⟩
  | @withdrawClaimed _ uid ticket cashier hold hstatus hl' =>
      exact ⟨.withdraw, uid, cashier, ticket.toTicket, rfl,
        replaces_withdraw hold (congrArg Ledger.deposits hl') (congrArg Ledger.withdraws hl')⟩

/-- A release that returns opens one ticket. -/
theorem releaseTicket_replaces (hs : s.WellFormed) {t u : Option String} {a : Option Int}
    (hok : (Call.releaseTicket t u a).Succeeds env s) :
    ∃ (kind : TicketType) (uid : String) (old : Ticket), t = some kind.text ∧ u = some uid ∧
      s.Replaces kind uid old (old.release env.now)
        (step s (.call env (.releaseTicket t u a))) := by
  have hstep := (takes_of_succeeds hs hok).1
  generalize step s (.call env (.releaseTicket t u a)) = s' at hstep
  cases hstep with
  | quiet hquiet => exact absurd hquiet id
  | betResolved hcall => rcases hcall with ⟨_, hcall⟩ | ⟨_, hcall, -⟩ <;> cases hcall
  | @depositReleased _ uid ticket _ hold hstatus hl' =>
      exact ⟨.deposit, uid, ticket, rfl, rfl,
        replaces_deposit hold (congrArg Ledger.deposits hl') (congrArg Ledger.withdraws hl')⟩
  | @withdrawReleased _ uid ticket _ hold hstatus hl' =>
      exact ⟨.withdraw, uid, ticket.toTicket, rfl, rfl,
        replaces_withdraw hold (congrArg Ledger.deposits hl') (congrArg Ledger.withdraws hl')⟩

/-- What a claim or a release, returning or not, does to the ticket of a kind and uid. -/
inductive ClaimStep (kind : TicketType) (uid : String) (taken : Database × Command)
    (ticket : Ticket) : Ticket → Prop
  | claimed (now : Timestamp) (cashier : Int) (hclaim : claimOf kind uid taken = some cashier) :
      ClaimStep kind uid taken ticket (ticket.claim now (some cashier))
  | released (now : Timestamp) (hclaim : claimOf kind uid taken = none)
      (hreleases : Releases kind uid taken) :
      ClaimStep kind uid taken ticket (ticket.release now)
  | same (hclaim : claimOf kind uid taken = none) (hreleases : ¬ Releases kind uid taken) :
      ClaimStep kind uid taken ticket ticket

/-- A call that raises neither claims nor releases. -/
theorem claimStep_of_fails {call : Call} (hfail : ¬ call.Succeeds env s)
    (hticket : s.ticketOf kind uid = some ticket) :
    ∃ ticket', (step s (.call env call)).ticketOf kind uid = some ticket' ∧
      ClaimStep kind uid (s, .call env call) ticket ticket' := by
  obtain ⟨atError, hsame⟩ := step_of_fails hfail
  refine ⟨ticket, by rw [hsame]; exact hticket, .same (claimOf_eq_none_of_idle hfail) ?_⟩
  rintro ⟨env', actor, hcommand, hok⟩
  cases hcommand
  exact hfail hok

theorem step_claimsOrReleases (hs : s.WellFormed) {command : Command}
    (hcommand : command.ClaimsOrReleases) (hticket : s.ticketOf kind uid = some ticket) :
    ∃ ticket', (step s command).ticketOf kind uid = some ticket' ∧
      ClaimStep kind uid (s, command) ticket ticket' := by
  cases command with
  | config write => exact hcommand.elim
  | call env call =>
      by_cases hok : call.Succeeds env s
      · cases call with
        | claimTicket t u c =>
            obtain ⟨kind', uid', cashier, old, hcall, hreplaces⟩ := claimTicket_replaces hs hok
            have hreleases : ¬ Releases kind uid (s, .call env (.claimTicket t u c)) := by
              rintro ⟨_, _, hcommand, -⟩
              cases hcommand
            by_cases hthis : (kind, uid) = (kind', uid')
            · cases hthis
              cases hticket.symm.trans hreplaces.old
              rw [hcall] at hok hreplaces ⊢
              exact ⟨_, hreplaces.new, .claimed env.now cashier (claimOf_claimCall hok)⟩
            · refine ⟨ticket, by rw [hreplaces.others kind uid hthis, hticket], .same ?_ hreleases⟩
              apply claimOf_eq_none
              intro other heq
              rw [hcall] at heq
              simp only [TicketType.claimCall, Call.claimTicket.injEq, Option.some.injEq] at heq
              exact hthis (by rw [TicketType.text_injective heq.1, heq.2.1])
        | releaseTicket t u a =>
            obtain ⟨kind', uid', old, rfl, rfl, hreplaces⟩ := releaseTicket_replaces hs hok
            have hclaim : claimOf kind uid (s, .call env (.releaseTicket (some kind'.text)
                (some uid') a)) = none := by
              apply claimOf_eq_none
              intro cashier hcall
              cases hcall
            by_cases hthis : (kind, uid) = (kind', uid')
            · cases hthis
              cases hticket.symm.trans hreplaces.old
              exact ⟨_, hreplaces.new, .released env.now hclaim ⟨env, a, rfl, hok⟩⟩
            · refine ⟨ticket, by rw [hreplaces.others kind uid hthis, hticket], .same hclaim ?_⟩
              rintro ⟨_, _, hcommand, -⟩
              simp only [Command.call.injEq, Call.releaseTicket.injEq, Option.some.injEq]
                at hcommand
              exact hthis (by rw [TicketType.text_injective hcommand.2.1, hcommand.2.2.1])
        | _ => exact hcommand.elim
      · exact claimStep_of_fails hok hticket

/-- A ticket that was open is claimed after claims and releases exactly when a claim
of it stands, and open otherwise. -/
theorem run_claimsOrReleases (hs : s.WellFormed) (hticket : s.ticketOf kind uid = some ticket)
    (hopen : ticket.status = .open) (commands : List Command)
    (hcommands : ∀ command ∈ commands, command.ClaimsOrReleases) :
    ∃ ticket', (run step s commands).ticketOf kind uid = some ticket' ∧
      ticket'.discordId = ticket.discordId ∧ ticket'.amount = ticket.amount ∧
      (ClaimStands kind uid (steps step s commands) ∧ ticket'.status = .claimed ∨
        ¬ ClaimStands kind uid (steps step s commands) ∧ ticket'.status = .open) := by
  induction commands using List.reverseRecOn with
  | nil => exact ⟨ticket, hticket, rfl, rfl, .inr ⟨not_claimStands_nil kind uid, hopen⟩⟩
  | append_singleton commands command ih =>
      obtain ⟨old, hold, howner, hamount, hstatus⟩ :=
        ih fun earlier hearlier => hcommands earlier (List.mem_append_left _ hearlier)
      obtain ⟨new, hnew, hstep⟩ := step_claimsOrReleases (wellFormed_run hs commands)
        (hcommands command (by simp)) hold
      rw [run_append, steps_append, run_cons, run_nil, steps_cons, steps_nil, claimStands_snoc]
      refine ⟨new, hnew, ?_⟩
      cases hstep with
      | claimed now cashier hclaim =>
          exact ⟨howner, hamount, .inl ⟨.inl (by simp [hclaim]), rfl⟩⟩
      | released now hclaim hreleases =>
          exact ⟨howner, hamount, .inr ⟨by simp [hclaim, hreleases], rfl⟩⟩
      | same hclaim hreleases =>
          refine ⟨howner, hamount, ?_⟩
          simpa [hclaim, hreleases] using hstatus

/-! ## Invocations -/

variable {command : CancelCommand} {interaction : Interaction} {ctx : TicketContext}

theorem run_others (command : CancelCommand) (interaction : Interaction) (w : CogWorld)
    (commands : List Command) :
    run (cogStep command interaction) w (commands.map .other) =
      ⟨run step w.db commands, w.stage⟩ := by
  induction commands generalizing w with
  | nil => rfl
  | cons first rest ih => exact ih { w with db := step w.db first }

/-- A thread is resolved to a ticket that is there, with its row. -/
theorem ticketOf_of_ticketInThread {threadId : Int} (hctx : s.ticketInThread threadId = some ctx) :
    s.ticketOf ctx.ticketType ctx.ticketUid = some ctx.ticketRow := by
  unfold Database.ticketInThread at hctx
  simp only at hctx
  split at hctx
  next uid ticket hfound =>
    cases hctx
    exact Table.get?_eq_some.mpr (List.mem_of_find?_eq_some hfound)
  next =>
    obtain ⟨⟨uid, row⟩, hfound, rfl⟩ := Option.map_eq_some_iff.mp hctx
    have hrow := Table.get?_eq_some.mpr (List.mem_of_find?_eq_some hfound)
    rw [Database.ticketOf, hrow, Option.map_some]

/-- A command that goes on after its `SELECT` has read a ticket it does not refuse. -/
theorem selected_of_resolved (hstage : (cogStep command interaction ⟨s, .invoked⟩
    (.proceed env)).stage = .resolved ctx) :
    (cogStep command interaction ⟨s, .invoked⟩ (.proceed env)).db = s ∧
      s.ticketOf ctx.ticketType ctx.ticketUid = some ctx.ticketRow ∧
      command.refuses interaction ctx = none := by
  simp only [cogStep, CancelCommand.proceed] at hstage ⊢
  cases hpool : interaction.poolReady with
  | false => simp [hpool] at hstage
  | true =>
      cases hresolve : resolveTicketContext s interaction with
      | error text => simp [hpool, hresolve] at hstage
      | ok found =>
          cases hrefuses : command.refuses interaction found with
          | some text => simp [hpool, hresolve, hrefuses] at hstage
          | none =>
              simp only [hpool, hresolve, hrefuses, if_true, Stage.resolved.injEq] at hstage ⊢
              subst hstage
              refine ⟨trivial, ?_, hrefuses⟩
              unfold resolveTicketContext at hresolve
              split at hresolve
              next => cases hresolve
              next channelId hchannel =>
                split at hresolve
                next => cases hresolve
                next hfound =>
                  cases hresolve
                  exact ticketOf_of_ticketInThread hfound

theorem open_of_cancelMine (hrefuses : TicketCog.cancelMine.refuses interaction ctx = none) :
    ctx.ticketRow.status = .open := by
  simp only [TicketCog.cancelMine] at hrefuses
  split at hrefuses
  next => cases hrefuses
  next =>
    split at hrefuses
    next => cases hrefuses
    next hopen => exact not_not.mp hopen

/-- `/cancel-mine` cancels the ticket only while it is open exactly when no claim that
committed after the command's `SELECT` stands, or the ticket cannot be cancelled. -/
theorem cancel_mine_open_iff (h₀ : s₀.EmptyLedger) (interaction : Interaction)
    (earlier between : List Command) (hbetween : ∀ command ∈ between, command.ClaimsOrReleases)
    (env₀ env : Env) {selected before : CogWorld}
    (hselected : run (cogStep TicketCog.cancelMine interaction) ⟨s₀, .invoked⟩
      (earlier.map .other ++ [.proceed env₀]) = selected)
    (hbefore : run (cogStep TicketCog.cancelMine interaction) selected (between.map .other) =
      before)
    (hstage : selected.stage = .resolved ctx)
    (hticket : before.db.ticketOf ctx.ticketType ctx.ticketUid = some ticket) :
    (before.db.Cancels ctx.ticketType ctx.ticketUid ticket
        (cogStep TicketCog.cancelMine interaction before (.proceed env)).db →
      ticket.status = .open) ↔
    ¬ ClaimStands ctx.ticketType ctx.ticketUid (steps step selected.db between) ∨
      ¬ before.db.CanCancel env ctx.ticketType ticket := by
  rw [run_append, run_others, run_cons, run_nil] at hselected
  have hresolved := hstage
  rw [← hselected] at hresolved
  obtain ⟨hdb, hrow, hrefuses⟩ := selected_of_resolved hresolved
  rw [hselected] at hdb
  have hs := wellFormed_run h₀.wellFormed earlier
  rw [run_others, hdb] at hbefore
  have hbeforeDb : before.db = run step (run step s₀ earlier) between := by rw [← hbefore]
  have hbeforeStage : before.stage = .resolved ctx := by rw [← hbefore, hstage]
  obtain ⟨row, hrow', -, -, hstatus⟩ :=
    run_claimsOrReleases hs hrow (open_of_cancelMine hrefuses) between hbetween
  have hbeforeSound := wellFormed_run hs between
  rw [← hbeforeDb] at hrow' hbeforeSound
  obtain rfl := Option.some.inj (hrow'.symm.trans hticket)
  have hpending : ¬ row.status.Terminal := by
    rcases hstatus with ⟨-, hstatus⟩ | ⟨-, hstatus⟩ <;> simp [hstatus, TicketStatus.Terminal]
  rw [dispatch_db hbeforeStage, cancels_iff hbeforeSound hticket hpending, hdb]
  rcases hstatus with ⟨hstands, hstatus⟩ | ⟨hstands, hstatus⟩
  · simp [hstands, hstatus]
  · simp [hstands, hstatus]

def releaseWithdraw : Command :=
  .call .plain (.releaseTicket (some "withdraw") (some "withdraw-1") (some 7))

/-- User 9 has run `/cancel-mine`, and its `SELECT` has found the withdraw open. -/
def selectedMine : CogWorld :=
  run (cogStep TicketCog.cancelMine ⟨true, some 3, 9⟩) ⟨.seeded, .invoked⟩
    (openedRun.map .other ++ [.proceed .plain])

/-- The invocation after further commands of others. -/
def waitedMine (between : List Command) : CogWorld :=
  run (cogStep TicketCog.cancelMine ⟨true, some 3, 9⟩) selectedMine (between.map .other)

abbrev cancelledMine (between : List Command) : CogWorld :=
  cogStep TicketCog.cancelMine ⟨true, some 3, 9⟩ (waitedMine between) (.proceed .plain)

theorem cancel_mine_open_iff_released :
    ∃ ctx ticket, selectedMine.stage = .resolved ctx ∧
      (waitedMine [claimWithdraw, releaseWithdraw]).db.ticketOf ctx.ticketType ctx.ticketUid =
        some ticket ∧
      ((waitedMine [claimWithdraw, releaseWithdraw]).db.Cancels ctx.ticketType ctx.ticketUid ticket
          (cancelledMine [claimWithdraw, releaseWithdraw]).db →
        ticket.status = .open) := by
  have hresolved : (selectedMine.stage.ctx?.map fun ctx => (ctx.ticketType, ctx.ticketUid)) =
      some (.withdraw, "withdraw-1") := by
    decide +kernel
  have hthere : ((waitedMine [claimWithdraw, releaseWithdraw]).db.ticketOf .withdraw
      "withdraw-1").isSome := by
    decide +kernel
  have hreleased : (Call.releaseTicket (some TicketType.withdraw.text) (some "withdraw-1")
      (some 7)).Succeeds .plain (step selectedMine.db claimWithdraw) := by
    decide +kernel
  obtain ⟨ctx, hctx, hcolumns⟩ := Option.map_eq_some_iff.mp hresolved
  obtain ⟨hkind, huid⟩ := Prod.mk.injEq .. ▸ hcolumns
  have hstage := Stage.ctx?_eq_some.mp hctx
  obtain ⟨ticket, hticket⟩ := Option.isSome_iff_exists.mp hthere
  rw [← hkind, ← huid] at hticket
  have hbetween : ∀ command ∈ [claimWithdraw, releaseWithdraw], command.ClaimsOrReleases := by
    intro command hcommand
    simp only [List.mem_cons, List.not_mem_nil, or_false] at hcommand
    rcases hcommand with rfl | rfl <;> trivial
  have hselected : run (cogStep TicketCog.cancelMine ⟨true, some 3, 9⟩) ⟨.seeded, .invoked⟩
      (openedRun.map .other ++ [.proceed .plain]) = selectedMine := rfl
  have hwaited : run (cogStep TicketCog.cancelMine ⟨true, some 3, 9⟩) selectedMine
      ([claimWithdraw, releaseWithdraw].map .other) = waitedMine [claimWithdraw, releaseWithdraw] :=
    rfl
  have hiff := cancel_mine_open_iff seeded_empty ⟨true, some 3, 9⟩ openedRun _ hbetween .plain
    .plain hselected hwaited hstage hticket
  refine ⟨ctx, ticket, hstage, hticket, hiff.mpr (.inl ?_)⟩
  rw [hkind, huid]
  change ¬ ClaimStands .withdraw "withdraw-1" ([(selectedMine.db, claimWithdraw)] ++
    [(step selectedMine.db claimWithdraw, releaseWithdraw)])
  rw [claimStands_snoc]
  rintro (hclaim | ⟨-, hkept⟩)
  · exact hclaim rfl
  · apply hkept
    refine ⟨.plain, some 7, rfl, ?_⟩
    dsimp only
    exact hreleased

/-- A claim commits after the `SELECT`, and the claimed withdraw is cancelled. -/
theorem cancel_mine_cancels_claimed :
    ((waitedMine [claimWithdraw]).db.ticketOf .withdraw "withdraw-1").map (fun ticket =>
      (ticket.status, ticket.claimedBy)) = some (.claimed, some 7) ∧
    ((cancelledMine [claimWithdraw]).db.ticketOf .withdraw "withdraw-1").map Ticket.status =
      some .cancelled ∧
    (cancelledMine [claimWithdraw]).db.balanceOf 9 =
      (waitedMine [claimWithdraw]).db.balanceOf 9 + 1000 := by
  decide +kernel

end DeathRoll
