import DeathRoll.Cogs.Opening
import DeathRoll.Cogs.WithdrawFee
import DeathRoll.Cogs.Desk

/-! # Tickets and their threads

Each table has its threads unique, but a thread is looked up in both, and nothing in the
database says that the thread of a ticket exists. That every ticket has a thread of its own,
asked for by one invocation and torn down by none, is what the order of the requests buys.
The limiter keeps the invocations of a user apart.
-/

namespace DeathRoll

open Relational Tx SlidingWindow

/-! ## Where a ticket comes from -/

/-- The columns of a ticket that no update touches. -/
structure TicketOrigin where
  discordId : Int
  charName : String
  realm : String
  region : Region
  faction : Faction
  amount : Int
  threadId : Int
  parentChannelId : Int
deriving DecidableEq

def Ticket.origin (ticket : Ticket) : TicketOrigin :=
  ⟨ticket.discordId, ticket.charName, ticket.realm, ticket.region, ticket.faction, ticket.amount,
    ticket.threadId, ticket.parentChannelId⟩

/-- What an invocation asks of the database, for its user. -/
def Hosting.origin (host : Hosting) (userId : Int) : TicketOrigin :=
  ⟨userId, host.payload.charName, host.payload.realm, host.payload.region, host.payload.faction,
    host.payload.amount, host.threadId, host.parentId⟩

/-- From `s` to `s'` one ticket appeared. -/
structure Database.Adds (s : Database) (kind : TicketType) (uid : String) (ticket : Ticket)
    (s' : Database) : Prop where
  fresh : s.ticketOf kind uid = none
  added : s'.ticketOf kind uid = some ticket
  others : ∀ kind' uid', (kind', uid') ≠ (kind, uid) →
    s'.ticketOf kind' uid' = s.ticketOf kind' uid'

section Tickets

variable {env : Env} {s s' : Database} {kind : TicketType} {uid : String} {ticket : Ticket}

theorem Ticket.Move.origin {now : Timestamp} {call : Call} {ticket' : Ticket}
    (hmove : ticket.Move now kind uid call ticket') : ticket'.origin = ticket.origin := by
  cases hmove <;> rfl

theorem Ledger.Step.deposit_none {now : Timestamp} {l l' : Ledger} {call : Call}
    (hstep : Ledger.Step now l call l') (hcall : ¬ call.OpensTicket)
    (hnone : l.deposits.get? uid = none) : l'.deposits.get? uid = none := by
  have hset : ∀ {key : String} {new : Ticket}, (l.deposits.set key new).get? uid = none := by
    intro key new
    rw [Table.get?_set]
    split
    next heq => rw [← heq, hnone, Option.map_none]
    next => exact hnone
  cases hstep with
  | depositOpened => exact absurd trivial hcall
  | depositClaimed hold hstatus hl' => exact hl' ▸ hset
  | depositReleased hold hstatus hl' => exact hl' ▸ hset
  | depositConfirmed hold hstatus hcashier hl' => exact hl' ▸ hset
  | depositCancelled hold hstatus hl' => exact hl' ▸ hset
  | _ =>
      subst_vars
      exact hnone

theorem Ledger.Step.withdraw_none {now : Timestamp} {l l' : Ledger} {call : Call}
    (hstep : Ledger.Step now l call l') (hcall : ¬ call.OpensTicket)
    (hnone : l.withdraws.get? uid = none) : l'.withdraws.get? uid = none := by
  have hset : ∀ {key : String} {new : WithdrawTicket},
      (l.withdraws.set key new).get? uid = none := by
    intro key new
    rw [Table.get?_set]
    split
    next heq => rw [← heq, hnone, Option.map_none]
    next => exact hnone
  cases hstep with
  | withdrawOpened => exact absurd trivial hcall
  | withdrawClaimed hold hstatus hl' => exact hl' ▸ hset
  | withdrawReleased hold hstatus hl' => exact hl' ▸ hset
  | withdrawConfirmed hold hstatus hcashier hl' => exact hl' ▸ hset
  | withdrawCancelled hold hstatus hl' => exact hl' ▸ hset
  | _ =>
      subst_vars
      exact hnone

/-- Apart from the openings, a command brings no ticket and leaves the origin of each. -/
theorem step_origin (hs : s.WellFormed) {command : Command} (hother : ¬ command.OpensTicket)
    (kind : TicketType) (uid : String) :
    ((step s command).ticketOf kind uid).map Ticket.origin =
      (s.ticketOf kind uid).map Ticket.origin := by
  cases hticket : s.ticketOf kind uid with
  | some ticket =>
      obtain ⟨ticket', hticket', hmove⟩ := step_ticketOf hs command hticket
      rw [hticket', Option.map_some, Option.map_some]
      rcases hmove with ⟨env, call, -, -, hmove⟩ | ⟨-, rfl⟩
      · rw [hmove.origin]
      · rfl
  | none =>
      rw [Option.map_none, Option.map_eq_none_iff]
      rcases ledger_command hs command with ⟨env, call, rfl, hok, hstep⟩ | ⟨hidle, hsame⟩
      · cases kind with
        | deposit => exact hstep.deposit_none hother hticket
        | withdraw =>
            exact Option.map_eq_none_iff.mpr
              (hstep.withdraw_none hother (Option.map_eq_none_iff.mp hticket))
      · have hdeposits : (step s command).depositTickets = s.depositTickets := hsame.deposits
        have hwithdraws : (step s command).withdrawTickets = s.withdrawTickets := hsame.withdraws
        rw [← hticket]
        simp only [Database.ticketOf, hdeposits, hwithdraws]

/-! ### The new ticket -/

theorem updateBalance_keepsTickets {u : Int} {assign : BalanceRow → BalanceRow} :
    (updateBalance u assign).Keeps Database.ticketOf :=
  fun _ => (wp_updateBalance u assign).mpr
    ⟨fun _ => rfl, fun _ _ => ⟨fun _ _ => trivial, fun _ _ => rfl⟩⟩

theorem auditLogInsert_keepsTickets {p : AuditParams} :
    (auditLogInsertWithChain env p).Keeps Database.ticketOf := by
  intro s
  simp only [wp_auditLogInsertWithChain, implies_true, true_and]
  intros
  rfl

theorem adds_deposit (hnew : s.depositTickets.get? uid = none) :
    s.Adds .deposit uid ticket (s.addDeposit uid ticket) where
  fresh := hnew
  added := by
    rw [Database.ticketOf, Database.addDeposit_depositTickets, Table.get?_insertNew_self, hnew,
      Option.getD_none]
  others := by
    intro kind' uid' hother
    cases kind' with
    | withdraw => rfl
    | deposit =>
        have huid : uid' ≠ uid := fun heq => hother (by rw [heq])
        exact Table.get?_insertNew_of_ne _ huid _

theorem adds_withdraw {w : WithdrawTicket} (hnew : s.withdrawTickets.get? uid = none) :
    s.Adds .withdraw uid w.toTicket (s.addWithdraw uid w) where
  fresh := Option.map_eq_none_iff.mpr hnew
  added := by
    rw [Database.ticketOf, Database.addWithdraw_withdrawTickets, Table.get?_insertNew_self, hnew,
      Option.getD_none, Option.map_some]
  others := by
    intro kind' uid' hother
    cases kind' with
    | deposit => rfl
    | withdraw =>
        have huid : uid' ≠ uid := fun heq => hother (by rw [heq])
        exact congrArg (Option.map WithdrawTicket.toTicket) (Table.get?_insertNew_of_ne _ huid _)

theorem Database.Adds.congr {t t' : Database} (hadds : s.Adds kind uid ticket s')
    (hbefore : t.ticketOf = s.ticketOf) (hafter : t'.ticketOf = s'.ticketOf) :
    t.Adds kind uid ticket t' where
  fresh := hbefore ▸ hadds.fresh
  added := hafter ▸ hadds.added
  others := by
    intro kind' uid' hother
    rw [hbefore, hafter, hadds.others kind' uid' hother]

variable {origin : TicketOrigin}

theorem openTicket_origin {post : Ticket → Database → Prop} {table : String}
    {sequence : SequenceName} {vExpires : Timestamp}
    (hpost : ∀ ticket : Ticket, ticket.origin = origin → post ticket (s.advance sequence)) :
    wp (openTicket env table sequence (some origin.discordId) (some origin.charName)
      (some origin.realm) (some origin.region.text) (some origin.faction.text)
      (some origin.amount) (some origin.threadId) (some origin.parentChannelId) vExpires) post
      (fun _ => True) s := by
  unfold openTicket
  simp only [wp_bind, wp_nextval, wp_notNull, wp_checkedText, wp_dite, wp_pure, wp_throw,
    Option.some.injEq, forall_eq', reduceCtorEq, implies_true, true_and, and_true,
    Region.ofText_text, Faction.ofText_text]
  intro _
  exact hpost _ rfl

/-- The call that asks for a ticket. -/
def TicketOrigin.call (origin : TicketOrigin) : TicketType → Call
  | .deposit =>
      .createDepositTicket (some origin.discordId) (some origin.charName) (some origin.realm)
        (some origin.region.text) (some origin.faction.text) (some origin.amount)
        (some origin.threadId) (some origin.parentChannelId)
  | .withdraw =>
      .createWithdrawTicket (some origin.discordId) (some origin.charName) (some origin.realm)
        (some origin.region.text) (some origin.faction.text) (some origin.amount)
        (some origin.threadId) (some origin.parentChannelId)

theorem createDepositTicket_adds :
    wp (createDepositTicket env (some origin.discordId) (some origin.charName)
        (some origin.realm) (some origin.region.text) (some origin.faction.text)
        (some origin.amount) (some origin.threadId) (some origin.parentChannelId))
      (fun uid s' => ∃ ticket, ticket.origin = origin ∧ s.Adds .deposit uid ticket s')
      (fun _ => True) s := by
  unfold createDepositTicket
  simp only [wp_bind, wp_get, wp_require, wp_raiseIf, wp_nextval, wp_pure, implies_true, true_and]
  intro _ vMin _ vMax _ vTtlS _ _ _ _
  refine openTicket_origin fun ticket horigin => wp_insertDeposit fun hnew => ?_
  refine wp_of_keeps auditLogInsert_keepsTickets fun _ s₁ h₁ => ?_
  exact ⟨ticket, horigin, (adds_deposit hnew).congr rfl h₁⟩

theorem createWithdrawTicket_adds :
    wp (createWithdrawTicket env (some origin.discordId) (some origin.charName)
        (some origin.realm) (some origin.region.text) (some origin.faction.text)
        (some origin.amount) (some origin.threadId) (some origin.parentChannelId))
      (fun uid s' => ∃ ticket, ticket.origin = origin ∧ s.Adds .withdraw uid ticket s')
      (fun _ => True) s := by
  unfold createWithdrawTicket
  simp only [wp_bind, wp_get, wp_require, wp_raiseIf, wp_nextval, wp_notNull, wp_nullableBigint,
    wp_pure, implies_true, true_and]
  intro vMin _ vMax _ vFeeBps _ vTtlS _ _ _ _ vBanned _ _ _ _ owner _ amount _
  refine wp_of_keeps updateBalance_keepsTickets fun _ s₁ h₁ => ?_
  refine openTicket_origin fun ticket horigin fee _ => wp_insertWithdraw fun _ hnew => ?_
  refine wp_of_keeps auditLogInsert_keepsTickets fun _ s₂ h₂ => ?_
  exact ⟨ticket, horigin, (adds_withdraw hnew).congr (show s.ticketOf = _ from h₁.symm) h₂⟩

/-- How the database call of an opening ends: the ticket is there and its uid is said, or
nothing has happened and the user is told why, or an exception goes through. -/
inductive Database.Opened (s : Database) (kind : TicketType) (origin : TicketOrigin) :
    Except DbError (Except String String) × Database → Prop
  | added {uid : String} {ticket : Ticket} {s' : Database} (horigin : ticket.origin = origin)
      (hadds : s.Adds kind uid ticket s') : Opened s kind origin (.ok (.ok uid), s')
  | refused (text : String) (t : Database) : Opened s kind origin (.ok (.error text), s.rollback t)
  | failed (e : DbError) (t : Database) : Opened s kind origin (.error e, s.rollback t)

theorem tryWrapped_opened {ω : Type} {body : LedgerTx String} {success : String → ω}
    {except_ : BalanceError → ω} {answer : ω → Except String String}
    (hbody : wp body (fun uid s' => ∃ ticket, ticket.origin = origin ∧ s.Adds kind uid ticket s')
      (fun _ => True) s)
    (hsuccess : ∀ uid, answer (success uid) = .ok uid)
    (hexcept : ∀ error, ∃ text, answer (except_ error) = .error text) :
    s.Opened kind origin ((tryWrapped body success except_ s).map (Except.map answer) id) := by
  unfold tryWrapped wrapped transact
  rcases hrun : body.outcome s with ⟨⟨e⟩ | ⟨uid⟩, s'⟩
  · cases htranslated : translateRaise e with
    | balance error =>
        obtain ⟨text, htext⟩ := hexcept error
        simp only [Except.mapError, htranslated, Prod.map, Except.map, htext, id]
        exact .refused text s'
    | driver error =>
        simp only [Except.mapError, htranslated, Prod.map, Except.map, id]
        exact .failed error s'
  · obtain ⟨ticket, horigin, hadds⟩ := post_of_outcome hbody hrun
    simp only [Except.mapError, Prod.map, Except.map, id, hsuccess]
    exact .added horigin hadds

theorem openTicketOutcome_opened (env : Env) (kind : TicketType) (host : Hosting) (userId : Int)
    (s : Database) :
    s.Opened kind (host.origin userId)
      (openTicketOutcome env kind host.payload userId host.threadId host.parentId s) := by
  cases kind with
  | deposit =>
      refine tryWrapped_opened (@createDepositTicket_adds env s (host.origin userId))
        (fun _ => rfl) ?_
      rintro ⟨errorClass, message⟩
      cases errorClass <;> exact ⟨_, rfl⟩
  | withdraw =>
      refine tryWrapped_opened (@createWithdrawTicket_adds env s (host.origin userId))
        (fun _ => rfl) ?_
      rintro ⟨errorClass, message⟩
      cases errorClass <;> exact ⟨_, rfl⟩

/-- Whatever its end, it is the call that steps the database. -/
theorem openTicketOutcome_step (env : Env) (kind : TicketType) (host : Hosting) (userId : Int)
    (s : Database) :
    (openTicketOutcome env kind host.payload userId host.threadId host.parentId s).2 =
      step s (.call env ((host.origin userId).call kind)) := by
  cases kind with
  | deposit =>
      simp only [openTicketOutcome, Orchestration.openDepositTicket, Prod.map_snd, tryWrapped_snd]
      exact (transact_discard _).symm
  | withdraw =>
      simp only [openTicketOutcome, Orchestration.openWithdrawTicket, Prod.map_snd, tryWrapped_snd]
      exact (transact_discard _).symm

end Tickets

/-! ## Turns -/

/-- The uid that an invocation knows of. -/
def OpeningStage.ticketUid? : OpeningStage → Option String
  | .opened _ uid | .renamed _ uid | .announced _ uid _ => some uid
  | _ => none

/-- The ticket of this uid may be in the invocation's thread. After an exception it may
have been created without an answer. -/
def OpeningStage.Allows (uid : String) : OpeningStage → Prop
  | .opened _ ticketUid | .renamed _ ticketUid | .announced _ ticketUid _ => ticketUid = uid
  | .raised host => host.isSome
  | _ => False

/-- What one request of an invocation can do. -/
structure FrontDoor.Turn (w : FrontDoor) (opening opening' : Opening) (w' : FrontDoor) :
    Prop where
  kind : opening'.kind = opening.kind
  interaction : opening'.interaction = opening.interaction
  openings : w'.openings = w.openings
  host : opening'.stage.host? = opening.stage.host? ∨
    opening.stage.host? = none ∧ ∃ host, opening'.stage.host? = some host ∧
      host.threadId ∉ w.issued ∧ host.threadId ∈ w'.issued
  issued : ∀ id ∈ w.issued, id ∈ w'.issued
  appears : ∀ id, w'.threads id ≠ none → w.threads id ≠ none ∨ id ∉ w.issued ∧ id ∈ w'.issued
  goes : ∀ id, w.threads id ≠ none → w'.threads id = none →
    ∃ host text, opening.stage = .rejected host text ∧ host.threadId = id
  deleted : ∀ host text, opening'.stage = .tornDown host true text →
    opening.stage = .tornDown host true text ∨ w'.threads host.threadId = none
  wellFormed : w.db.WellFormed → w'.db.WellFormed
  tickets : (w'.db.ticketOf = w.db.ticketOf ∧
      (∀ uid, opening.stage.Allows uid → opening'.stage.Allows uid) ∧
      ∀ uid, opening'.stage.ticketUid? = some uid → opening.stage.ticketUid? = some uid) ∨
    ∃ host uid ticket, opening.stage = .joined host ∧ w.db.Adds opening.kind uid ticket w'.db ∧
      ticket.origin = host.origin opening.interaction.userId ∧ opening'.stage.Allows uid ∧
      ∀ uid', opening'.stage.ticketUid? = some uid' → uid' = uid

section Turn

variable {w w' : FrontDoor} {opening : Opening} {stage : OpeningStage} {passedAt : Option ℚ}

/-- A turn that leaves the guild and the tickets alone. -/
theorem FrontDoor.Turn.quiet (hopenings : w'.openings = w.openings)
    (hthreads : w'.threads = w.threads) (hissued : w'.issued = w.issued) (hdb : w'.db = w.db)
    (hhost : stage.host? = opening.stage.host?)
    (htorn : ∀ host text, stage = .tornDown host true text → opening.stage = stage)
    (hallows : ∀ uid, opening.stage.Allows uid → stage.Allows uid)
    (huid : ∀ uid, stage.ticketUid? = some uid → opening.stage.ticketUid? = some uid) :
    w.Turn opening { opening with passedAt, stage } w' where
  kind := rfl
  interaction := rfl
  openings := hopenings
  host := .inl hhost
  issued := by simp [hissued]
  appears := by
    intro id hlive
    exact .inl (hthreads ▸ hlive)
  goes := by
    intro id hlive hgone
    exact absurd (hthreads ▸ hgone) hlive
  deleted := by
    intro host text hstage
    exact .inl ((htorn host text hstage).trans hstage)
  wellFormed := by
    intro hs
    exact hdb ▸ hs
  tickets := .inl ⟨by rw [hdb], hallows, huid⟩

/-- A turn that edits the threads of the guild. -/
theorem FrontDoor.Turn.edited {threads : Int → Option TicketThread}
    (hlive : ∀ id, threads id ≠ none ↔ w.threads id ≠ none)
    (hhost : stage.host? = opening.stage.host?)
    (htorn : ∀ host text, stage ≠ .tornDown host true text)
    (hallows : ∀ uid, opening.stage.Allows uid → stage.Allows uid)
    (huid : ∀ uid, stage.ticketUid? = some uid → opening.stage.ticketUid? = some uid) :
    w.Turn opening { opening with passedAt, stage } { w with threads } where
  kind := rfl
  interaction := rfl
  openings := rfl
  host := .inl hhost
  issued := fun _ hid => hid
  appears := fun id hid => .inl ((hlive id).mp hid)
  goes := fun id hid hgone => absurd hgone ((hlive id).mpr hid)
  deleted := fun host text hstage => absurd hstage (htorn host text)
  wellFormed := id
  tickets := .inl ⟨rfl, hallows, huid⟩

theorem editThread_live (w : FrontDoor) (threadId : Int) (delivery : Delivery)
    (edit : TicketThread → TicketThread) :
    ∃ threads, (w.editThread threadId delivery edit).2 = { w with threads } ∧
      ∀ id, threads id ≠ none ↔ w.threads id ≠ none := by
  have hkept : ∃ threads, w = { w with threads } ∧ ∀ id, threads id ≠ none ↔ w.threads id ≠ none :=
    ⟨w.threads, rfl, fun _ => .rfl⟩
  unfold FrontDoor.editThread
  split
  · exact hkept
  · exact hkept
  · next thread _ hthread _ =>
      refine ⟨_, rfl, fun id => ?_⟩
      rcases eq_or_ne id threadId with rfl | hid
      · simp [hthread]
      · rw [Function.update_of_ne hid]

/-- What a request does to an opening that has its thread and keeps it. -/
theorem turn_edit {delivery : Delivery} {host : Hosting} {edit : TicketThread → TicketThread}
    (hhost : opening.stage.host? = some host) (hstage : stage.host? = some host)
    (htorn : ∀ host text, stage ≠ .tornDown host true text)
    (hallows : ∀ uid, opening.stage.Allows uid → stage.Allows uid)
    (huid : ∀ uid, stage.ticketUid? = some uid → opening.stage.ticketUid? = some uid) :
    w.Turn opening { opening with stage } (w.editThread host.threadId delivery edit).2 := by
  obtain ⟨threads, heq, hlive⟩ := editThread_live w host.threadId delivery edit
  rw [heq]
  exact .edited hlive (hstage.trans hhost.symm) htorn hallows huid

/-- A thread is created under an id that was not given out before. -/
theorem turn_create {payload : ModalPayload} {parentId threadId : Int} {thread : TicketThread}
    {delivery : Delivery} (hfresh : threadId ∉ w.issued)
    (hstage : opening.stage = .validated payload parentId) :
    w.Turn opening
      { opening with stage :=
          if (w.createThread threadId thread delivery).1 then
            .threaded ⟨payload, parentId, threadId⟩
          else .raised none }
      (w.createThread threadId thread delivery).2 := by
  unfold FrontDoor.createThread
  split
  next =>
    refine .quiet rfl rfl rfl rfl ?_ ?_ ?_ ?_
    all_goals simp [hstage, OpeningStage.host?, OpeningStage.Allows, OpeningStage.ticketUid?]
  next =>
    refine ⟨rfl, rfl, rfl, ?_, fun id hid => List.mem_cons_of_mem _ hid, ?_, ?_, ?_, id, ?_⟩
    · split
      · refine .inr ⟨by rw [hstage]; rfl, _, rfl, hfresh, List.mem_cons_self⟩
      · exact .inl (by rw [hstage]; rfl)
    · intro id hlive
      dsimp only at hlive ⊢
      rcases eq_or_ne id threadId with rfl | hid
      · exact .inr ⟨hfresh, List.mem_cons_self⟩
      · exact .inl (by rwa [Function.update_of_ne hid] at hlive)
    · intro id hlive hgone
      dsimp only at hgone
      rcases eq_or_ne id threadId with rfl | hid
      · simp at hgone
      · exact absurd (by rwa [Function.update_of_ne hid] at hgone) hlive
    · intro host text htorn
      split at htorn <;> cases htorn
    · refine .inl ⟨rfl, ?_, ?_⟩
      · simp [hstage, OpeningStage.Allows]
      · split <;> nofun

/-- A thread is deleted by the invocation that it was refused to. -/
theorem turn_delete {host : Hosting} {text : String} {delivery : Delivery}
    (hstage : opening.stage = .rejected host text) :
    w.Turn opening
      { opening with stage := .tornDown host (w.deleteThread host.threadId delivery).1 text }
      (w.deleteThread host.threadId delivery).2 := by
  have hsame : w.Turn opening { opening with stage := .tornDown host false text } w := by
    refine .quiet rfl rfl rfl rfl ?_ nofun ?_ nofun
    all_goals simp [hstage, OpeningStage.host?, OpeningStage.Allows]
  unfold FrontDoor.deleteThread
  split
  next => exact hsame
  next => exact hsame
  next =>
    refine ⟨rfl, rfl, rfl, .inl (by rw [hstage]; rfl), fun _ hid => hid, ?_, ?_, ?_, id, ?_⟩
    · intro id hlive
      dsimp only at hlive ⊢
      rcases eq_or_ne id host.threadId with rfl | hid
      · simp at hlive
      · exact .inl (by rwa [Function.update_of_ne hid] at hlive)
    · intro id hlive hgone
      dsimp only at hgone
      rcases eq_or_ne id host.threadId with rfl | hid
      · exact ⟨host, text, hstage, rfl⟩
      · exact absurd (by rwa [Function.update_of_ne hid] at hgone) hlive
    · intro other _ htorn
      obtain ⟨rfl, -⟩ := OpeningStage.tornDown.inj htorn
      exact .inr (Function.update_self ..)
    · exact .inl ⟨rfl, by simp [hstage, OpeningStage.Allows], nofun⟩

/-- The database is called by the invocation that has its thread and its user in it. -/
theorem turn_call {host : Hosting} {reply : Reply} (hstage : opening.stage = .joined host) :
    w.Turn opening
      { opening with stage :=
          match (w.callDatabase opening host reply).1 with
          | some (.ok ticketUid) => .opened host ticketUid
          | some (.error text) => .rejected host text
          | none => .raised (some host) }
      (w.callDatabase opening host reply).2 := by
  have hopened := openTicketOutcome_opened reply.env opening.kind host
    opening.interaction.userId w.db
  have hstep := openTicketOutcome_step reply.env opening.kind host opening.interaction.userId w.db
  unfold FrontDoor.callDatabase
  generalize openTicketOutcome reply.env opening.kind host.payload opening.interaction.userId
    host.threadId host.parentId w.db = ended at hopened hstep
  have hturn : ∀ {stage : OpeningStage}, stage.host? = some host →
      (∀ other text, stage ≠ .tornDown other true text) →
      (ended.2.ticketOf = w.db.ticketOf ∧ stage.ticketUid? = none ∨
        ∃ uid ticket, w.db.Adds opening.kind uid ticket ended.2 ∧
          ticket.origin = host.origin opening.interaction.userId ∧ stage.Allows uid ∧
          ∀ uid', stage.ticketUid? = some uid' → uid' = uid) →
      w.Turn opening { opening with stage } { w with db := ended.2 } := by
    intro stage hhost htorn htickets
    refine ⟨rfl, rfl, rfl, .inl (by rw [hhost, hstage]; rfl), fun _ hid => hid,
      fun _ hlive => .inl hlive, fun _ hlive hgone => absurd hgone hlive,
      fun other text htear => absurd htear (htorn other text), fun hs => ?_, ?_⟩
    · change ended.2.WellFormed
      exact hstep ▸ wellFormed_step hs _
    · rcases htickets with ⟨hsame, hnone⟩ | ⟨uid, ticket, hadds, horigin, hallows, huid⟩
      · exact .inl ⟨hsame, by simp [hstage, OpeningStage.Allows], by simp [hnone]⟩
      · exact .inr ⟨host, uid, ticket, hstage, hadds, horigin, hallows, huid⟩
  cases reply.delivery with
  | answered =>
      cases hopened with
      | @added uid ticket s' horigin hadds =>
          refine @hturn (.opened host uid) rfl nofun
            (.inr ⟨uid, ticket, hadds, horigin, rfl, fun uid' huid => ?_⟩)
          exact (Option.some.inj huid).symm
      | refused text t => exact @hturn (.rejected host text) rfl nofun (.inl ⟨rfl, rfl⟩)
      | failed e t => exact @hturn (.raised (some host)) rfl nofun (.inl ⟨rfl, rfl⟩)
  | undone =>
      refine .quiet rfl rfl rfl rfl (by simp [hstage, OpeningStage.host?]) nofun ?_ nofun
      simp [hstage, OpeningStage.Allows]
  | unanswered =>
      refine @hturn (.raised (some host)) rfl nofun ?_
      cases hopened with
      | added horigin hadds => exact .inr ⟨_, _, hadds, horigin, rfl, nofun⟩
      | refused text t => exact .inl ⟨rfl, rfl⟩
      | failed e t => exact .inl ⟨rfl, rfl⟩

theorem proceed_turn (w : FrontDoor) (opening : Opening) (reply : Reply) :
    w.Turn opening (w.proceed opening reply).1 (w.proceed opening reply).2 := by
  have hquiet : w.Turn opening opening w :=
    .quiet rfl rfl rfl rfl rfl (fun _ _ _ => rfl) (fun _ hallows => hallows) fun _ huid => huid
  unfold FrontDoor.proceed
  split
  next hstage =>
    repeat' split
    all_goals
      refine .quiet rfl rfl rfl rfl (by simp [hstage, OpeningStage.host?]) nofun ?_ nofun
      simp [hstage, OpeningStage.Allows]
  next hstage =>
    dsimp only
    split
    · refine .quiet rfl rfl rfl rfl (by simp [hstage, OpeningStage.host?]) nofun ?_ nofun
      simp [hstage, OpeningStage.Allows]
    · refine .quiet rfl rfl rfl rfl ?_ ?_ ?_ ?_
      all_goals split <;> simp [hstage, OpeningStage.host?, OpeningStage.Allows,
        OpeningStage.ticketUid?]
  next payload parentId hstage =>
    split
    next => exact hquiet
    next hfresh =>
      dsimp only
      split
      next =>
        refine .quiet rfl rfl rfl rfl (by simp [hstage, OpeningStage.host?]) nofun ?_ nofun
        simp [hstage, OpeningStage.Allows]
      next => exact turn_create hfresh hstage
  next host hstage =>
    dsimp only
    refine turn_edit (by rw [hstage]; rfl) ?_ ?_ ?_ ?_
    all_goals split <;> simp [hstage, OpeningStage.host?, OpeningStage.Allows,
      OpeningStage.ticketUid?]
  next host hstage => exact turn_call hstage
  next host uid hstage =>
    dsimp only
    refine turn_edit (by rw [hstage]; rfl) ?_ ?_ ?_ ?_
    all_goals split <;> simp [hstage, OpeningStage.host?, OpeningStage.Allows,
      OpeningStage.ticketUid?]
  next host uid hstage =>
    split
    all_goals refine .quiet rfl rfl rfl rfl ?_ ?_ ?_ ?_
    all_goals simp [hstage, OpeningStage.host?, OpeningStage.Allows, OpeningStage.ticketUid?]
  next host text hstage => exact turn_delete hstage
  next => exact hquiet

theorem submit_turn (w : FrontDoor) (opening : Opening) (input : Except String ModalPayload)
    (parent : Option Int) : w.Turn opening (FrontDoor.submit opening input parent) w := by
  unfold FrontDoor.submit
  split
  case h_4 =>
    exact .quiet rfl rfl rfl rfl rfl (fun _ _ _ => rfl) (fun _ hallows => hallows)
      fun _ huid => huid
  all_goals
    next hstage =>
      refine .quiet rfl rfl rfl rfl (by simp [hstage, OpeningStage.host?]) nofun ?_ nofun
      simp [hstage, OpeningStage.Allows]

end Turn

/-! ## The guild and the tables -/

/-- The invocation with this number has a thread. -/
def FrontDoor.Hosts (w : FrontDoor) (i : Nat) (opening : Opening) (host : Hosting) : Prop :=
  w.openings[i]? = some opening ∧ opening.stage.host? = some host

structure FrontDoor.Sound (w : FrontDoor) : Prop where
  wellFormed : w.db.WellFormed
  live : ∀ id, w.threads id ≠ none → id ∈ w.issued
  issued : ∀ i opening host, w.Hosts i opening host → host.threadId ∈ w.issued
  apart : ∀ i j opening opening' host host', w.Hosts i opening host → w.Hosts j opening' host' →
    host.threadId = host'.threadId → i = j
  asked : ∀ kind uid ticket, w.db.ticketOf kind uid = some ticket → ∃ i opening host,
    w.Hosts i opening host ∧ opening.kind = kind ∧ opening.stage.Allows uid ∧
      ticket.origin = host.origin opening.interaction.userId
  one : ∀ kind uid ticket kind' uid' ticket', w.db.ticketOf kind uid = some ticket →
    w.db.ticketOf kind' uid' = some ticket' → ticket.threadId = ticket'.threadId →
      kind = kind' ∧ uid = uid'
  known : ∀ (i : Nat) (opening : Opening) uid, w.openings[i]? = some opening →
    opening.stage.ticketUid? = some uid → ∃ (host : Hosting) (ticket : Ticket),
      opening.stage.host? = some host ∧ w.db.ticketOf opening.kind uid = some ticket ∧
        ticket.threadId = host.threadId
  gone : ∀ (i : Nat) (opening : Opening) (host : Hosting) text, w.openings[i]? = some opening →
    opening.stage = .tornDown host true text → w.threads host.threadId = none

theorem threadId_of_origin {ticket : Ticket} {host : Hosting} {userId : Int}
    (horigin : ticket.origin = host.origin userId) : ticket.threadId = host.threadId :=
  congrArg TicketOrigin.threadId horigin

theorem getElem?_set_cases {α : Type} {xs : List α} {i j : Nat} {x y : α}
    (hget : (xs.set i x)[j]? = some y) : j = i ∧ y = x ∨ j ≠ i ∧ xs[j]? = some y := by
  rw [List.getElem?_set] at hget
  split at hget
  next heq =>
    split at hget <;> cases hget
    exact .inl ⟨heq.symm, rfl⟩
  next hne => exact .inr ⟨Ne.symm hne, hget⟩

/-- The invocation with this number gets on, and the clock with it. -/
def FrontDoor.record (w : FrontDoor) (i : Nat) (opening : Opening) (clock : ℚ) : FrontDoor :=
  { w with clock, openings := w.openings.set i opening }

namespace FrontDoor.Turn

variable {w w' : FrontDoor} {i j : Nat} {opening opening' other : Opening} {host : Hosting}
  {clock : ℚ}

theorem host_cases (hturn : w.Turn opening opening' w') (hhost : opening'.stage.host? = some host) :
    opening.stage.host? = some host ∨ opening.stage.host? = none ∧ host.threadId ∉ w.issued ∧
      host.threadId ∈ w'.issued := by
  rcases hturn.host with hsame | ⟨hnone, new, hnew, hfresh⟩
  · exact .inl (hsame ▸ hhost)
  · obtain rfl := Option.some.inj (hhost.symm.trans hnew)
    exact .inr ⟨hnone, hfresh⟩

theorem host_kept (hturn : w.Turn opening opening' w') (hhost : opening.stage.host? = some host) :
    opening'.stage.host? = some host := by
  rcases hturn.host with hsame | ⟨hnone, -⟩
  · exact hsame.trans hhost
  · rw [hnone] at hhost
    cases hhost

/-- What is recorded afterwards: the invocation itself, or another as it was. -/
theorem recorded (hturn : w.Turn opening opening' w')
    (hget : (w'.record i opening' clock).openings[j]? = some other) :
    j = i ∧ other = opening' ∨ j ≠ i ∧ w.openings[j]? = some other := by
  rw [FrontDoor.record, hturn.openings] at hget
  exact getElem?_set_cases hget

theorem record_self (hturn : w.Turn opening opening' w')
    (hopening : w.openings[i]? = some opening) :
    (w'.record i opening' clock).openings[i]? = some opening' := by
  rw [FrontDoor.record, hturn.openings,
    List.getElem?_set_self (List.getElem?_eq_some_iff.mp hopening).1]

theorem record_other (hturn : w.Turn opening opening' w') (hne : j ≠ i)
    (hother : w.openings[j]? = some other) :
    (w'.record i opening' clock).openings[j]? = some other := by
  rw [FrontDoor.record, hturn.openings, List.getElem?_set_ne hne.symm, hother]

/-- A thread that was deleted, or never there, does not come up under an id that has been
given out. -/
theorem stays_gone (hturn : w.Turn opening opening' w') {id : Int} (hid : id ∈ w.issued)
    (hnone : w.threads id = none) : w'.threads id = none := by
  by_contra hlive
  rcases hturn.appears id hlive with hwas | ⟨hnew, -⟩
  · exact hwas hnone
  · exact hnew hid

end FrontDoor.Turn

namespace FrontDoor.Sound

variable {w w' : FrontDoor} {i : Nat} {opening opening' : Opening} {clock : ℚ}

/-- No ticket is in the thread of an invocation that has yet to call the database. -/
theorem none_before (hw : w.Sound) {host : Hosting} (hopening : w.openings[i]? = some opening)
    (hstage : opening.stage = .joined host) {kind : TicketType} {uid : String} {ticket : Ticket}
    (hticket : w.db.ticketOf kind uid = some ticket) : ticket.threadId ≠ host.threadId := by
  intro hthread
  obtain ⟨j, other, host', hhosts, -, hallows, horigin⟩ := hw.asked kind uid ticket hticket
  have hmine : w.Hosts i opening host := ⟨hopening, by rw [hstage]; rfl⟩
  have hsame : i = j :=
    hw.apart i j opening other host host' hmine hhosts (hthread ▸ threadId_of_origin horigin)
  subst hsame
  obtain rfl := Option.some.inj (hopening.symm.trans hhosts.1)
  rw [hstage] at hallows
  exact hallows

/-- One turn of one invocation keeps the guild and the tables together. -/
theorem turn (hw : w.Sound) (hopening : w.openings[i]? = some opening)
    (hturn : w.Turn opening opening' w') : (w'.record i opening' clock).Sound where
  wellFormed := hturn.wellFormed hw.wellFormed
  live := by
    intro id hlive
    rcases hturn.appears id hlive with hwas | ⟨-, hnew⟩
    · exact hturn.issued id (hw.live id hwas)
    · exact hnew
  issued := by
    rintro j other host ⟨hget, hhost⟩
    rcases hturn.recorded hget with ⟨rfl, rfl⟩ | ⟨-, hother⟩
    · rcases hturn.host_cases hhost with hwas | ⟨-, -, hnew⟩
      · exact hturn.issued _ (hw.issued j opening host ⟨hopening, hwas⟩)
      · exact hnew
    · exact hturn.issued _ (hw.issued j other host ⟨hother, hhost⟩)
  apart := by
    -- a new thread is not that of another, whose id was given out before
    have hcross : ∀ j other host host', j ≠ i → w.Hosts j other host →
        opening'.stage.host? = some host' → host.threadId ≠ host'.threadId := by
      intro j other host host' hne hhosts hhost' hsame
      rcases hturn.host_cases hhost' with hwas | ⟨-, hfresh, -⟩
      · exact hne (hw.apart j i other opening host host' hhosts ⟨hopening, hwas⟩ hsame)
      · exact hfresh (hsame ▸ hw.issued j other host hhosts)
    rintro j k other other' host host' ⟨hget, hhost⟩ ⟨hget', hhost'⟩ hsame
    rcases hturn.recorded hget with ⟨rfl, rfl⟩ | ⟨hne, hother⟩ <;>
      rcases hturn.recorded hget' with ⟨rfl, rfl⟩ | ⟨hne', hother'⟩
    · rfl
    · exact absurd hsame.symm (hcross k other' host' host hne' ⟨hother', hhost'⟩ hhost)
    · exact absurd hsame (hcross j other host host' hne ⟨hother, hhost⟩ hhost')
    · exact hw.apart j k other other' host host' ⟨hother, hhost⟩ ⟨hother', hhost'⟩ hsame
  asked := by
    intro kind uid ticket hticket
    -- a ticket that was there keeps its invocation
    have hold : w.db.ticketOf kind uid = some ticket →
        (∀ uid, opening.stage.Allows uid → opening'.stage.Allows uid) →
        ∃ j other host, (w'.record i opening' clock).Hosts j other host ∧ other.kind = kind ∧
          other.stage.Allows uid ∧ ticket.origin = host.origin other.interaction.userId := by
      intro hwas hmono
      obtain ⟨j, other, host, ⟨hother, hhost⟩, hkind, hallows, horigin⟩ :=
        hw.asked kind uid ticket hwas
      rcases eq_or_ne j i with rfl | hne
      · obtain rfl := Option.some.inj (hopening.symm.trans hother)
        exact ⟨j, opening', host, ⟨hturn.record_self hopening, hturn.host_kept hhost⟩,
          hturn.kind.trans hkind, hmono uid hallows, hturn.interaction ▸ horigin⟩
      · exact ⟨j, other, host, ⟨hturn.record_other hne hother, hhost⟩, hkind, hallows, horigin⟩
    rcases hturn.tickets with ⟨hsame, hmono, -⟩ |
      ⟨host, new, added, hstage, hadds, horigin, hallows, -⟩
    · exact hold (hsame ▸ hticket) hmono
    · by_cases hnew : (kind, uid) = (opening.kind, new)
      · obtain ⟨rfl, rfl⟩ := Prod.mk.inj hnew
        obtain rfl := Option.some.inj (hticket.symm.trans hadds.added)
        have hhost : opening'.stage.host? = some host := hturn.host_kept (by rw [hstage]; rfl)
        exact ⟨i, opening', host, ⟨hturn.record_self hopening, hhost⟩, hturn.kind, hallows,
          hturn.interaction ▸ horigin⟩
      · refine hold ((hadds.others kind uid hnew).symm.trans hticket) fun uid hmine => ?_
        rw [hstage] at hmine
        exact hmine.elim
  one := by
    intro kind uid ticket kind' uid' ticket' hticket hticket' hthread
    rcases hturn.tickets with ⟨hsame, -⟩ | ⟨host, new, added, hstage, hadds, horigin, -⟩
    · exact hw.one kind uid ticket kind' uid' ticket' (hsame ▸ hticket) (hsame ▸ hticket') hthread
    · have hadded := threadId_of_origin horigin
      by_cases hnew : (kind, uid) = (opening.kind, new) <;>
        by_cases hnew' : (kind', uid') = (opening.kind, new)
      · exact Prod.mk.inj (hnew.trans hnew'.symm)
      · obtain ⟨rfl, rfl⟩ := Prod.mk.inj hnew
        obtain rfl := Option.some.inj (hticket.symm.trans hadds.added)
        have hold := (hadds.others kind' uid' hnew').symm.trans hticket'
        exact absurd (hthread.symm.trans hadded) (hw.none_before hopening hstage hold)
      · obtain ⟨rfl, rfl⟩ := Prod.mk.inj hnew'
        obtain rfl := Option.some.inj (hticket'.symm.trans hadds.added)
        have hold := (hadds.others kind uid hnew).symm.trans hticket
        exact absurd (hthread.trans hadded) (hw.none_before hopening hstage hold)
      · exact hw.one kind uid ticket kind' uid' ticket'
          ((hadds.others kind uid hnew).symm.trans hticket)
          ((hadds.others kind' uid' hnew').symm.trans hticket') hthread
  known := by
    intro j other uid hget huid
    -- a ticket that an invocation knows of is still there
    have hold : ∀ other, w.openings[j]? = some other → other.stage.ticketUid? = some uid →
        ∃ host ticket, other.stage.host? = some host ∧
          w'.db.ticketOf other.kind uid = some ticket ∧ ticket.threadId = host.threadId := by
      intro other hother huid
      obtain ⟨host, ticket, hhost, hticket, hthread⟩ := hw.known j other uid hother huid
      refine ⟨host, ticket, hhost, ?_, hthread⟩
      rcases hturn.tickets with ⟨hsame, -⟩ | ⟨host', new, added, -, hadds, -⟩
      · rw [hsame, hticket]
      · rw [hadds.others _ _ fun heq => ?_, hticket]
        obtain ⟨hkind, rfl⟩ := Prod.mk.inj heq
        rw [hkind, hadds.fresh] at hticket
        cases hticket
    rcases hturn.recorded hget with ⟨rfl, rfl⟩ | ⟨-, hother⟩
    · rcases hturn.tickets with ⟨-, -, hknew⟩ | ⟨host, new, added, hstage, hadds, horigin, -, hknew⟩
      · obtain ⟨host, ticket, hhost, hticket, hthread⟩ := hold opening hopening (hknew uid huid)
        exact ⟨host, ticket, hturn.host_kept hhost, hturn.kind ▸ hticket, hthread⟩
      · obtain rfl := hknew uid huid
        refine ⟨host, added, hturn.host_kept (by rw [hstage]; rfl), ?_,
          threadId_of_origin horigin⟩
        rw [hturn.kind]
        exact hadds.added
    · exact hold other hother huid
  gone := by
    intro j other host text hget htorn
    rcases hturn.recorded hget with ⟨rfl, rfl⟩ | ⟨-, hother⟩
    · rcases hturn.deleted host text htorn with hwas | hnone
      · refine hturn.stays_gone (hw.issued j opening host ⟨hopening, by rw [hwas]; rfl⟩) ?_
        exact hw.gone j opening host text hopening hwas
      · exact hnone
    · refine hturn.stays_gone (hw.issued j other host ⟨hother, by rw [htorn]; rfl⟩) ?_
      exact hw.gone j other host text hother htorn

/-- A new invocation has no thread yet. -/
theorem invoke (hw : w.Sound) (kind : TicketType) (interaction : Interaction) :
    (w.step (.invoke kind interaction)).Sound := by
  have hcases : ∀ (j : Nat) (other : Opening),
      (w.openings ++ [⟨kind, interaction, none, .invoked⟩])[j]? = some other →
      w.openings[j]? = some other ∨ other.stage = .invoked := by
    intro j other hget
    rw [List.getElem?_append] at hget
    split at hget
    · exact .inl hget
    · rw [List.getElem?_singleton] at hget
      split at hget <;> cases hget
      exact .inr rfl
  have hhosts : ∀ {j other host}, (w.step (.invoke kind interaction)).Hosts j other host →
      w.Hosts j other host := by
    rintro j other host ⟨hget, hhost⟩
    rcases hcases j other hget with hother | hstage
    · exact ⟨hother, hhost⟩
    · rw [hstage] at hhost
      cases hhost
  refine ⟨hw.wellFormed, hw.live, fun j other host h => hw.issued j other host (hhosts h),
    fun j k other other' host host' h h' => hw.apart j k other other' host host' (hhosts h)
      (hhosts h'), ?_, hw.one, ?_, ?_⟩
  · intro kind' uid ticket hticket
    obtain ⟨j, other, host, ⟨hother, hhost⟩, hasked⟩ := hw.asked kind' uid ticket hticket
    refine ⟨j, other, host, ⟨?_, hhost⟩, hasked⟩
    exact (List.getElem?_append_left (List.getElem?_eq_some_iff.mp hother).1).trans hother
  · intro j other uid hget huid
    rcases hcases j other hget with hother | hstage
    · exact hw.known j other uid hother huid
    · rw [hstage] at huid
      cases huid
  · intro j other host text hget htorn
    rcases hcases j other hget with hother | hstage
    · exact hw.gone j other host text hother htorn
    · rw [hstage] at htorn
      cases htorn

/-- What a moderator does to a thread leaves the tables. -/
theorem moderate (hw : w.Sound) (threadId : Int) (name : Option String) :
    (w.step (.moderate threadId name)).Sound := by
  simp only [FrontDoor.step]
  split
  next => exact hw
  next thread hthread =>
    have hlive : ∀ id, Function.update w.threads threadId (name.map fun name =>
        { thread with name }) id ≠ none → w.threads id ≠ none := by
      intro id hlive
      rcases eq_or_ne id threadId with rfl | hid
      · simp [hthread]
      · rwa [Function.update_of_ne hid] at hlive
    refine ⟨hw.wellFormed, fun id hid => hw.live id (hlive id hid), hw.issued, hw.apart, hw.asked,
      hw.one, hw.known, fun j other host text hget htorn => ?_⟩
    by_contra hnot
    exact hlive _ hnot (hw.gone j other host text hget htorn)

/-- What else the database does leaves every ticket where it came from. -/
theorem other (hw : w.Sound) (command : Command) (hother : ¬ command.OpensTicket) :
    (w.step (.other command hother)).Sound := by
  have horigin := step_origin hw.wellFormed hother
  have hback : ∀ {kind uid ticket}, (DeathRoll.step w.db command).ticketOf kind uid = some ticket →
      ∃ old, w.db.ticketOf kind uid = some old ∧ old.origin = ticket.origin := by
    intro kind uid ticket hticket
    have hmapped := horigin kind uid
    rw [hticket, Option.map_some] at hmapped
    exact Option.map_eq_some_iff.mp hmapped.symm
  refine ⟨wellFormed_step hw.wellFormed command, hw.live, hw.issued, hw.apart, ?_, ?_, ?_, hw.gone⟩
  · intro kind uid ticket hticket
    obtain ⟨old, hold, hsame⟩ := hback hticket
    rw [← hsame]
    exact hw.asked kind uid old hold
  · intro kind uid ticket kind' uid' ticket' hticket hticket' hthread
    obtain ⟨old, hold, hsame⟩ := hback hticket
    obtain ⟨old', hold', hsame'⟩ := hback hticket'
    refine hw.one kind uid old kind' uid' old' hold hold' ?_
    exact (congrArg TicketOrigin.threadId hsame).trans
      (hthread.trans (congrArg TicketOrigin.threadId hsame').symm)
  · intro j opening uid hget huid
    obtain ⟨host, old, hhost, hold, hthread⟩ := hw.known j opening uid hget huid
    have hmapped := horigin opening.kind uid
    rw [hold, Option.map_some] at hmapped
    obtain ⟨ticket, hticket, hsame⟩ := Option.map_eq_some_iff.mp hmapped
    exact ⟨host, ticket, hhost, hticket, (congrArg TicketOrigin.threadId hsame).trans hthread⟩

theorem submit (hw : w.Sound) (input : Except String ModalPayload) (parent : Option Int) :
    (w.step (.submit i input parent)).Sound := by
  simp only [FrontDoor.step]
  split
  next => exact hw
  next opening hopening => exact hw.turn hopening (submit_turn w opening input parent)

/-- Every step keeps the guild and the tables together. -/
theorem step (hw : w.Sound) (event : FrontDoorEvent) : (w.step event).Sound := by
  cases event with
  | invoke kind interaction => exact hw.invoke kind interaction
  | submit i input parent => exact hw.submit input parent
  | moderate threadId name => exact hw.moderate threadId name
  | other command hother => exact hw.other command hother
  | proceed i reply =>
      simp only [FrontDoor.step]
      split
      next => exact hw
      next opening hopening =>
        split
        next => exact hw
        next => exact hw.turn hopening (proceed_turn w opening reply)

end FrontDoor.Sound

/-! ## The limiter -/

/-- Two invocations of one kind by one user got past the limiter a minute apart. -/
def FrontDoor.Spaced (w : FrontDoor) : Prop :=
  ∀ (i j : Nat) (opening opening' : Opening) (t t' : ℚ), i ≠ j →
    w.openings[i]? = some opening → w.openings[j]? = some opening' →
    opening.kind = opening'.kind → opening.interaction.userId = opening'.interaction.userId →
    opening.passedAt = some t → opening'.passedAt = some t' → 60 ≤ |t - t'|

/-- The limiters have kept who got past them. -/
structure FrontDoor.Paced (w : FrontDoor) : Prop where
  limits : ∀ kind, (w.limiters kind).capacity = 1 ∧ (w.limiters kind).window = 60
  tracked : ∀ kind, ∃ past, Tracks (w.limiters kind) past w.clock ∧
    ∀ (i : Nat) (opening : Opening) t, w.openings[i]? = some opening → opening.kind = kind →
      opening.passedAt = some t → t ∈ grantTimes opening.interaction.userId past
  spaced : w.Spaced

/-- What one request of an invocation does at the limiter: nothing, or it asks it. -/
inductive FrontDoor.Asks (w : FrontDoor) (opening opening' : Opening) (monotonic : ℚ)
    (limiters : TicketType → FixedWindowLimiter Int) : Prop
  | not (hlimiters : limiters = w.limiters) (hpassedAt : opening'.passedAt = opening.passedAt)
  | acquire {call : AcquireCall Int} (hcall : call = ⟨opening.interaction.userId, none, monotonic⟩)
      (hlimiters : limiters = Function.update w.limiters opening.kind
        ((w.limiters opening.kind).acquire call).2)
      (hpassedAt : opening'.passedAt =
        if ((w.limiters opening.kind).acquire call).1 then some monotonic else opening.passedAt)

section Limiter

variable {w w' : FrontDoor} {opening opening' : Opening} {i : Nat} {monotonic : ℚ}

theorem createThread_limiters (w : FrontDoor) (threadId : Int) (thread : TicketThread)
    (delivery : Delivery) : (w.createThread threadId thread delivery).2.limiters = w.limiters := by
  unfold FrontDoor.createThread
  split
  · rfl
  · rfl

theorem editThread_limiters (w : FrontDoor) (threadId : Int) (delivery : Delivery)
    (edit : TicketThread → TicketThread) :
    (w.editThread threadId delivery edit).2.limiters = w.limiters := by
  obtain ⟨threads, heq, -⟩ := editThread_live w threadId delivery edit
  rw [heq]

theorem deleteThread_limiters (w : FrontDoor) (threadId : Int) (delivery : Delivery) :
    (w.deleteThread threadId delivery).2.limiters = w.limiters := by
  unfold FrontDoor.deleteThread
  split
  · rfl
  · rfl
  · rfl

theorem callDatabase_limiters (w : FrontDoor) (opening : Opening) (host : Hosting)
    (reply : Reply) : (w.callDatabase opening host reply).2.limiters = w.limiters := by
  unfold FrontDoor.callDatabase
  dsimp only
  split
  · rfl
  · rfl
  · rfl

theorem proceed_asks (w : FrontDoor) (opening : Opening) (reply : Reply) :
    w.Asks opening (w.proceed opening reply).1 reply.monotonic
      (w.proceed opening reply).2.limiters := by
  unfold FrontDoor.proceed
  split
  next hstage =>
    repeat' split
    all_goals exact .not rfl rfl
  next hstage =>
    refine .acquire rfl ?_ ?_
    · dsimp only
      split <;> rfl
    · dsimp only
      split
      next => rfl
      next hgranted => exact (if_pos (not_not.mp hgranted)).symm
  next payload parentId hstage =>
    split
    next => exact .not rfl rfl
    next =>
      dsimp only
      split
      next => exact .not rfl rfl
      next => exact .not (createThread_limiters ..) rfl
  next host hstage => exact .not (editThread_limiters ..) rfl
  next host hstage => exact .not (callDatabase_limiters ..) rfl
  next host uid hstage => exact .not (editThread_limiters ..) rfl
  next host uid hstage =>
    split
    · exact .not rfl rfl
    · exact .not rfl rfl
  next host text hstage => exact .not (deleteThread_limiters ..) rfl
  next => exact .not rfl rfl

theorem submit_passedAt (opening : Opening) (input : Except String ModalPayload)
    (parent : Option Int) :
    (FrontDoor.submit opening input parent).passedAt = opening.passedAt := by
  unfold FrontDoor.submit
  split <;> rfl

/-- Nobody has asked the limiters, and time went by. -/
theorem FrontDoor.Paced.later (hw : w.Paced) (hlimiters : w'.limiters = w.limiters)
    (hclock : w.clock ≤ w'.clock)
    (hopenings : ∀ (j : Nat) (other : Opening) t, w'.openings[j]? = some other →
      other.passedAt = some t → ∃ old, w.openings[j]? = some old ∧ old.kind = other.kind ∧
        old.interaction = other.interaction ∧ old.passedAt = some t) : w'.Paced where
  limits := by
    rw [hlimiters]
    exact hw.limits
  tracked := by
    intro kind
    obtain ⟨past, htracks, hpast⟩ := hw.tracked kind
    refine ⟨past, hlimiters ▸ htracks.later hclock, fun j other t hother hkind hpassed => ?_⟩
    obtain ⟨old, hold, hsame, hinteraction, hpassed⟩ := hopenings j other t hother hpassed
    rw [← hinteraction]
    exact hpast j old t hold (hsame.trans hkind) hpassed
  spaced := by
    intro j k other other' t t' hne hother hother' hkind huser hpassed hpassed'
    obtain ⟨old, hold, hsame, hinteraction, hpassed⟩ := hopenings j other t hother hpassed
    obtain ⟨old', hold', hsame', hinteraction', hpassed'⟩ := hopenings k other' t' hother' hpassed'
    exact hw.spaced j k old old' t t' hne hold hold' (hsame.trans (hkind.trans hsame'.symm))
      (by rw [hinteraction, hinteraction', huser]) hpassed hpassed'

/-- Who has got past after a turn: the invocation itself just now, or one that had already. -/
theorem FrontDoor.Turn.passed_cases (hturn : w.Turn opening opening' w')
    (hopening : w.openings[i]? = some opening) {granted : Bool}
    (hpassedAt : opening'.passedAt = if granted then some monotonic else opening.passedAt)
    {j : Nat} {other : Opening} {t : ℚ}
    (hget : (w'.record i opening' monotonic).openings[j]? = some other)
    (hpassed : other.passedAt = some t) :
    (granted = true ∧ j = i ∧ t = monotonic ∧ other.kind = opening.kind ∧
        other.interaction = opening.interaction) ∨
      ∃ old, w.openings[j]? = some old ∧ old.kind = other.kind ∧
        old.interaction = other.interaction ∧ old.passedAt = some t := by
  rcases hturn.recorded hget with ⟨rfl, rfl⟩ | ⟨-, hother⟩
  · rw [hpassedAt] at hpassed
    split_ifs at hpassed with hgranted
    · exact .inl ⟨hgranted, rfl, (Option.some.inj hpassed).symm, hturn.kind, hturn.interaction⟩
    · exact .inr ⟨opening, hopening, hturn.kind.symm, hturn.interaction.symm, hpassed⟩
  · exact .inr ⟨other, hother, rfl, rfl, hpassed⟩

/-- What got past before a grant did so a minute before. -/
theorem FrontDoor.Paced.minute (hw : w.Paced) {kind : TicketType} {call : AcquireCall Int}
    (hle : w.clock ≤ call.request.time) (hgranted : ((w.limiters kind).acquire call).1 = true)
    {j : Nat} {old : Opening} {t : ℚ} (hold : w.openings[j]? = some old) (hkind : old.kind = kind)
    (hkey : call.key = old.interaction.userId) (hpassed : old.passedAt = some t) :
    60 ≤ |call.request.time - t| := by
  obtain ⟨past, htracks, hpast⟩ := hw.tracked kind
  obtain ⟨hcapacity, hwindow⟩ := hw.limits kind
  have hgrant := hpast j old t hold hkind hpassed
  rw [← hkey] at hgrant
  have hspace := htracks.window_le_of_granted hle hcapacity hgranted hgrant
  rw [hwindow] at hspace
  exact (by linarith : 60 ≤ call.request.time - t).trans (le_abs_self _)

/-- A turn at the limiter keeps the pace. -/
theorem FrontDoor.Paced.acquire (hw : w.Paced) (hopening : w.openings[i]? = some opening)
    (hturn : w.Turn opening opening' w') {call : AcquireCall Int}
    (hkey : call.key = opening.interaction.userId) (htime : call.request.time = monotonic)
    (hle : w.clock ≤ call.request.time)
    (hlimiters : w'.limiters = Function.update w.limiters opening.kind
      ((w.limiters opening.kind).acquire call).2)
    (hpassedAt : opening'.passedAt =
      if ((w.limiters opening.kind).acquire call).1 then some monotonic else opening.passedAt) :
    (w'.record i opening' monotonic).Paced where
  limits := by
    intro kind
    change (w'.limiters kind).capacity = 1 ∧ (w'.limiters kind).window = 60
    rw [hlimiters]
    rcases eq_or_ne kind opening.kind with rfl | hkind
    · obtain ⟨hwindow, hcapacity⟩ := Tracks.acquire_limits (w.limiters opening.kind) call
      rw [Function.update_self, hwindow, hcapacity]
      exact hw.limits opening.kind
    · rw [Function.update_of_ne hkind]
      exact hw.limits kind
  tracked := by
    intro kind
    change ∃ past, Tracks (w'.limiters kind) past monotonic ∧ _
    obtain ⟨past, htracks, hpast⟩ := hw.tracked kind
    rw [hlimiters]
    rcases eq_or_ne kind opening.kind with rfl | hkind
    · rw [Function.update_self]
      refine ⟨_, htime ▸ htracks.acquire hle, fun j other t hget hsame hpassed => ?_⟩
      rw [grantTimes_append, List.mem_append]
      rcases hturn.passed_cases hopening hpassedAt hget hpassed with
        ⟨hgranted, -, rfl, -, hinteraction⟩ | ⟨old, hold, hkind, hinteraction, hpassed⟩
      · right
        rw [hinteraction, grantTimes_singleton, if_pos ⟨hgranted, hkey⟩]
        exact List.mem_singleton.mpr htime.symm
      · left
        rw [← hinteraction]
        exact hpast j old t hold (hkind.trans hsame) hpassed
    · rw [Function.update_of_ne hkind]
      refine ⟨past, htracks.later (htime ▸ hle), fun j other t hget hsame hpassed => ?_⟩
      rcases hturn.passed_cases hopening hpassedAt hget hpassed with
        ⟨-, -, -, hmine, -⟩ | ⟨old, hold, holdKind, hinteraction, hpassed⟩
      · exact absurd (hsame.symm.trans hmine) hkind
      · rw [← hinteraction]
        exact hpast j old t hold (holdKind.trans hsame) hpassed
  spaced := by
    intro j k other other' t t' hne hget hget' hkind huser hpassed hpassed'
    rcases hturn.passed_cases hopening hpassedAt hget hpassed with
        ⟨hgranted, rfl, rfl, hmine, hinteraction⟩ | ⟨old, hold, hsame, hinteraction, hpassed⟩ <;>
      rcases hturn.passed_cases hopening hpassedAt hget' hpassed' with
        ⟨hgranted', rfl, rfl, hmine', hinteraction'⟩ |
        ⟨old', hold', hsame', hinteraction', hpassed'⟩
    · exact absurd rfl hne
    · rw [← htime]
      refine hw.minute hle hgranted hold' ?_ ?_ hpassed'
      · rw [hsame', ← hkind, hmine]
      · rw [hkey, hinteraction', ← huser, hinteraction]
    · rw [abs_sub_comm, ← htime]
      refine hw.minute hle hgranted' hold ?_ ?_ hpassed
      · rw [hsame, hkind, hmine']
      · rw [hkey, hinteraction, huser, hinteraction']
    · exact hw.spaced j k old old' t t' hne hold hold' (hsame.trans (hkind.trans hsame'.symm))
        (by rw [hinteraction, hinteraction', huser]) hpassed hpassed'

/-- A turn of an invocation keeps the pace. -/
theorem FrontDoor.Paced.turn (hw : w.Paced) (hopening : w.openings[i]? = some opening)
    (hturn : w.Turn opening opening' w') (hle : w.clock ≤ monotonic)
    (hasks : w.Asks opening opening' monotonic w'.limiters) :
    (w'.record i opening' monotonic).Paced := by
  cases hasks with
  | not hlimiters hpassedAt =>
      refine hw.later hlimiters hle fun j other t hget hpassed => ?_
      rcases hturn.recorded hget with ⟨rfl, rfl⟩ | ⟨-, hother⟩
      · exact ⟨opening, hopening, hturn.kind.symm, hturn.interaction.symm, hpassedAt ▸ hpassed⟩
      · exact ⟨other, hother, rfl, rfl, hpassed⟩
  | acquire hcall hlimiters hpassedAt =>
      subst hcall
      refine hw.acquire hopening hturn rfl rfl ?_ hlimiters hpassedAt
      exact hle

theorem FrontDoor.Paced.step (hw : w.Paced) (event : FrontDoorEvent) : (w.step event).Paced := by
  cases event with
  | invoke kind interaction =>
      refine hw.later rfl le_rfl fun j other t hget hpassed => ?_
      simp only [FrontDoor.step, List.getElem?_append] at hget
      split at hget
      · exact ⟨other, hget, rfl, rfl, hpassed⟩
      · rw [List.getElem?_singleton] at hget
        split at hget <;> cases hget
        cases hpassed
  | submit i input parent =>
      simp only [FrontDoor.step]
      split
      next => exact hw
      next opening hopening =>
        exact hw.turn hopening (submit_turn w opening input parent) le_rfl
          (.not rfl (submit_passedAt ..))
  | moderate threadId name =>
      simp only [FrontDoor.step]
      split
      next => exact hw
      next =>
        exact hw.later rfl le_rfl fun _ other _ hother hpassed => ⟨other, hother, rfl, rfl, hpassed⟩
  | other command hother =>
      exact hw.later rfl le_rfl fun _ other _ hother hpassed => ⟨other, hother, rfl, rfl, hpassed⟩
  | proceed i reply =>
      simp only [FrontDoor.step]
      split
      next => exact hw
      next opening hopening =>
        split
        next => exact hw
        next hnow =>
          exact hw.turn hopening (proceed_turn w opening reply) (not_lt.mp hnow)
            (proceed_asks w opening reply)

end Limiter

/-! ## Runs -/

/-- The bot has just started, on an empty ledger. -/
structure FrontDoor.Starts (w : FrontDoor) : Prop where
  empty : w.db.EmptyLedger
  live : ∀ id, w.threads id ≠ none → id ∈ w.issued
  openings : w.openings = []
  limiters : w.limiters = fun _ => ticketLimiter

/-- The thread of a ticket leads to it and was asked for by one invocation; what an
invocation announces is so, and what it tears down holds no ticket. No user gets to two
invocations of one kind within a minute. -/
structure FrontDoor.ThreadsKept (w : FrontDoor) : Prop where
  resolves : ∀ kind uid ticket, w.db.ticketOf kind uid = some ticket →
    w.db.ticketInThread ticket.threadId = some ⟨kind, uid, ticket⟩
  asked : ∀ kind uid ticket, w.db.ticketOf kind uid = some ticket → ∃! i, ∃ opening host,
    w.Hosts i opening host ∧ opening.kind = kind ∧
      ticket.origin = host.origin opening.interaction.userId
  announced : ∀ (i : Nat) (opening : Opening) (host : Hosting) (uid text : String),
    w.openings[i]? = some opening → opening.stage = .announced host uid text →
    ∃ ticket, w.db.ticketOf opening.kind uid = some ticket ∧
      ticket.origin = host.origin opening.interaction.userId
  tornDown : ∀ (i : Nat) (opening : Opening) (host : Hosting) (deleted : Bool) (text : String),
    w.openings[i]? = some opening → opening.stage = .tornDown host deleted text →
    (∀ kind uid ticket, w.db.ticketOf kind uid = some ticket →
        ticket.threadId ≠ host.threadId) ∧
      (deleted = true → w.threads host.threadId = none)
  spaced : w.Spaced

/-- The step takes no ticket's thread away, unless a moderator does. -/
def FrontDoor.Spares (w : FrontDoor) (event : FrontDoorEvent) : Prop :=
  (∃ threadId name, event = .moderate threadId name) ∨
    ∀ kind uid ticket, w.db.ticketOf kind uid = some ticket → w.threads ticket.threadId ≠ none →
      (w.step event).threads ticket.threadId ≠ none

section Run

variable {w w₀ : FrontDoor}

theorem FrontDoor.Starts.sound (h₀ : w₀.Starts) : w₀.Sound := by
  have hnone : ∀ kind uid, w₀.db.ticketOf kind uid = none := by
    intro kind uid
    cases kind <;> simp [Database.ticketOf, h₀.empty.deposits, h₀.empty.withdraws]
  have hhosts : ∀ {i opening host}, ¬ w₀.Hosts i opening host := by
    rintro i opening host ⟨hget, -⟩
    rw [h₀.openings] at hget
    cases hget
  refine ⟨h₀.empty.wellFormed, h₀.live, fun _ _ _ h => (hhosts h).elim,
    fun _ _ _ _ _ _ h => (hhosts h).elim, fun kind uid _ h => ?_, fun kind uid _ _ _ _ h => ?_,
    fun _ _ _ h => ?_, fun _ _ _ _ h => ?_⟩
  · rw [hnone] at h
    cases h
  · rw [hnone] at h
    cases h
  · rw [h₀.openings] at h
    cases h
  · rw [h₀.openings] at h
    cases h

theorem threadId_of_ticketInThread {s : Database} {threadId : Int} {ctx : TicketContext}
    (hctx : s.ticketInThread threadId = some ctx) : ctx.ticketRow.threadId = threadId := by
  unfold Database.ticketInThread at hctx
  dsimp only at hctx
  split at hctx
  next uid ticket hfound =>
    cases hctx
    simpa using List.find?_some hfound
  next =>
    obtain ⟨⟨uid, row⟩, hfound, rfl⟩ := Option.map_eq_some_iff.mp hctx
    simpa using List.find?_some hfound

theorem ticketInThread_ne_none {s : Database} {kind : TicketType} {uid : String} {ticket : Ticket}
    (hticket : s.ticketOf kind uid = some ticket) : s.ticketInThread ticket.threadId ≠ none := by
  unfold Database.ticketInThread
  dsimp only
  split
  next => exact Option.some_ne_none _
  next hnone =>
    rw [Ne, Option.map_eq_none_iff]
    cases kind with
    | deposit =>
        have hrow : (uid, ticket) ∈ s.depositTickets.rows := Table.get?_eq_some.mp hticket
        exact absurd (decide_eq_true rfl) (List.find?_eq_none.mp hnone _ hrow)
    | withdraw =>
        obtain ⟨row, hget, rfl⟩ := Option.map_eq_some_iff.mp hticket
        intro hmissing
        have hrow : (uid, row) ∈ s.withdrawTickets.rows := Table.get?_eq_some.mp hget
        exact absurd (decide_eq_true rfl) (List.find?_eq_none.mp hmissing _ hrow)

/-- Where one thread has one ticket, the lookup over both tables finds it. -/
theorem FrontDoor.Sound.resolves (hw : w.Sound) {kind : TicketType} {uid : String}
    {ticket : Ticket} (hticket : w.db.ticketOf kind uid = some ticket) :
    w.db.ticketInThread ticket.threadId = some ⟨kind, uid, ticket⟩ := by
  obtain ⟨ctx, hctx⟩ := Option.ne_none_iff_exists'.mp (ticketInThread_ne_none hticket)
  have hrow := ticketOf_of_ticketInThread hctx
  obtain ⟨hkind, huid⟩ :=
    hw.one _ _ _ _ _ _ hrow hticket (threadId_of_ticketInThread hctx)
  obtain ⟨ctxKind, ctxUid, ctxRow⟩ := ctx
  subst hkind huid
  obtain rfl := Option.some.inj (hrow.symm.trans hticket)
  exact hctx

theorem FrontDoor.Starts.paced (h₀ : w₀.Starts) : w₀.Paced where
  limits := fun kind => by rw [h₀.limiters]; exact ⟨rfl, rfl⟩
  tracked := by
    intro kind
    rw [h₀.limiters]
    refine ⟨[], ⟨.nil, by simp, fun k => ⟨_, le_rfl, rfl⟩⟩, fun i opening t hget => ?_⟩
    rw [h₀.openings] at hget
    cases hget
  spaced := by
    intro i j opening opening' t t' _ hget
    rw [h₀.openings] at hget
    cases hget

theorem FrontDoor.Sound.threadsKept (hw : w.Sound) (hpaced : w.Paced) : w.ThreadsKept where
  spaced := hpaced.spaced
  resolves := fun kind uid ticket hticket => hw.resolves hticket
  asked := by
    intro kind uid ticket hticket
    obtain ⟨i, opening, host, hhosts, hkind, -, horigin⟩ := hw.asked kind uid ticket hticket
    refine ⟨i, ⟨opening, host, hhosts, hkind, horigin⟩, ?_⟩
    rintro j ⟨other, host', hhosts', -, horigin'⟩
    refine hw.apart j i other opening host' host hhosts' hhosts ?_
    exact (threadId_of_origin horigin').symm.trans (threadId_of_origin horigin)
  announced := by
    intro i opening host uid text hopening hstage
    obtain ⟨host', ticket, hhost', hticket, hthread⟩ :=
      hw.known i opening uid hopening (by rw [hstage]; rfl)
    obtain ⟨j, other, owner, hhosts, -, -, horigin⟩ := hw.asked _ uid ticket hticket
    have hsame : i = j := hw.apart i j opening other host' owner ⟨hopening, hhost'⟩ hhosts
      (hthread.symm.trans (threadId_of_origin horigin))
    subst hsame
    obtain rfl := Option.some.inj (hopening.symm.trans hhosts.1)
    have howner : host = owner := Option.some.inj ((show opening.stage.host? = some host by
      rw [hstage]; rfl).symm.trans hhosts.2)
    exact ⟨ticket, hticket, howner ▸ horigin⟩
  tornDown := by
    intro i opening host deleted text hopening hstage
    have hmine : w.Hosts i opening host := ⟨hopening, by rw [hstage]; rfl⟩
    refine ⟨fun kind uid ticket hticket hthread => ?_, fun hdeleted => ?_⟩
    · obtain ⟨j, other, host', hhosts, -, hallows, horigin⟩ := hw.asked kind uid ticket hticket
      have hsame : i = j := hw.apart i j opening other host host' hmine hhosts
        (hthread.symm.trans (threadId_of_origin horigin))
      subst hsame
      obtain rfl := Option.some.inj (hopening.symm.trans hhosts.1)
      rw [hstage] at hallows
      exact hallows
    · subst hdeleted
      exact hw.gone i opening host text hopening hstage

/-- An invocation deletes its thread only when it has been refused a ticket. -/
theorem FrontDoor.Sound.spares (hw : w.Sound) (event : FrontDoorEvent) : w.Spares event := by
  cases event with
  | moderate threadId name => exact .inl ⟨threadId, name, rfl⟩
  | invoke kind interaction => exact .inr fun _ _ _ _ hlive => hlive
  | other command hother => exact .inr fun _ _ _ _ hlive => hlive
  | submit i input parent =>
      refine .inr fun kind uid ticket hticket hlive => ?_
      simp only [FrontDoor.step]
      split <;> exact hlive
  | proceed i reply =>
      refine .inr fun kind uid ticket hticket hlive hgone => ?_
      simp only [FrontDoor.step] at hgone
      split at hgone
      next => exact hlive hgone
      next opening hopening =>
        split at hgone
        next => exact hlive hgone
        next =>
          obtain ⟨host, text, hstage, hthread⟩ :=
            (proceed_turn w opening reply).goes _ hlive hgone
          obtain ⟨j, other, host', hhosts, -, hallows, horigin⟩ := hw.asked kind uid ticket hticket
          have hsame : i = j := hw.apart i j opening other host host'
            ⟨hopening, by rw [hstage]; rfl⟩ hhosts (hthread.trans (threadId_of_origin horigin))
          subst hsame
          obtain rfl := Option.some.inj (hopening.symm.trans hhosts.1)
          rw [hstage] at hallows
          exact hallows

/-- However the invocations interleave, and whatever requests fail or go unanswered, every
ticket keeps a thread of its own. -/
theorem tickets_keep_threads (h₀ : w₀.Starts) (events : List FrontDoorEvent) :
    (run FrontDoor.step w₀ events).ThreadsKept ∧
      ∀ w event, (w, event) ∈ steps FrontDoor.step w₀ events → w.Spares event := by
  have hstep : ∀ w event, True → w.Sound ∧ w.Paced →
      (FrontDoor.step w event).Sound ∧ (FrontDoor.step w event).Paced :=
    fun w event _ ⟨hw, hpaced⟩ => ⟨hw.step event, hpaced.step event⟩
  have hstart : w₀.Sound ∧ w₀.Paced := ⟨h₀.sound, h₀.paced⟩
  constructor
  · obtain ⟨hw, hpaced⟩ := run_invariant_of_steps hstep hstart fun _ _ _ => trivial
    exact hw.threadsKept hpaced
  · intro w event hmem
    exact (steps_invariant_of_steps hstep hstart (fun _ _ _ => trivial) hmem).1.spares event

end Run

/-- The bot on the seeded ledger. -/
def quietDoor : FrontDoor := ⟨.seeded, fun _ => ticketLimiter, 0, fun _ => none, [], []⟩

/-- An answer to the next request, at a time. -/
def answeredAt (monotonic : ℚ) (snowflake : Int) : Reply :=
  ⟨.answered, .plain, monotonic, snowflake⟩

/-- User 9 opens a deposit in thread 21; user 8 asks for too little, and thread 22 is torn
down again. -/
def doorRun : List FrontDoorEvent :=
  [.other (.config (.dwConfig "channel_id_deposit" (some 2))) id,
   .invoke .deposit ⟨true, some 2, 9⟩, .invoke .deposit ⟨true, some 2, 8⟩,
   .proceed 0 (answeredAt 1 0), .proceed 0 (answeredAt 2 0),
   .proceed 1 (answeredAt 3 0), .proceed 1 (answeredAt 4 0),
   .submit 1 (.ok ⟨"Other", "Realm", .EU, .Horde, 1⟩) (some 2),
   .submit 0 (.ok ⟨"Char", "Realm", .EU, .Horde, 5000⟩) (some 2),
   .proceed 0 (answeredAt 5 21), .proceed 1 (answeredAt 6 22),
   .proceed 1 (answeredAt 7 0), .proceed 0 (answeredAt 8 0),
   .proceed 0 (answeredAt 9 0), .proceed 1 (answeredAt 10 0),
   .proceed 1 (answeredAt 11 0), .proceed 0 (answeredAt 12 0), .proceed 0 (answeredAt 13 0)]

theorem tickets_keep_threads_quiet :
    (run FrontDoor.step quietDoor doorRun).ThreadsKept ∧
      ∀ w event, (w, event) ∈ steps FrontDoor.step quietDoor doorRun → w.Spares event :=
  tickets_keep_threads ⟨seeded_empty, fun _ hlive => absurd rfl hlive, rfl, rfl⟩ doorRun

example :
    ((run FrontDoor.step quietDoor doorRun).openings.map fun opening =>
      opening.stage.ticketUid?) = [some "deposit-1", none] := by
  decide +kernel

end DeathRoll
