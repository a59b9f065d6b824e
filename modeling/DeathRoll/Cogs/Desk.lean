import DeathRoll.Cogs.Orchestration
import DeathRoll.Ledger.AuditTargets
import DeathRoll.Ledger.Locked

/-! # The ticket desk

What claiming, releasing, cancelling and confirming are for: a desk where a ticket is open,
in one cashier's hands, or settled, and where every visit is answered. The orchestration
functions refine it. Each answers a visit as the desk does, through the text of an error
where the desk turns the visitor away, and moves the ticket as the desk does; a visit that
the desk grants can still fail to be recorded, and then nothing has moved.
-/

namespace DeathRoll

open Relational Tx Text

/-! ## The desk -/

inductive DeskState where
  | open
  | claimed (cashier : Int)
  | confirmed (cashier : Int)
  | cancelled
deriving DecidableEq

inductive DeskAction where
  | claim
  | release
  | cancel
  | confirm
deriving DecidableEq

inductive DeskAnswer where
  | done
  | notFound
  | alreadyClaimed
  | regionMismatch
  | notClaimed
  | wrongCashier
  | alreadyTerminal
deriving DecidableEq

/-- The answer to a visitor, and the state the ticket is left in. A confirmed ticket can be
confirmed again by its cashier. -/
def DeskState.answer (served : Bool) (visitor : Int) :
    DeskAction → DeskState → DeskAnswer × DeskState
  | .claim, .open => if served then (.done, .claimed visitor) else (.regionMismatch, .open)
  | .claim, state => (.alreadyClaimed, state)
  | .release, .claimed cashier =>
      if cashier = visitor then (.done, .open) else (.wrongCashier, .claimed cashier)
  | .release, state => (.notClaimed, state)
  | .cancel, .open | .cancel, .claimed _ => (.done, .cancelled)
  | .cancel, state => (.alreadyTerminal, state)
  | .confirm, .claimed cashier =>
      if cashier = visitor then (.done, .confirmed cashier) else (.wrongCashier, .claimed cashier)
  | .confirm, .confirmed cashier =>
      (if cashier = visitor then .done else .notClaimed, .confirmed cashier)
  | .confirm, state => (.notClaimed, state)

/-- The tickets on the desk. -/
abbrev Desk := TicketType → String → Option DeskState

/-- Leave a ticket in a state. -/
def Desk.put (desk : Desk) (kind : TicketType) (uid : String) (state : DeskState) : Desk :=
  fun otherKind other => if otherKind = kind ∧ other = uid then some state else desk otherKind other

/-- A visit to the desk about one ticket. -/
structure Visit where
  action : DeskAction
  kind : TicketType
  uid : String
  visitor : Int
deriving DecidableEq

/-- How a visit is answered, and the desk after it. -/
def Desk.visit (desk : Desk) (visit : Visit) (served : Bool) : DeskAnswer × Desk :=
  match desk visit.kind visit.uid with
  | none => (.notFound, desk)
  | some state =>
      let answered := state.answer served visit.visitor visit.action
      (answered.1, desk.put visit.kind visit.uid answered.2)

/-! ## The desk that a database keeps -/

/-- A ticket as the desk sees it. -/
def Ticket.onDesk (ticket : Ticket) : DeskState :=
  match ticket.status, ticket.claimedBy with
  | .open, _ => .open
  | .claimed, some cashier => .claimed cashier
  | .confirmed, some cashier => .confirmed cashier
  | _, _ => .cancelled

def Database.desk (s : Database) : Desk := fun kind uid => (s.ticketOf kind uid).map Ticket.onDesk

/-- The visitor serves the region of the ticket. -/
def Database.servesTicket (s : Database) (visit : Visit) : Bool :=
  (s.ticketOf visit.kind visit.uid).any fun ticket =>
    s.servesRegion (some visit.visitor) ticket.region

/-- The answer that an outcome reports, if it reports one. -/
def LifecycleOutcome.answer? : LifecycleOutcome → Option DeskAnswer
  | .success => some .done
  | .ticketNotFound _ => some .notFound
  | .alreadyClaimed _ => some .alreadyClaimed
  | .notClaimed _ => some .notClaimed
  | .wrongCashier _ => some .wrongCashier
  | .regionMismatch _ => some .regionMismatch
  | .alreadyTerminal _ => some .alreadyTerminal
  | .unexpected _ => none

def ConfirmOutcome.answer? : ConfirmOutcome → Option DeskAnswer
  | .success _ => some .done
  | .ticketNotFound _ => some .notFound
  | .notClaimed _ => some .notClaimed
  | .wrongCashier _ => some .wrongCashier
  | .invariantViolation _ | .unexpected _ => none

/-- A visit as the commands make it; the reason is that of a cancellation. -/
def Visit.dispatch (env : Env) (visit : Visit) (reason : String) (s : Database) :
    Except DbError (Option DeskAnswer) × Database :=
  match visit.action with
  | .claim =>
      (Orchestration.claimTicketForCashier env visit.kind visit.uid visit.visitor s).map
        (Except.map LifecycleOutcome.answer?) id
  | .release =>
      (Orchestration.releaseTicketByCashier env visit.kind visit.uid visit.visitor s).map
        (Except.map LifecycleOutcome.answer?) id
  | .cancel =>
      (Orchestration.cancelTicketDispatch env visit.kind visit.uid visit.visitor reason s).map
        (Except.map LifecycleOutcome.answer?) id
  | .confirm =>
      (Orchestration.confirmTicketDispatch env visit.kind visit.uid visit.visitor s).map
        (Except.map ConfirmOutcome.answer?) id

/-! ## Bodies -/

/-- The errors that keep a move from being recorded: the session has no chain key, or a
constraint is violated. -/
def Env.Hinders (env : Env) (error : DbError) : Prop :=
  env.chainKey = .error error ∨ error.IsRaise = false

/-- The error by which a visitor is turned away. -/
inductive DeskAnswer.RaisedAs : DeskAnswer → DbError → Prop
  | notFound : RaisedAs .notFound .ticketNotFound
  | alreadyClaimed (status : TicketStatus) : RaisedAs .alreadyClaimed (.alreadyClaimed status)
  | regionMismatch (cashier : Option Int) (region : Region) :
      RaisedAs .regionMismatch (.regionMismatch cashier region)
  | notClaimed (status : TicketStatus) : RaisedAs .notClaimed (.ticketNotClaimed status)
  | wrongCashier (claimedBy calling : Option Int) :
      RaisedAs .wrongCashier (.wrongCashier claimedBy calling)
  | alreadyTerminal (status : TicketStatus) :
      RaisedAs .alreadyTerminal (.ticketAlreadyTerminal status)

/-- A body that keeps the books of a move: it leaves the desk alone and raises only what
hinders. -/
def Aside {α : Type} (env : Env) (body : LedgerTx α) : Prop :=
  ∀ s, wp body (fun _ s' => s'.desk = s.desk) env.Hinders s

variable {env : Env}

namespace Aside

variable {α β : Type}

theorem pure (a : α) : Aside env (pure a : LedgerTx α) := fun _ => rfl

theorem get : Aside env (get : LedgerTx Database) := fun _ => rfl

theorem bind {x : LedgerTx α} {f : α → LedgerTx β} (hx : Aside env x) (hf : ∀ a, Aside env (f a)) :
    Aside env (x >>= f) := by
  intro s
  rw [wp_bind]
  exact wp_mono (hx s) (fun a s' hs => hs ▸ hf a s') fun _ herror => herror

theorem ifDo {x : LedgerTx Unit} (hx : Aside env x) (c : Prop) [Decidable c] :
    Aside env (ifDo c x) :=
  fun s => (wp_ifDo c x).mpr ⟨fun _ => hx s, fun _ => rfl⟩

theorem notNull (column : String) (value : Option α) : Aside env (notNull column value) :=
  fun _ => (wp_notNull column value).mpr ⟨fun _ => .inr rfl, fun _ _ => rfl⟩

theorem nullableBigint (value : Option Int) : Aside env (nullableBigint value) :=
  fun _ => (wp_nullableBigint value).mpr ⟨fun _ _ _ => .inr rfl, fun _ => rfl⟩

theorem insertUser (discordId : Int) : Aside env (insertUser discordId) := fun _ => rfl

theorem insertBalance (discordId : Int) : Aside env (insertBalance discordId) := fun _ => rfl

theorem updateBalance (discordId : Int) (assign : BalanceRow → BalanceRow) :
    Aside env (updateBalance discordId assign) := by
  intro s
  rw [wp_updateBalance]
  refine ⟨fun _ => rfl, fun row _ => ⟨fun e herror => ?_, fun _ _ => rfl⟩⟩
  unfold Balance.check at herror
  repeat' split at herror
  all_goals cases herror
  all_goals exact .inr rfl

theorem upsertCashierStats (cashier : Int) (add : CashierStatsRow → CashierStatsRow) :
    Aside env (upsertCashierStats cashier add) :=
  fun _ => (wp_upsertCashierStats cashier add).mpr ⟨fun _ _ => rfl, fun _ => .inr rfl⟩

theorem auditLogInsertWithChain (p : AuditParams) : Aside env (auditLogInsertWithChain env p) := by
  intro s
  rw [wp_auditLogInsertWithChain]
  exact ⟨fun _ herror => .inl herror, fun key _ => ⟨fun _ => .inr rfl, fun actorId _ =>
    ⟨fun _ => .inr rfl, fun targetId _ => ⟨fun _ => .inr rfl, fun action _ =>
    ⟨fun _ => .inr rfl, fun before _ => ⟨fun _ => .inr rfl, fun after _ =>
    ⟨fun _ => .inr rfl, fun refType _ => ⟨fun _ => .inr rfl, fun _ => rfl⟩⟩⟩⟩⟩⟩⟩⟩

end Aside

variable {s : Database} {kind : TicketType} {uid : String} {ticket : Ticket}

/-- The rule of a body that keeps the books. -/
theorem wp_of_aside {α : Type} {body : LedgerTx α} {post : α → Database → Prop}
    {raised : DbError → Prop} (hbody : Aside env body) (hraised : ∀ e, env.Hinders e → raised e)
    (hpost : ∀ a s', s'.desk = s.desk → post a s') : wp body post raised s :=
  wp_mono (hbody s) hpost hraised

theorem desk_of_ticketOf (hticket : s.ticketOf kind uid = some ticket) :
    s.desk kind uid = some ticket.onDesk := by
  rw [Database.desk, hticket, Option.map_some]

theorem desk_setDeposit (hon : s.desk .deposit uid ≠ none) (new : Ticket) :
    (s.setDeposit uid new).desk = s.desk.put .deposit uid new.onDesk := by
  have hold : s.depositTickets.get? uid ≠ none := by
    simpa [Database.desk, Database.ticketOf] using hon
  obtain ⟨old, hold⟩ := Option.ne_none_iff_exists'.mp hold
  funext otherKind other
  cases otherKind with
  | withdraw => simp [Database.desk, Database.ticketOf, Desk.put]
  | deposit =>
      by_cases huid : other = uid
      · subst huid
        simp [Database.desk, Database.ticketOf, Desk.put, Table.get?_set_self hold]
      · simp [Database.desk, Database.ticketOf, Desk.put, huid, Table.get?_set_of_ne]

theorem desk_setWithdraw (hon : s.desk .withdraw uid ≠ none) (new : WithdrawTicket) :
    (s.setWithdraw uid new).desk = s.desk.put .withdraw uid new.onDesk := by
  have hold : s.withdrawTickets.get? uid ≠ none := by
    simpa [Database.desk, Database.ticketOf] using hon
  obtain ⟨old, hold⟩ := Option.ne_none_iff_exists'.mp hold
  funext otherKind other
  cases otherKind with
  | deposit => simp [Database.desk, Database.ticketOf, Desk.put]
  | withdraw =>
      by_cases huid : other = uid
      · subst huid
        simp [Database.desk, Database.ticketOf, Desk.put, Table.get?_set_self hold]
      · simp [Database.desk, Database.ticketOf, Desk.put, huid, Table.get?_set_of_ne]

/-- A ticket whose columns agree with its status is in one of the desk's states. -/
theorem Ticket.Consistent.cases (hcons : ticket.Consistent) :
    (ticket.status = .open ∧ ticket.onDesk = .open) ∨
      (∃ cashier, ticket.status = .claimed ∧ ticket.claimedBy = some cashier ∧
        ticket.onDesk = .claimed cashier) ∨
      (∃ cashier, ticket.status = .confirmed ∧ ticket.claimedBy = some cashier ∧
        ticket.onDesk = .confirmed cashier) ∨
      (ticket.status = .cancelled ∧ ticket.onDesk = .cancelled) := by
  rcases hcons.status with hopen | hclaimed | hconfirmed | hcancelled
  · exact .inl ⟨hopen, by simp [Ticket.onDesk, hopen]⟩
  · obtain ⟨cashier, hcashier⟩ :=
      Option.ne_none_iff_exists'.mp (hcons.claimed (.inl hclaimed)).1
    exact .inr (.inl ⟨cashier, hclaimed, hcashier, by simp [Ticket.onDesk, hclaimed, hcashier]⟩)
  · obtain ⟨cashier, hcashier⟩ :=
      Option.ne_none_iff_exists'.mp (hcons.claimed (.inr hconfirmed)).1
    exact .inr (.inr (.inl ⟨cashier, hconfirmed, hcashier,
      by simp [Ticket.onDesk, hconfirmed, hcashier]⟩))
  · exact .inr (.inr (.inr ⟨hcancelled, by simp [Ticket.onDesk, hcancelled]⟩))

theorem wp_updateTicket_desk {post : Unit → Database → Prop} {raised : DbError → Prop}
    {assign : Ticket → Ticket} (hticket : s.ticketOf kind uid = some ticket)
    (hstatus : ¬ ticket.status.Terminal)
    (hpost : ∀ s', s'.desk = s.desk.put kind uid (assign ticket).onDesk → post () s') :
    wp (updateTicket (some kind.text) uid assign) post raised s := by
  have hon : s.desk kind uid ≠ none := by simp [desk_of_ticketOf hticket]
  unfold updateTicket
  cases kind with
  | deposit =>
      simp only [Database.ticketOf] at hticket
      simp only [TicketType.text, wp_bind, wp_get, isEq_some, if_true, hticket, wp_updateDeposit]
      exact ⟨fun hterminal => absurd hterminal.1 hstatus, fun _ => hpost _ (desk_setDeposit hon _)⟩
  | withdraw =>
      obtain ⟨w, hw, rfl⟩ := Option.map_eq_some_iff.mp hticket
      simp only [TicketType.text, wp_bind, wp_get, isEq_some, String.reduceEq, if_false,
        hw, wp_updateWithdraw]
      exact ⟨fun hterminal => absurd hterminal.1 hstatus, fun _ => hpost _ (desk_setWithdraw hon _)⟩

/-- The body answers the visit as the desk does: it returns only when the visit is granted,
with the ticket moved, and raises the error of the answer, or one that hinders it. -/
def Database.Attends {α : Type} (env : Env) (s : Database) (visit : Visit) (body : LedgerTx α) :
    Prop :=
  let answered := s.desk.visit visit (s.servesTicket visit)
  wp body (fun _ s' => answered.1 = .done ∧ s'.desk = answered.2)
    (fun e => answered.1.RaisedAs e ∨ answered.1 = .done ∧ env.Hinders e) s

section Visit

variable {action : DeskAction} {visitor : Int} {served : Bool}

theorem visit_none (hnone : s.ticketOf kind uid = none) :
    s.desk.visit ⟨action, kind, uid, visitor⟩ served = (.notFound, s.desk) := by
  simp [Desk.visit, Database.desk, hnone]

theorem visit_some (hticket : s.ticketOf kind uid = some ticket) :
    s.desk.visit ⟨action, kind, uid, visitor⟩ served =
      ((ticket.onDesk.answer served visitor action).1,
        s.desk.put kind uid (ticket.onDesk.answer served visitor action).2) := by
  simp [Desk.visit, desk_of_ticketOf hticket]

end Visit

theorem not_isNotIn_text (kind : TicketType) : ¬ IsNotIn (some kind.text) TicketType.texts := by
  cases kind <;> decide

theorem claimTicket_attends (hcons : s.TicketsConsistent) (cashier : Int) :
    s.Attends env ⟨.claim, kind, uid, cashier⟩
      (claimTicket env (some kind.text) (some uid) (some cashier)) := by
  unfold Database.Attends claimTicket
  simp only [wp_bind, wp_raiseIf, wp_get, wp_require, ticket?_text, not_isNotIn_text, false_implies,
    not_false_eq_true, true_implies, true_and, Option.some.injEq, forall_eq', reduceCtorEq]
  cases hticket : s.ticketOf kind uid with
  | none =>
      simp only [visit_none hticket, reduceCtorEq, false_implies, implies_true, and_true,
        true_implies]
      exact .inl .notFound
  | some ticket =>
      simp only [visit_some hticket, reduceCtorEq, false_implies, true_and, Option.some.injEq,
        forall_eq']
      have hserved : s.servesTicket ⟨.claim, kind, uid, cashier⟩ =
          s.servesRegion (some cashier) ticket.region := by
        simp [Database.servesTicket, hticket]
      rcases (hcons.shared kind uid ticket hticket).cases with ⟨hstatus, hdesk⟩ |
        ⟨c, hstatus, -, hdesk⟩ | ⟨c, hstatus, -, hdesk⟩ | ⟨hstatus, hdesk⟩ <;>
        simp only [hdesk, hserved, hstatus, DeskState.answer]
      · refine ⟨fun hne => absurd rfl hne, fun _ => ⟨fun hforeign => ?_, fun hattends => ?_⟩⟩
        · rw [if_neg hforeign]
          exact .inl (.regionMismatch _ _)
        · rw [if_pos (not_not.mp hattends)]
          refine wp_updateTicket_desk hticket (by rw [hstatus]; decide) fun s' hs' => ?_
          refine wp_of_aside (.auditLogInsertWithChain _) (fun e he => .inr ⟨rfl, he⟩) ?_
          exact fun _ _ hs'' => ⟨rfl, hs''.trans hs'⟩
      all_goals exact ⟨fun _ => .inl (.alreadyClaimed _), fun hopen => absurd hopen (by decide)⟩

theorem wp_updateDeposit_desk {post : Unit → Database → Prop} {raised : DbError → Prop}
    {old new : Ticket} (hon : s.desk .deposit uid ≠ none) (hstatus : ¬ old.status.Terminal)
    (hpost : ∀ s', s'.desk = s.desk.put .deposit uid new.onDesk → post () s') :
    wp (updateDeposit uid old new) post raised s :=
  (wp_updateDeposit uid old new).mpr
    ⟨fun hterminal => absurd hterminal.1 hstatus, fun _ => hpost _ (desk_setDeposit hon new)⟩

theorem wp_updateWithdraw_desk {post : Unit → Database → Prop} {raised : DbError → Prop}
    {old new : WithdrawTicket} (hon : s.desk .withdraw uid ≠ none)
    (hstatus : ¬ old.status.Terminal)
    (hpost : ∀ s', s'.desk = s.desk.put .withdraw uid new.onDesk → post () s') :
    wp (updateWithdraw uid old new) post raised s :=
  (wp_updateWithdraw uid old new).mpr
    ⟨fun hterminal => absurd hterminal.1 hstatus, fun _ => hpost _ (desk_setWithdraw hon new)⟩

theorem releaseTicket_attends (hcons : s.TicketsConsistent) (cashier : Int) :
    s.Attends env ⟨.release, kind, uid, cashier⟩
      (releaseTicket env (some kind.text) (some uid) (some cashier)) := by
  unfold Database.Attends releaseTicket
  simp only [wp_bind, wp_raiseIf, wp_get, wp_require, ticket?_text, not_isNotIn_text, false_implies,
    not_false_eq_true, true_implies, true_and, Option.some.injEq, forall_eq', reduceCtorEq]
  cases hticket : s.ticketOf kind uid with
  | none =>
      simp only [visit_none hticket, reduceCtorEq, false_implies, implies_true, and_true,
        true_implies]
      exact .inl .notFound
  | some ticket =>
      simp only [visit_some hticket, reduceCtorEq, false_implies, true_and, Option.some.injEq,
        forall_eq']
      rcases (hcons.shared kind uid ticket hticket).cases with ⟨hstatus, hdesk⟩ |
        ⟨c, hstatus, hby, hdesk⟩ | ⟨c, hstatus, -, hdesk⟩ | ⟨hstatus, hdesk⟩
      case inr.inl =>
        simp only [hdesk, hstatus, hby, DeskState.answer, isNe_some]
        refine ⟨fun hne => absurd rfl hne, fun _ => ⟨fun hother => ?_, fun hmine => ?_⟩⟩
        · rw [if_neg hother]
          exact .inl (.wrongCashier _ _)
        · rw [if_pos (not_not.mp hmine)]
          refine wp_updateTicket_desk hticket (by rw [hstatus]; decide) fun s' hs' => ?_
          refine wp_of_aside (.auditLogInsertWithChain _) (fun e he => .inr ⟨rfl, he⟩) ?_
          exact fun _ _ hs'' => ⟨rfl, hs''.trans hs'⟩
      all_goals
        simp only [hdesk, hstatus, DeskState.answer]
        exact ⟨fun _ => .inl (.notClaimed _), fun hclaimed => absurd hclaimed (by decide)⟩

/-! ### Cancelling -/

theorem answer_cancel_terminal (hcons : ticket.Consistent) (hterminal : ticket.status.Terminal)
    (served : Bool) (actor : Int) :
    (ticket.onDesk.answer served actor .cancel).1 = .alreadyTerminal := by
  rcases hcons.cases with ⟨hstatus, -⟩ | ⟨c, hstatus, -, -⟩ | ⟨c, -, -, hdesk⟩ | ⟨-, hdesk⟩
  · exact absurd hterminal (by rw [hstatus]; decide)
  · exact absurd hterminal (by rw [hstatus]; decide)
  · rw [hdesk]
    rfl
  · rw [hdesk]
    rfl

theorem answer_cancel_pending (hcons : ticket.Consistent) (hpending : ¬ ticket.status.Terminal)
    (served : Bool) (actor : Int) :
    ticket.onDesk.answer served actor .cancel = (.done, .cancelled) := by
  rcases hcons.cases with ⟨-, hdesk⟩ | ⟨c, -, -, hdesk⟩ | ⟨c, hstatus, -, -⟩ | ⟨hstatus, -⟩
  · rw [hdesk, DeskState.answer]
  · rw [hdesk, DeskState.answer]
  · exact absurd (by rw [hstatus]; decide) hpending
  · exact absurd (by rw [hstatus]; decide) hpending

theorem cancelDeposit_attends (hcons : s.TicketsConsistent) (actor : Int) (reason : String) :
    s.Attends env ⟨.cancel, .deposit, uid, actor⟩
      (cancelDeposit env (some uid) (some actor) (some reason)) := by
  unfold Database.Attends cancelDeposit
  simp only [wp_bind, wp_raiseIf, wp_get, wp_require, Table.select_some, Option.some.injEq,
    forall_eq', reduceCtorEq, false_implies, true_and]
  cases hticket : s.depositTickets.get? uid with
  | none =>
      simp only [visit_none (show s.ticketOf .deposit uid = none from hticket), reduceCtorEq,
        false_implies, implies_true, and_true, true_implies]
      exact .inl .notFound
  | some ticket =>
      have hticketOf : s.ticketOf .deposit uid = some ticket := hticket
      have hconsistent := hcons.shared .deposit uid ticket hticketOf
      have hon : s.desk .deposit uid ≠ none := by simp [desk_of_ticketOf hticketOf]
      simp only [visit_some hticketOf, reduceCtorEq, false_implies, true_and, Option.some.injEq,
        forall_eq']
      refine ⟨fun hterminal => .inl ?_, fun hpending => ?_⟩
      · rw [answer_cancel_terminal hconsistent hterminal]
        exact .alreadyTerminal _
      · rw [answer_cancel_pending hconsistent hpending]
        refine wp_updateDeposit_desk hon hpending fun s' hs' => ?_
        refine wp_of_aside (.auditLogInsertWithChain _) (fun e he => .inr ⟨rfl, he⟩) ?_
        exact fun _ _ hs'' => ⟨rfl, hs''.trans hs'⟩

theorem cancelWithdraw_attends (hcons : s.TicketsConsistent) (hbacked : s.Backed) (actor : Int)
    (reason : String) :
    s.Attends env ⟨.cancel, .withdraw, uid, actor⟩
      (cancelWithdraw env (some uid) (some actor) (some reason)) := by
  unfold Database.Attends cancelWithdraw
  simp only [wp_bind, wp_raiseIf, wp_get, wp_require, Table.select_some, Option.some.injEq,
    forall_eq', reduceCtorEq, false_implies, true_and]
  cases hticket : s.withdrawTickets.get? uid with
  | none =>
      have hnone : s.ticketOf .withdraw uid = none := by simp [Database.ticketOf, hticket]
      simp only [visit_none hnone, reduceCtorEq, false_implies, implies_true, and_true,
        true_implies]
      exact .inl .notFound
  | some ticket =>
      have hticketOf : s.ticketOf .withdraw uid = some ticket.toTicket := by
        simp [Database.ticketOf, hticket]
      have hconsistent := hcons.shared .withdraw uid _ hticketOf
      simp only [visit_some hticketOf, reduceCtorEq, false_implies, true_and, Option.some.injEq,
        forall_eq']
      refine ⟨fun hterminal => .inl ?_, fun hpending => ?_⟩
      · rw [answer_cancel_terminal hconsistent hterminal]
        exact .alreadyTerminal _
      · rw [answer_cancel_pending hconsistent hpending]
        have hhinders : ∀ e : DbError, env.Hinders e →
            DeskAnswer.done.RaisedAs e ∨ DeskAnswer.done = .done ∧ env.Hinders e :=
          fun e he => .inr ⟨rfl, he⟩
        refine ⟨fun hshort => ?_, fun _ => ?_⟩
        · exact absurd hshort (not_isLt_of_backed (hbacked.withdraw uid ticket hticket hpending))
        refine wp_of_aside (.nullableBigint _) hhinders fun _ s₁ hs₁ => ?_
        refine wp_of_aside (.updateBalance _ _) hhinders fun _ s₂ hs₂ => ?_
        have hsame : s₂.desk = s.desk := hs₂.trans hs₁
        have hon : s₂.desk .withdraw uid ≠ none := by simp [hsame, desk_of_ticketOf hticketOf]
        refine wp_updateWithdraw_desk hon hpending fun s₃ hs₃ => ?_
        refine wp_of_aside (.auditLogInsertWithChain _) hhinders fun _ s₄ hs₄ => ?_
        refine wp_of_aside (.ifDo (.upsertCashierStats _ _) _) hhinders fun _ s₅ hs₅ => ?_
        exact ⟨rfl, by rw [hs₅, hs₄, hs₃, hsame]; rfl⟩

/-! ### Confirming -/

theorem Desk.put_same {desk : Desk} {state : DeskState} (hon : desk kind uid = some state) :
    desk.put kind uid state = desk := by
  funext otherKind other
  unfold Desk.put
  split
  next hsame => rw [hsame.1, hsame.2, hon]
  next => rfl

/-- The checks of both confirming functions. A cashier's retry leaves the ticket as it is,
and what follows the checks confirms a ticket that the cashier has claimed. -/
theorem confirmChecks_attend {cashier : Int} {again rest : LedgerTx (Option Int)}
    (hticket : s.ticketOf kind uid = some ticket) (hcons : ticket.Consistent)
    (hagain : wp again (fun _ s' => s'.desk = s.desk) (fun _ => False) s)
    (hrest : ticket.status = .claimed → ticket.claimedBy = some cashier →
      wp rest (fun _ s' => s'.desk = s.desk.put kind uid (.confirmed cashier)) env.Hinders s) :
    s.Attends env ⟨.confirm, kind, uid, cashier⟩
      (if ticket.status = .confirmed ∧ IsEq ticket.claimedBy (some cashier) then again
      else do
        raiseIf (ticket.status ≠ .claimed) (.ticketNotClaimed ticket.status)
        raiseIf (IsNe ticket.claimedBy (some cashier))
          (.wrongCashier ticket.claimedBy (some cashier))
        rest) := by
  unfold Database.Attends
  rw [wp_ite]
  simp only [wp_bind, wp_raiseIf, visit_some hticket]
  have hon := desk_of_ticketOf hticket
  rcases hcons.cases with ⟨hstatus, hdesk⟩ | ⟨c, hstatus, hby, hdesk⟩ | ⟨c, hstatus, hby, hdesk⟩ |
    ⟨hstatus, hdesk⟩ <;>
    simp only [hdesk, hstatus, DeskState.answer, reduceCtorEq, false_and, false_implies,
      not_false_eq_true, true_implies, true_and, ne_eq, not_true_eq_false, false_implies, and_true]
  · exact .inl (.notClaimed _)
  · simp only [hby, isNe_some]
    refine ⟨fun hother => ?_, fun hmine => ?_⟩
    · rw [if_neg hother]
      exact .inl (.wrongCashier _ _)
    · obtain rfl := not_not.mp hmine
      rw [if_pos rfl]
      exact wp_mono (hrest hstatus hby) (fun _ _ hs' => ⟨rfl, hs'⟩) fun e he => .inr ⟨rfl, he⟩
  · simp only [hby, isEq_some]
    refine ⟨fun hmine => ?_, fun hother => ?_⟩
    · rw [if_pos hmine, Desk.put_same (hdesk ▸ hon)]
      exact wp_mono hagain (fun _ _ hs' => ⟨rfl, hs'⟩) fun _ he => he.elim
    · rw [if_neg hother]
      exact .inl (.notClaimed _)
  · exact .inl (.notClaimed _)

theorem onDesk_confirm {cashier : Int} (hby : ticket.claimedBy = some cashier) (now : Timestamp) :
    (ticket.confirm now).onDesk = .confirmed cashier := by
  simp [Ticket.onDesk, hby]

theorem confirmDeposit_attends (hcons : s.TicketsConsistent) (cashier : Int) :
    s.Attends env ⟨.confirm, .deposit, uid, cashier⟩
      (confirmDeposit env (some uid) (some cashier)) := by
  cases hticket : s.depositTickets.get? uid with
  | none =>
      unfold Database.Attends confirmDeposit
      simp only [wp_bind, wp_get, wp_require, Table.select_some, hticket,
        visit_none (show s.ticketOf .deposit uid = none from hticket), reduceCtorEq, false_implies,
        implies_true, and_true, true_implies]
      exact .inl .notFound
  | some ticket =>
      have hticketOf : s.ticketOf .deposit uid = some ticket := hticket
      have hconsistent := hcons.shared .deposit uid ticket hticketOf
      unfold Database.Attends confirmDeposit
      simp only [wp_bind, wp_get, wp_require, Table.select_some, hticket, reduceCtorEq,
        false_implies, true_and, Option.some.injEq, forall_eq']
      refine confirmChecks_attend hticketOf hconsistent rfl fun hclaimed hby => ?_
      have hpending : ¬ ticket.status.Terminal := by
        rw [hclaimed]
        decide
      simp only [wp_bind, wp_get, wp_require, Option.some.injEq, forall_eq', reduceCtorEq,
        false_implies, true_and]
      refine wp_of_aside (.insertUser _) (fun _ he => he) fun _ s₁ hs₁ => ?_
      refine wp_of_aside (.insertBalance _) (fun _ he => he) fun _ s₂ hs₂ => ?_
      refine wp_of_aside (.nullableBigint _) (fun _ he => he) fun _ s₃ hs₃ => ?_
      refine wp_of_aside (.updateBalance _ _) (fun _ he => he) fun _ s₄ hs₄ => ?_
      have hsame : s₄.desk = s.desk := hs₄.trans (hs₃.trans (hs₂.trans hs₁))
      have hon : s₄.desk .deposit uid ≠ none := by simp [hsame, desk_of_ticketOf hticketOf]
      refine wp_updateDeposit_desk hon hpending fun s₅ hs₅ => ?_
      refine wp_of_aside (.auditLogInsertWithChain _) (fun _ he => he) fun _ s₆ hs₆ => ?_
      refine wp_of_aside (.notNull _ _) (fun _ he => he) fun _ s₇ hs₇ => ?_
      refine wp_of_aside (.upsertCashierStats _ _) (fun _ he => he) fun _ s₈ hs₈ => ?_
      change s₈.desk = _
      rw [hs₈, hs₇, hs₆, hs₅, hsame, onDesk_confirm hby]

theorem confirmWithdraw_attends (hcons : s.TicketsConsistent) (hbacked : s.Backed) (cashier : Int) :
    s.Attends env ⟨.confirm, .withdraw, uid, cashier⟩
      (confirmWithdraw env (some uid) (some cashier)) := by
  cases hticket : s.withdrawTickets.get? uid with
  | none =>
      have hnone : s.ticketOf .withdraw uid = none := by simp [Database.ticketOf, hticket]
      unfold Database.Attends confirmWithdraw
      simp only [wp_bind, wp_get, wp_require, Table.select_some, hticket, visit_none hnone,
        reduceCtorEq, false_implies, implies_true, and_true, true_implies]
      exact .inl .notFound
  | some ticket =>
      have hticketOf : s.ticketOf .withdraw uid = some ticket.toTicket := by
        simp [Database.ticketOf, hticket]
      have hconsistent := hcons.shared .withdraw uid _ hticketOf
      unfold Database.Attends confirmWithdraw
      simp only [wp_bind, wp_get, wp_require, Table.select_some, hticket, reduceCtorEq,
        false_implies, true_and, Option.some.injEq, forall_eq']
      refine confirmChecks_attend hticketOf hconsistent rfl fun hclaimed hby => ?_
      have hpending : ¬ ticket.status.Terminal := by
        rw [hclaimed]
        decide
      simp only [wp_bind, wp_get, wp_raiseIf, wp_require, Option.some.injEq, forall_eq',
        reduceCtorEq, false_implies, true_and]
      refine ⟨fun hshort => ?_, fun _ => ?_⟩
      · exact absurd hshort (not_isLt_of_backed (hbacked.withdraw uid ticket hticket hpending))
      refine wp_of_aside (.updateBalance _ _) (fun _ he => he) fun _ s₁ hs₁ => ?_
      refine wp_of_aside (.updateBalance _ _) (fun _ he => he) fun _ s₂ hs₂ => ?_
      have hsame : s₂.desk = s.desk := hs₂.trans hs₁
      have hon : s₂.desk .withdraw uid ≠ none := by simp [hsame, desk_of_ticketOf hticketOf]
      refine wp_updateWithdraw_desk hon hpending fun s₃ hs₃ => ?_
      refine wp_of_aside (.auditLogInsertWithChain _) (fun _ he => he) fun _ s₄ hs₄ => ?_
      refine wp_of_aside (.auditLogInsertWithChain _) (fun _ he => he) fun _ s₅ hs₅ => ?_
      refine wp_of_aside (.notNull _ _) (fun _ he => he) fun _ s₆ hs₆ => ?_
      refine wp_of_aside (.upsertCashierStats _ _) (fun _ he => he) fun _ s₇ hs₇ => ?_
      change s₇.desk = _
      rw [hs₇, hs₆, hs₅, hs₄, hs₃, hsame]
      exact congrArg _ (onDesk_confirm hby _)

/-! ## Visits -/

/-- How the end of a visit follows the desk: the visit is granted and the ticket moved; or
the visitor is turned away with the desk's answer; or a visit that the desk grants is not
recorded, for want of a chain key or by a constraint. All but the first leave the database
as it was, sequences aside. -/
inductive Database.Meets (env : Env) (s : Database) (visit : Visit) :
    Except DbError (Option DeskAnswer) × Database → Prop
  | granted {s' : Database}
      (hdone : (s.desk.visit visit (s.servesTicket visit)).1 = .done)
      (hdesk : s'.desk = (s.desk.visit visit (s.servesTicket visit)).2) :
      Meets env s visit (.ok (some .done), s')
  | turnedAway (t : Database)
      (haway : (s.desk.visit visit (s.servesTicket visit)).1 ≠ .done) :
      Meets env s visit
        (.ok (some (s.desk.visit visit (s.servesTicket visit)).1), s.rollback t)
  | unrecorded (t : Database) (hdone : (s.desk.visit visit (s.servesTicket visit)).1 = .done)
      {e : DbError} (hkey : env.chainKey = .error e) :
      Meets env s visit (.ok none, s.rollback t)
  | violated (t : Database) (hdone : (s.desk.visit visit (s.servesTicket visit)).1 = .done)
      {e : DbError} (hconstraint : e.IsRaise = false) :
      Meets env s visit (.error e, s.rollback t)

/-- The answers to each kind of visit. -/
def DeskAction.answers : DeskAction → List DeskAnswer
  | .claim => [.done, .notFound, .alreadyClaimed, .regionMismatch]
  | .release => [.done, .notFound, .notClaimed, .wrongCashier]
  | .cancel => [.done, .notFound, .alreadyTerminal]
  | .confirm => [.done, .notFound, .notClaimed, .wrongCashier]

theorem answer_mem_answers (served : Bool) (visitor : Int) (action : DeskAction)
    (state : DeskState) : (state.answer served visitor action).1 ∈ action.answers := by
  cases action <;> cases state <;> grind [DeskState.answer, DeskAction.answers]

theorem visit_mem_answers (desk : Desk) (visit : Visit) (served : Bool) :
    (desk.visit visit served).1 ∈ visit.action.answers := by
  unfold Desk.visit
  split
  · cases visit.action <;> simp [DeskAction.answers]
  · exact answer_mem_answers _ _ _ _

/-- The class of the exception that reports an answer. -/
def DeskAnswer.errorClass : DeskAnswer → BalanceErrorClass
  | .done => .balanceError
  | .notFound => .ticketNotFound
  | .alreadyClaimed => .ticketAlreadyClaimed
  | .regionMismatch => .regionMismatch
  | .notClaimed => .ticketNotClaimed
  | .wrongCashier => .wrongCashier
  | .alreadyTerminal => .ticketAlreadyTerminal

theorem translate_raisedAs {answer : DeskAnswer} {e : DbError} (hraised : answer.RaisedAs e) :
    translateRaise e = .balance ⟨answer.errorClass, e.message⟩ := by
  have htranslated : translatePgError e.message = ⟨answer.errorClass, e.message⟩ := by
    cases hraised <;> exact translatePgError_of_unquoted rfl rfl
  cases hraised <;> exact congrArg WrapperError.balance htranslated

theorem translate_chainKey {e : DbError} (hkey : env.chainKey = .error e) :
    translateRaise e = .balance ⟨.balanceError, e.message⟩ := by
  unfold Env.chainKey at hkey
  split at hkey <;> cases hkey
  · exact congrArg WrapperError.balance (translatePgError_of_unquoted rfl rfl)
  · exact congrArg WrapperError.balance (translatePgError_of_unquoted rfl rfl)

/-- An orchestration function meets its visits when its `except` clauses report each answer
that the visit can get, and nothing for the base class. -/
theorem tryWrapped_meets {α ω : Type} {visit : Visit} {body : LedgerTx α} {success : α → ω}
    {except_ : BalanceError → ω} {answer? : ω → Option DeskAnswer}
    (hattends : s.Attends env visit body) (hsuccess : ∀ a, answer? (success a) = some .done)
    (haway : ∀ answer ∈ visit.action.answers, answer ≠ .done → ∀ message,
      answer? (except_ ⟨answer.errorClass, message⟩) = some answer)
    (hbase : ∀ message, answer? (except_ ⟨.balanceError, message⟩) = none) :
    s.Meets env visit ((tryWrapped body success except_ s).map (Except.map answer?) id) := by
  unfold Database.Attends at hattends
  unfold tryWrapped wrapped transact
  rcases hrun : body.outcome s with ⟨⟨e⟩ | ⟨a⟩, s'⟩
  · have hanswer := visit_mem_answers s.desk visit (s.servesTicket visit)
    rcases raised_of_outcome hattends hrun with hraised | ⟨hdone, hkey | hconstraint⟩
    · have hne : (s.desk.visit visit (s.servesTicket visit)).1 ≠ .done := by
        intro hdone
        rw [hdone] at hraised
        cases hraised
      simp only [Except.mapError, translate_raisedAs hraised, Prod.map, Except.map, id,
        haway _ hanswer hne]
      exact .turnedAway s' hne
    · simp only [Except.mapError, translate_chainKey hkey, Prod.map, Except.map, id, hbase]
      exact .unrecorded s' hdone hkey
    · have hdriver : translateRaise e = .driver e := by simp [translateRaise, hconstraint]
      simp only [Except.mapError, hdriver, Prod.map, Except.map, id]
      exact .violated s' hdone hconstraint
  · obtain ⟨hdone, hdesk⟩ := post_of_outcome hattends hrun
    simp only [Except.mapError, Prod.map, Except.map, id, hsuccess]
    exact .granted hdone hdesk

theorem Database.Attends.discard {α : Type} {visit : Visit} {body : LedgerTx α}
    (hattends : s.Attends env visit body) :
    s.Attends env visit (do let _ ← body) := by
  unfold Database.Attends at hattends ⊢
  rw [wp_bind]
  exact hattends

theorem cancelCall_attends (hcons : s.TicketsConsistent) (hbacked : s.Backed) (actor : Int)
    (reason : String) :
    s.Attends env ⟨.cancel, kind, uid, actor⟩
      (callBody env (kind.cancelCall uid actor reason)) := by
  cases kind with
  | deposit => exact cancelDeposit_attends hcons actor reason
  | withdraw => exact (cancelWithdraw_attends hcons hbacked actor reason).discard

theorem confirmTicket_attends (hcons : s.TicketsConsistent) (hbacked : s.Backed) (cashier : Int) :
    s.Attends env ⟨.confirm, kind, uid, cashier⟩
      (Orchestration.confirmTicket env kind uid cashier) := by
  cases kind with
  | deposit => exact confirmDeposit_attends hcons cashier
  | withdraw => exact confirmWithdraw_attends hcons hbacked cashier

theorem dispatch_meets (hcons : s.TicketsConsistent) (hbacked : s.Backed) (visit : Visit)
    (reason : String) : s.Meets env visit (visit.dispatch env reason s) := by
  obtain ⟨action, kind, uid, visitor⟩ := visit
  cases action with
  | claim =>
      refine tryWrapped_meets (claimTicket_attends hcons visitor) (fun _ => rfl) ?_ fun _ => rfl
      intro answer hmem hne message
      cases answer <;> first | rfl | simp [DeskAction.answers] at hmem hne
  | release =>
      refine tryWrapped_meets (releaseTicket_attends hcons visitor) (fun _ => rfl) ?_ fun _ => rfl
      intro answer hmem hne message
      cases answer <;> first | rfl | simp [DeskAction.answers] at hmem hne
  | cancel =>
      refine tryWrapped_meets (cancelCall_attends hcons hbacked visitor reason) (fun _ => rfl) ?_
        fun _ => rfl
      intro answer hmem hne message
      cases answer <;> first | rfl | simp [DeskAction.answers] at hmem hne
  | confirm =>
      refine tryWrapped_meets (confirmTicket_attends hcons hbacked visitor) (fun _ => rfl) ?_
        fun _ => rfl
      intro answer hmem hne message
      cases answer <;> first | rfl | simp [DeskAction.answers] at hmem hne

/-! ## Runs -/

/-- The call behind a visit. -/
def Visit.call (visit : Visit) (reason : String) : Call :=
  match visit.action with
  | .claim => visit.kind.claimCall visit.uid visit.visitor
  | .release => .releaseTicket (some visit.kind.text) (some visit.uid) (some visit.visitor)
  | .cancel => visit.kind.cancelCall visit.uid visit.visitor reason
  | .confirm => visit.kind.confirmCall visit.uid visit.visitor

/-- What happens at the database: a visit through its command, or anything else. -/
inductive FrontMove where
  | visit (env : Env) (visit : Visit) (reason : String)
  | other (command : Command)

def frontStep (s : Database) : FrontMove → Database
  | .visit env visit reason => (visit.dispatch env reason s).2
  | .other command => step s command

def FrontMove.command : FrontMove → Command
  | .visit env made reason => .call env (made.call reason)
  | .other command => command

theorem transact_discard {α : Type} (body : LedgerTx α) :
    (transact Database.rollback (do let _ ← body) s).2 =
      (transact Database.rollback body s).2 := by
  have hrun : outcome (do let _ ← body) s =
      ((body.outcome s).1.map fun _ => (), (body.outcome s).2) := by
    simp only [outcome, ExceptT.run_bind, StateT.run_bind]
    rcases StateT.run (ExceptT.run body) s with ⟨result, s'⟩
    cases result <;> rfl
  unfold transact
  rw [hrun]
  rcases body.outcome s with ⟨⟨_⟩ | ⟨_⟩, s'⟩ <;> rfl

theorem dispatch_step (env : Env) (visit : Visit) (reason : String) (s : Database) :
    (visit.dispatch env reason s).2 = step s (.call env (visit.call reason)) := by
  obtain ⟨action, kind, uid, visitor⟩ := visit
  cases action with
  | claim =>
      simp only [Visit.dispatch, Orchestration.claimTicketForCashier, Prod.map_snd, tryWrapped_snd]
      rfl
  | release =>
      simp only [Visit.dispatch, Orchestration.releaseTicketByCashier, Prod.map_snd, tryWrapped_snd]
      rfl
  | cancel =>
      simp only [Visit.dispatch, Orchestration.cancelTicketDispatch, Prod.map_snd, tryWrapped_snd]
      rfl
  | confirm =>
      simp only [Visit.dispatch, Orchestration.confirmTicketDispatch, Prod.map_snd, tryWrapped_snd]
      cases kind with
      | deposit => exact (transact_discard (confirmDeposit env (some uid) (some visitor))).symm
      | withdraw => exact (transact_discard (confirmWithdraw env (some uid) (some visitor))).symm

theorem frontStep_eq (s : Database) (move : FrontMove) :
    frontStep s move = step s move.command := by
  cases move with
  | visit env visit reason => exact dispatch_step env visit reason s
  | other command => rfl

theorem frontStep_solvent (s : Database) (move : FrontMove) (hrates : s.SoundRates)
    (hs : s.Solvent) : (frontStep s move).Solvent := by
  rw [frontStep_eq]
  exact solvent_step s move.command (fun _ _ _ => hrates) hs

/-- In every run from the empty ledger whose steps meet sound rates, every visit is met as
the desk meets it, whoever comes in whatever order and whatever else the database does in
between. -/
theorem visits_follow_desk {s₀ : Database} (h₀ : s₀.EmptyLedger) (moves : List FrontMove)
    (hrates : ∀ s move, (s, move) ∈ steps frontStep s₀ moves → s.SoundRates)
    {s : Database} {env : Env} {visit : Visit} {reason : String}
    (hvisit : (s, FrontMove.visit env visit reason) ∈ steps frontStep s₀ moves) :
    s.Meets env visit (visit.dispatch env reason s) := by
  have hs : s.Solvent := steps_invariant_of_steps frontStep_solvent h₀.solvent hrates hvisit
  exact dispatch_meets hs.explained.tickets (backed_of_explained hs.explained hs.stakes) visit
    reason

/-- A deposit is opened, claimed, and claimed again by somebody else. -/
def deskRun : List FrontMove :=
  [.other (.call .plain (.addCashierCharacter (some 7) (some "Bank") (some "Realm") (some "EU")
    (some "Horde"))),
   .other (.call .plain (.createDepositTicket (some 9) (some "Char") (some "Realm") (some "EU")
    (some "Horde") (some 5000) (some 1) (some 2))),
   .visit .plain ⟨.claim, .deposit, "deposit-1", 7⟩ "",
   .visit .plain ⟨.claim, .deposit, "deposit-1", 8⟩ ""]

theorem visits_follow_desk_seeded :
    (run frontStep .seeded (deskRun.take 3)).Meets .plain ⟨.claim, .deposit, "deposit-1", 8⟩
      (Visit.dispatch .plain ⟨.claim, .deposit, "deposit-1", 8⟩ ""
        (run frontStep .seeded (deskRun.take 3))) := by
  have hrows : ∀ taken ∈ steps frontStep .seeded deskRun,
      taken.1.gameConfig.rows = gameDefaults.rows ∧
        taken.1.luckConfig.rows = seedLuckConfig.rows := by
    decide
  refine visits_follow_desk seeded_empty deskRun (fun s move hmem => ?_)
    (.tail _ (.tail _ (.tail _ (.head _))))
  exact soundRates_of_seeded (hrows _ hmem).1 (hrows _ hmem).2

end DeathRoll
