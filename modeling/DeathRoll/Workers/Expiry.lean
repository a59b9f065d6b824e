import DeathRoll.Cogs.Cancel
import DeathRoll.Ledger.Settlement

/-! # Expired tickets

Which tickets are expired, what a cancellation does to them, and what any number of
cancellations of expired tickets leaves: the tickets are as before or cancelled, and
what withdraws owe to a user has moved into the user's balance.
-/

namespace DeathRoll

open Relational Tx

/-- `status IN ('open', 'claimed') AND expires_at < NOW()`. -/
def Ticket.Expired (ticket : Ticket) (now : Timestamp) : Prop :=
  (ticket.status = .open ∨ ticket.status = .claimed) ∧ ticket.expiresAt < now

instance (ticket : Ticket) (now : Timestamp) : Decidable (ticket.Expired now) := instDecidableAnd

/-- The rows of `dw.deposit_tickets` or `dw.withdraw_tickets`. -/
def Database.ticketRows (s : Database) : TicketType → List (String × Ticket)
  | .deposit => s.depositTickets.rows
  | .withdraw => s.withdrawTickets.rows.map fun row => (row.1, row.2.toTicket)

/-- `SELECT ticket_uid, status, ... WHERE ... ORDER BY expires_at ASC`. -/
def Database.expiredTickets (s : Database) (kind : TicketType) (now : Timestamp) :
    List (String × TicketStatus) :=
  (((s.ticketRows kind).filter fun row => row.2.Expired now).insertionSort
    fun a b => a.2.expiresAt ≤ b.2.expiresAt).map fun row => (row.1, row.2.status)

/-- What a withdraw owes to a user once it has expired. -/
def WithdrawTicket.owedTo (ticket : WithdrawTicket) (now : Timestamp) (user : Int) : Int :=
  if ticket.discordId = user ∧ ticket.toTicket.Expired now then ticket.amount else 0

/-- What the expired withdraws of a user hold. -/
def Database.owed (s : Database) (now : Timestamp) (user : Int) : Int :=
  s.withdrawTickets.sum fun _ ticket => ticket.owedTo now user

variable {s s' : Database} {env : Env} {kind : TicketType} {uid : String} {ticket : Ticket}
variable {now : Timestamp}

/-! ## Expired tickets -/

theorem Ticket.Expired.pending (hexpired : ticket.Expired now) : ¬ ticket.status.Terminal := by
  rcases hexpired.1 with hstatus | hstatus <;> simp [hstatus, TicketStatus.Terminal]

theorem Ticket.Consistent.pending (hcons : ticket.Consistent)
    (hstatus : ¬ ticket.status.Terminal) : ticket.status = .open ∨ ticket.status = .claimed := by
  rcases hcons.status with hopen | hclaimed | hconfirmed | hcancelled
  · exact .inl hopen
  · exact .inr hclaimed
  · exact absurd (.inl hconfirmed) hstatus
  · exact absurd (.inr (.inl hcancelled)) hstatus

theorem Ticket.Expired.of_settled {ticket' : Ticket} (hexpired : ticket'.Expired now)
    (hsettled : ticket.Settled ticket') (hcons : ticket.Consistent) : ticket.Expired now := by
  refine ⟨hcons.pending fun hfinal => ?_, hsettled.expiresAt ▸ hexpired.2⟩
  exact hexpired.pending (hsettled.final hfinal ▸ hfinal)

theorem mem_ticketRows :
    (uid, ticket) ∈ s.ticketRows kind ↔ s.ticketOf kind uid = some ticket := by
  cases kind with
  | deposit => exact Table.get?_eq_some.symm
  | withdraw =>
      simp only [Database.ticketRows, Database.ticketOf, List.mem_map, Prod.mk.injEq,
        Option.map_eq_some_iff, Table.get?_eq_some]
      constructor
      · rintro ⟨⟨_, w⟩, hw, rfl, rfl⟩
        exact ⟨w, hw, rfl⟩
      · rintro ⟨w, hw, rfl⟩
        exact ⟨(uid, w), hw, rfl, rfl⟩

theorem nodup_ticketRows (s : Database) (kind : TicketType) :
    ((s.ticketRows kind).map Prod.fst).Nodup := by
  cases kind with
  | deposit => exact s.depositTickets.nodup_keys
  | withdraw =>
      rw [Database.ticketRows, List.map_map]
      exact s.withdrawTickets.nodup_keys

theorem mem_expiredTickets {status : TicketStatus} :
    (uid, status) ∈ s.expiredTickets kind now ↔
      ∃ ticket, s.ticketOf kind uid = some ticket ∧ ticket.Expired now ∧
        ticket.status = status := by
  simp only [Database.expiredTickets, List.mem_map, List.mem_insertionSort, List.mem_filter,
    decide_eq_true_eq, Prod.exists, mem_ticketRows, Prod.mk.injEq]
  constructor
  · rintro ⟨_, ticket, ⟨hticket, hexpired⟩, rfl, rfl⟩
    exact ⟨ticket, hticket, hexpired, rfl⟩
  · rintro ⟨ticket, hticket, hexpired, rfl⟩
    exact ⟨uid, ticket, ⟨hticket, hexpired⟩, rfl, rfl⟩

theorem listed_iff :
    uid ∈ (s.expiredTickets kind now).map Prod.fst ↔
      ∃ ticket, s.ticketOf kind uid = some ticket ∧ ticket.Expired now := by
  rw [List.mem_map]
  constructor
  · rintro ⟨⟨_, status⟩, hlisted, rfl⟩
    obtain ⟨ticket, hticket, hexpired, -⟩ := mem_expiredTickets.mp hlisted
    exact ⟨ticket, hticket, hexpired⟩
  · rintro ⟨ticket, hticket, hexpired⟩
    exact ⟨(uid, ticket.status), mem_expiredTickets.mpr ⟨ticket, hticket, hexpired, rfl⟩, rfl⟩

theorem nodup_expiredTickets (s : Database) (kind : TicketType) (now : Timestamp) :
    ((s.expiredTickets kind now).map Prod.fst).Nodup := by
  rw [Database.expiredTickets, List.map_map]
  have hperm := (List.perm_insertionSort (fun a b : String × Ticket =>
    a.2.expiresAt ≤ b.2.expiresAt)
    ((s.ticketRows kind).filter fun row => row.2.Expired now)).map Prod.fst
  refine hperm.nodup_iff.mpr ((nodup_ticketRows s kind).sublist ?_)
  exact List.filter_sublist.map Prod.fst

/-! ## One cancellation -/

/-- What a cancellation that returns does to the tickets. -/
theorem cancelCall_changes (hs : s.WellFormed) {actorId : Int} {reason : String}
    (hok : (kind.cancelCall uid actorId reason).Succeeds env s) :
    ∃ ticket, s.ticketOf kind uid = some ticket ∧ ¬ ticket.status.Terminal ∧
      (∀ other id, (step s (.call env (kind.cancelCall uid actorId reason))).ticketOf other id =
        if other = kind ∧ id = uid then some (ticket.cancel env.now (some reason))
        else s.ticketOf other id) ∧
      (kind = .deposit → (step s (.call env (kind.cancelCall uid actorId reason))).withdrawTickets =
        s.withdrawTickets) := by
  have hstep := (takes_of_succeeds hs hok).1
  generalize step s (.call env (kind.cancelCall uid actorId reason)) = s' at hstep ⊢
  cases kind with
  | deposit =>
      cases hstep with
      | quiet hquiet => exact absurd hquiet id
      | betResolved hcall => rcases hcall with ⟨_, hcall⟩ | ⟨_, hcall, -⟩ <;> cases hcall
      | @depositCancelled _ _ ticket _ _ hold hstatus hl' =>
          have hold : s.depositTickets.get? uid = some ticket := hold
          have hdeposits : s'.depositTickets = s.depositTickets.set uid _ :=
            congrArg Ledger.deposits hl'
          have hwithdraws : s'.withdrawTickets = s.withdrawTickets := congrArg Ledger.withdraws hl'
          refine ⟨ticket, hold, hstatus, fun other id => ?_, fun _ => hwithdraws⟩
          cases other with
          | deposit =>
              simp only [Database.ticketOf, hdeposits, Table.get?_set, true_and]
              split
              next => rw [hold, Option.map_some]
              next => rfl
          | withdraw => simp [Database.ticketOf, hwithdraws]
  | withdraw =>
      cases hstep with
      | quiet hquiet => exact absurd hquiet id
      | betResolved hcall => rcases hcall with ⟨_, hcall⟩ | ⟨_, hcall, -⟩ <;> cases hcall
      | @withdrawCancelled _ _ w _ _ hold hstatus hl' =>
          have hold : s.withdrawTickets.get? uid = some w := hold
          have hdeposits : s'.depositTickets = s.depositTickets := congrArg Ledger.deposits hl'
          have hwithdraws : s'.withdrawTickets = s.withdrawTickets.set uid _ :=
            congrArg Ledger.withdraws hl'
          refine ⟨w.toTicket, by rw [Database.ticketOf, hold, Option.map_some], hstatus,
            fun other id => ?_, fun hdeposit => TicketType.noConfusion hdeposit⟩
          cases other with
          | deposit => simp [Database.ticketOf, hdeposits]
          | withdraw =>
              simp only [Database.ticketOf, hwithdraws, Table.get?_set, true_and]
              split
              next => rw [hold, Option.map_some, Option.map_some]
              next => rfl

/-- A ticket that is final refuses a cancellation. -/
theorem cancelCall_final (hticket : s.ticketOf kind uid = some ticket)
    (hfinal : ticket.status.Terminal) (actorId : Int) (reason : String) {e : DbError}
    (herror : ((kind.cancelCall uid actorId reason).exec env s).1 = .error e) :
    e = .ticketAlreadyTerminal ticket.status := by
  have hwp : wp (callBody env (kind.cancelCall uid actorId reason)) (fun _ _ => True)
      (· = .ticketAlreadyTerminal ticket.status) s := by
    cases kind with
    | deposit =>
        have hticket : s.depositTickets.get? uid = some ticket := hticket
        simp only [TicketType.cancelCall, callBody, cancelDeposit, wp_bind, wp_get, wp_require,
          wp_raiseIf, Table.select_some, hticket]
        simp [hfinal]
    | withdraw =>
        obtain ⟨w, hw, rfl⟩ := Option.map_eq_some_iff.mp hticket
        simp only [TicketType.cancelCall, callBody, cancelWithdraw, wp_bind, wp_get, wp_require,
          wp_raiseIf, Table.select_some, hw]
        simp [hfinal]
  exact transact_raises _ hwp herror

/-! ## Cancelling what has expired -/

/-- From `s` to `s'` some tickets were cancelled, all of them expired. -/
def Database.TimesOut (now : TicketType → Timestamp) (s s' : Database) : Prop :=
  ∀ kind uid, s'.ticketOf kind uid = s.ticketOf kind uid ∨
    ∃ ticket at_ reason, s.ticketOf kind uid = some ticket ∧ ticket.Expired (now kind) ∧
      s'.ticketOf kind uid = some (ticket.cancel at_ reason)

/-- The call cancels a ticket that is expired in `s`. -/
def Command.CancelsExpired (now : TicketType → Timestamp) (s : Database) (command : Command) :
    Prop :=
  ∃ kind uid env actorId reason ticket, command = .call env (kind.cancelCall uid actorId reason) ∧
    s.ticketOf kind uid = some ticket ∧ ticket.Expired (now kind)

theorem not_expired_cancel (ticket : Ticket) (at_ : Timestamp) (reason : Option String)
    (now : Timestamp) : ¬ (ticket.cancel at_ reason).Expired now :=
  fun hexpired => hexpired.pending (.inr (.inl rfl))

section TimesOut

variable {dueAt : TicketType → Timestamp}

theorem Database.TimesOut.refl (dueAt : TicketType → Timestamp) (s : Database) :
    s.TimesOut dueAt s := fun _ _ => .inl rfl

/-- What is still expired has not been touched. -/
theorem Database.TimesOut.expired (h : s.TimesOut dueAt s')
    (hticket : s'.ticketOf kind uid = some ticket) (hpending : ¬ ticket.status.Terminal) :
    s.ticketOf kind uid = some ticket := by
  rcases h kind uid with hsame | ⟨old, at_, reason, -, -, hcancelled⟩
  · rw [← hsame, hticket]
  · rw [hcancelled, Option.some.injEq] at hticket
    exact absurd (.inr (.inl (hticket ▸ rfl))) hpending

theorem Database.TimesOut.step (hs' : s'.WellFormed) (h : s.TimesOut dueAt s') {command : Command}
    (hcommand : command.CancelsExpired dueAt s) : s.TimesOut dueAt (step s' command) := by
  obtain ⟨kind, uid, env, actorId, reason, ticket, rfl, hticket, hexpired⟩ := hcommand
  by_cases hok : (kind.cancelCall uid actorId reason).Succeeds env s'
  · obtain ⟨old, hold, hpending, hchanges, -⟩ := cancelCall_changes hs' hok
    have hsame := h.expired hold hpending
    rw [hticket, Option.some.injEq] at hsame
    subst hsame
    intro other id
    rw [hchanges]
    split
    next heq =>
      obtain ⟨rfl, rfl⟩ := heq
      exact .inr ⟨ticket, _, _, hticket, hexpired, rfl⟩
    next => exact h other id
  · obtain ⟨atError, heq⟩ := step_of_fails hok
    rw [heq]
    exact h

theorem Command.CancelsExpired.settles {command : Command}
    (hcommand : command.CancelsExpired dueAt s) : command.Settles := by
  obtain ⟨kind, uid, env, actorId, reason, ticket, rfl, -⟩ := hcommand
  cases kind <;> trivial

/-- The row of a withdraw before and after. -/
theorem Database.TimesOut.withdraw (h : s.TimesOut dueAt s') (hsettled : s.Settled s')
    (uid : String) :
    s.withdrawTickets.get? uid = none ∧ s'.withdrawTickets.get? uid = none ∨
      ∃ w w', s.withdrawTickets.get? uid = some w ∧ s'.withdrawTickets.get? uid = some w' ∧
        w'.fee = w.fee ∧ (w'.toTicket = w.toTicket ∨ w.toTicket.Expired (dueAt .withdraw) ∧
          ∃ at_ reason, w'.toTicket = w.toTicket.cancel at_ reason) := by
  cases hw : s.withdrawTickets.get? uid with
  | none =>
      have hnone := hsettled.absent .withdraw uid (Option.map_eq_none_iff.mpr hw)
      exact .inl ⟨rfl, Option.map_eq_none_iff.mp hnone⟩
  | some w =>
      obtain ⟨w', hw', hfee⟩ := hsettled.fee uid w hw
      refine .inr ⟨w, w', rfl, hw', hfee, ?_⟩
      rcases h .withdraw uid with hsame | ⟨old, at_, reason, hold, hexpired, hcancelled⟩
      · simp only [Database.ticketOf, hw, hw', Option.map_some, Option.some.injEq] at hsame
        exact .inl hsame
      · simp only [Database.ticketOf, hw, hw', Option.map_some, Option.some.injEq]
          at hold hcancelled
        subst hold
        exact .inr ⟨hexpired, at_, reason, hcancelled⟩

/-- What tickets have paid and still owe to a user. -/
theorem Database.TimesOut.paidOut (h : s.TimesOut dueAt s') (hsettled : s.Settled s')
    (user : Int) :
    s'.paidOut user + s'.owed (dueAt .withdraw) user =
      s.paidOut user + s.owed (dueAt .withdraw) user := by
  have hdeposits : (s'.depositTickets.sum fun _ ticket => ticket.creditTo user) =
      s.depositTickets.sum fun _ ticket => ticket.creditTo user := by
    refine Table.sum_congr fun uid => ?_
    rcases h .deposit uid with hsame | ⟨old, at_, reason, hold, hexpired, hcancelled⟩
    · have hsame : s'.depositTickets.get? uid = s.depositTickets.get? uid := hsame
      rw [Table.term, Table.term, hsame]
    · rw [Table.term_of_get? hold, Table.term_of_get? hcancelled,
        Ticket.creditTo_of_unconfirmed (fun hstatus => hexpired.pending (.inl hstatus)),
        Ticket.creditTo_of_unconfirmed (by simp)]
  have hwithdraws : (s'.withdrawTickets.sum fun _ w => w.repayTo user) +
        s'.owed (dueAt .withdraw) user =
      (s.withdrawTickets.sum fun _ w => w.repayTo user) + s.owed (dueAt .withdraw) user := by
    refine Table.sum_add_sum_congr fun uid => ?_
    rcases h.withdraw hsettled uid with ⟨hnone, hnone'⟩ |
      ⟨w, w', hw, hw', hfee, hsame | ⟨hexpired, at_, reason, hcancelled⟩⟩
    · simp only [Table.term_of_none hnone, Table.term_of_none hnone']
    · simp only [Table.term_of_get? hw, Table.term_of_get? hw', WithdrawTicket.repayTo,
        WithdrawTicket.owedTo, hsame, hfee]
    · simp only [Table.term_of_get? hw, Table.term_of_get? hw']
      rw [WithdrawTicket.repayTo_of_pending hexpired.pending]
      simp [WithdrawTicket.repayTo, WithdrawTicket.owedTo, hcancelled, hexpired,
        not_expired_cancel]
  rw [Database.paidOut, Database.paidOut, hdeposits]
  omega

/-- What tickets hold beyond what they owe. -/
theorem Database.TimesOut.escrow (h : s.TimesOut dueAt s') (hsettled : s.Settled s')
    (user : Int) :
    s'.escrow user + s.owed (dueAt .withdraw) user =
      s.escrow user + s'.owed (dueAt .withdraw) user := by
  have hwithdraws : (s'.withdrawTickets.sum fun _ w => w.heldFrom user) +
        s.owed (dueAt .withdraw) user =
      (s.withdrawTickets.sum fun _ w => w.heldFrom user) + s'.owed (dueAt .withdraw) user := by
    refine Table.sum_add_sum_congr fun uid => ?_
    rcases h.withdraw hsettled uid with ⟨hnone, hnone'⟩ |
      ⟨w, w', hw, hw', -, hsame | ⟨hexpired, at_, reason, hcancelled⟩⟩
    · simp only [Table.term_of_none hnone, Table.term_of_none hnone']
    · simp only [Table.term_of_get? hw, Table.term_of_get? hw', WithdrawTicket.heldFrom,
        WithdrawTicket.owedTo, hsame]
    · simp only [Table.term_of_get? hw, Table.term_of_get? hw']
      rw [WithdrawTicket.heldFrom_of_pending hexpired.1]
      simp [WithdrawTicket.heldFrom, WithdrawTicket.owedTo, hcancelled, hexpired,
        not_expired_cancel]
  rw [Database.escrow, Database.escrow, hsettled.bets]
  omega

/-- Nothing is owed when nothing is expired. -/
theorem owed_eq_zero (hnone : ∀ uid ticket, s.ticketOf .withdraw uid = some ticket →
    ¬ ticket.Expired now) (user : Int) : s.owed now user = 0 := by
  refine Table.sum_eq_zero fun uid w hw => if_neg fun howed => ?_
  exact hnone uid w.toTicket (Option.map_eq_some_iff.mpr ⟨w, hw, rfl⟩) howed.2

/-- An expired withdraw is part of what is owed to its owner. -/
theorem amount_le_owed {w : WithdrawTicket} (hw : s.withdrawTickets.get? uid = some w)
    (hexpired : w.toTicket.Expired now) : w.amount ≤ s.owed now w.discordId := by
  have hpart := Table.le_sum_of_get? (f := fun _ w' => w'.owedTo now w.discordId)
    (fun _ w' _ => ?_) hw
  · simpa [Database.owed, WithdrawTicket.owedTo, hexpired] using hpart
  · rw [WithdrawTicket.owedTo]
    split
    · exact w'.amount_pos.le
    · exact le_rfl

/-- The refunds of a user's expired withdraws fit the user's balance. -/
def Database.RefundsFit (s : Database) (now : Timestamp) : Prop :=
  ∀ user, InBigint (s.balanceOf user + s.owed now user)

theorem Database.TimesOut.refundsFit (h : s.TimesOut dueAt s') (hsettled : s.Settled s')
    (hfit : s.RefundsFit (dueAt .withdraw)) : s'.RefundsFit (dueAt .withdraw) := by
  intro user
  have hpaid := hsettled.paid user
  have hsum := h.paidOut hsettled user
  have hsame : s'.balanceOf user + s'.owed (dueAt .withdraw) user =
      s.balanceOf user + s.owed (dueAt .withdraw) user := by omega
  exact hsame ▸ hfit user

theorem Database.TimesOut.fits (h : s.TimesOut dueAt s') (hsettled : s.Settled s')
    (hfit : s.RefundsFit (dueAt .withdraw)) {w : WithdrawTicket}
    (hw : s'.withdrawTickets.get? uid = some w) (hexpired : w.toTicket.Expired (dueAt .withdraw)) :
    InBigint (s'.balanceOf w.discordId + w.amount) := by
  have hall := h.refundsFit hsettled hfit w.discordId
  have hpart := amount_le_owed hw hexpired
  have hbalance := balanceOf_nonneg s' w.discordId
  have hamount := w.amount_pos
  unfold InBigint at hall ⊢
  omega

end TimesOut

/-- A pending ticket of a solvent database can be cancelled if its refund fits. -/
theorem Database.Solvent.canCancel (hs : s.Solvent) (hticket : s.ticketOf kind uid = some ticket)
    (hpending : ¬ ticket.status.Terminal) (hkey : ∃ key, env.chainKey = .ok key)
    (hfits : ∀ w, kind = .withdraw → s.withdrawTickets.get? uid = some w → w.toTicket = ticket →
      InBigint (s.balanceOf w.discordId + w.amount)) : s.CanCancel env kind ticket := by
  cases kind with
  | deposit => exact ⟨hkey, nofun, nofun⟩
  | withdraw =>
      obtain ⟨w, hw, rfl⟩ := Option.map_eq_some_iff.mp hticket
      have hbacked := backed_of_explained hs.explained hs.stakes
      exact ⟨hkey, fun _ => hbacked.withdraw uid w hw hpending, fun _ => hfits w rfl hw rfl⟩

end DeathRoll
