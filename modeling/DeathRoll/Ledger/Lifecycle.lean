import DeathRoll.Ledger.Runs

/-! # Ticket lifecycle

One step of the ledger moves one ticket along an edge of the status machine or
leaves it alone. From that: which statuses and columns go together in every
reachable state, and that a confirmed or cancelled ticket never changes.
-/

namespace DeathRoll

open Relational

/-- The edges of the status machine. -/
inductive TicketStatus.Edge : TicketStatus → TicketStatus → Prop
  | claim : Edge .open .claimed
  | release : Edge .claimed .open
  | confirm : Edge .claimed .confirmed
  | cancelOpen : Edge .open .cancelled
  | cancelClaimed : Edge .claimed .cancelled

/-- The call that claims a ticket. -/
def TicketType.claimCall (kind : TicketType) (uid : String) (cashier : Int) : Call :=
  .claimTicket (some kind.text) (some uid) (some cashier)

/-- The call that confirms a ticket. -/
def TicketType.confirmCall (kind : TicketType) (uid : String) (cashier : Int) : Call :=
  match kind with
  | .deposit => .confirmDeposit (some uid) (some cashier)
  | .withdraw => .confirmWithdraw (some uid) (some cashier)

theorem claimCall_eq (kind : TicketType) (uid : String) (cashier : Int) :
    kind.claimCall uid cashier = .claimTicket (some kind.text) (some uid) (some cashier) := rfl

theorem TicketType.text_injective : Function.Injective TicketType.text := by
  intro kind kind' htext
  cases kind <;> cases kind' <;> simp_all [TicketType.text]

theorem confirmCall_ne_claimCall {kind kind' : TicketType} {uid uid' : String}
    {cashier cashier' : Int} : kind.confirmCall uid cashier ≠ kind'.claimCall uid' cashier' := by
  cases kind <;> simp [TicketType.confirmCall, claimCall_eq]

/-- A call claims one ticket, for one cashier. -/
theorem claimCall_inj {kind kind' : TicketType} {uid uid' : String} {cashier cashier' : Int}
    (hcall : kind.claimCall uid cashier = kind'.claimCall uid' cashier') :
    (kind, uid) = (kind', uid') ∧ cashier = cashier' := by
  simp only [claimCall_eq, Call.claimTicket.injEq, Option.some.injEq] at hcall
  exact ⟨Prod.ext (TicketType.text_injective hcall.1) hcall.2.1, hcall.2.2⟩

/-- What a call that returns can do to the ticket of a kind and uid. -/
inductive Ticket.Move (now : Timestamp) (kind : TicketType) (uid : String) (call : Call)
    (ticket : Ticket) : Ticket → Prop
  | stay (hcall : ∀ cashier, call ≠ kind.claimCall uid cashier) :
      Move now kind uid call ticket ticket
  | claim (cashier : Int) (hcall : call = kind.claimCall uid cashier)
      (hstatus : ticket.status = .open) :
      Move now kind uid call ticket (ticket.claim now (some cashier))
  | release (hcall : ∀ cashier, call ≠ kind.claimCall uid cashier)
      (hstatus : ticket.status = .claimed) : Move now kind uid call ticket (ticket.release now)
  | confirm (cashier : Int) (hcall : call = kind.confirmCall uid cashier)
      (hcashier : ∀ claimer, ticket.claimedBy = some claimer → claimer = cashier)
      (hstatus : ticket.status = .claimed) : Move now kind uid call ticket (ticket.confirm now)
  | cancel (reason : Option String) (hcall : ∀ cashier, call ≠ kind.claimCall uid cashier)
      (hstatus : ¬ ticket.status.Terminal) :
      Move now kind uid call ticket (ticket.cancel now reason)

/-- The columns of a ticket agree with its status. -/
structure Ticket.Consistent (ticket : Ticket) : Prop where
  status : ticket.status = .open ∨ ticket.status = .claimed ∨ ticket.status = .confirmed ∨
    ticket.status = .cancelled
  unclaimed : ticket.status = .open → ticket.claimedBy = none ∧ ticket.claimedAt = none
  claimed : ticket.status = .claimed ∨ ticket.status = .confirmed →
    ticket.claimedBy ≠ none ∧ ticket.claimedAt ≠ none
  confirmedAt : ticket.confirmedAt ≠ none ↔ ticket.status = .confirmed
  cancelledAt : ticket.cancelledAt ≠ none ↔ ticket.status = .cancelled

/-- The delivered amount of a withdraw ticket agrees with its status. -/
structure WithdrawTicket.Consistent (ticket : WithdrawTicket) : Prop where
  shared : ticket.toTicket.Consistent
  delivered : ticket.amountDelivered ≠ none ↔ ticket.status = .confirmed
  delivered_eq : ∀ delivered, ticket.amountDelivered = some delivered →
    delivered = ticket.amount - ticket.fee
  fee_nonneg : 0 ≤ ticket.fee

namespace Ticket

variable {now : Timestamp} {kind : TicketType} {uid : String} {call : Call}
variable {ticket ticket' : Ticket}

theorem Fresh.consistent (hfresh : ticket.Fresh) : ticket.Consistent where
  status := .inl hfresh.status
  unclaimed _ := ⟨hfresh.claimedBy, hfresh.claimedAt⟩
  claimed := by simp [hfresh.status]
  confirmedAt := by simp [hfresh.status, hfresh.confirmedAt]
  cancelledAt := by simp [hfresh.status, hfresh.cancelledAt]

/-- A move along an edge, or none. -/
theorem Move.edge (hmove : ticket.Move now kind uid call ticket') (hcons : ticket.Consistent) :
    ticket'.status = ticket.status ∨ ticket.status.Edge ticket'.status := by
  cases hmove with
  | stay hcall => exact .inl rfl
  | claim cashier hcall hstatus => exact .inr (hstatus ▸ .claim)
  | release hcall hstatus => exact .inr (hstatus ▸ .release)
  | confirm cashier hcall hcashier hstatus => exact .inr (hstatus ▸ .confirm)
  | cancel reason hcall hstatus =>
      right
      rcases hcons.status with hopen | hclaimed | hdone | hdone
      · exact hopen ▸ .cancelOpen
      · exact hclaimed ▸ .cancelClaimed
      · exact absurd (.inl hdone) hstatus
      · exact absurd (.inr (.inl hdone)) hstatus

theorem Move.terminal (hmove : ticket.Move now kind uid call ticket') (hterminal : ticket.status.Terminal) :
    ticket' = ticket := by
  cases hmove with
  | stay hcall => rfl
  | cancel reason hcall hstatus => exact absurd hterminal hstatus
  | _ => simp_all [TicketStatus.Terminal]

theorem Move.amount (hmove : ticket.Move now kind uid call ticket') : ticket'.amount = ticket.amount := by
  cases hmove <;> rfl

theorem Move.discordId (hmove : ticket.Move now kind uid call ticket') :
    ticket'.discordId = ticket.discordId := by
  cases hmove <;> rfl

theorem Consistent.claim (hcons : ticket.Consistent) (hstatus : ticket.status = .open)
    (now : Timestamp) (cashier : Int) : (ticket.claim now (some cashier)).Consistent := by
  refine ⟨by simp [Ticket.claim], by simp [Ticket.claim], by simp [Ticket.claim], ?_, ?_⟩
  · simpa [Ticket.claim, hstatus] using hcons.confirmedAt
  · simpa [Ticket.claim, hstatus] using hcons.cancelledAt

theorem Consistent.release (hcons : ticket.Consistent) (hstatus : ticket.status = .claimed)
    (now : Timestamp) : (ticket.release now).Consistent := by
  refine ⟨by simp [Ticket.release], by simp [Ticket.release], by simp [Ticket.release], ?_, ?_⟩
  · simpa [Ticket.release, hstatus] using hcons.confirmedAt
  · simpa [Ticket.release, hstatus] using hcons.cancelledAt

theorem Consistent.confirm (hcons : ticket.Consistent) (hstatus : ticket.status = .claimed)
    (now : Timestamp) : (ticket.confirm now).Consistent := by
  refine ⟨by simp [Ticket.confirm], by simp [Ticket.confirm],
    fun _ => hcons.claimed (.inl hstatus), by simp [Ticket.confirm], ?_⟩
  simpa [Ticket.confirm, hstatus] using hcons.cancelledAt

theorem Consistent.cancel (hcons : ticket.Consistent) (hstatus : ¬ ticket.status.Terminal)
    (now : Timestamp) (reason : Option String) : (ticket.cancel now reason).Consistent := by
  refine ⟨by simp [Ticket.cancel], by simp [Ticket.cancel], by simp [Ticket.cancel], ?_,
    by simp [Ticket.cancel]⟩
  have hnot : ticket.status ≠ .confirmed := fun hconfirmed => hstatus (.inl hconfirmed)
  have hnone := mt hcons.confirmedAt.mp hnot
  simpa [Ticket.cancel] using hnone

theorem Move.consistent (hmove : ticket.Move now kind uid call ticket') (hcons : ticket.Consistent) :
    ticket'.Consistent := by
  cases hmove with
  | stay hcall => exact hcons
  | claim cashier hcall hstatus => exact hcons.claim hstatus now cashier
  | release hcall hstatus => exact hcons.release hstatus now
  | confirm cashier hcall hcashier hstatus => exact hcons.confirm hstatus now
  | cancel reason hcall hstatus => exact hcons.cancel hstatus now reason

end Ticket

/-! ## One step -/

namespace Ledger

variable {now : Timestamp} {l l' : Ledger} {call : Call} {uid : String}

/-- What one step can do to a withdraw ticket: a shared move, and the delivered
amount is written exactly when it is confirmed. -/
structure WithdrawMove (now : Timestamp) (uid : String) (call : Call)
    (ticket ticket' : WithdrawTicket) : Prop where
  move : ticket.toTicket.Move now .withdraw uid call ticket'.toTicket
  fee : ticket'.fee = ticket.fee
  delivered : ticket'.amountDelivered = ticket.amountDelivered ∧
      (ticket'.status = .confirmed → ticket.status = .confirmed) ∨
    ticket.status = .claimed ∧ ticket'.status = .confirmed ∧
      ticket'.amountDelivered = some (ticket.amount - ticket.fee)

theorem WithdrawMove.stay {now : Timestamp} {uid : String} {call : Call} {ticket : WithdrawTicket}
    (hcall : ∀ cashier, call ≠ TicketType.withdraw.claimCall uid cashier) :
    WithdrawMove now uid call ticket ticket :=
  ⟨.stay hcall, rfl, .inl ⟨rfl, id⟩⟩

private theorem get?_set_move {κ ρ : Type} [DecidableEq κ] {t : Table κ ρ} {move : ρ → ρ → Prop}
    {key k : κ} {old new row : ρ} (hold : t.get? key = some old) (hmove : k = key → move old new)
    (hstay : k ≠ key → move row row) (hrow : t.get? k = some row) :
    ∃ row', (t.set key new).get? k = some row' ∧ move row row' := by
  rw [Table.get?_set]
  split
  next heq =>
    subst heq
    obtain rfl := Option.some.inj (hold.symm.trans hrow)
    exact ⟨new, by rw [hold, Option.map_some], hmove rfl⟩
  next hne => exact ⟨row, hrow, hstay hne⟩

theorem Step.deposit_moves (hstep : Step now l call l') {ticket : Ticket}
    (hticket : l.deposits.get? uid = some ticket) :
    ∃ ticket', l'.deposits.get? uid = some ticket' ∧
      ticket.Move now .deposit uid call ticket' := by
  cases hstep with
  | quiet hquiet hl' =>
      subst hl'
      exact ⟨ticket, hticket, .stay fun cashier hcall => by subst hcall; exact hquiet⟩
  | depositOpened hnew hfresh hl' =>
      subst hl'
      exact ⟨ticket, Table.get?_insertNew_of_some hticket _ _, .stay (by simp [claimCall_eq])⟩
  | depositClaimed hold hstatus hl' =>
      subst hl'
      refine get?_set_move hold ?_ (fun hne => .stay ?_) hticket
      · rintro rfl
        exact .claim _ rfl hstatus
      · simp [claimCall_eq, Ne.symm hne]
  | depositReleased hold hstatus hl' =>
      subst hl'
      exact get?_set_move hold (fun _ => .release (by simp [claimCall_eq]) hstatus)
        (fun _ => .stay (by simp [claimCall_eq])) hticket
  | depositConfirmed hold hstatus hcashier hl' =>
      subst hl'
      refine get?_set_move hold ?_ (fun _ => .stay (by simp [claimCall_eq])) hticket
      rintro rfl
      exact .confirm _ rfl hcashier hstatus
  | depositCancelled hold hstatus hl' =>
      subst hl'
      exact get?_set_move hold (fun _ => .cancel _ (by simp [claimCall_eq]) hstatus)
        (fun _ => .stay (by simp [claimCall_eq])) hticket
  | betResolved hcall hget hopen hcredit hclosed howner hperiod hl' =>
      subst hl'
      refine ⟨ticket, hticket, .stay fun cashier => ?_⟩
      rcases hcall with ⟨_, rfl⟩ | ⟨_, rfl, -⟩ <;> simp [claimCall_eq]
  | _ =>
      subst_vars
      exact ⟨ticket, hticket, .stay (by simp [claimCall_eq, TicketType.text])⟩

theorem Step.withdraw_moves (hstep : Step now l call l') {ticket : WithdrawTicket}
    (hticket : l.withdraws.get? uid = some ticket) :
    ∃ ticket', l'.withdraws.get? uid = some ticket' ∧
      WithdrawMove now uid call ticket ticket' := by
  cases hstep with
  | quiet hquiet hl' =>
      subst hl'
      exact ⟨ticket, hticket, .stay fun cashier hcall => by subst hcall; exact hquiet⟩
  | withdrawOpened hnew hfresh hdelivered hl' =>
      subst hl'
      exact ⟨ticket, Table.get?_insertNew_of_some hticket _ _, .stay (by simp [claimCall_eq])⟩
  | withdrawClaimed hold hstatus hl' =>
      subst hl'
      refine get?_set_move hold ?_ (fun hne => .stay ?_) hticket
      · rintro rfl
        exact ⟨.claim _ rfl hstatus, rfl, .inl ⟨rfl, by simp [Ticket.claim]⟩⟩
      · simp [claimCall_eq, Ne.symm hne]
  | withdrawReleased hold hstatus hl' =>
      subst hl'
      exact get?_set_move hold
        (fun _ => ⟨.release (by simp [claimCall_eq]) hstatus, rfl,
          .inl ⟨rfl, by simp [Ticket.release]⟩⟩)
        (fun _ => .stay (by simp [claimCall_eq])) hticket
  | withdrawConfirmed hold hstatus hcashier hl' =>
      subst hl'
      refine get?_set_move hold ?_ (fun _ => .stay (by simp [claimCall_eq])) hticket
      rintro rfl
      exact ⟨.confirm _ rfl hcashier hstatus, rfl, .inr ⟨hstatus, rfl, rfl⟩⟩
  | withdrawCancelled hold hstatus hl' =>
      subst hl'
      exact get?_set_move hold
        (fun _ => ⟨.cancel _ (by simp [claimCall_eq]) hstatus, rfl,
          .inl ⟨rfl, by simp [Ticket.cancel]⟩⟩)
        (fun _ => .stay (by simp [claimCall_eq])) hticket
  | betResolved hcall hget hopen hcredit hclosed howner hperiod hl' =>
      subst hl'
      refine ⟨ticket, hticket, .stay fun cashier => ?_⟩
      rcases hcall with ⟨_, rfl⟩ | ⟨_, rfl, -⟩ <;> simp [claimCall_eq]
  | _ =>
      subst_vars
      exact ⟨ticket, hticket, .stay (by simp [claimCall_eq, TicketType.text])⟩

/-- A ticket that appears is untouched. -/
theorem Step.deposit_origin (hstep : Step now l call l') {ticket : Ticket}
    (hnone : l.deposits.get? uid = none) (hticket : l'.deposits.get? uid = some ticket) :
    ticket.Fresh := by
  have hset : ∀ {key : String} {new : Ticket}, (l.deposits.set key new).get? uid = none := by
    intro key new
    rw [Table.get?_set]
    split
    next heq => rw [← heq, hnone, Option.map_none]
    next => exact hnone
  cases hstep with
  | depositOpened hnew hfresh hl' =>
      subst hl'
      simp only [Table.get?_insertNew] at hticket
      split at hticket
      next =>
        rw [hnew, Option.getD_none, Option.some.injEq] at hticket
        exact hticket ▸ hfresh
      next => simp [hnone] at hticket
  | depositClaimed hold hstatus hl' => subst hl'; simp [hset] at hticket
  | depositReleased hold hstatus hl' => subst hl'; simp [hset] at hticket
  | depositConfirmed hold hstatus hcashier hl' => subst hl'; simp [hset] at hticket
  | depositCancelled hold hstatus hl' => subst hl'; simp [hset] at hticket
  | _ =>
      subst_vars
      simp [hnone] at hticket

theorem Step.withdraw_origin (hstep : Step now l call l') {ticket : WithdrawTicket}
    (hnone : l.withdraws.get? uid = none) (hticket : l'.withdraws.get? uid = some ticket) :
    ticket.Fresh ∧ ticket.amountDelivered = none := by
  have hset : ∀ {key : String} {new : WithdrawTicket},
      (l.withdraws.set key new).get? uid = none := by
    intro key new
    rw [Table.get?_set]
    split
    next heq => rw [← heq, hnone, Option.map_none]
    next => exact hnone
  cases hstep with
  | withdrawOpened hnew hfresh hdelivered hl' =>
      subst hl'
      simp only [Table.get?_insertNew] at hticket
      split at hticket
      next =>
        rw [hnew, Option.getD_none, Option.some.injEq] at hticket
        exact hticket ▸ ⟨hfresh, hdelivered⟩
      next => simp [hnone] at hticket
  | withdrawClaimed hold hstatus hl' => subst hl'; simp [hset] at hticket
  | withdrawReleased hold hstatus hl' => subst hl'; simp [hset] at hticket
  | withdrawConfirmed hold hstatus hcashier hl' => subst hl'; simp [hset] at hticket
  | withdrawCancelled hold hstatus hl' => subst hl'; simp [hset] at hticket
  | _ =>
      subst_vars
      simp [hnone] at hticket

theorem WithdrawMove.consistent {ticket ticket' : WithdrawTicket}
    (hmove : WithdrawMove now uid call ticket ticket') (hcons : ticket.Consistent) : ticket'.Consistent := by
  have hamount := hmove.move.amount
  refine ⟨hmove.move.consistent hcons.shared, ?_, ?_, by rw [hmove.fee]; exact hcons.fee_nonneg⟩
  · rcases hmove.delivered with ⟨hsame, hback⟩ | ⟨-, hconfirmed, hwritten⟩
    · rw [hsame, hcons.delivered]
      refine ⟨fun hconfirmed => ?_, hback⟩
      rw [hmove.move.terminal (.inl hconfirmed), hconfirmed]
    · simp [hwritten, hconfirmed]
  · intro delivered hdelivered
    rcases hmove.delivered with ⟨hsame, -⟩ | ⟨-, -, hwritten⟩
    · rw [hsame] at hdelivered
      rw [hamount, hmove.fee, hcons.delivered_eq delivered hdelivered]
    · rw [hwritten, Option.some.injEq] at hdelivered
      rw [hamount, hmove.fee, hdelivered]

/-- A confirmed or cancelled withdraw ticket is left alone. -/
theorem WithdrawMove.terminal {ticket ticket' : WithdrawTicket}
    (hmove : WithdrawMove now uid call ticket ticket') (hterminal : ticket.status.Terminal) :
    ticket' = ticket := by
  have hshared := hmove.move.terminal hterminal
  have hdelivered : ticket'.amountDelivered = ticket.amountDelivered := by
    rcases hmove.delivered with ⟨hsame, -⟩ | ⟨hclaimed, -⟩
    · exact hsame
    · simp [TicketStatus.Terminal, hclaimed] at hterminal
  have hfee := hmove.fee
  cases ticket
  cases ticket'
  simp_all

/-- A dispute keeps its ticket, and only `dw.open_dispute` brings a new one. -/
theorem Step.dispute_origin (hstep : Step now l call l')
    (hcall : ∀ t u o e r, call ≠ .openDispute t u o e r) {id : Int} {dispute : Dispute}
    (hdispute : l'.disputes.get? id = some dispute) :
    ∃ old, l.disputes.get? id = some old ∧ dispute.ticketType = old.ticketType ∧
      dispute.ticketUid = old.ticketUid := by
  have hclosed : ∀ {key : Int} {old new : Dispute}, l.disputes.get? key = some old →
      l'.disputes = l.disputes.set key new → new.ticketType = old.ticketType →
      new.ticketUid = old.ticketUid →
      ∃ old, l.disputes.get? id = some old ∧ dispute.ticketType = old.ticketType ∧
        dispute.ticketUid = old.ticketUid := by
    intro key old new hold hl' hkind huid
    rw [hl', Table.get?_set] at hdispute
    split at hdispute
    next heq =>
      rw [hold, Option.map_some, Option.some.injEq] at hdispute
      exact ⟨old, heq ▸ hold, hdispute ▸ hkind, hdispute ▸ huid⟩
    next => exact ⟨dispute, hdispute, rfl, rfl⟩
  cases hstep with
  | disputeOpened hnew hunique hstatus hl' => exact absurd rfl (hcall _ _ _ _ _)
  | disputeRejected hold hstatus hl' =>
      exact hclosed hold (congrArg Ledger.disputes hl') rfl rfl
  | disputeDismissed hold hstatus haction hl' =>
      exact hclosed hold (congrArg Ledger.disputes hl') rfl rfl
  | disputeRefunded hold hstatus haction huser hl' =>
      exact hclosed hold (congrArg Ledger.disputes hl') rfl rfl
  | _ =>
      subst_vars
      exact ⟨dispute, hdispute, rfl, rfl⟩

end Ledger

/-! ## Runs -/

/-- The shared columns of the ticket of a kind and uid. -/
def Database.ticketOf (s : Database) (kind : TicketType) (uid : String) : Option Ticket :=
  match kind with
  | .deposit => s.depositTickets.get? uid
  | .withdraw => (s.withdrawTickets.get? uid).map WithdrawTicket.toTicket

/-- The cashier of a step that claims the ticket of a kind and uid. -/
def claimOf (kind : TicketType) (uid : String) (taken : Database × Command) : Option Int :=
  match taken.2 with
  | .call env (.claimTicket (some k) (some u) (some cashier)) =>
      if k = kind.text ∧ u = uid ∧ (kind.claimCall uid cashier).Succeeds env taken.1 then
        some cashier
      else none
  | _ => none

section Run

variable {s : Database} {kind : TicketType} {uid : String} {ticket : Ticket}

/-- What one command does to a ticket: nothing, or a move. -/
theorem step_ticketOf (hs : s.WellFormed) (command : Command)
    (hticket : s.ticketOf kind uid = some ticket) :
    ∃ ticket', (step s command).ticketOf kind uid = some ticket' ∧
      ((∃ env call, command = .call env call ∧ call.Succeeds env s ∧
          ticket.Move env.now kind uid call ticket') ∨
        ¬ command.Returns s ∧ ticket' = ticket) := by
  rcases ledger_command hs command with ⟨env, call, rfl, hok, hstep⟩ | ⟨hidle, hsame⟩
  · cases kind with
    | deposit =>
        obtain ⟨ticket', hticket', hmove⟩ := hstep.deposit_moves hticket
        exact ⟨ticket', hticket', .inl ⟨env, call, rfl, hok, hmove⟩⟩
    | withdraw =>
        obtain ⟨w, hw, rfl⟩ := Option.map_eq_some_iff.mp hticket
        obtain ⟨w', hw', hmove⟩ := hstep.withdraw_moves hw
        exact ⟨w'.toTicket, Option.map_eq_some_iff.mpr ⟨w', hw', rfl⟩,
          .inl ⟨env, call, rfl, hok, hmove.move⟩⟩
  · refine ⟨ticket, ?_, .inr ⟨hidle, rfl⟩⟩
    have hdeposits : (step s command).depositTickets = s.depositTickets := hsame.deposits
    have hwithdraws : (step s command).withdrawTickets = s.withdrawTickets := hsame.withdraws
    rw [← hticket]
    simp only [Database.ticketOf, hdeposits, hwithdraws]

/-- What one command does to a withdraw ticket: nothing, or a move. -/
theorem step_withdraw (hs : s.WellFormed) (command : Command) {w : WithdrawTicket}
    (hw : s.withdrawTickets.get? uid = some w) :
    ∃ w', (step s command).withdrawTickets.get? uid = some w' ∧
      ((∃ env call, command = .call env call ∧ Ledger.WithdrawMove env.now uid call w w') ∨
        w' = w) := by
  rcases ledger_command hs command with ⟨env, call, rfl, hok, hstep⟩ | ⟨hidle, hsame⟩
  · obtain ⟨w', hw', hmove⟩ := hstep.withdraw_moves hw
    exact ⟨w', hw', .inl ⟨env, call, rfl, hmove⟩⟩
  · have hwithdraws : (step s command).withdrawTickets = s.withdrawTickets := hsame.withdraws
    exact ⟨w, by rw [hwithdraws, hw], .inr rfl⟩

/-- A ticket that a command brings into the database is untouched. -/
theorem step_ticketOf_new (hs : s.WellFormed) (command : Command)
    (hnone : s.ticketOf kind uid = none)
    (hticket : (step s command).ticketOf kind uid = some ticket) : ticket.Fresh := by
  rcases ledger_command hs command with ⟨env, call, rfl, hok, hstep⟩ | ⟨hidle, hsame⟩
  · cases kind with
    | deposit => exact hstep.deposit_origin hnone hticket
    | withdraw =>
        obtain ⟨w, hw, rfl⟩ := Option.map_eq_some_iff.mp hticket
        exact (hstep.withdraw_origin (Option.map_eq_none_iff.mp hnone) hw).1
  · have hdeposits : (step s command).depositTickets = s.depositTickets := hsame.deposits
    have hwithdraws : (step s command).withdrawTickets = s.withdrawTickets := hsame.withdraws
    cases kind <;> simp_all [Database.ticketOf]

/-! ### Invariants -/

/-- Every ticket's columns agree with its status. -/
structure Database.TicketsConsistent (s : Database) : Prop where
  shared : ∀ kind uid ticket, s.ticketOf kind uid = some ticket → ticket.Consistent
  withdraw : ∀ uid w, s.withdrawTickets.get? uid = some w → w.Consistent

theorem ticketsConsistent_step (hs : s.WellFormed) (hcons : s.TicketsConsistent)
    (command : Command) : (step s command).TicketsConsistent := by
  have hwithdraw : ∀ uid w, (step s command).withdrawTickets.get? uid = some w → w.Consistent := by
    intro uid w hw
    cases hold : s.withdrawTickets.get? uid with
    | none =>
        rcases ledger_command hs command with ⟨env, call, rfl, hok, hstep⟩ | ⟨hidle, hsame⟩
        · obtain ⟨hfresh, hdelivered⟩ := hstep.withdraw_origin hold hw
          refine ⟨hfresh.consistent, ?_, by simp [hdelivered], w.fee_nonneg⟩
          simp [hdelivered, hfresh.status]
        · have hwithdraws : (step s command).withdrawTickets = s.withdrawTickets :=
            hsame.withdraws
          simp [hwithdraws, hold] at hw
    | some old =>
        obtain ⟨w', hw', hmove⟩ := step_withdraw hs command hold
        obtain rfl := Option.some.inj (hw'.symm.trans hw)
        rcases hmove with ⟨env, call, -, hmove⟩ | rfl
        · exact hmove.consistent (hcons.withdraw uid old hold)
        · exact hcons.withdraw uid _ hold
  refine ⟨fun kind uid ticket hticket => ?_, hwithdraw⟩
  cases hold : s.ticketOf kind uid with
  | none => exact (step_ticketOf_new hs command hold hticket).consistent
  | some old =>
      obtain ⟨ticket', hticket', hmove⟩ := step_ticketOf hs command hold
      obtain rfl := Option.some.inj (hticket'.symm.trans hticket)
      rcases hmove with ⟨env, call, -, -, hmove⟩ | ⟨-, rfl⟩
      · exact hmove.consistent (hcons.shared kind uid old hold)
      · exact hcons.shared kind uid _ hold

theorem ticketsConsistent_run {s₀ : Database} (h₀ : s₀.EmptyLedger) (commands : List Command) :
    (run step s₀ commands).TicketsConsistent := by
  have hstart : s₀.TicketsConsistent := by
    refine ⟨fun kind uid ticket hticket => ?_, fun uid w hw => ?_⟩
    · cases kind <;> simp [Database.ticketOf, h₀.deposits, h₀.withdraws] at hticket
    · simp [h₀.withdraws] at hw
  exact run_keeps Database.TicketsConsistent
    (fun s command hs hcons => ticketsConsistent_step hs hcons command) h₀.wellFormed hstart commands

/-- A confirmed or cancelled ticket stays as it is. -/
theorem ticketOf_final (kind : TicketType) (hs : s.WellFormed) (hterminal : ticket.status.Terminal)
    (hticket : s.ticketOf kind uid = some ticket) (later : List Command) :
    (run step s later).ticketOf kind uid = some ticket := by
  refine run_keeps (fun s => s.ticketOf kind uid = some ticket) ?_ hs hticket later
  intro s command hs hticket
  obtain ⟨ticket', hticket', hmove⟩ := step_ticketOf hs command hticket
  rcases hmove with ⟨env, call, -, -, hmove⟩ | ⟨-, rfl⟩
  · rw [hticket', hmove.terminal hterminal]
  · exact hticket'

theorem withdraw_final (hs : s.WellFormed) {w : WithdrawTicket} (hterminal : w.status.Terminal)
    (hw : s.withdrawTickets.get? uid = some w) (later : List Command) :
    (run step s later).withdrawTickets.get? uid = some w := by
  refine run_keeps (fun s => s.withdrawTickets.get? uid = some w) ?_ hs hw later
  intro s command hs hw
  obtain ⟨w', hw', hmove⟩ := step_withdraw hs command hw
  rcases hmove with ⟨env, call, -, hmove⟩ | rfl
  · rw [hw', hmove.terminal hterminal]
  · exact hw'

/-- A ticket keeps the amount it was created with. -/
theorem ticketOf_amount (hs : s.WellFormed) (hticket : s.ticketOf kind uid = some ticket)
    (later : List Command) :
    ∃ ticket', (run step s later).ticketOf kind uid = some ticket' ∧
      ticket'.amount = ticket.amount := by
  refine run_keeps
    (fun s => ∃ ticket', s.ticketOf kind uid = some ticket' ∧ ticket'.amount = ticket.amount)
    ?_ hs ⟨ticket, hticket, rfl⟩ later
  rintro s command hs ⟨old, hold, hamount⟩
  obtain ⟨ticket', hticket', hmove⟩ := step_ticketOf hs command hold
  refine ⟨ticket', hticket', ?_⟩
  rcases hmove with ⟨env, call, -, -, hmove⟩ | ⟨-, rfl⟩
  · rw [hmove.amount, hamount]
  · exact hamount

/-- A withdraw ticket keeps the fee it was created with. -/
theorem withdraw_fee (hs : s.WellFormed) {w : WithdrawTicket}
    (hw : s.withdrawTickets.get? uid = some w) (later : List Command) :
    ∃ w', (run step s later).withdrawTickets.get? uid = some w' ∧ w'.fee = w.fee := by
  refine run_keeps (fun s => ∃ w', s.withdrawTickets.get? uid = some w' ∧ w'.fee = w.fee)
    ?_ hs ⟨w, hw, rfl⟩ later
  rintro s command hs ⟨old, hold, hfee⟩
  obtain ⟨w', hw', hmove⟩ := step_withdraw hs command hold
  refine ⟨w', hw', ?_⟩
  rcases hmove with ⟨env, call, -, hmove⟩ | rfl
  · rw [hmove.fee, hfee]
  · exact hfee

/-! ### Claims -/

theorem claimOf_eq_none_of_idle {command : Command} (hidle : ¬ command.Returns s) :
    claimOf kind uid (s, command) = none := by
  unfold claimOf
  split
  next env k u cashier heq =>
    refine if_neg fun hclaim => hidle ?_
    simp only at heq
    rw [heq, hclaim.1, hclaim.2.1]
    exact hclaim.2.2
  next => rfl

theorem claimOf_eq_none {env : Env} {call : Call}
    (hcall : ∀ cashier, call ≠ kind.claimCall uid cashier) :
    claimOf kind uid (s, .call env call) = none := by
  unfold claimOf
  split
  next env' k u cashier heq =>
    refine if_neg fun hclaim => hcall cashier ?_
    simp only [Command.call.injEq] at heq
    rw [heq.2, hclaim.1, hclaim.2.1]
    rfl
  next => rfl

theorem claimOf_claimCall {env : Env} {cashier : Int}
    (hok : (kind.claimCall uid cashier).Succeeds env s) :
    claimOf kind uid (s, .call env (kind.claimCall uid cashier)) = some cashier :=
  if_pos ⟨rfl, rfl, hok⟩

end Run

/-- A deposit that is opened, claimed, confirmed and confirmed again. -/
def depositRun : List Command :=
  [.call .plain (.addCashierCharacter (some 7) (some "Bank") (some "Realm") (some "EU")
    (some "Horde")),
   .call .plain (.createDepositTicket (some 9) (some "Char") (some "Realm") (some "EU")
    (some "Horde") (some 5000) (some 1) (some 2)),
   .call .plain (.claimTicket (some "deposit") (some "deposit-1") (some 7)),
   .call .plain (.confirmDeposit (some "deposit-1") (some 7)),
   .call .plain (.confirmDeposit (some "deposit-1") (some 7))]

end DeathRoll
