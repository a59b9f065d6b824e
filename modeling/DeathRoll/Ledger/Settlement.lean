import DeathRoll.Ledger.Locked

/-! # Settling tickets

A confirmation, a cancellation or a release touches one ticket and no bet. A ticket
pays when it becomes final and never again: a deposit its amount when it is confirmed,
a withdraw the amount back when it is cancelled, or its fee to the treasury when it is
confirmed. In whatever order such calls come, the balances follow from the statuses in
which the tickets end.
-/

namespace DeathRoll

open Relational Account
open Finsupp (single)

/-- A confirmation, a cancellation or a release. -/
def Call.Settles : Call → Prop
  | .confirmDeposit .. | .cancelDeposit .. | .confirmWithdraw .. | .cancelWithdraw ..
  | .releaseTicket .. => True
  | _ => False

def Command.Settles : Command → Prop
  | .call _ c => c.Settles
  | .config _ => False

/-- What a deposit has paid into a user's balance. -/
def Ticket.creditTo (ticket : Ticket) (user : Int) : Int :=
  if ticket.discordId = user ∧ ticket.status = .confirmed then ticket.amount else 0

/-- What a withdraw has paid into a user's balance: its amount back, or its fee. -/
def WithdrawTicket.repayTo (ticket : WithdrawTicket) (user : Int) : Int :=
  (if ticket.discordId = user ∧ ticket.status = .cancelled then ticket.amount else 0) +
    if user = 0 ∧ ticket.status = .confirmed then ticket.fee else 0

/-- What the tickets have paid into a user's balance. -/
def Database.paidOut (s : Database) (user : Int) : Int :=
  (s.depositTickets.sum fun _ ticket => ticket.creditTo user) +
    s.withdrawTickets.sum fun _ ticket => ticket.repayTo user

def Ledger.paidOut (l : Ledger) (user : Int) : Int :=
  (l.deposits.sum fun _ ticket => ticket.creditTo user) +
    l.withdraws.sum fun _ ticket => ticket.repayTo user

/-! ## One step -/

section Payments

variable {ticket : Ticket} {withdraw : WithdrawTicket}

theorem Ticket.creditTo_of_unconfirmed (hstatus : ticket.status ≠ .confirmed) (user : Int) :
    ticket.creditTo user = 0 := by
  simp [creditTo, hstatus]

theorem WithdrawTicket.repayTo_of_pending (hstatus : ¬ withdraw.status.Terminal) (user : Int) :
    withdraw.repayTo user = 0 := by
  have hcancelled : withdraw.status ≠ .cancelled := fun h => hstatus (.inr (.inl h))
  have hconfirmed : withdraw.status ≠ .confirmed := fun h => hstatus (.inl h)
  simp [repayTo, hcancelled, hconfirmed]

end Payments

namespace Ledger

variable {now : Timestamp} {l l' : Ledger} {call : Call}

theorem credited_set {deposits : Table String Ticket} {uid : String} {old : Ticket}
    (hold : deposits.get? uid = some old) (new : Ticket) (u : Int) :
    ((deposits.set uid new).sum fun _ ticket => ticket.creditTo u) =
      (deposits.sum fun _ ticket => ticket.creditTo u) + (new.creditTo u - old.creditTo u) :=
  Table.sum_set_add hold (add_sub_cancel _ _).symm

theorem repaid_set {withdraws : Table String WithdrawTicket} {uid : String} {old : WithdrawTicket}
    (hold : withdraws.get? uid = some old) (new : WithdrawTicket) (u : Int) :
    ((withdraws.set uid new).sum fun _ ticket => ticket.repayTo u) =
      (withdraws.sum fun _ ticket => ticket.repayTo u) + (new.repayTo u - old.repayTo u) :=
  Table.sum_set_add hold (add_sub_cancel _ _).symm

/-- A settling call touches no bet and brings no ticket in. -/
theorem Step.settles (hstep : Step now l call l') (hcall : call.Settles) :
    l'.bets = l.bets ∧ (∀ uid, l.deposits.get? uid = none → l'.deposits.get? uid = none) ∧
      ∀ uid, l.withdraws.get? uid = none → l'.withdraws.get? uid = none := by
  have hset : ∀ {ρ : Type} {rows : Table String ρ} {key : String} {new : ρ} (uid : String),
      rows.get? uid = none → (rows.set key new).get? uid = none := by
    intro ρ rows key new uid hnone
    rw [Table.get?_set]
    split
    next heq => rw [← heq, hnone, Option.map_none]
    next => exact hnone
  cases hstep with
  | quiet hquiet hl' => exact hl' ▸ ⟨rfl, fun _ => id, fun _ => id⟩
  | depositReleased hold hstatus hl' => exact hl' ▸ ⟨rfl, hset, fun _ => id⟩
  | depositConfirmed hold hstatus hcashier hl' => exact hl' ▸ ⟨rfl, hset, fun _ => id⟩
  | depositCancelled hold hstatus hl' => exact hl' ▸ ⟨rfl, hset, fun _ => id⟩
  | withdrawReleased hold hstatus hl' => exact hl' ▸ ⟨rfl, fun _ => id, hset⟩
  | withdrawConfirmed hold hstatus hcashier hl' => exact hl' ▸ ⟨rfl, fun _ => id, hset⟩
  | withdrawCancelled hold hstatus hl' => exact hl' ▸ ⟨rfl, fun _ => id, hset⟩
  | betResolved hkind => rcases hkind with ⟨_, rfl⟩ | ⟨_, rfl, -⟩ <;> cases hcall
  | _ => cases hcall

/-- What a settling call adds to a balance it adds to what tickets have paid. -/
theorem Step.paid (hstep : Step now l call l') (hcall : call.Settles) (u : Int) :
    l'.books (wallet u) - l'.paidOut u = l.books (wallet u) - l.paidOut u := by
  cases hstep with
  | quiet hquiet hl' => rw [hl']
  | depositReleased hold hstatus hl' =>
      subst hl'
      simp only [paidOut, credited_set hold]
      simp [Ticket.creditTo, hstatus]
  | depositConfirmed hold hstatus hcashier hl' =>
      subst hl'
      simp only [paidOut, credited_set hold]
      simp [Ticket.creditTo, hstatus, Finsupp.single_apply]
      ring
  | depositCancelled hold hstatus hl' =>
      subst hl'
      have hconfirmed : _ ≠ TicketStatus.confirmed := fun h => hstatus (.inl h)
      simp only [paidOut, credited_set hold, Ticket.creditTo_of_unconfirmed hconfirmed]
      simp [Ticket.creditTo]
  | withdrawReleased hold hstatus hl' =>
      subst hl'
      simp only [paidOut, repaid_set hold]
      simp [WithdrawTicket.repayTo, hstatus]
  | withdrawConfirmed hold hstatus hcashier hl' =>
      subst hl'
      simp only [paidOut, repaid_set hold]
      simp [WithdrawTicket.repayTo, hstatus, Finsupp.single_apply, eq_comm]
      ring
  | withdrawCancelled hold hstatus hl' =>
      subst hl'
      simp only [paidOut, repaid_set hold, WithdrawTicket.repayTo_of_pending hstatus]
      simp [WithdrawTicket.repayTo, Finsupp.single_apply]
      ring
  | betResolved hkind => rcases hkind with ⟨_, rfl⟩ | ⟨_, rfl, -⟩ <;> cases hcall
  | _ => cases hcall

end Ledger

/-! ## Many steps -/

/-- What settling may do to a ticket. -/
structure Ticket.Settled (ticket ticket' : Ticket) : Prop where
  discordId : ticket'.discordId = ticket.discordId
  amount : ticket'.amount = ticket.amount
  expiresAt : ticket'.expiresAt = ticket.expiresAt
  final : ticket.status.Terminal → ticket' = ticket

/-- What settling may do to a database. -/
structure Database.Settled (s s' : Database) : Prop where
  ticket : ∀ kind uid ticket, s.ticketOf kind uid = some ticket →
    ∃ ticket', s'.ticketOf kind uid = some ticket' ∧ ticket.Settled ticket'
  absent : ∀ kind uid, s.ticketOf kind uid = none → s'.ticketOf kind uid = none
  fee : ∀ uid w, s.withdrawTickets.get? uid = some w →
    ∃ w', s'.withdrawTickets.get? uid = some w' ∧ w'.fee = w.fee
  bets : s'.bets = s.bets
  paid : ∀ user, s'.balanceOf user - s'.paidOut user = s.balanceOf user - s.paidOut user

theorem Ticket.Settled.refl (ticket : Ticket) : ticket.Settled ticket :=
  ⟨rfl, rfl, rfl, fun _ => rfl⟩

theorem Ticket.Settled.trans {a b c : Ticket} (hab : a.Settled b) (hbc : b.Settled c) :
    a.Settled c where
  discordId := hbc.discordId.trans hab.discordId
  amount := hbc.amount.trans hab.amount
  expiresAt := hbc.expiresAt.trans hab.expiresAt
  final hfinal := by
    have hb := hab.final hfinal
    exact (hbc.final (hb ▸ hfinal)).trans hb

theorem Ticket.Move.settled {now : Timestamp} {kind : TicketType} {uid : String} {call : Call}
    {ticket ticket' : Ticket} (hmove : ticket.Move now kind uid call ticket') :
    ticket.Settled ticket' := by
  refine ⟨hmove.discordId, hmove.amount, ?_, hmove.terminal⟩
  cases hmove <;> rfl

variable {s s' s'' a b : Database}

theorem Database.Settled.refl (s : Database) : s.Settled s where
  ticket _ _ ticket hticket := ⟨ticket, hticket, .refl ticket⟩
  absent _ _ := id
  fee _ w hw := ⟨w, hw, rfl⟩
  bets := rfl
  paid _ := rfl

theorem Database.Settled.trans (h : s.Settled s') (h' : s'.Settled s'') : s.Settled s'' where
  ticket kind uid ticket hticket := by
    obtain ⟨ticket', hticket', hsettled⟩ := h.ticket kind uid ticket hticket
    obtain ⟨ticket'', hticket'', hsettled'⟩ := h'.ticket kind uid ticket' hticket'
    exact ⟨ticket'', hticket'', hsettled.trans hsettled'⟩
  absent kind uid hnone := h'.absent kind uid (h.absent kind uid hnone)
  fee uid w hw := by
    obtain ⟨w', hw', hfee⟩ := h.fee uid w hw
    obtain ⟨w'', hw'', hfee'⟩ := h'.fee uid w' hw'
    exact ⟨w'', hw'', hfee'.trans hfee⟩
  bets := h'.bets.trans h.bets
  paid user := (h'.paid user).trans (h.paid user)

/-- A ticket after settling was there before. -/
theorem Database.Settled.origin (h : s.Settled s') {kind : TicketType} {uid : String}
    {ticket' : Ticket} (hticket' : s'.ticketOf kind uid = some ticket') :
    ∃ ticket, s.ticketOf kind uid = some ticket ∧ ticket.Settled ticket' := by
  cases hticket : s.ticketOf kind uid with
  | none =>
      rw [h.absent kind uid hticket] at hticket'
      cases hticket'
  | some ticket =>
      obtain ⟨found, hfound, hsettled⟩ := h.ticket kind uid ticket hticket
      rw [hfound, Option.some.injEq] at hticket'
      exact ⟨ticket, rfl, hticket' ▸ hsettled⟩

theorem settled_step (hs : s.WellFormed) {command : Command} (hcommand : command.Settles) :
    s.Settled (step s command) := by
  have htickets : ∀ kind uid ticket, s.ticketOf kind uid = some ticket →
      ∃ ticket', (step s command).ticketOf kind uid = some ticket' ∧ ticket.Settled ticket' := by
    intro kind uid ticket hticket
    obtain ⟨ticket', hticket', hmove⟩ := step_ticketOf hs command hticket
    refine ⟨ticket', hticket', ?_⟩
    rcases hmove with ⟨env, call, -, -, hmove⟩ | ⟨-, rfl⟩
    · exact hmove.settled
    · exact .refl _
  have hfees : ∀ uid w, s.withdrawTickets.get? uid = some w →
      ∃ w', (step s command).withdrawTickets.get? uid = some w' ∧ w'.fee = w.fee := by
    intro uid w hw
    obtain ⟨w', hw', hmove⟩ := step_withdraw hs command hw
    refine ⟨w', hw', ?_⟩
    rcases hmove with ⟨env, call, -, hmove⟩ | rfl
    · exact hmove.fee
    · rfl
  have hwallet : ∀ (t : Database) user, t.ledger.books (wallet user) - t.ledger.paidOut user =
      t.balanceOf user - t.paidOut user := by
    intro t user
    rw [ledger_books_wallet]
    rfl
  rcases ledger_command hs command with ⟨env, call, rfl, -, hstep⟩ | ⟨-, hsame⟩
  · obtain ⟨hbets, hdeposits, hwithdraws⟩ := hstep.settles hcommand
    refine ⟨htickets, fun kind uid hnone => ?_, hfees, hbets, fun user => ?_⟩
    · cases kind with
      | deposit => exact hdeposits uid hnone
      | withdraw =>
          exact Option.map_eq_none_iff.mpr (hwithdraws uid (Option.map_eq_none_iff.mp hnone))
    · rw [← hwallet, ← hwallet, hstep.paid hcommand user]
  · have hdeposits : (step s command).depositTickets = s.depositTickets := hsame.deposits
    have hwithdraws : (step s command).withdrawTickets = s.withdrawTickets := hsame.withdraws
    refine ⟨htickets, fun kind uid hnone => ?_, hfees, hsame.bets, fun user => ?_⟩
    · rw [← hnone]
      simp only [Database.ticketOf, hdeposits, hwithdraws]
    · rw [← hwallet, ← hwallet, Ledger.paidOut, hsame.books, hsame.deposits, hsame.withdraws]
      rfl

theorem Database.Solvent.settle (hs : s.Solvent) {command : Command} (hcommand : command.Settles) :
    (step s command).Solvent := by
  refine ⟨wellFormed_step hs.wellFormed command,
    explained_step hs.wellFormed hs.explained command, ?_⟩
  rw [Database.StakesNonneg, (settled_step hs.wellFormed hcommand).bets]
  exact hs.stakes

theorem settled_run (hs : s.Solvent) {commands : List Command}
    (hcommands : ∀ command ∈ commands, command.Settles) :
    (run step s commands).Solvent ∧ s.Settled (run step s commands) := by
  have hstep : ∀ s' command, command.Settles → s'.Solvent ∧ s.Settled s' →
      (step s' command).Solvent ∧ s.Settled (step s' command) :=
    fun _ _ hcommand h =>
      ⟨h.1.settle hcommand, h.2.trans (settled_step h.1.wellFormed hcommand)⟩
  exact run_invariant hstep ⟨hs, .refl s⟩ hcommands

/-! ## The same statuses make the same balances -/

/-- Every ticket has the same status. -/
def Database.SameStatuses (a b : Database) : Prop :=
  ∀ kind uid, (a.ticketOf kind uid).map Ticket.status = (b.ticketOf kind uid).map Ticket.status

/-- Every ticket has the same status, and every balance and lock the same amount. -/
structure Database.SameOutcome (a b : Database) : Prop where
  statuses : a.SameStatuses b
  balances : ∀ user, a.balanceOf user = b.balanceOf user
  locks : ∀ user, a.lockedOf user = b.lockedOf user

/-- Two rows of one withdraw that settling left in the same status. -/
theorem Database.Settled.withdraw_agree (ha : s.Settled a) (hb : s.Settled b)
    (hsame : a.SameStatuses b) (uid : String) :
    a.withdrawTickets.get? uid = none ∧ b.withdrawTickets.get? uid = none ∨
      ∃ w w', a.withdrawTickets.get? uid = some w ∧ b.withdrawTickets.get? uid = some w' ∧
        w.discordId = w'.discordId ∧ w.amount = w'.amount ∧ w.fee = w'.fee ∧
          w.status = w'.status := by
  cases hw : s.withdrawTickets.get? uid with
  | none =>
      have hnone : s.ticketOf .withdraw uid = none := Option.map_eq_none_iff.mpr hw
      exact .inl ⟨Option.map_eq_none_iff.mp (ha.absent .withdraw uid hnone),
        Option.map_eq_none_iff.mp (hb.absent .withdraw uid hnone)⟩
  | some old =>
      have hold : s.ticketOf .withdraw uid = some old.toTicket :=
        Option.map_eq_some_iff.mpr ⟨old, hw, rfl⟩
      obtain ⟨w, hwa, hfeea⟩ := ha.fee uid old hw
      obtain ⟨w', hwb, hfeeb⟩ := hb.fee uid old hw
      obtain ⟨ticket, hta, hsettleda⟩ := ha.ticket .withdraw uid _ hold
      obtain ⟨ticket', htb, hsettledb⟩ := hb.ticket .withdraw uid _ hold
      have hstatus := hsame .withdraw uid
      simp only [Database.ticketOf, hwa, hwb, Option.map_some, Option.some.injEq] at hta htb hstatus
      subst hta htb
      exact .inr ⟨w, w', hwa, hwb, hsettleda.discordId.trans hsettledb.discordId.symm,
        hsettleda.amount.trans hsettledb.amount.symm, hfeea.trans hfeeb.symm, hstatus⟩

theorem Database.Settled.deposit_agree (ha : s.Settled a) (hb : s.Settled b)
    (hsame : a.SameStatuses b) (uid : String) :
    a.depositTickets.get? uid = none ∧ b.depositTickets.get? uid = none ∨
      ∃ ticket ticket', a.depositTickets.get? uid = some ticket ∧
        b.depositTickets.get? uid = some ticket' ∧ ticket.discordId = ticket'.discordId ∧
          ticket.amount = ticket'.amount ∧ ticket.status = ticket'.status := by
  cases hold : s.ticketOf .deposit uid with
  | none => exact .inl ⟨ha.absent .deposit uid hold, hb.absent .deposit uid hold⟩
  | some old =>
      obtain ⟨ticket, hta, hsettleda⟩ := ha.ticket .deposit uid _ hold
      obtain ⟨ticket', htb, hsettledb⟩ := hb.ticket .deposit uid _ hold
      have hstatus := hsame .deposit uid
      rw [hta, htb, Option.map_some, Option.map_some, Option.some.injEq] at hstatus
      exact .inr ⟨ticket, ticket', hta, htb, hsettleda.discordId.trans hsettledb.discordId.symm,
        hsettleda.amount.trans hsettledb.amount.symm, hstatus⟩

/-- However tickets were settled, their statuses determine the balances. -/
theorem Database.Settled.sameOutcome (ha : s.Settled a) (hb : s.Settled b) (hsa : a.Explained)
    (hsb : b.Explained) (hsame : a.SameStatuses b) : a.SameOutcome b := by
  have hpaid : ∀ user, a.paidOut user = b.paidOut user := by
    intro user
    refine congrArg₂ (· + ·) (Table.sum_congr fun uid => ?_) (Table.sum_congr fun uid => ?_)
    · rcases ha.deposit_agree hb hsame uid with
        ⟨hnone, hnone'⟩ | ⟨ticket, ticket', hta, htb, howner, hamount, hstatus⟩
      · rw [Table.term_of_none hnone, Table.term_of_none hnone']
      · rw [Table.term_of_get? hta, Table.term_of_get? htb, Ticket.creditTo, Ticket.creditTo,
          howner, hamount, hstatus]
    · rcases ha.withdraw_agree hb hsame uid with
        ⟨hnone, hnone'⟩ | ⟨w, w', hwa, hwb, howner, hamount, hfee, hstatus⟩
      · rw [Table.term_of_none hnone, Table.term_of_none hnone']
      · rw [Table.term_of_get? hwa, Table.term_of_get? hwb, WithdrawTicket.repayTo,
          WithdrawTicket.repayTo, howner, hamount, hfee, hstatus]
  refine ⟨hsame, fun user => ?_, fun user => ?_⟩
  · have hbalance := (ha.paid user).trans (hb.paid user).symm
    rw [hpaid user] at hbalance
    omega
  · rw [hsa.locked, hsb.locked, Database.escrow, Database.escrow, ha.bets, hb.bets]
    refine congrArg (· + _) (Table.sum_congr fun uid => ?_)
    rcases ha.withdraw_agree hb hsame uid with
      ⟨hnone, hnone'⟩ | ⟨w, w', hwa, hwb, howner, hamount, -, hstatus⟩
    · rw [Table.term_of_none hnone, Table.term_of_none hnone']
    · rw [Table.term_of_get? hwa, Table.term_of_get? hwb, WithdrawTicket.heldFrom,
        WithdrawTicket.heldFrom, howner, hamount, hstatus]

end DeathRoll
