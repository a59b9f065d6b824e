import DeathRoll.Ledger.Lifecycle

/-! # The last move of a ticket

Claims, releases, confirmations and cancellations that return, read off a history. The
last of them says how the ticket stands after it, whatever else the history holds.
-/

namespace DeathRoll

open Relational

/-- What a call that returns does to a ticket. -/
inductive TicketMove where
  | claimed (at_ : Timestamp) (cashier : Int)
  | released
  | finished
deriving DecidableEq

/-- What a call does at `now` to the ticket of a kind and uid, should it return. -/
def Call.ticketMove (kind : TicketType) (uid : String) (now : Timestamp) :
    Call → Option TicketMove
  | .claimTicket (some k) (some u) (some cashier) =>
      if k = kind.text ∧ u = uid then some (.claimed now cashier) else none
  | .releaseTicket (some k) (some u) _ =>
      if k = kind.text ∧ u = uid then some .released else none
  | .confirmDeposit (some u) _ | .cancelDeposit (some u) _ _ =>
      if kind = .deposit ∧ u = uid then some .finished else none
  | .confirmWithdraw (some u) _ | .cancelWithdraw (some u) _ _ =>
      if kind = .withdraw ∧ u = uid then some .finished else none
  | _ => none

/-- What a step does to the ticket. -/
def moveOf (kind : TicketType) (uid : String) (taken : Database × Command) :
    Option TicketMove :=
  match taken.2 with
  | .call env c => if c.Succeeds env taken.1 then c.ticketMove kind uid env.now else none
  | .config _ => none

/-- The last move of the ticket in a history. -/
def lastMove (kind : TicketType) (uid : String) (history : List (Database × Command)) :
    Option TicketMove :=
  (history.filterMap (moveOf kind uid)).getLast?

/-- How a ticket stands after its last move. -/
inductive TicketMove.Leads (old : Ticket) : Option TicketMove → Ticket → Prop
  | stays : Leads old none old
  | claimed {new : Ticket} {at_ : Timestamp} {cashier : Int} (hstatus : new.status = .claimed)
      (hclaimer : new.claimedBy = some cashier) (hclaimed : new.claimedAt = some at_)
      (hactive : new.lastActivityAt = at_) : Leads old (some (.claimed at_ cashier)) new
  | released {new : Ticket} (hstatus : new.status = .open) : Leads old (some .released) new
  | finished {new : Ticket} (hstatus : new.status.Terminal) : Leads old (some .finished) new

namespace TicketMove

variable {a b c : Ticket}

theorem Leads.trans {first second : Option TicketMove} (hab : Leads a first b)
    (hbc : Leads b second c) : Leads a (second.or first) c := by
  cases hbc with
  | stays => exact hab
  | claimed hstatus hclaimer hclaimed hactive => exact .claimed hstatus hclaimer hclaimed hactive
  | released hstatus => exact .released hstatus
  | finished hstatus => exact .finished hstatus

theorem leads_claim (now : Timestamp) (cashier : Int) :
    Leads a (some (.claimed now cashier)) (a.claim now (some cashier)) :=
  .claimed rfl rfl rfl rfl

theorem leads_release (now : Timestamp) : Leads a (some .released) (a.release now) :=
  .released rfl

theorem leads_confirm (now : Timestamp) : Leads a (some .finished) (a.confirm now) :=
  .finished (.inl rfl)

theorem leads_cancel (now : Timestamp) (reason : Option String) :
    Leads a (some .finished) (a.cancel now reason) :=
  .finished (.inr (.inl rfl))

end TicketMove

namespace Ledger

open TicketMove

variable {now : Timestamp} {l l' : Ledger} {call : Call} {uid : String}

/-- A row that a step replaced under `key`, seen from any key. -/
private theorem leads_set {ρ : Type} {t : Table String ρ} (shared : ρ → Ticket)
    {key : String} {old new row : ρ} {move : TicketMove} (hold : t.get? key = some old)
    (hmove : Leads (shared old) (some move) (shared new)) (hrow : t.get? uid = some row) :
    ∃ row', (t.set key new).get? uid = some row' ∧
      Leads (shared row) (if key = uid then some move else none) (shared row') := by
  rw [Table.get?_set]
  by_cases heq : key = uid
  · subst heq
    rw [hold, Option.some.injEq] at hrow
    subst hrow
    exact ⟨new, by rw [if_pos rfl, hold, Option.map_some], by rwa [if_pos rfl]⟩
  · exact ⟨row, by rw [if_neg (Ne.symm heq), hrow], by rw [if_neg heq]; exact .stays⟩

/-- A call that changes nothing has nothing to do, or the ticket is confirmed. -/
private theorem leads_quiet (hquiet : l.MayBeQuiet call) {kind : TicketType} {ticket : Ticket}
    (hdeposit : kind = .deposit → ∀ found, l.deposits.get? uid = some found → found = ticket)
    (hwithdraw : kind = .withdraw → ∀ found, l.withdraws.get? uid = some found →
      found.toTicket = ticket) : Leads ticket (call.ticketMove kind uid now) ticket := by
  cases call with
  | confirmDeposit u cashier =>
      obtain ⟨key, found, rfl, hfound, hstatus⟩ := hquiet
      simp only [Call.ticketMove]
      split
      next heq =>
        obtain ⟨rfl, rfl⟩ := heq
        exact .finished (.inl (hdeposit rfl found hfound ▸ hstatus))
      next => exact .stays
  | confirmWithdraw u cashier =>
      obtain ⟨key, found, rfl, hfound, hstatus⟩ := hquiet
      simp only [Call.ticketMove]
      split
      next heq =>
        obtain ⟨rfl, rfl⟩ := heq
        exact .finished (.inl (hwithdraw rfl found hfound ▸ hstatus))
      next => exact .stays
  | _ => first | exact .stays | exact hquiet.elim

theorem Step.deposit_leads (hstep : Step now l call l') {ticket : Ticket}
    (hticket : l.deposits.get? uid = some ticket) :
    ∃ ticket', l'.deposits.get? uid = some ticket' ∧
      Leads ticket (call.ticketMove .deposit uid now) ticket' := by
  cases hstep with
  | quiet hquiet hl' =>
      subst hl'
      refine ⟨ticket, hticket, leads_quiet hquiet (fun _ found hfound => ?_) nofun⟩
      exact Option.some.inj (hfound.symm.trans hticket)
  | depositOpened hnew hfresh hl' =>
      subst hl'
      exact ⟨ticket, Table.get?_insertNew_of_some hticket _ _, .stays⟩
  | depositClaimed hold hstatus hl' =>
      subst hl'
      simp only [Call.ticketMove, TicketType.text, true_and]
      exact leads_set id hold (leads_claim _ _) hticket
  | depositReleased hold hstatus hl' =>
      subst hl'
      simp only [Call.ticketMove, TicketType.text, true_and]
      exact leads_set id hold (leads_release _) hticket
  | depositConfirmed hold hstatus hcashier hl' =>
      subst hl'
      simp only [Call.ticketMove, true_and]
      exact leads_set id hold (leads_confirm _) hticket
  | depositCancelled hold hstatus hl' =>
      subst hl'
      simp only [Call.ticketMove, true_and]
      exact leads_set id hold (leads_cancel _ _) hticket
  | betResolved hcall hget hopen hcredit hclosed howner hperiod hl' =>
      subst hl'
      rcases hcall with ⟨_, rfl⟩ | ⟨_, rfl, -⟩ <;> exact ⟨ticket, hticket, .stays⟩
  | _ =>
      subst_vars
      exact ⟨ticket, hticket, by simp [Call.ticketMove, TicketType.text, Leads.stays]⟩

theorem Step.withdraw_leads (hstep : Step now l call l') {ticket : WithdrawTicket}
    (hticket : l.withdraws.get? uid = some ticket) :
    ∃ ticket', l'.withdraws.get? uid = some ticket' ∧
      Leads ticket.toTicket (call.ticketMove .withdraw uid now) ticket'.toTicket := by
  cases hstep with
  | quiet hquiet hl' =>
      subst hl'
      refine ⟨ticket, hticket, leads_quiet hquiet nofun fun _ found hfound => ?_⟩
      rw [Option.some.inj (hfound.symm.trans hticket)]
  | withdrawOpened hnew hfresh hdelivered hl' =>
      subst hl'
      exact ⟨ticket, Table.get?_insertNew_of_some hticket _ _, .stays⟩
  | withdrawClaimed hold hstatus hl' =>
      subst hl'
      simp only [Call.ticketMove, TicketType.text, true_and]
      exact leads_set WithdrawTicket.toTicket hold (leads_claim _ _) hticket
  | withdrawReleased hold hstatus hl' =>
      subst hl'
      simp only [Call.ticketMove, TicketType.text, true_and]
      exact leads_set WithdrawTicket.toTicket hold (leads_release _) hticket
  | withdrawConfirmed hold hstatus hcashier hl' =>
      subst hl'
      simp only [Call.ticketMove, true_and]
      exact leads_set WithdrawTicket.toTicket hold (leads_confirm _) hticket
  | withdrawCancelled hold hstatus hl' =>
      subst hl'
      simp only [Call.ticketMove, true_and]
      exact leads_set WithdrawTicket.toTicket hold (leads_cancel _ _) hticket
  | betResolved hcall hget hopen hcredit hclosed howner hperiod hl' =>
      subst hl'
      rcases hcall with ⟨_, rfl⟩ | ⟨_, rfl, -⟩ <;> exact ⟨ticket, hticket, .stays⟩
  | _ =>
      subst_vars
      exact ⟨ticket, hticket, by simp [Call.ticketMove, TicketType.text, Leads.stays]⟩

end Ledger

/-! ## Runs -/

variable {s : Database} {kind : TicketType} {uid : String} {ticket : Ticket}

theorem moveOf_of_idle {command : Command} (hidle : ¬ command.Returns s) :
    moveOf kind uid (s, command) = none := by
  cases command with
  | call env c => exact if_neg hidle
  | config write => rfl

theorem step_leads (hs : s.WellFormed) (command : Command)
    (hticket : s.ticketOf kind uid = some ticket) :
    ∃ ticket', (step s command).ticketOf kind uid = some ticket' ∧
      TicketMove.Leads ticket (moveOf kind uid (s, command)) ticket' := by
  rcases ledger_command hs command with ⟨env, call, rfl, hok, hstep⟩ | ⟨hidle, hsame⟩
  · have hmove : moveOf kind uid (s, .call env call) = call.ticketMove kind uid env.now :=
      if_pos hok
    rw [hmove]
    cases kind with
    | deposit => exact hstep.deposit_leads hticket
    | withdraw =>
        obtain ⟨w, hw, rfl⟩ := Option.map_eq_some_iff.mp hticket
        obtain ⟨w', hw', hleads⟩ := hstep.withdraw_leads hw
        exact ⟨w'.toTicket, Option.map_eq_some_iff.mpr ⟨w', hw', rfl⟩, hleads⟩
  · have hdeposits : (step s command).depositTickets = s.depositTickets := hsame.deposits
    have hwithdraws : (step s command).withdrawTickets = s.withdrawTickets := hsame.withdraws
    refine ⟨ticket, ?_, by rw [moveOf_of_idle hidle]; exact .stays⟩
    rw [← hticket]
    simp only [Database.ticketOf, hdeposits, hwithdraws]

theorem lastMove_snoc (history : List (Database × Command)) (taken : Database × Command) :
    lastMove kind uid (history ++ [taken]) =
      (moveOf kind uid taken).or (lastMove kind uid history) := by
  unfold lastMove
  rw [List.filterMap_append]
  cases hmove : moveOf kind uid taken with
  | none => simp [hmove]
  | some move => simp [hmove]

/-- After a run a ticket stands as its last move left it. -/
theorem run_leads (hs : s.WellFormed) (hticket : s.ticketOf kind uid = some ticket)
    (commands : List Command) :
    ∃ ticket', (run step s commands).ticketOf kind uid = some ticket' ∧
      TicketMove.Leads ticket (lastMove kind uid (steps step s commands)) ticket' := by
  induction commands using List.reverseRecOn with
  | nil => exact ⟨ticket, hticket, .stays⟩
  | append_singleton commands command ih =>
      obtain ⟨old, hold, hleads⟩ := ih
      obtain ⟨new, hnew, hlast⟩ := step_leads (wellFormed_run hs commands) command hold
      rw [run_append, steps_append, run_cons, run_nil, steps_cons, steps_nil, lastMove_snoc]
      exact ⟨new, hnew, hleads.trans hlast⟩

end DeathRoll
