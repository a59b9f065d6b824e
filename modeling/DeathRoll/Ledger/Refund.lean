import DeathRoll.Ledger.Lifecycle

/-! # Refunds of withdraws

The owner of a withdraw ticket gets its amount back from the lock when the
ticket is cancelled, and from the treasury for a dispute resolved as
`refund-full`. A ticket has one dispute, so the two exceed the amount exactly
when a full refund meets a ticket that is not confirmed; `dw.resolve_dispute`
does not look at the ticket's status.
-/

namespace DeathRoll

open Relational Tx Account
open Finsupp (single)

/-- What a cancelled withdraw has given back from the lock. -/
def WithdrawTicket.released (ticket : WithdrawTicket) : Int :=
  if ticket.status = .cancelled then ticket.amount else 0

/-- The dispute paid the withdraw ticket `uid` back in full. -/
def Dispute.RefundedFull (dispute : Dispute) (uid : String) : Prop :=
  dispute.ticketType = .withdraw ∧ dispute.ticketUid = uid ∧ dispute.status = .resolved ∧
    dispute.resolution = some "refund-full"

instance (dispute : Dispute) (uid : String) : Decidable (dispute.RefundedFull uid) :=
  instDecidableAnd

/-- One for a dispute that paid the ticket back. -/
def Dispute.refunds (dispute : Dispute) (uid : String) : Int :=
  if dispute.RefundedFull uid then 1 else 0

theorem refunds_of_unresolved {dispute : Dispute} (hstatus : dispute.status ≠ .resolved)
    (uid : String) : dispute.refunds uid = 0 :=
  if_neg fun hfull => hstatus hfull.2.2.1

theorem not_resolved_of_open {dispute : Dispute} (hstatus : ¬ dispute.status.Terminal) :
    dispute.status ≠ .resolved :=
  fun hresolved => hstatus (.inl hresolved)

theorem refunds_close {dispute : Dispute} {now : Timestamp} {action : String} {admin : Option Int}
    (uid : String) :
    (dispute.close now .resolved (some action) admin).refunds uid =
      if action = "refund-full" ∧ dispute.ticketType = .withdraw ∧ dispute.ticketUid = uid
      then 1 else 0 := by
  simp only [Dispute.refunds, Dispute.RefundedFull, Dispute.close, Option.some.injEq, true_and]
  congr 1
  exact propext (by tauto)

/-- The withdraw whose gold a call gives back to its owner. -/
def refundedBy (disputes : Table Int Dispute) : Call → Option String
  | .cancelWithdraw uid _ _ => uid
  | .resolveDispute id action _ _ =>
      if action = some "refund-full" then
        ((disputes.select id).filter fun dispute => dispute.ticketType = .withdraw).map
          Dispute.ticketUid
      else none
  | _ => none

namespace Ledger

variable {now : Timestamp} {l l' : Ledger} {call : Call} {uid : String}

/-- How many disputes paid the ticket back in full. -/
def fullRefunds (l : Ledger) (uid : String) : Int :=
  l.disputes.sum fun _ dispute => dispute.refunds uid

/-- What the owner of a withdraw has got back on its account. -/
def returned (l : Ledger) (uid : String) : Int :=
  match l.withdraws.get? uid with
  | none => 0
  | some ticket => ticket.released + l.fullRefunds uid * ticket.amount

/-- What the owner of a withdraw gains from `l` to `l'`. -/
def ownerGain (l l' : Ledger) (uid : String) : Int :=
  match l.withdraws.get? uid with
  | none => 0
  | some ticket => l'.books (wallet ticket.discordId) - l.books (wallet ticket.discordId)

/-- A full refund is recorded only for a withdraw that exists. -/
def RefundsMatch (l : Ledger) : Prop :=
  ∀ uid, l.withdraws.get? uid = none → l.fullRefunds uid = 0

theorem returned_of_get? {ticket : WithdrawTicket} (hticket : l.withdraws.get? uid = some ticket) :
    l.returned uid = ticket.released + l.fullRefunds uid * ticket.amount := by
  rw [returned, hticket]

theorem returned_of_none (hnone : l.withdraws.get? uid = none) : l.returned uid = 0 := by
  rw [returned, hnone]

theorem ownerGain_of_get? {ticket : WithdrawTicket} (hticket : l.withdraws.get? uid = some ticket) :
    l.ownerGain l' uid =
      l'.books (wallet ticket.discordId) - l.books (wallet ticket.discordId) := by
  rw [ownerGain, hticket]

/-- A withdraw ticket is replaced: what it has released counts. -/
theorem returned_set {key : String} {old new : WithdrawTicket}
    (hold : l.withdraws.get? key = some old)
    (hl' : l'.withdraws = l.withdraws.set key new) (hdisputes : l'.disputes = l.disputes)
    (hamount : new.amount = old.amount) :
    l'.returned uid = l.returned uid + if uid = key then new.released - old.released else 0 := by
  have hcount : l'.fullRefunds uid = l.fullRefunds uid := by rw [fullRefunds, hdisputes]; rfl
  split
  next heq =>
    subst heq
    have hnew : l'.withdraws.get? uid = some new := by rw [hl', Table.get?_set_self hold]
    rw [returned_of_get? hold, returned_of_get? hnew, hcount, hamount]
    ring
  next hne =>
    have hsame : l'.withdraws.get? uid = l.withdraws.get? uid := by
      rw [hl', Table.get?_set_of_ne _ hne]
    rw [returned, hsame, hcount, add_zero]
    rfl

/-- A withdraw that is opened has given nothing back. -/
theorem returned_insertNew {key : String} {ticket : WithdrawTicket} (hl : l.RefundsMatch)
    (hnew : l.withdraws.get? key = none) (hstatus : ticket.status = .open)
    (hl' : l'.withdraws = l.withdraws.insertNew key ticket) (hdisputes : l'.disputes = l.disputes) :
    l'.returned uid = l.returned uid := by
  have hcount : l'.fullRefunds uid = l.fullRefunds uid := by rw [fullRefunds, hdisputes]; rfl
  by_cases heq : uid = key
  · subst heq
    have hticket : l'.withdraws.get? uid = some ticket := by
      rw [hl', Table.get?_insertNew_self, hnew, Option.getD_none]
    rw [returned_of_none hnew, returned_of_get? hticket, hcount, hl uid hnew]
    simp [WithdrawTicket.released, hstatus]
  · have hsame : l'.withdraws.get? uid = l.withdraws.get? uid := by
      rw [hl', Table.get?_insertNew_of_ne _ heq]
    rw [returned, hsame, hcount]
    rfl

theorem returned_of_same (hwithdraws : l'.withdraws = l.withdraws)
    (hcount : l'.fullRefunds uid = l.fullRefunds uid) : l'.returned uid = l.returned uid := by
  rw [returned, hwithdraws, hcount]
  rfl

/-- A dispute is opened: it has paid nothing. -/
theorem fullRefunds_insertNew {id : Int} {dispute : Dispute} (hnew : l.disputes.get? id = none)
    (hstatus : dispute.status = .open) (hl' : l'.disputes = l.disputes.insertNew id dispute) :
    l'.fullRefunds uid = l.fullRefunds uid := by
  have hnone := refunds_of_unresolved (by simp [hstatus] : dispute.status ≠ .resolved) uid
  rw [fullRefunds, hl', Table.sum_insertNew_of_none hnew, hnone, add_zero]
  rfl

/-- A dispute is closed: the refund it records counts. -/
theorem fullRefunds_set (uid : String) {id : Int} {old new : Dispute}
    (hold : l.disputes.get? id = some old)
    (hstatus : ¬ old.status.Terminal) (hl' : l'.disputes = l.disputes.set id new) :
    l'.fullRefunds uid = l.fullRefunds uid + new.refunds uid := by
  have hnone := refunds_of_unresolved (not_resolved_of_open hstatus) uid
  rw [fullRefunds, hl', Table.sum_set_add (d := new.refunds uid) hold (by rw [hnone, zero_add])]
  rfl

/-- A resolution gives back the gold of the withdraw its dispute names, or none. -/
theorem refundedBy_resolveDispute {id : Int} {dispute : Dispute} {action : String}
    {amount admin : Option Int} (hdispute : l.disputes.get? id = some dispute) :
    refundedBy l.disputes (.resolveDispute (some id) (some action) amount admin) = some uid ↔
      action = "refund-full" ∧ dispute.ticketType = .withdraw ∧ dispute.ticketUid = uid := by
  by_cases haction : action = "refund-full" <;> by_cases hkind : dispute.ticketType = .withdraw <;>
    simp [refundedBy, hdispute, haction, hkind]

/-- What a step records as returned is what the owner gains by it. -/
theorem Step.returned (hstep : Step now l call l') (hl : l.RefundsMatch) (uid : String) :
    l'.returned uid =
      l.returned uid + if refundedBy l.disputes call = some uid then l.ownerGain l' uid else 0 := by
  cases hstep with
  | quiet hquiet hl' =>
      subst hl'
      have hcall : refundedBy l'.disputes call ≠ some uid := by
        cases call <;> simp_all [refundedBy, MayBeQuiet]
      rw [if_neg hcall, add_zero]
  | withdrawOpened hnew hfresh hdelivered hl' =>
      rw [returned_insertNew hl hnew hfresh.status (congrArg Ledger.withdraws hl')
        (by rw [hl'])]
      simp [refundedBy]
  | withdrawClaimed hold hstatus hl' =>
      rw [returned_set hold (congrArg Ledger.withdraws hl') (by rw [hl']) rfl]
      simp [refundedBy, WithdrawTicket.released, Ticket.claim, hstatus]
  | withdrawReleased hold hstatus hl' =>
      rw [returned_set hold (congrArg Ledger.withdraws hl') (by rw [hl']) rfl]
      simp [refundedBy, WithdrawTicket.released, Ticket.release, hstatus]
  | withdrawConfirmed hold hstatus hcashier hl' =>
      rw [returned_set hold (congrArg Ledger.withdraws hl') (by rw [hl']) rfl]
      simp [refundedBy, WithdrawTicket.released, Ticket.confirm, hstatus]
  | @withdrawCancelled _ key ticket actor reason hold hstatus hl' =>
      -- a ticket that can be cancelled has released nothing yet
      have hkept : ticket.released = 0 := if_neg fun hdone => hstatus (.inr (.inl hdone))
      rw [returned_set hold (congrArg Ledger.withdraws hl') (by rw [hl']) rfl]
      by_cases heq : uid = key
      · subst heq
        rw [ownerGain_of_get? hold, hl', hkept]
        simp [refundedBy, WithdrawTicket.released, Ticket.cancel]
      · simp [refundedBy, heq, Ne.symm heq]
  | disputeOpened hnew hunique hstatus hl' =>
      rw [returned_of_same (by rw [hl'])
        (fullRefunds_insertNew hnew hstatus (congrArg Ledger.disputes hl'))]
      simp [refundedBy]
  | disputeRejected hold hstatus hl' =>
      have hcount := fullRefunds_set uid hold hstatus (congrArg Ledger.disputes hl')
      rw [refunds_of_unresolved (by simp [Dispute.close]), add_zero] at hcount
      rw [returned_of_same (by rw [hl']) hcount]
      simp [refundedBy]
  | disputeDismissed hold hstatus haction hl' =>
      have hother : ∀ action, action = "no-action" ∨ action = "force-confirm" →
          action ≠ "refund-full" := by
        rintro action (rfl | rfl) <;> decide
      have hcount := fullRefunds_set uid hold hstatus (congrArg Ledger.disputes hl')
      rw [refunds_close, if_neg fun hfull => hother _ haction hfull.1, add_zero] at hcount
      rw [returned_of_same (by rw [hl']) hcount, if_neg, add_zero]
      exact fun hfull => hother _ haction ((refundedBy_resolveDispute hold).mp hfull).1
  | @disputeRefunded _ id dispute action amount admin user paid hold hstatus haction huser hl' =>
      have hcount := fullRefunds_set uid hold hstatus (congrArg Ledger.disputes hl')
      have hwithdraws : l'.withdraws = l.withdraws := by rw [hl']
      rw [refunds_close] at hcount
      -- a partial refund, and a full one of another ticket, count for nothing here
      by_cases hfull : action = "refund-full" ∧ dispute.ticketType = .withdraw ∧
          dispute.ticketUid = uid
      · rw [if_pos hfull] at hcount
        rw [if_pos ((refundedBy_resolveDispute hold).mpr hfull)]
        obtain ⟨rfl, hkind, rfl⟩ := hfull
        obtain ⟨ticket, -, hticket, rfl, rfl⟩ := (haction.resolve_left (by decide)).2
        have hticket' : l'.withdraws.get? dispute.ticketUid = some ticket := by
          rw [hwithdraws, hticket]
        rw [ownerGain_of_get? hticket, returned_of_get? hticket, returned_of_get? hticket', hcount,
          hl']
        simp [Ne.symm huser]
        ring
      · rw [if_neg hfull, add_zero] at hcount
        rw [returned_of_same hwithdraws hcount, if_neg, add_zero]
        exact fun hgives => hfull ((refundedBy_resolveDispute hold).mp hgives)
  | betResolved hcall hget hopen hcredit hclosed howner hperiod hl' =>
      have hother : refundedBy l.disputes call = none := by
        rcases hcall with ⟨_, rfl⟩ | ⟨_, rfl, -⟩ <;> rfl
      subst hl'
      rw [hother]
      simp [Ledger.returned, fullRefunds]
  | _ =>
      subst_vars
      simp [Ledger.returned, fullRefunds, refundedBy]

/-! ## Invariants -/

/-- Two disputes never concern the same ticket. -/
def DisputesUnique (l : Ledger) : Prop :=
  ∀ i j first second, l.disputes.get? i = some first → l.disputes.get? j = some second →
    first.ticketType = second.ticketType → first.ticketUid = second.ticketUid → i = j

/-- Every withdraw that was paid back in full is there and satisfies `P`. -/
def PaidBack (P : WithdrawTicket → Prop) (l : Ledger) : Prop :=
  ∀ id dispute uid, l.disputes.get? id = some dispute → dispute.RefundedFull uid →
    ∃ ticket, l.withdraws.get? uid = some ticket ∧ P ticket

theorem Step.disputesUnique (hstep : Step now l call l') (hl : l.DisputesUnique) :
    l'.DisputesUnique := by
  have hkept : (∀ t u o e r, call ≠ .openDispute t u o e r) → l'.DisputesUnique := by
    intro hcall i j first second hfirst hsecond
    obtain ⟨first₀, hfirst₀, hkind₁, huid₁⟩ := hstep.dispute_origin hcall hfirst
    obtain ⟨second₀, hsecond₀, hkind₂, huid₂⟩ := hstep.dispute_origin hcall hsecond
    rw [hkind₁, hkind₂, huid₁, huid₂]
    exact hl i j first₀ second₀ hfirst₀ hsecond₀
  cases hstep with
  | quiet hquiet hl' =>
      subst hl'
      exact hl
  | @disputeOpened _ _ _ _ _ _ id dispute hnew hunique hstatus hl' =>
      subst hl'
      intro i j first second hfirst hsecond hkind huid
      simp only [Table.get?_insertNew, hnew, Option.getD_none] at hfirst hsecond
      by_cases hi : i = id <;> by_cases hj : j = id
      · rw [hi, hj]
      · rw [if_pos hi, Option.some.injEq] at hfirst
        rw [if_neg hj] at hsecond
        exact absurd ⟨hfirst ▸ hkind.symm, hfirst ▸ huid.symm⟩ (hunique j second hsecond)
      · rw [if_neg hi] at hfirst
        rw [if_pos hj, Option.some.injEq] at hsecond
        exact absurd ⟨hsecond ▸ hkind, hsecond ▸ huid⟩ (hunique i first hfirst)
      · rw [if_neg hi] at hfirst
        rw [if_neg hj] at hsecond
        exact hl i j first second hfirst hsecond hkind huid
  | betResolved hcall hget hopen hcredit hclosed howner hperiod hl' =>
      apply hkept
      rcases hcall with ⟨_, rfl⟩ | ⟨_, rfl, -⟩ <;> simp
  | _ => exact hkept (by simp)

/-- A full refund on record was there before, or this step paid it. -/
theorem Step.refundedFull (hstep : Step now l call l') {id : Int} {dispute : Dispute}
    (hdispute : l'.disputes.get? id = some dispute) (hfull : dispute.RefundedFull uid) :
    l.disputes.get? id = some dispute ∨
      ∃ amount admin old ticket,
        call = .resolveDispute (some id) (some "refund-full") amount admin ∧
          l.disputes.get? id = some old ∧ old.ticketType = .withdraw ∧ old.ticketUid = uid ∧
          l.withdraws.get? uid = some ticket := by
  have hclosed : ∀ {key : Int} {old new : Dispute}, l.disputes.get? key = some old →
      l'.disputes = l.disputes.set key new →
      l.disputes.get? id = some dispute ∨ id = key ∧ dispute = new := by
    intro key old new hold hl'
    rw [hl', Table.get?_set] at hdispute
    split at hdispute
    next heq =>
      rw [hold, Option.map_some, Option.some.injEq] at hdispute
      exact .inr ⟨heq, hdispute.symm⟩
    next => exact .inl hdispute
  obtain ⟨hkind, huid, hresolved, hresolution⟩ := hfull
  cases hstep with
  | disputeOpened hnew hunique hstatus hl' =>
      subst hl'
      simp only [Table.get?_insertNew, hnew, Option.getD_none] at hdispute
      split at hdispute
      next =>
        rw [Option.some.injEq] at hdispute
        rw [← hdispute, hstatus] at hresolved
        cases hresolved
      next => exact .inl hdispute
  | disputeRejected hold hstatus hl' =>
      rcases hclosed hold (congrArg Ledger.disputes hl') with hsame | ⟨-, rfl⟩
      · exact .inl hsame
      · cases hresolved
  | disputeDismissed hold hstatus haction hl' =>
      rcases hclosed hold (congrArg Ledger.disputes hl') with hsame | ⟨-, rfl⟩
      · exact .inl hsame
      · rcases haction with rfl | rfl <;> simp [Dispute.close] at hresolution
  | disputeRefunded hold hstatus haction huser hl' =>
      rcases hclosed hold (congrArg Ledger.disputes hl') with hsame | ⟨rfl, rfl⟩
      · exact .inl hsame
      · obtain rfl := Option.some.inj hresolution
        obtain ⟨ticket, -, hticket, -⟩ := (haction.resolve_left (by decide)).2
        exact .inr ⟨_, _, _, ticket, rfl, hold, hkind, huid, huid ▸ hticket⟩
  | _ =>
      subst_vars
      exact .inl hdispute

/-- What full refunds find, and what tickets keep, holds of every withdraw that
was paid back. -/
theorem Step.paidBack {P : WithdrawTicket → Prop} (hstep : Step now l call l')
    (hkeep : ∀ uid ticket ticket', WithdrawMove now uid call ticket ticket' → P ticket → P ticket')
    (hpaid : ∀ id amount admin dispute ticket,
      call = .resolveDispute (some id) (some "refund-full") amount admin →
      l.disputes.get? id = some dispute → dispute.ticketType = .withdraw →
      l.withdraws.get? dispute.ticketUid = some ticket → P ticket)
    (hl : l.PaidBack P) : l'.PaidBack P := by
  intro id dispute uid hdispute hfull
  obtain ⟨ticket, hticket, hP⟩ : ∃ ticket, l.withdraws.get? uid = some ticket ∧ P ticket := by
    rcases hstep.refundedFull hdispute hfull with
      hold | ⟨_, _, old, ticket, hcall, hold, hkind, rfl, hticket⟩
    · exact hl id dispute uid hold hfull
    · exact ⟨ticket, hticket, hpaid _ _ _ old ticket hcall hold hkind hticket⟩
  obtain ⟨ticket', hticket', hmove⟩ := hstep.withdraw_moves hticket
  exact ⟨ticket', hticket', hkeep uid ticket ticket' hmove hP⟩

theorem PaidBack.refundsMatch {P : WithdrawTicket → Prop} (hl : l.PaidBack P) :
    l.RefundsMatch := by
  intro uid hnone
  apply Table.sum_eq_zero
  intro id dispute hdispute
  apply if_neg
  intro hfull
  obtain ⟨ticket, hticket, -⟩ := hl id dispute uid hdispute hfull
  rw [hnone] at hticket
  cases hticket

/-- A ticket has at most one dispute, so it is paid back in full at most once. -/
theorem fullRefunds_cases (hunique : l.DisputesUnique) (uid : String) :
    l.fullRefunds uid = 0 ∨
      l.fullRefunds uid = 1 ∧ ∃ id dispute, l.disputes.get? id = some dispute ∧
        dispute.RefundedFull uid := by
  by_cases hany : ∃ id dispute, l.disputes.get? id = some dispute ∧ dispute.RefundedFull uid
  · obtain ⟨id, dispute, hdispute, hfull⟩ := hany
    refine .inr ⟨?_, id, dispute, hdispute, hfull⟩
    rw [fullRefunds, Table.sum_eq_term _ _ id, Table.term_of_get? hdispute, Dispute.refunds,
      if_pos hfull]
    intro key other hother hne
    apply if_neg
    rintro ⟨hkind, huid, -⟩
    exact hne (hunique key id other dispute hother hdispute (hkind.trans hfull.1.symm)
      (huid.trans hfull.2.1.symm))
  · left
    apply Table.sum_eq_zero
    intro id dispute hdispute
    exact if_neg fun hfull => hany ⟨id, dispute, hdispute, hfull⟩

/-- While only confirmed withdraws are paid back, no more than the amount returns. -/
theorem returned_le (hunique : l.DisputesUnique)
    (hpaid : l.PaidBack fun ticket => ticket.status = .confirmed) {ticket : WithdrawTicket}
    (hticket : l.withdraws.get? uid = some ticket) : l.returned uid ≤ ticket.amount := by
  have hpositive := ticket.amount_pos
  rw [returned_of_get? hticket, WithdrawTicket.released]
  rcases fullRefunds_cases hunique uid with hzero | ⟨hone, id, dispute, hdispute, hfull⟩
  · rw [hzero]
    split <;> omega
  · obtain ⟨confirmed, hconfirmed, hstatus⟩ := hpaid id dispute uid hdispute hfull
    obtain rfl := Option.some.inj (hconfirmed.symm.trans hticket)
    simp [hone, hstatus]

end Ledger

/-! ## When a full refund goes through -/

variable {env : Env} {s s₀ : Database}

/-- The treasury can pay a user: it holds the amount, the user's balance can take
it, and the payment can be audited. -/
structure Database.CanPay (s : Database) (env : Env) (user amount : Int) (admin : Option Int) :
    Prop where
  key : ∃ key, env.chainKey = .ok key
  admin : admin ≠ none
  notTreasury : user ≠ 0
  covered : amount ≤ s.balanceOf 0
  room : InBigint (s.balanceOf user + amount)

/-- The dispute is unresolved and about the withdraw `ticket`, which the treasury
can pay. -/
def Database.FullyRefundable (s : Database) (env : Env) (disputeId admin : Option Int)
    (ticket : WithdrawTicket) : Prop :=
  ∃ dispute, s.disputes.select disputeId = some dispute ∧ ¬ dispute.status.Terminal ∧
    dispute.ticketType = .withdraw ∧ s.withdrawTickets.get? dispute.ticketUid = some ticket ∧
    s.CanPay env ticket.discordId ticket.amount admin

theorem balance?_registered (s : Database) (user : Int) :
    ((s.addUser user {}).addBalance user .zero).balance? (some user) = some (s.balanceOf user) := by
  rw [Database.balance?, Table.select_some, Database.addBalance_balances,
    Database.addUser_balances, Table.get?_insertNew_self, Option.map_some]
  cases hrow : s.balances.get? user with
  | none => simp [Database.balanceOf, Database.balance?, hrow, Balance.zero]
  | some row => rw [balanceOf_of_get? hrow, Option.getD_some]

theorem treasuryWithdrawToUser_needs (pAmount pTargetUser admin : Option Int)
    (reason : Option String) :
    wp (treasuryWithdrawToUser env pAmount pTargetUser admin reason)
      (fun _ _ => ∃ amount user, pAmount = some amount ∧ pTargetUser = some user ∧
        s.CanPay env user amount admin) (fun _ => True) s := by
  unfold treasuryWithdrawToUser
  simp only [wp_bind, wp_get, wp_require, wp_raiseIf, wp_notNull, wp_insertUser, wp_insertBalance,
    wp_nullableBigint, wp_updateBalance, wp_auditLogInsertWithChain, wp_pure, balance?_registered,
    Option.map_some, Option.some.injEq, forall_eq', implies_true, true_and]
  rintro amount rfl _ hself before hbefore hcovered user rfl hroom
  have hpays : ∀ key, env.chainKey = .ok key → ∀ actor, admin = some actor →
      ∃ paid payee, some amount = some paid ∧ some user = some payee ∧
        s.CanPay env payee paid admin := by
    intro key hkey actor hactor
    refine ⟨amount, user, rfl, rfl, ⟨key, hkey⟩, by simp [hactor], fun hzero => ?_, ?_, hroom⟩
    · exact hself (by simp [hzero])
    · rw [Database.balanceOf, hbefore, Option.getD_some]
      exact not_lt.mp hcovered
  refine ⟨fun _ => ⟨fun _ => ?_, fun _ _ _ _ => ?_⟩,
    fun _ _ _ _ => ⟨fun _ => ?_, fun _ _ _ _ => ?_⟩⟩
  all_goals
    intro key hkey actor hactor _ _ _ _ _ _
    exact hpays key hkey actor hactor

/-- A payment the treasury can make goes through. -/
theorem treasuryWithdrawToUser_returns (hs : s.WellFormed) {user amount : Int} {admin : Option Int}
    (hpay : s.CanPay env user amount admin) (hamount : 0 < amount) (reason : Option String) :
    wp (treasuryWithdrawToUser env (some amount) (some user) admin reason)
      (fun _ s' => s'.HasUser user) (fun _ => False) s := by
  obtain ⟨⟨key, hkey⟩, hadmin, hself, hcovered, hroom⟩ := hpay
  obtain ⟨actor, rfl⟩ := Option.ne_none_iff_exists'.mp hadmin
  obtain ⟨row, hrow⟩ := Option.ne_none_iff_exists'.mp hs.treasury
  obtain ⟨owner, howner⟩ : ∃ owner, (s.balances.get? user).getD .zero = owner := ⟨_, rfl⟩
  have hbefore : s.balance? (some 0) = some row.balance := by
    rw [Database.balance?, Table.select_some, hrow, Option.map_some]
  have hbalance : s.balanceOf user = owner.balance := by
    have hregistered := balance?_registered s user
    rw [Database.balance?, Table.select_some, Database.addBalance_balances,
      Database.addUser_balances, Table.get?_insertNew_self, howner, Option.map_some] at hregistered
    exact (Option.some.inj hregistered).symm
  have htreasury := Table.get?_insertNew_of_some hrow user .zero
  have hother : ∀ new : Balance, ((s.balances.insertNew user .zero).set 0 new).get? user =
      some owner := by
    intro new
    rw [Table.get?_set_of_ne _ hself, Table.get?_insertNew_self, howner]
  have husers : ∀ v, v = user ∨ s.HasUser v → (s.users.insertNew user {}).get? v ≠ none := by
    rintro v (rfl | hv)
    · simp [Table.get?_insertNew_self]
    · obtain ⟨old, hold⟩ := Option.ne_none_iff_exists'.mp hv
      simp [Table.get?_insertNew_of_some hold]
  have hzero := husers 0 (.inr (hs.registered 0 hs.treasury))
  have huser := husers user (.inl rfl)
  have hself' : ¬ IsEq (some user) (some 0) := by simpa using hself
  have hcovered' : ¬ row.balance < amount := by
    rw [balanceOf_of_get? hrow] at hcovered
    exact not_lt.mpr hcovered
  unfold treasuryWithdrawToUser
  simp only [wp_bind, wp_get, wp_require, wp_raiseIf, wp_notNull, wp_insertUser, wp_insertBalance,
    wp_nullableBigint, wp_updateBalance, wp_auditLogInsertWithChain, wp_pure, balance?_registered,
    Option.map_some, Option.getD_some, Option.some.injEq, forall_eq', implies_true, true_and, hkey,
    hbefore, htreasury, hother, hroom, Database.addBalance_balances, Database.addUser_balances,
    Database.setBalance_balances, Database.withAudit_users, Database.setBalance_users,
    Database.addBalance_users, Database.addUser_users, Database.advance_users, Database.HasUser, hzero, huser, hself',
    hcovered', not_le.mpr hamount, reduceCtorEq, false_implies, Except.ok.injEq,
    not_true_eq_false, not_false_eq_true, true_implies]
  have hrange := row.inRange
  have hpositive := row.balance_nonneg
  have hamounts := owner.inRange
  have howned := owner.balance_nonneg
  constructor
  · refine Balance.check_ne_error ⟨?_, hrange.2⟩ ?_ row.lockedBalance_nonneg
      row.totalWagered_nonneg row.totalWon_nonneg
    · have hbig := hrange.1
      unfold InBigint at hbig ⊢
      dsimp only
      omega
    · dsimp only
      omega
  · intro _ _
    refine ⟨?_, fun _ _ => huser⟩
    refine Balance.check_ne_error ⟨hroom, hamounts.2⟩ ?_ owner.lockedBalance_nonneg
      owner.totalWagered_nonneg owner.totalWon_nonneg
    dsimp only
    omega

theorem payRefund_needs (dispute : Dispute) (id amount admin : Option Int) :
    wp (payRefund env s dispute id (some "refund-full") amount admin)
      (fun _ _ => dispute.ticketType = .withdraw ∧
        ∃ ticket, s.withdrawTickets.get? dispute.ticketUid = some ticket ∧
          s.CanPay env ticket.discordId ticket.amount admin) (fun _ => True) s := by
  have hpartial : ¬ IsEq (some "refund-full") (some "partial-refund") := by decide
  have hfull : IsEq (some "refund-full") (some "refund-full") := by decide
  unfold payRefund
  simp only [wp_bind, wp_ifDo, wp_raiseIf, hpartial, hfull, false_implies, not_false_eq_true,
    true_implies, not_true_eq_false, implies_true, true_and, and_true]
  intro hkind
  apply wp_mono (treasuryWithdrawToUser_needs _ _ _ _) _ fun _ _ => trivial
  rintro _ _ ⟨paid, user, hpaid, huser, hpay⟩
  obtain ⟨ticket, hticket, rfl⟩ := Option.map_eq_some_iff.mp hpaid
  have hkind := not_ne_iff.mp hkind
  rw [Database.disputedUser, hkind] at huser
  simp only [hticket, Option.map_some, Option.some.injEq] at huser
  subst huser
  exact ⟨hkind, ticket, hticket, hpay⟩

theorem payRefund_returns (hs : s.WellFormed) {dispute : Dispute} {ticket : WithdrawTicket}
    (hkind : dispute.ticketType = .withdraw)
    (hticket : s.withdrawTickets.get? dispute.ticketUid = some ticket) {admin : Option Int}
    (hpay : s.CanPay env ticket.discordId ticket.amount admin) (id amount : Option Int) :
    wp (payRefund env s dispute id (some "refund-full") amount admin)
      (fun _ s' => s'.HasUser ticket.discordId) (fun _ => False) s := by
  have hpartial : ¬ IsEq (some "refund-full") (some "partial-refund") := by decide
  have hfull : IsEq (some "refund-full") (some "refund-full") := by decide
  unfold payRefund
  simp only [wp_bind, wp_ifDo, wp_raiseIf, hpartial, hfull, hticket, Option.map_some,
    Database.disputedUser, hkind, ne_eq, false_implies, not_false_eq_true, true_implies,
    not_true_eq_false, true_and, and_true]
  exact treasuryWithdrawToUser_returns hs hpay ticket.amount_pos _

/-- A full refund goes through exactly when its dispute is unresolved and about a
withdraw that the treasury can pay; whatever the ticket's status. -/
theorem refundFull_succeeds_iff (hs : s.WellFormed) (id amount admin : Option Int) :
    (Call.resolveDispute id (some "refund-full") amount admin).Succeeds env s ↔
      ∃ ticket, s.FullyRefundable env id admin ticket := by
  constructor
  · intro hok
    have hwp : wp (callBody env (.resolveDispute id (some "refund-full") amount admin))
        (fun _ _ => ∃ ticket, s.FullyRefundable env id admin ticket) (fun _ => True) s := by
      unfold callBody resolveDispute
      simp only [wp_bind, wp_get, wp_require, wp_raiseIf, wp_modify, wp_pure, implies_true,
        true_and, wp_auditLogInsertWithChain]
      intro dispute hdispute hstatus _
      apply wp_mono (payRefund_needs _ _ _ _) _ fun _ _ => trivial
      rintro _ s' ⟨hkind, ticket, hticket, hpay⟩
      intros
      exact ⟨ticket, dispute, hdispute, hstatus, hkind, hticket, hpay⟩
    exact post_of_outcome hwp (transact_ok Database.rollback (Prod.ext hok rfl))
  · rintro ⟨ticket, dispute, hdispute, hstatus, hkind, hticket, hpay⟩
    obtain ⟨disputeId, rfl, -⟩ := Table.select_eq_some.mp hdispute
    obtain ⟨key, hkey⟩ := hpay.key
    obtain ⟨actor, rfl⟩ := Option.ne_none_iff_exists'.mp hpay.admin
    have haction : ¬ IsNotIn (some "refund-full") resolutions := by decide
    have huser : s.disputedUser dispute = some ticket.discordId := by
      simp [Database.disputedUser, hkind, hticket]
    apply succeeds_of_wp
    unfold callBody resolveDispute
    simp only [wp_bind, wp_get, wp_require, wp_raiseIf, wp_modify, wp_pure, hdispute, hstatus,
      haction, huser, hkey, wp_auditLogInsertWithChain, Option.map_some, Option.some.injEq,
      forall_eq', Except.ok.injEq, reduceCtorEq, false_implies, implies_true, true_and, and_true,
      not_false_eq_true, true_implies, Database.setDispute_users]
    exact payRefund_returns hs hkind hticket hpay _ _

/-! ## Runs -/

/-- What the owner of a withdraw gains by a call that gives its gold back. -/
def returnedBy (uid : String) (taken : Database × Command) : Int :=
  match taken.2 with
  | .call env call =>
      if call.Succeeds env taken.1 ∧ refundedBy taken.1.disputes call = some uid then
        ((taken.1.withdrawTickets.get? uid).map fun ticket =>
          (step taken.1 taken.2).balanceOf ticket.discordId -
            taken.1.balanceOf ticket.discordId).getD 0
      else 0
  | .config _ => 0

variable {uid : String}

theorem ownerGain_eq (s s' : Database) (uid : String) :
    s.ledger.ownerGain s'.ledger uid =
      ((s.withdrawTickets.get? uid).map fun ticket =>
        s'.balanceOf ticket.discordId - s.balanceOf ticket.discordId).getD 0 := by
  cases hticket : s.withdrawTickets.get? uid with
  | none =>
      have hnone : s.ledger.withdraws.get? uid = none := hticket
      rw [Ledger.ownerGain, hnone]
      rfl
  | some ticket =>
      rw [Ledger.ownerGain_of_get? hticket, ledger_books_wallet, ledger_books_wallet]
      rfl

theorem step_returned (hs : s.WellFormed) (hmatch : s.ledger.RefundsMatch) (command : Command) :
    (step s command).ledger.returned uid = s.ledger.returned uid + returnedBy uid (s, command) := by
  cases command with
  | call env call =>
      rcases @ledger_step env s call hs with ⟨hok, hstep⟩ | ⟨hfail, hsame⟩
      · rw [hstep.returned hmatch uid, ownerGain_eq]
        simp only [returnedBy, hok, true_and]
        rfl
      · simp [returnedBy, hfail, hsame]
  | config write =>
      have hsame := config_sameState (s := s) write
      rw [returnedBy, add_zero]
      apply Ledger.returned_of_same hsame.withdraws
      rw [Ledger.fullRefunds]
      exact congrArg (fun disputes => disputes.sum fun _ dispute => dispute.refunds uid)
        hsame.disputes

/-- The command pays a withdraw back in full only if it is confirmed. -/
def Command.RefundsConfirmed (s : Database) (command : Command) : Prop :=
  ∀ env id amount admin ticket,
    command = .call env (.resolveDispute id (some "refund-full") amount admin) →
    s.FullyRefundable env id admin ticket → ticket.status = .confirmed

theorem disputesUnique_step (hs : s.WellFormed) (hunique : s.ledger.DisputesUnique)
    (command : Command) : (step s command).ledger.DisputesUnique := by
  rcases ledger_command hs command with ⟨env, call, -, -, hstep⟩ | ⟨-, hsame⟩
  · exact hstep.disputesUnique hunique
  · rw [Ledger.DisputesUnique, hsame.disputes]
    exact hunique

theorem paidBack_step {P : WithdrawTicket → Prop} (hs : s.WellFormed)
    (hpaid : s.ledger.PaidBack P) (command : Command)
    (hkeep : ∀ now call uid ticket ticket', Ledger.WithdrawMove now uid call ticket ticket' →
      P ticket → P ticket')
    (hrefund : ∀ env id amount admin ticket,
      command = .call env (.resolveDispute id (some "refund-full") amount admin) →
      s.FullyRefundable env id admin ticket → P ticket) : (step s command).ledger.PaidBack P := by
  rcases ledger_command hs command with ⟨env, call, rfl, hok, hstep⟩ | ⟨-, hsame⟩
  · apply hstep.paidBack (hkeep env.now call) _ hpaid
    rintro id amount admin dispute ticket rfl hdispute hkind hticket
    obtain ⟨ticket', hrefundable⟩ := (refundFull_succeeds_iff hs _ _ _).mp hok
    have hP := hrefund env (some id) amount admin ticket' rfl hrefundable
    obtain ⟨dispute', hdispute', -, -, hticket', -⟩ := hrefundable
    obtain rfl := Option.some.inj (hdispute'.symm.trans hdispute)
    obtain rfl := Option.some.inj (hticket'.symm.trans hticket)
    exact hP
  · rw [Ledger.PaidBack, hsame.disputes, hsame.withdraws]
    exact hpaid

/-- What has been returned on account of a withdraw is what its ticket and
disputes show. -/
theorem returned_run (hs : s₀.EmptyLedger) (commands : List Command) (uid : String) :
    ((steps step s₀ commands).map (returnedBy uid)).sum =
      (run step s₀ commands).ledger.returned uid := by
  have hstep : ∀ s command, True → s.WellFormed ∧ s.ledger.PaidBack (fun _ => True) →
      (step s command).WellFormed ∧ (step s command).ledger.PaidBack fun _ => True :=
    fun s command _ hinv => ⟨wellFormed_step hinv.1 command, paidBack_step hinv.1 hinv.2 command
      (fun _ _ _ _ _ _ h => h) fun _ _ _ _ _ _ _ => trivial⟩
  have hdelta : ∀ s command, True → s.WellFormed ∧ s.ledger.PaidBack (fun _ => True) →
      (step s command).ledger.returned uid =
        s.ledger.returned uid + returnedBy uid (s, command) :=
    fun s command _ hinv => step_returned hinv.1 hinv.2.refundsMatch command
  have hstart : s₀.ledger.PaidBack fun _ => True := by
    intro id dispute uid hdispute
    have hempty : s₀.ledger.disputes = .empty := hs.disputes
    simp [hempty] at hdispute
  have hzero : s₀.ledger.returned uid = 0 := by
    have hempty : s₀.ledger.withdraws = .empty := hs.withdraws
    exact Ledger.returned_of_none (by rw [hempty, Table.get?_empty])
  rw [run_accounts (fun s : Database => s.ledger.returned uid)
    (fun s command => returnedBy uid (s, command)) hstep hdelta ⟨hs.wellFormed, hstart⟩
    fun _ _ => trivial, hzero, zero_add]

/-- The gold of withdraws is given back at most once in a run. -/
structure RefundsOnce (s₀ : Database) (commands : List Command) : Prop where
  /-- A full refund goes through only for a confirmed withdraw. -/
  confirmed : ∀ s env id amount admin,
    (s, Command.call env (.resolveDispute id (some "refund-full") amount admin)) ∈
      steps step s₀ commands →
    (Call.resolveDispute id (some "refund-full") amount admin).Succeeds env s →
    ∃ dispute ticket, s.disputes.select id = some dispute ∧ dispute.ticketType = .withdraw ∧
      s.withdrawTickets.get? dispute.ticketUid = some ticket ∧ ticket.status = .confirmed
  /-- Cancellation and full refunds together return no more than the amount. -/
  bounded : ∀ uid ticket, (run step s₀ commands).withdrawTickets.get? uid = some ticket →
    ((steps step s₀ commands).map (returnedBy uid)).sum ≤ ticket.amount

/-- It is given back at most once exactly when every full refund that the treasury
can pay is for a confirmed withdraw: `dw.resolve_dispute` itself does not check. -/
theorem refunds_once_iff (hs : s₀.EmptyLedger) (commands : List Command) :
    RefundsOnce s₀ commands ↔
      ∀ s command, (s, command) ∈ steps step s₀ commands → command.RefundsConfirmed s := by
  constructor
  · rintro honce s command hmem env id amount admin ticket rfl hrefundable
    obtain ⟨first, rest, -, rfl⟩ := exists_split_of_mem_steps step hmem
    have hok := (refundFull_succeeds_iff (wellFormed_run hs.wellFormed first) id amount admin).mpr
      ⟨ticket, hrefundable⟩
    obtain ⟨dispute, paid, hdispute, -, hpaid, hconfirmed⟩ :=
      honce.confirmed _ env id amount admin hmem hok
    obtain ⟨dispute', hdispute', -, -, hticket, -⟩ := hrefundable
    obtain rfl := Option.some.inj (hdispute'.symm.trans hdispute)
    obtain rfl := Option.some.inj (hticket.symm.trans hpaid)
    exact hconfirmed
  · intro hcommands
    constructor
    · intro s env id amount admin hmem hok
      obtain ⟨first, rest, -, rfl⟩ := exists_split_of_mem_steps step hmem
      obtain ⟨ticket, hrefundable⟩ :=
        (refundFull_succeeds_iff (wellFormed_run hs.wellFormed first) id amount admin).mp hok
      have hconfirmed := hcommands _ _ hmem env id amount admin ticket rfl hrefundable
      obtain ⟨dispute, hdispute, -, hkind, hticket, -⟩ := hrefundable
      exact ⟨dispute, ticket, hdispute, hkind, hticket, hconfirmed⟩
    · intro uid ticket hticket
      have hconfirmed : ∀ now call uid (ticket ticket' : WithdrawTicket),
          Ledger.WithdrawMove now uid call ticket ticket' → ticket.status = .confirmed →
          ticket'.status = .confirmed := by
        intro now call uid ticket ticket' hmove hstatus
        rw [hmove.terminal (.inl hstatus), hstatus]
      -- the invariant of the run: one dispute a ticket, and what was paid back is confirmed
      have hkeeps : ∀ s command, command.RefundsConfirmed s →
          s.WellFormed ∧ s.ledger.DisputesUnique ∧
            s.ledger.PaidBack (fun ticket => ticket.status = .confirmed) →
          (step s command).WellFormed ∧ (step s command).ledger.DisputesUnique ∧
            (step s command).ledger.PaidBack fun ticket => ticket.status = .confirmed :=
        fun s command hcommand hinv => ⟨wellFormed_step hinv.1 command,
          disputesUnique_step hinv.1 hinv.2.1 command,
          paidBack_step hinv.1 hinv.2.2 command hconfirmed hcommand⟩
      have hempty : s₀.ledger.disputes = .empty := hs.disputes
      have hstart : s₀.WellFormed ∧ s₀.ledger.DisputesUnique ∧
          s₀.ledger.PaidBack fun ticket => ticket.status = .confirmed := by
        refine ⟨hs.wellFormed, fun i j first second hfirst => ?_, fun id dispute uid hdispute => ?_⟩
        · simp [hempty] at hfirst
        · simp [hempty] at hdispute
      have hend := run_invariant_of_steps hkeeps hstart hcommands
      rw [returned_run hs]
      exact Ledger.returned_le hend.2.1 hend.2.2 hticket

/-- A lost bet leaves 2000 with the treasury, then a withdraw of 1000 is opened. -/
def fundedRun : List Command :=
  depositRun ++
    [.call .plain (.applyBet (some 9) (some "dice") (some 1) (some 2000) (some .null) (some [])
      (some "seed") (some 0) (some "key-1") (some "bet-1")),
     .call .plain (.resolveBet (some 1) (some "resolved_loss") (some 0) (some .null)),
     .call .plain (.createWithdrawTicket (some 9) (some "Char") (some "Realm") (some "EU")
      (some "Horde") (some 1000) (some 3) (some 2))]

/-- The withdraw is disputed and paid back in full. -/
def refundRun : List Command :=
  [.call .plain (.openDispute (some "withdraw") (some "withdraw-1") (some 9) (some "user")
    (some "not received")),
   .call .plain (.resolveDispute (some 1) (some "refund-full") none (some 5))]

def confirmedRefundRun : List Command :=
  fundedRun ++
    [.call .plain (.claimTicket (some "withdraw") (some "withdraw-1") (some 7)),
     .call .plain (.confirmWithdraw (some "withdraw-1") (some 7))] ++ refundRun

def cancelledRefundRun : List Command :=
  fundedRun ++ [.call .plain (.cancelWithdraw (some "withdraw-1") (some 9) none)] ++ refundRun

/-- What a resolution gives back was confirmed before. -/
def refundsConfirmed (s : Database) : Command → Bool
  | .call _ (.resolveDispute id action amount admin) =>
      ((refundedBy s.disputes (.resolveDispute id action amount admin)).bind
        s.withdrawTickets.get?).all fun ticket => ticket.status = .confirmed
  | _ => true

set_option maxRecDepth 8000 in
theorem refunds_once_confirmed : RefundsOnce .seeded confirmedRefundRun := by
  have hstatus : ∀ taken ∈ steps step .seeded confirmedRefundRun,
      refundsConfirmed taken.1 taken.2 = true := by
    decide
  apply (refunds_once_iff seeded_empty confirmedRefundRun).mpr
  rintro s command hmem env id amount admin ticket rfl ⟨dispute, hdispute, -, hkind, hticket, -⟩
  have hpaid := hstatus _ hmem
  simpa [refundsConfirmed, refundedBy, hdispute, Option.filter, hkind, hticket] using hpaid

set_option maxRecDepth 8000 in
/-- A withdraw of 1000 that is cancelled, disputed and paid back gives back 2000. -/
theorem cancelled_withdraw_refunded :
    ((run step .seeded cancelledRefundRun).withdrawTickets.get? "withdraw-1").map
        (fun ticket => (ticket.status, ticket.amount)) = some (.cancelled, 1000) ∧
      ((steps step .seeded cancelledRefundRun).map (returnedBy "withdraw-1")).sum = 2000 ∧
      ¬ RefundsOnce .seeded cancelledRefundRun := by
  have hcolumns : ((run step .seeded cancelledRefundRun).withdrawTickets.get? "withdraw-1").map
      (fun ticket => (ticket.status, ticket.amount)) = some (.cancelled, 1000) := by
    decide
  have htotal :
      ((steps step .seeded cancelledRefundRun).map (returnedBy "withdraw-1")).sum = 2000 := by
    decide
  refine ⟨hcolumns, htotal, fun honce => ?_⟩
  obtain ⟨ticket, hticket, hrow⟩ := Option.map_eq_some_iff.mp hcolumns
  have hbound := honce.bounded "withdraw-1" ticket hticket
  rw [htotal, (Prod.mk.inj hrow).2] at hbound
  omega

end DeathRoll
