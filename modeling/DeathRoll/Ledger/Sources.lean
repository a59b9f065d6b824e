import DeathRoll.Ledger.Conservation
import DeathRoll.Ledger.Payout
import DeathRoll.Ledger.Settlement

/-! # Where the gold of a wallet comes from

Every balance is a sum over the rows that are there now: deposits that were confirmed,
withdraws that were not cancelled, what each bet has returned, and for the treasury the
fees, commissions and bets it has kept. Only what the treasury's own operations moved is
not in a row of a ticket or a bet. A bet counts by its own columns, so the row of a
closed bet has to name what it returned.
-/

namespace DeathRoll

open Relational Tx Account
open Finsupp (single)

variable {env : Env} {s s' : Database}

/-! ## What a closed bet records -/

/-- Closing a bet keeps its owner, its amounts and its period. -/
structure Bet.SameWager (bet closed : Bet) : Prop where
  discordId : closed.discordId = bet.discordId
  betAmount : closed.betAmount = bet.betAmount
  effectiveStake : closed.effectiveStake = bet.effectiveStake
  commission : closed.commission = bet.commission
  rake : closed.rake = bet.rake
  rakePeriodId : closed.rakePeriodId = bet.rakePeriodId

/-- What a bet has returned to its bettor. -/
def Bet.returned (bet : Bet) : Int :=
  match bet.status with
  | .resolvedWin => bet.payoutAmount
  | .resolvedTie => bet.effectiveStake
  | .refunded => bet.betAmount
  | .open | .resolvedLoss | .voided => 0

/-- How a call closed a bet. -/
inductive Bet.ClosedBy (id : Int) (bet : Bet) : Call → Bet → Prop
  | resolved {status : Option String} {payout : Option Int} {outcome : Option Json} {closed : Bet}
      (hsame : bet.SameWager closed) (hstatus : closed.status.text ∈ resolvedStatuses)
      (hcredit : creditUser status payout bet.effectiveStake = some closed.returned) :
      ClosedBy id bet (.resolveBet (some id) status payout outcome) closed
  | cashedOut {multiplier : Option Numeric} {closed : Bet} (hsame : bet.SameWager closed)
      (hstatus : closed.status.text ∈ resolvedStatuses)
      (hcredit : (multiplier.map fun m => m.floorMul bet.effectiveStake) = some closed.returned) :
      ClosedBy id bet (.cashoutMines (some id) multiplier) closed
  | refunded {reason : Option String} {closed : Bet} (hsame : bet.SameWager closed)
      (hstatus : closed.status = .refunded) : ClosedBy id bet (.refundBet (some id) reason) closed

/-- The bets that are open in `s` and closed in `s'` were closed in this way. -/
def Database.ClosesBy (s : Database) (closes : Int → Bet → Bet → Prop) (s' : Database) : Prop :=
  ∀ id bet closed, s.bets.get? id = some bet → bet.status = .open →
    s'.bets.get? id = some closed → closed.status ≠ .open → closes id bet closed

theorem closesBy_of_same {closes : Int → Bet → Bet → Prop} (hbets : s'.bets = s.bets) :
    s.ClosesBy closes s' := by
  intro id bet closed hbet hopen hclosed hstatus
  rw [hbets, hbet, Option.some.injEq] at hclosed
  exact absurd (hclosed ▸ hopen) hstatus

theorem closesBy_of_set {closes : Int → Bet → Bet → Prop} {id : Int} {bet closed : Bet}
    (hbet : s.bets.get? id = some bet) (hbets : s'.bets = s.bets.set id closed)
    (hcloses : closes id bet closed) : s.ClosesBy closes s' := by
  intro other row row' hrow hopen hrow' hstatus
  rw [hbets, Table.get?_set] at hrow'
  split at hrow'
  next heq =>
    subst heq
    rw [hbet, Option.map_some, Option.some.injEq] at hrow'
    obtain rfl := Option.some.inj (hbet.symm.trans hrow)
    exact hrow' ▸ hcloses
  next =>
    obtain rfl := Option.some.inj (hrow.symm.trans hrow')
    exact absurd hopen hstatus

theorem closeBet_records {post : Unit → Database → Prop} {id payout profit : Int} {bet : Bet}
    {status : BetStatus} {outcome : Option Json}
    (hpost : ∀ closed : Bet, bet.SameWager closed → closed.status = status →
      closed.payoutAmount = payout → post () (s.setBet id closed)) :
    wp (closeBet env id bet status payout profit outcome) post (fun _ => True) s := by
  unfold closeBet
  simp only [wp_dite, wp_modify, wp_throw, implies_true, and_true]
  intro _
  exact hpost _ ⟨rfl, rfl, rfl, rfl, rfl, rfl⟩ rfl rfl

theorem returned_of_credit {bet closed : Bet} (hsame : bet.SameWager closed)
    (hvalid : closed.status.text ∈ resolvedStatuses) :
    closed.returned = bet.credit closed.payoutAmount closed.status := by
  unfold Bet.returned
  rcases resolved_of_mem hvalid with hstatus | hstatus | hstatus <;>
    simp [hstatus, Bet.credit, hsame.effectiveStake]

theorem resolveBet_closes (b : Option Int) (t : Option String) (p : Option Int)
    (o : Option Json) :
    wp (resolveBet env b t p o) (fun _ s' => s.ClosesBy (fun id bet closed =>
      b = some id ∧ bet.SameWager closed ∧ closed.status.text ∈ resolvedStatuses ∧
        creditUser t p bet.effectiveStake = some closed.returned) s') (fun _ => True) s := by
  unfold resolveBet
  simp only [wp_bind, wp_get, wp_require, wp_ite, wp_raiseIf, wp_nullableBigint, wp_notNull,
    wp_checkedText, wp_pure, implies_true, true_and]
  intro hvalid _ bet hbet
  refine ⟨fun _ => closesBy_of_same rfl, fun _ _ _ credit hcredit => ?_⟩
  refine wp_of_keeps (updateBalance_keeps fun _ => rfl) fun _ s₁ h₁ => ?_
  refine wp_of_keeps (ifDo_updateBalance_keeps fun _ => rfl) fun _ s₂ h₂ => ?_
  intro id hid text htext status hstatus payout hpayout
  subst hid htext hpayout
  rw [isNotIn_some, not_not] at hvalid
  refine closeBet_records fun closed hsame hclosed hamount => ?_
  refine wp_of_keeps (auditLogInsert_keeps.map Prod.fst) fun _ s₃ h₃ => ?_
  have hbets : s₂.bets = s.bets := congrArg (fun view => view.1.2) (h₂.trans h₁)
  have hset : s₃.bets = s.bets.set id closed := by
    rw [← hbets]
    exact congrArg Prod.snd h₃
  simp only [resolvedStatuses, List.mem_cons, List.not_mem_nil, or_false] at hvalid
  have htext : text = status.text ∧ status.text ∈ resolvedStatuses := by
    rcases hvalid with rfl | rfl | rfl <;> cases hstatus <;> decide
  have hresolved : closed.status.text ∈ resolvedStatuses := hclosed ▸ htext.2
  refine closesBy_of_set hbet hset ⟨rfl, hsame, hresolved, ?_⟩
  rw [returned_of_credit hsame hresolved, hclosed, hamount, htext.1]
  exact creditUser_text htext.2 bet payout

theorem refundBet_closes (b : Option Int) (r : Option String) :
    wp (refundBet env b r) (fun _ s' => s.ClosesBy (fun id bet closed =>
      bet.ClosedBy id (.refundBet b r) closed) s') (fun _ => True) s := by
  unfold refundBet
  simp only [wp_bind, wp_get, wp_require, wp_ite, wp_raiseIf, wp_pure, implies_true, true_and]
  intro bet hbet
  refine ⟨fun _ => closesBy_of_same rfl, fun _ _ => ?_⟩
  refine updateBalance_wagers (-bet.betAmount) (fun _ => sub_eq_add_neg _ _) fun s₁ hbets₁ _ => ?_
  refine wp_of_keeps (ifDo_updateBalance_keeps fun _ => rfl) fun _ s₂ h₂ => ?_
  refine wp_of_keeps (addToPool_keeps.ifDo _) fun _ s₃ h₃ => ?_
  refine wp_of_keeps (ifDo_updateBalance_keeps fun _ => rfl) fun _ s₄ h₄ => ?_
  intro id hid
  subst hid
  refine closeBet_records fun closed hsame hclosed _ => ?_
  refine wp_of_keeps (auditLogInsert_keeps.map Prod.fst) fun _ s₅ h₅ => ?_
  have hbets : s₄.bets = s.bets :=
    (congrArg (fun view => view.1.2) (h₄.trans (h₃.trans h₂))).trans hbets₁
  have hset : s₅.bets = s.bets.set id closed := by
    rw [← hbets]
    exact congrArg Prod.snd h₅
  exact closesBy_of_set hbet hset (.refunded hsame hclosed)

theorem cashoutMines_closes (b : Option Int) (m : Option Numeric) :
    wp (cashoutMines env b m) (fun _ s' => s.ClosesBy (fun id bet closed =>
      bet.ClosedBy id (.cashoutMines b m) closed) s') (fun _ => True) s := by
  unfold cashoutMines
  simp only [wp_bind, wp_get, wp_require, wp_raiseIf, wp_nullableBigint, implies_true, true_and]
  intro _ mines hmines _ _ _
  refine wp_mono (resolveBet_closes ..) (fun _ s' hcloses => ?_) fun _ h => h
  intro id bet closed hbet hopen hclosed hstatus
  obtain ⟨rfl, hsame, hresolved, hcredit⟩ := hcloses id bet closed hbet hopen hclosed hstatus
  obtain rfl := Option.some.inj (hmines.symm.trans hbet)
  exact .cashedOut hsame hresolved (by simpa [creditUser] using hcredit)

/-- A call that closes a bet resolves it, cashes it out or refunds it. -/
theorem Ledger.Step.closing {now : Timestamp} {l l' : Ledger} {call : Call}
    (hstep : Ledger.Step now l call l') {id : Int} {bet closed : Bet}
    (hbet : l.bets.get? id = some bet) (hopen : bet.status = .open)
    (hclosed : l'.bets.get? id = some closed) (hstatus : closed.status ≠ .open) :
    (∃ b t p o, call = .resolveBet b t p o) ∨ (∃ b m, call = .cashoutMines b m) ∨
      ∃ b r, call = .refundBet b r := by
  have hkept : l'.bets.get? id = some bet → False := by
    intro hsame
    rw [hsame, Option.some.injEq] at hclosed
    exact hstatus (hclosed ▸ hopen)
  cases hstep with
  | betResolved hcall =>
      rcases hcall with ⟨outcome, rfl⟩ | ⟨multiplier, rfl, -⟩
      · exact .inl ⟨_, _, _, _, rfl⟩
      · exact .inr (.inl ⟨_, _, rfl⟩)
  | betRefunded => exact .inr (.inr ⟨_, _, rfl⟩)
  | betPlaced hnew _ _ _ _ _ _ hl' =>
      subst hl'
      exact (hkept (Table.get?_insertNew_of_some hbet _ _)).elim
  | _ =>
      subst_vars
      exact (hkept hbet).elim

/-- The row of a bet that a call closed names what the bet returned. -/
theorem closes_of_succeeds (hs : s.WellFormed) {call : Call} (hok : call.Succeeds env s) :
    s.ClosesBy (fun id bet closed => bet.ClosedBy id call closed) (step s (.call env call)) := by
  have hrun : call.exec env s = (.ok (), step s (.call env call)) := Prod.ext hok rfl
  have hreturns := transact_ok Database.rollback hrun
  intro id bet closed hbet hopen hclosed hstatus
  rcases (takes_of_succeeds hs hok).1.closing hbet hopen hclosed hstatus with
    ⟨b, t, p, o, rfl⟩ | ⟨b, m, rfl⟩ | ⟨b, r, rfl⟩
  · obtain ⟨rfl, hsame, hresolved, hcredit⟩ :=
      post_of_outcome (resolveBet_closes b t p o) hreturns id bet closed hbet hopen hclosed hstatus
    exact .resolved hsame hresolved hcredit
  · exact post_of_outcome (cashoutMines_closes b m) hreturns id bet closed hbet hopen hclosed hstatus
  · exact post_of_outcome (refundBet_closes b r) hreturns id bet closed hbet hopen hclosed hstatus

/-! ## What the treasury moves itself -/

/-- What `dw.resolve_dispute` refunds for a dispute. -/
def Database.refundOf (s : Database) (dispute : Dispute) (action : Option String)
    (amount : Option Int) : Option Int :=
  if action = some "partial-refund" then amount
  else if action = some "refund-full" then
    (s.withdrawTickets.get? dispute.ticketUid).map fun ticket => ticket.amount
  else none

/-- The user that a call pays from the treasury, and the amount. -/
def Database.transfer (s : Database) : Call → Option (Int × Int)
  | .treasuryWithdrawToUser amount target _ _ => do return (← target, ← amount)
  | .resolveDispute id action amount _ => do
      let dispute ← s.disputes.select id
      return (← s.disputedUser dispute, ← s.refundOf dispute action amount)
  | _ => none

/-- What a sweep or a payment from the treasury moves in a user's wallet. -/
def Database.treasuryMove (s : Database) (call : Call) (user : Int) : Int :=
  ((s.transfer call).elim 0 fun transfer =>
      (if transfer.1 = user then transfer.2 else 0) - if user = 0 then transfer.2 else 0) -
    if user = 0 then call.swept else 0

/-- What the books post when the treasury pays a user. -/
noncomputable def transferPosting : Option (Int × Int) → Account →₀ ℤ
  | some (user, amount) => single (wallet 0) (-amount) + single (wallet user) amount
  | none => 0

theorem transferPosting_wallet (transfer : Option (Int × Int)) (user : Int) :
    transferPosting transfer (wallet user) = transfer.elim 0 fun transfer =>
      (if transfer.1 = user then transfer.2 else 0) - if user = 0 then transfer.2 else 0 := by
  cases transfer with
  | none => rfl
  | some transfer =>
      simp only [transferPosting, Finsupp.add_apply, Finsupp.single_apply, Account.wallet.injEq,
        Option.elim_some]
      split_ifs <;> omega

/-- The books post what the treasury pays a user, and it never pays itself. -/
def Database.PostsTransfer (s : Database) (transfer : Option (Int × Int)) (l' : Ledger) : Prop :=
  l'.books = s.ledger.books + transferPosting transfer ∧
    ∀ paid, transfer = some paid → paid.1 ≠ 0

theorem payRefund_posts {dispute : Dispute} {id : Option Int} {action : Option String}
    {amount resolvedBy : Option Int} {post : Unit → Database → Prop}
    (hpost : ∀ s', s.PostsTransfer (do
      return (← s.disputedUser dispute, ← s.refundOf dispute action amount)) s'.ledger → post () s') :
    wp (payRefund env s dispute id action amount resolvedBy) post (fun _ => True) s := by
  unfold payRefund
  simp only [wp_bind, wp_ifDo, wp_require, wp_raiseIf, implies_true, true_and]
  refine ⟨?_, fun hpartial => ⟨?_, fun hfull => ?_⟩⟩
  · rintro ⟨text, rfl, htext⟩ amount rfl _
    obtain rfl := Option.some.inj htext
    refine treasuryWithdrawToUser_pays fun s' paid user hpaid huser hself hledger _ =>
      ⟨fun hfull => ?_, fun _ => hpost s' ?_⟩
    · simp at hfull
    · obtain rfl := Option.some.inj hpaid
      rw [huser]
      refine ⟨by rw [hledger]; rfl, ?_⟩
      rintro _ ⟨⟩
      exact hself
  · rintro ⟨text, rfl, htext⟩ _
    obtain rfl := Option.some.inj htext
    refine treasuryWithdrawToUser_pays fun s' paid user hpaid huser hself hledger _ =>
      hpost s' ?_
    rw [huser, Database.refundOf, if_neg (by decide), if_pos rfl, hpaid]
    refine ⟨by rw [hledger]; rfl, ?_⟩
    rintro _ ⟨⟩
    exact hself
  · apply hpost
    have hnone : s.refundOf dispute action amount = none := by
      rw [Database.refundOf, if_neg, if_neg]
      · rintro rfl
        exact hfull (isEq_some.mpr rfl)
      · rintro rfl
        exact hpartial (isEq_some.mpr rfl)
    rw [hnone]
    cases s.disputedUser dispute <;> simp [Database.PostsTransfer, transferPosting]

theorem resolveDispute_posts (d : Option Int) (c : Option String) (a b : Option Int) :
    wp (resolveDispute env d c a b) (fun _ s' =>
      s.PostsTransfer (s.transfer (.resolveDispute d c a b)) s'.ledger) (fun _ => True) s := by
  unfold resolveDispute
  simp only [wp_bind, wp_get, wp_require, wp_raiseIf, wp_modify, wp_pure, implies_true, true_and]
  intro dispute hdispute _ _
  refine payRefund_posts fun s₁ hposts id hid => ?_
  subst hid
  refine auditLogInsert_notes rfl fun _ s₂ _ _ _ _ h₂ => ?_
  rw [h₂.ledger, ledger_setDispute, Database.transfer, hdispute]
  exact hposts

/-! ## What the rows explain -/

/-- What a withdraw holds of a user's balance, or has taken from it. -/
def WithdrawTicket.takenFrom (ticket : WithdrawTicket) (user : Int) : Int :=
  if ticket.discordId = user ∧ ticket.status ≠ .cancelled then ticket.amount else 0

/-- The fee that a withdraw has paid to the treasury. -/
def WithdrawTicket.feePaid (ticket : WithdrawTicket) : Int :=
  if ticket.status = .confirmed then ticket.fee else 0

/-- What a bet has brought a user so far: nothing but its cost while it is open. -/
def Bet.gainOf (bet : Bet) (user : Int) : Int :=
  if bet.discordId = user then bet.returned - bet.betAmount else 0

/-- What the treasury takes when a bet is placed: the commission, and the rake while no
raffle period is active. -/
def Bet.taken (bet : Bet) : Int :=
  max bet.commission 0 + if bet.rakePeriodId = none then max bet.rake 0 else 0

/-- What the treasury has kept of a bet. -/
def Bet.houseShare (bet : Bet) : Int :=
  match bet.status with
  | .open | .voided => bet.taken
  | .resolvedWin | .resolvedLoss | .resolvedTie => bet.taken + (bet.effectiveStake - bet.returned)
  | .refunded => 0

/-- What a withdraw has moved in a wallet. -/
def WithdrawTicket.moved (ticket : WithdrawTicket) (user : Int) : Int :=
  (if user = 0 then ticket.feePaid else 0) - ticket.takenFrom user

/-- What a bet has moved in a wallet. -/
def Bet.moved (bet : Bet) (user : Int) : Int :=
  bet.gainOf user + if user = 0 then bet.houseShare else 0

/-- What the tickets and the bets have moved in a wallet. -/
def Ledger.sources (l : Ledger) (user : Int) : Int :=
  (l.deposits.sum fun _ ticket => ticket.creditTo user) +
    (l.withdraws.sum fun _ ticket => ticket.moved user) + l.bets.sum fun _ bet => bet.moved user

/-- What a wallet holds that no ticket and no bet explains. -/
def Ledger.unsourced (l : Ledger) (user : Int) : Int := l.books (wallet user) - l.sources user

section Rows

variable {ticket : WithdrawTicket} {bet closed : Bet} {id : Int} {call : Call}

theorem WithdrawTicket.moved_of_pending (hstatus : ¬ ticket.status.Terminal) (user : Int) :
    ticket.moved user = -if ticket.discordId = user then ticket.amount else 0 := by
  have hcancelled : ticket.status ≠ .cancelled := fun h => hstatus (.inr (.inl h))
  have hconfirmed : ticket.status ≠ .confirmed := fun h => hstatus (.inl h)
  simp [moved, feePaid, takenFrom, hcancelled, hconfirmed]

theorem Bet.moved_of_open (hopen : bet.status = .open) (user : Int) :
    bet.moved user = (if user = 0 then bet.taken else 0) -
      if bet.discordId = user then bet.betAmount else 0 := by
  have hreturned : bet.returned = 0 := by rw [returned, hopen]
  have hshare : bet.houseShare = bet.taken := by rw [houseShare, hopen]
  rw [moved, gainOf, hreturned, hshare]
  split_ifs <;> omega

theorem Bet.SameWager.taken (hsame : bet.SameWager closed) : closed.taken = bet.taken := by
  rw [Bet.taken, Bet.taken, hsame.commission, hsame.rake, hsame.rakePeriodId]

theorem Bet.moved_of_resolved (hsame : bet.SameWager closed)
    (hresolved : closed.status.text ∈ resolvedStatuses) (user : Int) :
    closed.moved user =
      (if user = 0 then bet.taken + (bet.effectiveStake - closed.returned) else 0) -
        if bet.discordId = user then bet.betAmount - closed.returned else 0 := by
  have hshare : closed.houseShare = bet.taken + (bet.effectiveStake - closed.returned) := by
    rw [← hsame.taken, ← hsame.effectiveStake]
    rcases resolved_of_mem hresolved with hstatus | hstatus | hstatus <;>
      rw [houseShare, hstatus]
  rw [moved, gainOf, hshare, hsame.discordId, hsame.betAmount]
  split_ifs <;> omega

theorem Bet.moved_of_refunded (hstatus : bet.status = .refunded) (user : Int) :
    bet.moved user = 0 := by
  have hreturned : bet.returned = bet.betAmount := by rw [returned, hstatus]
  have hshare : bet.houseShare = 0 := by rw [houseShare, hstatus]
  simp [moved, gainOf, hreturned, hshare]

end Rows

/-! ## One step -/

namespace Ledger

variable {now : Timestamp} {l l' : Ledger}

theorem withdrawn_set {withdraws : Table String WithdrawTicket} {uid : String}
    {old : WithdrawTicket} (hold : withdraws.get? uid = some old) (new : WithdrawTicket) (u : Int) :
    ((withdraws.set uid new).sum fun _ ticket => ticket.moved u) =
      (withdraws.sum fun _ ticket => ticket.moved u) + (new.moved u - old.moved u) :=
  Table.sum_set_add hold (add_sub_cancel _ _).symm

theorem wagered_set {bets : Table Int Bet} {id : Int} {old : Bet} (hold : bets.get? id = some old)
    (new : Bet) (u : Int) :
    ((bets.set id new).sum fun _ bet => bet.moved u) =
      (bets.sum fun _ bet => bet.moved u) + (new.moved u - old.moved u) :=
  Table.sum_set_add hold (add_sub_cancel _ _).symm

theorem treasuryMove_of_none {s : Database} {call : Call} (htransfer : s.transfer call = none)
    (hswept : call.swept = 0) (user : Int) : s.treasuryMove call user = 0 := by
  simp [Database.treasuryMove, htransfer, hswept]

theorem treasuryMove_of_unswept {s : Database} {call : Call} (hswept : call.swept = 0) (user : Int) :
    s.treasuryMove call user = transferPosting (s.transfer call) (wallet user) := by
  rw [Database.treasuryMove, hswept, ite_self, sub_zero, transferPosting_wallet]

theorem rakeAccount_wallet (period : Option Int) (rake u : Int) :
    single (rakeAccount period) rake (wallet u) =
      if u = 0 then if period = none then rake else 0 else 0 := by
  cases period with
  | none => simp [rakeAccount, Finsupp.single_apply, eq_comm]
  | some p => simp [rakeAccount]

/-- A call moves in a wallet what it changes in the tickets and bets, and what the treasury
pays or sweeps. -/
theorem Step.unsourced {s : Database} {call : Call} (hstep : Step now s.ledger call l')
    (hcloses : ∀ id bet closed, s.bets.get? id = some bet → bet.status = .open →
      l'.bets.get? id = some closed → closed.status ≠ .open → bet.ClosedBy id call closed)
    (htransfer : ∀ d c a b, call = .resolveDispute d c a b → s.PostsTransfer (s.transfer call) l')
    (user : Int) :
    l'.unsourced user = s.ledger.unsourced user + s.treasuryMove call user := by
  cases hstep with
  | quiet hquiet hl' =>
      have hzero : s.treasuryMove call user = 0 := by
        cases call with
        | resolveDispute => cases hquiet
        | treasurySweep => cases hquiet
        | treasuryWithdrawToUser => cases hquiet
        | _ => exact treasuryMove_of_none rfl rfl user
      rw [hl', hzero, add_zero]
  | depositOpened hnew hfresh hl' =>
      subst hl'
      rw [treasuryMove_of_none rfl rfl]
      simp only [Ledger.unsourced, sources, Table.sum_insertNew_of_none hnew]
      simp [Ticket.creditTo, hfresh.status]
  | depositClaimed hold hstatus hl' =>
      subst hl'
      rw [treasuryMove_of_none rfl rfl]
      simp only [Ledger.unsourced, sources, credited_set hold]
      simp [Ticket.creditTo, hstatus]
  | depositReleased hold hstatus hl' =>
      subst hl'
      rw [treasuryMove_of_none rfl rfl]
      simp only [Ledger.unsourced, sources, credited_set hold]
      simp [Ticket.creditTo, hstatus]
  | depositConfirmed hold hstatus hcashier hl' =>
      subst hl'
      rw [treasuryMove_of_none rfl rfl]
      simp only [Ledger.unsourced, sources, credited_set hold]
      simp [Ticket.creditTo, hstatus, Finsupp.single_apply]
      ring
  | depositCancelled hold hstatus hl' =>
      subst hl'
      have hconfirmed : _ ≠ TicketStatus.confirmed := fun h => hstatus (.inl h)
      rw [treasuryMove_of_none rfl rfl]
      simp only [Ledger.unsourced, sources, credited_set hold,
        Ticket.creditTo_of_unconfirmed hconfirmed]
      simp [Ticket.creditTo]
  | @withdrawOpened _ _ _ _ _ _ _ _ _ _ ticket hnew hfresh hdelivered hl' =>
      subst hl'
      have hpending : ¬ ticket.status.Terminal := by rw [hfresh.status]; decide
      rw [treasuryMove_of_none rfl rfl]
      simp only [Ledger.unsourced, sources, Table.sum_insertNew_of_none hnew,
        WithdrawTicket.moved_of_pending hpending]
      simp [Finsupp.single_apply]
      split_ifs <;> omega
  | withdrawClaimed hold hstatus hl' =>
      subst hl'
      rw [treasuryMove_of_none rfl rfl]
      simp only [Ledger.unsourced, sources, withdrawn_set hold]
      simp [WithdrawTicket.moved, WithdrawTicket.takenFrom, WithdrawTicket.feePaid, hstatus]
  | withdrawReleased hold hstatus hl' =>
      subst hl'
      rw [treasuryMove_of_none rfl rfl]
      simp only [Ledger.unsourced, sources, withdrawn_set hold]
      simp [WithdrawTicket.moved, WithdrawTicket.takenFrom, WithdrawTicket.feePaid, hstatus]
  | withdrawConfirmed hold hstatus hcashier hl' =>
      subst hl'
      rw [treasuryMove_of_none rfl rfl]
      simp only [Ledger.unsourced, sources, withdrawn_set hold]
      simp [WithdrawTicket.moved, WithdrawTicket.takenFrom, WithdrawTicket.feePaid, hstatus,
        Finsupp.single_apply]
      split_ifs <;> omega
  | withdrawCancelled hold hstatus hl' =>
      subst hl'
      rw [treasuryMove_of_none rfl rfl]
      simp only [Ledger.unsourced, sources, withdrawn_set hold,
        WithdrawTicket.moved_of_pending hstatus]
      simp [WithdrawTicket.moved, WithdrawTicket.takenFrom, WithdrawTicket.feePaid,
        Finsupp.single_apply]
      split_ifs <;> omega
  | disputeOpened hnew hunique hstatus hl' =>
      subst hl'
      rw [treasuryMove_of_none rfl rfl]
      exact (add_zero _).symm
  | disputeRejected hold hstatus hl' =>
      subst hl'
      rw [treasuryMove_of_none rfl rfl]
      exact (add_zero _).symm
  | disputeDismissed hold hstatus haction hl' =>
      have hsources : l'.sources = s.ledger.sources := hl' ▸ rfl
      rw [Ledger.unsourced, (htransfer _ _ _ _ rfl).1, hsources, treasuryMove_of_unswept rfl,
        Finsupp.add_apply, add_sub_right_comm, Ledger.unsourced]
  | disputeRefunded hold hstatus haction huser hl' =>
      have hsources : l'.sources = s.ledger.sources := hl' ▸ rfl
      rw [Ledger.unsourced, (htransfer _ _ _ _ rfl).1, hsources, treasuryMove_of_unswept rfl,
        Finsupp.add_apply, add_sub_right_comm, Ledger.unsourced]
  | swept hl' =>
      subst hl'
      simp only [Ledger.unsourced, sources]
      simp [Database.treasuryMove, Database.transfer, Call.swept, Finsupp.single_apply]
      split_ifs <;> omega
  | treasuryPaid huser hl' =>
      subst hl'
      simp only [Ledger.unsourced, sources]
      simp [Database.treasuryMove, Database.transfer, Call.swept, Finsupp.single_apply]
      split_ifs <;> omega
  | betPlaced hnew hopen hfirst hcommission hrake hstake hperiod hl' =>
      subst hl'
      rw [treasuryMove_of_none rfl rfl]
      simp only [Ledger.unsourced, sources, Table.sum_insertNew_of_none hnew,
        Bet.moved_of_open hopen, Finsupp.add_apply, rakeAccount_wallet]
      simp [Finsupp.single_apply, Bet.taken, hperiod]
      split_ifs <;> omega
  | @betResolved _ _ id credit bet closed status payout hcall hget hopen hcredit hclosed howner
      hperiod hl' =>
      subst hl'
      have hclosedBy := hcloses id bet closed hget hopen (Table.get?_set_self hget closed) hclosed
      have hrow : bet.SameWager closed ∧ closed.status.text ∈ resolvedStatuses ∧
          closed.returned = credit := by
        rcases hcall with ⟨outcome, rfl⟩ | ⟨multiplier, rfl, rfl, rfl⟩
        · cases hclosedBy with
          | resolved hsame hstatus hreturned =>
              exact ⟨hsame, hstatus, Option.some.inj (hreturned.symm.trans hcredit)⟩
        · cases hclosedBy with
          | cashedOut hsame hstatus hreturned =>
              rw [creditUser, if_pos (by simp), hreturned] at hcredit
              exact ⟨hsame, hstatus, Option.some.inj hcredit⟩
      obtain ⟨hsame, hstatus, rfl⟩ := hrow
      have hzero : s.treasuryMove call user = 0 := by
        rcases hcall with ⟨outcome, rfl⟩ | ⟨multiplier, rfl, -⟩ <;>
          exact treasuryMove_of_none rfl rfl user
      rw [hzero]
      simp only [Ledger.unsourced, sources, wagered_set hget, Bet.moved_of_open hopen,
        Bet.moved_of_resolved hsame hstatus]
      simp [Finsupp.single_apply]
      split_ifs <;> omega
  | @betRefunded _ id bet closed _ hget hopen hclosed howner hperiod hl' =>
      subst hl'
      have hrefunded : closed.status = .refunded := by
        cases hcloses id bet closed hget hopen (Table.get?_set_self hget closed) hclosed with
        | refunded hsame hstatus => exact hstatus
      rw [treasuryMove_of_none rfl rfl]
      simp only [Ledger.unsourced, sources, wagered_set hget, Bet.moved_of_open hopen,
        Bet.moved_of_refunded hrefunded, Finsupp.add_apply, rakeAccount_wallet]
      simp [Finsupp.single_apply, Bet.taken]
      split_ifs <;> omega

end Ledger

/-- A call that resolves a dispute posts what the treasury pays. -/
theorem posts_of_succeeds {call : Call} (hok : call.Succeeds env s) (d : Option Int)
    (c : Option String) (a b : Option Int) (hcall : call = .resolveDispute d c a b) :
    s.PostsTransfer (s.transfer call) (step s (.call env call)).ledger := by
  have hrun : call.exec env s = (.ok (), step s (.call env call)) := Prod.ext hok rfl
  subst hcall
  exact post_of_outcome (resolveDispute_posts d c a b) (transact_ok Database.rollback hrun)

/-- The treasury never pays itself. -/
theorem transfer_ne_treasury (hs : s.WellFormed) {call : Call} (hok : call.Succeeds env s)
    {paid : Int × Int} (hpaid : s.transfer call = some paid) : paid.1 ≠ 0 := by
  cases call with
  | resolveDispute d c a b => exact (posts_of_succeeds hok d c a b rfl).2 paid hpaid
  | treasuryWithdrawToUser amount target admin reason =>
      cases (takes_of_succeeds hs hok).1 with
      | quiet hquiet => cases hquiet
      | treasuryPaid huser =>
          obtain rfl := Option.some.inj hpaid
          exact huser
      | betResolved hcall => rcases hcall with ⟨_, hcall⟩ | ⟨_, hcall, -⟩ <;> cases hcall
  | _ => cases hpaid

/-! ## Runs -/

/-- What the treasury pays a user in one step of a run. -/
def paidBy (user : Int) (taken : Database × Command) : Int :=
  match taken.2 with
  | .call env call =>
      if call.Succeeds env taken.1 then
        (taken.1.transfer call).elim 0 fun paid => if paid.1 = user then paid.2 else 0
      else 0
  | .config _ => 0

/-- What the treasury pays in one step of a run, to whomever. -/
def sentBy (taken : Database × Command) : Int :=
  match taken.2 with
  | .call env call =>
      if call.Succeeds env taken.1 then (taken.1.transfer call).elim 0 Prod.snd else 0
  | .config _ => 0

theorem unsourced_step (hs : s.WellFormed) (command : Command) (user : Int) :
    (step s command).ledger.unsourced user = s.ledger.unsourced user +
      if user = 0 then -(sweptBy (s, command) + sentBy (s, command))
        else paidBy user (s, command) := by
  rcases ledger_command hs command with ⟨env, call, rfl, hok, hstep⟩ | ⟨hfails, hsame⟩
  · rw [hstep.unsourced (closes_of_succeeds hs hok) (posts_of_succeeds hok), add_right_inj,
      Database.treasuryMove]
    simp only [sweptBy, sentBy, paidBy, if_pos hok]
    have hself : ∀ paid, s.transfer call = some paid → paid.1 ≠ 0 :=
      fun _ => transfer_ne_treasury hs hok
    cases hpaid : s.transfer call with
    | none =>
        simp only [Option.elim_none]
        split_ifs <;> omega
    | some paid =>
        have hne := hself paid hpaid
        simp only [Option.elim_some]
        split_ifs <;> omega
  · have hzero : sweptBy (s, command) = 0 ∧ sentBy (s, command) = 0 ∧
        paidBy user (s, command) = 0 := by
      cases command with
      | call env call => exact ⟨if_neg hfails, if_neg hfails, if_neg hfails⟩
      | config write => exact ⟨rfl, rfl, rfl⟩
    have hsources : (step s command).ledger.sources user = s.ledger.sources user := by
      rw [Ledger.sources, Ledger.sources, hsame.deposits, hsame.withdraws, hsame.bets]
    rw [hzero.1, hzero.2.1, hzero.2.2, Ledger.unsourced, Ledger.unsourced, hsame.books, hsources]
    simp

theorem unsourced_of_empty (hs : s.EmptyLedger) (user : Int) : s.ledger.unsourced user = 0 := by
  have hbalance : s.balanceOf user = 0 := by
    simp only [Database.balanceOf, Database.balance?, hs.balances, Table.select_some,
      Table.ofList, List.foldl_cons, List.foldl_nil, Table.get?_insertNew]
    split <;> rfl
  have hsources : s.ledger.sources user = 0 := by
    have hdeposits : s.ledger.deposits = .empty := hs.deposits
    have hwithdraws : s.ledger.withdraws = .empty := hs.withdraws
    have hbets : s.ledger.bets = .empty := hs.bets
    rw [Ledger.sources, hdeposits, hwithdraws, hbets]
    rfl
  rw [Ledger.unsourced, ledger_books_wallet, hbalance, hsources, sub_zero]

theorem runs_wellFormed : ∀ s command, True → s.WellFormed → (step s command).WellFormed :=
  fun _ command _ hs => wellFormed_step hs command

/-- What no ticket and no bet explains of a user's balance, the treasury paid. -/
theorem unsourced_run_user (hs : s.EmptyLedger) (commands : List Command) {user : Int}
    (huser : user ≠ 0) : (run step s commands).ledger.unsourced user =
      ((steps step s commands).map (paidBy user)).sum := by
  have hdelta : ∀ s command, True → s.WellFormed →
      (step s command).ledger.unsourced user =
        s.ledger.unsourced user + paidBy user (s, command) := by
    intro s command _ hs
    rw [unsourced_step hs, if_neg huser]
  have hrun := run_accounts (fun s => s.ledger.unsourced user)
    (fun s command => paidBy user (s, command)) runs_wellFormed hdelta hs.wellFormed
    (fun command (_ : command ∈ commands) => trivial)
  rwa [unsourced_of_empty hs, zero_add] at hrun

/-- What no ticket and no bet explains of the treasury's balance, it swept or paid. -/
theorem unsourced_run_treasury (hs : s.EmptyLedger) (commands : List Command) :
    (run step s commands).ledger.unsourced 0 =
      -(((steps step s commands).map sweptBy).sum + ((steps step s commands).map sentBy).sum) := by
  have hdelta : ∀ s command, True → s.WellFormed →
      -(step s command).ledger.unsourced 0 =
        -s.ledger.unsourced 0 + (sweptBy (s, command) + sentBy (s, command)) := by
    intro s command _ hs
    rw [unsourced_step hs, if_pos rfl, neg_add, neg_neg]
  have hrun := run_accounts (fun s => -s.ledger.unsourced 0)
    (fun s command => sweptBy (s, command) + sentBy (s, command)) runs_wellFormed hdelta
    hs.wellFormed
    (fun command (_ : command ∈ commands) => trivial)
  rw [unsourced_of_empty hs, neg_zero, zero_add, List.sum_map_add] at hrun
  rw [← neg_neg ((run step s commands).ledger.unsourced 0), hrun]

end DeathRoll
