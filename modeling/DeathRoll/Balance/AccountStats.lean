import DeathRoll.Ledger.Sources

/-! # Account statistics

`deathroll_core/balance/account_stats.py` reads for `/balance` a user's balance beside what
the confirmed tickets add up to, and `metrics.py` reads the treasury's balance beside its
fee revenue. In every state of a run the rest of both balances is in the rows too.
-/

namespace DeathRoll

open Relational

variable {s : Database}

structure AccountStats where
  balance : Int
  totalDeposited : Int
  totalWithdrawn : Int
  lifetimeFeePaid : Int
deriving DecidableEq

/-- `SUM(column)` over the confirmed withdraws of a user, 0 if there are none. -/
def Database.confirmedWithdraws (s : Database) (column : WithdrawTicket → Int) (user : Int) : Int :=
  s.withdrawTickets.sum fun _ ticket =>
    if ticket.discordId = user ∧ ticket.status = .confirmed then column ticket else 0

/-- The query of `/balance`: a row for a registered user, zeros for what is missing. -/
def Database.fetchAccountStats (s : Database) (discordId : Int) : Option AccountStats :=
  (s.users.get? discordId).map fun _ =>
    { balance := (s.balance? (some discordId)).getD 0
      totalDeposited := s.depositTickets.sum fun _ ticket =>
        if ticket.discordId = discordId ∧ ticket.status = .confirmed then ticket.amount else 0
      totalWithdrawn := s.confirmedWithdraws (fun ticket => ticket.amount) discordId
      lifetimeFeePaid := s.confirmedWithdraws (fun ticket => ticket.fee) discordId }

/-- `deathroll_fee_revenue_g`: the fees of all confirmed withdraws. -/
def Database.feeRevenue (s : Database) : Int :=
  s.withdrawTickets.sum fun _ ticket => if ticket.status = .confirmed then ticket.fee else 0

/-- The amounts of a user's open and claimed withdraws. -/
def Database.pendingWithdraws (s : Database) (user : Int) : Int :=
  s.withdrawTickets.sum fun _ ticket => ticket.heldFrom user

/-- What a user's bets have returned beyond what they cost. -/
def Database.betGain (s : Database) (user : Int) : Int :=
  s.bets.sum fun _ bet => bet.gainOf user

/-- What the treasury has kept of all bets. -/
def Database.houseShare (s : Database) : Int := s.bets.sum fun _ bet => bet.houseShare

/-! ## What the rows explain -/

/-- What a user's tickets and bets come to. -/
def Database.earned (s : Database) (user : Int) : Int :=
  (s.depositTickets.sum fun _ ticket => ticket.creditTo user) -
    s.confirmedWithdraws (fun ticket => ticket.amount) user - s.pendingWithdraws user +
      s.betGain user

theorem takenFrom_eq {ticket : WithdrawTicket} (hcons : ticket.Consistent) (user : Int) :
    ticket.takenFrom user =
      (if ticket.discordId = user ∧ ticket.status = .confirmed then ticket.amount else 0) +
        ticket.heldFrom user := by
  rcases hcons.shared.status with hstatus | hstatus | hstatus | hstatus <;>
    simp [WithdrawTicket.takenFrom, WithdrawTicket.heldFrom, hstatus]

theorem sum_takenFrom (hcons : s.TicketsConsistent) (user : Int) :
    (s.withdrawTickets.sum fun _ ticket => ticket.takenFrom user) =
      s.confirmedWithdraws (fun ticket => ticket.amount) user + s.pendingWithdraws user := by
  rw [Database.confirmedWithdraws, Database.pendingWithdraws, ← Table.sum_add]
  refine Table.sum_congr fun uid => ?_
  cases hticket : s.withdrawTickets.get? uid with
  | none => rw [Table.term_of_none hticket, Table.term_of_none hticket]
  | some ticket =>
      rw [Table.term_of_get? hticket, Table.term_of_get? hticket,
        takenFrom_eq (hcons.withdraw uid ticket hticket)]

theorem sum_withdrawMoved (s : Database) (user : Int) :
    (s.withdrawTickets.sum fun _ ticket => ticket.moved user) =
      (if user = 0 then s.feeRevenue else 0) -
        s.withdrawTickets.sum fun _ ticket => ticket.takenFrom user := by
  rw [eq_sub_iff_add_eq, ← Table.sum_add]
  simp only [WithdrawTicket.moved, sub_add_cancel]
  split
  · rfl
  · exact Table.sum_eq_zero fun _ _ _ => rfl

theorem sum_betMoved (s : Database) (user : Int) :
    (s.bets.sum fun _ bet => bet.moved user) =
      s.betGain user + if user = 0 then s.houseShare else 0 := by
  simp only [Bet.moved, Table.sum_add]
  split
  · rfl
  · exact congrArg _ (Table.sum_eq_zero fun _ _ _ => rfl)

theorem sources_eq (hcons : s.TicketsConsistent) (user : Int) :
    s.ledger.sources user =
      s.earned user + if user = 0 then s.feeRevenue + s.houseShare else 0 := by
  have hsources : s.ledger.sources user =
      (s.depositTickets.sum fun _ ticket => ticket.creditTo user) +
        (s.withdrawTickets.sum fun _ ticket => ticket.moved user) +
          s.bets.sum fun _ bet => bet.moved user := rfl
  rw [hsources, sum_withdrawMoved, sum_takenFrom hcons, sum_betMoved, Database.earned]
  split <;> omega

theorem balanceOf_eq (s : Database) (user : Int) :
    s.balanceOf user = s.ledger.sources user + s.ledger.unsourced user := by
  rw [Ledger.unsourced, ledger_books_wallet]
  omega

/-- The balance that a user is shown is the deposits shown, less the withdraws shown and the
pending ones, plus what the user's bets gained and what the treasury paid in the run. -/
theorem accountStats_explained {s₀ : Database} (hs : s₀.EmptyLedger) (commands : List Command)
    {user : Int} (huser : user ≠ 0) {stats : AccountStats}
    (hstats : (run step s₀ commands).fetchAccountStats user = some stats) :
    stats.balance =
      stats.totalDeposited - stats.totalWithdrawn - (run step s₀ commands).pendingWithdraws user +
        (run step s₀ commands).betGain user + ((steps step s₀ commands).map (paidBy user)).sum := by
  obtain ⟨row, -, rfl⟩ := Option.map_eq_some_iff.mp hstats
  have hbalance := balanceOf_eq (run step s₀ commands) user
  rw [sources_eq (ticketsConsistent_run hs commands), if_neg huser, add_zero,
    unsourced_run_user hs commands huser] at hbalance
  exact hbalance

/-- After a deposit one withdraw is delivered and another is pending, a bet has gained
something, and the treasury has paid something. -/
def accountRun : List Command :=
  depositRun ++
    [.call .plain (.createWithdrawTicket (some 9) (some "Char") (some "Realm") (some "EU")
      (some "Horde") (some 1000) (some 3) (some 2)),
     .call .plain (.claimTicket (some "withdraw") (some "withdraw-1") (some 7)),
     .call .plain (.confirmWithdraw (some "withdraw-1") (some 7)),
     .call .plain (.createWithdrawTicket (some 9) (some "Char") (some "Realm") (some "EU")
      (some "Horde") (some 1500) (some 4) (some 2)),
     .call .plain (.applyBet (some 9) (some "dice") (some 1) (some 500) (some .null) (some [])
      (some "seed") (some 0) (some "key-1") (some "bet-1")),
     .call .plain (.resolveBet (some 1) (some "resolved_win") (some 505) none),
     .call .plain (.treasuryWithdrawToUser (some 7) (some 9) (some 1) none)]

theorem accountRun_terms :
    (run step .seeded accountRun).fetchAccountStats 9 = some ⟨2512, 5000, 1000, 20⟩ ∧
      (run step .seeded accountRun).pendingWithdraws 9 = 1500 ∧
      (run step .seeded accountRun).betGain 9 = 5 ∧
      ((steps step .seeded accountRun).map (paidBy 9)).sum = 7 := by
  decide +kernel

theorem accountStats_explained_seeded :
    (run step .seeded accountRun).pendingWithdraws 9 = 1500 ∧
      (run step .seeded accountRun).betGain 9 = 5 ∧
      ((steps step .seeded accountRun).map (paidBy 9)).sum = 7 ∧
      (2512 : Int) = 5000 - 1000 - (run step .seeded accountRun).pendingWithdraws 9 +
        (run step .seeded accountRun).betGain 9 +
          ((steps step .seeded accountRun).map (paidBy 9)).sum :=
  ⟨accountRun_terms.2.1, accountRun_terms.2.2.1, accountRun_terms.2.2.2,
    accountStats_explained seeded_empty accountRun (by decide) accountRun_terms.1⟩

/-- The treasury's balance is the fee revenue and what it kept of bets, with what its own
tickets and bets come to, less what it swept and paid in the run. -/
theorem treasury_explained {s₀ : Database} (hs : s₀.EmptyLedger) (commands : List Command) :
    (run step s₀ commands).balanceOf 0 =
      (run step s₀ commands).feeRevenue + (run step s₀ commands).houseShare +
        (run step s₀ commands).earned 0 - ((steps step s₀ commands).map sweptBy).sum -
          ((steps step s₀ commands).map sentBy).sum := by
  rw [balanceOf_eq, sources_eq (ticketsConsistent_run hs commands), if_pos rfl,
    unsourced_run_treasury hs commands]
  ring

theorem treasury_explained_seeded :
    (run step .seeded accountRun).balanceOf 0 =
      (run step .seeded accountRun).feeRevenue + (run step .seeded accountRun).houseShare +
        (run step .seeded accountRun).earned 0 -
          ((steps step .seeded accountRun).map sweptBy).sum -
            ((steps step .seeded accountRun).map sentBy).sum :=
  treasury_explained seeded_empty accountRun

end DeathRoll
