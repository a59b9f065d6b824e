import DeathRoll.Ledger.Unwind

/-! # What a resolution pays

`luck.resolve_bet` chooses what it credits by the status, and writes the payout of its
caller into the bet, its profit and the audit row. The two agree on a win; on a loss and on
a tie they agree only when the caller names what is credited.
-/

namespace DeathRoll

open Relational Tx

variable {env : Env} {s s' : Database}

/-! ## Statements -/

theorem balanceOf_setBalance {u : Int} {old : Balance} (hold : s.balances.get? u = some old)
    (new : Balance) : (s.setBalance u new).balanceOf = Function.update s.balanceOf u new.balance := by
  funext v
  by_cases hv : v = u
  · subst hv
    simp [Database.balanceOf, Database.balance?, Table.get?_set_self hold]
  · simp [Database.balanceOf, Database.balance?, Table.get?_set_of_ne _ hv, hv]

/-- From `s` to `s'` the balance of `u`, if there is one, moved by an amount. -/
structure Database.Credited (s : Database) (u amount : Int) (s' : Database) : Prop where
  balance : s.HasAccount u → s'.balanceOf u = s.balanceOf u + amount
  other : ∀ v, v ≠ u → s'.balanceOf v = s.balanceOf v
  accounts : ∀ v, s.HasAccount v → s'.HasAccount v
  bets : s'.bets = s.bets
  auditLog : s'.audit.auditLog = s.audit.auditLog

theorem updateBalance_credits {post : Unit → Database → Prop} {u : Int}
    {assign : BalanceRow → BalanceRow} (amount : Int)
    (hassign : ∀ row, (assign row).balance = row.balance + amount)
    (hpost : ∀ s', s.Credited u amount s' → post () s') :
    wp (updateBalance u assign) post (fun _ => True) s := by
  refine (wp_updateBalance u assign).mpr ⟨fun hnone => ?_, fun old hold => ⟨by simp, ?_⟩⟩
  · exact hpost s ⟨fun haccount => absurd hnone haccount, fun _ _ => rfl, fun _ => id, rfl, rfl⟩
  · intro new hnew
    have hbalance := balanceOf_setBalance hold new
    refine hpost _ ⟨fun _ => ?_, fun v hv => ?_, fun v hv => ?_, rfl, rfl⟩
    · rw [hbalance, Function.update_self, balanceOf_of_get? hold, ← hassign old.toBalanceRow,
        ← hnew]
    · rw [hbalance, Function.update_of_ne hv]
    · simp only [Database.HasAccount, Database.setBalance_balances, Table.get?_set] at hv ⊢
      split <;> simp_all

theorem ifDo_updateBalance_credits {post : Unit → Database → Prop} {c : Prop} [Decidable c]
    {u : Int} {assign : BalanceRow → BalanceRow} (amount : Int)
    (hassign : ∀ row, (assign row).balance = row.balance + amount) (hnone : ¬ c → amount = 0)
    (hpost : ∀ s', s.Credited u amount s' → post () s') :
    wp (ifDo c (updateBalance u assign)) post (fun _ => True) s := by
  refine (wp_ifDo c _).mpr ⟨fun _ => updateBalance_credits amount hassign hpost, fun hc => ?_⟩
  refine hpost s ⟨fun _ => ?_, fun _ _ => rfl, fun _ => id, rfl, rfl⟩
  rw [hnone hc, add_zero]

/-! ## The resolution -/

/-- A call that resolves a bet with a status and a payout. -/
def Call.Resolves (id : Int) (bet : Bet) (status : BetStatus) (payout : Int) : Call → Prop
  | .resolveBet b t p _ => b = some id ∧ t = some status.text ∧ p = some payout
  | .cashoutMines b m =>
      b = some id ∧ status = .resolvedWin ∧
        (m.map fun multiplier => multiplier.floorMul bet.effectiveStake) = some payout
  | _ => False

/-- What a resolution credits to the bettor. -/
def Bet.credit (bet : Bet) (payout : Int) : BetStatus → Int
  | .resolvedWin => payout
  | .resolvedLoss => 0
  | _ => bet.effectiveStake

/-- What a resolution that returns wrote: the bettor is credited by the status, the treasury
covers the difference to the stake, and the rows name the payout. -/
structure Database.Resolved (s : Database) (id : Int) (bet : Bet) (status : BetStatus)
    (payout : Int) (s' : Database) : Prop where
  valid : status.text ∈ resolvedStatuses
  row : ∃ closed, s'.bets.get? id = some closed ∧ closed.status = status ∧
    closed.payoutAmount = payout ∧ closed.profit = some (payout - bet.betAmount)
  audited : ∃ row, s'.audit.auditLog = s.audit.auditLog ++ [row] ∧
    row.content.amount = some payout ∧
      row.content.balanceAfter - row.content.balanceBefore = bet.credit payout status
  balance : s'.balanceOf bet.discordId = s.balanceOf bet.discordId + bet.credit payout status +
    if bet.discordId = 0 then bet.effectiveStake - bet.credit payout status else 0

theorem auditLogInsert_appends {post : Int → Database → Prop} {p : AuditParams}
    (hpost : ∀ id s' row before after, p.balanceBefore = some before →
      p.balanceAfter = some after → s'.audit.auditLog = s.audit.auditLog ++ [row] →
      row.content.amount = p.amount → row.content.balanceBefore = before →
      row.content.balanceAfter = after → s'.bets = s.bets → s'.balances = s.balances →
      post id s') :
    wp (auditLogInsertWithChain env p) post (fun _ => True) s := by
  rw [wp_auditLogInsertWithChain]
  simp only [implies_true, true_and]
  intro key _ actor _ target _ text _ before hbefore after hafter ref _ _
  exact hpost _ _ _ before after hbefore hafter rfl rfl rfl rfl rfl rfl

theorem closeBet_writes {post : Unit → Database → Prop} {id payout profit : Int} {bet : Bet}
    {status : BetStatus} {outcome : Option Json}
    (hpost : ∀ closed : Bet, closed.status = status → closed.payoutAmount = payout →
      closed.profit = some profit → post () (s.setBet id closed)) :
    wp (closeBet env id bet status payout profit outcome) post (fun _ => True) s := by
  unfold closeBet
  simp only [wp_dite, wp_modify, wp_throw, implies_true, and_true]
  intro _
  exact hpost _ rfl rfl rfl

theorem resolved_of_mem {status : BetStatus} (hvalid : status.text ∈ resolvedStatuses) :
    status = .resolvedWin ∨ status = .resolvedLoss ∨ status = .resolvedTie := by
  cases status <;> simp_all [BetStatus.text, resolvedStatuses]

theorem creditUser_text {status : BetStatus} (hvalid : status.text ∈ resolvedStatuses) (bet : Bet)
    (payout : Int) :
    creditUser (some status.text) (some payout) bet.effectiveStake =
      some (bet.credit payout status) := by
  rcases resolved_of_mem hvalid with rfl | rfl | rfl <;>
    simp [creditUser, BetStatus.text, Bet.credit]

theorem ofText_text (status : BetStatus) : BetStatus.ofText status.text = some status := by
  cases status <;> rfl

theorem resolveBet_resolves {id : Int} {bet : Bet} (hbet : s.bets.get? id = some bet)
    (hopen : bet.status = .open) (status : BetStatus) (payout : Int) (outcome : Option Json) :
    wp (resolveBet env (some id) (some status.text) (some payout) outcome)
      (fun _ s' => s.Resolved id bet status payout s') (fun _ => True) s := by
  unfold resolveBet
  simp only [wp_bind, wp_get, wp_require, wp_ite, wp_raiseIf, wp_nullableBigint, wp_notNull,
    wp_checkedText, wp_pure, implies_true, true_and]
  intro hvalid _ vBet hget
  rw [isNotIn_some, not_not] at hvalid
  rw [Table.select_some, hbet, Option.some.injEq] at hget
  subst hget
  refine ⟨fun hretry => ?_, fun _ _ _ credit hcredit => ?_⟩
  · -- an open bet is not retried: no resolved status is `open`
    rw [isEq_some, hopen] at hretry
    exact absurd (hretry.1 ▸ hvalid) (by decide)
  rw [treasuryDelta_of_creditUser hcredit, Option.getD_some]
  rw [creditUser_text hvalid, Option.some.injEq] at hcredit
  refine updateBalance_credits credit (fun _ => rfl) fun s₁ h₁ => ?_
  refine ifDo_updateBalance_credits (bet.effectiveStake - credit) (fun _ => rfl) not_not.mp
    fun s₂ h₂ => ?_
  simp only [Option.some.injEq, forall_eq', ofText_text]
  refine closeBet_writes fun closed hstatus hpayout hprofit => ?_
  subst hcredit
  refine auditLogInsert_appends fun _ s₃ row before after hbefore hafter hlog hamount hrowBefore
    hrowAfter hbets hbalances => ?_
  dsimp only at hbefore hafter
  -- the audit row is only written for an account that exists
  have haccount : s.HasAccount bet.discordId := by
    intro hnone
    rw [hnone] at hbefore
    cases hbefore
  rw [hbefore, Option.map_some, Option.some.injEq] at hafter
  have hfound : s₂.bets.get? id = some bet := by rw [h₂.bets, h₁.bets, hbet]
  have hclosed : s₃.bets.get? id = some closed := by
    rw [hbets]
    exact Table.get?_set_self hfound closed
  refine ⟨hvalid, ⟨closed, hclosed, hstatus, hpayout, hprofit⟩, ⟨row, ?_, hamount, ?_⟩, ?_⟩
  · rw [hlog]
    exact congrArg (· ++ [row]) (h₂.auditLog.trans h₁.auditLog)
  · rw [hrowBefore, hrowAfter, ← hafter, add_sub_cancel_left]
  · have hsame : s₃.balanceOf = s₂.balanceOf := by
      funext v
      simp only [Database.balanceOf, Database.balance?, hbalances]
      rfl
    rw [hsame]
    -- the treasury may bet itself, and then receives both parts
    split
    next howner =>
      rw [howner] at haccount ⊢
      rw [h₂.balance (h₁.accounts 0 haccount), ← howner, h₁.balance (howner ▸ haccount)]
    next howner =>
      rw [h₂.other _ howner, h₁.balance haccount, add_zero]

theorem cashoutMines_resolves {id : Int} {bet : Bet} (hbet : s.bets.get? id = some bet)
    (hopen : bet.status = .open) {multiplier : Option Numeric} {payout : Int}
    (hpayout : (multiplier.map fun m => m.floorMul bet.effectiveStake) = some payout) :
    wp (cashoutMines env (some id) multiplier)
      (fun _ s' => s.Resolved id bet .resolvedWin payout s') (fun _ => True) s := by
  unfold cashoutMines
  simp only [wp_bind, wp_get, wp_require, wp_raiseIf, wp_nullableBigint, implies_true, true_and,
    Table.select_some]
  intro _ vBet hget _ _ _
  obtain rfl := Option.some.inj (hbet.symm.trans hget)
  rw [hpayout]
  exact resolveBet_resolves hbet hopen .resolvedWin payout _

/-- A resolution that returns wrote what it was to write. -/
theorem resolved_of_succeeds {id : Int} {bet : Bet} {status : BetStatus} {payout : Int}
    {call : Call} (hbet : s.bets.get? id = some bet) (hopen : bet.status = .open)
    (hcall : call.Resolves id bet status payout) (hok : call.Succeeds env s) :
    s.Resolved id bet status payout (step s (.call env call)) := by
  have hrun : call.exec env s = (.ok (), step s (.call env call)) := Prod.ext hok rfl
  have hwp : wp (callBody env call) (fun _ s' => s.Resolved id bet status payout s')
      (fun _ => True) s := by
    cases call with
    | resolveBet b t p outcome =>
        obtain ⟨rfl, rfl, rfl⟩ := hcall
        exact resolveBet_resolves hbet hopen status payout outcome
    | cashoutMines b m =>
        obtain ⟨rfl, rfl, hpayout⟩ := hcall
        exact cashoutMines_resolves hbet hopen hpayout
    | _ => exact hcall.elim
  exact post_of_outcome hwp (transact_ok Database.rollback hrun)

/-! ## Repetition -/

/-- Once a bet is closed, naming its status and payout again returns and changes nothing, and
naming anything else raises and changes nothing. -/
structure Database.Final (s : Database) (id : Int) (status : BetStatus) (payout : Int) : Prop where
  again : ∀ env outcome,
    (Call.resolveBet (some id) (some status.text) (some payout) outcome).Succeeds env s ∧
      step s (.call env (.resolveBet (some id) (some status.text) (some payout) outcome)) = s
  otherwise : ∀ env pStatus pPayout outcome,
    ¬ (pStatus = some status.text ∧ pPayout = some payout) →
      ¬ (Call.resolveBet (some id) pStatus pPayout outcome).Succeeds env s ∧
        ∃ atError, step s (.call env (.resolveBet (some id) pStatus pPayout outcome)) =
          s.rollback atError

theorem final_of_closed {id : Int} {closed : Bet} (hbet : s.bets.get? id = some closed)
    (hvalid : closed.status.text ∈ resolvedStatuses) :
    s.Final id closed.status closed.payoutAmount := by
  have hclosed : closed.status ≠ .open := by
    intro hopen
    rw [hopen] at hvalid
    exact absurd hvalid (by decide)
  constructor
  · intro env outcome
    -- the same resolution again answers without a change
    have hwp : wp (callBody env (.resolveBet (some id) (some closed.status.text)
        (some closed.payoutAmount) outcome)) (fun _ s' => s' = s) (fun _ => False) s := by
      have hpayout := closed.payoutAmount_nonneg
      simp only [callBody]
      unfold resolveBet
      simp [wp_bind, wp_get, wp_require, wp_ite, wp_raiseIf, wp_pure, hbet, hvalid, hpayout]
    obtain ⟨result, s', houtcome, hsame⟩ := exists_outcome_of_wp hwp
    have hexec : (Call.resolveBet (some id) (some closed.status.text) (some closed.payoutAmount)
        outcome).exec env s = (.ok result, s') := by
      rw [Call.exec, transact, houtcome]
    constructor
    · rw [Call.Succeeds, hexec]
    · rw [step, hexec, hsame]
  · intro env pStatus pPayout outcome hother
    -- any other resolution is refused, the bet being closed
    have hfails : ¬ (Call.resolveBet (some id) pStatus pPayout outcome).Succeeds env s := by
      intro hok
      have hrun : (Call.resolveBet (some id) pStatus pPayout outcome).exec env s = (.ok (), _) :=
        Prod.ext hok rfl
      have hwp : wp (callBody env (.resolveBet (some id) pStatus pPayout outcome))
          (fun _ _ => False) (fun _ => True) s := by
        simp only [callBody]
        unfold resolveBet
        simp only [wp_bind, wp_get, wp_require, wp_ite, wp_raiseIf, wp_pure, implies_true,
          true_and, Table.select_some, hbet, Option.some.injEq, forall_eq']
        intro _ _
        refine ⟨?_, fun _ hopen => absurd hclosed hopen⟩
        rintro ⟨⟨text, htext, hstatus⟩, payout, hamount, hpayout⟩
        rw [← htext] at hstatus
        rw [← hamount] at hpayout
        exact hother ⟨hstatus, hpayout⟩
      exact post_of_outcome hwp (transact_ok Database.rollback hrun)
    exact ⟨hfails, step_of_fails hfails⟩

/-! ## What is recorded -/

/-- The rows that a resolution from `s` to `s'` wrote name what the bettor was credited. -/
structure Database.RecordsPayment (s : Database) (id : Int) (bet : Bet) (s' : Database) : Prop where
  row : ∃ closed, s'.bets.get? id = some closed ∧
    closed.payoutAmount = s'.balanceOf bet.discordId - s.balanceOf bet.discordId ∧
    closed.profit = some
      (s'.balanceOf bet.discordId - s.balanceOf bet.discordId - bet.betAmount)
  audited : ∃ row, s'.audit.auditLog = s.audit.auditLog ++ [row] ∧
    row.content.amount = some (s'.balanceOf bet.discordId - s.balanceOf bet.discordId) ∧
    row.content.balanceAfter - row.content.balanceBefore =
      s'.balanceOf bet.discordId - s.balanceOf bet.discordId

/-- The payout is what the status credits, and what the treasury keeps of its own stake when
it is the bettor. -/
def Bet.PaysAsNamed (bet : Bet) (status : BetStatus) (payout : Int) : Prop :=
  (status = .resolvedLoss → payout = 0) ∧
    (status = .resolvedTie → payout = bet.effectiveStake) ∧
      (bet.discordId = 0 → payout = bet.effectiveStake)

/-- What is recorded of a resolution is what was paid exactly when the named payout is what the
status pays; and whatever happens later, the resolution is final. -/
theorem resolution_records_payment {id : Int} {bet : Bet} {status : BetStatus} {payout : Int}
    {call : Call} (hbet : s.bets.get? id = some bet) (hopen : bet.status = .open)
    (hcall : call.Resolves id bet status payout) (hok : call.Succeeds env s) :
    (s.RecordsPayment id bet (step s (.call env call)) ↔ bet.PaysAsNamed status payout) ∧
      ∀ later, (run step (step s (.call env call)) later).Final id status payout := by
  obtain ⟨hvalid, ⟨closed, hclosed, hstatus, hpayout, hprofit⟩, ⟨row, hlog, hamount, hchange⟩,
    hbalance⟩ := resolved_of_succeeds hbet hopen hcall hok
  constructor
  · -- the payout is what `credit` pays except for a loss or a tie of another amount
    have hcredit : bet.credit payout status = payout ↔
        (status = .resolvedLoss → payout = 0) ∧
          (status = .resolvedTie → payout = bet.effectiveStake) := by
      rcases resolved_of_mem hvalid with rfl | rfl | rfl <;> simp [Bet.credit, eq_comm]
    rw [Bet.PaysAsNamed, ← and_assoc, ← hcredit]
    constructor
    · rintro ⟨⟨closed', hclosed', hpayout', -⟩, row', hlog', hamount', hchange'⟩
      obtain rfl := Option.some.inj (hclosed.symm.trans hclosed')
      obtain rfl := List.singleton_inj.mp (List.append_cancel_left (hlog.symm.trans hlog'))
      rw [hpayout, hbalance] at hpayout'
      rw [hchange, hbalance] at hchange'
      constructor
      · omega
      · intro howner
        rw [if_pos howner] at hpayout' hchange'
        omega
    · rintro ⟨hnamed, htreasury⟩
      have hcredited : (step s (.call env call)).balanceOf bet.discordId -
          s.balanceOf bet.discordId = payout := by
        rw [hbalance, hnamed]
        split
        next howner =>
          rw [htreasury howner]
          omega
        next => omega
      constructor
      · exact ⟨closed, hclosed, by rw [hpayout, hcredited], by rw [hprofit, hcredited]⟩
      · exact ⟨row, hlog, by rw [hamount, hcredited], by rw [hchange, hcredited, hnamed]⟩
  · intro later
    subst hstatus hpayout
    have hne : closed.status ≠ .open := by
      intro hopen'
      rw [hopen'] at hvalid
      exact absurd hvalid (by decide)
    exact final_of_closed (closed_bet_run hclosed hne later) hvalid

/-- User 9 has an open bet of 500, of which 473 are at stake. -/
def openBetDatabase : Database :=
  run step .seeded (depositRun ++ [placeBet "blackjack" "key-1" 500])

/-- The open bet is resolved. -/
def resolveOpenBet (status : BetStatus) (payout : Int) : Call :=
  .resolveBet (some 1) (some status.text) (some payout) none

theorem resolution_records_payment_tie :
    ∃ bet, openBetDatabase.bets.get? 1 = some bet ∧
      openBetDatabase.RecordsPayment 1 bet
        (step openBetDatabase (.call .plain (resolveOpenBet .resolvedTie 473))) := by
  have hrow : (openBetDatabase.bets.get? 1).map
      (fun bet => (bet.status, bet.discordId, bet.effectiveStake)) = some (.open, 9, 473) := by
    decide +kernel
  obtain ⟨bet, hbet, hcolumns⟩ := Option.map_eq_some_iff.mp hrow
  simp only [Prod.mk.injEq] at hcolumns
  obtain ⟨hopen, howner, hstake⟩ := hcolumns
  have hok : (resolveOpenBet .resolvedTie 473).Succeeds .plain openBetDatabase := by
    decide +kernel
  have hnamed : bet.PaysAsNamed .resolvedTie 473 := by
    simp [Bet.PaysAsNamed, howner, hstake]
  have hcall : (resolveOpenBet .resolvedTie 473).Resolves 1 bet .resolvedTie 473 :=
    ⟨rfl, rfl, rfl⟩
  exact ⟨bet, hbet, (resolution_records_payment hbet hopen hcall hok).1.mpr hnamed⟩

/-- A tie with a payout of 0 returns; the stake of 473 is credited, and the row and the audit
row name 0 and a loss of the whole bet. -/
theorem tie_records_no_payment :
    (resolveOpenBet .resolvedTie 0).Succeeds .plain openBetDatabase ∧
      (step openBetDatabase (.call .plain (resolveOpenBet .resolvedTie 0))).balanceOf 9 =
        openBetDatabase.balanceOf 9 + 473 ∧
      ((step openBetDatabase (.call .plain (resolveOpenBet .resolvedTie 0))).bets.get? 1).map
        (fun bet => (bet.payoutAmount, bet.profit)) = some (0, some (-500)) ∧
      (((step openBetDatabase (.call .plain (resolveOpenBet .resolvedTie 0))).audit.auditLog.getLast?).map
        fun row => row.content.amount) = some (some 0) := by
  decide +kernel

end DeathRoll
