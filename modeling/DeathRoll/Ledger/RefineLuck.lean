import DeathRoll.Ledger.RefineDw

/-! # Bet functions refine the ledger, and so does every call

The bet functions post to the treasury and to a raffle pool without reading
their rows first, so they refine the ledger where those rows exist.
-/

namespace DeathRoll

open Relational Tx Account
open Finsupp (single)

/-- The treasury has a balance, and the references of `core.balances` to
`core.users` and of `luck.bets` to `luck.raffle_periods` resolve. -/
structure Database.WellFormed (s : Database) : Prop where
  treasury : s.HasAccount 0
  registered : ∀ u, s.HasAccount u → s.HasUser u
  period : ∀ id bet p, s.bets.get? id = some bet → bet.rakePeriodId = some p → s.HasPeriod p

variable {env : Env} {s : Database}

theorem hasPeriod_of_activePeriod {p : Int} (hactive : s.activePeriod = some p) : s.HasPeriod p := by
  have hmem := List.max?_mem hactive
  rw [List.mem_map] at hmem
  obtain ⟨⟨key, row⟩, hrow, rfl⟩ := hmem
  rw [Database.HasPeriod, Table.get?_eq_some.mpr (List.mem_of_mem_filter hrow)]
  simp

theorem wp_bpsShare {post : Option Int → Database → Prop} {raised : DbError → Prop}
    (amount : Option Int) (bps : Int) :
    wp (bpsShare amount bps) post raised s ↔
      (∀ x, amount = some x → ¬ InBigint (x * bps) → raised .bigintOutOfRange) ∧
        ((∀ x, amount = some x → InBigint (x * bps)) →
          post (amount.map fun amount => (amount * bps).tdiv 10000) s) := by
  unfold bpsShare
  simp only [wp_bind, wp_nullableBigint, wp_pure]
  cases amount <;> simp

/-- A new bet has the amounts and the texts asked for. -/
theorem openBet_open {post : Bet → Database → Prop} {d b e c r : Int} {g : Option String}
    {channel : Option Int} {selection : Option Json} {hash : Option Bytes} {seed : Option String}
    {nonce : Option Int} {key uid : Option String} {period : Option Int}
    (hpost : ∀ bet : Bet, bet.status = .open → bet.discordId = d → bet.betAmount = b →
      bet.effectiveStake = e → bet.commission = c → bet.rake = r → bet.rakePeriodId = period →
      g = some bet.gameName → key = some bet.idempotencyKey → post bet s) :
    wp (openBet env d b e c r g channel selection hash seed nonce key uid period) post
      (fun _ => True) s := by
  unfold openBet
  simp only [wp_bind, wp_notNull, wp_dite, wp_pure, wp_throw, implies_true, true_and, and_true]
  intro _ _ game hgame _ _ _ _ _ _ _ _ _ _ idem hidem _
  exact hpost _ rfl rfl rfl rfl rfl rfl rfl hgame hidem

theorem insertBet_adds {post : Int → Database → Prop} {bet : Bet}
    (hpost : ∀ id, s.bets.get? id = none →
      (∀ other b, s.bets.get? other = some b →
        ¬ (b.discordId = bet.discordId ∧ b.idempotencyKey = bet.idempotencyKey)) →
      post id ((s.advance .bets).addBet id bet)) :
    wp (insertBet bet) post (fun _ => True) s := by
  unfold insertBet
  simp only [wp_bind, wp_get, wp_set, wp_nextval, wp_raiseIf, wp_pure, implies_true, true_and]
  intro hnew _ hunique _ _
  refine hpost _ (not_ne_iff.mp hnew) fun other b hb hsame => ?_
  exact hunique (Table.any_eq_true.mpr ⟨other, b, hb, by simpa using hsame⟩)

/-- The two rake statements of a bet post to one account: the pool of the
period, or the treasury when there is none. -/
theorem rake_posts {post : Unit → Database → Prop} {rake x y : Int} {period : Option Int}
    {assign : BalanceRow → BalanceRow}
    (hassign : ∀ row, (assign row).balance = row.balance + x ∧
      (assign row).lockedBalance = row.lockedBalance)
    (hrake : 0 < rake → y = x) (hnone : ¬ 0 < rake → y = 0)
    (hpost : ∀ s', (s.HasAccount 0 → (∀ p, period = some p → s.HasPeriod p) →
      s'.ledger = { s.ledger with books := s.ledger.books + single (rakeAccount period) y }) →
      s.Grows s' → post () s') :
    wp (ifDo (0 < rake ∧ period ≠ none) (addToPool (period.getD 0) x))
      (fun _ s₁ => wp (ifDo (0 < rake ∧ period = none) (updateBalance 0 assign)) post
        (fun _ => True) s₁)
      (fun _ => True) s := by
  cases period with
  | none =>
      refine (wp_ifDo _ _).mpr ⟨fun hpool => absurd rfl hpool.2, fun _ => ?_⟩
      refine ifDo_updateBalance_posts (single (wallet 0) y) ?_ ?_
        fun s₁ h₁ => hpost s₁ (fun htreasury _ => h₁.ledger htreasury) h₁.grows
      · intro hpositive old _
        simp [hassign, hrake hpositive.1]
      · intro hnot
        rw [hnone fun hpositive => hnot ⟨hpositive, rfl⟩, Finsupp.single_zero]
  | some p =>
      refine ifDo_addToPool_posts (single (pool p) y) ?_ ?_ fun s₁ h₁ => ?_
      · intro hpositive
        rw [hrake hpositive.1, Option.getD_some]
      · intro hnot
        rw [hnone fun hpositive => hnot ⟨hpositive, by simp⟩, Finsupp.single_zero]
      · refine (wp_ifDo _ _).mpr ⟨fun htreasury => absurd htreasury.2 (by simp), fun _ => ?_⟩
        exact hpost s₁ (fun _ hperiod => h₁.ledger (hperiod p rfl)) h₁.grows

theorem applyBet_refines (hs : s.WellFormed) (d : Option Int) (g : Option String)
    (c b : Option Int) (e : Option Json) (h : Option Bytes) (k : Option String) (n : Option Int)
    (i u : Option String) :
    wp (applyBet env d g c b e h k n i u)
      (fun _ s' => s.Takes env (.applyBet d g c b e h k n i u) s') (fun _ => True) s := by
  unfold applyBet
  simp only [wp_bind, wp_get, wp_require, wp_ite, wp_raiseIf, wp_nullableBigint, wp_bpsShare,
    wp_notNull, wp_pure, implies_true, true_and]
  refine ⟨fun hfound => ?_, fun _ game hgame _ _ _ => ?_⟩
  · -- a retry finds the bet of its key and changes nothing
    obtain ⟨id, hid⟩ := Option.ne_none_iff_exists'.mp hfound
    obtain ⟨⟨key, bet⟩, hfind, rfl⟩ := Option.map_eq_some_iff.mp hid
    have hmem := Table.get?_eq_some.mpr (List.mem_of_find?_eq_some hfind)
    have hmatch := List.find?_some hfind
    simp only [decide_eq_true_eq] at hmatch
    exact .quiet ⟨key, bet, hmem, hmatch.1, hmatch.2⟩ rfl (.refl s)
  intro _ _ _ _ row hrow _ _ user huser amount hamount stake hstake
  subst huser hamount
  simp only [Option.map_some, Option.getD_some, Option.some.injEq] at hstake
  refine updateBalance_posts (single (wallet user) (-amount) + single (locked user) stake) (by simp)
    fun s₁ h₁ => ?_
  simp only [Option.map_some, Option.getD_some]
  -- the commission goes to the treasury, when there is one
  refine ifDo_updateBalance_posts
    (single (wallet 0) (max ((amount * game.commissionBps.getD 0).tdiv 10000) 0)) ?_ ?_
    fun s₂ h₂ => ?_
  · intro hpositive old _
    simp [max_eq_left hpositive.le]
  · intro hnot
    simp [max_eq_right (not_lt.mp hnot)]
  refine rake_posts (y := max ((amount * s.rakeBps).tdiv 10000) 0) (fun _ => ⟨rfl, rfl⟩)
    (fun hpositive => max_eq_left hpositive.le) (fun hnot => max_eq_right (not_lt.mp hnot))
    fun s₃ hledger₃ hgrows₃ => ?_
  refine openBet_open fun bet hopen howner hamount hstake' hcommission hrake hperiod hgame' hkey =>
    insertBet_adds fun id hnew hfirst => ?_
  refine auditLogInsert_records fun _ s₄ _ _ _ _ _ _ htarget _ hb ha h₄ => ?_
  obtain rfl := Option.some.inj htarget
  obtain rfl := Option.some.inj hb
  obtain rfl := Option.some.inj ha
  have haccount : s.HasAccount user := by
    rw [Table.select_some] at hrow
    simp [Database.HasAccount, hrow]
  -- the three postings and the rake add up to one move of the books
  have hledger := hledger₃ (h₂.grows.accounts (h₁.grows.accounts hs.treasury))
    fun p hp => h₂.grows.periods (h₁.grows.periods (hasPeriod_of_activePeriod hp))
  rw [h₂.ledger (h₁.grows.accounts hs.treasury), h₁.ledger haccount] at hledger
  have hbets : s₃.bets = s.bets := congrArg Ledger.bets hledger
  have hbps : s.ledger.commissionBps bet.gameName = game.commissionBps.getD 0 := by
    rw [hgame', Table.select_some] at hgame
    simp [Database.ledger, commissionBpsOf, hgame]
  rw [hbets] at hnew hfirst
  subst howner hamount hgame' hkey hstake'
  refine ⟨.betPlaced hnew hopen hfirst ?_ hrake ?_ hperiod ?_,
    h₁.grows.trans (h₂.grows.trans (hgrows₃.trans h₄.grows))⟩
  · rw [hbps, hcommission]
  · rw [← hstake, hcommission, hrake]
  · rw [h₄.ledger, ledger_addBet, ledger_advance, hledger, hcommission, hrake]
    simp [add_assoc]
    rfl

/-- Closing a bet keeps its owner and its amounts. -/
theorem closeBet_closes {post : Unit → Database → Prop} {id payout profit : Int} {bet : Bet}
    {status : BetStatus} {outcome : Option Json}
    (hpost : ∀ closed : Bet, closed.status = status → closed.discordId = bet.discordId →
      closed.rakePeriodId = bet.rakePeriodId → post () (s.setBet id closed)) :
    wp (closeBet env id bet status payout profit outcome) post (fun _ => True) s := by
  unfold closeBet
  simp only [wp_dite, wp_modify, wp_throw, implies_true, and_true]
  intro _
  exact hpost _ rfl rfl rfl

theorem resolvedStatuses_ne_open {status : String} {resolved : BetStatus}
    (hvalid : status ∈ resolvedStatuses) (htext : BetStatus.ofText status = some resolved) :
    resolved ≠ .open := by
  simp only [resolvedStatuses, List.mem_cons, List.not_mem_nil, or_false] at hvalid
  rcases hvalid with rfl | rfl | rfl <;> cases htext <;> decide

theorem treasuryDelta_of_creditUser {status : Option String} {payout : Option Int}
    {stake credit : Int} (hcredit : creditUser status payout stake = some credit) :
    treasuryDelta status payout stake = some (stake - credit) := by
  unfold creditUser at hcredit
  unfold treasuryDelta
  split at hcredit
  next hwin => rw [if_pos hwin, hcredit, Option.map_some]
  next hwin =>
    rw [if_neg hwin]
    split at hcredit
    next hloss =>
      obtain rfl := Option.some.inj hcredit
      rw [if_pos hloss, sub_zero]
    next hloss =>
      obtain rfl := Option.some.inj hcredit
      rw [if_neg hloss, sub_self]

/-- `luck.resolve_bet` retries, or it settles an open bet. -/
theorem resolveBet_settles (hs : s.WellFormed) {b : Option Int} {p : Option String}
    {a : Option Int} {o : Option Json} {post : Unit → Database → Prop}
    (hretry : ∀ id bet, b = some id → s.bets.get? id = some bet → bet.status ≠ .open → post () s)
    (hpost : ∀ s' id bet closed credit, b = some id → s.bets.get? id = some bet →
      bet.status = .open → creditUser p a bet.effectiveStake = some credit →
      closed.status ≠ .open → closed.discordId = bet.discordId →
      closed.rakePeriodId = bet.rakePeriodId →
      s'.ledger =
        { s.ledger with
          books := s.ledger.books + (single (wallet bet.discordId) credit +
            single (locked bet.discordId) (-bet.effectiveStake) +
            single (wallet 0) (bet.effectiveStake - credit))
          audited := s.ledger.audited + single bet.discordId credit
          bets := s.ledger.bets.set id closed } →
      s.Grows s' → post () s') :
    wp (resolveBet env b p a o) post (fun _ => True) s := by
  unfold resolveBet
  simp only [wp_bind, wp_get, wp_require, wp_ite, wp_raiseIf, wp_nullableBigint, wp_notNull,
    wp_checkedText, wp_pure, implies_true, true_and]
  intro hvalid _ bet hbet
  refine ⟨fun hsame => ?_, fun _ hopen _ credit hcredit => ?_⟩
  · obtain ⟨id, rfl, hget⟩ := Table.select_eq_some.mp hbet
    -- a status that resolves is not `open`, so the bet is not open either
    refine hretry id bet rfl hget fun hopen => ?_
    obtain ⟨text, htext, rfl⟩ := hsame.1
    rw [isNotIn_some, not_not] at hvalid
    obtain rfl := Option.some.inj htext
    rw [hopen] at hvalid
    exact absurd hvalid (by decide)
  rw [treasuryDelta_of_creditUser hcredit]
  simp only [Option.getD_some]
  refine updateBalance_posts (single (wallet bet.discordId) credit +
    single (locked bet.discordId) (-bet.effectiveStake)) (by simp) fun s₁ h₁ => ?_
  -- the treasury takes the difference, whichever sign it has
  refine ifDo_updateBalance_posts (single (wallet 0) (bet.effectiveStake - credit)) (by simp)
    (fun hzero => by rw [not_ne_iff.mp hzero, Finsupp.single_zero]) fun s₂ h₂ => ?_
  intro id hid text htext status hstatus payout _
  subst hid htext
  rw [isNotIn_some, not_not] at hvalid
  refine closeBet_closes fun closed hclosed howner hperiod => ?_
  refine auditLogInsert_records fun _ s₃ _ _ _ before after _ htarget _ hb ha h₃ => ?_
  obtain rfl := Option.some.inj htarget
  rw [hb, Option.map_some, Option.some.injEq] at ha
  have haccount : s.HasAccount bet.discordId := by
    intro hnone
    simp [hnone] at hb
  refine hpost s₃ id bet closed credit rfl hbet (not_ne_iff.mp hopen) hcredit
    (by rw [hclosed]; exact resolvedStatuses_ne_open hvalid hstatus) howner hperiod ?_
    (h₁.grows.trans (h₂.grows.trans h₃.grows))
  rw [h₃.ledger, ledger_setBet, h₂.ledger (h₁.grows.accounts hs.treasury), h₁.ledger haccount]
  simp [← ha, add_assoc]

theorem resolveBet_refines (hs : s.WellFormed) (b : Option Int) (p : Option String)
    (a : Option Int) (o : Option Json) :
    wp (resolveBet env b p a o) (fun _ s' => s.Takes env (.resolveBet b p a o) s')
      (fun _ => True) s := by
  refine resolveBet_settles hs ?_ ?_
  · rintro id bet rfl hbet hclosed
    exact .quiet ⟨id, bet, rfl, hbet, hclosed⟩ rfl (.refl s)
  · rintro s' id bet closed credit rfl hbet hopen hcredit hclosed howner hperiod hledger hgrows
    exact ⟨.betResolved (.inl ⟨o, rfl⟩) hbet hopen hcredit hclosed howner hperiod hledger, hgrows⟩

theorem cashoutMines_refines (hs : s.WellFormed) (b : Option Int) (m : Option Numeric) :
    wp (cashoutMines env b m) (fun _ s' => s.Takes env (.cashoutMines b m) s')
      (fun _ => True) s := by
  unfold cashoutMines
  simp only [wp_bind, wp_get, wp_require, wp_raiseIf, wp_nullableBigint, implies_true, true_and]
  intro _ mines hmines _ hopen _
  refine resolveBet_settles hs ?_ ?_
  · rintro id bet rfl hbet hclosed
    obtain rfl := Option.some.inj (hmines.symm.trans hbet)
    exact absurd (not_ne_iff.mp hopen) hclosed
  · rintro s' id bet closed credit rfl hbet hopen hcredit hclosed howner hperiod hledger hgrows
    obtain rfl := Option.some.inj (hmines.symm.trans hbet)
    exact ⟨.betResolved (.inr ⟨m, rfl, rfl, rfl⟩) hbet hopen hcredit hclosed howner hperiod
      hledger, hgrows⟩

theorem refundBet_refines (hs : s.WellFormed) (b : Option Int) (r : Option String) :
    wp (refundBet env b r) (fun _ s' => s.Takes env (.refundBet b r) s') (fun _ => True) s := by
  unfold refundBet
  simp only [wp_bind, wp_get, wp_require, wp_ite, wp_raiseIf, wp_pure, implies_true, true_and]
  intro bet hbet
  refine ⟨fun hrefunded => ?_, fun _ hopen => ?_⟩
  · obtain ⟨id, rfl, hget⟩ := Table.select_eq_some.mp hbet
    exact .quiet ⟨id, bet, rfl, hget, by simp [hrefunded]⟩ rfl (.refl s)
  refine updateBalance_posts (single (wallet bet.discordId) bet.betAmount +
    single (locked bet.discordId) (-bet.effectiveStake)) (by simp) fun s₁ h₁ => ?_
  refine ifDo_updateBalance_posts (single (wallet 0) (-max bet.commission 0)) ?_ ?_
    fun s₂ h₂ => ?_
  · intro hpositive old _
    simp [max_eq_left hpositive.le]
  · intro hnot
    simp [max_eq_right (not_lt.mp hnot)]
  refine rake_posts (y := -max bet.rake 0) (fun row => ⟨sub_eq_add_neg _ _, rfl⟩)
    (fun hpositive => by rw [max_eq_left hpositive.le])
    (fun hnot => by rw [max_eq_right (not_lt.mp hnot), neg_zero]) fun s₃ hledger₃ hgrows₃ => ?_
  intro id hid
  subst hid
  refine closeBet_closes fun closed hclosed howner hperiod => ?_
  refine auditLogInsert_records fun _ s₄ _ _ _ before after _ htarget _ hb ha h₄ => ?_
  obtain rfl := Option.some.inj htarget
  rw [hb, Option.map_some, Option.some.injEq] at ha
  have haccount : s.HasAccount bet.discordId := by
    intro hnone
    simp [hnone] at hb
  have hledger := hledger₃ (h₂.grows.accounts (h₁.grows.accounts hs.treasury))
    fun p hp => h₂.grows.periods (h₁.grows.periods (hs.period id bet p hbet hp))
  rw [h₂.ledger (h₁.grows.accounts hs.treasury), h₁.ledger haccount] at hledger
  refine ⟨.betRefunded hbet (not_ne_iff.mp hopen) (by simp [hclosed]) howner hperiod ?_,
    h₁.grows.trans (h₂.grows.trans (hgrows₃.trans h₄.grows))⟩
  rw [h₄.ledger, ledger_setBet, hledger]
  simp [← ha, add_assoc]

/-! ## Helpers -/

theorem consumeRateToken_refines (d : Option Int) (p : Option String) (w m : Option Int) :
    wp (consumeRateToken env d p w m)
      (fun _ s' => s.Takes env (.consumeRateToken d p w m) s') (fun _ => True) s := by
  unfold consumeRateToken
  simp only [wp_bind, wp_get, wp_set, wp_raiseIf, wp_notNull, wp_pure, implies_true, true_and]
  intros
  exact .quiet trivial rfl (.refl s)

theorem insertRaffleTickets_unseen {ticket : RaffleTicket} {count : Nat} {before : Database}
    (hbefore : before.ledger = s.ledger ∧ s.Grows before) :
    wp (insertRaffleTickets ticket count)
      (fun _ s' => s'.ledger = s.ledger ∧ s.Grows s') (fun _ => True) before := by
  induction count generalizing before with
  | zero => exact hbefore
  | succ count ih =>
      unfold insertRaffleTickets
      simp only [wp_bind, wp_get, wp_set, wp_nextval, wp_raiseIf, implies_true, true_and]
      intro _
      exact ih hbefore

theorem grantRaffleTickets_refines (d p n b : Option Int) :
    wp (grantRaffleTickets env d p n b)
      (fun _ s' => s.Takes env (.grantRaffleTickets d p n b) s') (fun _ => True) s := by
  unfold grantRaffleTickets
  simp only [wp_bind, wp_get, wp_require, wp_ite, wp_raiseIf, wp_notNull, wp_pure, implies_true,
    true_and]
  intro _
  refine ⟨fun _ => .quiet trivial rfl (.refl s), fun _ _ _ _ => ⟨fun _ => ?_, fun _ => ?_⟩⟩
  · exact .quiet trivial rfl (.refl s)
  · intros
    refine wp_mono (insertRaffleTickets_unseen ⟨rfl, .refl s⟩) ?_ fun _ _ => trivial
    rintro _ s' ⟨hledger, hgrows⟩
    exact .quiet trivial hledger hgrows

/-! ## Every call -/

/-- A call that returns takes a step of the abstract ledger. -/
theorem callBody_refines (hs : s.WellFormed) (call : Call) :
    wp (callBody env call) (fun _ s' => s.Takes env call s') (fun _ => True) s := by
  cases call <;> simp only [callBody, wp_bind, wp_pure]
  case createDepositTicket => exact createDepositTicket_refines ..
  case confirmDeposit => exact confirmDeposit_refines ..
  case cancelDeposit => exact cancelDeposit_refines ..
  case createWithdrawTicket => exact createWithdrawTicket_refines ..
  case confirmWithdraw => exact confirmWithdraw_refines ..
  case cancelWithdraw => exact cancelWithdraw_refines ..
  case claimTicket => exact claimTicket_refines ..
  case releaseTicket => exact releaseTicket_refines ..
  case openDispute => exact openDispute_refines ..
  case resolveDispute => exact resolveDispute_refines ..
  case rejectDispute => exact rejectDispute_refines ..
  case treasurySweep => exact treasurySweep_refines ..
  case treasuryWithdrawToUser => exact treasuryWithdrawToUser_refines ..
  case addCashierCharacter => exact addCashierCharacter_refines ..
  case removeCashierCharacter => exact removeCashierCharacter_refines ..
  case setCashierStatus => exact setCashierStatus_refines ..
  case expireCashier => exact expireCashier_refines ..
  case banUser => exact banUser_refines ..
  case unbanUser => exact unbanUser_refines ..
  case applyBet => exact applyBet_refines hs ..
  case resolveBet => exact resolveBet_refines hs ..
  case refundBet => exact refundBet_refines hs ..
  case cashoutMines => exact cashoutMines_refines hs ..
  case consumeRateToken => exact consumeRateToken_refines ..
  case grantRaffleTickets => exact grantRaffleTickets_refines ..

end DeathRoll
