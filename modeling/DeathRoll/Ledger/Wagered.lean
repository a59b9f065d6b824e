import DeathRoll.Ledger.Frames

/-! # Wagers

`total_wagered` grows with every bet placed and shrinks with every bet refunded, and
no other call writes it. It therefore covers the open bets of its owner in every
reachable state, so a refund never takes it below zero.
-/

namespace DeathRoll

open Relational Tx

variable {env : Env} {s s' : Database}

/-! ## Functions that place or close a bet -/

/-- What a call can do to the wagered totals and the bets. -/
inductive Database.Wagers (s s' : Database) : Prop
  | kept (hsame : s'.wagers = s.wagers)
  | placed {id : Int} {bet : Bet} (hnew : s.bets.get? id = none) (hstatus : bet.status = .open)
      (hbets : s'.bets = s.bets.insertNew id bet)
      (hwagered : s'.wageredOf = Function.update s.wageredOf bet.discordId
        (s.wageredOf bet.discordId + bet.betAmount))
  | resolved {id : Int} {bet closed : Bet} (hbet : s.bets.get? id = some bet)
      (hstatus : bet.status = .open) (hclosed : closed.status ≠ .open)
      (hbets : s'.bets = s.bets.set id closed) (hwagered : s'.wageredOf = s.wageredOf)
  | refunded {id : Int} {bet closed : Bet} (hbet : s.bets.get? id = some bet)
      (hstatus : bet.status = .open) (hclosed : closed.status ≠ .open)
      (hbets : s'.bets = s.bets.set id closed)
      (hwagered : s'.wageredOf = Function.update s.wageredOf bet.discordId
        (s.wageredOf bet.discordId - bet.betAmount))

theorem updateBalance_wagers {post : Unit → Database → Prop} {u : Int}
    {assign : BalanceRow → BalanceRow} (amount : Int)
    (hassign : ∀ row, (assign row).totalWagered = row.totalWagered + amount)
    (hpost : ∀ s', s'.bets = s.bets → (s.HasAccount u →
      s'.wageredOf = Function.update s.wageredOf u (s.wageredOf u + amount)) → post () s') :
    wp (updateBalance u assign) post (fun _ => True) s := by
  refine (wp_updateBalance u assign).mpr ⟨fun hnone => ?_, fun old hold =>
    ⟨fun _ _ => trivial, fun new hnew => ?_⟩⟩
  · exact hpost s rfl fun haccount => absurd hnone haccount
  · have htotal : new.totalWagered = s.wageredOf u + amount := by
      rw [wageredOf_of_get? hold, ← hassign old.toBalanceRow, ← hnew]
    exact hpost _ rfl fun _ => by rw [wageredOf_setBalance hold, htotal]

/-- An audit row that goes in reports a balance, so its subject had one. -/
theorem auditLogInsert_shows {post : Int → Database → Prop} {p : AuditParams}
    (hpost : ∀ id s', p.balanceBefore ≠ none → s'.wagers = s.wagers → post id s') :
    wp (auditLogInsertWithChain env p) post (fun _ => True) s := by
  unfold auditLogInsertWithChain
  simp only [wp_bind, wp_orThrow, wp_nextval, wp_notNull, wp_get, wp_raiseIf, wp_set, wp_pure,
    implies_true, true_and]
  intro _ _ _ _ _ _ _ _ before hbefore _ _ _ _ _
  exact hpost _ _ (by simp [hbefore]) rfl

theorem applyBet_wagers (d : Option Int) (g : Option String) (c b : Option Int) (e : Option Json)
    (h : Option Bytes) (k : Option String) (n : Option Int) (i u : Option String) :
    wp (applyBet env d g c b e h k n i u) (fun _ s' => s.Wagers s') (fun _ => True) s := by
  unfold applyBet
  simp only [wp_bind, wp_get, wp_require, wp_ite, wp_raiseIf, wp_nullableBigint, wp_bpsShare,
    wp_notNull, wp_pure, implies_true, true_and]
  refine ⟨fun _ => .kept rfl, ?_⟩
  intro _ game _ _ _ _ _ _ _ _ row hrow _ _ user huser amount hamount stake _
  subst huser hamount
  simp only [Option.map_some, Option.getD_some]
  refine updateBalance_wagers amount (fun _ => rfl) fun s₁ hbets₁ hwagered₁ => ?_
  refine wp_of_keeps (ifDo_updateBalance_keeps fun _ => rfl) fun _ s₂ h₂ => ?_
  refine wp_of_keeps (addToPool_keeps.ifDo _) fun _ s₃ h₃ => ?_
  refine wp_of_keeps (ifDo_updateBalance_keeps fun _ => rfl) fun _ s₄ h₄ => ?_
  refine openBet_open fun bet hopen howner hamount _ _ _ _ _ _ => insertBet_adds fun id hnew _ => ?_
  refine wp_of_keeps (auditLogInsert_keeps.map Prod.fst) fun _ s₅ h₅ => ?_
  have hsame : s₄.wagers = s₁.wagers := congrArg Prod.fst (h₄.trans (h₃.trans h₂))
  have hbets : s₄.bets = s.bets := (congrArg Prod.snd hsame).trans hbets₁
  have haccount : s.HasAccount user := by
    rw [Table.select_some] at hrow
    simp [Database.HasAccount, hrow]
  rw [hbets] at hnew
  refine .placed hnew hopen ((congrArg Prod.snd h₅).trans ?_) ((congrArg Prod.fst h₅).trans ?_)
  · rw [← hbets]
    rfl
  · rw [howner, hamount]
    exact (congrArg Prod.fst hsame).trans (hwagered₁ haccount)

theorem resolveBet_wagers (b : Option Int) (t : Option String) (p : Option Int)
    (o : Option Json) :
    wp (resolveBet env b t p o) (fun _ s' => s.Wagers s') (fun _ => True) s := by
  unfold resolveBet
  simp only [wp_bind, wp_get, wp_require, wp_ite, wp_raiseIf, wp_nullableBigint, wp_notNull,
    wp_checkedText, wp_pure, implies_true, true_and]
  intro hvalid _ bet hbet
  refine ⟨fun _ => .kept rfl, fun _ hopen _ credit _ => ?_⟩
  refine wp_of_keeps (updateBalance_keeps fun _ => rfl) fun _ s₁ h₁ => ?_
  refine wp_of_keeps (ifDo_updateBalance_keeps fun _ => rfl) fun _ s₂ h₂ => ?_
  intro id hid text htext status hstatus payout _
  subst hid htext
  rw [isNotIn_some, not_not] at hvalid
  refine closeBet_closes fun closed hclosed _ _ => ?_
  refine wp_of_keeps (auditLogInsert_keeps.map Prod.fst) fun _ s₃ h₃ => ?_
  have hsame : s₂.wagers = s.wagers := congrArg Prod.fst (h₂.trans h₁)
  refine .resolved hbet (not_ne_iff.mp hopen) (hclosed ▸ resolvedStatuses_ne_open hvalid hstatus)
    ((congrArg Prod.snd h₃).trans ?_) ((congrArg Prod.fst h₃).trans (congrArg Prod.fst hsame))
  rw [← show s₂.bets = s.bets from congrArg Prod.snd hsame]
  rfl

theorem cashoutMines_wagers (b : Option Int) (m : Option Numeric) :
    wp (cashoutMines env b m) (fun _ s' => s.Wagers s') (fun _ => True) s := by
  unfold cashoutMines
  simp only [wp_bind, wp_get, wp_require, wp_raiseIf, wp_nullableBigint, implies_true, true_and]
  intros
  exact resolveBet_wagers ..

/-- A refund that returns closes an open bet, unless it was refunded before. -/
theorem refundBet_refunds {b : Option Int} {r : Option String} {post : Unit → Database → Prop}
    (hretry : ∀ id bet, b = some id → s.bets.get? id = some bet → bet.status = .refunded →
      post () s)
    (hpost : ∀ s' id bet closed, b = some id → s.bets.get? id = some bet → bet.status = .open →
      closed.status = .refunded → s'.bets = s.bets.set id closed →
      s'.wageredOf = Function.update s.wageredOf bet.discordId
        (s.wageredOf bet.discordId - bet.betAmount) → post () s') :
    wp (refundBet env b r) post (fun _ => True) s := by
  unfold refundBet
  simp only [wp_bind, wp_get, wp_require, wp_ite, wp_raiseIf, wp_pure, implies_true, true_and]
  intro bet hbet
  refine ⟨fun hrefunded => ?_, fun _ hopen => ?_⟩
  · obtain ⟨id, rfl, hget⟩ := Table.select_eq_some.mp hbet
    exact hretry id bet rfl hget hrefunded
  refine updateBalance_wagers (-bet.betAmount) (fun _ => sub_eq_add_neg _ _) fun s₁ hbets₁ hwagered₁ => ?_
  refine wp_of_keeps (ifDo_updateBalance_keeps fun _ => rfl) fun _ s₂ h₂ => ?_
  refine wp_of_keeps (addToPool_keeps.ifDo _) fun _ s₃ h₃ => ?_
  refine wp_of_keeps (ifDo_updateBalance_keeps fun _ => rfl) fun _ s₄ h₄ => ?_
  intro id hid
  subst hid
  refine closeBet_closes fun closed hclosed _ _ => ?_
  refine auditLogInsert_shows fun _ s₅ hshown h₅ => ?_
  have hsame : s₄.wagers = s₁.wagers := congrArg Prod.fst (h₄.trans (h₃.trans h₂))
  have hbets : s₄.bets = s.bets := (congrArg Prod.snd hsame).trans hbets₁
  have haccount : s.HasAccount bet.discordId := by
    intro hnone
    exact hshown (by simp [hnone])
  refine hpost s₅ id bet closed rfl hbet (not_ne_iff.mp hopen) hclosed
    ((congrArg Prod.snd h₅).trans ?_) ((congrArg Prod.fst h₅).trans ?_)
  · rw [← hbets]
    rfl
  · rw [sub_eq_add_neg]
    exact (congrArg Prod.fst hsame).trans (hwagered₁ haccount)

theorem refundBet_wagers (b : Option Int) (r : Option String) :
    wp (refundBet env b r) (fun _ s' => s.Wagers s') (fun _ => True) s :=
  refundBet_refunds (fun _ _ _ _ _ => .kept rfl)
    fun _ _ _ _ _ hbet hopen hclosed hbets hwagered =>
      .refunded hbet hopen (by simp [hclosed]) hbets hwagered

/-! ## Every call -/

theorem wagers_of_keeps {α : Type} {x : LedgerTx α} (hx : x.Keeps Database.wagers) :
    wp x (fun _ s' => s.Wagers s') (fun _ => True) s :=
  wp_of_keeps hx fun _ _ hsame => .kept hsame

theorem callBody_wagers (call : Call) :
    wp (callBody env call) (fun _ s' => s.Wagers s') (fun _ => True) s := by
  cases call <;> simp only [callBody, wp_bind, wp_pure]
  case applyBet => exact applyBet_wagers ..
  case resolveBet => exact resolveBet_wagers ..
  case cashoutMines => exact cashoutMines_wagers ..
  case refundBet => exact refundBet_wagers ..
  case createDepositTicket => exact wagers_of_keeps (createDepositTicket_keeps.map Prod.fst)
  case confirmDeposit => exact wagers_of_keeps (confirmDeposit_keeps.map Prod.fst)
  case cancelDeposit => exact wagers_of_keeps (cancelDeposit_keeps.map Prod.fst)
  case createWithdrawTicket => exact wagers_of_keeps (createWithdrawTicket_keeps.map Prod.fst)
  case confirmWithdraw => exact wagers_of_keeps (confirmWithdraw_keeps.map Prod.fst)
  case cancelWithdraw => exact wagers_of_keeps (cancelWithdraw_keeps.map Prod.fst)
  case claimTicket => exact wagers_of_keeps (claimTicket_keeps.map Prod.fst)
  case releaseTicket => exact wagers_of_keeps (releaseTicket_keeps.map Prod.fst)
  case openDispute => exact wagers_of_keeps (openDispute_keeps.map Prod.fst)
  case resolveDispute => exact wagers_of_keeps (resolveDispute_keeps.map Prod.fst)
  case rejectDispute => exact wagers_of_keeps (rejectDispute_keeps.map Prod.fst)
  case treasurySweep => exact wagers_of_keeps (treasurySweep_keeps.map Prod.fst)
  case treasuryWithdrawToUser => exact wagers_of_keeps (treasuryWithdrawToUser_keeps.map Prod.fst)
  case addCashierCharacter => exact wagers_of_keeps (addCashierCharacter_keeps.map Prod.fst)
  case removeCashierCharacter => exact wagers_of_keeps (removeCashierCharacter_keeps.map Prod.fst)
  case setCashierStatus => exact wagers_of_keeps (setCashierStatus_keeps.map Prod.fst)
  case expireCashier => exact wagers_of_keeps (expireCashier_keeps.map Prod.fst)
  case banUser => exact wagers_of_keeps (banUser_keeps.map Prod.fst)
  case unbanUser => exact wagers_of_keeps (unbanUser_keeps.map Prod.fst)
  case consumeRateToken => exact wagers_of_keeps (consumeRateToken_keeps.map Prod.fst)
  case grantRaffleTickets => exact wagers_of_keeps (grantRaffleTickets_keeps.map Prod.fst)

theorem wagers_step (s : Database) (command : Command) : s.Wagers (step s command) := by
  cases command with
  | call env call =>
      by_cases hok : call.Succeeds env s
      · have hrun : call.exec env s = (.ok (), step s (.call env call)) := Prod.ext hok rfl
        exact post_of_outcome (callBody_wagers call) (transact_ok Database.rollback hrun)
      · obtain ⟨atError, hfailed⟩ := step_of_fails hok
        rw [hfailed]
        exact .kept rfl
  | config write => cases write <;> exact .kept rfl

/-! ## Runs -/

/-- What an open bet has added to a user's wagered total. -/
def Bet.wageredBy (bet : Bet) (user : Int) : Int :=
  if bet.discordId = user ∧ bet.status = .open then bet.betAmount else 0

theorem Bet.wageredBy_of_open {bet : Bet} (hstatus : bet.status = .open) (user : Int) :
    bet.wageredBy user = if bet.discordId = user then bet.betAmount else 0 := by
  simp [wageredBy, hstatus]

theorem Bet.wageredBy_of_closed {bet : Bet} (hstatus : bet.status ≠ .open) (user : Int) :
    bet.wageredBy user = 0 := by
  simp [wageredBy, hstatus]

theorem Bet.wageredBy_nonneg (bet : Bet) (user : Int) : 0 ≤ bet.wageredBy user := by
  unfold wageredBy
  split
  · exact bet.betAmount_pos.le
  · exact le_rfl

/-- The wagered totals cover the open bets. -/
def Database.WageredCovers (s : Database) : Prop :=
  ∀ user, (s.bets.sum fun _ bet => bet.wageredBy user) ≤ s.wageredOf user

theorem Database.Wagers.covers (hstep : s.Wagers s') (hcovers : s.WageredCovers) :
    s'.WageredCovers := by
  intro user
  have hold := hcovers user
  have hset : ∀ {id : Int} {bet closed : Bet}, s.bets.get? id = some bet → bet.status = .open →
      closed.status ≠ .open → ((s.bets.set id closed).sum fun _ bet => bet.wageredBy user) =
        (s.bets.sum fun _ bet => bet.wageredBy user) - bet.wageredBy user := by
    intro id bet closed hbet hopen hclosed
    have hsum := Table.sum_set hbet closed fun _ (bet : Bet) => bet.wageredBy user
    simp only [Bet.wageredBy_of_closed hclosed] at hsum
    omega
  cases hstep with
  | kept hsame =>
      have hbets : s'.bets = s.bets := congrArg Prod.snd hsame
      have hwagered : s'.wageredOf = s.wageredOf := congrArg Prod.fst hsame
      rw [hbets, hwagered]
      exact hold
  | @placed id bet hnew hopen hbets hwagered =>
      rw [hbets, hwagered, Table.sum_insertNew_of_none hnew, Bet.wageredBy_of_open hopen]
      by_cases huser : bet.discordId = user
      · subst huser
        simpa using hold
      · simpa [huser, Function.update_of_ne (Ne.symm huser)] using hold
  | @resolved id bet closed hbet hopen hclosed hbets hwagered =>
      have hnonneg := bet.wageredBy_nonneg user
      rw [hbets, hwagered, hset hbet hopen hclosed]
      omega
  | @refunded id bet closed hbet hopen hclosed hbets hwagered =>
      rw [hbets, hwagered, hset hbet hopen hclosed, Bet.wageredBy_of_open hopen]
      by_cases huser : bet.discordId = user
      · subst huser
        simpa using hold
      · simpa [huser, Function.update_of_ne (Ne.symm huser)] using hold

/-- A closed bet keeps its row, an open one keeps it until it is closed. -/
theorem Database.Wagers.bet (hstep : s.Wagers s') {id : Int} {bet : Bet}
    (hbet : s.bets.get? id = some bet) :
    s'.bets.get? id = some bet ∨
      bet.status = .open ∧ ∃ closed, s'.bets.get? id = some closed ∧ closed.status ≠ .open := by
  have hset : ∀ {key : Int} {old closed : Bet}, s.bets.get? key = some old → old.status = .open →
      closed.status ≠ .open → s'.bets = s.bets.set key closed →
      s'.bets.get? id = some bet ∨
        bet.status = .open ∧ ∃ closed, s'.bets.get? id = some closed ∧ closed.status ≠ .open := by
    intro key old closed hold hopen hclosed hbets
    by_cases hkey : id = key
    · subst hkey
      obtain rfl := Option.some.inj (hbet.symm.trans hold)
      exact .inr ⟨hopen, closed, by rw [hbets, Table.get?_set_self hold], hclosed⟩
    · exact .inl (by rw [hbets, Table.get?_set_of_ne _ hkey, hbet])
  cases hstep with
  | kept hsame => exact .inl ((congrArg (fun view => view.2.get? id) hsame).trans hbet)
  | placed hnew hopen hbets hwagered =>
      exact .inl (by rw [hbets]; exact Table.get?_insertNew_of_some hbet _ _)
  | resolved hold hopen hclosed hbets hwagered => exact hset hold hopen hclosed hbets
  | refunded hold hopen hclosed hbets hwagered => exact hset hold hopen hclosed hbets

theorem wageredCovers_run {s₀ : Database} (hs : s₀.EmptyLedger) (commands : List Command) :
    (run step s₀ commands).WageredCovers := by
  have hstart : s₀.WageredCovers := by
    intro user
    simpa [hs.bets, Table.sum, Table.empty] using wageredOf_nonneg s₀ user
  exact run_keeps Database.WageredCovers
    (fun s command _ hcovers => (wagers_step s command).covers hcovers) hs.wellFormed hstart commands

/-- The row of a closed bet is final. -/
theorem closed_bet_run {id : Int} {bet : Bet} (hbet : s.bets.get? id = some bet)
    (hclosed : bet.status ≠ .open) (commands : List Command) :
    (run step s commands).bets.get? id = some bet := by
  induction commands generalizing s with
  | nil => exact hbet
  | cons command rest ih =>
      rcases (wagers_step s command).bet hbet with hsame | ⟨hopen, -⟩
      · exact ih hsame
      · exact absurd hopen hclosed

/-- A bet that is open after a run has the row it had before. -/
theorem open_bet_run {id : Int} {bet later : Bet} (hbet : s.bets.get? id = some bet)
    {commands : List Command} (hlater : (run step s commands).bets.get? id = some later)
    (hopen : later.status = .open) : later = bet := by
  induction commands generalizing s with
  | nil => exact Option.some.inj (hlater.symm.trans hbet)
  | cons command rest ih =>
      rcases (wagers_step s command).bet hbet with hsame | ⟨-, closed, hclosed, hstatus⟩
      · exact ih hsame hlater
      · have hfinal := closed_bet_run hclosed hstatus rest
        obtain rfl := Option.some.inj (hlater.symm.trans hfinal)
        exact absurd hopen hstatus

end DeathRoll
