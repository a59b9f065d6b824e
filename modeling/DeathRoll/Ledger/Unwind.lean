import DeathRoll.Ledger.Wagered

/-! # A refund undoes a bet

`luck.apply_bet` computes the split of a bet from the configuration it meets;
`luck.refund_bet` reads the split back from the row. Whatever happens in between, a
refund that returns moves every account by the opposite of what the bet moved, and the
pools and the wagered totals never stand in its way.
-/

namespace DeathRoll

open Relational Tx Account
open Finsupp (single)

variable {env : Env} {s s' s₀ : Database}

/-! ## Raffle pools -/

/-- The gold in the pool of a raffle period, 0 without one. -/
def Database.poolOf (s : Database) (period : Int) : Int :=
  ((s.rafflePeriods.get? period).map RafflePeriod.poolAmount).getD 0

theorem poolOf_of_get? {p : Int} {row : RafflePeriod} (hrow : s.rafflePeriods.get? p = some row) :
    s.poolOf p = row.poolAmount := by
  simp [Database.poolOf, hrow]

theorem poolOf_nonneg (s : Database) (p : Int) : 0 ≤ s.poolOf p := by
  cases hrow : s.rafflePeriods.get? p with
  | none => simp [Database.poolOf, hrow]
  | some row =>
      rw [poolOf_of_get? hrow]
      exact row.poolAmount_nonneg

/-- The gold of a pool on the books. -/
theorem ledger_books_pool (s : Database) (p : Int) : s.ledger.books (pool p) = s.poolOf p := by
  have hwallets : walletBooks s.balances (pool p) = 0 := by
    rw [walletBooks, Table.sum_apply]
    simp [Table.sum]
  have hpools : poolBooks s.rafflePeriods (pool p) = s.poolOf p := by
    rw [poolBooks, Table.sum_apply, Table.sum_eq_term _ _ p]
    · cases hrow : s.rafflePeriods.get? p with
      | none => simp [Table.term, hrow, Database.poolOf]
      | some row => simp [Table.term, hrow, poolOf_of_get? hrow]
    · intro q row _ hq
      simp [hq]
  rw [Database.ledger, Finsupp.add_apply, hwallets, hpools, zero_add]

/-- What an open bet has put into the pool of a period. -/
def Bet.pooledIn (bet : Bet) (period : Int) : Int :=
  if bet.rakePeriodId = some period ∧ bet.status = .open then max bet.rake 0 else 0

theorem Bet.pooledIn_of_open {bet : Bet} (hstatus : bet.status = .open) (period : Int) :
    bet.pooledIn period = if bet.rakePeriodId = some period then max bet.rake 0 else 0 := by
  simp [pooledIn, hstatus]

theorem Bet.pooledIn_of_closed {bet : Bet} (hstatus : bet.status ≠ .open) (period : Int) :
    bet.pooledIn period = 0 := by
  simp [pooledIn, hstatus]

theorem Bet.pooledIn_nonneg (bet : Bet) (period : Int) : 0 ≤ bet.pooledIn period := by
  unfold pooledIn
  split
  · exact le_max_right _ _
  · exact le_rfl

theorem rakeAccount_pool (period : Option Int) (amount p : Int) :
    single (rakeAccount period) amount (pool p) = if period = some p then amount else 0 := by
  cases period <;> simp [rakeAccount, Finsupp.single_apply]

namespace Ledger

variable {now : Timestamp} {l l' : Ledger} {call : Call}

/-- The rake of the open bets that went to the pool of a period. -/
def pooled (l : Ledger) (period : Int) : Int := l.bets.sum fun _ bet => bet.pooledIn period

theorem pooled_set {bets : Table Int Bet} {id : Int} {old : Bet} (hold : bets.get? id = some old)
    (new : Bet) (p : Int) :
    ((bets.set id new).sum fun _ bet => bet.pooledIn p) =
      (bets.sum fun _ bet => bet.pooledIn p) + (new.pooledIn p - old.pooledIn p) :=
  Table.sum_set_add hold (add_sub_cancel _ _).symm

/-- A call never takes from a pool more than the rake of the bet it closes. -/
theorem Step.pooled (hstep : Step now l call l') (p : Int) :
    l.books (pool p) - l.pooled p ≤ l'.books (pool p) - l'.pooled p := by
  cases hstep with
  | @betPlaced _ _ _ _ _ _ _ id bet hnew hopen hfirst hcommission hrake hstake hperiod hl' =>
      subst hl'
      simp only [Ledger.pooled, Table.sum_insertNew_of_none hnew, Bet.pooledIn_of_open hopen,
        hperiod, Finsupp.add_apply, rakeAccount_pool]
      simp
  | @betResolved _ _ id credit bet closed _ _ hcall hget hopen hcredit hclosed howner hperiod
      hl' =>
      subst hl'
      have hnonneg := bet.pooledIn_nonneg p
      simp only [Ledger.pooled, pooled_set hget, Bet.pooledIn_of_closed hclosed,
        Finsupp.add_apply]
      simp
      omega
  | betRefunded hget hopen hclosed howner hperiod hl' =>
      subst hl'
      simp only [Ledger.pooled, pooled_set hget, Bet.pooledIn_of_open hopen,
        Bet.pooledIn_of_closed hclosed, Finsupp.add_apply, rakeAccount_pool]
      simp
      split <;> omega
  | _ =>
      subst_vars
      simp [Ledger.pooled]

end Ledger

/-- Every pool holds the rake of the open bets that went to it. -/
def Database.PoolsCover (s : Database) : Prop :=
  ∀ period, s.ledger.pooled period ≤ s.poolOf period

theorem poolsCover_step (hs : s.WellFormed) (hcover : s.PoolsCover) (command : Command) :
    (step s command).PoolsCover := by
  intro p
  have hold := hcover p
  rw [← ledger_books_pool] at hold ⊢
  rcases ledger_command hs command with ⟨env, call, -, -, hstep⟩ | ⟨-, hsame⟩
  · have hpool := hstep.pooled p
    omega
  · rwa [Ledger.pooled, hsame.bets, hsame.books]

theorem poolsCover_run (hs : s₀.EmptyLedger) (commands : List Command) :
    (run step s₀ commands).PoolsCover := by
  have hstart : s₀.PoolsCover := by
    intro p
    have hbets : s₀.ledger.bets = .empty := hs.bets
    simpa [Ledger.pooled, hbets, Table.sum, Table.empty] using poolOf_nonneg s₀ p
  exact run_keeps Database.PoolsCover (fun _ command hs hcover => poolsCover_step hs hcover command)
    hs.wellFormed hstart commands

/-! ## When a refund returns -/

/-- What the treasury pays back when a bet is refunded. -/
def Bet.treasuryShare (bet : Bet) : Int :=
  bet.commission + if bet.rakePeriodId = none then bet.rake else 0

/-- An open bet can be refunded: the refund can be audited, the amount fits its owner's
balance, the owner's locked balance stays valid without the stake, and the treasury
still has its share. -/
structure Database.CanRefund (s : Database) (env : Env) (bet : Bet) : Prop where
  key : ∃ key, env.chainKey = .ok key
  room : InBigint (s.balanceOf bet.discordId + bet.betAmount)
  unlocked : 0 ≤ s.lockedOf bet.discordId - bet.effectiveStake
  lockRoom : InBigint (s.lockedOf bet.discordId - bet.effectiveStake)
  treasury : bet.treasuryShare ≤ s.balanceOf 0

/-- A balance that pays no more than it has is stored. -/
theorem balance_pays (row : Balance) {amount : Int} (hnonneg : 0 ≤ amount)
    (hcovers : amount ≤ row.balance) (e : DbError) :
    Balance.check { row.toBalanceRow with balance := row.balance - amount } ≠ .error e := by
  obtain ⟨hbalance, hrest⟩ := row.inRange
  have hbefore := row.balance_nonneg
  have hafter : InBigint (row.balance - amount) := by
    unfold InBigint at hbalance ⊢
    omega
  apply Balance.check_ne_error
  · exact ⟨hafter, hrest⟩
  · exact sub_nonneg.mpr hcovers
  · exact row.lockedBalance_nonneg
  · exact row.totalWagered_nonneg
  · exact row.totalWon_nonneg

theorem ifDo_pay_returns {post : Unit → Database → Prop} {c : Prop} [Decidable c] {amount : Int}
    (hcovers : c → 0 ≤ amount ∧ amount ≤ s.balanceOf 0)
    (hpost : ∀ s', s'.users = s.users → s'.rafflePeriods = s.rafflePeriods →
      s'.balanceOf 0 = s.balanceOf 0 - (if c then amount else 0) → post () s') :
    wp (ifDo c (updateBalance 0 fun row => { row with balance := row.balance - amount })) post
      (fun _ => False) s := by
  refine (wp_ifDo c _).mpr ⟨fun hc => ?_, fun hc => hpost s rfl rfl (by simp [hc])⟩
  refine (wp_updateBalance 0 _).mpr ⟨fun hnone => ?_, fun row hrow => ⟨?_, fun new hnew => ?_⟩⟩
  · have hzero : s.balanceOf 0 = 0 := by simp [Database.balanceOf, Database.balance?, hnone]
    obtain ⟨hnonneg, hle⟩ := hcovers hc
    refine hpost s rfl rfl ?_
    rw [if_pos hc]
    omega
  · rw [balanceOf_of_get? hrow] at hcovers
    exact fun e => balance_pays row (hcovers hc).1 (hcovers hc).2 e
  · refine hpost _ rfl rfl ?_
    have hbalance : new.balance = row.balance - amount := congrArg BalanceRow.balance hnew
    rw [balanceOf_of_get? (Table.get?_set_self hrow new), balanceOf_of_get? hrow, hbalance,
      if_pos hc]

/-- A pool that holds the rake pays it back. -/
theorem ifDo_unpool_returns {post : Unit → Database → Prop} {c : Prop} [Decidable c]
    {p amount : Int} (hcovers : c → 0 ≤ amount ∧ amount ≤ s.poolOf p)
    (hpost : ∀ s', s'.users = s.users → s'.balances = s.balances → post () s') :
    wp (ifDo c (addToPool p (-amount))) post (fun _ => False) s := by
  refine (wp_ifDo c _).mpr ⟨fun hc => ?_, fun _ => hpost s rfl rfl⟩
  refine (wp_addToPool p _).mpr ⟨fun _ => hpost s rfl rfl, fun row hrow => ?_⟩
  obtain ⟨hnonneg, hle⟩ := hcovers hc
  rw [poolOf_of_get? hrow] at hle
  have hrange : InBigint (row.poolAmount + -amount) := by
    have hbefore := row.inRange
    unfold InBigint at hbefore ⊢
    omega
  exact ⟨fun hout => hout hrange, fun _ hneg => hneg (by omega), fun _ _ _ => hpost _ rfl rfl⟩

/-- An open bet whose wager and rake are still on the books is refunded as soon as
it can be. -/
theorem refundBet_returns (hs : s.WellFormed) (hcovers : s.WageredCovers) (hpools : s.PoolsCover)
    {id : Int} {bet : Bet} (hbet : s.bets.get? id = some bet) (hopen : bet.status = .open)
    (hplayer : bet.discordId ≠ 0) (hcommission : 0 ≤ bet.commission) (hrake : 0 ≤ bet.rake)
    (hcan : s.CanRefund env bet) (reason : Option String) :
    (Call.refundBet (some id) reason).Succeeds env s := by
  obtain ⟨⟨key, hkey⟩, hroom, hunlocked, hlockRoom, htreasury⟩ := hcan
  -- the counters that the refund takes from sum up the open bets, and this one is among them
  have hwagered : bet.betAmount ≤ s.wageredOf bet.discordId := by
    have hpart := Table.le_sum_of_get? (fun _ (other : Bet) _ => other.wageredBy_nonneg bet.discordId)
      hbet
    rw [Bet.wageredBy_of_open hopen, if_pos rfl] at hpart
    exact hpart.trans (hcovers bet.discordId)
  have hpooled : ∀ p, bet.rakePeriodId = some p → bet.rake ≤ s.poolOf p := by
    intro p hp
    have hpart := Table.le_sum_of_get? (fun _ (other : Bet) _ => other.pooledIn_nonneg p) hbet
    rw [Bet.pooledIn_of_open hopen, if_pos hp, max_eq_left hrake] at hpart
    exact hpart.trans (hpools p)
  have hpositive := bet.betAmount_pos
  -- without a balance nothing would be wagered
  obtain ⟨row, hrow⟩ : ∃ row, s.balances.get? bet.discordId = some row := by
    by_contra hnone
    simp only [not_exists, ← Option.eq_none_iff_forall_ne_some] at hnone
    simp only [Database.wageredOf, hnone, Option.map_none, Option.getD_none] at hwagered
    omega
  have huser : s.HasUser bet.discordId := hs.registered _ (by simp [Database.HasAccount, hrow])
  rw [balanceOf_of_get? hrow] at hroom
  rw [lockedOf_of_get? hrow] at hunlocked hlockRoom
  rw [wageredOf_of_get? hrow] at hwagered
  apply succeeds_of_wp
  simp only [callBody]
  unfold refundBet
  simp only [wp_bind, wp_get, wp_require, wp_ite, wp_raiseIf, wp_updateBalance, Table.select_some,
    hbet, hopen, hrow, Option.some.injEq, forall_eq', reduceCtorEq, false_implies, true_and,
    not_true_eq_false, not_false_eq_true, ne_eq, true_implies]
  constructor
  · intro e
    obtain ⟨hbalance, hlocked, htotal, hwon⟩ := row.inRange
    have hbefore := row.balance_nonneg
    have hwagerRoom : InBigint (row.totalWagered - bet.betAmount) := by
      unfold InBigint at htotal ⊢
      omega
    apply Balance.check_ne_error
    · exact ⟨hroom, hlockRoom, hwagerRoom, hwon⟩
    · exact add_nonneg hbefore hpositive.le
    · exact hunlocked
    · exact sub_nonneg.mpr hwagered
    · exact row.totalWon_nonneg
  intro new hnew
  have hkept : (s.setBalance bet.discordId new).balanceOf 0 = s.balanceOf 0 := by
    simp [Database.balanceOf, Database.balance?, Table.get?_set_of_ne _ hplayer.symm]
  -- the two legs of the treasury and, between them, the pool: each finds what the one before left
  refine ifDo_pay_returns (fun _ => ⟨hcommission, ?_⟩) fun s₁ husers₁ hperiods₁ hbalance₁ => ?_
  · rw [hkept]
    exact le_trans (le_add_of_nonneg_right (by split <;> omega)) htreasury
  refine ifDo_unpool_returns (fun hpool => ⟨hrake, ?_⟩) fun s₂ husers₂ hbalances₂ => ?_
  · obtain ⟨p, hp⟩ := Option.ne_none_iff_exists'.mp hpool.2
    rw [hp, Option.getD_some]
    refine (hpooled p hp).trans_eq ?_
    simp only [Database.poolOf, hperiods₁, Database.setBalance_rafflePeriods]
  refine ifDo_pay_returns (fun hpay => ⟨hrake, ?_⟩) fun s₃ husers₃ _ _ => ?_
  · have hsame : s₂.balanceOf 0 = s₁.balanceOf 0 := by
      simp only [Database.balanceOf, Database.balance?, hbalances₂]
    rw [Bet.treasuryShare, if_pos hpay.2] at htreasury
    rw [hsame, hbalance₁, hkept]
    split <;> omega
  have hregistered : s₃.users.get? bet.discordId ≠ none := by
    rw [husers₃, husers₂, husers₁]
    exact huser
  unfold closeBet
  simp only [wp_dite, wp_modify, wp_auditLogInsertWithChain, wp_pure, hkey, hregistered,
    Option.map_some, Option.some.injEq, Except.ok.injEq, Database.setBet_users, forall_eq',
    reduceCtorEq, false_implies, implies_true, and_true, true_and]
  exact fun hneg => absurd le_rfl hneg

/-- A refund of an open bet writes an audit row. -/
theorem refundBet_needs_key {id : Int} {bet : Bet} (hbet : s.bets.get? id = some bet)
    (hopen : bet.status = .open) {reason : Option String}
    (hok : (Call.refundBet (some id) reason).Succeeds env s) :
    ∃ key, env.chainKey = .ok key := by
  have hwp : wp (callBody env (.refundBet (some id) reason))
      (fun _ _ => ∃ key, env.chainKey = .ok key) (fun _ => True) s := by
    simp only [callBody]
    unfold refundBet
    simp only [wp_bind, wp_get, wp_require, wp_ite, wp_raiseIf, wp_auditLogInsertWithChain, wp_pure,
      Table.select_some, hbet, hopen, Option.some.injEq, forall_eq', reduceCtorEq, false_implies,
      implies_true, true_and]
    intro _ _
    refine wp_of_forall _ fun _ _ => ?_
    refine wp_of_forall _ fun _ _ => ?_
    refine wp_of_forall _ fun _ _ => ?_
    refine wp_of_forall _ fun _ _ => ?_
    refine wp_of_forall _ fun _ _ => ?_
    intro key hkey _ _ _ _ _
    exact ⟨key, hkey⟩
  exact post_of_outcome hwp (transact_ok Database.rollback (Prod.ext hok rfl))

/-! ## What a refund moves -/

/-- From `t` to `t'` every balance, locked balance, wagered total and pool moves by the
opposite of what it moves by from `s` to `s'`. -/
structure Database.Undoes (s s' t t' : Database) : Prop where
  balance : ∀ u, t'.balanceOf u - t.balanceOf u = -(s'.balanceOf u - s.balanceOf u)
  locked : ∀ u, t'.lockedOf u - t.lockedOf u = -(s'.lockedOf u - s.lockedOf u)
  wagered : ∀ u, t'.wageredOf u - t.wageredOf u = -(s'.wageredOf u - s.wageredOf u)
  pool : ∀ p, t'.poolOf p - t.poolOf p = -(s'.poolOf p - s.poolOf p)

/-- What placing a bet adds to the books. -/
noncomputable def Bet.posted (bet : Bet) : Account →₀ ℤ :=
  single (wallet bet.discordId) (-bet.betAmount) + single (locked bet.discordId) bet.effectiveStake +
    single (wallet 0) (max bet.commission 0) + single (rakeAccount bet.rakePeriodId) (max bet.rake 0)

/-- From `s` to `s'` a bet was placed. -/
structure Database.Places (s : Database) (bet : Bet) (s' : Database) : Prop where
  status : bet.status = .open
  commission : bet.commission =
    (bet.betAmount * commissionBpsOf s.gameConfig bet.gameName).tdiv 10000
  rake : bet.rake = (bet.betAmount * s.rakeBps).tdiv 10000
  books : s'.ledger.books = s.ledger.books + bet.posted
  wagered : s'.wageredOf = Function.update s.wageredOf bet.discordId
    (s.wageredOf bet.discordId + bet.betAmount)

/-- From `s` to `s'` an open bet was refunded. -/
structure Database.Unplaces (s : Database) (id : Int) (bet : Bet) (s' : Database) : Prop where
  books : s'.ledger.books = s.ledger.books - bet.posted
  wagered : s'.wageredOf = Function.update s.wageredOf bet.discordId
    (s.wageredOf bet.discordId - bet.betAmount)
  row : ∃ closed, s'.bets.get? id = some closed ∧ closed.status = .refunded

/-- Only a new row appears under a free key. -/
theorem get?_insertNew_new {t : Table Int Bet} {id key : Int} {bet row : Bet}
    (hnone : t.get? id = none) (hnew : t.get? key = none)
    (hrow : (t.insertNew key bet).get? id = some row) : id = key ∧ row = bet := by
  rw [Table.get?_insertNew] at hrow
  split at hrow
  next heq =>
    rw [hnew, Option.getD_none, Option.some.injEq] at hrow
    exact ⟨heq, hrow.symm⟩
  next =>
    rw [hnone] at hrow
    cases hrow

theorem get?_set_new {t : Table Int Bet} {id key : Int} {bet : Bet} (hnone : t.get? id = none) :
    (t.set key bet).get? id = none := by
  rw [Table.get?_set]
  split
  next heq => rw [← heq, hnone, Option.map_none]
  next => exact hnone

theorem Ledger.Step.placed {now : Timestamp} {l l' : Ledger} {call : Call}
    (hstep : Step now l call l') {id : Int} {bet : Bet} (hnone : l.bets.get? id = none)
    (hbet : l'.bets.get? id = some bet) :
    bet.commission = (bet.betAmount * l.commissionBps bet.gameName).tdiv 10000 ∧
      bet.rake = (bet.betAmount * l.rakeBps).tdiv 10000 ∧ l'.books = l.books + bet.posted := by
  cases hstep with
  | betPlaced hnew hopen hfirst hcommission hrake hstake hperiod hl' =>
      subst hl'
      obtain ⟨-, rfl⟩ := get?_insertNew_new hnone hnew hbet
      exact ⟨hcommission, hrake, by rw [Bet.posted, hperiod]⟩
  | betResolved hcall hold hopen hcredit hclosed howner hperiod hl' =>
      subst hl'
      simp [get?_set_new hnone] at hbet
  | betRefunded hold hopen hclosed howner hperiod hl' =>
      subst hl'
      simp [get?_set_new hnone] at hbet
  | _ =>
      subst_vars
      simp [hnone] at hbet

/-- A bet that a command creates is placed by it. -/
theorem places_of_new (hs : s.WellFormed) {command : Command} {id : Int} {bet : Bet}
    (hnone : s.bets.get? id = none) (hbet : (step s command).bets.get? id = some bet) :
    s.Places bet (step s command) := by
  have hwagered : bet.status = .open ∧ (step s command).wageredOf =
      Function.update s.wageredOf bet.discordId (s.wageredOf bet.discordId + bet.betAmount) := by
    cases wagers_step s command with
    | kept hsame =>
        rw [show (step s command).bets = s.bets from congrArg Prod.snd hsame, hnone] at hbet
        cases hbet
    | placed hnew hopen hbets hwagered =>
        rw [hbets] at hbet
        obtain ⟨-, rfl⟩ := get?_insertNew_new hnone hnew hbet
        exact ⟨hopen, hwagered⟩
    | resolved hold hopen hclosed hbets hwagered =>
        rw [hbets, get?_set_new hnone] at hbet
        cases hbet
    | refunded hold hopen hclosed hbets hwagered =>
        rw [hbets, get?_set_new hnone] at hbet
        cases hbet
  rcases ledger_command hs command with ⟨env, call, -, -, hstep⟩ | ⟨-, hsame⟩
  · obtain ⟨hcommission, hrake, hbooks⟩ := hstep.placed hnone hbet
    exact ⟨hwagered.1, hcommission, hrake, hbooks, hwagered.2⟩
  · have hbets : (step s command).bets = s.bets := hsame.bets
    rw [hbets, hnone] at hbet
    cases hbet

/-- A refund that returns takes back what an open bet posted. -/
theorem unplaces_of_refund (hs : s.WellFormed) {id : Int} {bet : Bet}
    (hbet : s.bets.get? id = some bet) (hopen : bet.status = .open) {reason : Option String}
    (hok : (Call.refundBet (some id) reason).Succeeds env s) :
    s.Unplaces id bet (step s (.call env (.refundBet (some id) reason))) := by
  have hrun : (Call.refundBet (some id) reason).exec env s =
      (.ok (), step s (.call env (.refundBet (some id) reason))) := Prod.ext hok rfl
  have hstep := (takes_of_succeeds hs hok).1
  generalize step s (.call env (.refundBet (some id) reason)) = s' at hrun hstep
  have hwp : wp (callBody env (.refundBet (some id) reason)) (fun _ s' =>
      (∃ closed, s'.bets.get? id = some closed ∧ closed.status = .refunded) ∧
        s'.wageredOf = Function.update s.wageredOf bet.discordId
          (s.wageredOf bet.discordId - bet.betAmount)) (fun _ => True) s := by
    refine refundBet_refunds ?_ ?_
    · rintro key other hkey hother hrefunded
      obtain rfl := Option.some.inj hkey
      obtain rfl := Option.some.inj (hbet.symm.trans hother)
      rw [hopen] at hrefunded
      cases hrefunded
    · rintro s' key other closed hkey hother - hclosed hbets hwagered
      obtain rfl := Option.some.inj hkey
      obtain rfl := Option.some.inj (hbet.symm.trans hother)
      exact ⟨⟨closed, by rw [hbets, Table.get?_set_self hbet], hclosed⟩, hwagered⟩
  obtain ⟨hrow, hwagered⟩ := post_of_outcome hwp (transact_ok Database.rollback hrun)
  refine ⟨?_, hwagered, hrow⟩
  cases hstep with
  | quiet hquiet =>
      obtain ⟨key, other, hkey, hother, hstatus⟩ := hquiet
      obtain rfl := Option.some.inj hkey
      have hother : s.bets.get? id = some other := hother
      obtain rfl := Option.some.inj (hbet.symm.trans hother)
      exact absurd hopen hstatus
  | betResolved hcall => rcases hcall with ⟨_, hcall⟩ | ⟨_, hcall, -⟩ <;> cases hcall
  | betRefunded hother hstatus hclosed howner hperiod hl' =>
      have hother : s.bets.get? id = some _ := hother
      obtain rfl := Option.some.inj (hbet.symm.trans hother)
      rw [hl', Bet.posted, sub_eq_add_neg]
      simp only [neg_add, ← Finsupp.single_neg, neg_neg]

section Posted

variable {bet : Bet}

theorem posted_player (hplayer : bet.discordId ≠ 0) :
    bet.posted (wallet bet.discordId) = -bet.betAmount := by
  have hrake : single (rakeAccount bet.rakePeriodId) (max bet.rake 0) (wallet bet.discordId) = 0 := by
    cases bet.rakePeriodId <;> simp [rakeAccount, hplayer.symm]
  simp only [Bet.posted, Finsupp.add_apply, hrake]
  simp [hplayer.symm]

theorem posted_locked (bet : Bet) : bet.posted (locked bet.discordId) = bet.effectiveStake := by
  simp only [Bet.posted, Finsupp.add_apply, Ledger.rakeAccount_locked]
  simp

theorem posted_treasury (hplayer : bet.discordId ≠ 0) (hcommission : 0 ≤ bet.commission)
    (hrake : 0 ≤ bet.rake) : bet.posted (wallet 0) = bet.treasuryShare := by
  simp only [Bet.posted, Bet.treasuryShare, Finsupp.add_apply, max_eq_left hcommission,
    max_eq_left hrake]
  cases bet.rakePeriodId <;> simp [rakeAccount, hplayer]

end Posted

theorem Database.Places.undoes {t t' : Database} {id : Int} {bet : Bet} (hplaces : s.Places bet s')
    (hunplaces : t.Unplaces id bet t') : s.Undoes s' t t' := by
  have hbooks : ∀ account, t'.ledger.books account - t.ledger.books account =
      -(s'.ledger.books account - s.ledger.books account) := by
    intro account
    rw [hunplaces.books, hplaces.books, Finsupp.sub_apply, Finsupp.add_apply]
    ring
  refine ⟨fun u => ?_, fun u => ?_, fun u => ?_, fun p => ?_⟩
  · simpa only [ledger_books_wallet] using hbooks (wallet u)
  · simpa only [ledger_books_locked] using hbooks (locked u)
  · rw [hunplaces.wagered, hplaces.wagered]
    by_cases hu : u = bet.discordId
    · subst hu
      simp only [Function.update_self]
      ring
    · simp only [Function.update_of_ne hu]
      ring
  · simpa only [ledger_books_pool] using hbooks (pool p)

/-- A refund that returns had everything it needs. -/
theorem Database.Unplaces.canRefund {id : Int} {bet : Bet} (hunplaces : s.Unplaces id bet s')
    (hkey : ∃ key, env.chainKey = .ok key) (hplayer : bet.discordId ≠ 0)
    (hcommission : 0 ≤ bet.commission) (hrake : 0 ≤ bet.rake) : s.CanRefund env bet := by
  have hbooks : ∀ account, s'.ledger.books account = s.ledger.books account - bet.posted account := by
    intro account
    rw [hunplaces.books, Finsupp.sub_apply]
  have hbalance : s'.balanceOf bet.discordId = s.balanceOf bet.discordId + bet.betAmount := by
    have hwallet := hbooks (wallet bet.discordId)
    rwa [posted_player hplayer, ledger_books_wallet, ledger_books_wallet, sub_neg_eq_add] at hwallet
  have hlocked : s'.lockedOf bet.discordId = s.lockedOf bet.discordId - bet.effectiveStake := by
    have hlock := hbooks (locked bet.discordId)
    rwa [posted_locked, ledger_books_locked, ledger_books_locked] at hlock
  have htreasury : s'.balanceOf 0 = s.balanceOf 0 - bet.treasuryShare := by
    have hwallet := hbooks (wallet 0)
    rwa [posted_treasury hplayer hcommission hrake, ledger_books_wallet, ledger_books_wallet]
      at hwallet
  refine ⟨hkey, ?_, ?_, ?_, ?_⟩
  · rw [← hbalance]
    exact balanceOf_inBigint _ _
  · rw [← hlocked]
    exact lockedOf_nonneg _ _
  · rw [← hlocked]
    exact lockedOf_inBigint _ _
  · have hnonneg := balanceOf_nonneg s' 0
    omega

/-! ## Runs -/

/-- A refund that returns leaves the bet refunded. -/
theorem refunded_of_refund {id : Int} {reason : Option String}
    (hok : (Call.refundBet (some id) reason).Succeeds env s) :
    ∃ closed, (step s (.call env (.refundBet (some id) reason))).bets.get? id = some closed ∧
      closed.status = .refunded := by
  have hrun : (Call.refundBet (some id) reason).exec env s =
      (.ok (), step s (.call env (.refundBet (some id) reason))) := Prod.ext hok rfl
  have hwp : wp (callBody env (.refundBet (some id) reason)) (fun _ s' =>
      ∃ closed, s'.bets.get? id = some closed ∧ closed.status = .refunded) (fun _ => True) s := by
    refine refundBet_refunds ?_ ?_
    · rintro key bet hkey hbet hrefunded
      obtain rfl := Option.some.inj hkey
      exact ⟨bet, hbet, hrefunded⟩
    · rintro s' key bet closed hkey hbet - hclosed hbets -
      obtain rfl := Option.some.inj hkey
      exact ⟨closed, by rw [hbets, Table.get?_set_self hbet], hclosed⟩
  exact post_of_outcome hwp (transact_ok Database.rollback hrun)

/-- Refunding a refunded bet returns and changes nothing. -/
theorem refundBet_again {id : Int} {bet : Bet} (hbet : s.bets.get? id = some bet)
    (hrefunded : bet.status = .refunded) (env : Env) (reason : Option String) :
    (Call.refundBet (some id) reason).Succeeds env s ∧
      step s (.call env (.refundBet (some id) reason)) = s := by
  have hwp : wp (callBody env (.refundBet (some id) reason)) (fun _ s' => s' = s)
      (fun _ => False) s := by
    simp only [callBody]
    unfold refundBet
    simp [wp_bind, wp_get, wp_require, wp_ite, wp_pure, hbet, hrefunded]
  obtain ⟨result, s', houtcome, hsame⟩ := exists_outcome_of_wp hwp
  have hexec : (Call.refundBet (some id) reason).exec env s = (.ok result, s') := by
    rw [Call.exec, transact, houtcome]
  constructor
  · rw [Call.Succeeds, hexec]
  · rw [step, hexec, hsame]

/-- Refunding in `t` a bet that was placed from `s` to `s'`. -/
structure RefundUndoes (s s' t : Database) (id : Int) (bet : Bet) (env : Env)
    (reason : Option String) : Prop where
  undoes : ∀ row, t.bets.get? id = some row → row.status = .open →
    (Call.refundBet (some id) reason).Succeeds env t →
    s.Undoes s' t (step t (.call env (.refundBet (some id) reason)))
  succeeds_iff : ∀ row, t.bets.get? id = some row → row.status = .open →
    ((Call.refundBet (some id) reason).Succeeds env t ↔ t.CanRefund env bet)
  fails : ¬ (Call.refundBet (some id) reason).Succeeds env t →
    ∃ atError, step t (.call env (.refundBet (some id) reason)) = t.rollback atError
  again : (Call.refundBet (some id) reason).Succeeds env t →
    ∀ later env' reason',
      step (run step (step t (.call env (.refundBet (some id) reason))) later)
          (.call env' (.refundBet (some id) reason')) =
        run step (step t (.call env (.refundBet (some id) reason))) later

/-- A share of a positive amount at a rate that is not negative is not negative. -/
theorem tdiv_share_nonneg {amount bps : Int} (hamount : 0 < amount) (hbps : 0 ≤ bps) :
    0 ≤ (amount * bps).tdiv 10000 :=
  Int.tdiv_nonneg (mul_nonneg hamount.le hbps) (by decide)

/-- A refund of an open bet takes back exactly what placing it did, whatever has happened in
between and whatever the rates are by then. -/
theorem refund_undoes (h₀ : s₀.EmptyLedger) (earlier between : List Command) {placeEnv : Env}
    {d c b n : Option Int} {g k i u : Option String} {e : Option Json} {h : Option Bytes}
    {t : Database} {id : Int} {bet : Bet}
    (hs : run step s₀ earlier = s)
    (hplace : step s (.call placeEnv (.applyBet d g c b e h k n i u)) = s')
    (hnone : s.bets.get? id = none) (hbet : s'.bets.get? id = some bet)
    (hplayer : bet.discordId ≠ 0) (hcommission : 0 ≤ commissionBpsOf s.gameConfig bet.gameName)
    (hrake : 0 ≤ s.rakeBps) (ht : run step s' between = t) (env : Env) (reason : Option String) :
    RefundUndoes s s' t id bet env reason := by
  have hreached : run step s₀ (earlier ++
      .call placeEnv (.applyBet d g c b e h k n i u) :: between) = t := by
    rw [run_append, hs, run_cons, hplace, ht]
  have hwell : s.WellFormed := hs ▸ wellFormed_run h₀.wellFormed earlier
  have hwell' : t.WellFormed := hreached ▸ wellFormed_run h₀.wellFormed _
  have hcovers : t.WageredCovers := hreached ▸ wageredCovers_run h₀ _
  have hpools : t.PoolsCover := hreached ▸ poolsCover_run h₀ _
  subst hplace
  have hplaces := places_of_new hwell hnone hbet
  have hshare : 0 ≤ bet.commission := by
    rw [hplaces.commission]
    exact tdiv_share_nonneg bet.betAmount_pos hcommission
  have hraked : 0 ≤ bet.rake := by
    rw [hplaces.rake]
    exact tdiv_share_nonneg bet.betAmount_pos hrake
  have hrow : ∀ row, t.bets.get? id = some row → row.status = .open → row = bet := by
    intro row hget hopen
    rw [← ht] at hget
    exact open_bet_run hbet hget hopen
  constructor
  · intro row hget hopen hok
    obtain rfl := hrow row hget hopen
    exact hplaces.undoes (unplaces_of_refund hwell' hget hopen hok)
  · intro row hget hopen
    obtain rfl := hrow row hget hopen
    constructor
    · intro hok
      exact (unplaces_of_refund hwell' hget hopen hok).canRefund
        (refundBet_needs_key hget hopen hok) hplayer hshare hraked
    · intro hcan
      exact refundBet_returns hwell' hcovers hpools hget hopen hplayer hshare hraked hcan reason
  · exact step_of_fails
  · intro hok later env' reason'
    obtain ⟨closed, hclosed, hrefunded⟩ := refunded_of_refund hok
    have hfinal := closed_bet_run hclosed (by simp [hrefunded]) later
    exact (refundBet_again hfinal hrefunded env' reason').2

/-- User 9 bets on a game. -/
def placeBet (game key : String) (amount : Int) : Command :=
  .call .plain (.applyBet (some 9) (some game) (some 1) (some amount) (some .null) (some [])
    (some "seed") (some 0) (some key) (some key))

/-- After a bet the rates change, a raffle period starts and another bet is placed. -/
def changedRates : List Command :=
  [.config (.gameConfig "blackjack" (seedGame none)),
   .config (.luckConfig "raffle_rake_bps" (some 500)),
   .config (.newPeriod 1 .active),
   placeBet "blackjack" "key-2" 300]

theorem refund_undoes_changedRates :
    ∃ bet, bet.discordId = 9 ∧ bet.commission = 22 ∧ bet.rake = 5 ∧
      RefundUndoes (run step .seeded depositRun)
        (run step .seeded (depositRun ++ [placeBet "blackjack" "key-1" 500]))
        (run step .seeded (depositRun ++ [placeBet "blackjack" "key-1" 500] ++ changedRates))
        1 bet .plain none := by
  have hplaced : ((run step .seeded (depositRun ++ [placeBet "blackjack" "key-1" 500])).bets.get?
      1).map (fun bet => (bet.discordId, bet.commission, bet.rake)) = some (9, 22, 5) := by
    decide +kernel
  obtain ⟨bet, hbet, hcolumns⟩ := Option.map_eq_some_iff.mp hplaced
  simp only [Prod.mk.injEq] at hcolumns
  obtain ⟨howner, hcommission, hrake⟩ := hcolumns
  have hfresh : ((run step .seeded depositRun).bets.get? 1).isNone := by decide +kernel
  have hgames : (run step .seeded depositRun).gameConfig.rows = gameDefaults.rows := by decide
  refine ⟨bet, howner, hcommission, hrake, ?_⟩
  exact refund_undoes seeded_empty depositRun changedRates rfl rfl (Option.isNone_iff_eq_none.mp hfresh)
    hbet (by rw [howner]; decide) (by rw [Table.ext_rows hgames]; exact seeded_commission _)
    (by decide) (by rw [run_append, run_append]; rfl) .plain none

/-- After a bet of 500 the balance of its owner grows to the largest that fits. -/
def fullBettorRun : List Command :=
  depositRun ++
    [placeBet "dice" "key-1" 500,
     .config (.dwConfig "max_deposit_g" (some (2 ^ 63 - 1))),
     .call .plain (.addCashierCharacter (some 8) (some "Bank") (some "Realm") (some "EU")
      (some "Horde")),
     .call .plain (.createDepositTicket (some 9) (some "Char") (some "Realm") (some "EU")
      (some "Horde") (some (2 ^ 63 - 1 - 4500)) (some 4) (some 2)),
     .call .plain (.claimTicket (some "deposit") (some "deposit-3") (some 8)),
     .call .plain (.confirmDeposit (some "deposit-3") (some 8))]

/-- A commission above the amount gives the second bet a negative stake. -/
def negativeStakeRun : List Command :=
  depositRun ++
    [placeBet "dice" "key-1" 500,
     .config (.gameConfig "dice" (seedGame (some 20000))),
     placeBet "dice" "key-2" 200]

/-- The treasury has its share of an open bet, and still a refund fails: for want of a
chain key, of room in the balance, or of locked gold. -/
theorem refund_fails :
    (∃ bet, (run step .seeded (depositRun ++ [placeBet "dice" "key-1" 500])).bets.get? 1 = some bet ∧
      bet.status = .open ∧
      bet.treasuryShare ≤
        (run step .seeded (depositRun ++ [placeBet "dice" "key-1" 500])).balanceOf 0 ∧
      ¬ (Call.refundBet (some 1) none).Succeeds { Env.plain with auditChainKey := none }
        (run step .seeded (depositRun ++ [placeBet "dice" "key-1" 500]))) ∧
    (∃ bet, (run step .seeded fullBettorRun).bets.get? 1 = some bet ∧ bet.status = .open ∧
      bet.treasuryShare ≤ (run step .seeded fullBettorRun).balanceOf 0 ∧
      ¬ (Call.refundBet (some 1) none).Succeeds .plain (run step .seeded fullBettorRun)) ∧
    (∃ bet, (run step .seeded negativeStakeRun).bets.get? 1 = some bet ∧ bet.status = .open ∧
      bet.treasuryShare ≤ (run step .seeded negativeStakeRun).balanceOf 0 ∧
      ¬ (Call.refundBet (some 1) none).Succeeds .plain (run step .seeded negativeStakeRun)) := by
  have hexists : ∀ (env : Env) (s : Database),
      ((s.bets.get? 1).map fun bet => (bet.status, decide (bet.treasuryShare ≤ s.balanceOf 0))) =
          some (.open, true) →
        ¬ (Call.refundBet (some 1) none).Succeeds env s →
        ∃ bet, s.bets.get? 1 = some bet ∧ bet.status = .open ∧
          bet.treasuryShare ≤ s.balanceOf 0 ∧
          ¬ (Call.refundBet (some 1) none).Succeeds env s := by
    intro env s hrow hfails
    obtain ⟨bet, hbet, hcolumns⟩ := Option.map_eq_some_iff.mp hrow
    simp only [Prod.mk.injEq, decide_eq_true_eq] at hcolumns
    exact ⟨bet, hbet, hcolumns.1, hcolumns.2, hfails⟩
  refine ⟨hexists _ _ ?_ ?_, hexists _ _ ?_ ?_, hexists _ _ ?_ ?_⟩ <;> decide +kernel

end DeathRoll
