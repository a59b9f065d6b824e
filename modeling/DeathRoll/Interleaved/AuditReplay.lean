import DeathRoll.Interleaved.BetTotals
import DeathRoll.Interleaved.Recorded
import DeathRoll.Interleaved.Statistics
import DeathRoll.Relational.Traced

/-! # Replaying balances from the audit log

Every function of the ledger in any interleaving. For a user the changes that the audit log
records add up to the balance. For the treasury they do not: the bet functions move it
without a row of its own, and the law below says exactly when.
-/

namespace DeathRoll.Interleaved

open Relational Script

/-! ## Calls that owe a row -/

/-- The active period that `luck.apply_bet` has read, after it has looked for an earlier bet
and for a ban. -/
def periodRead (reads : List (Snapshot LedgerKey.Row)) : Option Int := reads[2]?.bind activePeriod

/-- The calls that owe the treasury an audit row: placing a bet with a commission, or
with rake when no period was active; resolving an open bet with a credit other
than its stake; refunding an open bet whose commission or rake the treasury took. -/
def SkipsTreasuryRow {ω : Type} (reads : List (Snapshot LedgerKey.Row)) (before : LedgerRows) :
    BetCall ω → Prop
  | .applyBet _ config p =>
      (∀ discordId key, p.Applies discordId key → before (.betKey discordId key) = none) ∧
      (0 < shareOf p.pBetAmount ((config.game.bind GameConfig.commissionBps).getD 0) ∨
        periodRead reads = none ∧ 0 < shareOf p.pBetAmount config.rakeBps)
  | .resolveBet pBetId pStatus pPayout _ =>
      ∃ id bet, pBetId = some id ∧ before (.bet id) = some bet ∧ bet.status = .open ∧
        creditUser pStatus pPayout bet.effectiveStake ≠ some bet.effectiveStake
  | .cashoutMines pBetId pMultiplier =>
      ∃ id bet, pBetId = some id ∧ before (.bet id) = some bet ∧ bet.status = .open ∧
        pMultiplier.map (fun multiplier => multiplier.floorMul bet.effectiveStake) ≠
          some bet.effectiveStake
  | .refundBet pBetId _ =>
      ∃ id bet, pBetId = some id ∧ before (.bet id) = some bet ∧ bet.status = .open ∧
        (0 < bet.commission ∨ bet.rakePeriodId = none ∧ 0 < bet.rake)
  | _ => False

/-- A call moves only the treasury beyond what it records, and that when it owes a row. -/
def Records {ω : Type} (call : BetCall ω) (reads : List (Snapshot LedgerKey.Row))
    (before after : LedgerRows) : Prop :=
  ∃ skipped, unrecorded after = unrecorded before + Pi.single 0 skipped ∧
    (skipped = 0 ↔ ¬ SkipsTreasuryRow reads before call)

variable {ω : Type} {known : Set LedgerKey} {rows before after : LedgerRows}
  {call : BetCall ω} {reads : List (Snapshot LedgerKey.Row)}

theorem records_of_eq (h : unrecorded after = unrecorded before)
    (hskips : ¬ SkipsTreasuryRow reads before call) : Records call reads before after :=
  ⟨0, by rw [h, Pi.single_zero, add_zero], by simp [hskips]⟩

theorem treasuryShare_eq_zero {commission rake : Int} {period : Option Int} :
    treasuryShare commission rake period = 0 ↔
      ¬ (0 < commission ∨ period = none ∧ 0 < rake) := by
  unfold treasuryShare
  split_ifs with hperiod
  · simp only [hperiod, true_and]
    omega
  · simp only [hperiod, false_and, or_false]
    omega

/-- The shares of a bet show in the treasury alone. -/
theorem SharesMove.unrecorded {period : Option Int} {pooled taken : Int}
    (h : SharesMove known period pooled taken before after) (htreasury : .balance 0 ∈ known) :
    unrecorded after = unrecorded before + Pi.single 0 taken := by
  have hlog : auditLog after = auditLog before := by
    rw [auditLog, auditLog, h.frame _ (by simp) (by simp)]
  funext discordId
  rw [Interleaved.unrecorded, auditedChange, hlog, Pi.add_apply, Interleaved.unrecorded,
    auditedChange]
  by_cases hzero : discordId = 0
  · subst hzero
    rw [h.balance htreasury, Pi.single_eq_same]
    omega
  · rw [balanceOf_congr (h.frame _ (by simp [hzero]) (by simp)), Pi.single_eq_of_ne hzero, add_zero]

/-- The audit row says what the bettor was paid, and nothing of the treasury's share. -/
theorem BetEffect.Moves.unrecorded {e : BetEffect} {id paid taken : Int} {bet : Bet}
    (h : e.Moves known id bet paid taken rows) (htreasury : .balance 0 ∈ known) {mid : LedgerRows}
    (hbalance : ∀ discordId, mid (.balance discordId) = e.mid (.balance discordId))
    (hlog : mid .auditLog = e.mid .auditLog) :
    unrecorded (e.logged mid) = unrecorded rows + Pi.single 0 taken := by
  have hshares := h.shares.unrecorded (Set.mem_insert_of_mem _ htreasury)
  rw [BetEffect.logged, unrecorded_append, h.targetId, h.change, unrecorded_congr hbalance hlog,
    hshares, unrecorded_balance h.row, h.balance, add_sub_cancel_left]
  abel

/-! ## Closing a bet -/

theorem ClosesBet.unrecorded {e : BetEffect} {id paid taken : Int} {bet closed : Bet}
    (h : ClosesBet known id bet closed paid taken e rows) (htreasury : .balance 0 ∈ known) :
    unrecorded (e.closing id closed) = unrecorded rows + Pi.single 0 taken :=
  h.toMoves.unrecorded htreasury (fun _ => Function.update_of_ne (by simp) _ _)
    (Function.update_of_ne (by simp) _ _)

theorem resolveBet_records (reads : List (Snapshot LedgerKey.Row)) (env : Env)
    (pBetId : Option Int) (pStatus : Option String) (pPayout : Option Int) (pOutcome : Option Json)
    (hlog : .auditLog ∈ known) (htreasury : .balance 0 ∈ known) :
    (resolveBet env pBetId pStatus pPayout pOutcome).Post ledgerSchema
      (fun _ _ after => Records (.resolveBet pBetId pStatus pPayout pOutcome : BetCall ω) reads rows
        after) known rows := by
  refine post_resolveBet env pBetId pStatus pPayout pOutcome hlog ?_ ?_
  · rintro id bet _ rfl hbet hclosed
    refine records_of_eq rfl ?_
    rintro ⟨_, bet', ⟨⟩, hbet', hopen, -⟩
    cases hbet.symm.trans hbet'
    exact hclosed hopen
  · rintro id bet closed credit e _ rfl hcredit hcloses
    refine ⟨_, hcloses.unrecorded htreasury, ?_⟩
    have hskips : SkipsTreasuryRow reads rows (.resolveBet (some id) pStatus pPayout pOutcome :
        BetCall ω) ↔ credit ≠ bet.effectiveStake := by
      simp [SkipsTreasuryRow, hcloses.found, hcloses.opened, hcredit]
    rw [hskips, not_not]
    omega

theorem refundBet_records (reads : List (Snapshot LedgerKey.Row)) (env : Env)
    (pBetId : Option Int) (pReason : Option String)
    (hlog : .auditLog ∈ known) (htreasury : .balance 0 ∈ known) :
    (refundBet env pBetId pReason).Post ledgerSchema
      (fun _ _ after => Records (.refundBet pBetId pReason : BetCall ω) reads rows after) known
      rows := by
  refine post_refundBet env pBetId pReason hlog ?_ ?_
  · rintro id bet _ rfl hbet hclosed
    refine records_of_eq rfl ?_
    rintro ⟨_, bet', ⟨⟩, hbet', hopen, -⟩
    cases hbet.symm.trans hbet'
    exact hclosed hopen
  · rintro id bet closed e _ rfl hcloses
    refine ⟨_, hcloses.unrecorded htreasury, ?_⟩
    have hskips : SkipsTreasuryRow reads rows (.refundBet (some id) pReason : BetCall ω) ↔
        (0 < bet.commission ∨ bet.rakePeriodId = none ∧ 0 < bet.rake) := by
      simp [SkipsTreasuryRow, hcloses.found, hcloses.opened]
    rw [hskips, ← treasuryShare_eq_zero, neg_eq_zero]

theorem cashoutMines_records (reads : List (Snapshot LedgerKey.Row)) (env : Env)
    (pBetId : Option Int) (pMultiplier : Option Numeric)
    (hlog : .auditLog ∈ known) (htreasury : .balance 0 ∈ known) :
    (cashoutMines env pBetId pMultiplier).Post ledgerSchema
      (fun _ _ after => Records (.cashoutMines pBetId pMultiplier : BetCall ω) reads rows after)
      known rows := by
  cases pBetId with
  | none => simp [cashoutMines, selectBet, post_bind, post_raiseIf, post_pure, post_require]
  | some id =>
      simp only [cashoutMines, selectBet, post_bind, post_raiseIf, post_lockBet, post_require,
        post_nullableBigint]
      intro _
      refine ⟨by simp, ?_⟩
      rintro bet hbet known₁ hgrow₁ _ _ _ ⟨⟩ _ _ _
      refine (resolveBet_records (ω := ω) reads env (some id) _ _ _ (hgrow₁ hlog)
        (hgrow₁ htreasury)).mono ?_
      rintro _ _ after ⟨skipped, hmoved, hskipped⟩
      refine ⟨skipped, hmoved, hskipped.trans (not_congr ?_)⟩
      simp [SkipsTreasuryRow, hbet, creditUser]

/-! ## Placing a bet -/

theorem PlacesBet.unrecorded {e : BetEffect} {id : Int} {config : BetConfig} {p : BetParams}
    {bet : Bet} (h : PlacesBet known id config p bet e rows) (htreasury : .balance 0 ∈ known) :
    unrecorded (e.logged (insertedBet id bet e.mid)) =
      unrecorded rows + Pi.single 0 (treasuryShare bet.commission bet.rake bet.rakePeriodId) :=
  h.toMoves.unrecorded htreasury (fun _ => insertedBet_frame _ _ (by simp) (by simp) (by simp))
    (insertedBet_frame _ _ (by simp) (by simp) (by simp))

/-- A bet that is placed owes a row when the treasury has a share of it. -/
theorem PlacesBet.skips {e : BetEffect} {id : Int} {config : BetConfig} {p : BetParams} {bet : Bet}
    (h : PlacesBet known id config p bet e rows) (hperiod : periodRead reads = bet.rakePeriodId) :
    SkipsTreasuryRow reads rows (.applyBet id config p : BetCall ω) ↔
      0 < bet.commission ∨ bet.rakePeriodId = none ∧ 0 < bet.rake := by
  obtain ⟨game, hgame, hcommission⟩ := h.commission
  rw [SkipsTreasuryRow, hperiod, hgame, hcommission, h.rake]
  refine and_iff_right ?_
  rintro discordId key ⟨hdiscordId, hkey⟩
  obtain rfl := Option.some.inj (h.applies.1.symm.trans hdiscordId)
  obtain rfl := Option.some.inj (h.applies.2.symm.trans hkey)
  rw [← h.frame (by simp) (by simp), h.free]

/-- Placing a bet moves the shares that the treasury takes beyond what is recorded. -/
theorem placeBet_records (env : Env) (nextId : Int) (config : BetConfig) (p : BetParams)
    (earlier : Snapshot LedgerKey.Row) (hlog : .auditLog ∈ known) (htreasury : .balance 0 ∈ known) :
    ((placeBet env nextId config p).traced [earlier]).Post ledgerSchema
      (fun out _ after => Records (.applyBet nextId config p : BetCall ω) out.2 rows after) known
      rows := by
  refine post_traced_placeBet env nextId config p [earlier] hlog ?_
  intro bet e user period more _ hplaces hperiod
  refine ⟨_, hplaces.unrecorded htreasury, ?_⟩
  have hread : periodRead ([earlier] ++ [user] ++ [period] ++ more) = bet.rakePeriodId := hperiod
  rw [hplaces.skips hread, treasuryShare_eq_zero]

/-- A bet that is there already is found by its user and key, and nothing is owed. -/
theorem applyBet_records (env : Env) (nextId : Int) (config : BetConfig) (p : BetParams)
    (hlog : .auditLog ∈ known) (htreasury : .balance 0 ∈ known) :
    ((applyBet env nextId config p).traced []).Post ledgerSchema
      (fun out _ after => Records (.applyBet nextId config p : BetCall ω) out.2 rows after) known
      rows := by
  by_cases happlies : ∃ discordId key, p.Applies discordId key
  · obtain ⟨discordId, key, hdiscordId, hkey⟩ := happlies
    unfold applyBet
    rw [hdiscordId, hkey, selectExisting, post_traced_see]
    intro keys seen hkeys hknown hseen
    split
    next id hfound =>
      rw [post_traced_pure]
      refine records_of_eq rfl ?_
      rintro ⟨hfree, -⟩
      obtain ⟨row, hrow, -⟩ := hseen _ _ hfound
      rw [hfree discordId key ⟨hdiscordId, hkey⟩] at hrow
      cases hrow
    next => exact placeBet_records env nextId config p _ (hknown hlog) (hknown htreasury)
  · -- without a user or a key no bet can be placed
    refine ((applyBet_post (ω := ω) env nextId config p hlog).traced []).mono ?_
    rintro ⟨result, reads⟩ _ after ⟨-, hwrites⟩
    cases hwrites with
    | existing happlies' => exact (happlies ⟨_, _, happlies'⟩).elim
    | placed happlies' => exact (happlies ⟨_, _, happlies'⟩).elim

/-! ## Every call -/

/-- A call whose `SELECT`s do not matter, in a transaction that returns no result. -/
theorem records_traced {x : LedgerScript Unit} {P : LedgerRows → Prop}
    (hpost : x.Post ledgerSchema (fun _ _ after => P after) known rows)
    (hrecords : ∀ reads after, P after → Records call reads rows after) :
    ((x >>= fun _ => pure none : LedgerScript BetResult).traced []).Post ledgerSchema
      (fun out _ after => Records call out.2 rows after) known rows :=
  (post_traced_bind _ _).mpr ((hpost.traced []).mono fun _ _ _ hout => hrecords _ _ hout.2)

theorem ledgerBody_records {base : LedgerRows} (hlog : .auditLog ∈ present base)
    (htreasury : .balance 0 ∈ present base) :
    Concurrent.Describes ledgerSchema base
      (fun call before out after => Records call.2 out.2 before after)
      fun call => (betBody otherBody call).traced [] where
  post := by
    rintro ⟨env, call⟩ rows -
    cases call with
    | applyBet nextId config params =>
        exact (post_traced_bind _ _).mpr (applyBet_records env nextId config params hlog htreasury)
    | resolveBet pBetId pStatus pPayout pOutcome =>
        exact records_traced (resolveBet_records (ω := OtherCall) [] env _ _ _ _ hlog htreasury)
          fun _ _ => id
    | refundBet pBetId pReason =>
        exact records_traced (refundBet_records (ω := OtherCall) [] env _ _ hlog htreasury)
          fun _ _ => id
    | cashoutMines pBetId pMultiplier =>
        exact records_traced (cashoutMines_records (ω := OtherCall) [] env _ _ hlog htreasury)
          fun _ _ => id
    | insertPeriod id period =>
        refine records_traced (P := fun after => unrecorded after = unrecorded rows) ?_
          fun _ _ hsame => records_of_eq hsame not_false
        simp only [insertPeriod, post_addOrRaise]
        exact fun _ => ⟨Set.empty_subset _, unrecorded_congr (fun _ => rfl) rfl⟩
    | setPeriodStatus id status =>
        refine records_traced (P := fun after => unrecorded after = unrecorded rows) ?_
          fun _ _ hsame => records_of_eq hsame not_false
        simp only [setPeriodStatus, post_bind, post_lockPeriod, post_pure]
        refine ⟨fun _ => trivial, fun period _ known' _ _ => ?_⟩
        rw [post_store_of_refs rfl]
        exact fun _ => ⟨fun _ _ => trivial, unrecorded_congr (fun _ => rfl) rfl⟩
    | other call =>
        refine records_traced (P := fun after => unrecorded after = unrecorded rows) ?_
          fun _ _ hsame => records_of_eq hsame not_false
        exact post_of_keepsFrom (otherBody_keepsBooks env call) (Set.singleton_subset_iff.mpr hlog)
          fun _ _ _ _ hbooks => congrArg Prod.snd hbooks

/-! ## Any interleaving -/

/-- The functions of the ledger, those on bets and the others. -/
abbrev ledgerBody : Env × BetCall OtherCall → LedgerScript BetResult := betBody otherBody

/-- A ledger before its first call: the audit log is empty, and only the treasury has an
account. -/
structure EmptyLedger (keys : List LedgerKey) (rows : LedgerRows) : Prop
    extends Migrated keys rows where
  treasury : rows (.balance 0) ≠ none
  noAccounts : ∀ discordId, discordId ≠ 0 → rows (.balance discordId) = none
  noRecords : Interleaved.auditLog rows = []

variable {τ : Type} [DecidableEq τ] {keys : List LedgerKey}

theorem unrecorded_start (hlog : auditLog rows = []) (discordId : Int) :
    unrecorded rows discordId = balanceOf discordId rows := by
  rw [unrecorded, auditedChange, hlog]
  exact sub_zero _

/-- From the empty ledger, in any interleaving of its functions, the balance of every user
is the sum of the changes that the audit log records for the user. -/
theorem balances_replay (hempty : EmptyLedger keys rows)
    (moves : List (Move τ (Env × BetCall OtherCall))) {u : Int} (hu : u ≠ 0) :
    balanceOf u (run (Concurrent.step ledgerBody) (.quiet keys rows) moves).committed =
      auditedChange u (run (Concurrent.step ledgerBody) (.quiet keys rows) moves).committed := by
  have hkeeps : ∀ (call : Env × BetCall OtherCall) (before : LedgerRows)
      (out : BetResult × List (Snapshot LedgerKey.Row)) (after : LedgerRows),
      Older ledgerSchema rows before → Records call.2 out.2 before after →
      unrecorded before u = 0 → unrecorded after u = 0 := by
    rintro call before out after - ⟨skipped, hmoved, -⟩ hzero
    rw [hmoved, Pi.add_apply, hzero, Pi.single_eq_of_ne hu, add_zero]
  have hstart : unrecorded rows u = 0 := by
    rw [unrecorded_start hempty.noRecords, balanceOf, hempty.noAccounts u hu]
    rfl
  have hend := Concurrent.committed_run (ledgerBody_records hempty.auditLog hempty.treasury)
    hkeeps hempty.toConsistent hstart moves
  rw [Concurrent.run_withReads] at hend
  exact sub_eq_zero.mp hend

/-- The treasury, and a cashier of the region. -/
def seededEntries : List ((r : LedgerKey) × r.Row) :=
  [⟨.auditLog, []⟩, ⟨.user 0, {}⟩, ⟨.balance 0, .zero⟩,
   ⟨.cashierCharacter ⟨7, "Bank", "Realm", .EU⟩,
    { id := 1, faction := .Horde, isActive := true, addedAt := 0 }⟩]

theorem seededEntries_empty :
    EmptyLedger (seededEntries.map Sigma.fst) (rowsOf seededEntries) where
  toMigrated := migrated_rowsOf seededEntries (Option.some_ne_none _) (by simp [seededEntries])
  treasury := Option.some_ne_none _
  noAccounts := by
    intro discordId hne
    simp [rowsOf, seededEntries, Ne.symm hne]
  noRecords := rfl

/-- The ledger's functions from `seededEntries`. -/
abbrev ledgerRun (moves : List (Move Nat (Env × BetCall OtherCall))) : BetWorld Nat OtherCall :=
  run (Concurrent.step ledgerBody) (.quiet (seededEntries.map Sigma.fst) (rowsOf seededEntries))
    moves

/-- More accesses than a call makes. -/
def finish (tx : Nat) : List (Move Nat (Env × BetCall OtherCall)) :=
  List.replicate 40 (.next tx) ++ [.commit tx]

/-- The calls one after the other. -/
def ledgerTurn (calls : List (BetCall OtherCall)) : List (Move Nat (Env × BetCall OtherCall)) :=
  calls.flatMap fun call => .start 0 (.plain, call) :: finish 0

/-- A deposit of 5000 that opens the account of user 9. -/
def depositedCalls : List (BetCall OtherCall) :=
  [.other (.ticket (.createDepositTicket ⟨1, 2⟩ ticketConfig (ticketParams 5000 1))),
   .other (.ticket (.claimTicket (some "deposit") (some "deposit-1") (some 7))),
   .other (.ticket (.confirmDeposit (some "deposit-1") (some 7)))]

/-- What the seeds say of roulette, and the default rake. -/
def rouletteConfig : BetConfig := ⟨some (seedGame (some 236)), 100⟩

def rouletteParams : BetParams :=
  { betParams 9 "key-1" "bet-1" with pGameName := some "roulette" }

/-- A bet of 1000 and a withdraw of 3000 that both want the account. -/
def racingMoves : List (Move Nat (Env × BetCall OtherCall)) :=
  [ledgerTurn depositedCalls,
   [.start 0 (.plain, .applyBet 1 rouletteConfig rouletteParams),
    .start 1 (.plain, .other (.ticket
      (.createWithdrawTicket ⟨1, 2⟩ ticketConfig (ticketParams 3000 3))))],
   (List.replicate 20 [.next 1, .next 0]).flatten, finish 1, finish 0].flatten

theorem balances_replay_racing :
    balanceOf 9 (ledgerRun racingMoves).committed =
        auditedChange 9 (ledgerRun racingMoves).committed ∧
      balanceOf 9 (ledgerRun racingMoves).committed = 1000 :=
  ⟨balances_replay seededEntries_empty racingMoves (by decide), by decide +kernel⟩

/-! ## The treasury -/

/-- The treasury's balance is its initial value plus what the audit log records for
target 0, in every state of an interleaving, exactly when no call that commits owes the
treasury a row. -/
theorem treasury_audited_iff (hdb : Migrated keys rows) (htreasury : rows (.balance 0) ≠ none)
    (hlog : auditLog rows = []) (moves : List (Move τ (Env × BetCall OtherCall))) :
    (∀ first rest, moves = first ++ rest →
      balanceOf 0 (run (Concurrent.step ledgerBody) (.quiet keys rows) first).committed =
        balanceOf 0 rows +
          auditedChange 0 (run (Concurrent.step ledgerBody) (.quiet keys rows) first).committed) ↔
    ∀ first tx rest call result, moves = first ++ .commit tx :: rest →
      (run (Concurrent.step ledgerBody) (.quiet keys rows) first).commits (.commit tx) =
        some (call, result) →
      ¬ SkipsTreasuryRow (Concurrent.noted ledgerBody (.quiet keys rows) first tx)
        (run (Concurrent.step ledgerBody) (.quiet keys rows) first).committed call.2 := by
  have hlaw : ∀ after : LedgerRows, balanceOf 0 after = balanceOf 0 rows + auditedChange 0 after ↔
      unrecorded after 0 = unrecorded rows 0 := by
    intro after
    rw [unrecorded_start hlog, unrecorded, sub_eq_iff_eq_add]
  simp only [hlaw]
  have hcommit : ∀ {first : List (Move τ (Env × BetCall OtherCall))} {tx : τ}
      {call : Env × BetCall OtherCall} {result : BetResult},
      (run (Concurrent.step ledgerBody) (.quiet keys rows) first).commits (.commit tx) =
        some (call, result) →
      Records call.2 (Concurrent.noted ledgerBody (.quiet keys rows) first tx)
        (run (Concurrent.step ledgerBody) (.quiet keys rows) first).committed
        (run (Concurrent.step ledgerBody) (.quiet keys rows) (first ++ [.commit tx])).committed :=
    fun hcommits => Concurrent.commits_acts_noted (ledgerBody_records hdb.auditLog htreasury)
      hdb.toConsistent hcommits
  constructor
  · intro hall first tx rest call result hsplit hcommits
    obtain ⟨skipped, hmoved, hskipped⟩ := hcommit hcommits
    have hbefore := hall first (.commit tx :: rest) hsplit
    have hafter := hall (first ++ [.commit tx]) rest (by simp [hsplit])
    rw [hmoved, Pi.add_apply, hbefore, Pi.single_eq_same, add_eq_left] at hafter
    exact hskipped.mp hafter
  · intro hnone first
    -- move by move: only a commit changes the committed rows
    induction first using List.reverseRecOn with
    | nil => exact fun _ _ => rfl
    | append_singleton first move ih =>
        intro rest hsplit
        rw [List.append_assoc] at hsplit
        have hbefore := ih (move :: rest) hsplit
        cases hcommits :
          (run (Concurrent.step ledgerBody) (.quiet keys rows) first).commits move with
        | none =>
            rw [run_append, run_cons, run_nil,
              Concurrent.committed_step_of_commits_eq_none ledgerBody hcommits]
            exact hbefore
        | some taken =>
            obtain ⟨tx, rfl, -⟩ := Concurrent.commits_eq_some hcommits
            obtain ⟨skipped, hmoved, hskipped⟩ := hcommit hcommits
            rw [hmoved, Pi.add_apply, hbefore, Pi.single_eq_same, add_eq_left]
            exact hskipped.mpr (hnone first tx rest _ _ hsplit hcommits)

/-- The fee of a withdraw is credited while a sweep waits for the treasury. -/
def sweptMoves : List (Move Nat (Env × BetCall OtherCall)) :=
  [ledgerTurn (depositedCalls ++
    [.other (.ticket (.createWithdrawTicket ⟨1, 2⟩ ticketConfig (ticketParams 3000 3))),
     .other (.ticket (.claimTicket (some "withdraw") (some "withdraw-1") (some 7)))]),
   [.start 0 (.plain, .other (.ticket (.confirmWithdraw (some "withdraw-1") (some 7)))),
    .next 0, .next 0, .next 0, .next 0, .next 0,
    .start 1 (.plain, .other (.treasurySweep (some 50) (some 1) (some "payout")))],
   (List.replicate 20 [.next 1, .next 0]).flatten, finish 0, finish 1].flatten

theorem treasury_audited_iff_swept :
    (∀ first rest, sweptMoves = first ++ rest →
      balanceOf 0 (ledgerRun first).committed =
        balanceOf 0 (rowsOf seededEntries) + auditedChange 0 (ledgerRun first).committed) ∧
      balanceOf 0 (ledgerRun sweptMoves).committed = 10 := by
  have hadmits : ∀ move ∈ sweptMoves, Concurrent.Admits
      (fun call => ∀ reads before, ¬ SkipsTreasuryRow reads before call.2) move := by
    simp [-List.reduceReplicate, sweptMoves, ledgerTurn, depositedCalls, finish, Concurrent.Admits,
      SkipsTreasuryRow, or_imp, forall_and]
  refine ⟨(treasury_audited_iff seededEntries_empty.toMigrated seededEntries_empty.treasury rfl
    sweptMoves).mpr ?_, by decide +kernel⟩
  intro first tx rest call result hsplit hcommits
  have hfirst := fun move hmove => hadmits move (hsplit ▸ List.mem_append_left _ hmove)
  exact (Concurrent.runs_run ledgerBody _ _ hfirst).of_commits hcommits _ _

/-- A roulette bet of 1000 with no active period: commission 23 and rake 10. -/
def rouletteMoves : List (Move Nat (Env × BetCall OtherCall)) :=
  ledgerTurn (depositedCalls ++ [.applyBet 1 rouletteConfig rouletteParams])

/-- The treasury holds 33 and the audit log has no row for it. -/
theorem roulette_unaudited :
    ¬ balanceOf 0 (ledgerRun rouletteMoves).committed =
      balanceOf 0 (rowsOf seededEntries) + auditedChange 0 (ledgerRun rouletteMoves).committed := by
  decide +kernel

end DeathRoll.Interleaved
