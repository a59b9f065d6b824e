import DeathRoll.Interleaved.Bets
import DeathRoll.Relational.Recount
import Mathlib.Algebra.BigOperators.Ring.Finset

/-! # Counters and bets

`total_wagered`, `total_won` and `pool_amount` are kept next to the bets they sum
up. Each is what a recomputation from the bets gives, after any interleaving of
calls; so a pool always has the rake that a refund takes out of it.
-/

namespace DeathRoll.Interleaved

open Relational Script

variable {ω : Type} {known : Set LedgerKey} {rows before after : LedgerRows}

/-! ## Recomputation -/

/-- The bets under the keys of a scan. -/
def betIds (keys : List LedgerKey) : Finset Int :=
  (keys.filterMap fun
    | .bet id => some id
    | _ => none).toFinset

/-- All bets are among `ids`. -/
def CoversBets (ids : Finset Int) (rows : LedgerRows) : Prop :=
  ∀ id, rows (.bet id) ≠ none → id ∈ ids

theorem coversBets_betIds {keys : List LedgerKey} (h : ∀ r, rows r ≠ none → r ∈ keys) :
    CoversBets (betIds keys) rows := by
  intro id hbet
  rw [betIds, List.mem_toFinset, List.mem_filterMap]
  exact ⟨.bet id, h _ hbet, rfl⟩

/-- The counter is its start plus the shares of all bets. -/
def Tallies (counter : LedgerRows → Int) (share : Option Bet → Int) (start : Int)
    (rows : LedgerRows) : Prop :=
  ∀ ids, CoversBets ids rows → counter rows = start + ∑ id ∈ ids, share (rows (.bet id))

variable {counter : LedgerRows → Int} {share : Option Bet → Int} {start : Int}

theorem tallies_of_no_bets (hnone : ∀ id, rows (.bet id) = none) (hshare : share none = 0) :
    Tallies counter share (counter rows) rows := by
  intro ids _
  simp [hnone, hshare]

theorem Tallies.of_same (h : Tallies counter share start before)
    (hbets : ∀ id, after (.bet id) = before (.bet id)) (hcounter : counter after = counter before) :
    Tallies counter share start after := by
  intro ids hids
  have hbefore : CoversBets ids before := fun id hbet => hids id (by rwa [hbets])
  rw [hcounter, h ids hbefore]
  simp only [hbets]

theorem tallies_iff_sumsTo : Tallies counter share start rows ↔
    SumsTo (fun _ => share) (fun id => rows (.bet id)) (counter rows - start) :=
  forall_congr' fun _ => forall_congr' fun _ => sub_eq_iff_eq_add'.symm

/-- The counter follows the one bet that has a new row. -/
theorem Tallies.of_moves (h : Tallies counter share start before) {id : Int} {bet : Bet}
    (hbets : ∀ other, after (.bet other) = if other = id then some bet else before (.bet other))
    (hcounter : counter after = counter before + (share (some bet) - share (before (.bet id)))) :
    Tallies counter share start after := by
  have hrows : (fun other => after (.bet other)) =
      Function.update (fun other => before (.bet other)) id (some bet) := by
    funext other
    by_cases heq : other = id
    · rw [hbets, if_pos heq, heq, Function.update_self]
    · rw [hbets, if_neg heq, Function.update_of_ne heq]
  have htotal : counter after - start =
      counter before - start + (share (some bet) - share (before (.bet id))) := by
    omega
  rw [tallies_iff_sumsTo, hrows, htotal]
  exact (tallies_iff_sumsTo.mp h).update id bet

/-- A counter that moves with the shares of the bets and is left alone otherwise. -/
structure Follows (counter : LedgerRows → Int) (share : Option Bet → Int) : Prop where
  moves : ∀ {id bet before after}, BetMoves id bet before after →
    counter after = counter before + (share (some bet) - share (before (.bet id)))
  keeps : ∀ {before after}, KeepsBets before after → counter after = counter before
  status : ∀ {before : LedgerRows} {id period status}, before (.rafflePeriod id) = some period →
    counter (Function.update before (.rafflePeriod id) (some { period with status })) =
      counter before

theorem follows_wagered (discordId : Int) : Follows (wagered discordId) (wageredOf discordId) where
  moves := fun h => h.wagered discordId
  keeps := fun h => h.wagered discordId
  status := fun _ => wagered_congr (Function.update_of_ne (by simp) _ _)

theorem follows_won (discordId : Int) : Follows (won discordId) (wonOf discordId) where
  moves := fun h => h.won discordId
  keeps := fun h => h.won discordId
  status := fun _ => won_congr (Function.update_of_ne (by simp) _ _)

theorem follows_pool (period : Int) : Follows (pool period) (pooledOf period) where
  moves := fun h => h.pool period
  keeps := fun h => pool_congr (h.periods period)
  status := by
    intro before id row status hrow
    by_cases hid : id = period
    · subst hid
      simp [pool, hrow]
    · exact pool_congr (Function.update_of_ne (by simp [Ne.symm hid]) _ _)

/-- A call keeps the tally, if a new period does. -/
theorem Tallies.step (h : Tallies counter share start before) (hfollows : Follows counter share)
    {call : BetCall ω} {result : BetResult} (hwrites : BetWrites call before result after)
    (hperiod : ∀ id period, before (.rafflePeriod id) = none → call = .insertPeriod id period →
      counter (Function.update before (.rafflePeriod id) (some period)) = counter before) :
    Tallies counter share start after := by
  cases hwrites with
  | existing => exact h
  | placed happlies hamount hopen hrake hnew hfree hperiod hkeys hplaced hcharged hmoves =>
      exact h.of_moves hmoves.bets (hfollows.moves hmoves)
  | closed hcall hbet hopen hclosed hdiscordId hkey hrake hperiod hkeys hplaced hmoves =>
      exact h.of_moves hmoves.bets (hfollows.moves hmoves)
  | unchanged => exact h
  | newPeriod hnew =>
      exact h.of_same (fun id => Function.update_of_ne (by simp) _ _) (hperiod _ _ hnew rfl)
  | periodStatus hrow =>
      exact h.of_same (fun id => Function.update_of_ne (by simp) _ _) (hfollows.status hrow)
  | other hkeeps => exact h.of_same hkeeps.bets (hfollows.keeps hkeeps)

/-! ## Players -/

/-- 1 once the bet is no longer open. -/
def betClosed (id : Int) (rows : LedgerRows) : Nat :=
  match rows (.bet id) with
  | some bet => if bet.status = .open then 0 else 1
  | none => 0

/-- 1 for a call that finds the bet open and leaves it in another status. -/
def betClosings (id : Int) (_ : Env × BetCall ω) (before after : LedgerRows) : Nat :=
  if (before (.bet id)).any (fun bet => bet.status = .open) ∧
      (after (.bet id)).any (fun bet => bet.status ≠ .open) then 1
  else 0

theorem betClosed_le_one (id : Int) (rows : LedgerRows) : betClosed id rows ≤ 1 := by
  unfold betClosed
  split
  · split
    · exact Nat.zero_le 1
    · exact le_rfl
  · exact Nat.zero_le 1

/-- A bet is closed by the calls that find it open. -/
theorem betClosed_step {call : BetCall ω} {result : BetResult}
    (h : BetWrites call before result after) (env : Env) (id : Int) :
    betClosed id after = betClosed id before + betClosings id (env, call) before after := by
  have hsame : after (.bet id) = before (.bet id) →
      betClosed id after = betClosed id before + betClosings id (env, call) before after := by
    intro hsame
    cases hbet : before (.bet id) with
    | none => simp [betClosed, betClosings, hsame, hbet]
    | some bet => simp [betClosed, betClosings, hsame, hbet]
  cases h with
  | existing => exact hsame rfl
  | @placed new _ _ bet _ _ happlies hamount hopen hrake hnew hfree hperiod hkeys hplaced hcharged
      hmoves =>
      by_cases hid : id = new
      · subst hid
        have hafter := hmoves.bets id
        rw [if_pos rfl] at hafter
        simp [betClosed, betClosings, hnew, hafter, hopen]
      · exact hsame (by rw [hmoves.bets, if_neg hid])
  | @closed _ key bet closed _ _ hcall hbet hopen hclosed hdiscordId hkey hrake hperiod hkeys hplaced
      hmoves =>
      by_cases hid : id = key
      · subst hid
        have hafter := hmoves.bets id
        rw [if_pos rfl] at hafter
        simp [betClosed, betClosings, hbet, hafter, hopen, hclosed]
      · exact hsame (by rw [hmoves.bets, if_neg hid])
  | unchanged => exact hsame rfl
  | newPeriod hnew => exact hsame (Function.update_of_ne (by simp) _ _)
  | periodStatus hrow => exact hsame (Function.update_of_ne (by simp) _ _)
  | other hkeeps => exact hsame (hkeeps.bets id)

/-- Any number of calls, interleaved statement by statement. -/
abbrev BetWorld (τ ω : Type) := Concurrent τ (Env × BetCall ω) LedgerKey.Row DbError BetResult

theorem Tallies.of_sound {τ : Type} [DecidableEq τ] {base : LedgerRows}
    {body : Env × BetCall ω → LedgerScript BetResult} {world : BetWorld τ ω}
    (hworld : world.Sound ledgerSchema base body) (h : Tallies counter share start world.committed) :
    counter world.committed =
      start + ∑ id ∈ betIds world.keys, share (world.committed (.bet id)) :=
  h _ (coversBets_betIds hworld.committed_keys)

/-- Starting without bets, each player's totals are what a recomputation from the
bets gives, and each bet leaves `open` at most once. -/
theorem totals_recomputed {τ : Type} [DecidableEq τ] {other : Env → ω → LedgerScript Unit}
    (hother : LeavesBets other) {keys : List LedgerKey} (hdb : Migrated keys rows)
    (hbets : ∀ id, rows (.bet id) = none)
    (hzero : ∀ discordId, wagered discordId rows = 0 ∧ won discordId rows = 0)
    (moves : List (Move τ (Env × BetCall ω))) :
    let world : BetWorld τ ω := run (Concurrent.step (betBody other)) (.quiet keys rows) moves
    let taken := steps (Concurrent.step (betBody other))
      (Concurrent.quiet keys rows : BetWorld τ ω) moves
    (∀ discordId, wagered discordId world.committed =
      ∑ id ∈ betIds world.keys, wageredOf discordId (world.committed (.bet id))) ∧
    (∀ discordId, won discordId world.committed =
      ∑ id ∈ betIds world.keys, wonOf discordId (world.committed (.bet id))) ∧
    ∀ id, (taken.map (Concurrent.added (betBody other) (betClosings id))).sum ≤ 1 := by
  intro world taken
  have hbody := betBody_describes hother hdb.auditLog
  have hworld : world.Sound ledgerSchema rows (betBody other) :=
    Concurrent.sound_run hbody hdb.toConsistent moves
  have htally : ∀ (counter : LedgerRows → Int) (share : Option Bet → Int),
      Follows counter share → share none = 0 → counter rows = 0 →
      (∀ before (id : Int) (period : RafflePeriod),
        counter (Function.update before (.rafflePeriod id) (some period)) = counter before) →
      counter world.committed =
        ∑ id ∈ betIds world.keys, share (world.committed (.bet id)) := by
    intro counter share hfollows hnone hstart hperiod
    have hinit : Tallies counter share (counter rows) rows := tallies_of_no_bets hbets hnone
    rw [hstart] at hinit
    have hkeep : ∀ (call : Env × BetCall ω) before result after, Older ledgerSchema rows before →
        BetWrites call.2 before result after → Tallies counter share 0 before →
        Tallies counter share 0 after :=
      fun _ before _ _ _ hwrites h =>
        h.step hfollows hwrites fun id period _ _ => hperiod before id period
    have hend : Tallies counter share 0 world.committed :=
      Concurrent.committed_run hbody hkeep hdb.toConsistent hinit moves
    rw [hend.of_sound hworld, zero_add]
  refine ⟨?_, ?_, ?_⟩
  · exact fun discordId => htally _ _ (follows_wagered discordId) rfl (hzero discordId).1
      fun before id period => wagered_congr (Function.update_of_ne (by simp) _ _)
  · exact fun discordId => htally _ _ (follows_won discordId) rfl (hzero discordId).2
      fun before id period => won_congr (Function.update_of_ne (by simp) _ _)
  · intro id
    have hkeep : ∀ (call : Env × BetCall ω) before result after, Older ledgerSchema rows before →
        BetWrites call.2 before result after → True → True := fun _ _ _ _ _ _ h => h
    have hsum := Concurrent.committed_accounts hbody hkeep (betClosed id) (betClosings id)
      (fun call before result after _ h _ => betClosed_step h call.1 id) hdb.toConsistent trivial
      moves
    have hle : betClosed id world.committed ≤ 1 := betClosed_le_one id _
    rw [hsum] at hle
    exact le_trans (Nat.le_add_left _ _) hle

/-- Two players, the treasury, and an active raffle period. -/
def betEntries : List ((r : LedgerKey) × r.Row) :=
  [⟨.auditLog, []⟩, ⟨.user 0, {}⟩, ⟨.user 7, {}⟩, ⟨.user 8, {}⟩,
   ⟨.balance 0, startBalance⟩,
   ⟨.balance 7, ⟨{ balance := 5000 }, by decide, by decide, by decide, by decide, by decide⟩⟩,
   ⟨.balance 8, ⟨{ balance := 5000 }, by decide, by decide, by decide, by decide, by decide⟩⟩,
   ⟨.rafflePeriod 1, ⟨40, .active, by decide, by decide⟩⟩]

def betConfig : BetConfig where
  game := some
    { enabled := true, minBet := 1, maxBet := 100000, commissionBps := some 500,
      minBet_pos := by decide, minBet_le_maxBet := by decide }
  rakeBps := 100

def betParams (discordId : Int) (key uid : String) : BetParams where
  pDiscordId := some discordId
  pGameName := some "mines"
  pChannelId := some 1
  pBetAmount := some 1000
  pSelection := some .null
  pServerSeedHash := some []
  pClientSeed := some "seed"
  pNonce := some 1
  pIdempotencyKey := some key
  pBetUid := some uid

/-- No functions but those on bets. -/
def noOther (_ : Env) (call : Empty) : LedgerScript Unit := call.elim

theorem noOther_leavesBets : LeavesBets noOther := fun _ call => call.elim

theorem betEntries_migrated : Migrated (betEntries.map Sigma.fst) (rowsOf betEntries) :=
  migrated_rowsOf betEntries (Option.some_ne_none _) (by simp [betEntries])

theorem betEntries_no_bets (id : Int) : rowsOf betEntries (.bet id) = none := by
  simp [betEntries, rowsOf]

abbrev betStart : BetWorld Nat Empty :=
  .quiet (betEntries.map Sigma.fst) (rowsOf betEntries)

/-- The bet functions alone, from `betStart`. -/
abbrev betRun (moves : List (Move Nat (Env × BetCall Empty))) : BetWorld Nat Empty :=
  run (Concurrent.step (betBody noOther)) betStart moves

/-- Many accesses of one transaction, more than its call makes. -/
def manyNexts (tx : Nat) : List (Move Nat (Env × BetCall Empty)) := List.replicate 30 (.next tx)

/-- Two bets at once. -/
def placingMoves : List (Move Nat (Env × BetCall Empty)) :=
  [[.start 0 (.plain, .applyBet 1 betConfig (betParams 7 "first" "bet-1")),
    .start 1 (.plain, .applyBet 2 betConfig (betParams 8 "second" "bet-2")),
    .next 0, .next 0, .next 0, .next 0],
   manyNexts 1, [.commit 1], manyNexts 0, [.commit 0]].flatten

/-- One bet is won while the other is refunded, with a second period active by then. -/
def closingMoves : List (Move Nat (Env × BetCall Empty)) :=
  [[.start 0 (.plain, .cashoutMines (some 1) (some ⟨15, 1⟩)),
    .start 1 (.plain, .insertPeriod 2 ⟨0, .active, inBigint_zero, zero_nonneg⟩),
    .next 1, .next 1, .commit 1, .start 1 (.plain, .refundBet (some 2) none),
    .next 0, .next 0, .next 0],
   manyNexts 1, [.commit 1], manyNexts 0, [.commit 0]].flatten

theorem betEntries_totals (discordId : Int) :
    wagered discordId (rowsOf betEntries) = 0 ∧ won discordId (rowsOf betEntries) = 0 := by
  cases hrow : rowsOf betEntries (.balance discordId) with
  | none => simp [wagered, won, hrow]
  | some row =>
      have hmem := rowsOf_ne_none (by rw [hrow]; exact Option.some_ne_none row)
      have hcases : discordId = 0 ∨ discordId = 7 ∨ discordId = 8 := by
        simpa [betEntries] using hmem
      rcases hcases with rfl | rfl | rfl <;> decide

theorem totals_recomputed_closed :
    won 7 (betRun (placingMoves ++ closingMoves)).committed = 1410 ∧
    ((steps (Concurrent.step (betBody noOther)) betStart (placingMoves ++ closingMoves)).map
      (Concurrent.added (betBody noOther) (betClosings 1))).sum ≤ 1 :=
  ⟨by decide +kernel, (totals_recomputed noOther_leavesBets betEntries_migrated betEntries_no_bets
    betEntries_totals (placingMoves ++ closingMoves)).2.2 1⟩

/-! ## Raffle pools -/

/-- The period exists, with its start and the rakes of its bets that were not refunded. -/
def PoolIs {τ : Type} (period start : Int) (world : BetWorld τ ω) : Prop :=
  ∃ row, world.committed (.rafflePeriod period) = some row ∧
    row.poolAmount = start + ∑ id ∈ betIds world.keys, rakeOf period (world.committed (.bet id))

/-- `luck.apply_bet` reads a rake that is not negative. -/
def BetCall.Rakes : BetCall ω → Prop
  | .applyBet _ config _ => 0 ≤ config.rakeBps
  | _ => True

instance (call : BetCall ω) : Decidable call.Rakes :=
  match call with
  | .applyBet _ config _ => inferInstanceAs (Decidable (0 ≤ config.rakeBps))
  | .resolveBet _ _ _ _ => .isTrue trivial
  | .refundBet _ _ => .isTrue trivial
  | .cashoutMines _ _ => .isTrue trivial
  | .insertPeriod _ _ => .isTrue trivial
  | .setPeriodStatus _ _ => .isTrue trivial
  | .other _ => .isTrue trivial

/-- No rake is negative, and every period that a bet names is there. -/
structure RakesSound (rows : LedgerRows) : Prop where
  rakes : ∀ id bet, rows (.bet id) = some bet → 0 ≤ bet.rake
  periods : ∀ id bet p, rows (.bet id) = some bet → bet.rakePeriodId = some p →
    rows (.rafflePeriod p) ≠ none

theorem RakesSound.pooledOf_eq (h : RakesSound rows) (period id : Int) :
    pooledOf period (rows (.bet id)) = rakeOf period (rows (.bet id)) := by
  cases hbet : rows (.bet id) with
  | none => rfl
  | some bet =>
      unfold pooledOf
      apply max_eq_left
      simp only [rakeOf]
      split
      · exact h.rakes id bet hbet
      · exact le_rfl

theorem RakesSound.of_same (h : RakesSound before) (hbets : ∀ id, after (.bet id) = before (.bet id))
    (hperiods : ∀ p, before (.rafflePeriod p) ≠ none → after (.rafflePeriod p) ≠ none) :
    RakesSound after := by
  constructor
  · intro id bet hbet
    exact h.rakes id bet (by rwa [hbets] at hbet)
  · intro id bet p hbet hp
    exact hperiods p (h.periods id bet p (by rwa [hbets] at hbet) hp)

theorem RakesSound.of_moves (h : RakesSound before) {id : Int} {bet : Bet}
    (hmoves : BetMoves id bet before after) (hrake : 0 ≤ bet.rake)
    (hperiod : ∀ p, bet.rakePeriodId = some p → before (.rafflePeriod p) ≠ none) :
    RakesSound after := by
  constructor
  · intro other row hrow
    rw [hmoves.bets] at hrow
    split at hrow
    · cases hrow
      exact hrake
    · exact h.rakes other row hrow
  · intro other row p hrow hp
    rw [ne_eq, hmoves.periods]
    rw [hmoves.bets] at hrow
    split at hrow
    · cases hrow
      exact hperiod p hp
    · exact h.periods other row p hrow hp

theorem BetWrites.periods {call : BetCall ω} {result : BetResult}
    (h : BetWrites call before result after) {p : Int} (hp : before (.rafflePeriod p) ≠ none) :
    after (.rafflePeriod p) ≠ none := by
  cases h with
  | existing => exact hp
  | placed happlies hamount hopen hrake hnew hfree hperiod hkeys hplaced hcharged hmoves =>
      rwa [ne_eq, hmoves.periods]
  | closed _ hbet hopen hclosed hdiscordId hkey hrake hperiod hkeys hplaced hmoves =>
      rwa [ne_eq, hmoves.periods]
  | unchanged => exact hp
  | newPeriod hnew => exact update_ne_none _ hp
  | periodStatus hrow => exact update_ne_none _ hp
  | other hkeeps => rwa [hkeeps.periods]

theorem RakesSound.step (h : RakesSound before) {call : BetCall ω} {result : BetResult}
    (hwrites : BetWrites call before result after) (hcall : call.Rakes) : RakesSound after := by
  have hkept := fun {p : Int} (hp : before (.rafflePeriod p) ≠ none) => hwrites.periods hp
  cases hwrites with
  | existing => exact h
  | placed happlies hamount hopen hrake hnew hfree hperiod hkeys hplaced hcharged hmoves =>
      exact h.of_moves hmoves (hrake hcall) hperiod
  | closed _ hbet hopen hclosed hdiscordId hkey hrake hperiod hkeys hplaced hmoves =>
      apply h.of_moves hmoves
      · rw [hrake]
        exact h.rakes _ _ hbet
      · intro p hp
        exact h.periods _ _ p hbet (hperiod ▸ hp)
  | unchanged => exact h
  | newPeriod hnew =>
      exact h.of_same (fun id => Function.update_of_ne (by simp) _ _) fun p => hkept
  | periodStatus hrow =>
      exact h.of_same (fun id => Function.update_of_ne (by simp) _ _) fun p => hkept
  | other hkeeps => exact h.of_same hkeeps.bets fun p => hkept

/-- The period is there, and its pool is what the bets say. -/
structure PoolTallies (period start : Int) (rows : LedgerRows) : Prop extends RakesSound rows where
  present : rows (.rafflePeriod period) ≠ none
  tallies : Tallies (pool period) (pooledOf period) start rows

theorem PoolTallies.step {period : Int} (h : PoolTallies period start before) {call : BetCall ω}
    {result : BetResult} (hwrites : BetWrites call before result after) (hcall : call.Rakes) :
    PoolTallies period start after where
  toRakesSound := h.toRakesSound.step hwrites hcall
  present := hwrites.periods h.present
  tallies := by
    apply h.tallies.step (follows_pool period) hwrites
    intro id row hnew _
    have hne : id ≠ period := by
      rintro rfl
      exact h.present hnew
    exact pool_congr (Function.update_of_ne (by simp [Ne.symm hne]) _ _)

/-- A new period has no bets. -/
theorem PoolTallies.of_new {period : Int} {row : RafflePeriod} (h : RakesSound before)
    (hnew : before (.rafflePeriod period) = none) :
    PoolTallies period row.poolAmount
      (Function.update before (.rafflePeriod period) (some row)) where
  toRakesSound := h.of_same (fun id => Function.update_of_ne (by simp) _ _)
    fun p hp => update_ne_none _ hp
  present := by simp
  tallies := by
    intro ids hids
    have hshare : ∀ id, pooledOf period
        (Function.update before (.rafflePeriod period) (some row) (.bet id)) = 0 := by
      intro id
      apply pooledOf_of_ne
      intro bet hbet hp
      rw [Function.update_of_ne (by simp)] at hbet
      exact h.periods id bet period hbet hp hnew
    rw [Finset.sum_congr rfl fun id _ => hshare id]
    simp [pool]

theorem PoolTallies.poolIs {τ : Type} [DecidableEq τ] {period : Int} {base : LedgerRows}
    {body : Env × BetCall ω → LedgerScript BetResult} {world : BetWorld τ ω}
    (hworld : world.Sound ledgerSchema base body) (h : PoolTallies period start world.committed) :
    PoolIs period start world := by
  obtain ⟨row, hrow⟩ := Option.ne_none_iff_exists'.mp h.present
  refine ⟨row, hrow, ?_⟩
  have hpool := h.tallies.of_sound hworld
  simp only [h.pooledOf_eq] at hpool
  rw [← hpool, pool, hrow]
  rfl

/-! ### Refunds pass the check -/

def poolCheck : DbError := .checkViolation "raffle_periods_pool_amount_check"

/-- An open bet's rake is still in the pool. -/
theorem PoolTallies.rake_le {period id : Int} {bet : Bet} {ids : Finset Int}
    (h : PoolTallies period start rows) (hstart : 0 ≤ start) (hids : CoversBets ids rows)
    (hbet : rows (.bet id) = some bet) (hopen : bet.status = .open)
    (hperiod : bet.rakePeriodId = some period) : bet.rake ≤ pool period rows := by
  have hmem : id ∈ ids := hids id (by rw [hbet]; exact Option.some_ne_none bet)
  have hshare : pooledOf period (rows (.bet id)) = bet.rake := by
    rw [h.pooledOf_eq, hbet]
    simp [rakeOf, hperiod, hopen]
  have hle : pooledOf period (rows (.bet id)) ≤ ∑ id ∈ ids, pooledOf period (rows (.bet id)) :=
    Finset.single_le_sum (f := fun id => pooledOf period (rows (.bet id)))
      (fun _ _ => le_max_right _ _) hmem
  rw [h.tallies ids hids]
  omega

theorem updateBalance_avoids (discordId : Int) (assign : BalanceRow → BalanceRow) :
    (updateBalance discordId assign).Avoids poolCheck := by
  apply avoids_bind (avoids_lock _)
  intro row
  split
  · trivial
  · apply avoids_bind (avoids_orThrow _) fun _ => avoids_store _ _
    unfold Balance.check
    repeat' split
    all_goals simp [poolCheck]

theorem auditLogInsertWithChain_avoids (env : Env) (p : AuditParams) :
    (auditLogInsertWithChain env p).Avoids poolCheck := by
  have hkey : env.chainKey ≠ .error poolCheck := by
    unfold Env.chainKey
    split <;> simp [poolCheck]
  have hnull : ∀ column : String, DbError.notNullViolation column ≠ poolCheck := by simp [poolCheck]
  apply avoids_bind (avoids_orThrow hkey)
  intro key
  apply avoids_bind (avoids_lock _)
  intro log
  apply avoids_bind (avoids_require (hnull _) _)
  intro actorId
  apply avoids_bind (avoids_require (hnull _) _)
  intro targetId
  apply avoids_bind (avoids_require (hnull _) _)
  intro action
  apply avoids_bind (avoids_require (hnull _) _)
  intro balanceBefore
  apply avoids_bind (avoids_require (hnull _) _)
  intro balanceAfter
  apply avoids_bind (avoids_require (hnull _) _)
  intro refType
  apply avoids_bind (avoids_see _)
  intro target
  exact avoids_bind (avoids_raiseIf _ (by simp [poolCheck])) fun _ => avoids_store _ _

theorem closeBet_avoids (env : Env) (id : Int) (bet : Bet) (status : BetStatus)
    (payout profit : Int) (outcome : Option Json) :
    (closeBet env id bet status payout profit outcome).Avoids poolCheck := by
  unfold closeBet
  split
  · trivial
  · exact fun heq => by simp [poolCheck] at heq

/-- A rake that the pool has can be taken out. -/
theorem addToPool_spares (c : Prop) [Decidable c] (period : Option Int) (amount : Int)
    (hpool : ∀ p row, period = some p → c → rows (.rafflePeriod p) = some row →
      0 ≤ row.poolAmount + amount) :
    (ifDo (c ∧ period ≠ none) (addToPool (period.getD 0) amount)).Spares ledgerSchema poolCheck
      (fun _ _ _ => True) known rows := by
  unfold ifDo
  split
  next hc =>
    obtain ⟨hc, hsome⟩ := hc
    obtain ⟨p, rfl⟩ := Option.ne_none_iff_exists'.mp hsome
    rw [addToPool, spares_bind, Option.getD_some]
    apply spares_of_post (x := lockPeriod p) (avoids_lock _)
    rw [post_lockPeriod]
    refine ⟨fun _ => trivial, ?_⟩
    intro row hrow known' hgrow hknown
    simp only
    split
    · rw [dif_pos (hpool p row rfl hc hrow)]
      exact fun _ => trivial
    · exact fun heq => by simp [poolCheck] at heq
  next => trivial

/-- A refund does not fail on the check of a pool. -/
theorem refundBet_spares {ids : Finset Int} (hids : CoversBets ids rows)
    (hpools : ∀ p, rows (.rafflePeriod p) ≠ none → ∃ start, 0 ≤ start ∧ PoolTallies p start rows)
    (env : Env) (pBetId : Option Int) (pReason : Option String) :
    (refundBet env pBetId pReason).Spares ledgerSchema poolCheck (fun _ _ _ => True) known
      rows := by
  cases pBetId with
  | none => exact fun heq => by simp [poolCheck] at heq
  | some id =>
      simp only [refundBet, selectBet]
      rw [spares_bind]
      apply spares_of_post (x := lockBet id) (avoids_lock _)
      rw [post_lockBet]
      refine ⟨fun _ heq => by simp [poolCheck] at heq, ?_⟩
      intro bet hbet known₁ hgrow₁ hknown₁ hrefs₁
      -- a refund of a refunded bet returns at once
      change Script.Spares _ _ _ (ite _ _ _) _ _
      split
      · trivial
      · rw [spares_bind]
        apply spares_of_post (avoids_raiseIf _ (by simp [poolCheck]))
        rw [post_raiseIf]
        intro hopen
        have hopen : bet.status = .open := not_not.mp hopen
        rw [spares_bind]
        apply spares_of_post (x := lockBalance bet.discordId) (avoids_lock _)
        rw [post_lockBalance]
        have hbalance : .balance bet.discordId ∈ known₁ := hrefs₁ (.inr (.inl rfl))
        refine ⟨fun hnone => (hnone hbalance).elim, ?_⟩
        intro row hrow known₂ hgrow₂ hknown₂
        rw [spares_bind]
        apply spares_of_post (updateBalance_avoids _ _)
        rw [post_updateBalance]
        refine ⟨fun hnone => (hnone hknown₂).elim, ?_⟩
        intro row' hrow' known₃ hgrow₃ hknown₃ new hnew
        rw [spares_bind]
        apply spares_of_post (avoids_ifDo _ (updateBalance_avoids _ _))
        apply post_updateTreasury _ fun _ => by rw [sub_eq_add_neg]
        intro known₄ mid hgrow₄ htreasury
        apply spares_bind_of_avoids
        · -- the pool of the period still holds the rake of the open bet
          apply addToPool_spares
          intro p period hp hrake hperiod
          rw [htreasury.frame _ (by simp), Function.update_of_ne (by simp)] at hperiod
          obtain ⟨start, hstart, htallies⟩ := hpools p (by rw [hperiod]; exact Option.some_ne_none _)
          have hle := htallies.rake_le hstart hids hbet hopen hp
          rw [pool, hperiod, Option.map_some, Option.getD_some] at hle
          omega
        · intro _
          apply avoids_bind (avoids_ifDo _ (updateBalance_avoids _ _))
          intro _
          apply avoids_bind (avoids_require (by simp [poolCheck]) _)
          intro betId
          exact avoids_bind (closeBet_avoids ..) fun _ => auditLogInsertWithChain_avoids _ _

/-! ### Any interleaving -/

/-- Every period has a start that is not negative. -/
structure PoolsSound (rows : LedgerRows) : Prop extends RakesSound rows where
  pools : ∀ p, rows (.rafflePeriod p) ≠ none → ∃ start, 0 ≤ start ∧ PoolTallies p start rows

/-- A period comes from an insertion. -/
theorem BetWrites.new_period {call : BetCall ω} {result : BetResult}
    (h : BetWrites call before result after) {p : Int} (hnone : before (.rafflePeriod p) = none)
    (hsome : after (.rafflePeriod p) ≠ none) :
    ∃ row, call = .insertPeriod p row ∧ result = none ∧
      after = Function.update before (.rafflePeriod p) (some row) := by
  cases h with
  | existing => exact (hsome hnone).elim
  | placed happlies hamount hopen hrake hnew hfree hperiod hkeys hplaced hcharged hmoves =>
      exact (hsome ((hmoves.periods p).mpr hnone)).elim
  | closed _ hbet hopen hclosed hdiscordId hkey hrake hperiod hkeys hplaced hmoves =>
      exact (hsome ((hmoves.periods p).mpr hnone)).elim
  | unchanged => exact (hsome hnone).elim
  | @newPeriod id row _ hnew =>
      by_cases hp : p = id
      · subst hp
        exact ⟨row, rfl, rfl, rfl⟩
      · rw [Function.update_of_ne (by simp [hp])] at hsome
        exact (hsome hnone).elim
  | @periodStatus id status row _ hrow =>
      have hne : p ≠ id := by
        rintro rfl
        cases hnone.symm.trans hrow
      rw [Function.update_of_ne (by simp [hne])] at hsome
      exact (hsome hnone).elim
  | other hkeeps =>
      rw [hkeeps.periods] at hsome
      exact (hsome hnone).elim

theorem BetWrites.inserted_period {p : Int} {row : RafflePeriod} {result : BetResult}
    (h : BetWrites (.insertPeriod p row : BetCall ω) before result after) :
    before (.rafflePeriod p) = none ∧
      after = Function.update before (.rafflePeriod p) (some row) := by
  cases h with
  | closed hcall => exact (hcall trivial).elim
  | unchanged hcall => exact (hcall trivial).elim
  | newPeriod hnew => exact ⟨hnew, rfl⟩

theorem PoolsSound.step (h : PoolsSound before) {call : BetCall ω} {result : BetResult}
    (hwrites : BetWrites call before result after) (hcall : call.Rakes) : PoolsSound after where
  toRakesSound := h.toRakesSound.step hwrites hcall
  pools := by
    intro p hp
    by_cases hold : before (.rafflePeriod p) = none
    · obtain ⟨row, -, -, rfl⟩ := hwrites.new_period hold hp
      exact ⟨row.poolAmount, row.poolAmount_nonneg, .of_new h.toRakesSound hold⟩
    · obtain ⟨start, hstart, htallies⟩ := h.pools p hold
      exact ⟨start, hstart, htallies.step hwrites hcall⟩

theorem rakesSound_of_no_bets (hbets : ∀ id, rows (.bet id) = none) : RakesSound rows where
  rakes := fun id bet hbet => by
    rw [hbets] at hbet
    cases hbet
  periods := fun id bet p hbet => by
    rw [hbets] at hbet
    cases hbet

theorem poolTallies_of_no_bets (hbets : ∀ id, rows (.bet id) = none) {period : Int}
    {row : RafflePeriod} (hrow : rows (.rafflePeriod period) = some row) :
    PoolTallies period row.poolAmount rows where
  toRakesSound := rakesSound_of_no_bets hbets
  present := by
    rw [hrow]
    exact Option.some_ne_none row
  tallies := by
    have hpool : pool period rows = row.poolAmount := by
      rw [pool, hrow]
      rfl
    rw [← hpool]
    exact tallies_of_no_bets hbets rfl

section Interleavings

variable {τ : Type} [DecidableEq τ] {other : Env → ω → LedgerScript Unit} {base : LedgerRows}
  {world : BetWorld τ ω} {moves : List (Move τ (Env × BetCall ω))}

theorem PoolTallies.run {period : Int} (h : PoolTallies period start world.committed)
    (hbody : Concurrent.Describes ledgerSchema base
      (fun call before result after => BetWrites call.2 before result after) (betBody other))
    (hsound : world.Sound ledgerSchema base (betBody other))
    (hruns : world.Runs fun call => call.2.Rakes)
    (hmoves : ∀ move ∈ moves, Concurrent.Admits (fun call => call.2.Rakes) move) :
    PoolTallies period start
      (Relational.run (Concurrent.step (betBody other)) world moves).committed := by
  have hkeep : ∀ (call : Env × BetCall ω) before result after, call.2.Rakes →
      Older ledgerSchema base before → BetWrites call.2 before result after →
      PoolTallies period start before → PoolTallies period start after :=
    fun call before result after hcall _ hwrites h => h.step hwrites hcall
  exact hsound.invariant_run hbody hruns hkeep h hmoves

theorem PoolsSound.run (h : PoolsSound world.committed)
    (hbody : Concurrent.Describes ledgerSchema base
      (fun call before result after => BetWrites call.2 before result after) (betBody other))
    (hsound : world.Sound ledgerSchema base (betBody other))
    (hruns : world.Runs fun call => call.2.Rakes)
    (hmoves : ∀ move ∈ moves, Concurrent.Admits (fun call => call.2.Rakes) move) :
    PoolsSound (Relational.run (Concurrent.step (betBody other)) world moves).committed := by
  have hkeep : ∀ (call : Env × BetCall ω) before result after, call.2.Rakes →
      Older ledgerSchema base before → BetWrites call.2 before result after →
      PoolsSound before → PoolsSound after :=
    fun call before result after hcall _ hwrites h => h.step hwrites hcall
  exact hsound.invariant_run hbody hruns hkeep h hmoves

/-- A run without an insertion of the period does not make it. -/
theorem no_period_run {p : Int}
    (hbody : Concurrent.Describes ledgerSchema base
      (fun call before result after => BetWrites call.2 before result after) (betBody other))
    (hsound : world.Sound ledgerSchema base (betBody other))
    (hnone : world.committed (.rafflePeriod p) = none)
    (hnew : ∀ before move, (before, move) ∈ steps (Concurrent.step (betBody other)) world moves →
      ∀ env row, before.commits move ≠ some ((env, .insertPeriod p row), none)) :
    (Relational.run (Concurrent.step (betBody other)) world moves).committed (.rafflePeriod p) =
      none := by
  have hstep : ∀ (w : BetWorld τ ω) (move : Move τ (Env × BetCall ω)),
      (∀ env row, w.commits move ≠ some ((env, .insertPeriod p row), none)) →
      w.Sound ledgerSchema base (betBody other) ∧ w.committed (.rafflePeriod p) = none →
      (w.step (betBody other) move).Sound ledgerSchema base (betBody other) ∧
        (w.step (betBody other) move).committed (.rafflePeriod p) = none := by
    intro w move hmove ⟨hsound, hnone⟩
    refine ⟨hsound.step hbody move, ?_⟩
    cases hcommits : w.commits move with
    | none => rwa [Concurrent.committed_step_of_commits_eq_none _ hcommits]
    | some taken =>
        obtain ⟨⟨env, call⟩, result⟩ := taken
        by_contra hsome
        obtain ⟨row, rfl, rfl, -⟩ :=
          (hsound.commits_acts hbody hcommits).new_period hnone hsome
        exact hmove env row hcommits
  exact (run_invariant_of_steps hstep ⟨hsound, hnone⟩ hnew).2

end Interleavings

/-- Starting without bets, with rakes that are not negative, each pool is what the
period started with and the rakes of its bets that were not refunded; a refund
never fails on the pool's check. -/
theorem pool_eq_rakes {τ : Type} [DecidableEq τ] {other : Env → ω → LedgerScript Unit}
    (hother : LeavesBets other) {keys : List LedgerKey} (hdb : Migrated keys rows)
    (hbets : ∀ id, rows (.bet id) = none) {moves : List (Move τ (Env × BetCall ω))}
    (hrakes : ∀ move ∈ moves, Concurrent.Admits (fun call => call.2.Rakes) move) :
    let world : BetWorld τ ω := run (Concurrent.step (betBody other)) (.quiet keys rows) moves
    let taken := steps (Concurrent.step (betBody other))
      (Concurrent.quiet keys rows : BetWorld τ ω) moves
    (∀ p row, rows (.rafflePeriod p) = some row → PoolIs p row.poolAmount world) ∧
    (∀ before move env p row, (before, move) ∈ taken →
      before.commits move = some ((env, .insertPeriod p row), none) →
      PoolIs p row.poolAmount world) ∧
    (∀ p, world.committed (.rafflePeriod p) ≠ none → rows (.rafflePeriod p) ≠ none ∨
      ∃ before move env row, (before, move) ∈ taken ∧
        before.commits move = some ((env, .insertPeriod p row), none)) ∧
    ∀ tx env pBetId pReason error,
      world.running tx = some ((env, .refundBet pBetId pReason), .fail error) →
      error ≠ poolCheck := by
  intro world taken
  have hbody := betBody_describes hother hdb.auditLog
  have hquiet : (Concurrent.quiet keys rows : BetWorld τ ω).Sound ledgerSchema rows
      (betBody other) := Concurrent.sound_quiet _ hdb.toConsistent
  have hruns : (Concurrent.quiet keys rows : BetWorld τ ω).Runs fun call => call.2.Rakes :=
    Concurrent.runs_quiet _ keys rows
  have hworld : world.Sound ledgerSchema rows (betBody other) :=
    Concurrent.sound_run hbody hdb.toConsistent moves
  have hstart : PoolsSound (Concurrent.quiet keys rows : BetWorld τ ω).committed :=
    { toRakesSound := rakesSound_of_no_bets hbets
      pools := fun p hp => by
        obtain ⟨row, hrow⟩ := Option.ne_none_iff_exists'.mp hp
        exact ⟨row.poolAmount, row.poolAmount_nonneg, poolTallies_of_no_bets hbets hrow⟩ }
  refine ⟨?_, ?_, ?_, ?_⟩
  · intro p row hrow
    exact ((poolTallies_of_no_bets hbets hrow).run hbody hquiet hruns hrakes).poolIs hworld
  · intro before move env p row hmem hcommits
    -- the pool is tallied from the commit that inserts the period, so the run is split there
    obtain ⟨first, rest, hsplit, hbeforeRun⟩ := exists_split_of_mem_steps _ hmem
    have hfirst : ∀ move ∈ first, Concurrent.Admits (fun call => call.2.Rakes) move :=
      fun move hmove => hrakes move (by rw [hsplit]; exact List.mem_append_left _ hmove)
    have hrest : ∀ later ∈ move :: rest, Concurrent.Admits (fun call => call.2.Rakes) later :=
      fun later hlater => hrakes later (by rw [hsplit]; exact List.mem_append_right _ hlater)
    have hbefore : (run (Concurrent.step (betBody other)) (Concurrent.quiet keys rows) first :
        BetWorld τ ω).Sound ledgerSchema rows (betBody other) :=
      Concurrent.sound_run hbody hdb.toConsistent first
    have hrunning := Concurrent.runs_run (betBody other) keys rows hfirst
    have hpools := hstart.run hbody hquiet hruns hfirst
    rw [hbeforeRun] at hbefore hrunning hpools
    obtain ⟨hnew, hafter⟩ := (hbefore.commits_acts hbody hcommits).inserted_period
    have hinserted : PoolTallies p row.poolAmount
        (Function.update before.committed (.rafflePeriod p) (some row)) :=
      .of_new hpools.toRakesSound hnew
    rw [← hafter] at hinserted
    have hend := hinserted.run hbody (hbefore.step hbody move)
      (hrunning.step _ (hrest move List.mem_cons_self))
      fun later hlater => hrest later (List.mem_cons_of_mem _ hlater)
    rw [← hbeforeRun, ← run_cons, ← run_append, ← hsplit] at hend
    exact hend.poolIs hworld
  · intro p hp
    by_contra hnew
    rw [not_or, not_not] at hnew
    apply hp
    apply no_period_run hbody hquiet hnew.1
    intro before move hmem env row hcommits
    exact hnew.2 ⟨before, move, env, row, hmem, hcommits⟩
  · intro tx env pBetId pReason error hrunning
    have hpools : PoolsSound world.committed := hstart.run hbody hquiet hruns hrakes
    apply hworld.spares hrunning
    apply spares_bind_of_avoids
    · exact refundBet_spares (coversBets_betIds hworld.committed_keys) hpools.pools env pBetId
        pReason
    · exact fun _ => trivial

theorem pool_eq_rakes_refunded :
    PoolIs 1 40 (betRun (placingMoves ++ closingMoves)) ∧
    pool 1 (betRun (placingMoves ++ closingMoves)).committed = 50 :=
  ⟨(pool_eq_rakes noOther_leavesBets betEntries_migrated betEntries_no_bets
    (by decide +kernel)).1 1
    ⟨40, .active, by decide, by decide⟩ rfl, by decide +kernel⟩

end DeathRoll.Interleaved
