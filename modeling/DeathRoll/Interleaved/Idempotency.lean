import DeathRoll.Interleaved.BetTotals

/-! # Retries of a bet

Calls of `luck.apply_bet` with one user and idempotency key, in any interleaving:
whichever places the bet, no other does, and one that looks for the bet after it
has been committed returns it. A call that has looked before, and found none, can
only fail then.
-/

namespace DeathRoll.Interleaved

open Relational Script

variable {ω : Type} {rows before after : LedgerRows} {u : Int} {k : String}

/-! ## One step -/

/-- 1 once there is a bet of the user with the key. -/
def keyTaken (u : Int) (k : String) (rows : LedgerRows) : Nat :=
  if rows (.betKey u k) = none then 0 else 1

/-- 1 for a call that returns `idempotent = FALSE` for the bet. -/
def firstReturn (u : Int) (k : String) : BetCall ω → BetResult → Nat
  | .applyBet _ _ params, some (_, false) => if params.Applies u k then 1 else 0
  | _, _ => 0

theorem firstReturn_none (call : BetCall ω) : firstReturn u k call none = 0 := by
  cases call <;> rfl

/-- Index rows name bets, and the audit log has one `bet_placed` row for each bet. -/
structure BetsRecorded (rows : LedgerRows) : Prop where
  keyed : ∀ u k id, rows (.betKey u k) = some id →
    ∃ bet, rows (.bet id) = some bet ∧ bet.discordId = u ∧ bet.idempotencyKey = k
  audited : ∀ id, placements id rows = if rows (.bet id) = none then 0 else 1

theorem BetParams.Applies.unique {params : BetParams} {u' : Int} {k' : String}
    (h : params.Applies u k) (h' : params.Applies u' k') : u = u' ∧ k = k' :=
  ⟨Option.some.inj (h.1.symm.trans h'.1), Option.some.inj (h.2.symm.trans h'.2)⟩

/-- A bet stays the bet of its key. -/
theorem BetWrites.key_kept {call : BetCall ω} {result : BetResult}
    (h : BetWrites call before result after) {id : Int} (hkey : before (.betKey u k) = some id) :
    after (.betKey u k) = some id := by
  cases h with
  | existing => exact hkey
  | placed happlies hamount hopen hrake hnew hfree hperiod hkeys hplaced hcharged hmoves =>
      rw [hkeys]
      split
      next heq =>
        obtain ⟨rfl, rfl⟩ := heq
        cases hfree.symm.trans hkey
      next => exact hkey
  | closed _ hbet hopen hclosed hdiscordId _ hrake hperiod hkeys hplaced hmoves => rwa [hkeys]
  | unchanged => exact hkey
  | newPeriod hnew => rwa [Function.update_of_ne (by simp)]
  | periodStatus hrow => rwa [Function.update_of_ne (by simp)]
  | other hkeeps => rwa [hkeeps.keys]

theorem BetsRecorded.step (h : BetsRecorded before) {call : BetCall ω} {result : BetResult}
    (hwrites : BetWrites call before result after) : BetsRecorded after := by
  have hsame : (∀ id, after (.bet id) = before (.bet id)) →
      (∀ u k, after (.betKey u k) = before (.betKey u k)) →
      (∀ id, placements id after = placements id before) → BetsRecorded after := by
    intro hbets hkeys hplaced
    refine ⟨fun u k id hkey => ?_, fun id => ?_⟩
    · rw [hkeys] at hkey
      rw [hbets]
      exact h.keyed u k id hkey
    · rw [hplaced, hbets]
      exact h.audited id
  cases hwrites with
  | existing => exact h
  | @placed id config params bet _ _ happlies hamount hopen hrake hnew hfree hperiod hkeys hplaced
      hcharged hmoves =>
      constructor
      · intro u k other hkey
        rw [hmoves.bets]
        rw [hkeys] at hkey
        split at hkey
        next heq =>
          cases hkey
          exact ⟨bet, if_pos rfl, heq.1.symm, heq.2.symm⟩
        next =>
          obtain ⟨row, hrow, hsame⟩ := h.keyed u k other hkey
          -- a key that is older than the bet points elsewhere
          have hne : other ≠ id := by
            rintro rfl
            cases hnew.symm.trans hrow
          rw [if_neg hne]
          exact ⟨row, hrow, hsame⟩
      · intro other
        rw [hplaced, h.audited, hmoves.bets]
        by_cases hother : other = id
        · subst hother
          simp [hnew]
        · simp [hother]
  | @closed _ id bet closed _ _ _ hbet hopen hclosed hdiscordId hkey hrake hperiod hkeys hplaced
      hmoves =>
      constructor
      · intro u k other hother
        rw [hkeys] at hother
        obtain ⟨row, hrow, hu, hk⟩ := h.keyed u k other hother
        rw [hmoves.bets]
        split
        next heq =>
          subst heq
          cases hbet.symm.trans hrow
          exact ⟨closed, rfl, hdiscordId.trans hu, hkey.trans hk⟩
        next => exact ⟨row, hrow, hu, hk⟩
      · intro other
        rw [hplaced, h.audited, hmoves.bets]
        by_cases hother : other = id
        · subst hother
          simp [hbet]
        · simp [hother]
  | unchanged => exact h
  | newPeriod hnew =>
      exact hsame (fun id => Function.update_of_ne (by simp) _ _)
        (fun u k => Function.update_of_ne (by simp) _ _)
        fun id => placements_congr (Function.update_of_ne (by simp) _ _)
  | periodStatus hrow =>
      exact hsame (fun id => Function.update_of_ne (by simp) _ _)
        (fun u k => Function.update_of_ne (by simp) _ _)
        fun id => placements_congr (Function.update_of_ne (by simp) _ _)
  | other hkeeps => exact hsame hkeeps.bets hkeeps.keys hkeeps.placements

/-- The call that returns `FALSE` is the one that takes the key. -/
theorem keyTaken_step {call : BetCall ω} {result : BetResult}
    (h : BetWrites call before result after) (u : Int) (k : String) :
    keyTaken u k after = keyTaken u k before + firstReturn u k call result := by
  have hsame : after (.betKey u k) = before (.betKey u k) → firstReturn u k call result = 0 →
      keyTaken u k after = keyTaken u k before + firstReturn u k call result := by
    intro hkey hfirst
    rw [keyTaken, keyTaken, hkey, hfirst, add_zero]
  cases h with
  | existing => exact hsame rfl rfl
  | @placed id config params bet _ _ happlies hamount hopen hrake hnew hfree hperiod hkeys hplaced
      hcharged hmoves =>
      by_cases hown : u = bet.discordId ∧ k = bet.idempotencyKey
      · obtain ⟨rfl, rfl⟩ := hown
        simp [keyTaken, hfree, hkeys, firstReturn, happlies]
      · apply hsame
        · rw [hkeys, if_neg hown]
        · exact if_neg fun hother => hown (hother.unique happlies)
  | closed _ hbet hopen hclosed hdiscordId hkey hrake hperiod hkeys =>
      exact hsame (hkeys u k) (firstReturn_none _)
  | unchanged => exact hsame rfl (firstReturn_none _)
  | newPeriod hnew => exact hsame (Function.update_of_ne (by simp) _ _) rfl
  | periodStatus hrow => exact hsame (Function.update_of_ne (by simp) _ _) rfl
  | other hkeeps => exact hsame (hkeeps.keys u k) rfl

/-- What a call about the bet returns and does: it finds the bet, or places and
charges it once. -/
structure Returns (u : Int) (k : String) (id : Int) (call : BetCall ω) (before : LedgerRows)
    (result : BetResult) (after : LedgerRows) : Prop where
  result : result = some (id, decide (before (.betKey u k) ≠ none))
  found : before (.betKey u k) ≠ none → after = before
  charged : before (.betKey u k) = none → ∃ nextId config params bet,
    call = .applyBet nextId config params ∧ after (.bet id) = some bet ∧
      params.pBetAmount = some bet.betAmount ∧
      balanceOf u after = balanceOf u before - bet.betAmount +
        if u = 0 then treasuryShare bet.commission bet.rake bet.rakePeriodId else 0

theorem BetCall.Applies.inserts {call : BetCall ω} (h : call.Applies u k) : call.Inserts := by
  cases call with
  | applyBet nextId config params => trivial
  | _ => cases h

theorem BetWrites.returns {call : BetCall ω} {result : BetResult}
    (h : BetWrites call before result after) (happlies : call.Applies u k) :
    ∃ id, after (.betKey u k) = some id ∧ Returns u k id call before result after := by
  cases h with
  | existing hfound hkey =>
      obtain ⟨rfl, rfl⟩ := BetParams.Applies.unique happlies hfound
      refine ⟨_, hkey, ?_, fun _ => rfl, fun hnone => ?_⟩
      · simp [hkey]
      · cases hnone.symm.trans hkey
  | @placed id config params bet _ _ hplacing hamount hopen hrake hnew hfree hperiod hkeys hplaced
      hcharged hmoves =>
      obtain ⟨rfl, rfl⟩ := BetParams.Applies.unique happlies hplacing
      refine ⟨id, by rw [hkeys, if_pos ⟨rfl, rfl⟩], ?_, fun hfound => (hfound hfree).elim, ?_⟩
      · simp [hfree]
      · intro _
        exact ⟨id, config, params, bet, rfl, by rw [hmoves.bets, if_pos rfl], hamount, hcharged⟩
  | closed hcall => exact (hcall happlies.inserts).elim
  | unchanged hcall => exact (hcall happlies.inserts).elim
  | newPeriod hnew => cases happlies
  | periodStatus hrow => cases happlies
  | other hkeeps => cases happlies

/-! ## The existence check -/

/-- The first statement looks for the bet. -/
theorem betBody_look {other : Env → ω → LedgerScript Unit} {env : Env} {call : BetCall ω}
    (happlies : call.Applies u k) :
    ∃ next, betBody other (env, call) = .look (fun s => s.rows (.betKey u k)) next ∧
      ∀ id, next (some id) = .done (some (id, true)) := by
  cases call with
  | applyBet nextId config params =>
      obtain ⟨pDiscordId, pGameName, pChannelId, pBetAmount, pSelection, pServerSeedHash,
        pClientSeed, pNonce, pIdempotencyKey, pBetUid⟩ := params
      obtain ⟨rfl, rfl⟩ : pDiscordId = some u ∧ pIdempotencyKey = some k := happlies
      exact ⟨_, rfl, fun _ => rfl⟩
  | _ => cases happlies

variable {τ : Type} [DecidableEq τ]

/-- A call about the bet has its existence check behind it, without having found the
bet, and goes on although the bet is there by now. -/
def GoesOn (other : Env → ω → LedgerScript Unit) (u : Int) (k : String) (world : BetWorld τ ω)
    (move : Move τ (Env × BetCall ω)) : Prop :=
  ∃ tx env call rest, move = .next tx ∧ world.running tx = some ((env, call), rest) ∧
    call.Applies u k ∧ world.committed (.betKey u k) ≠ none ∧ rest ≠ betBody other (env, call) ∧
    rest.raised = none ∧ ∀ result, rest ≠ .done result

/-- A call that makes its check, or has returned, does not raise. -/
theorem not_raises {other : Env → ω → LedgerScript Unit} {base : LedgerRows} {world : BetWorld τ ω}
    (hsound : world.Sound ledgerSchema base (betBody other))
    (hbody : Concurrent.Describes ledgerSchema base
      (fun call before result after => BetWrites call.2 before result after) (betBody other))
    {tx : τ} {env : Env} {call : BetCall ω} {rest : LedgerScript BetResult}
    (hrunning : world.running tx = some ((env, call), rest)) (happlies : call.Applies u k)
    (hkey : world.committed (.betKey u k) ≠ none) (hwaits : ¬ GoesOn other u k world (.next tx))
    (hraised : rest.raised = none) {later : LedgerScript BetResult}
    (hnext : (world.step (betBody other) (.next tx)).running tx = some ((env, call), later)) :
    later.raised = none := by
  by_cases hcheck : rest = betBody other (env, call)
  · subst hcheck
    obtain ⟨next, hbodyEq, hfound⟩ : ∃ next, betBody other (env, call) = _ ∧ _ :=
      betBody_look happlies
    obtain ⟨id, hid⟩ := Option.ne_none_iff_exists'.mp hkey
    obtain ⟨row, hrow, -⟩ := hsound.older hbody hrunning _ _ hid
    rw [hbodyEq] at hrunning
    simp only [Concurrent.step, hrunning, Concurrent.advance, hrow, hfound,
      Concurrent.running_proceed_self] at hnext
    cases hnext
    rfl
  · by_cases hdone : ∃ result, rest = .done result
    · obtain ⟨result, rfl⟩ := hdone
      simp only [Concurrent.step, hrunning, Concurrent.advance] at hnext
      cases hnext
      rfl
    · exact (hwaits ⟨tx, env, call, rest, rfl, hrunning, happlies, hkey, hcheck, hraised,
        fun result hresult => hdone ⟨result, hresult⟩⟩).elim

/-! ## Any interleaving -/

/-- 1 for a step that commits a call returning `idempotent = FALSE` for the bet. -/
def returnedFirst (u : Int) (k : String) (taken : BetWorld τ ω × Move τ (Env × BetCall ω)) : Nat :=
  match taken.1.commits taken.2 with
  | some ((_, call), result) => firstReturn u k call result
  | none => 0

theorem key_run {other : Env → ω → LedgerScript Unit} {base : LedgerRows} {world : BetWorld τ ω}
    (hsound : world.Sound ledgerSchema base (betBody other))
    (hbody : Concurrent.Describes ledgerSchema base
      (fun call before result after => BetWrites call.2 before result after) (betBody other))
    {id : Int} (hkey : world.committed (.betKey u k) = some id)
    (moves : List (Move τ (Env × BetCall ω))) :
    (run (Concurrent.step (betBody other)) world moves).committed (.betKey u k) = some id := by
  have hstep : ∀ (w : BetWorld τ ω) (move : Move τ (Env × BetCall ω)), True →
      w.Sound ledgerSchema base (betBody other) ∧ w.committed (.betKey u k) = some id →
      (w.step (betBody other) move).Sound ledgerSchema base (betBody other) ∧
        (w.step (betBody other) move).committed (.betKey u k) = some id := by
    intro w move _ ⟨hsound, hkey⟩
    refine ⟨hsound.step hbody move, ?_⟩
    cases hcommits : w.commits move with
    | none => rwa [Concurrent.committed_step_of_commits_eq_none _ hcommits]
    | some taken => exact (hsound.commits_acts hbody hcommits).key_kept hkey
  exact (run_invariant hstep ⟨hsound, hkey⟩ fun _ _ => trivial).2

/-- While no call goes on that has looked for the bet too early, retries are
idempotent: once the bet is committed each call that commits returns it, none
raises, exactly one returns `FALSE` and is charged, and there is one `bet_placed` row. -/
theorem retries_idempotent {other : Env → ω → LedgerScript Unit} (hother : LeavesBets other)
    {keys : List LedgerKey} (hdb : Migrated keys rows) (hrecorded : BetsRecorded rows)
    (moves : List (Move τ (Env × BetCall ω))) (u : Int) (k : String)
    (hwaits : ∀ before move, (before, move) ∈ steps (Concurrent.step (betBody other))
      (Concurrent.quiet keys rows : BetWorld τ ω) moves → ¬ GoesOn other u k before move)
    {id : Int}
    (hid : (run (Concurrent.step (betBody other)) (Concurrent.quiet keys rows : BetWorld τ ω)
      moves).committed (.betKey u k) = some id) :
    let world : BetWorld τ ω := run (Concurrent.step (betBody other)) (.quiet keys rows) moves
    let taken := steps (Concurrent.step (betBody other))
      (Concurrent.quiet keys rows : BetWorld τ ω) moves
    (∀ before move env call result, (before, move) ∈ taken →
      before.commits move = some ((env, call), result) → call.Applies u k →
      Returns u k id call before.committed result (before.step (betBody other) move).committed) ∧
    (∀ before tx env call rest later, (before, .next tx) ∈ taken →
      before.committed (.betKey u k) ≠ none → before.running tx = some ((env, call), rest) →
      call.Applies u k → rest.raised = none →
      (before.step (betBody other) (.next tx)).running tx = some ((env, call), later) →
      later.raised = none) ∧
    keyTaken u k rows + (taken.map (returnedFirst u k)).sum = 1 ∧
    placements id world.committed = 1 := by
  intro world taken
  have hbody := betBody_describes hother hdb.auditLog
  have hsoundAt : ∀ before move, (before, move) ∈ taken →
      before.Sound ledgerSchema rows (betBody other) := by
    intro before move hmem
    obtain ⟨first, rest, -, rfl⟩ := exists_split_of_mem_steps _ hmem
    exact Concurrent.sound_run hbody hdb.toConsistent first
  refine ⟨?_, ?_, ?_, ?_⟩
  · intro before move env call result hmem hcommits happlies
    have hsound := hsoundAt before move hmem
    obtain ⟨found, hfound, hreturns⟩ := (hsound.commits_acts hbody hcommits).returns happlies
    -- a key that is taken stays taken, so the bet that this call returns is the last one
    obtain ⟨first, rest, hsplit, hfirst⟩ := exists_split_of_mem_steps _ hmem
    have hend := key_run (hsound.step hbody move) hbody hfound rest
    rw [← hfirst, ← run_cons, ← run_append, ← hsplit, hid, Option.some.injEq] at hend
    exact hend ▸ hreturns
  · intro before tx env call rest later hmem hkey hrunning happlies hraised hnext
    exact not_raises (hsoundAt _ _ hmem) hbody hrunning happlies hkey (hwaits _ _ hmem) hraised
      hnext
  · have hstep : ∀ (w : BetWorld τ ω) (move : Move τ (Env × BetCall ω)), True →
        w.Sound ledgerSchema rows (betBody other) →
        (w.step (betBody other) move).Sound ledgerSchema rows (betBody other) :=
      fun w move _ hsound => hsound.step hbody move
    have hdelta : ∀ (w : BetWorld τ ω) (move : Move τ (Env × BetCall ω)), True →
        w.Sound ledgerSchema rows (betBody other) →
        keyTaken u k (w.step (betBody other) move).committed =
          keyTaken u k w.committed + returnedFirst u k (w, move) := by
      intro w move _ hsound
      unfold returnedFirst
      cases hcommits : w.commits move with
      | none => simp only [Concurrent.committed_step_of_commits_eq_none _ hcommits, add_zero]
      | some committed => exact keyTaken_step (hsound.commits_acts hbody hcommits) u k
    -- the key is taken once, and each call that takes it returns `FALSE`
    have hsum := run_accounts (fun w : BetWorld τ ω => keyTaken u k w.committed)
      (fun w move => returnedFirst u k (w, move)) hstep hdelta
      (Concurrent.sound_quiet _ hdb.toConsistent) (fun _ _ => trivial : ∀ move ∈ moves, True)
    have hend : keyTaken u k world.committed = 1 := by
      rw [keyTaken, if_neg (by rw [hid]; exact Option.some_ne_none id)]
    rw [← hend]
    exact hsum.symm
  · have hkeep : ∀ (call : Env × BetCall ω) before result after, Older ledgerSchema rows before →
        BetWrites call.2 before result after → BetsRecorded before → BetsRecorded after :=
      fun _ _ _ _ _ hwrites h => h.step hwrites
    have hend : BetsRecorded world.committed :=
      Concurrent.committed_run hbody hkeep hdb.toConsistent hrecorded moves
    obtain ⟨bet, hbet, -⟩ := hend.keyed u k id hid
    rw [hend.audited, if_neg (by rw [hbet]; exact Option.some_ne_none bet)]

theorem betEntries_recorded : BetsRecorded (rowsOf betEntries) where
  keyed := fun u k id hkey => by simp [betEntries, rowsOf] at hkey
  audited := fun id => by
    rw [betEntries_no_bets, if_pos rfl]
    rfl

/-- A bet, and a retry that starts after its commit. -/
def retryMoves : List (Move Nat (Env × BetCall Empty)) :=
  [[.start 0 (.plain, .applyBet 1 betConfig (betParams 7 "first" "bet-1"))], manyNexts 0,
   [.commit 0]].flatten

def retry : List (Move Nat (Env × BetCall Empty)) :=
  [.start 1 (.plain, .applyBet 2 betConfig (betParams 7 "first" "bet-1")), .next 1, .commit 1]

theorem retries_idempotent_retried :
    placements 1 (betRun (retryMoves ++ retry)).committed = 1 ∧
    balanceOf 7 (betRun (retryMoves ++ retry)).committed = 4000 := by
  have hfirst : ∀ taken ∈ steps (Concurrent.step (betBody noOther)) betStart retryMoves,
      taken.1.committed (.betKey 7 "first") = none := by
    decide +kernel
  have hidle : (betRun retryMoves).running 1 = none := by
    rw [← Option.isNone_iff_eq_none]
    decide +kernel
  have hwaits : ∀ before move, (before, move) ∈ steps (Concurrent.step (betBody noOther)) betStart
      (retryMoves ++ retry) → ¬ GoesOn noOther 7 "first" before move := by
    intro before move hmem
    rintro ⟨tx, env, call, rest, rfl, hrunning, happlies, hkey, hcheck, -, -⟩
    rw [steps_append, List.mem_append] at hmem
    rcases hmem with hmem | hmem
    · exact hkey (hfirst _ hmem)
    · simp only [retry, steps_cons, steps_nil, List.mem_cons, Prod.mk.injEq, reduceCtorEq,
        Move.next.injEq, and_false, false_or, or_false, List.not_mem_nil] at hmem
      obtain ⟨rfl, rfl⟩ := hmem
      -- the retry is at its first statement
      simp only [Concurrent.step, hidle, Concurrent.running_proceed_self] at hrunning
      cases hrunning
      exact hcheck rfl
  have hid : (betRun (retryMoves ++ retry)).committed (.betKey 7 "first") = some 1 := by
    decide +kernel
  exact ⟨(retries_idempotent noOther_leavesBets betEntries_migrated betEntries_recorded
    (retryMoves ++ retry) 7 "first" hwaits hid).2.2.2, by decide +kernel⟩

/-- Two calls with equal arguments look for the bet; one places it, the other goes on. -/
def raceMoves : List (Move Nat (Env × BetCall Empty)) :=
  [[.start 0 (.plain, .applyBet 1 betConfig (betParams 7 "first" "bet-1")),
    .start 1 (.plain, .applyBet 2 betConfig (betParams 7 "first" "bet-1")), .next 0, .next 1],
   manyNexts 0, [.commit 0], manyNexts 1].flatten

/-- The second call raises instead of returning the bet. -/
theorem apply_bet_raises_after_race :
    (betRun raceMoves).committed (.betKey 7 "first") = some 1 ∧
    ((betRun raceMoves).running 1).bind (fun flight => flight.2.raised) =
      some (.uniqueViolation "bets_bet_uid_key") := by
  decide +kernel

end DeathRoll.Interleaved
