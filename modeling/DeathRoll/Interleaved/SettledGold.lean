import DeathRoll.Interleaved.Settlements
import DeathRoll.Ledger.Conservation
import DeathRoll.Ledger.Locked

/-! # Gold under interleaved settlements

What holds of a run of settling calls holds of their interleavings: the committed
rows gain the confirmed deposits, and lose what the confirmed withdraws delivered and
what was swept. What is locked is what the pending withdraws and the open bets hold.
-/

namespace DeathRoll.Interleaved

open Relational

/-! ## Sums over rows -/

/-- What a row says, summed over all rows that a scan meets. -/
def overRows {τ : Type} (measure : (r : LedgerKey) → Option r.Row → Int) (w : SettlementWorld τ) :
    Int :=
  ∑ r ∈ w.keys.toFinset, measure r (w.committed r)

/-- The gold of an account, free and locked. -/
def accountGold : (r : LedgerKey) → Option r.Row → Int
  | .balance _, row => (row.map fun row => row.balance + row.lockedBalance).getD 0
  | _, _ => 0

/-- The gold of a raffle pool. -/
def poolGold : (r : LedgerKey) → Option r.Row → Int
  | .rafflePeriod _, row => (row.map RafflePeriod.poolAmount).getD 0
  | _, _ => 0

/-- What a deposit ticket brought into the bank. -/
def depositedGold : (r : LedgerKey) → Option r.Row → Int
  | .deposit _, row => (row.map Ledger.depositedBy).getD 0
  | _, _ => 0

/-- What a withdraw ticket took out of the bank. -/
def deliveredGold : (r : LedgerKey) → Option r.Row → Int
  | .withdraw _, row => (row.map Ledger.deliveredBy).getD 0
  | _, _ => 0

/-- What a withdraw ticket holds of a user's locked balance. -/
def heldByWithdraw (user : Int) : (r : LedgerKey) → Option r.Row → Int
  | .withdraw _, row => (row.map fun ticket => ticket.heldFrom user).getD 0
  | _, _ => 0

/-- What a bet holds of a user's locked balance. -/
def heldByBet (user : Int) : (r : LedgerKey) → Option r.Row → Int
  | .bet _, row => (row.map fun bet => bet.heldFrom user).getD 0
  | _, _ => 0

/-- Balances, locked balances and raffle pools. -/
def goldIn {τ : Type} (w : SettlementWorld τ) : Int := overRows accountGold w + overRows poolGold w

/-- The locked balance of a user. -/
def lockedOf (discordId : Int) (rows : LedgerRows) : Int :=
  ((rows (.balance discordId)).map fun row => row.lockedBalance).getD 0

section Sums

variable {κ ρ τ : Type} [DecidableEq κ] {w : SettlementWorld τ} {s : Database}

/-- A sum over the rows of one table is a column sum. -/
theorem overRows_eq {t : Table κ ρ} {key : κ → LedgerKey} (hkey : Function.Injective key)
    {measure : (r : LedgerKey) → Option r.Row → Int} {f : κ → ρ → Int}
    (hkeys : ∀ k, t.get? k ≠ none → key k ∈ w.keys)
    (hterm : ∀ k, measure (key k) (w.committed (key k)) = t.term f k)
    (hrest : ∀ r row, r ∉ Set.range key → measure r row = 0) :
    overRows measure w = t.sum f := by
  rw [overRows, ← Finset.sum_preimage key w.keys.toFinset hkey.injOn
    (fun r => measure r (w.committed r)) fun r _ hr => hrest r _ hr,
    Table.sum_eq_finset_sum t f (w.keys.toFinset.preimage key hkey.injOn)]
  · exact Finset.sum_congr rfl fun k _ => hterm k
  · intro k hk
    rw [Finset.mem_preimage, List.mem_toFinset]
    exact hkeys k fun hnone => Table.get?_eq_none.mp hnone hk

/-- The rows stand for the database, and a scan meets all of them. -/
structure Scanned (w : SettlementWorld τ) (s : Database) : Prop where
  stands : Stands w.committed s
  keys : ∀ r, w.committed r ≠ none → r ∈ w.keys

theorem Scanned.gold (h : Scanned w s) : goldIn w = s.gold := by
  have haccounts : overRows accountGold w =
      s.balances.sum fun _ row => row.balance + row.lockedBalance := by
    apply overRows_eq (fun _ _ heq => LedgerKey.balance.inj heq)
    · intro id hid
      exact h.keys _ (h.stands.balance id ▸ hid)
    · intro id
      rw [Table.term, h.stands.balance]
      cases w.committed (.balance id) <;> rfl
    · intro r row hr
      cases r with
      | balance id => exact (hr ⟨id, rfl⟩).elim
      | _ => rfl
  have hpools : overRows poolGold w = s.rafflePeriods.sum fun _ row => row.poolAmount := by
    apply overRows_eq (fun _ _ heq => LedgerKey.rafflePeriod.inj heq)
    · intro id hid
      exact h.keys _ (h.stands.period id ▸ hid)
    · intro id
      rw [Table.term, h.stands.period]
      cases w.committed (.rafflePeriod id) <;> rfl
    · intro r row hr
      cases r with
      | rafflePeriod id => exact (hr ⟨id, rfl⟩).elim
      | _ => rfl
  rw [goldIn, haccounts, hpools, Database.gold]

theorem Scanned.deposited (h : Scanned w s) :
    overRows depositedGold w = Ledger.deposited s.depositTickets := by
  apply overRows_eq (fun _ _ heq => LedgerKey.deposit.inj heq)
  · intro uid huid
    exact h.keys _ (h.stands.deposit uid ▸ huid)
  · intro uid
    rw [Table.term, h.stands.deposit]
    cases w.committed (.deposit uid) <;> rfl
  · intro r row hr
    cases r with
    | deposit uid => exact (hr ⟨uid, rfl⟩).elim
    | _ => rfl

/-- A measure of withdraw tickets. -/
theorem Scanned.withdraws (h : Scanned w s) {measure : (r : LedgerKey) → Option r.Row → Int}
    {f : WithdrawTicket → Int}
    (hterm : ∀ uid row, measure (.withdraw uid) row = (row.map f).getD 0)
    (hrest : ∀ r row, (∀ uid, r ≠ .withdraw uid) → measure r row = 0) :
    overRows measure w = s.withdrawTickets.sum fun _ ticket => f ticket := by
  apply overRows_eq (fun _ _ heq => LedgerKey.withdraw.inj heq)
  · intro uid huid
    exact h.keys _ (h.stands.withdraw uid ▸ huid)
  · intro uid
    rw [Table.term, h.stands.withdraw, hterm]
    cases w.committed (.withdraw uid) <;> rfl
  · intro r row hr
    exact hrest r row fun uid heq => hr ⟨uid, heq.symm⟩

theorem Scanned.delivered (h : Scanned w s) :
    overRows deliveredGold w = Ledger.delivered s.withdrawTickets := by
  apply h.withdraws (fun _ _ => rfl)
  intro r row hr
  cases r with
  | withdraw uid => exact (hr uid rfl).elim
  | _ => rfl

theorem Scanned.held (h : Scanned w s) (user : Int) :
    overRows (heldByWithdraw user) w + overRows (heldByBet user) w = s.escrow user := by
  have hwithdraws : overRows (heldByWithdraw user) w =
      s.withdrawTickets.sum fun _ ticket => ticket.heldFrom user := by
    apply h.withdraws (fun _ _ => rfl)
    intro r row hr
    cases r with
    | withdraw uid => exact (hr uid rfl).elim
    | _ => rfl
  have hbets : overRows (heldByBet user) w = s.bets.sum fun _ bet => bet.heldFrom user := by
    apply overRows_eq (fun _ _ heq => LedgerKey.bet.inj heq)
    · intro id hid
      exact h.keys _ (h.stands.bet id ▸ hid)
    · intro id
      rw [Table.term, h.stands.bet]
      cases w.committed (.bet id) <;> rfl
    · intro r row hr
      cases r with
      | bet id => exact (hr ⟨id, rfl⟩).elim
      | _ => rfl
  rw [hwithdraws, hbets, Database.escrow]

theorem Scanned.locked (h : Scanned w s) (user : Int) :
    lockedOf user w.committed = s.lockedOf user := by
  rw [lockedOf, Database.lockedOf, Database.lockedBalance?, Table.select_some, h.stands.balance]

end Sums

/-! ## Interleavings -/

section Interleavings

variable {τ : Type} [DecidableEq τ] {s₀ : Database}

omit [DecidableEq τ] in
theorem scanned_start (s : Database) : Scanned (settlementStart s : SettlementWorld τ) s :=
  ⟨stands_rowOf s, fun _ => mem_keysOf⟩

theorem scanned_run (hs : s₀.EmptyLedger) (commands : List Command)
    (moves : List (Move τ (Env × SettlementCall))) :
    let s := run step s₀ commands
    Scanned (settlementRun s moves) (run step s (settlements s moves)) := by
  obtain ⟨hsound, hstands, -⟩ := settlementRun_replays hs commands moves
  exact ⟨hstands, hsound.committed_keys⟩

/-- What the calls that committed swept out of the treasury. -/
def sweptIn (s : Database) (moves : List (Move τ (Env × SettlementCall))) : Int :=
  ((Concurrent.returned settlementBody (settlementStart s) moves).map fun taken =>
    taken.1.2.call.swept).sum

/-- A run of calls that return sweeps what each of them sweeps. -/
theorem sum_sweptBy {s : Database} {calls : List (Env × SettlementCall)}
    (hok : ∀ taken ∈ steps step s (calls.map inOnePiece), taken.2.Returns taken.1) :
    ((steps step s (calls.map inOnePiece)).map sweptBy).sum =
      (calls.map fun call => call.2.call.swept).sum := by
  induction calls generalizing s with
  | nil => rfl
  | cons call rest ih =>
      simp only [List.map_cons, steps_cons, List.mem_cons, forall_eq_or_imp] at hok ⊢
      have hcall : sweptBy (s, inOnePiece call) = call.2.call.swept := if_pos hok.1
      rw [List.sum_cons, List.sum_cons, ih hok.2, hcall]

theorem balanced_step (s : Database) (command : Command)
    (hcall : ∃ env call, command = .call env call) (hs : s.WellFormed ∧ s.ledger.Balanced) :
    (step s command).WellFormed ∧ (step s command).ledger.Balanced := by
  obtain ⟨env, call, rfl⟩ := hcall
  exact ⟨wellFormed_step hs.1 _, (unexplained_step hs.1 hs.2 env call).1⟩

/-- Over a run of calls the unexplained gold falls by what is swept. -/
theorem unexplained_run {s : Database} (hs : s.WellFormed) (hbalanced : s.ledger.Balanced)
    {commands : List Command} (hcalls : ∀ command ∈ commands, ∃ env call, command = .call env call) :
    -(run step s commands).unexplained =
      -s.unexplained + ((steps step s commands).map sweptBy).sum := by
  refine run_accounts (fun s => -s.unexplained) (fun s command => sweptBy (s, command))
    balanced_step ?_ ⟨hs, hbalanced⟩ hcalls
  rintro s _ ⟨env, call, rfl⟩ hs
  exact (unexplained_step hs.1 hs.2 env call).2

/-- Under any interleaving of settling calls, the gold in the committed rows grows by the
deposits that are confirmed and shrinks by what confirmed withdraws delivered and what was
swept; nothing is lost between two calls and nothing counted twice. -/
theorem settlements_conserve (hs : s₀.EmptyLedger) (commands : List Command)
    (hbalanced : (run step s₀ commands).ledger.Balanced)
    (moves : List (Move τ (Env × SettlementCall))) :
    let s := run step s₀ commands
    let start : SettlementWorld τ := settlementStart s
    let world := settlementRun s moves
    goldIn world = goldIn start + (overRows depositedGold world - overRows depositedGold start) -
      (overRows deliveredGold world - overRows deliveredGold start) - sweptIn s moves := by
  intro s start world
  have hstart : Scanned start s := scanned_start s
  have hworld : Scanned world (run step s (settlements s moves)) := scanned_run hs commands moves
  have hok := (settlementRun_replays hs commands moves).2.2
  have hcalls : settlements s moves = ((Concurrent.returned settlementBody start moves).map
      Prod.fst).map inOnePiece := by
    rw [List.map_map]
    rfl
  have hswept : ((steps step s (settlements s moves)).map sweptBy).sum = sweptIn s moves := by
    rw [hcalls] at hok ⊢
    rw [sum_sweptBy hok, List.map_map]
    rfl
  have hwell : s.WellFormed := wellFormed_run hs.wellFormed commands
  have hrun : -(run step s (settlements s moves)).unexplained = -s.unexplained + sweptIn s moves := by
    rw [← hswept]
    apply unexplained_run hwell hbalanced
    intro command hcommand
    rw [hcalls] at hcommand
    obtain ⟨call, -, rfl⟩ := List.mem_map.mp hcommand
    exact ⟨call.1, call.2.call, rfl⟩
  simp only [Database.unexplained, ← hstart.gold, ← hstart.deposited, ← hstart.delivered,
    ← hworld.gold, ← hworld.deposited, ← hworld.delivered] at hrun
  omega

theorem claimedRun_balanced : (run step .seeded claimedRun).ledger.Balanced := by
  have hseeded : Database.seeded.ledger.Balanced :=
    ⟨seeded_commission, by decide, fun _ _ hbet _ => by simp [Database.ledger, Database.seeded] at hbet⟩
  exact (run_invariant balanced_step ⟨seeded_empty.wellFormed, hseeded⟩ (by simp [claimedRun])).2

theorem settlements_conserve_confirming :
    goldIn (settlementRun (run step .seeded claimedRun) settlingMoves) =
        goldIn (settlementStart (run step .seeded claimedRun) : SettlementWorld Nat) +
          (overRows depositedGold (settlementRun (run step .seeded claimedRun) settlingMoves) -
            overRows depositedGold
              (settlementStart (run step .seeded claimedRun) : SettlementWorld Nat)) -
          (overRows deliveredGold (settlementRun (run step .seeded claimedRun) settlingMoves) -
            overRows deliveredGold
              (settlementStart (run step .seeded claimedRun) : SettlementWorld Nat)) -
          sweptIn (run step .seeded claimedRun) settlingMoves ∧
      sweptIn (run step .seeded claimedRun) settlingMoves = 50 :=
  ⟨settlements_conserve seeded_empty claimedRun claimedRun_balanced settlingMoves,
    by decide +kernel⟩

/-- Under any interleaving of settling calls, the locked balance of every user is what
the user's pending withdraws and open bets hold. -/
theorem settlements_locked (hs : s₀.EmptyLedger) (commands : List Command)
    (moves : List (Move τ (Env × SettlementCall))) (user : Int) :
    let world := settlementRun (run step s₀ commands) moves
    lockedOf user world.committed =
      overRows (heldByWithdraw user) world + overRows (heldByBet user) world := by
  intro world
  have hworld := scanned_run hs commands moves
  have hexplained := explained_run hs (commands ++ settlements (run step s₀ commands) moves)
  rw [run_append] at hexplained
  rw [hworld.locked, hworld.held, hexplained.locked]

theorem settlements_locked_confirming :
    lockedOf 9 (settlementRun (run step .seeded claimedRun) settlingMoves).committed =
      overRows (heldByWithdraw 9) (settlementRun (run step .seeded claimedRun) settlingMoves) +
        overRows (heldByBet 9) (settlementRun (run step .seeded claimedRun) settlingMoves) :=
  settlements_locked seeded_empty claimedRun settlingMoves 9

end Interleavings

end DeathRoll.Interleaved
