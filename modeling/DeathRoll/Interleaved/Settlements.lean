import DeathRoll.Interleaved.MatchedPayments
import DeathRoll.Ledger.Owners

/-! # Settlements are serializable

The calls that settle something already there: they confirm, cancel, claim or
release a ticket, close a dispute, move treasury gold, or close a bet. Under any
interleaving of their statements the committed rows are those of the calls that
committed, run one after the other in the order of their commits. The calls that
create a ticket, a dispute or a bet draw their number from a sequence before they
commit, and are left out.
-/

namespace DeathRoll.Interleaved

open Relational Script

/-- The calls that settle something, with their arguments. -/
inductive SettlementCall where
  | confirmDeposit (pTicketUid : Option String) (pCashierId : Option Int)
  | cancelDeposit (pTicketUid : Option String) (pActorId : Option Int) (pReason : Option String)
  | confirmWithdraw (pTicketUid : Option String) (pCashierId : Option Int)
  | cancelWithdraw (pTicketUid : Option String) (pActorId : Option Int) (pReason : Option String)
  | claimTicket (pTicketType pTicketUid : Option String) (pCashierId : Option Int)
  | releaseTicket (pTicketType pTicketUid : Option String) (pActorId : Option Int)
  | resolveDispute (pDisputeId : Option Int) (pAction : Option String)
      (pAmount pResolvedBy : Option Int)
  | rejectDispute (pDisputeId : Option Int) (pReason : Option String) (pAdminId : Option Int)
  | treasurySweep (pAmount pAdminId : Option Int) (pReason : Option String)
  | treasuryWithdrawToUser (pAmount pTargetUser pAdminId : Option Int) (pReason : Option String)
  | resolveBet (pBetId : Option Int) (pStatus : Option String) (pPayout : Option Int)
      (pOutcome : Option Json)
  | refundBet (pBetId : Option Int) (pReason : Option String)
  | cashoutMines (pBetId : Option Int) (pMultiplier : Option Numeric)

/-- The call of a ledger function in one piece. -/
def SettlementCall.call : SettlementCall → Call
  | .confirmDeposit u c => .confirmDeposit u c
  | .cancelDeposit u a r => .cancelDeposit u a r
  | .confirmWithdraw u c => .confirmWithdraw u c
  | .cancelWithdraw u a r => .cancelWithdraw u a r
  | .claimTicket t u c => .claimTicket t u c
  | .releaseTicket t u a => .releaseTicket t u a
  | .resolveDispute d c a b => .resolveDispute d c a b
  | .rejectDispute d r a => .rejectDispute d r a
  | .treasurySweep a d r => .treasurySweep a d r
  | .treasuryWithdrawToUser a t d r => .treasuryWithdrawToUser a t d r
  | .resolveBet b s p o => .resolveBet b s p o
  | .refundBet b r => .refundBet b r
  | .cashoutMines b m => .cashoutMines b m

/-- The same statement by statement, its result dropped. -/
def settlementBody : Env × SettlementCall → LedgerScript Unit
  | (env, .confirmDeposit u c) => do
      let _ ← confirmDeposit env u c
  | (env, .cancelDeposit u a r) => cancelDeposit env u a r
  | (env, .confirmWithdraw u c) => do
      let _ ← confirmWithdraw env u c
  | (env, .cancelWithdraw u a r) => do
      let _ ← cancelWithdraw env u a r
  | (env, .claimTicket t u c) => claimTicket env t u c
  | (env, .releaseTicket t u a) => releaseTicket env t u a
  | (env, .resolveDispute d c a b) => resolveDispute env d c a b
  | (env, .rejectDispute d r a) => rejectDispute env d r a
  | (env, .treasurySweep a d r) => do
      let _ ← treasurySweep env a d r
  | (env, .treasuryWithdrawToUser a t d r) => treasuryWithdrawToUser env a t d r
  | (env, .resolveBet b s p o) => resolveBet env b s p o
  | (env, .refundBet b r) => refundBet env b r
  | (env, .cashoutMines b m) => cashoutMines env b m

variable {known : Set LedgerKey} {rows : LedgerRows} {s : Database}

/-- Both drop their results. -/
theorem matchedBy_results {α β : Type} {x : LedgerScript α} {t : LedgerTx β}
    (h : x.MatchedBy settlementSchema Standing t known rows s) :
    (do let _ ← x : LedgerScript Unit).MatchedBy settlementSchema Standing
      (do let _ ← t) known rows s := by
  apply matchedBy_bind
  exact h.mono fun _ _ _ _ _ hstands => hstands

theorem settlementBody_matched (h : Stands rows s) (hlog : .auditLog ∈ known)
    (htreasury : .balance 0 ∈ known) (env : Env) (call : SettlementCall) :
    (settlementBody (env, call)).MatchedBy settlementSchema Standing (callBody env call.call) known
      rows s := by
  cases call with
  | confirmDeposit u c => exact matchedBy_results (confirmDeposit_matched h hlog env u c)
  | cancelDeposit u a r => exact cancelDeposit_matched h hlog env u a r
  | confirmWithdraw u c => exact matchedBy_results (confirmWithdraw_matched h hlog htreasury env u c)
  | cancelWithdraw u a r => exact matchedBy_results (cancelWithdraw_matched h hlog env u a r)
  | claimTicket t u c => exact claimTicket_matched h hlog env t u c
  | releaseTicket t u a => exact releaseTicket_matched h hlog env t u a
  | resolveDispute d c a b => exact resolveDispute_matched h hlog env d c a b
  | rejectDispute d r a => exact rejectDispute_matched h hlog env d r a
  | treasurySweep a d r => exact matchedBy_results (treasurySweep_matched h hlog env a d r)
  | treasuryWithdrawToUser a t d r =>
      exact treasuryWithdrawToUser_matched h hlog env a t d r fun _ _ _ _ _ hstands => hstands
  | resolveBet b s p o => exact resolveBet_matched h hlog htreasury env b s p o
  | refundBet b r => exact refundBet_matched h hlog htreasury env b r
  | cashoutMines b m => exact cashoutMines_matched h hlog htreasury env b m

/-- The call in one piece. -/
def inOnePiece (call : Env × SettlementCall) : Command := .call call.1 call.2.call

/-- Where the statements of a call commit, the call in one piece returns. -/
theorem settlementBody_describes {base : LedgerRows} (hlog : .auditLog ∈ present base)
    (htreasury : .balance 0 ∈ present base) (h : Stands rows s) :
    Concurrent.DescribesAt settlementSchema base rows
      (fun call _ after => (inOnePiece call).Returns s ∧ Stands after (step s (inOnePiece call)))
      settlementBody := by
  rintro ⟨env, call⟩
  refine Post.mono (settlementBody_matched h hlog htreasury env call) fun _ _ after hwp => ?_
  obtain ⟨_, s', hrun, hafter⟩ := Tx.exists_outcome_of_wp hwp
  have hexec : call.call.exec env s = (.ok (), s') := by
    rw [Call.exec, transact, hrun]
  refine ⟨congrArg Prod.fst hexec, ?_⟩
  rw [inOnePiece, step, hexec]
  exact hafter

/-! ## From any reachable database -/

/-- The keys of all rows. -/
def keysOf (s : Database) : List LedgerKey :=
  .auditLog :: s.users.keys.map .user ++ s.balances.keys.map .balance ++
    s.depositTickets.keys.map .deposit ++ s.withdrawTickets.keys.map .withdraw ++
    s.disputes.keys.map .dispute ++ s.cashierCharacters.keys.map .cashierCharacter ++
    s.cashierStats.keys.map .cashierStats ++ s.bets.keys.map .bet ++
    s.rafflePeriods.keys.map .rafflePeriod ++ s.raffleTickets.keys.map .raffleTicket ++
    s.rateLimitEntries.keys.map .rateLimitEntry

theorem stands_rowOf (s : Database) : Stands (rowOf s) s :=
  fun r => r.agrees_refl (rowOf s r)

theorem mem_keys_of_get? {κ ρ : Type} [DecidableEq κ] {t : Table κ ρ} {k : κ}
    (hget : t.get? k ≠ none) : k ∈ t.keys := by
  by_contra hnot
  exact hget (Table.get?_eq_none.mpr hnot)

theorem mem_keysOf {r : LedgerKey} (hr : rowOf s r ≠ none) : r ∈ keysOf s := by
  cases r with
  | user id => simp [keysOf, mem_keys_of_get? hr]
  | balance id => simp [keysOf, mem_keys_of_get? hr]
  | auditLog => simp [keysOf]
  | deposit uid => simp [keysOf, mem_keys_of_get? hr]
  | withdraw uid => simp [keysOf, mem_keys_of_get? hr]
  | dispute id => simp [keysOf, mem_keys_of_get? hr]
  | cashierCharacter key => simp [keysOf, mem_keys_of_get? hr]
  | cashierStats id => simp [keysOf, mem_keys_of_get? hr]
  | bet id => simp [keysOf, mem_keys_of_get? hr]
  | rafflePeriod id => simp [keysOf, mem_keys_of_get? hr]
  | raffleTicket id => simp [keysOf, mem_keys_of_get? hr]
  | rateLimitEntry key => simp [keysOf, mem_keys_of_get? hr]
  | _ => exact (hr rfl).elim

/-- Every row refers to rows that are there. -/
theorem consistent_rowOf (hs : s.WellFormed) (howners : s.OwnersHeld)
    (hdisputes : s.DisputesRegistered) :
    Concurrent.Consistent settlementSchema (keysOf s) (rowOf s) where
  keys := fun _ => mem_keysOf
  closed := by
    intro r row hrow
    cases r with
    | withdraw uid =>
        rintro k rfl
        exact howners.withdraws uid row hrow
    | dispute id =>
        rintro k rfl
        obtain ⟨ticket, hticket, -⟩ := hdisputes id row hrow
        cases htype : row.ticketType with
        | deposit =>
            rw [htype] at hticket
            intro hnone
            cases hticket.symm.trans hnone
        | withdraw =>
            rw [htype] at hticket
            obtain ⟨withdraw, hwithdraw, -⟩ := Option.map_eq_some_iff.mp hticket
            intro hnone
            cases hwithdraw.symm.trans hnone
    | bet id =>
        rintro k (rfl | rfl | ⟨period, hperiod, rfl⟩)
        · exact hs.registered _ (howners.bets id row hrow)
        · exact howners.bets id row hrow
        · exact hs.period id row period hrow hperiod
    | _ => exact Set.empty_subset _

/-- Any number of settling calls, interleaved statement by statement. -/
abbrev SettlementWorld (τ : Type) := Concurrent τ (Env × SettlementCall) LedgerKey.Row DbError Unit

/-- The rows of a database, with no call in flight. -/
abbrev settlementStart {τ : Type} (s : Database) : SettlementWorld τ := .quiet (keysOf s) (rowOf s)

section Serial

variable {τ : Type} [DecidableEq τ]

def settlementRun (s : Database) (moves : List (Move τ (Env × SettlementCall))) :
    SettlementWorld τ :=
  run (Concurrent.step settlementBody) (settlementStart s) moves

/-- The calls that committed, in this order, each in one piece. -/
def settlements (s : Database) (moves : List (Move τ (Env × SettlementCall))) : List Command :=
  Concurrent.replayed inOnePiece settlementBody (settlementStart s) moves

theorem settlementRun_replays {s₀ : Database} (hs : s₀.EmptyLedger) (commands : List Command)
    (moves : List (Move τ (Env × SettlementCall))) :
    let s := run step s₀ commands
    (settlementRun s moves).Sound settlementSchema (rowOf s) settlementBody ∧
      Stands (settlementRun s moves).committed (run step s (settlements s moves)) ∧
        ∀ taken ∈ steps step s (settlements s moves), taken.2.Returns taken.1 := by
  intro s
  have hwell : s.WellFormed := wellFormed_run hs.wellFormed commands
  have hconsistent : Concurrent.Consistent settlementSchema (keysOf s) (rowOf s) :=
    consistent_rowOf hwell (ownersHeld_run hs commands) (disputesRegistered_run hs commands)
  have hlog : LedgerKey.auditLog ∈ present (rowOf s) := Option.some_ne_none _
  have hbody : ∀ before t, Older settlementSchema (rowOf s) before → Stands before t →
      Concurrent.DescribesAt settlementSchema (rowOf s) before
        (fun call _ after => Command.Returns t (inOnePiece call) ∧
          Stands after (step t (inOnePiece call))) settlementBody :=
    fun before t _ ht => settlementBody_describes hlog hwell.treasury ht
  exact Concurrent.sound_replay hbody hconsistent (stands_rowOf s) moves

/-- Settlements are serializable: under any interleaving of settling calls that starts
from a reachable database, the calls that commit all return when they are run one after
the other in the order of their commits, and the committed rows stand for what this run
leaves. -/
theorem settlements_serial {s₀ : Database} (hs : s₀.EmptyLedger) (commands : List Command)
    (moves : List (Move τ (Env × SettlementCall))) :
    let s := run step s₀ commands
    Stands (settlementRun s moves).committed (run step s (settlements s moves)) ∧
      ∀ taken ∈ steps step s (settlements s moves), taken.2.Returns taken.1 :=
  (settlementRun_replays hs commands moves).2

end Serial

/-- A deposit and a withdraw of user 9, both claimed by cashier 7. -/
def claimedRun : List Command :=
  [.call .plain (.addCashierCharacter (some 7) (some "Bank") (some "Realm") (some "EU")
     (some "Horde")),
   .call .plain (.createDepositTicket (some 9) (some "Char") (some "Realm") (some "EU")
     (some "Horde") (some 9000) (some 1) (some 2)),
   .call .plain (.claimTicket (some "deposit") (some "deposit-1") (some 7)),
   .call .plain (.confirmDeposit (some "deposit-1") (some 7)),
   .call .plain (.createDepositTicket (some 9) (some "Char") (some "Realm") (some "EU")
     (some "Horde") (some 5000) (some 3) (some 2)),
   .call .plain (.createWithdrawTicket (some 9) (some "Char") (some "Realm") (some "EU")
     (some "Horde") (some 4000) (some 4) (some 2)),
   .call .plain (.claimTicket (some "deposit") (some "deposit-3") (some 7)),
   .call .plain (.claimTicket (some "withdraw") (some "withdraw-1") (some 7))]

/-- The deposit and the withdraw are confirmed at once, and the fee is swept as soon as
it is there. -/
def settlingMoves : List (Move Nat (Env × SettlementCall)) :=
  [[.start 0 (.plain, .confirmDeposit (some "deposit-3") (some 7)),
    .start 1 (.plain, .confirmWithdraw (some "withdraw-1") (some 7))],
   (List.replicate 30 [.next 1, .next 0]).flatten,
   [.commit 1, .start 2 (.plain, .treasurySweep (some 50) (some 0) none)],
   (List.replicate 30 [.next 2, .next 0]).flatten, [.commit 2], List.replicate 30 (.next 0),
   [.commit 0]].flatten

theorem settlements_serial_confirming :
    Stands (settlementRun (run step .seeded claimedRun) settlingMoves).committed
      (run step (run step .seeded claimedRun)
        (settlements (run step .seeded claimedRun) settlingMoves)) ∧
    (settlements (run step .seeded claimedRun) settlingMoves).length = 3 :=
  ⟨(settlements_serial seeded_empty claimedRun settlingMoves).1, by decide +kernel⟩

end DeathRoll.Interleaved
