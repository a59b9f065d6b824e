import DeathRoll.Interleaved.Rows
import DeathRoll.Relational.Deadlock

/-! # The lock order of the ledger functions

Each function as the row locks it takes, in the order of its statements, until it
commits; a function that raises or returns early ends before the last of them. What
a function reads of the rows it finds (the owner of a ticket or a bet, the amounts
that decide on an `UPDATE`) is a parameter. Of the foreign keys only those into
`core.users` can make anybody wait, since no other row they refer to is ever locked
`FOR UPDATE`; the first rows of a new account are left out. The row of
`core.audit_chain_state` goes with the audit log, as elsewhere.
-/

namespace DeathRoll.LockOrder

open Relational Locking Interleaved

abbrev LedgerLock := RowRequest LedgerKey

/-! ## The locks of each function -/

/-- `SELECT ... FOR UPDATE`. -/
def forUpdate (r : LedgerKey) : LedgerLock := ⟨r, .forUpdate⟩

/-- `UPDATE`, or the `DO UPDATE` of an upsert. -/
def update (r : LedgerKey) : LedgerLock := ⟨r, .noKeyUpdate⟩

/-- The check of a foreign key. -/
def keyShare (r : LedgerKey) : LedgerLock := ⟨r, .keyShare⟩

def auditLogInsertWithChain (pTargetId : Int) : List LedgerLock :=
  [forUpdate .auditLog, keyShare (.user pTargetId), update .auditLog]

def createWithdrawTicket (pDiscordId : Int) : List LedgerLock :=
  [forUpdate (.user pDiscordId), forUpdate (.balance pDiscordId), update (.balance pDiscordId),
    keyShare (.user pDiscordId)] ++ auditLogInsertWithChain pDiscordId

def confirmWithdraw (pTicketUid : String) (pCashierId discordId : Int) : List LedgerLock :=
  [forUpdate (.withdraw pTicketUid), forUpdate (.balance discordId), update (.balance discordId),
    forUpdate (.balance 0), update (.balance 0), update (.withdraw pTicketUid)] ++
    auditLogInsertWithChain discordId ++ auditLogInsertWithChain 0 ++
    [update (.cashierStats pCashierId)]

/-- `claimedBy` is the cashier whose statistics count the cancellation, if they do. -/
def cancelWithdraw (pTicketUid : String) (discordId : Int) (claimedBy : Option Int) :
    List LedgerLock :=
  [forUpdate (.withdraw pTicketUid), forUpdate (.balance discordId), update (.balance discordId),
    update (.withdraw pTicketUid)] ++ auditLogInsertWithChain discordId ++
    (claimedBy.map fun cashier => update (.cashierStats cashier)).toList

def confirmDeposit (pTicketUid : String) (pCashierId discordId : Int) : List LedgerLock :=
  [forUpdate (.deposit pTicketUid), forUpdate (.balance discordId), update (.balance discordId),
    update (.deposit pTicketUid)] ++ auditLogInsertWithChain discordId ++
    [update (.cashierStats pCashierId)]

def treasurySweep : List LedgerLock :=
  [forUpdate (.balance 0), update (.balance 0)] ++ auditLogInsertWithChain 0

def treasuryWithdrawToUser (pTargetUser : Int) : List LedgerLock :=
  if pTargetUser = 0 then []
  else
    [forUpdate (.balance 0), forUpdate (.balance pTargetUser), update (.balance 0),
      update (.balance pTargetUser)] ++
      auditLogInsertWithChain 0 ++ auditLogInsertWithChain pTargetUser

def resolveDispute (pDisputeId : Int) (pAction : String) (vUser : Int) : List LedgerLock :=
  if pAction = "partial-refund" ∨ pAction = "refund-full" then
    if vUser = 0 then [forUpdate (.dispute pDisputeId)]
    else
      [forUpdate (.dispute pDisputeId)] ++ treasuryWithdrawToUser vUser ++
        [update (.dispute pDisputeId)] ++ auditLogInsertWithChain vUser
  else
    [forUpdate (.dispute pDisputeId), update (.dispute pDisputeId)] ++ auditLogInsertWithChain vUser

/-- The commission goes to the treasury, the rake to the raffle period or else to the
treasury. -/
def shareLocks (commission rake : Int) (period : Option Int) : List LedgerLock :=
  (if commission > 0 then [update (.balance 0)] else []) ++
    if rake > 0 then [update (period.elim (.balance 0) .rafflePeriod)] else []

def applyBet (pDiscordId vCommission vRake : Int) (vActivePeriod : Option Int) :
    List LedgerLock :=
  [forUpdate (.balance pDiscordId), update (.balance pDiscordId)] ++
    shareLocks vCommission vRake vActivePeriod ++ [keyShare (.user pDiscordId)] ++
    auditLogInsertWithChain pDiscordId

def resolveBet (pBetId discordId vTreasuryDelta : Int) : List LedgerLock :=
  [forUpdate (.bet pBetId), forUpdate (.balance discordId), update (.balance discordId)] ++
    (if vTreasuryDelta ≠ 0 then [update (.balance 0)] else []) ++ [update (.bet pBetId)] ++
    auditLogInsertWithChain discordId

def refundBet (pBetId discordId commission rake : Int) (rakePeriodId : Option Int) :
    List LedgerLock :=
  [forUpdate (.bet pBetId), forUpdate (.balance discordId), update (.balance discordId)] ++
    shareLocks commission rake rakePeriodId ++ [update (.bet pBetId)] ++
    auditLogInsertWithChain discordId

def banUser (pUserId : Int) : List LedgerLock :=
  if pUserId = 0 then []
  else [forUpdate (.user pUserId), update (.user pUserId)] ++ auditLogInsertWithChain pUserId

inductive LedgerCall where
  | createWithdrawTicket (pDiscordId : Int)
  | confirmWithdraw (pTicketUid : String) (pCashierId discordId : Int)
  | cancelWithdraw (pTicketUid : String) (discordId : Int) (claimedBy : Option Int)
  | confirmDeposit (pTicketUid : String) (pCashierId discordId : Int)
  | treasurySweep
  | treasuryWithdrawToUser (pTargetUser : Int)
  | resolveDispute (pDisputeId : Int) (pAction : String) (vUser : Int)
  | applyBet (pDiscordId vCommission vRake : Int) (vActivePeriod : Option Int)
  | resolveBet (pBetId discordId vTreasuryDelta : Int)
  | refundBet (pBetId discordId commission rake : Int) (rakePeriodId : Option Int)
  | banUser (pUserId : Int)
deriving DecidableEq

def LedgerCall.locks : LedgerCall → List LedgerLock
  | .createWithdrawTicket pDiscordId => LockOrder.createWithdrawTicket pDiscordId
  | .confirmWithdraw pTicketUid pCashierId discordId =>
      LockOrder.confirmWithdraw pTicketUid pCashierId discordId
  | .cancelWithdraw pTicketUid discordId claimedBy =>
      LockOrder.cancelWithdraw pTicketUid discordId claimedBy
  | .confirmDeposit pTicketUid pCashierId discordId =>
      LockOrder.confirmDeposit pTicketUid pCashierId discordId
  | .treasurySweep => LockOrder.treasurySweep
  | .treasuryWithdrawToUser pTargetUser => LockOrder.treasuryWithdrawToUser pTargetUser
  | .resolveDispute pDisputeId pAction vUser => LockOrder.resolveDispute pDisputeId pAction vUser
  | .applyBet pDiscordId vCommission vRake vActivePeriod =>
      LockOrder.applyBet pDiscordId vCommission vRake vActivePeriod
  | .resolveBet pBetId discordId vTreasuryDelta =>
      LockOrder.resolveBet pBetId discordId vTreasuryDelta
  | .refundBet pBetId discordId commission rake rakePeriodId =>
      LockOrder.refundBet pBetId discordId commission rake rakePeriodId
  | .banUser pUserId => LockOrder.banUser pUserId

/-! ## The order -/

/-- Tickets, disputes, bets and accounts come first, then the player's balance, the
treasury's, the raffle period, the audit chain and the statistics. -/
def place : LedgerKey → ℕ
  | .balance discordId => if discordId = 0 then 2 else 1
  | .rafflePeriod _ => 3
  | .auditLog => 4
  | .cashierStats _ => 5
  | _ => 0

def rows (locks : List LedgerLock) : List LedgerKey := locks.map RowRequest.row

/-- A lock is held already, asked for in place, one of a payout from the treasury, or the
check of a foreign key into `core.users`. -/
def Asks (held : List LedgerLock) (lock : LedgerLock) : Prop :=
  RowRequest.Covered held lock ∨
    (lock.mode ≠ .keyShare ∧ ∀ own ∈ held, place own.row < place lock.row) ∨
    (lock.mode ≠ .keyShare ∧ place lock.row = 1 ∧ .balance 0 ∈ rows held ∧
      ∀ own ∈ held, place own.row = 0 ∨ place own.row = 2) ∨
    ∃ discordId, lock = keyShare (.user discordId) ∧
      (.auditLog ∈ rows held ∨ .balance discordId ∈ rows held) ∧ ∀ own ∈ held, place own.row < 5

section Order

attribute [local simp] Asks RowRequest.Covered RowMode.Covers InOrder forUpdate update keyShare
  place rows

theorem asks_audit {held : List LedgerLock} (pTargetId : Int)
    (h : (∀ own ∈ held, place own.row < 4) ∨
      (forUpdate .auditLog ∈ held ∧ ∀ own ∈ held, place own.row < 5)) :
    InOrder Asks held (auditLogInsertWithChain pTargetId) := by
  have hcheck : ∀ own ∈ forUpdate .auditLog :: held, place own.row < 5 := by
    rcases h with h | ⟨-, h⟩
    · simpa using fun own hown => (h own hown).trans (by omega)
    · simpa using h
  refine ⟨?_, .inr (.inr (.inr ⟨pTargetId, rfl, .inl (by simp), hcheck⟩)), by simp⟩
  rcases h with h | ⟨hlog, -⟩
  · exact .inr (.inl ⟨by simp, h⟩)
  · exact .inl ⟨_, hlog, rfl, trivial⟩

theorem asks_treasuryWithdrawToUser {held : List LedgerLock} (pTargetUser : Int)
    (h : ∀ own ∈ held, place own.row = 0) :
    InOrder Asks held (treasuryWithdrawToUser pTargetUser) := by
  unfold treasuryWithdrawToUser
  split
  · trivial
  next huser =>
    have hfour : ∀ own ∈ held, place own.row < 4 := fun own hown => by rw [h own hown]; omega
    have hfive : ∀ own ∈ held, place own.row < 5 := fun own hown => by rw [h own hown]; omega
    simp only [place] at h hfour hfive
    simp only [inOrder_append]
    refine ⟨⟨?_, asks_audit _ (.inl ?_)⟩, asks_audit _ (.inr ?_)⟩
    · simp +contextual [huser, h]
    · simpa [huser] using hfour
    · simpa [huser, auditLogInsertWithChain] using hfive

/-- The treasury's balance is yet to come, or held already, and nothing beyond it is. -/
def AtBalance (held : List LedgerLock) : Prop :=
  (∀ own ∈ held, place own.row < 2) ∨
    (RowRequest.Covered held (update (.balance 0)) ∧ ∀ own ∈ held, place own.row < 3)

theorem AtBalance.place_lt {held : List LedgerLock} (h : AtBalance held) :
    ∀ own ∈ held, place own.row < 3 := by
  rcases h with h | ⟨-, h⟩
  · exact fun own hown => (h own hown).trans (by omega)
  · exact h

theorem AtBalance.treasury {held : List LedgerLock} (h : AtBalance held) :
    AtBalance (update (.balance 0) :: held) :=
  .inr ⟨by simp, List.forall_mem_cons.mpr ⟨by simp, h.place_lt⟩⟩

theorem atBalance_cons (discordId : Int) {held : List LedgerLock}
    (h : ∀ own ∈ held, place own.row = 0) :
    AtBalance (update (.balance discordId) :: forUpdate (.balance discordId) :: held) := by
  have hlt : ∀ n > 0, ∀ own ∈ held, place own.row < n := fun n hn own hown => by
    rw [h own hown]
    exact hn
  by_cases hzero : discordId = 0
  · subst hzero
    exact .inr ⟨by simp, by simpa using hlt 3 (by omega)⟩
  · exact .inl (by simpa [hzero] using hlt 2 (by omega))

theorem asks_balance {held : List LedgerLock} (discordId : Int)
    (h : ∀ own ∈ held, place own.row = 0) :
    InOrder Asks held [forUpdate (.balance discordId), update (.balance discordId)] := by
  refine ⟨.inr (.inl ⟨by simp, ?_⟩), by simp⟩
  intro own hown
  rw [h own hown]
  by_cases hzero : discordId = 0 <;> simp [hzero]

theorem asks_treasury {held : List LedgerLock} (h : AtBalance held) :
    Asks held (update (.balance 0)) := by
  rcases h with h | ⟨htreasury, -⟩
  · exact .inr (.inl ⟨by simp, h⟩)
  · exact .inl htreasury

theorem asks_shareLocks {held : List LedgerLock} (h : AtBalance held) (commission rake : Int)
    (period : Option Int) : InOrder Asks held (shareLocks commission rake period) := by
  have hrake : ∀ {held : List LedgerLock}, AtBalance held → InOrder Asks held
      (if rake > 0 then [update (period.elim (.balance 0) .rafflePeriod)] else []) := by
    intro held h
    split
    · cases period with
      | none => exact ⟨asks_treasury h, trivial⟩
      | some id => exact ⟨.inr (.inl ⟨by simp, h.place_lt⟩), trivial⟩
    · trivial
  rw [shareLocks, inOrder_append]
  split
  · exact ⟨⟨asks_treasury h, trivial⟩, hrake h.treasury⟩
  · exact ⟨trivial, hrake h⟩

theorem place_shareLocks {commission rake : Int} {period : Option Int} {own : LedgerLock}
    (h : own ∈ shareLocks commission rake period) : place own.row < 4 := by
  rw [shareLocks, List.mem_append] at h
  rcases h with h | h
  · split at h
    · rw [List.mem_singleton.mp h]
      simp
    · cases h
  · split at h
    · rw [List.mem_singleton.mp h]
      cases period <;> simp
    · cases h

/-- A bet is placed or closed: the player's balance, the shares of the treasury and the
pool, one more lock and the audit chain. -/
theorem asks_wager {held shares : List LedgerLock} {lock : LedgerLock} (discordId : Int)
    (h : ∀ own ∈ held, place own.row = 0)
    (hshares : InOrder Asks (update (.balance discordId) :: forUpdate (.balance discordId) :: held)
      shares)
    (hplace : ∀ own ∈ shares, place own.row < 4)
    (hlock : lock = keyShare (.user discordId) ∨
      RowRequest.Covered held lock ∧ place lock.row = 0) :
    InOrder Asks held ([forUpdate (.balance discordId), update (.balance discordId)] ++ shares ++
      [lock] ++ auditLogInsertWithChain discordId) := by
  -- everything that is taken before the audit chain stands in front of it
  have hbefore : ∀ own ∈ shares.reverse ++
      ([forUpdate (.balance discordId), update (.balance discordId)].reverse ++ held),
      place own.row < 4 := by
    intro own hown
    rcases List.mem_append.mp hown with hown | hown
    · exact hplace own (List.mem_reverse.mp hown)
    · exact ((atBalance_cons discordId h).place_lt own hown).trans (by omega)
  have hlast : place lock.row < 4 := by
    rcases hlock with rfl | ⟨-, hlock⟩
    · simp
    · rw [hlock]
      omega
  rw [inOrder_append, inOrder_append, inOrder_append, List.reverse_append, List.append_assoc]
  refine ⟨⟨⟨asks_balance discordId h, hshares⟩, ?_, trivial⟩, asks_audit _ (.inl ?_)⟩
  · rcases hlock with rfl | ⟨⟨own, hown, hcovers⟩, -⟩
    · exact .inr (.inr (.inr ⟨discordId, rfl, .inr (by simp),
        fun own hown => (hbefore own hown).trans (by omega)⟩))
    · exact .inl ⟨own, by simp [hown], hcovers⟩
  · intro own hown
    have hmem : own = lock ∨ own ∈ shares.reverse ++
        ([forUpdate (.balance discordId), update (.balance discordId)].reverse ++ held) := by
      simpa [or_assoc] using hown
    rcases hmem with rfl | hown
    · exact hlast
    · exact hbefore own hown

theorem asks_locks (call : LedgerCall) : InOrder Asks [] call.locks := by
  cases call with
  | createWithdrawTicket pDiscordId =>
      simp only [LedgerCall.locks, createWithdrawTicket, inOrder_append]
      refine ⟨?_, asks_audit _ (.inl ?_)⟩
      all_goals by_cases hzero : pDiscordId = 0 <;> simp [hzero]
  | confirmWithdraw pTicketUid pCashierId discordId =>
      simp only [LedgerCall.locks, confirmWithdraw, inOrder_append]
      refine ⟨⟨⟨?_, asks_audit _ (.inl ?_)⟩, asks_audit _ (.inr ?_)⟩, ?_⟩
      all_goals by_cases hzero : discordId = 0 <;> simp [hzero, auditLogInsertWithChain]
  | cancelWithdraw pTicketUid discordId claimedBy =>
      simp only [LedgerCall.locks, cancelWithdraw, inOrder_append]
      refine ⟨⟨?_, asks_audit _ (.inl ?_)⟩, ?_⟩
      all_goals
        by_cases hzero : discordId = 0 <;> cases claimedBy <;>
          simp [hzero, auditLogInsertWithChain]
  | confirmDeposit pTicketUid pCashierId discordId =>
      simp only [LedgerCall.locks, confirmDeposit, inOrder_append]
      refine ⟨⟨?_, asks_audit _ (.inl ?_)⟩, ?_⟩
      all_goals by_cases hzero : discordId = 0 <;> simp [hzero, auditLogInsertWithChain]
  | treasurySweep =>
      simp only [LedgerCall.locks, treasurySweep, inOrder_append]
      refine ⟨by simp, asks_audit _ (.inl (by simp))⟩
  | treasuryWithdrawToUser pTargetUser =>
      exact asks_treasuryWithdrawToUser pTargetUser (by simp)
  | resolveDispute pDisputeId pAction vUser =>
      simp only [LedgerCall.locks, resolveDispute]
      split
      · split
        · simp
        next huser =>
          simp only [inOrder_append]
          refine ⟨⟨⟨by simp, asks_treasuryWithdrawToUser vUser (by simp)⟩, by simp⟩,
            asks_audit _ (.inr ?_)⟩
          simp [treasuryWithdrawToUser, auditLogInsertWithChain, huser]
      · simp only [inOrder_append]
        exact ⟨by simp, asks_audit _ (.inl (by simp))⟩
  | applyBet pDiscordId vCommission vRake vActivePeriod =>
      exact asks_wager pDiscordId (by simp)
        (asks_shareLocks (atBalance_cons pDiscordId (by simp)) _ _ _)
        (fun _ => place_shareLocks) (.inl rfl)
  | resolveBet pBetId discordId vTreasuryDelta =>
      refine ⟨by simp, asks_wager discordId (by simp) ?_ ?_ (.inr (by simp))⟩
      · split
        · exact ⟨asks_treasury (atBalance_cons discordId (by simp)), trivial⟩
        · trivial
      · split <;> simp
  | refundBet pBetId discordId commission rake rakePeriodId =>
      exact ⟨by simp, asks_wager discordId (by simp)
        (asks_shareLocks (atBalance_cons discordId (by simp)) _ _ _)
        (fun _ => place_shareLocks) (.inr (by simp))⟩
  | banUser pUserId =>
      simp only [LedgerCall.locks, banUser]
      split
      · trivial
      · simp only [inOrder_append]
        exact ⟨by simp, asks_audit _ (.inl (by simp))⟩

/-- Who locks an account's row goes on to its balance and to the audit chain only. -/
theorem closes_locks {call : LedgerCall} {discordId : Int}
    (h : forUpdate (.user discordId) ∈ call.locks) :
    .auditLog ∈ rows call.locks ∧ ∀ lock ∈ call.locks,
      lock.row = .user discordId ∨ lock.row = .balance discordId ∨ lock.row = .auditLog := by
  cases call with
  | createWithdrawTicket pDiscordId =>
      have huser : discordId = pDiscordId := by
        simpa [LedgerCall.locks, createWithdrawTicket, auditLogInsertWithChain] using h
      simp [LedgerCall.locks, createWithdrawTicket, auditLogInsertWithChain, huser]
  | banUser pUserId =>
      by_cases hzero : pUserId = 0
      · simp [LedgerCall.locks, banUser, hzero] at h
      · have huser : discordId = pUserId := by
          simpa [LedgerCall.locks, banUser, auditLogInsertWithChain, hzero] using h
        simp [LedgerCall.locks, banUser, auditLogInsertWithChain, huser, hzero]
  | resolveDispute pDisputeId pAction vUser =>
      exfalso
      simp only [LedgerCall.locks, resolveDispute, treasuryWithdrawToUser] at h
      split at h
      · split at h <;> simp [auditLogInsertWithChain] at h
      · simp [auditLogInsertWithChain] at h
  | _ =>
      exfalso
      simp only [LedgerCall.locks] at h
      simp [confirmWithdraw, cancelWithdraw, confirmDeposit, treasurySweep,
        treasuryWithdrawToUser, applyBet, resolveBet, refundBet, shareLocks,
        auditLogInsertWithChain] at h

/-- Only the checks of foreign keys are shared locks. -/
theorem shares_locks (call : LedgerCall) : ∀ lock ∈ call.locks, lock.mode = .keyShare →
    ∃ discordId, lock.row = .user discordId := by
  cases call with
  | resolveDispute pDisputeId pAction vUser =>
      simp only [LedgerCall.locks, resolveDispute, treasuryWithdrawToUser]
      split
      · split <;> simp [auditLogInsertWithChain]
      · simp [auditLogInsertWithChain]
  | treasuryWithdrawToUser pTargetUser =>
      simp only [LedgerCall.locks, treasuryWithdrawToUser]
      split <;> simp [auditLogInsertWithChain]
  | banUser pUserId =>
      simp only [LedgerCall.locks, banUser]
      split <;> simp [auditLogInsertWithChain]
  | _ =>
      simp only [LedgerCall.locks]
      simp +contextual [createWithdrawTicket, confirmWithdraw, cancelWithdraw, confirmDeposit,
        treasurySweep, applyBet, resolveBet, refundBet, shareLocks, auditLogInsertWithChain, or_imp]

end Order

/-! ## Calls in flight -/

/-- The ledger functions as transactions. -/
abbrev ledgerStep : List (Locking LedgerLock) → LockMove LedgerCall → List (Locking LedgerLock) :=
  step RowRequest.conflicts LedgerCall.locks

/-- What holds of every call in flight. -/
structure Disciplined (task : Locking LedgerLock) : Prop where
  asks : ∀ lock, task.wanted.head? = some lock → Asks task.held lock
  chain : ∀ discordId, forUpdate (.user discordId) ∈ task.held →
    .auditLog ∈ rows task.held ∨ .auditLog ∈ rows task.wanted
  closes : ∀ discordId, forUpdate (.user discordId) ∈ task.held →
    ∀ lock, task.wanted.head? = some lock →
      RowRequest.Covered task.held lock ∨ lock.row = .balance discordId ∨ lock.row = .auditLog
  shares : ∀ lock, lock ∈ task.held ∨ lock ∈ task.wanted → lock.mode = .keyShare →
    place lock.row = 0

theorem disciplined_run (moves : List (LockMove LedgerCall)) (tx : ℕ) :
    Disciplined (taskOf (run ledgerStep [] moves) tx) := by
  have horder := inOrder_run RowRequest.conflicts asks_locks moves tx
  -- what is held and what is wanted are together the locks of the call
  rcases splits_run RowRequest.conflicts LedgerCall.locks moves tx with
    hidle | ⟨call, hcall⟩
  · rw [hidle]
    constructor <;> simp [idle]
  · generalize taskOf (run (step RowRequest.conflicts LedgerCall.locks) [] moves) tx = task at *
    obtain ⟨held, wanted⟩ := task
    have hmem : ∀ lock, lock ∈ call.locks ↔ lock ∈ held ∨ lock ∈ wanted := by
      simp [hcall]
    refine ⟨?_, ?_, ?_, ?_⟩
    · intro lock hlock
      cases wanted with
      | nil => cases hlock
      | cons first rest =>
          obtain rfl : first = lock := by simpa using hlock
          exact horder.1
    · intro discordId huser
      have hlog := (closes_locks ((hmem _).mpr (.inl huser))).1
      rw [hcall] at hlog
      simpa [rows] using hlog
    · intro discordId huser lock hlock
      have hlocks : lock ∈ call.locks := (hmem lock).mpr (.inr (List.mem_of_head? hlock))
      rcases (closes_locks ((hmem _).mpr (.inl huser))).2 lock hlocks with hrow | hrow | hrow
      · exact .inl ⟨_, huser, hrow.symm, trivial⟩
      · exact .inr (.inl hrow)
      · exact .inr (.inr hrow)
    · intro lock hlock hmode
      obtain ⟨discordId, hrow⟩ := shares_locks call lock ((hmem lock).mpr hlock) hmode
      rw [hrow]
      rfl

/-! ## Crossings -/

/-- A call holds an account's row `FOR UPDATE`, and another, which holds the account's
balance or the audit chain that the first still wants, has yet to check a foreign key to
the account. -/
def AccountCrossing (a b : Locking LedgerLock) : Prop :=
  ∃ discordId, forUpdate (.user discordId) ∈ a.held ∧ keyShare (.user discordId) ∈ b.wanted ∧
    ∃ row, (row = .balance discordId ∨ row = .auditLog) ∧ row ∈ rows a.wanted ∧ row ∈ rows b.held

/-- A call holds the treasury's balance and still wants a player's, and another holds the
player's and still wants the treasury's. -/
def TreasuryCrossing (a b : Locking LedgerLock) : Prop :=
  .balance 0 ∈ rows a.held ∧ .balance 0 ∈ rows b.wanted ∧
    ∃ discordId, .balance discordId ∈ rows a.wanted ∧ .balance discordId ∈ rows b.held

def Crosses (a b : Locking LedgerLock) : Prop := AccountCrossing a b ∨ TreasuryCrossing a b

/-- The user whose account or balance the row is. -/
def accountOf : LedgerKey → Option Int
  | .user discordId => some discordId
  | .balance discordId => some discordId
  | _ => none

instance (a b : Locking LedgerLock) : Decidable (AccountCrossing a b) :=
  decidable_of_iff (∃ own ∈ a.held, ∃ discordId ∈ accountOf own.row,
      forUpdate (.user discordId) ∈ a.held ∧ keyShare (.user discordId) ∈ b.wanted ∧
      ∃ row ∈ [LedgerKey.balance discordId, .auditLog], row ∈ rows a.wanted ∧ row ∈ rows b.held)
    ⟨fun ⟨_, _, discordId, _, huser, hcheck, row, hrow, h⟩ =>
        ⟨discordId, huser, hcheck, row, by simpa using hrow, h⟩,
      fun ⟨discordId, huser, hcheck, row, hrow, h⟩ =>
        ⟨_, huser, discordId, rfl, huser, hcheck, row, by simpa using hrow, h⟩⟩

instance (a b : Locking LedgerLock) : Decidable (TreasuryCrossing a b) :=
  decidable_of_iff (.balance 0 ∈ rows a.held ∧ .balance 0 ∈ rows b.wanted ∧
      ∃ row ∈ rows a.wanted, ∃ discordId ∈ accountOf row,
        .balance discordId ∈ rows a.wanted ∧ .balance discordId ∈ rows b.held)
    ⟨fun ⟨ha, hb, _, _, discordId, _, h⟩ => ⟨ha, hb, discordId, h⟩,
      fun ⟨ha, hb, discordId, h⟩ => ⟨ha, hb, _, h.1, discordId, rfl, h⟩⟩

instance (a b : Locking LedgerLock) : Decidable (Crosses a b) :=
  inferInstanceAs (Decidable (_ ∨ _))

theorem ne_nil_of_mem_rows {locks : List LedgerLock} {row : LedgerKey} (h : row ∈ rows locks) :
    locks ≠ [] := by
  rintro rfl
  cases h

theorem Crosses.held_ne_nil {a b : Locking LedgerLock} (h : Crosses a b) :
    a.held ≠ [] ∧ b.held ≠ [] := by
  rcases h with ⟨discordId, huser, -, row, -, -, hrow⟩ | ⟨htreasury, -, discordId, -, hrow⟩
  · exact ⟨List.ne_nil_of_mem huser, ne_nil_of_mem_rows hrow⟩
  · exact ⟨ne_nil_of_mem_rows htreasury, ne_nil_of_mem_rows hrow⟩

/-- The next lock is free, and whoever takes it crosses a call in flight. -/
def TakesAcross (w : List (Locking LedgerLock)) : LockMove LedgerCall → Prop
  | .take tx =>
      match taskOf w tx with
      | ⟨_, []⟩ => False
      | ⟨held, lock :: rest⟩ =>
          Free RowRequest.conflicts w tx lock ∧ ∃ other < w.length, other ≠ tx ∧
            (Crosses ⟨lock :: held, rest⟩ (taskOf w other) ∨
              Crosses (taskOf w other) ⟨lock :: held, rest⟩)
  | _ => False

instance (w : List (Locking LedgerLock)) (move : LockMove LedgerCall) :
    Decidable (TakesAcross w move) := by
  unfold TakesAcross
  split
  · split <;> infer_instance
  · infer_instance

/-! ## No cycles without crossings -/

/-- Where a waiting call stands: the check of a foreign key comes after the raffle period,
and a payout to a player after the treasury's balance. -/
def level (task : Locking LedgerLock) : ℕ :=
  match task.wanted with
  | [] => 0
  | lock :: _ =>
      if lock.mode = .keyShare then 7
      else if place lock.row = 1 ∧ .balance 0 ∈ rows task.held then 5
      else 2 * place lock.row

theorem mem_rows {locks : List LedgerLock} {row : LedgerKey} :
    row ∈ rows locks ↔ ∃ lock ∈ locks, lock.row = row := List.mem_map

theorem place_eq_two {row : LedgerKey} (h : place row = 2) : row = .balance 0 := by
  unfold place at h
  split at h
  · split at h
    next hzero => rw [hzero]
    · omega
  all_goals omega

theorem place_eq_one {row : LedgerKey} (h : place row = 1) :
    ∃ discordId, row = .balance discordId := by
  unfold place at h
  split at h
  · exact ⟨_, rfl⟩
  all_goals omega

theorem place_eq_four {row : LedgerKey} (h : place row = 4) : row = .auditLog := by
  unfold place at h
  split at h
  · split at h <;> omega
  · omega
  · rfl
  all_goals omega

theorem Disciplined.exclusive {task : Locking LedgerLock} (h : Disciplined task) {lock : LedgerLock}
    (hlock : lock ∈ task.held ∨ lock ∈ task.wanted) (hplace : place lock.row ≠ 0) :
    lock.mode ≠ .keyShare :=
  fun hmode => hplace (h.shares lock hlock hmode)

theorem conflicts_of_exclusive {a b : LedgerLock} (hrow : a.row = b.row) (ha : a.mode ≠ .keyShare)
    (hb : b.mode ≠ .keyShare) : a.conflicts b = true := by
  obtain ⟨row, mode⟩ := a
  obtain ⟨row', mode'⟩ := b
  cases mode <;> cases mode' <;> simp_all [RowRequest.conflicts, RowMode.conflicts]

section Level

variable {w : List (Locking LedgerLock)} {i j k : ℕ}

/-- Balances, the pool, the chain and the statistics are held by one call at a time. -/
theorem notMem_rows_of_apart (hw : Apart RowRequest.conflicts w)
    (hdisc : ∀ tx, Disciplined (taskOf w tx)) (hij : i ≠ j) {row : LedgerKey}
    (hplace : place row ≠ 0) (hi : row ∈ rows (taskOf w i).held) :
    row ∉ rows (taskOf w j).held := by
  intro hj
  obtain ⟨a, ha, rfl⟩ := mem_rows.mp hi
  obtain ⟨b, hb, hrow⟩ := mem_rows.mp hj
  have hconflict := conflicts_of_exclusive hrow.symm ((hdisc i).exclusive (.inl ha) hplace)
    ((hdisc j).exclusive (.inl hb) (hrow ▸ hplace))
  rw [hw i j hij a ha b hb] at hconflict
  cases hconflict

theorem exists_of_waitsFor (hw : Apart RowRequest.conflicts w)
    (h : WaitsFor RowRequest.conflicts w i j) :
    ∃ lock, (taskOf w i).wanted.head? = some lock ∧ ¬ RowRequest.Covered (taskOf w i).held lock ∧
      ∃ own ∈ (taskOf w j).held, own.row = lock.row ∧ own.mode.conflicts lock.mode = true := by
  obtain ⟨-, lock, hlock, own, hown, hconflict⟩ := id h
  refine ⟨lock, hlock, RowRequest.not_covered_of_waitsFor hw hlock h, own, hown, ?_⟩
  simpa [RowRequest.conflicts] using hconflict

/-- Who holds what a foreign key check waits for has locked the account `FOR UPDATE`. -/
theorem forUpdate_of_check {own : LedgerLock} {discordId : Int} (hrow : own.row = .user discordId)
    (hconflict : own.mode.conflicts .keyShare = true) : own = forUpdate (.user discordId) := by
  obtain ⟨row, mode⟩ := own
  cases mode <;> simp_all [RowMode.conflicts, forUpdate]

theorem level_of_head {task : Locking LedgerLock} {lock : LedgerLock}
    (h : task.wanted.head? = some lock) :
    level task = if lock.mode = .keyShare then 7
      else if place lock.row = 1 ∧ .balance 0 ∈ rows task.held then 5
      else 2 * place lock.row := by
  obtain ⟨held, wanted⟩ := task
  cases wanted with
  | nil => cases h
  | cons first rest =>
      obtain rfl : first = lock := by simpa using h
      rfl

theorem level_of_check {task : Locking LedgerLock} {discordId : Int}
    (h : task.wanted.head? = some (keyShare (.user discordId))) : level task = 7 := by
  rw [level_of_head h]
  exact if_pos rfl

/-- A call waits for a foreign key check: whoever locked the account is on its way to the
audit chain, or the two cross. -/
theorem level_lt_of_check (hw : Apart RowRequest.conflicts w)
    (hdisc : ∀ tx, Disciplined (taskOf w tx))
    (huncrossed : ∀ i j, i ≠ j → ¬ Crosses (taskOf w i) (taskOf w j)) (hij : i ≠ j)
    {discordId : Int} (hcheck : (taskOf w i).wanted.head? = some (keyShare (.user discordId)))
    (hholds : .auditLog ∈ rows (taskOf w i).held ∨ .balance discordId ∈ rows (taskOf w i).held)
    (huser : forUpdate (.user discordId) ∈ (taskOf w j).held) {lock : LedgerLock}
    (hlock : (taskOf w j).wanted.head? = some lock)
    (hnew : ¬ RowRequest.Covered (taskOf w j).held lock) :
    level (taskOf w i) < level (taskOf w j) := by
  have hwants : lock.row ∈ rows (taskOf w j).wanted :=
    mem_rows.mpr ⟨lock, List.mem_of_head? hlock, rfl⟩
  have hcrossing : ∀ row, row = .balance discordId ∨ row = .auditLog →
      row ∈ rows (taskOf w j).wanted → row ∉ rows (taskOf w i).held := fun row hrow hwanted hheld =>
    huncrossed j i hij.symm (.inl ⟨discordId, huser, List.mem_of_head? hcheck, row, hrow, hwanted,
      hheld⟩)
  rcases (hdisc j).closes discordId huser lock hlock with hcovered | hrow | hrow
  · exact (hnew hcovered).elim
  · rw [hrow] at hwants
    exfalso
    rcases hholds with hlog | hbalance
    · rcases (hdisc j).chain discordId huser with hheld | hwanted
      · exact notMem_rows_of_apart hw hdisc hij (by decide) hlog hheld
      · exact hcrossing _ (.inr rfl) hwanted hlog
    · exact hcrossing _ (.inl rfl) hwants hbalance
  · have hmode := (hdisc j).exclusive (.inr (List.mem_of_head? hlock)) (by rw [hrow]; decide)
    have hplace : place lock.row = 4 := by rw [hrow]; rfl
    rw [level_of_check hcheck, level_of_head hlock, if_neg hmode, hplace, if_neg (by omega)]
    omega

/-- In the absence of crossings the level rises from a waiting call to the next one. -/
theorem level_lt (hw : Apart RowRequest.conflicts w) (hdisc : ∀ tx, Disciplined (taskOf w tx))
    (huncrossed : ∀ i j, i ≠ j → ¬ Crosses (taskOf w i) (taskOf w j))
    (hij : WaitsFor RowRequest.conflicts w i j) (hjk : WaitsFor RowRequest.conflicts w j k) :
    level (taskOf w i) < level (taskOf w j) := by
  obtain ⟨lock, hlock, hnew, own, hown, hrow, hmode⟩ := exists_of_waitsFor hw hij
  obtain ⟨next, hnext, hnew', own', hown', hrow', hmode'⟩ := exists_of_waitsFor hw hjk
  have hheld : lock.row ∈ rows (taskOf w j).held := mem_rows.mpr ⟨own, hown, hrow⟩
  have hwanted : lock.row ∈ rows (taskOf w i).wanted :=
    mem_rows.mpr ⟨lock, List.mem_of_head? hlock, rfl⟩
  have hwants : next.row ∈ rows (taskOf w j).wanted :=
    mem_rows.mpr ⟨next, List.mem_of_head? hnext, rfl⟩
  -- a foreign key check waits for a call that holds the account; otherwise the level is the place
  by_cases hshare : lock.mode = .keyShare
  · rcases (hdisc i).asks lock hlock with hcovered | ⟨hne, -⟩ | ⟨hne, -⟩ |
      ⟨discordId, rfl, hholds, -⟩
    · exact (hnew hcovered).elim
    · exact (hne hshare).elim
    · exact (hne hshare).elim
    · exact level_lt_of_check hw hdisc huncrossed hij.1 hlock hholds
        (forUpdate_of_check hrow hmode ▸ hown) hnext hnew'
  · rw [level_of_head hlock, if_neg hshare]
    rcases (hdisc j).asks next hnext with hcovered | ⟨hne, hplace⟩ |
      ⟨hne, hone, htreasury, hplace⟩ | ⟨discordId, rfl, hholds, hplace⟩
    · exact (hnew' hcovered).elim
    · -- the next call goes on in place: what it wants comes after what it holds
      have hlt : place lock.row < place next.row := hrow ▸ hplace own hown
      rw [level_of_head hnext, if_neg hne]
      split
      next hpayout =>
        obtain ⟨hplayer, htreasury⟩ := hpayout
        have htwo : place next.row ≠ 2 := by
          intro htwo
          rw [place_eq_two htwo] at hwants
          obtain ⟨discordId, hbalance⟩ := place_eq_one hplayer
          exact huncrossed i j hij.1 (.inr ⟨htreasury, hwants, discordId, hbalance ▸ hwanted,
            hbalance ▸ hheld⟩)
        rw [if_neg (by omega)]
        omega
      next =>
        split <;> omega
    · -- the next call is a payout that holds the treasury's balance only
      have htwo : place lock.row = 0 ∨ place lock.row = 2 := hrow ▸ hplace own hown
      rw [level_of_head hnext, if_neg hne, if_neg (by omega), if_pos ⟨hone, htreasury⟩]
      omega
    · -- the next call waits for a foreign key check
      have hfive : place lock.row < 5 := hrow ▸ hplace own hown
      have hfour : place lock.row ≠ 4 := by
        intro hfour
        rw [place_eq_four hfour] at hheld
        have huser := forUpdate_of_check hrow' hmode' ▸ hown'
        rcases (hdisc k).chain discordId huser with hlog | hlog
        · exact notMem_rows_of_apart hw hdisc hjk.1 (by decide) hheld hlog
        · exact huncrossed k j hjk.1.symm (.inl ⟨discordId, huser, List.mem_of_head? hnext,
            .auditLog, .inr rfl, hlog, hheld⟩)
      rw [level_of_check hnext]
      split <;> omega

theorem not_deadlock_of_uncrossed (hw : Apart RowRequest.conflicts w)
    (hdisc : ∀ tx, Disciplined (taskOf w tx))
    (huncrossed : ∀ i j, i ≠ j → ¬ Crosses (taskOf w i) (taskOf w j)) :
    ¬ Deadlock RowRequest.conflicts w :=
  not_deadlock_of_level (fun tx => level (taskOf w tx)) fun _ _ _ hij hjk =>
    level_lt hw hdisc huncrossed hij hjk

end Level

/-! ## Whole runs -/

theorem takesAcross_of_taken {w : List (Locking LedgerLock)} {tx other : ℕ}
    {held rest : List LedgerLock} {lock : LedgerLock} (htask : taskOf w tx = ⟨held, lock :: rest⟩)
    (hfree : Free RowRequest.conflicts w tx lock) (hne : other ≠ tx)
    (hcrosses : Crosses ⟨lock :: held, rest⟩ (taskOf w other) ∨
      Crosses (taskOf w other) ⟨lock :: held, rest⟩) : TakesAcross w (.take tx) := by
  have hlt : other < w.length := by
    by_contra hle
    rw [taskOf_of_length_le (Nat.le_of_not_lt hle)] at hcrosses
    rcases hcrosses with hcrosses | hcrosses
    · exact hcrosses.held_ne_nil.2 rfl
    · exact hcrosses.held_ne_nil.1 rfl
  simp only [TakesAcross, htask]
  exact ⟨hfree, other, hlt, hne, hcrosses⟩

theorem uncrossed_step {w : List (Locking LedgerLock)} {move : LockMove LedgerCall}
    (hw : ∀ i j, i ≠ j → ¬ Crosses (taskOf w i) (taskOf w j)) (hmove : ¬ TakesAcross w move)
    (i j : ℕ) (hij : i ≠ j) :
    ¬ Crosses (taskOf (ledgerStep w move) i) (taskOf (ledgerStep w move) j) := by
  intro hcrosses
  obtain ⟨hi, hj⟩ := hcrosses.held_ne_nil
  rcases taskOf_step RowRequest.conflicts LedgerCall.locks w move i with hi' | ⟨call, -, hi'⟩ | hi' |
    ⟨held, lock, rest, hmove', htask, hfree, hi'⟩
  · rcases taskOf_step RowRequest.conflicts LedgerCall.locks w move j with hj' | ⟨call, -, hj'⟩ | hj' |
      ⟨held, lock, rest, hmove', htask, hfree, hj'⟩
    · rw [hi', hj'] at hcrosses
      exact hw i j hij hcrosses
    · exact hj (by rw [hj'])
    · exact hj (by rw [hj', idle])
    · rw [hi', hj'] at hcrosses
      exact hmove (hmove' ▸ takesAcross_of_taken htask hfree hij (.inr hcrosses))
  · exact hi (by rw [hi'])
  · exact hi (by rw [hi', idle])
  · rcases taskOf_step RowRequest.conflicts LedgerCall.locks w move j with hj' | ⟨call, -, hj'⟩ | hj' |
      ⟨held', lock', rest', hother, -, -, -⟩
    · rw [hi', hj'] at hcrosses
      exact hmove (hmove' ▸ takesAcross_of_taken htask hfree hij.symm (.inl hcrosses))
    · exact hj (by rw [hj'])
    · exact hj (by rw [hj', idle])
    · rw [hmove'] at hother
      cases hother
      exact hij rfl

theorem uncrossed_run {moves : List (LockMove LedgerCall)}
    (hmoves : ∀ before move, (before, move) ∈ steps ledgerStep [] moves →
      ¬ TakesAcross before move) (i j : ℕ) (hij : i ≠ j) :
    ¬ Crosses (taskOf (run ledgerStep [] moves) i) (taskOf (run ledgerStep [] moves) j) := by
  let uncrossed : List (Locking LedgerLock) → Prop := fun w =>
    ∀ i j, i ≠ j → ¬ Crosses (taskOf w i) (taskOf w j)
  have hstep : ∀ w move, ¬ TakesAcross w move → uncrossed w → uncrossed (ledgerStep w move) :=
    fun w move hmove hw => uncrossed_step hw hmove
  have hnone : uncrossed [] := fun i j _ hcrosses => hcrosses.held_ne_nil.1 rfl
  exact run_invariant_of_steps hstep hnone hmoves i j hij

theorem Crosses.crossed {a b : Locking LedgerLock} (ha : Disciplined a) (hb : Disciplined b)
    (h : Crosses a b) : Crossed RowRequest.conflicts a b := by
  have hconflict : ∀ {a b : Locking LedgerLock}, Disciplined a → Disciplined b →
      ∀ {row}, place row ≠ 0 → row ∈ rows a.held → row ∈ rows b.wanted →
        ∃ own ∈ a.held, ∃ lock ∈ b.wanted, own.conflicts lock = true := by
    intro a b ha hb row hplace hheld hwanted
    obtain ⟨own, hown, rfl⟩ := mem_rows.mp hheld
    obtain ⟨lock, hlock, hrow⟩ := mem_rows.mp hwanted
    exact ⟨own, hown, lock, hlock, conflicts_of_exclusive hrow.symm
      (ha.exclusive (.inl hown) hplace) (hb.exclusive (.inr hlock) (hrow ▸ hplace))⟩
  have hbalance : ∀ discordId, place (.balance discordId) ≠ 0 := by
    intro discordId
    simp only [place]
    split <;> simp
  rcases h with ⟨discordId, huser, hcheck, row, hrow, hwanted, hheld⟩ |
    ⟨htreasury, hwants, discordId, hwanted, hheld⟩
  · refine ⟨⟨_, huser, _, hcheck, by simp [RowRequest.conflicts, RowMode.conflicts, forUpdate,
      keyShare]⟩, hconflict hb ha ?_ hheld hwanted⟩
    rcases hrow with rfl | rfl
    · exact hbalance discordId
    · decide
  · exact ⟨hconflict ha hb (hbalance 0) htreasury hwants,
      hconflict hb ha (hbalance discordId) hheld hwanted⟩

theorem crosses_of_takesAcross {w : List (Locking LedgerLock)} {move : LockMove LedgerCall}
    (h : TakesAcross w move) :
    ∃ i j, i ≠ j ∧ Crosses (taskOf (ledgerStep w move) i) (taskOf (ledgerStep w move) j) := by
  cases move with
  | start call => exact h.elim
  | finish tx => exact h.elim
  | take tx =>
      simp only [TakesAcross] at h
      split at h
      · exact h.elim
      next held lock rest htask =>
        obtain ⟨hfree, other, -, hne, hcrosses⟩ := h
        have htaken := step_take LedgerCall.locks htask hfree
        have htx : taskOf (ledgerStep w (.take tx)) tx = ⟨lock :: held, rest⟩ := by
          rw [ledgerStep, htaken, if_pos rfl]
        have hother : taskOf (ledgerStep w (.take tx)) other = taskOf w other := by
          rw [ledgerStep, htaken, if_neg hne]
        rcases hcrosses with hcrosses | hcrosses
        · exact ⟨tx, other, hne.symm, by rw [htx, hother]; exact hcrosses⟩
        · exact ⟨other, tx, hne, by rw [htx, hother]; exact hcrosses⟩

/-- A run whose calls never cross has no cycle in any state it reaches, and wherever two
calls come to cross the run can go on into a cycle. -/
theorem no_deadlock_unless_across (moves : List (LockMove LedgerCall)) :
    ((∀ before move, (before, move) ∈ steps ledgerStep [] moves → ¬ TakesAcross before move) →
        ∀ first rest, moves = first ++ rest →
          ¬ Deadlock RowRequest.conflicts (run ledgerStep [] first)) ∧
      ∀ before move, (before, move) ∈ steps ledgerStep [] moves → TakesAcross before move →
        ∃ later, Deadlock RowRequest.conflicts (run ledgerStep (ledgerStep before move) later) := by
  constructor
  · intro horder first rest hsplit
    apply not_deadlock_of_uncrossed
    · exact apart_run RowRequest.conflicts_comm first
    · exact disciplined_run first
    · apply uncrossed_run
      intro before move hmem
      apply horder
      rw [hsplit, steps_append]
      exact List.mem_append_left _ hmem
  · intro before move hmem hacross
    obtain ⟨first, rest, -, rfl⟩ := exists_split_of_mem_steps _ hmem
    obtain ⟨i, j, hij, hcrosses⟩ := crosses_of_takesAcross hacross
    have hafter : ∀ tx, Disciplined (taskOf (ledgerStep (run ledgerStep [] first) move) tx) := by
      intro tx
      have hrun := disciplined_run (first ++ [move]) tx
      rwa [run_append, run_cons, run_nil] at hrun
    exact (hcrosses.crossed (hafter i) (hafter j)).deadlocks hij

/-- A withdraw is confirmed while another player places a bet. -/
def confirmingMoves : List (LockMove LedgerCall) :=
  [.start (.confirmWithdraw "withdraw-1" 3 7), .start (.applyBet 8 20 20 (some 1))] ++
    List.replicate 4 (.take 0) ++ List.replicate 3 (.take 1) ++ List.replicate 20 (.take 0)

/-- One player asks for a withdraw and places a bet. -/
def crossingMoves : List (LockMove LedgerCall) :=
  [.start (.createWithdrawTicket 7), .start (.applyBet 7 0 0 none), .take 0, .take 1, .take 1]

theorem no_deadlock_unless_across_confirming :
    ¬ Deadlock RowRequest.conflicts (run ledgerStep [] confirmingMoves) ∧
      ∃ later, Deadlock RowRequest.conflicts
        (run ledgerStep (ledgerStep (run ledgerStep [] (crossingMoves.take 3)) (.take 1)) later) := by
  constructor
  · have horder : ∀ taken ∈ steps ledgerStep [] confirmingMoves,
        ¬ TakesAcross taken.1 taken.2 := by
      decide +kernel
    exact (no_deadlock_unless_across confirmingMoves).1
      (fun before move hmem => horder (before, move) hmem) confirmingMoves [] (by simp)
  · exact (no_deadlock_unless_across crossingMoves).2 _ _ (by decide +kernel) (by decide +kernel)

theorem deadlock_reached :
    ¬ ∀ moves, ¬ Deadlock RowRequest.conflicts (run ledgerStep [] moves) := by
  intro hnone
  have hticket : WaitsFor RowRequest.conflicts (run ledgerStep [] crossingMoves) 0 1 :=
    ⟨by decide, forUpdate (.balance 7), by decide +kernel, update (.balance 7), by decide +kernel,
      by decide +kernel⟩
  have hbet : WaitsFor RowRequest.conflicts (run ledgerStep [] crossingMoves) 1 0 :=
    ⟨by decide, keyShare (.user 7), by decide +kernel, forUpdate (.user 7), by decide +kernel,
      by decide +kernel⟩
  exact hnone crossingMoves ⟨0, .tail (.single hticket) hbet⟩

end DeathRoll.LockOrder
