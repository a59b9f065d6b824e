import DeathRoll.Dw.Accounts
import DeathRoll.Dw.Disputes
import DeathRoll.Luck.Bets
import DeathRoll.Luck.Helpers
import DeathRoll.Relational.Run

/-! # Calls and runs

The `dw.*` and `luck.*` functions as calls to one database, and the direct
writes to its configuration. Every call is a transaction: one that raises
leaves the database as it was, except that sequences are never rolled back.
-/

namespace DeathRoll

open Relational

/-- A call with its arguments, `none` for `NULL`. -/
inductive Call where
  | createDepositTicket (discordId : Option Int) (char realm region faction : Option String)
      (amount threadId parentChannelId : Option Int)
  | confirmDeposit (ticketUid : Option String) (cashierId : Option Int)
  | cancelDeposit (ticketUid : Option String) (actorId : Option Int) (reason : Option String)
  | createWithdrawTicket (discordId : Option Int) (char realm region faction : Option String)
      (amount threadId parentChannelId : Option Int)
  | confirmWithdraw (ticketUid : Option String) (cashierId : Option Int)
  | cancelWithdraw (ticketUid : Option String) (actorId : Option Int) (reason : Option String)
  | claimTicket (ticketType ticketUid : Option String) (cashierId : Option Int)
  | releaseTicket (ticketType ticketUid : Option String) (actorId : Option Int)
  | openDispute (ticketType ticketUid : Option String) (openerId : Option Int)
      (openerRole reason : Option String)
  | resolveDispute (disputeId : Option Int) (action : Option String)
      (amount resolvedBy : Option Int)
  | rejectDispute (disputeId : Option Int) (reason : Option String) (adminId : Option Int)
  | treasurySweep (amount adminId : Option Int) (reason : Option String)
  | treasuryWithdrawToUser (amount targetUser adminId : Option Int) (reason : Option String)
  | addCashierCharacter (discordId : Option Int) (char realm region faction : Option String)
  | removeCashierCharacter (discordId : Option Int) (char realm region : Option String)
  | setCashierStatus (discordId : Option Int) (status : Option String)
  | expireCashier (discordId : Option Int)
  | banUser (userId : Option Int) (reason : Option String) (adminId : Option Int)
  | unbanUser (userId adminId : Option Int)
  | applyBet (discordId : Option Int) (gameName : Option String) (channelId betAmount : Option Int)
      (selection : Option Json) (serverSeedHash : Option Bytes) (clientSeed : Option String)
      (nonce : Option Int) (idempotencyKey betUid : Option String)
  | resolveBet (betId : Option Int) (status : Option String) (payout : Option Int)
      (outcome : Option Json)
  | refundBet (betId : Option Int) (reason : Option String)
  | cashoutMines (betId : Option Int) (multiplier : Option Numeric)
  | consumeRateToken (discordId : Option Int) (scope : Option String)
      (windowS maxCount : Option Int)
  | grantRaffleTickets (discordId periodId ticketCount betId : Option Int)

/-- The body of a call, its result dropped. -/
def callBody (env : Env) : Call → LedgerTx Unit
  | .createDepositTicket d c r g f a t p => do
      let _ ← createDepositTicket env d c r g f a t p
  | .confirmDeposit u c => do
      let _ ← confirmDeposit env u c
  | .cancelDeposit u a r => cancelDeposit env u a r
  | .createWithdrawTicket d c r g f a t p => do
      let _ ← createWithdrawTicket env d c r g f a t p
  | .confirmWithdraw u c => do
      let _ ← confirmWithdraw env u c
  | .cancelWithdraw u a r => do
      let _ ← cancelWithdraw env u a r
  | .claimTicket t u c => claimTicket env t u c
  | .releaseTicket t u a => releaseTicket env t u a
  | .openDispute t u o l r => do
      let _ ← openDispute env t u o l r
  | .resolveDispute d c a b => resolveDispute env d c a b
  | .rejectDispute d r a => rejectDispute env d r a
  | .treasurySweep a d r => do
      let _ ← treasurySweep env a d r
  | .treasuryWithdrawToUser a t d r => treasuryWithdrawToUser env a t d r
  | .addCashierCharacter d c r g f => do
      let _ ← addCashierCharacter env d c r g f
  | .removeCashierCharacter d c r g => removeCashierCharacter env d c r g
  | .setCashierStatus d s => setCashierStatus env d s
  | .expireCashier d => expireCashier env d
  | .banUser u r a => banUser env u r a
  | .unbanUser u a => unbanUser env u a
  | .applyBet d g c b s h k n i u => do
      let _ ← applyBet env d g c b s h k n i u
  | .resolveBet b s p o => resolveBet env b s p o
  | .refundBet b r => refundBet env b r
  | .cashoutMines b m => cashoutMines env b m
  | .consumeRateToken d s w m => do
      let _ ← consumeRateToken env d s w m
  | .grantRaffleTickets d p n b => do
      let _ ← grantRaffleTickets env d p n b

/-- What a rollback restores: everything but the sequences. -/
def Database.rollback (before atError : Database) : Database :=
  { before with sequences := atError.sequences }

/-- A call as one transaction. -/
def Call.exec (env : Env) (call : Call) (s : Database) : Except DbError Unit × Database :=
  transact Database.rollback (callBody env call) s

/-- The call returned. -/
def Call.Succeeds (env : Env) (call : Call) (s : Database) : Prop :=
  (call.exec env s).1 = .ok ()

instance (env : Env) (call : Call) (s : Database) : Decidable (call.Succeeds env s) :=
  match hres : (call.exec env s).1 with
  | .ok () => .isTrue hres
  | .error _ => .isFalse fun hok => by rw [Call.Succeeds, hres] at hok; cases hok

/-- A write to a configuration table. -/
inductive ConfigWrite where
  | dwConfig (key : String) (value : Option Int)
  | luckConfig (key : String) (value : Option Int)
  | gameConfig (gameName : String) (config : GameConfig)
  | newPeriod (id : Int) (status : PeriodStatus)
  | periodStatus (id : Int) (status : PeriodStatus)

/-- Insert or overwrite the row under a key. -/
def upsert {κ ρ : Type} [DecidableEq κ] (t : Table κ ρ) (k : κ) (r : ρ) : Table κ ρ :=
  (t.insertNew k r).set k r

/-- `luck.raffle_periods` with the status of one period set. -/
def setPeriodStatus (periods : Table Int RafflePeriod) (id : Int) (status : PeriodStatus) :
    Table Int RafflePeriod :=
  match periods.get? id with
  | none => periods
  | some period => periods.set id { period with status := status }

def ConfigWrite.apply (s : Database) : ConfigWrite → Database
  | .dwConfig key value => { s with dwConfig := upsert s.dwConfig key value }
  | .luckConfig key value => { s with luckConfig := upsert s.luckConfig key value }
  | .gameConfig name config => { s with gameConfig := upsert s.gameConfig name config }
  | .newPeriod id status =>
      { s with rafflePeriods := s.rafflePeriods.insertNew id ⟨0, status, inBigint_zero, zero_nonneg⟩ }
  | .periodStatus id status =>
      { s with rafflePeriods := setPeriodStatus s.rafflePeriods id status }

/-- One step of a run: a call by some session, or a configuration write. -/
inductive Command where
  | call (env : Env) (call : Call)
  | config (write : ConfigWrite)

def step (s : Database) : Command → Database
  | .call env call => (call.exec env s).2
  | .config write => write.apply s

end DeathRoll
