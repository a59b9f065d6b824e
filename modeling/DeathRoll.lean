import DeathRoll.Relational.Nullable
import DeathRoll.Relational.Table
import DeathRoll.Relational.Query
import DeathRoll.Relational.SoftDelete
import DeathRoll.Relational.Transaction
import DeathRoll.Relational.Autocommit
import DeathRoll.Relational.Run
import DeathRoll.Relational.Worker
import DeathRoll.Relational.HashChain
import DeathRoll.Relational.Nonces
import DeathRoll.Relational.Recount
import DeathRoll.Relational.RowLock
import DeathRoll.Relational.Script
import DeathRoll.Relational.ReadCommitted
import DeathRoll.Relational.Traced
import DeathRoll.Relational.Replay
import DeathRoll.Relational.Lockstep
import DeathRoll.Relational.Serial
import DeathRoll.Relational.Deadlock
import DeathRoll.Sampling.Shuffle
import DeathRoll.Sampling.Pulling
import DeathRoll.Sampling.Uniform
import DeathRoll.Text.Regex
import DeathRoll.Text.Numerals
import DeathRoll.Text.Markers
import DeathRoll.Core.Types
import DeathRoll.Core.Errors
import DeathRoll.Core.AuditChain
import DeathRoll.Core.Database
import DeathRoll.Core.Seeds
import DeathRoll.Core.Statements
import DeathRoll.Dw.Tickets
import DeathRoll.Dw.Treasury
import DeathRoll.Dw.Disputes
import DeathRoll.Dw.Accounts
import DeathRoll.Dw.ModalInput
import DeathRoll.Luck.Bets
import DeathRoll.Luck.Helpers
import DeathRoll.Ledger.Call
import DeathRoll.Ledger.Abstract
import DeathRoll.Ledger.Effects
import DeathRoll.Ledger.RefineTickets
import DeathRoll.Ledger.RefineDw
import DeathRoll.Ledger.RefineLuck
import DeathRoll.Ledger.Runs
import DeathRoll.Ledger.Lifecycle
import DeathRoll.Ledger.Conservation
import DeathRoll.Ledger.LockErrors
import DeathRoll.Ledger.Locked
import DeathRoll.Ledger.Settlement
import DeathRoll.Ledger.TicketMoves
import DeathRoll.Ledger.Refund
import DeathRoll.Ledger.Frames
import DeathRoll.Ledger.Roster
import DeathRoll.Ledger.Wagered
import DeathRoll.Ledger.Unwind
import DeathRoll.Ledger.Payout
import DeathRoll.Ledger.AuditTargets
import DeathRoll.Ledger.Owners
import DeathRoll.Ledger.Characters
import DeathRoll.Ledger.Sources
import DeathRoll.Interleaved.Rows
import DeathRoll.Interleaved.Deposits
import DeathRoll.Interleaved.Disputes
import DeathRoll.Interleaved.Bets
import DeathRoll.Interleaved.BetTotals
import DeathRoll.Interleaved.Idempotency
import DeathRoll.Interleaved.Sessions
import DeathRoll.Interleaved.Tickets
import DeathRoll.Interleaved.Statistics
import DeathRoll.Interleaved.RateTokens
import DeathRoll.Interleaved.Lifecycle
import DeathRoll.Interleaved.LockOrder
import DeathRoll.Interleaved.Matching
import DeathRoll.Interleaved.MatchedTickets
import DeathRoll.Interleaved.MatchedPayments
import DeathRoll.Interleaved.Accounts
import DeathRoll.Interleaved.Recorded
import DeathRoll.Interleaved.AuditReplay
import DeathRoll.Interleaved.Settlements
import DeathRoll.Interleaved.SettledGold
import DeathRoll.Audit.Interleaving
import DeathRoll.Audit.Tamper
import DeathRoll.Audit.Truncation
import DeathRoll.Audit.Incremental
import DeathRoll.Audit.Zones
import DeathRoll.Fairness.Engine
import DeathRoll.Fairness.UserSeeds
import DeathRoll.Fairness.Verifiable
import DeathRoll.Fairness.Decoders
import DeathRoll.Fairness.Decoding
import DeathRoll.Fairness.Shuffling
import DeathRoll.Fairness.Uniformity
import DeathRoll.Fairness.Verifiers
import DeathRoll.Fairness.VerifierRange
import DeathRoll.Fairness.EnsureSeeds
import DeathRoll.Fairness.EnsureRaces
import DeathRoll.Fairness.ForceRotate
import DeathRoll.Ratelimit.SlidingWindow
import DeathRoll.Ratelimit.FixedWindow
import DeathRoll.Balance.CashierMatcher
import DeathRoll.Balance.AccountStats
import DeathRoll.Balance.Exceptions
import DeathRoll.Balance.DwManager
import DeathRoll.Cogs.Ticket
import DeathRoll.Cogs.Cancel
import DeathRoll.Cogs.CancelMine
import DeathRoll.Cogs.Embeds
import DeathRoll.Cogs.SetLimits
import DeathRoll.Cogs.WithdrawFee
import DeathRoll.Cogs.Orchestration
import DeathRoll.Cogs.Desk
import DeathRoll.Cogs.Opening
import DeathRoll.Cogs.Threads
import DeathRoll.Workers.Pass
import DeathRoll.Workers.CashierIdle
import DeathRoll.Workers.Expiry
import DeathRoll.Workers.ClaimIdle
import DeathRoll.Workers.TicketTimeout
import DeathRoll.Workers.TimeoutRaces
