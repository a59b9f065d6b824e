import DeathRoll.Core.Types

/-! # Errors

What a call can raise: the `RAISE EXCEPTION` statements of the functions, with
the values their texts carry, and the constraint violations of the schema.
-/

namespace DeathRoll

inductive DbError where
  -- core.audit_log_insert_with_chain, core.verify_audit_chain
  | auditChainKeyNotConfigured
  | auditChainKeyEmpty
  -- tickets
  | userBanned
  | globalConfigMissing (flow : TicketType)
  | amountOutOfRange (amount minimum maximum : Option Int)
  | invalidRegion (region : Option String)
  | invalidFaction (faction : Option String)
  | ticketNotFound
  | ticketNotClaimed (status : TicketStatus)
  | wrongCashier (claimedBy calling : Option Int)
  | ticketAlreadyTerminal (status : TicketStatus)
  | cannotTransition (table : String) (old new : TicketStatus)
  | userNotRegistered
  | insufficientBalance (have_ need : Option Int)
  | invariantViolationLockedTooLow (locked : Option Int) (ticketAmount : Int)
  | invalidTicketType
  | alreadyClaimed (status : TicketStatus)
  | regionMismatch (cashier : Option Int) (region : Region)
  -- cashiers
  | invalidRegionBare
  | invalidFactionBare
  | characterNotFoundOrAlreadyRemoved
  | invalidStatus (status : Option String)
  | cashierNotOnline
  -- disputes
  | invalidOpenerRole
  | disputeNotFound
  | disputeAlreadyTerminal (status : DisputeStatus)
  | invalidAction (action : Option String)
  | partialRefundRequiresPositiveAmount
  | refundFullOnlyForWithdrawDisputes
  -- treasury and bans
  | amountMustBePositive
  | treasuryRowMissing
  | insufficientTreasurySweep (have_ sweeping : Option Int)
  | insufficientTreasurySend (have_ sending : Option Int)
  | cannotWithdrawToTreasurySelf
  | cannotBanTreasury
  -- bets
  | unknownGame (game : Option String)
  | gamePaused (game : Option String)
  | betOutOfRange (amount minimum maximum : Option Int)
  | betUserNotRegistered (user : Option Int)
  | betUserBanned (user : Option Int)
  | betInsufficientBalance (have_ need : Option Int)
  | invalidBetStatus (status : Option String)
  | invalidPayout (payout : Option Int)
  | betNotFound (bet : Option Int)
  | betAlreadyTerminal (bet : Option Int) (current : BetStatus) (requested : Option String)
  | betAlreadyClosed (bet : Option Int) (current : BetStatus)
  | invalidMultiplier (multiplier : Numeric)
  | notMinesBet (game : String)
  -- helpers
  | invalidRateLimitArgs (windowS maxCount : Option Int)
  | invalidTicketCount (count : Option Int)
  | periodNotFound (period : Option Int)
  | periodNotActive (period : Option Int) (status : PeriodStatus)
  -- constraint violations
  | notNullViolation (column : String)
  | checkViolation (constraint : String)
  | uniqueViolation (constraint : String)
  | foreignKeyViolation (constraint : String)
  | bigintOutOfRange
  | integerOutOfRange
deriving DecidableEq

/-- `asyncpg.RaiseError`: a `RAISE EXCEPTION`, no constraint violation. -/
def DbError.IsRaise : DbError → Bool
  | .notNullViolation _ | .checkViolation _ | .uniqueViolation _ | .foreignKeyViolation _
  | .bigintOutOfRange | .integerOutOfRange => false
  | _ => true

/-- A `%` of `RAISE EXCEPTION` prints an absent value as `<NULL>`. -/
def raiseInt : Option Int → String
  | some value => toString value
  | none => "<NULL>"

def raiseText : Option String → String
  | some value => value
  | none => "<NULL>"

/-- The message text of an error. -/
def DbError.message : DbError → String
  | .auditChainKeyNotConfigured =>
      "audit chain key not configured (set app.audit_chain_key on the database)"
  | .auditChainKeyEmpty => "audit chain key is empty"
  | .userBanned => "user_banned"
  | .globalConfigMissing flow => "global_config missing required " ++ flow.text ++ " keys"
  | .amountOutOfRange amount minimum maximum =>
      "amount_out_of_range (got " ++ raiseInt amount ++ ", expected " ++ raiseInt minimum ++
        " to " ++ raiseInt maximum ++ ")"
  | .invalidRegion region => "invalid_region (" ++ raiseText region ++ ")"
  | .invalidFaction faction => "invalid_faction (" ++ raiseText faction ++ ")"
  | .ticketNotFound => "ticket_not_found"
  | .ticketNotClaimed status => "ticket_not_claimed (status=" ++ status.text ++ ")"
  | .wrongCashier claimedBy calling =>
      "wrong_cashier (claimed_by=" ++ raiseInt claimedBy ++ " calling=" ++ raiseInt calling ++ ")"
  | .ticketAlreadyTerminal status => "ticket_already_terminal (status=" ++ status.text ++ ")"
  | .cannotTransition table old new =>
      "cannot transition " ++ table ++ " from terminal status " ++ old.text ++ " to " ++ new.text
  | .userNotRegistered => "user_not_registered"
  | .insufficientBalance have_ need =>
      "insufficient_balance (have " ++ raiseInt have_ ++ ", need " ++ raiseInt need ++ ")"
  | .invariantViolationLockedTooLow locked ticketAmount =>
      "invariant_violation_locked_too_low (locked=" ++ raiseInt locked ++ ", ticket_amount=" ++
        toString ticketAmount ++ ")"
  | .invalidTicketType => "invalid_ticket_type"
  | .alreadyClaimed status => "already_claimed (status=" ++ status.text ++ ")"
  | .regionMismatch cashier region =>
      "region_mismatch (cashier " ++ raiseInt cashier ++ " has no active char in region " ++
        region.text ++ ")"
  | .invalidRegionBare => "invalid_region"
  | .invalidFactionBare => "invalid_faction"
  | .characterNotFoundOrAlreadyRemoved => "character_not_found_or_already_removed"
  | .invalidStatus status => "invalid_status (" ++ raiseText status ++ ")"
  | .cashierNotOnline => "cashier_not_online"
  | .invalidOpenerRole => "invalid_opener_role"
  | .disputeNotFound => "dispute_not_found"
  | .disputeAlreadyTerminal status => "dispute_already_terminal (" ++ status.text ++ ")"
  | .invalidAction action => "invalid_action (" ++ raiseText action ++ ")"
  | .partialRefundRequiresPositiveAmount => "partial_refund_requires_positive_amount"
  | .refundFullOnlyForWithdrawDisputes => "refund_full_only_for_withdraw_disputes"
  | .amountMustBePositive => "amount_must_be_positive"
  | .treasuryRowMissing => "treasury_row_missing"
  | .insufficientTreasurySweep have_ sweeping =>
      "insufficient_treasury (have " ++ raiseInt have_ ++ ", sweeping " ++ raiseInt sweeping ++ ")"
  | .insufficientTreasurySend have_ sending =>
      "insufficient_treasury (have " ++ raiseInt have_ ++ ", sending " ++ raiseInt sending ++ ")"
  | .cannotWithdrawToTreasurySelf => "cannot_withdraw_to_treasury_self"
  | .cannotBanTreasury => "cannot_ban_treasury"
  | .unknownGame game => "unknown_game: " ++ raiseText game
  | .gamePaused game => "game_paused: " ++ raiseText game
  | .betOutOfRange amount minimum maximum =>
      "bet_out_of_range: amount=" ++ raiseInt amount ++ " min=" ++ raiseInt minimum ++ " max=" ++
        raiseInt maximum
  | .betUserNotRegistered user => "user_not_registered: " ++ raiseInt user
  | .betUserBanned user => "user_banned: " ++ raiseInt user
  | .betInsufficientBalance have_ need =>
      "insufficient_balance: have=" ++ raiseInt have_ ++ " need=" ++ raiseInt need
  | .invalidBetStatus status => "invalid_status: " ++ raiseText status
  | .invalidPayout payout => "invalid_payout: " ++ raiseInt payout
  | .betNotFound bet => "bet_not_found: " ++ raiseInt bet
  | .betAlreadyTerminal bet current requested =>
      "bet_already_terminal: id=" ++ raiseInt bet ++ " current=" ++ current.text ++
        " requested=" ++ raiseText requested
  | .betAlreadyClosed bet current =>
      "bet_already_terminal: id=" ++ raiseInt bet ++ " current=" ++ current.text
  | .invalidMultiplier multiplier => "invalid_multiplier: " ++ multiplier.text
  | .notMinesBet game => "not_mines_bet: " ++ game
  | .invalidRateLimitArgs windowS maxCount =>
      "invalid_rate_limit_args: window_s=" ++ raiseInt windowS ++ " max_count=" ++ raiseInt maxCount
  | .invalidTicketCount count => "invalid_ticket_count: " ++ raiseInt count
  | .periodNotFound period => "period_not_found: " ++ raiseInt period
  | .periodNotActive period status =>
      "period_not_active: id=" ++ raiseInt period ++ " status=" ++ status.text
  | .notNullViolation column => "null value in column \"" ++ column ++ "\""
  | .checkViolation constraint => "violates check constraint \"" ++ constraint ++ "\""
  | .uniqueViolation constraint => "violates unique constraint \"" ++ constraint ++ "\""
  | .foreignKeyViolation constraint => "violates foreign key constraint \"" ++ constraint ++ "\""
  | .bigintOutOfRange => "bigint out of range"
  | .integerOutOfRange => "integer out of range"

end DeathRoll
