import DeathRoll.Core.Errors
import DeathRoll.Text.Markers

/-! # Typed exceptions

`translate_pg_error` reads the class of a raised error off its message: the first sentinel
of a table that occurs in the lowered text decides. The messages are the formats of the
`RAISE EXCEPTION` statements with numbers and quoted texts put in, so only a quoted text
can bring in a sentinel of another class.
-/

namespace DeathRoll

open Text

/-- `BalanceError` and the classes under it. -/
inductive BalanceErrorClass where
  | balanceError
  | insufficientBalance
  | insufficientTreasury
  | userNotRegistered
  | userBanned
  | ticketNotFound
  | ticketAlreadyClaimed
  | ticketNotClaimed
  | ticketAlreadyTerminal
  | wrongCashier
  | regionMismatch
  | amountOutOfRange
  | invalidRegion
  | invalidFaction
  | invalidStatus
  | invalidTicketType
  | globalConfigMissing
  | invariantViolation
  | characterNotFoundOrAlreadyRemoved
  | duplicateIdempotency
  | cannotBanTreasury
  | cannotWithdrawToTreasurySelf
  | treasuryRowMissing
  | amountMustBePositive
  | partialRefundRequiresPositiveAmount
  | refundFullOnlyForWithdrawDisputes
  | disputeNotFound
  | disputeAlreadyTerminal
  | invalidAction
  | invalidOpenerRole
  | cashierNotOnline
deriving DecidableEq

/-- An instance of a class, with the original message. -/
structure BalanceError where
  errorClass : BalanceErrorClass
  message : String
deriving DecidableEq

/-- `_ERROR_TABLE`. -/
def errorTable : List (String × BalanceErrorClass) :=
  [("invariant_violation_locked_too_low", .invariantViolation),
    ("partial_refund_requires_positive_amount", .partialRefundRequiresPositiveAmount),
    ("refund_full_only_for_withdraw_disputes", .refundFullOnlyForWithdrawDisputes),
    ("character_not_found_or_already_removed", .characterNotFoundOrAlreadyRemoved),
    ("cannot_withdraw_to_treasury_self", .cannotWithdrawToTreasurySelf),
    ("amount_must_be_positive", .amountMustBePositive),
    ("ticket_already_terminal", .ticketAlreadyTerminal),
    ("dispute_already_terminal", .disputeAlreadyTerminal),
    ("ticket_not_claimed", .ticketNotClaimed),
    ("ticket_not_found", .ticketNotFound),
    ("dispute_not_found", .disputeNotFound),
    ("treasury_row_missing", .treasuryRowMissing),
    ("user_not_registered", .userNotRegistered),
    ("invalid_ticket_type", .invalidTicketType),
    ("invalid_opener_role", .invalidOpenerRole),
    ("amount_out_of_range", .amountOutOfRange),
    ("global_config missing", .globalConfigMissing),
    ("insufficient_treasury", .insufficientTreasury),
    ("insufficient_balance", .insufficientBalance),
    ("cannot_ban_treasury", .cannotBanTreasury),
    ("region_mismatch", .regionMismatch),
    ("already_claimed", .ticketAlreadyClaimed),
    ("invalid_faction", .invalidFaction),
    ("invalid_region", .invalidRegion),
    ("invalid_status", .invalidStatus),
    ("invalid_action", .invalidAction),
    ("wrong_cashier", .wrongCashier),
    ("user_banned", .userBanned),
    ("cashier_not_online", .cashierNotOnline)]

/-- `str.lower` on one character. The Kelvin sign and the dotted `I` are the characters
outside ASCII that become ASCII ones; how the others are lowered no sentinel can tell. -/
def lowerChar (c : Char) : List Char :=
  if c = '\u212a' then ['k']
  else if c = '\u0130' then ['i', '\u0307']
  else [c.toLower]

/-- `str.lower`. -/
def lower (text : String) : List Char := text.toList.flatMap lowerChar

/-- The table, its sentinels as lists of characters. -/
def sentinels : List (List Char × BalanceErrorClass) :=
  errorTable.map fun entry => (entry.1.toList, entry.2)

def translatePgError (message : String) : BalanceError :=
  ⟨(classify sentinels (lower message)).getD .balanceError, message⟩

/-! ## Formats -/

/-- The text of a `RAISE EXCEPTION` with its values in place: numbers, and texts in
parentheses. -/
inductive RaiseFormat where
  | plain (literal : String)
  | number (literal : String) (value : Option Int) (rest : RaiseFormat)
  | quoted (literal : String) (value : Option String) (rest : RaiseFormat)

namespace RaiseFormat

def render : RaiseFormat → String
  | plain literal => literal
  | number literal value rest => literal ++ (raiseInt value ++ rest.render)
  | quoted literal value rest => literal ++ ("(" ++ (raiseText value ++ (")" ++ rest.render)))

/-- What the statement itself says. -/
def literals : RaiseFormat → List String
  | plain literal => [literal]
  | number literal _ rest | quoted literal _ rest => literal :: rest.literals

/-- The texts put in. -/
def quotes : RaiseFormat → List String
  | plain _ => []
  | number _ _ rest => rest.quotes
  | quoted _ value rest => raiseText value :: rest.quotes

end RaiseFormat

/-- The statement behind each error that the `dw.*` functions and the audit chain raise. -/
def DbError.format : DbError → RaiseFormat
  | .amountOutOfRange amount minimum maximum =>
      .number "amount_out_of_range (got " amount <| .number ", expected " minimum <|
        .number " to " maximum <| .plain ")"
  | .invalidRegion region => .quoted "invalid_region " region <| .plain ""
  | .invalidFaction faction => .quoted "invalid_faction " faction <| .plain ""
  | .wrongCashier claimedBy calling =>
      .number "wrong_cashier (claimed_by=" claimedBy <| .number " calling=" calling <| .plain ")"
  | .insufficientBalance have_ need =>
      .number "insufficient_balance (have " have_ <| .number ", need " need <| .plain ")"
  | .invariantViolationLockedTooLow locked ticketAmount =>
      .number "invariant_violation_locked_too_low (locked=" locked <|
        .number ", ticket_amount=" (some ticketAmount) <| .plain ")"
  | .regionMismatch cashier region =>
      .number "region_mismatch (cashier " cashier <|
        .plain (" has no active char in region " ++ region.text ++ ")")
  | .invalidStatus status => .quoted "invalid_status " status <| .plain ""
  | .invalidAction action => .quoted "invalid_action " action <| .plain ""
  | .insufficientTreasurySweep have_ sweeping =>
      .number "insufficient_treasury (have " have_ <| .number ", sweeping " sweeping <| .plain ")"
  | .insufficientTreasurySend have_ sending =>
      .number "insufficient_treasury (have " have_ <| .number ", sending " sending <| .plain ")"
  | error => .plain error.message

theorem DbError.message_eq_render (error : DbError) : error.message = error.format.render := by
  delta DbError.format DbError.message
  cases error with
  | amountOutOfRange | wrongCashier | insufficientBalance | insufficientTreasurySweep
  | insufficientTreasurySend | invalidRegion | invalidFaction | invalidStatus | invalidAction
  | invariantViolationLockedTooLow | regionMismatch =>
      simp only [RaiseFormat.render, raiseInt, ← String.append_assoc, String.reduceAppend,
        String.append_empty]
  | _ => rfl

/-- The exception that stands for each of these errors; the base class for a chain key that
is not configured, and none for what no wrapper of the layer calls. -/
def DbError.errorClass : DbError → Option BalanceErrorClass
  | .auditChainKeyNotConfigured | .auditChainKeyEmpty => some .balanceError
  | .userBanned => some .userBanned
  | .globalConfigMissing _ => some .globalConfigMissing
  | .amountOutOfRange _ _ _ => some .amountOutOfRange
  | .invalidRegion _ | .invalidRegionBare => some .invalidRegion
  | .invalidFaction _ | .invalidFactionBare => some .invalidFaction
  | .ticketNotFound => some .ticketNotFound
  | .ticketNotClaimed _ => some .ticketNotClaimed
  | .wrongCashier _ _ => some .wrongCashier
  | .ticketAlreadyTerminal _ => some .ticketAlreadyTerminal
  | .userNotRegistered => some .userNotRegistered
  | .insufficientBalance _ _ => some .insufficientBalance
  | .invariantViolationLockedTooLow _ _ => some .invariantViolation
  | .invalidTicketType => some .invalidTicketType
  | .alreadyClaimed _ => some .ticketAlreadyClaimed
  | .regionMismatch _ _ => some .regionMismatch
  | .characterNotFoundOrAlreadyRemoved => some .characterNotFoundOrAlreadyRemoved
  | .invalidStatus _ => some .invalidStatus
  | .cashierNotOnline => some .cashierNotOnline
  | .invalidOpenerRole => some .invalidOpenerRole
  | .disputeNotFound => some .disputeNotFound
  | .disputeAlreadyTerminal _ => some .disputeAlreadyTerminal
  | .invalidAction _ => some .invalidAction
  | .partialRefundRequiresPositiveAmount => some .partialRefundRequiresPositiveAmount
  | .refundFullOnlyForWithdrawDisputes => some .refundFullOnlyForWithdrawDisputes
  | .amountMustBePositive => some .amountMustBePositive
  | .treasuryRowMissing => some .treasuryRowMissing
  | .insufficientTreasurySweep _ _ | .insufficientTreasurySend _ _ => some .insufficientTreasury
  | .cannotWithdrawToTreasurySelf => some .cannotWithdrawToTreasurySelf
  | .cannotBanTreasury => some .cannotBanTreasury
  | _ => none

/-! ## Lowered texts -/

@[simp] theorem lower_append (first second : String) :
    lower (first ++ second) = lower first ++ lower second := by
  simp [lower]

theorem lower_ofList (text : List Char) : lower (String.ofList text) = text.flatMap lowerChar := by
  rw [lower, String.toList_ofList]

/-- A word that neither a number nor an absent value holds a piece of: lower-case letters,
underscores and blanks. -/
structure IsSentinel (word : List Char) : Prop where
  chars : ∀ c ∈ word, c.isLower ∨ c = '_' ∨ c = ' '
  null : ¬ word <:+: ['n', 'u', 'l', 'l']

theorem isSentinel_of_mem : ∀ entry ∈ sentinels, IsSentinel entry.1 := by
  have hchars : (sentinels.all fun entry =>
      entry.1.all fun c => c.isLower ∨ c = '_' ∨ c = ' ') = true := by
    unfold sentinels errorTable
    simp only [List.map]
    repeat rw [String.toList_ofList]
    decide +kernel
  have hnull : ∀ entry ∈ sentinels, ¬ entry.1 <:+: ['n', 'u', 'l', 'l'] := by
    unfold sentinels errorTable
    simp only [List.map]
    repeat rw [String.toList_ofList]
    decide +kernel
  refine fun entry hentry => ⟨fun c hc => ?_, hnull entry hentry⟩
  exact of_decide_eq_true (List.all_eq_true.mp (List.all_eq_true.mp hchars entry hentry) c hc)

variable {word : List Char}

theorem IsSentinel.notMem (hword : IsSentinel word) {c : Char}
    (hc : ¬ (c.isLower ∨ c = '_' ∨ c = ' ')) : c ∉ word :=
  fun hmem => hc (hword.chars c hmem)

/-- A digit is lowered to itself, and stands in no sentinel. -/
theorem lowerChar_digit {c : Char} (hdigit : c.isDigit) :
    lowerChar c = [c] ∧ ¬ (c.isLower ∨ c = '_' ∨ c = ' ') := by
  have hrange : 48 ≤ c.val.toNat ∧ c.val.toNat ≤ 57 := by
    simpa [Char.isDigit, UInt32.le_iff_toNat_le] using hdigit
  have hne : ∀ other : Char, ¬ (48 ≤ other.val.toNat ∧ other.val.toNat ≤ 57) → c ≠ other := by
    rintro other hother rfl
    exact hother hrange
  constructor
  · rw [lowerChar, if_neg (hne _ (by decide)), if_neg (hne _ (by decide))]
    delta Char.toLower
    rw [dif_neg]
    simp only [ge_iff_le, UInt32.le_iff_toNat_le, not_and, not_le]
    have hupper : 'A'.val.toNat = 65 := by decide
    omega
  · rintro (hlower | hsame | hsame)
    · have hletter : 97 ≤ c.val.toNat := by
        delta Char.isLower at hlower
        simp only [Bool.and_eq_true, decide_eq_true_eq, ge_iff_le,
          UInt32.le_iff_toNat_le] at hlower
        exact hlower.1
      omega
    · exact hne _ (by decide) hsame
    · exact hne _ (by decide) hsame

theorem lower_nat (number : Nat) : lower number.repr = Nat.toDigits 10 number := by
  have hdigits : ∀ c ∈ Nat.toDigits 10 number, lowerChar c = [c] := fun c hc =>
    (lowerChar_digit (Nat.isDigit_of_mem_toDigits (by decide) (by decide) hc)).1
  rw [lower, Nat.toList_repr, List.flatMap_congr hdigits, List.flatMap_singleton']

theorem separates_nat (hword : IsSentinel word) (number : Nat) :
    Separates (lower number.repr) word := by
  rw [lower_nat]
  refine .of_disjoint Nat.toDigits_ne_nil fun c hc => hword.notMem ?_
  exact (lowerChar_digit (Nat.isDigit_of_mem_toDigits (by decide) (by decide) hc)).2

/-- A number, or `<NULL>` in its place, parts a message. -/
theorem separates_raiseInt (hword : IsSentinel word) (value : Option Int) :
    Separates (lower (raiseInt value)) word := by
  match value with
  | none =>
      have hnull : lower (raiseInt none) = '<' :: (['n', 'u', 'l', 'l'] ++ ['>']) := by
        decide
      rw [hnull]
      exact .enclosed (hword.notMem (by decide)) (hword.notMem (by decide)) hword.null
  | some (.ofNat number) => exact separates_nat hword number
  | some (.negSucc number) =>
      have hsign : lower (raiseInt (some (.negSucc number))) =
          '-' :: Nat.toDigits 10 number.succ := by
        change lower ("-" ++ number.succ.repr) = _
        rw [lower_append, lower_nat]
        rfl
      rw [hsign]
      refine .of_disjoint (List.cons_ne_nil _ _) ?_
      intro c hc
      rcases List.mem_cons.mp hc with rfl | hc
      · exact hword.notMem (by decide)
      · exact hword.notMem
          (lowerChar_digit (Nat.isDigit_of_mem_toDigits (by decide) (by decide) hc)).2

theorem occurs_render (hword : IsSentinel word) (format : RaiseFormat) :
    word <:+: lower format.render ↔
      (∃ literal ∈ format.literals, word <:+: lower literal) ∨
        ∃ text ∈ format.quotes, word <:+: lower text := by
  induction format with
  | plain literal => simp [RaiseFormat.render, RaiseFormat.literals, RaiseFormat.quotes]
  | number literal value rest ih =>
      rw [RaiseFormat.render, lower_append, lower_append, separates_raiseInt hword value, ih]
      simp only [RaiseFormat.literals, RaiseFormat.quotes, List.exists_mem_cons_iff, or_assoc]
  | quoted literal value rest ih =>
      simp only [RaiseFormat.render, lower_append]
      have hopen : lower "(" = ['('] := by decide
      have hclose : lower ")" = [')'] := by decide
      rw [hopen, Separates.single (hword.notMem (by decide)), hclose,
        Separates.single (hword.notMem (by decide)), ih]
      simp only [RaiseFormat.literals, RaiseFormat.quotes, List.exists_mem_cons_iff]
      rw [or_or_or_comm, or_assoc]

/-! ## Translation -/

/-- Among the literals of a statement stands the sentinel of the class, and none ahead of it. -/
def Speaks (literals : List String) (named : BalanceErrorClass) : Prop :=
  ∃ entry ∈ sentinels.find? fun entry => entry.2 = named,
    (∃ literal ∈ literals, entry.1 <:+: lower literal) ∧
      ∀ ahead ∈ aheadOf sentinels named, ∀ literal ∈ literals, ¬ ahead.1 <:+: lower literal

instance (literals : List String) (named : BalanceErrorClass) :
    Decidable (Speaks literals named) := by
  unfold Speaks
  infer_instance

/-- Every statement is spoken by its class, whatever values it prints. -/
theorem DbError.speaks {error : DbError} {named : BalanceErrorClass}
    (hclass : error.errorClass = some named) (hnamed : named ≠ .balanceError) :
    Speaks error.format.literals named := by
  delta DbError.format DbError.message
  unfold Speaks sentinels errorTable
  simp only [List.map]
  -- spelled out, a literal is read without decoding it
  repeat rw [String.toList_ofList]
  cases error with
  | auditChainKeyNotConfigured | auditChainKeyEmpty =>
      exact absurd (Option.some.inj hclass).symm hnamed
  | globalConfigMissing kind | ticketNotClaimed kind | ticketAlreadyTerminal kind
  | alreadyClaimed kind | disputeAlreadyTerminal kind | regionMismatch _ kind =>
      cases hclass
      cases kind <;>
        (simp only [RaiseFormat.literals, List.mem_cons, exists_eq_or_imp, forall_eq_or_imp,
          TicketType.text, TicketStatus.text, DisputeStatus.text, Region.text, String.reduceAppend]
         repeat rw [lower_ofList]
         decide +kernel)
  | _ =>
      cases hclass <;>
        (simp only [RaiseFormat.literals, List.mem_cons, exists_eq_or_imp, forall_eq_or_imp]
         repeat rw [lower_ofList]
         decide +kernel)

theorem classify_chainKey : ∀ error ∈ [DbError.auditChainKeyNotConfigured, .auditChainKeyEmpty],
    classify sentinels (lower error.message) = none := by
  simp only [classify_eq_none_iff, List.forall_mem_cons]
  delta DbError.message
  unfold sentinels errorTable
  simp only [List.map]
  repeat rw [String.toList_ofList]
  repeat rw [lower_ofList]
  decide +kernel

/-- A raised error is translated to its own class exactly when no text that its message
quotes holds a sentinel from further up the table. -/
theorem translatePgError_class {error : DbError} {named : BalanceErrorClass}
    (hclass : error.errorClass = some named) :
    (translatePgError error.message).errorClass = named ↔
      ∀ entry ∈ aheadOf sentinels named, ∀ text ∈ error.format.quotes,
        ¬ entry.1 <:+: lower text := by
  by_cases hnamed : named = .balanceError
  · subst hnamed
    have hchain : error ∈ [DbError.auditChainKeyNotConfigured, .auditChainKeyEmpty] := by
      cases error with
      | auditChainKeyNotConfigured | auditChainKeyEmpty => simp
      | _ => cases hclass
    refine iff_of_true ?_ ?_
    · rw [translatePgError, classify_chainKey error hchain]
      rfl
    · intro entry _ text htext
      rcases List.mem_pair.mp hchain with rfl | rfl <;> cases htext
  · obtain ⟨⟨word, owner⟩, hentry, hown, hahead⟩ := DbError.speaks hclass hnamed
    obtain rfl : named = owner := (by simpa using List.find?_some hentry : owner = named).symm
    have hmem : ∀ entry ∈ aheadOf sentinels named, entry ∈ sentinels := fun entry hentry =>
      (List.takeWhile_prefix _).subset hentry
    have hoccurs : word <:+: lower error.message := by
      rw [error.message_eq_render,
        occurs_render (isSentinel_of_mem _ (List.mem_of_find?_eq_some hentry))]
      exact .inl hown
    have hsome : (translatePgError error.message).errorClass = named ↔
        classify sentinels (lower error.message) = some named := by
      rw [translatePgError, Option.getD_eq_iff]
      exact or_iff_left fun hnone => hnamed hnone.2.symm
    rw [hsome, classify_eq_some_iff hentry hoccurs, error.message_eq_render]
    refine forall₂_congr fun entry hin => ?_
    rw [occurs_render (isSentinel_of_mem entry (hmem entry hin)), not_or]
    simp only [not_exists, not_and]
    exact and_iff_right (hahead entry hin)

/-- An error that quotes no text is translated to its class. -/
theorem translatePgError_of_unquoted {error : DbError} {named : BalanceErrorClass}
    (hclass : error.errorClass = some named) (hquotes : error.format.quotes = []) :
    translatePgError error.message = ⟨named, error.message⟩ := by
  have hnamed : (translatePgError error.message).errorClass = named := by
    rw [translatePgError_class hclass, hquotes]
    simp
  rw [← hnamed]
  rfl

end DeathRoll
