import Mathlib.Algebra.Order.Ring.Int

/-! # Column types

The scalar types of the schema and the enumerations its `CHECK (... IN ...)`
constraints admit. Text that reaches such a column is converted on the way in,
so a stored value is always one of the admitted ones.
-/

namespace DeathRoll

abbrev Bytes := List UInt8

/-- `TIMESTAMPTZ`, in microseconds since the epoch. -/
abbrev Timestamp := Int

/-- `value` fits a signed 64-bit column. -/
def InBigint (value : Int) : Prop := -2 ^ 63 ≤ value ∧ value < 2 ^ 63

instance (value : Int) : Decidable (InBigint value) := instDecidableAnd

/-! What the columns that default to zero hold fits them and passes their checks. -/

theorem inBigint_zero : InBigint 0 := by decide

theorem zero_nonneg : (0 : Int) ≤ 0 := le_rfl

/-- `value` fits a signed 32-bit variable. -/
def InInteger (value : Int) : Prop := -2 ^ 31 ≤ value ∧ value < 2 ^ 31

instance (value : Int) : Decidable (InInteger value) := instDecidableAnd

/-- Division of a `NUMERIC` by a positive integer, rounded half away from zero:
how a cast to `BIGINT` rounds. -/
def roundDiv (value divisor : Int) : Int :=
  if 0 ≤ value then (2 * value + divisor) / (2 * divisor)
  else -((2 * -value + divisor) / (2 * divisor))

/-- `EXTRACT(EPOCH FROM interval)::BIGINT` of a microsecond count. -/
def epochSeconds (microseconds : Int) : Int := roundDiv microseconds 1000000

/-- A `NUMERIC` that is neither `NaN` nor infinite: `unscaled / 10 ^ scale`. -/
structure Numeric where
  unscaled : Int
  scale : Nat
deriving DecidableEq

/-- `FLOOR(factor * value)`. -/
def Numeric.floorMul (value : Numeric) (factor : Int) : Int :=
  (factor * value.unscaled).fdiv (10 ^ value.scale)

/-- The decimal digits of the absolute value, at least one before the point. -/
def Numeric.text (value : Numeric) : String :=
  let digits := (Nat.repr value.unscaled.natAbs).toList
  let padded := List.replicate (value.scale + 1 - digits.length) '0' ++ digits
  let whole := String.ofList (padded.take (padded.length - value.scale))
  let sign := if value.unscaled < 0 then "-" else ""
  if value.scale = 0 then sign ++ whole
  else sign ++ whole ++ "." ++ String.ofList (padded.drop (padded.length - value.scale))

/-- A `JSONB` value. -/
inductive Json where
  | null
  | bool (value : Bool)
  | int (value : Int)
  | text (value : String)
  | arr (items : List Json)
  | obj (fields : List (String × Json))

/-- `jsonb_build_object` renders a SQL `NULL` as JSON `null`. -/
def Json.ofInt? : Option Int → Json
  | some value => .int value
  | none => .null

def Json.ofText? : Option String → Json
  | some value => .text value
  | none => .null

/-- `format('%s', _)` prints nothing for `NULL`. -/
def formatInt : Option Int → String
  | some value => toString value
  | none => ""

def formatText : Option String → String
  | some value => value
  | none => ""

/-! ## Enumerations -/

inductive Region where
  | EU
  | NA
deriving DecidableEq

def Region.texts : List String := ["EU", "NA"]

def Region.ofText : String → Option Region
  | "EU" => some .EU
  | "NA" => some .NA
  | _ => none

def Region.text : Region → String
  | .EU => "EU"
  | .NA => "NA"

inductive Faction where
  | Alliance
  | Horde
deriving DecidableEq

def Faction.texts : List String := ["Alliance", "Horde"]

def Faction.ofText : String → Option Faction
  | "Alliance" => some .Alliance
  | "Horde" => some .Horde
  | _ => none

def Faction.text : Faction → String
  | .Alliance => "Alliance"
  | .Horde => "Horde"

theorem Region.text_mem_texts (region : Region) : region.text ∈ Region.texts := by
  cases region <;> decide

theorem Faction.text_mem_texts (faction : Faction) : faction.text ∈ Faction.texts := by
  cases faction <;> decide

theorem Region.ofText_text (region : Region) : Region.ofText region.text = some region := by
  cases region <;> rfl

theorem Faction.ofText_text (faction : Faction) : Faction.ofText faction.text = some faction := by
  cases faction <;> rfl

inductive TicketType where
  | deposit
  | withdraw
deriving DecidableEq

def TicketType.texts : List String := ["deposit", "withdraw"]

def TicketType.ofText : String → Option TicketType
  | "deposit" => some .deposit
  | "withdraw" => some .withdraw
  | _ => none

def TicketType.text : TicketType → String
  | .deposit => "deposit"
  | .withdraw => "withdraw"

inductive TicketStatus where
  | «open»
  | claimed
  | confirmed
  | cancelled
  | expired
  | disputed
deriving DecidableEq

def TicketStatus.text : TicketStatus → String
  | .open => "open"
  | .claimed => "claimed"
  | .confirmed => "confirmed"
  | .cancelled => "cancelled"
  | .expired => "expired"
  | .disputed => "disputed"

/-- `status IN ('confirmed','cancelled','expired')`. -/
def TicketStatus.Terminal (status : TicketStatus) : Prop :=
  status = .confirmed ∨ status = .cancelled ∨ status = .expired

instance (status : TicketStatus) : Decidable status.Terminal := instDecidableOr

inductive CashierState where
  | online
  | offline
  | break
deriving DecidableEq

def CashierState.texts : List String := ["online", "offline", "break"]

def CashierState.ofText : String → Option CashierState
  | "online" => some .online
  | "offline" => some .offline
  | "break" => some .break
  | _ => none

def CashierState.text : CashierState → String
  | .online => "online"
  | .offline => "offline"
  | .break => "break"

inductive SessionEnd where
  | manualOffline
  | manualBreak
  | autoDisconnect
  | adminForce
  | expired
deriving DecidableEq

inductive OpenerRole where
  | admin
  | user
  | system
deriving DecidableEq

def OpenerRole.texts : List String := ["admin", "user", "system"]

def OpenerRole.ofText : String → Option OpenerRole
  | "admin" => some .admin
  | "user" => some .user
  | "system" => some .system
  | _ => none

inductive DisputeStatus where
  | «open»
  | investigating
  | resolved
  | rejected
deriving DecidableEq

def DisputeStatus.text : DisputeStatus → String
  | .open => "open"
  | .investigating => "investigating"
  | .resolved => "resolved"
  | .rejected => "rejected"

inductive BetStatus where
  | «open»
  | resolvedWin
  | resolvedLoss
  | resolvedTie
  | refunded
  | voided
deriving DecidableEq

def BetStatus.ofText : String → Option BetStatus
  | "open" => some .open
  | "resolved_win" => some .resolvedWin
  | "resolved_loss" => some .resolvedLoss
  | "resolved_tie" => some .resolvedTie
  | "refunded" => some .refunded
  | "voided" => some .voided
  | _ => none

def BetStatus.text : BetStatus → String
  | .open => "open"
  | .resolvedWin => "resolved_win"
  | .resolvedLoss => "resolved_loss"
  | .resolvedTie => "resolved_tie"
  | .refunded => "refunded"
  | .voided => "voided"

inductive PeriodStatus where
  | active
  | drawing
  | closed
deriving DecidableEq

def PeriodStatus.text : PeriodStatus → String
  | .active => "active"
  | .drawing => "drawing"
  | .closed => "closed"

inductive ActorType where
  | user
  | admin
  | system
  | cashier
  | bot
deriving DecidableEq

def OpenerRole.actorType : OpenerRole → ActorType
  | .admin => .admin
  | .user => .user
  | .system => .system

end DeathRoll
