import DeathRoll.Fairness.UserSeeds
import DeathRoll.Sampling.Pulling

/-! # The outcome of each game

`deathroll_core.fairness.decoders`. A decoder takes the bytes of one draw; those that may
need more of them than there are pull them off `_byte_stream`, which goes on with a chain of
digests.
-/

namespace DeathRoll

open Sampling

/-- What a decoder raises. -/
inductive DecodeError where
  | valueError (message : String)
  | indexError
  | stopIteration
  | overflowError
deriving DecidableEq

/-! ## Streams -/

/-- A generator of bytes: what it has of the current chunk, and the number of the chunk. -/
structure ByteStream where
  pending : Bytes
  counter : ℕ
deriving DecidableEq

/-- `_byte_stream(out)`. -/
def byteStream (out : Bytes) : ByteStream := ⟨out, 0⟩

/-- `next(stream)`. A digest is not empty, so that each chunk has a first byte. -/
def nextByte (crypto : Crypto) (out : Bytes) : Pulling ByteStream DecodeError UInt8 := fun stream =>
  match stream.pending with
  | byte :: rest => .ok (byte, { stream with pending := rest })
  | [] =>
      match counterBytes (stream.counter + 1) with
      | none => .error .overflowError
      | some suffix =>
          match crypto.sha256 (out ++ suffix) with
          | byte :: rest => .ok (byte, ⟨rest, stream.counter + 1⟩)
          | [] => .error .stopIteration

variable {σ : Type}

/-- The loop of `_pull_uint`. -/
def pullUintLoop (next : Pulling σ DecodeError UInt8) : ℕ → ℕ → Pulling σ DecodeError ℕ
  | 0, value => pure value
  | width + 1, value => do
      let byte ← next
      pullUintLoop next width (value <<< 8 ||| byte.toNat)

def pullUint (next : Pulling σ DecodeError UInt8) (width : ℕ) : Pulling σ DecodeError ℕ :=
  pullUintLoop next width 0

/-- `_pull_uint(stream, 4) % (i + 1)`. -/
def pullPick (next : Pulling σ DecodeError UInt8) (i : ℕ) : Pulling σ DecodeError ℕ := do
  let value ← pullUint next 4
  pure (value % (i + 1))

/-- `_fisher_yates_partial`, with the pick for each `i`. -/
def fisherYatesPartial (pick : ℕ → Pulling σ DecodeError ℕ) (n k : ℕ) :
    Pulling σ DecodeError (List ℕ) := do
  if ¬ (0 < k ∧ k ≤ n) then throw (.valueError s!"k out of range: k={k} n={n}")
  let arr := List.range n
  let bound := max 1 (n - k)
  let arr ← swapLoop pick (n - bound) (n - 1) arr
  pure (arr.drop (n - k)).reverse

/-- `_fisher_yates_full`, with the pick for each `i`. -/
def fisherYatesFull (pick : ℕ → Pulling σ DecodeError ℕ) (n : ℕ) : Pulling σ DecodeError (List ℕ) :=
  swapLoop pick (n - 1) (n - 1) (List.range n)

/-! ## Decoders -/

inductive CoinSide where
  | heads
  | tails
deriving DecidableEq

inductive Temperature where
  | hot
  | cold
  | rainbow
deriving DecidableEq

structure StakingRound where
  playerRoll : ℕ
  botRoll : ℕ
deriving DecidableEq

/-- `out[i]`. -/
def byteAt (out : Bytes) (i : ℕ) : Except DecodeError ℕ :=
  match out[i]? with
  | none => .error .indexError
  | some byte => .ok byte.toNat

/-- `int.from_bytes(bytes, "big")`. -/
def fromBytes (bytes : Bytes) : ℕ := bytes.foldl (fun value byte => value * 256 + byte.toNat) 0

def decodeCoinflip (out : Bytes) : Except DecodeError CoinSide := do
  let byte ← byteAt out 0
  pure (if byte &&& 1 = 0 then .heads else .tails)

/-- In hundredths. -/
def decodeDice (out : Bytes) : ℕ := fromBytes (out.take 4) % 10000

def decode99x (out : Bytes) : Except DecodeError ℕ := do
  let byte ← byteAt out 0
  pure (byte % 100 + 1)

def decodeHotcold (out : Bytes) : Temperature :=
  let n := fromBytes (out.take 2) % 10000
  if n < 500 then .rainbow else if n < 5250 then .hot else .cold

def decodeRouletteEu (out : Bytes) : ℕ := fromBytes (out.take 2) % 37

def decodeMinesPositions (crypto : Crypto) (out : Bytes) (minesCount gridSize : ℤ) :
    Except DecodeError (List ℕ) :=
  if ¬ (1 ≤ minesCount ∧ minesCount < gridSize) then
    .error (.valueError
      s!"mines_count out of range: {minesCount} (must be in [1, {gridSize - 1}])")
  else
    (fisherYatesPartial (pullPick (nextByte crypto out)) gridSize.toNat minesCount.toNat).run'
      (byteStream out)

/-- `[c for c in range(52) for _ in range(decks)]`. -/
def sortedShoe (decks : ℕ) : List ℕ := (List.range 52).flatMap fun c => List.replicate decks c

def decodeBlackjackDeck (crypto : Crypto) (out : Bytes) (decks : ℤ) :
    Except DecodeError (List ℕ) :=
  if decks ≤ 0 then .error (.valueError s!"decks must be positive: {decks}")
  else
    let cards := sortedShoe decks.toNat
    let n := cards.length
    (swapLoop (pullPick (nextByte crypto out)) (n - 1) (n - 1) cards).run' (byteStream out)

def decodeDiceDuel (out : Bytes) : Except DecodeError (ℕ × ℕ) := do
  let first ← byteAt out 0
  let second ← byteAt out 1
  pure (first % 12 + 1, second % 12 + 1)

/-- The loop of `decode_staking_duel`. -/
def stakingLoop (next : Pulling σ DecodeError UInt8) : ℕ → Pulling σ DecodeError (List StakingRound)
  | 0 => pure []
  | rounds + 1 => do
      let p ← next
      let b ← next
      let later ← stakingLoop next rounds
      pure (⟨p.toNat % 12 + 1, b.toNat % 12 + 1⟩ :: later)

def decodeStakingDuel (crypto : Crypto) (out : Bytes) (maxRounds : ℤ) :
    Except DecodeError (List StakingRound) :=
  if maxRounds ≤ 0 then .error (.valueError s!"max_rounds must be positive: {maxRounds}")
  else (stakingLoop (nextByte crypto out) maxRounds.toNat).run' (byteStream out)

def decodeRaffleWinners (crypto : Crypto) (out : Bytes) (ticketCount : ℤ) :
    Except DecodeError (List ℕ) :=
  if ticketCount < 3 then
    .error (.valueError s!"need at least 3 tickets for 3 winners; got {ticketCount}")
  else
    (fisherYatesPartial (pullPick (nextByte crypto out)) ticketCount.toNat 3).run' (byteStream out)

/-! ## All games -/

/-- A game with the arguments of its decoder. -/
inductive DecodedGame where
  | coinflip
  | dice
  | ninetyNineX
  | hotcold
  | roulette
  | mines (minesCount gridSize : ℤ)
  | blackjack (decks : ℤ)
  | diceduel
  | staking (maxRounds : ℤ)
  | raffle (ticketCount : ℤ)
deriving DecidableEq

inductive Outcome where
  | side (side : CoinSide)
  | number (n : ℕ)
  | temperature (temperature : Temperature)
  | numbers (ns : List ℕ)
  | rolls (first second : ℕ)
  | rounds (rounds : List StakingRound)
deriving DecidableEq

def DecodedGame.decode (crypto : Crypto) (out : Bytes) : DecodedGame → Except DecodeError Outcome
  | .coinflip => Outcome.side <$> decodeCoinflip out
  | .dice => .ok (.number (decodeDice out))
  | .ninetyNineX => Outcome.number <$> decode99x out
  | .hotcold => .ok (.temperature (decodeHotcold out))
  | .roulette => .ok (.number (decodeRouletteEu out))
  | .mines minesCount gridSize => Outcome.numbers <$> decodeMinesPositions crypto out minesCount gridSize
  | .blackjack decks => Outcome.numbers <$> decodeBlackjackDeck crypto out decks
  | .diceduel => (fun rolls => Outcome.rolls rolls.1 rolls.2) <$> decodeDiceDuel out
  | .staking maxRounds => Outcome.rounds <$> decodeStakingDuel crypto out maxRounds
  | .raffle ticketCount => Outcome.numbers <$> decodeRaffleWinners crypto out ticketCount

end DeathRoll
