import DeathRoll.Fairness.Shuffling

/-! # The public verifiers

`docs/verifier/verify.py` and `docs/verifier/verify.js`, after their arguments are read. Both
extend the HMAC to 4096 bytes and hand these to decoders that go on with a chain of their
own, so past 4096 bytes they see other bytes than the bot.
-/

namespace DeathRoll

open Sampling

variable {σ : Type}

/-! ## `verify.py`

Its copies of the stream and of most decoders are the bot's, word for word. -/

namespace VerifyPy

/-- `_fisher_yates_partial`, which does not check `k`. -/
def fisherYatesPartial (pick : ℕ → Pulling σ DecodeError ℕ) (n k : ℕ) :
    Pulling σ DecodeError (List ℕ) := do
  let bound := max 1 (n - k)
  let arr ← swapLoop pick (n - bound) (n - 1) (List.range n)
  pure (arr.drop (n - k)).reverse

def decodeMinesPositions (crypto : Crypto) (out : Bytes) (minesCount gridSize : ℤ) :
    Except DecodeError (List ℕ) :=
  if ¬ (1 ≤ minesCount ∧ minesCount < gridSize) then
    .error (.valueError
      s!"mines_count out of range: {minesCount} (must be in [1, {gridSize - 1}])")
  else
    (fisherYatesPartial (pullPick (nextByte crypto out)) gridSize.toNat minesCount.toNat).run'
      (byteStream out)

def decodeRaffleWinners (crypto : Crypto) (out : Bytes) (ticketCount : ℤ) :
    Except DecodeError (List ℕ) :=
  if ticketCount < 3 then
    .error (.valueError s!"need at least 3 tickets for 3 winners; got {ticketCount}")
  else
    (fisherYatesPartial (pullPick (nextByte crypto out)) ticketCount.toNat 3).run' (byteStream out)

/-- `_decode`. -/
def decode (crypto : Crypto) (out : Bytes) : DecodedGame → Except DecodeError Outcome
  | .mines minesCount gridSize =>
      Outcome.numbers <$> decodeMinesPositions crypto out minesCount gridSize
  | .raffle ticketCount => Outcome.numbers <$> decodeRaffleWinners crypto out ticketCount
  | game => game.decode crypto out

def main (crypto : Crypto) (game : DecodedGame) (serverSeed : Bytes) (clientSeed : String)
    (nonce : ℤ) : Except DecodeError Outcome := do
  let head := compute crypto serverSeed clientSeed nonce
  let out ← extended crypto head 4096
  decode crypto out game

end VerifyPy

/-! ## `verify.js` -/

namespace VerifyJs

/-- The number that `parseInt` makes of the digits of `n`: the nearest of 53 bits, of two
equally near ones the even one. -/
def toDouble (n : ℕ) : ℕ :=
  let unit := 2 ^ (n.log2 - 52)
  let q := n / unit
  if 2 * (n % unit) < unit ∨ 2 * (n % unit) = unit ∧ q % 2 = 0 then q * unit else (q + 1) * unit

def parseInt (n : ℤ) : ℤ := if n < 0 then -toDouble n.natAbs else toDouble n.natAbs

/-- An array filled by `push`, which throws a `RangeError` at `2 ** 32` elements. -/
def pushed {α : Type} (elements : List α) : Except DecodeError (List α) :=
  if elements.length < 2 ^ 32 then .ok elements else .error .overflowError

/-- `out[i]`, for an index that the 4096 bytes of `main` have. -/
def byteOf (out : Bytes) (i : ℕ) : ℕ := (out.getD i 0).toNat

/-- The loop of `pullUint`. -/
def pullUintLoop (next : Pulling σ DecodeError UInt8) : ℕ → ℕ → Pulling σ DecodeError ℕ
  | 0, value => pure value
  | width + 1, value => do
      let byte ← next
      pullUintLoop next width (value * 256 + byte.toNat)

def pullUint (next : Pulling σ DecodeError UInt8) (width : ℕ) : Pulling σ DecodeError ℕ :=
  pullUintLoop next width 0

/-- `pullUint(stream, 4) % (i + 1)`. -/
def pullPick (next : Pulling σ DecodeError UInt8) (i : ℕ) : Pulling σ DecodeError ℕ := do
  let value ← pullUint next 4
  pure (value % (i + 1))

def fisherYatesPartial (pick : ℕ → Pulling σ DecodeError ℕ) (n k : ℕ) :
    Pulling σ DecodeError (List ℕ) := do
  let arr ← liftM (pushed (List.range n))
  let bound := max 1 (n - k)
  let arr ← swapLoop pick (n - bound) (n - 1) arr
  pure (arr.drop (n - k)).reverse

def decodeCoinflip (out : Bytes) : CoinSide := if byteOf out 0 &&& 1 = 0 then .heads else .tails

/-- In hundredths. -/
def decodeDice (out : Bytes) : ℕ :=
  (byteOf out 0 * 0x1000000 + byteOf out 1 * 0x10000 + byteOf out 2 * 0x100 + byteOf out 3) % 10000

def decode99x (out : Bytes) : ℕ := byteOf out 0 % 100 + 1

def decodeHotcold (out : Bytes) : Temperature :=
  let n := (byteOf out 0 <<< 8 ||| byteOf out 1) % 10000
  if n < 500 then .rainbow else if n < 5250 then .hot else .cold

def decodeRouletteEu (out : Bytes) : ℕ := (byteOf out 0 <<< 8 ||| byteOf out 1) % 37

def decodeMinesPositions (crypto : Crypto) (out : Bytes) (minesCount gridSize : ℤ) :
    Except DecodeError (List ℕ) :=
  if ¬ (1 ≤ minesCount ∧ minesCount < gridSize) then
    .error (.valueError
      s!"mines_count out of range: {minesCount} (must be in [1, {gridSize - 1}])")
  else
    (fisherYatesPartial (pullPick (nextByte crypto out)) gridSize.toNat minesCount.toNat).run'
      (byteStream out)

def decodeBlackjackDeck (crypto : Crypto) (out : Bytes) (decks : ℤ) :
    Except DecodeError (List ℕ) :=
  if decks ≤ 0 then .error (.valueError s!"decks must be positive: {decks}")
  else do
    let cards ← pushed (sortedShoe decks.toNat)
    let n := cards.length
    (swapLoop (pullPick (nextByte crypto out)) (n - 1) (n - 1) cards).run' (byteStream out)

def decodeDiceDuel (out : Bytes) : ℕ × ℕ := (byteOf out 0 % 12 + 1, byteOf out 1 % 12 + 1)

def decodeStakingDuel (crypto : Crypto) (out : Bytes) (maxRounds : ℤ) :
    Except DecodeError (List StakingRound) :=
  if maxRounds ≤ 0 then .error (.valueError s!"max_rounds must be positive: {maxRounds}")
  else do
    let rounds ← (stakingLoop (nextByte crypto out) maxRounds.toNat).run' (byteStream out)
    pushed rounds

def decodeRaffleWinners (crypto : Crypto) (out : Bytes) (ticketCount : ℤ) :
    Except DecodeError (List ℕ) :=
  if ticketCount < 3 then
    .error (.valueError s!"need at least 3 tickets for 3 winners; got {ticketCount}")
  else
    (fisherYatesPartial (pullPick (nextByte crypto out)) ticketCount.toNat 3).run' (byteStream out)

def dispatch (crypto : Crypto) (out : Bytes) : DecodedGame → Except DecodeError Outcome
  | .coinflip => .ok (.side (decodeCoinflip out))
  | .dice => .ok (.number (decodeDice out))
  | .ninetyNineX => .ok (.number (decode99x out))
  | .hotcold => .ok (.temperature (decodeHotcold out))
  | .roulette => .ok (.number (decodeRouletteEu out))
  | .diceduel => .ok (.rolls (decodeDiceDuel out).1 (decodeDiceDuel out).2)
  | .mines minesCount gridSize =>
      Outcome.numbers <$> decodeMinesPositions crypto out (parseInt minesCount) (parseInt gridSize)
  | .blackjack decks => Outcome.numbers <$> decodeBlackjackDeck crypto out (parseInt decks)
  | .staking maxRounds => Outcome.rounds <$> decodeStakingDuel crypto out (parseInt maxRounds)
  | .raffle ticketCount => Outcome.numbers <$> decodeRaffleWinners crypto out (parseInt ticketCount)

def main (crypto : Crypto) (game : DecodedGame) (serverSeed : Bytes) (clientSeed : String)
    (nonce : ℤ) : Except DecodeError Outcome := do
  let head := compute crypto serverSeed clientSeed (parseInt nonce)
  let out ← extended crypto head 4096
  dispatch crypto out game

end VerifyJs

namespace DecodedGame

/-- The length of the array that a decoder shuffles or fills. -/
def arrayLength : DecodedGame → ℕ
  | .mines _ gridSize => gridSize.toNat
  | .blackjack decks => 52 * decks.toNat
  | .staking maxRounds => maxRounds.toNat
  | .raffle ticketCount => ticketCount.toNat
  | _ => 0

end DecodedGame

/-! ## The same bytes, the same outcome -/

variable {crypto : Crypto} {out : Bytes} {game : DecodedGame} {next : Pulling σ DecodeError UInt8}

namespace VerifyPy

theorem fisherYatesPartial_eq {n k : ℕ} (hk : 0 < k) (hn : k ≤ n)
    (pick : ℕ → Pulling σ DecodeError ℕ) :
    fisherYatesPartial pick n k = DeathRoll.fisherYatesPartial pick n k := by
  unfold fisherYatesPartial DeathRoll.fisherYatesPartial
  rw [if_neg (not_not.mpr ⟨hk, hn⟩)]

/-- The check that `verify.py` leaves out never fails. -/
theorem decode_eq (crypto : Crypto) (out : Bytes) (game : DecodedGame) :
    decode crypto out game = game.decode crypto out := by
  cases game with
  | mines minesCount gridSize =>
      rw [decode, DecodedGame.decode, decodeMinesPositions, DeathRoll.decodeMinesPositions]
      split_ifs with hrange
      · rw [fisherYatesPartial_eq (by omega) (by omega)]
      · rfl
  | raffle ticketCount =>
      rw [decode, DecodedGame.decode, decodeRaffleWinners, DeathRoll.decodeRaffleWinners]
      split_ifs with hrange
      · rfl
      · rw [fisherYatesPartial_eq (by omega) (by omega)]
  | _ => rfl

end VerifyPy

namespace VerifyJs

theorem parseInt_eq {n : ℤ} (hn : n.natAbs < 2 ^ 53) : parseInt n = n := by
  have hunit : n.natAbs.log2 - 52 = 0 := by
    rcases Nat.eq_zero_or_pos n.natAbs with hzero | hpos
    · rw [hzero]
      rfl
    · have := (Nat.log2_lt (Nat.ne_of_gt hpos)).mpr hn
      omega
  have hexact : toDouble n.natAbs = n.natAbs := by
    simp [toDouble, hunit, Nat.mod_one]
  unfold parseInt
  rw [hexact]
  split <;> omega

theorem length_roundsOf (rounds : ℕ) (bytes : Bytes) : (roundsOf rounds bytes).length = rounds := by
  induction rounds generalizing bytes with
  | zero => rfl
  | succ rounds ih => rw [roundsOf, List.length_cons, ih]

theorem reads_pullUintLoop (next : Pulling σ DecodeError UInt8) (width value : ℕ) :
    Reads next width (fun bytes => bytes.foldl (fun v byte => v * 256 + byte.toNat) value)
      (pullUintLoop next width value) := by
  induction width generalizing value with
  | zero => exact .pure next _
  | succ width ih =>
      have hread := (Reads.item next).bind fun byte => ih (value * 256 + byte.toNat)
      rw [Nat.add_comm 1] at hread
      refine hread.congr fun bytes hbytes => ?_
      cases bytes with
      | nil => simp at hbytes
      | cons byte rest => rfl

/-- Multiplying is as good as shifting. -/
theorem pullPick_eq (next : Pulling σ DecodeError UInt8) :
    pullPick next = DeathRoll.pullPick next := by
  funext i
  have huint : pullUint next 4 = DeathRoll.pullUint next 4 :=
    (reads_pullUintLoop next 4 0).trans (reads_pullUint next 4).symm
  rw [pullPick, DeathRoll.pullPick, huint]

theorem fisherYatesPartial_eq {n k : ℕ} (hk : 0 < k) (hn : k ≤ n) (hlength : n < 2 ^ 32)
    (pick : ℕ → Pulling σ DecodeError ℕ) :
    fisherYatesPartial pick n k = DeathRoll.fisherYatesPartial pick n k := by
  unfold fisherYatesPartial DeathRoll.fisherYatesPartial pushed
  rw [if_neg (not_not.mpr ⟨hk, hn⟩), if_pos (by rwa [List.length_range])]
  rfl

theorem fisherYatesPartial_raises {n : ℕ} (hlength : 2 ^ 32 ≤ n) (k : ℕ)
    (pick : ℕ → Pulling σ DecodeError ℕ) (s : σ) :
    (fisherYatesPartial pick n k).run' s = .error .overflowError := by
  unfold fisherYatesPartial pushed
  rw [if_neg (by rw [List.length_range]; omega)]
  rfl

/-- On the bytes of `main`, and where the arrays fit, `verify.js` does as the bot does. -/
theorem dispatch_eq (haccepts : game.Accepts) (hlength : game.arrayLength < 2 ^ 32)
    (hout : 4 ≤ out.length) {outcome : Outcome} (hok : game.decode crypto out = .ok outcome) :
    dispatch crypto out game = .ok outcome := by
  obtain ⟨a, b, c, d, rest, rfl⟩ : ∃ a b c d rest, out = a :: b :: c :: d :: rest := by
    match out, hout with
    | a :: b :: c :: d :: rest, _ => exact ⟨a, b, c, d, rest, rfl⟩
  rw [← hok]
  cases game with
  | coinflip | ninetyNineX | diceduel => rfl
  -- here the verifier reads the bytes in its own way
  | dice =>
      have hvalue : decodeDice (a :: b :: c :: d :: rest) =
          DeathRoll.decodeDice (a :: b :: c :: d :: rest) := by
        simp only [decodeDice, DeathRoll.decodeDice, byteOf, fromBytes, List.take_succ_cons,
          List.take_zero, List.foldl_cons, List.foldl_nil, List.getD_cons_zero, List.getD_cons_succ]
        omega
      rw [dispatch, hvalue]
      rfl
  | hotcold =>
      have hvalue : decodeHotcold (a :: b :: c :: d :: rest) =
          DeathRoll.decodeHotcold (a :: b :: c :: d :: rest) := by
        simp [decodeHotcold, DeathRoll.decodeHotcold, byteOf, fromBytes, shift_or]
      rw [dispatch, hvalue]
      rfl
  | roulette =>
      have hvalue : decodeRouletteEu (a :: b :: c :: d :: rest) =
          DeathRoll.decodeRouletteEu (a :: b :: c :: d :: rest) := by
        simp [decodeRouletteEu, DeathRoll.decodeRouletteEu, byteOf, fromBytes, shift_or]
      rw [dispatch, hvalue]
      rfl
  -- from here on the parameters pass through `parseInt`, and the arrays through their length check
  | mines minesCount gridSize =>
      have hrange : 1 ≤ minesCount ∧ minesCount < gridSize := haccepts
      have hfits : gridSize.toNat < 2 ^ 32 := hlength
      rw [dispatch, parseInt_eq (by omega), parseInt_eq (by omega), decodeMinesPositions,
        DecodedGame.decode, DeathRoll.decodeMinesPositions, if_neg (not_not.mpr hrange),
        if_neg (not_not.mpr hrange), fisherYatesPartial_eq (by omega) (by omega) hfits, pullPick_eq]
  | blackjack decks =>
      have hdecks : 0 < decks := haccepts
      have hfits : 52 * decks.toNat < 2 ^ 32 := hlength
      rw [dispatch, parseInt_eq (by omega), decodeBlackjackDeck, DecodedGame.decode,
        DeathRoll.decodeBlackjackDeck, if_neg (not_le.mpr hdecks), if_neg (not_le.mpr hdecks), pushed,
        if_pos (by rwa [length_sortedShoe]), pullPick_eq]
      rfl
  | staking maxRounds =>
      have hrounds : 0 < maxRounds := haccepts
      have hfits : maxRounds.toNat < 2 ^ 32 := hlength
      rw [dispatch, parseInt_eq (by omega), decodeStakingDuel, DecodedGame.decode,
        DeathRoll.decodeStakingDuel, if_neg (not_le.mpr hrounds), if_neg (not_le.mpr hrounds)]
      -- the rounds are pushed one by one, so their number counts
      rw [DecodedGame.decode, DeathRoll.decodeStakingDuel, if_neg (not_le.mpr hrounds)] at hok
      obtain ⟨rounds, hok, -⟩ := except_map_eq_ok.mp hok
      have hlengths : rounds.length = maxRounds.toNat := by
        rw [(reads_stakingLoop _ _).run'_eq] at hok
        obtain ⟨bytes, -, rfl⟩ := except_map_eq_ok.mp hok
        exact length_roundsOf _ bytes
      have hpushed : pushed rounds = .ok rounds := if_pos (by omega)
      rw [hok]
      change Outcome.rounds <$> pushed rounds = _
      rw [hpushed]
  | raffle ticketCount =>
      have htickets : 3 ≤ ticketCount := haccepts
      have hfits : ticketCount.toNat < 2 ^ 32 := hlength
      rw [dispatch, parseInt_eq (by omega), decodeRaffleWinners, DecodedGame.decode,
        DeathRoll.decodeRaffleWinners, if_neg (not_lt.mpr htickets), if_neg (not_lt.mpr htickets),
        fisherYatesPartial_eq (by decide) (by omega) hfits, pullPick_eq]

end VerifyJs

/-! ## Where the verifiers agree with the bot -/

namespace DecodedGame

/-- Whatever the seeds, both verifiers compute the outcome of the bot. -/
def Reproduced (game : DecodedGame) : Prop :=
  ∀ crypto : Crypto, (∀ key message, (crypto.hmacSha512 key message).length = 64) →
    (∀ input, (crypto.sha256 input).length = 32) →
    ∀ serverSeed clientSeed nonce, 0 ≤ nonce → nonce < 2 ^ 53 → ∀ outcome,
      game.decode crypto (compute crypto serverSeed clientSeed nonce) = .ok outcome →
        VerifyPy.main crypto game serverSeed clientSeed nonce = .ok outcome ∧
        VerifyJs.main crypto game serverSeed clientSeed nonce = .ok outcome

end DecodedGame

end DeathRoll
