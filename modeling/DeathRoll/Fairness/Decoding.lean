import DeathRoll.Fairness.Decoders
import DeathRoll.Fairness.Verifiable

/-! # Decoders as functions of the bytes they use

Each decoder uses a number of bytes that its arguments alone fix, and makes its outcome of
them. `_byte_stream` and `_extend` give the same bytes, so a decoder does the same on a draw
and on a longer or shorter extension of it.
-/

namespace DeathRoll

open Sampling

variable {crypto : Crypto} {out bytes : Bytes} {σ : Type} {next : Pulling σ DecodeError UInt8}

/-! ## The stream and the extension -/

theorem pull_pending {count : ℕ} {pending : Bytes} (henough : count ≤ pending.length)
    (counter : ℕ) :
    (pull (nextByte crypto out) count).run ⟨pending, counter⟩ =
      .ok (pending.take count, ⟨pending.drop count, counter⟩) := by
  induction count generalizing pending with
  | zero => rfl
  | succ count ih =>
      cases pending with
      | nil => cases henough
      | cons byte rest =>
          have hnext : (nextByte crypto out).run ⟨byte :: rest, counter⟩ =
            .ok (byte, ⟨rest, counter⟩) := rfl
          rw [pull_succ_run hnext, ih (Nat.le_of_succ_le_succ henough)]
          rfl

/-- A generator with too few bytes left of its chunk is as good as one that has the next
chunk already. -/
theorem pull_refill (hdigest : ∀ input, (crypto.sha256 input).length = 32) {count : ℕ}
    {pending : Bytes} (hmore : pending.length < count) (counter : ℕ) :
    (pull (nextByte crypto out) count).run' ⟨pending, counter⟩ =
      match counterBytes (counter + 1) with
      | none => .error .overflowError
      | some suffix => (pull (nextByte crypto out) count).run'
          ⟨pending ++ crypto.sha256 (out ++ suffix), counter + 1⟩ := by
  obtain ⟨count, rfl⟩ := Nat.exists_eq_succ_of_ne_zero (Nat.ne_zero_of_lt hmore)
  induction pending generalizing count with
  | nil =>
      cases hsuffix : counterBytes (counter + 1) with
      | none =>
          apply pull_succ_raises
          simp [nextByte, StateT.run, hsuffix]
      | some suffix =>
          obtain ⟨byte, rest, hchunk⟩ := List.exists_cons_of_length_pos
            (lt_of_lt_of_eq (by decide : 0 < 32) (hdigest (out ++ suffix)).symm)
          have hnext : (nextByte crypto out).run ⟨[], counter⟩ =
              .ok (byte, ⟨rest, counter + 1⟩) := by
            simp [nextByte, StateT.run, hsuffix, hchunk]
          have hnext' : (nextByte crypto out).run ⟨byte :: rest, counter + 1⟩ =
              .ok (byte, ⟨rest, counter + 1⟩) := rfl
          dsimp only
          rw [hchunk, List.nil_append, pull_succ_run' hnext, pull_succ_run' hnext']
  | cons byte rest ih =>
      have hnext : ∀ pending counter, (nextByte crypto out).run ⟨byte :: pending, counter⟩ =
          .ok (byte, ⟨pending, counter⟩) := fun _ _ => rfl
      obtain ⟨count, rfl⟩ := Nat.exists_eq_succ_of_ne_zero
        (Nat.ne_zero_of_lt (Nat.lt_of_succ_lt_succ hmore))
      rw [pull_succ_run' (hnext _ _), ih count (Nat.lt_of_succ_lt_succ hmore)]
      cases hsuffix : counterBytes (counter + 1) with
      | none => rfl
      | some suffix =>
          dsimp only
          rw [List.cons_append, pull_succ_run' (hnext _ _)]

/-- What `extend` returns or raises. -/
def extended (crypto : Crypto) (out : Bytes) (byteCount : ℕ) : Except DecodeError Bytes :=
  match extend crypto out byteCount with
  | none => .error .overflowError
  | some bytes => .ok bytes

theorem length_extendLoop {fuel counter count : ℕ} {sofar : Bytes}
    (hdigest : ∀ input, (crypto.sha256 input).length = 32)
    (hbytes : extendLoop crypto out count fuel counter sofar = some bytes) :
    count ≤ sofar.length + 32 * (2 ^ 32 - 1 - counter) := by
  induction fuel generalizing counter sofar with
  | zero =>
      rw [extendLoop] at hbytes
      split_ifs at hbytes with hmore
      omega
  | succ fuel ih =>
      rw [extendLoop] at hbytes
      split_ifs at hbytes with hmore
      · unfold counterBytes at hbytes
        split_ifs at hbytes with hcounter
        · have hlater := ih hbytes
          rw [List.length_append, hdigest] at hlater
          omega
        · cases hbytes
      · omega

/-- The extension raises exactly when the counter would leave its four bytes. -/
theorem extended_ok_iff (hdigest : ∀ input, (crypto.sha256 input).length = 32) {count : ℕ} :
    (∃ bytes, extended crypto out count = .ok bytes) ↔
      count ≤ out.length + 32 * (2 ^ 32 - 1) := by
  unfold extended
  constructor
  · rintro ⟨bytes, hbytes⟩
    split at hbytes
    next => cases hbytes
    next bytes' hextend =>
      unfold extend at hextend
      split_ifs at hextend with hshort
      · omega
      · exact length_extendLoop hdigest hextend
  · intro hcount
    obtain ⟨bytes, hbytes, -⟩ := extend_returns hdigest hcount
    exact ⟨bytes, by rw [hbytes]⟩

theorem pull_extendLoop (hdigest : ∀ input, (crypto.sha256 input).length = 32)
    {fuel counter count : ℕ} {pending : Bytes} (hfuel : count ≤ pending.length + fuel) :
    (pull (nextByte crypto out) count).run' ⟨pending, counter⟩ =
      match extendLoop crypto out count fuel counter pending with
      | none => .error .overflowError
      | some bytes => .ok bytes := by
  induction fuel generalizing counter pending with
  | zero =>
      have henough : ¬ pending.length < count := by omega
      rw [extendLoop, if_neg henough, StateT.run'_eq, pull_pending (not_lt.mp henough)]
      rfl
  | succ fuel ih =>
      rw [extendLoop]
      by_cases hmore : pending.length < count
      · rw [pull_refill hdigest hmore, if_pos hmore]
        cases hsuffix : counterBytes (counter + 1) with
        | none => rfl
        | some suffix =>
            have hlength := hdigest (out ++ suffix)
            dsimp only
            rw [ih (by rw [List.length_append]; omega)]
            rfl
      · rw [if_neg hmore, StateT.run'_eq, pull_pending (not_lt.mp hmore)]
        rfl

/-- The first bytes of `_byte_stream` are those of `_extend`, or both raise. -/
theorem pull_byteStream (hdigest : ∀ input, (crypto.sha256 input).length = 32) (out : Bytes)
    (count : ℕ) :
    (pull (nextByte crypto out) count).run' (byteStream out) = extended crypto out count := by
  unfold extended extend
  split_ifs with hshort
  · rw [byteStream, StateT.run'_eq, pull_pending hshort]
    rfl
  · rw [byteStream, pull_extendLoop hdigest (Nat.le_add_left count out.length)]

/-! ## What each decoder reads -/

theorem shift_or (value : ℕ) (byte : UInt8) :
    value <<< 8 ||| byte.toNat = value * 256 + byte.toNat := by
  rw [← Nat.shiftLeft_add_eq_or_of_lt byte.toNat_lt, Nat.shiftLeft_eq]

theorem reads_pullUintLoop (next : Pulling σ DecodeError UInt8) (width value : ℕ) :
    Reads next width (fun bytes => bytes.foldl (fun v byte => v * 256 + byte.toNat) value)
      (pullUintLoop next width value) := by
  induction width generalizing value with
  | zero => exact .pure next _
  | succ width ih =>
      have hread := (Reads.item next).bind fun byte => ih (value <<< 8 ||| byte.toNat)
      rw [Nat.add_comm 1] at hread
      refine hread.congr fun bytes hbytes => ?_
      cases bytes with
      | nil => simp at hbytes
      | cons byte rest => simp [shift_or]

theorem reads_pullUint (next : Pulling σ DecodeError UInt8) (width : ℕ) :
    Reads next width fromBytes (pullUint next width) :=
  reads_pullUintLoop next width 0

theorem reads_pullPick (next : Pulling σ DecodeError UInt8) (i : ℕ) :
    Reads next 4 (fun bytes => fromBytes bytes % (i + 1)) (pullPick next i) := by
  have hread := (reads_pullUint next 4).map (· % (i + 1))
  rwa [map_eq_pure_bind] at hread

/-- The pick for `i`, out of the four bytes pulled for it. -/
def pickOf (i : ℕ) (bytes : Bytes) : ℕ := fromBytes bytes % (i + 1)

theorem reads_swapLoop {α : Type} (next : Pulling σ DecodeError UInt8) (steps i : ℕ)
    (arr : List α) :
    Reads next (4 * steps) (fun bytes => swaps i (picksOf pickOf 4 steps i bytes) arr)
      (swapLoop (pullPick next) steps i arr) := by
  rw [swapLoop_eq]
  exact (Reads.picks (reads_pullPick next) steps i).map fun js => swaps i js arr

/-- What `_fisher_yates_partial` makes of its picks. -/
def partialOf (n k : ℕ) (js : List ℕ) : List ℕ :=
  ((swaps (n - 1) js (List.range n)).drop (n - k)).reverse

theorem fisherYatesPartial_eq {n k : ℕ} (hk : 0 < k) (hn : k ≤ n)
    (pick : ℕ → Pulling σ DecodeError ℕ) :
    fisherYatesPartial pick n k = partialOf n k <$> picks pick (n - max 1 (n - k)) (n - 1) := by
  unfold fisherYatesPartial
  rw [if_neg (not_not.mpr ⟨hk, hn⟩)]
  simp only [swapLoop_eq, map_eq_pure_bind, bind_assoc, pure_bind]
  rfl

theorem reads_fisherYatesPartial {n k : ℕ} (hk : 0 < k) (hn : k ≤ n)
    (next : Pulling σ DecodeError UInt8) :
    Reads next (4 * (n - max 1 (n - k)))
      (fun bytes => partialOf n k (picksOf pickOf 4 (n - max 1 (n - k)) (n - 1) bytes))
      (fisherYatesPartial (pullPick next) n k) := by
  rw [fisherYatesPartial_eq hk hn]
  exact (Reads.picks (reads_pullPick next) _ _).map (partialOf n k)

/-- The rounds of a duel, two bytes each. -/
def roundsOf : ℕ → Bytes → List StakingRound
  | 0, _ => []
  | rounds + 1, bytes =>
      ⟨(bytes.getD 0 0).toNat % 12 + 1, (bytes.getD 1 0).toNat % 12 + 1⟩ ::
        roundsOf rounds (bytes.drop 2)

theorem reads_stakingLoop (next : Pulling σ DecodeError UInt8) (rounds : ℕ) :
    Reads next (2 * rounds) (roundsOf rounds) (stakingLoop next rounds) := by
  induction rounds with
  | zero => exact .pure next _
  | succ rounds ih =>
      have hread := (Reads.item next).bind fun p => (Reads.item next).bind fun b =>
        ih.map (List.cons (⟨p.toNat % 12 + 1, b.toNat % 12 + 1⟩ : StakingRound))
      simp only [map_eq_pure_bind] at hread
      rw [Nat.mul_succ, show 2 * rounds + 2 = 1 + (1 + 2 * rounds) by omega]
      refine hread.congr fun bytes hbytes => ?_
      match bytes, hbytes with
      | first :: second :: rest, _ => rfl
      | [_], hbytes => simp at hbytes
      | [], hbytes => simp [Nat.add_comm 1] at hbytes

/-! ## All games -/

namespace DecodedGame

/-- The arguments that a decoder accepts. -/
def Accepts : DecodedGame → Prop
  | .mines minesCount gridSize => 1 ≤ minesCount ∧ minesCount < gridSize
  | .blackjack decks => 0 < decks
  | .staking maxRounds => 0 < maxRounds
  | .raffle ticketCount => 3 ≤ ticketCount
  | _ => True

/-- How many bytes a decoder uses. -/
def byteCount : DecodedGame → ℕ
  | .coinflip | .ninetyNineX => 1
  | .dice => 4
  | .hotcold | .roulette | .diceduel => 2
  | .mines minesCount _ => 4 * minesCount.toNat
  | .blackjack decks => 4 * (52 * decks.toNat - 1)
  | .staking maxRounds => 2 * maxRounds.toNat
  | .raffle ticketCount => 4 * min 3 (ticketCount.toNat - 1)

/-- How many of them it takes from its argument itself, not from a stream. -/
def direct : DecodedGame → ℕ
  | .mines _ _ | .blackjack _ | .staking _ | .raffle _ => 0
  | game => game.byteCount

/-- What a decoder makes of the bytes that it uses. -/
def outcomeOf : DecodedGame → Bytes → Outcome
  | .coinflip, bytes => .side (if (bytes.getD 0 0).toNat &&& 1 = 0 then .heads else .tails)
  | .dice, bytes => .number (decodeDice bytes)
  | .ninetyNineX, bytes => .number ((bytes.getD 0 0).toNat % 100 + 1)
  | .hotcold, bytes => .temperature (decodeHotcold bytes)
  | .roulette, bytes => .number (decodeRouletteEu bytes)
  | .mines minesCount gridSize, bytes =>
      .numbers (partialOf gridSize.toNat minesCount.toNat
        (picksOf pickOf 4 minesCount.toNat (gridSize.toNat - 1) bytes))
  | .blackjack decks, bytes =>
      .numbers (swaps (52 * decks.toNat - 1)
        (picksOf pickOf 4 (52 * decks.toNat - 1) (52 * decks.toNat - 1) bytes)
        (sortedShoe decks.toNat))
  | .diceduel, bytes =>
      .rolls ((bytes.getD 0 0).toNat % 12 + 1) ((bytes.getD 1 0).toNat % 12 + 1)
  | .staking maxRounds, bytes => .rounds (roundsOf maxRounds.toNat bytes)
  | .raffle ticketCount, bytes =>
      .numbers (partialOf ticketCount.toNat 3
        (picksOf pickOf 4 (min 3 (ticketCount.toNat - 1)) (ticketCount.toNat - 1) bytes))

theorem direct_le (game : DecodedGame) : game.direct ≤ game.byteCount := by
  cases game <;> simp [direct]

end DecodedGame

theorem length_sortedShoe (decks : ℕ) : (sortedShoe decks).length = 52 * decks := by
  simp only [sortedShoe, List.length_flatMap, List.length_replicate, List.map_const',
    List.sum_replicate, List.length_range]
  rfl

variable {game : DecodedGame}

/-- A decoder pulls its bytes off `_byte_stream`, or could have done so. -/
theorem decode_eq (haccepts : game.Accepts) (hdirect : game.direct ≤ out.length) :
    game.decode crypto out =
      game.outcomeOf <$> (pull (nextByte crypto out) game.byteCount).run' (byteStream out) := by
  -- the games with a fixed number of bytes take them from the first hash
  have htake : ∀ n ≤ out.length,
      (pull (nextByte crypto out) n).run' (byteStream out) = .ok (out.take n) := by
    intro n hn
    rw [byteStream, StateT.run'_eq, pull_pending hn]
    rfl
  cases game with
  | coinflip | ninetyNineX =>
      rw [DecodedGame.byteCount, htake 1 hdirect]
      cases out with
      | nil => cases hdirect
      | cons first rest => rfl
  | dice =>
      rw [DecodedGame.byteCount, htake 4 hdirect]
      simp [DecodedGame.decode, DecodedGame.outcomeOf, decodeDice, Functor.map, Except.map,
        List.take_take]
  | hotcold | roulette =>
      rw [DecodedGame.byteCount, htake 2 hdirect]
      simp [DecodedGame.decode, DecodedGame.outcomeOf, decodeHotcold, decodeRouletteEu,
        Functor.map, Except.map, List.take_take]
  | diceduel =>
      rw [DecodedGame.byteCount, htake 2 hdirect]
      match out, hdirect with
      | first :: second :: rest, _ => rfl
      | [_], hdirect => exact absurd hdirect (by simp [DecodedGame.direct, DecodedGame.byteCount])
      | [], hdirect => exact absurd hdirect (by simp [DecodedGame.direct, DecodedGame.byteCount])
  -- the shuffles and the rounds read as many bytes as their loop takes
  | mines minesCount gridSize =>
      obtain ⟨hmin, hmax⟩ := haccepts
      have hsteps : gridSize.toNat - max 1 (gridSize.toNat - minesCount.toNat) =
          minesCount.toNat := by
        omega
      have hreads := reads_fisherYatesPartial (by omega : 0 < minesCount.toNat)
        (by omega : minesCount.toNat ≤ gridSize.toNat) (nextByte crypto out)
      rw [hsteps] at hreads
      rw [DecodedGame.decode, decodeMinesPositions, if_neg (not_not.mpr ⟨hmin, hmax⟩),
        hreads.run'_eq, Functor.map_map]
      rfl
  | blackjack decks =>
      have hdecks : ¬ decks ≤ 0 := not_le.mpr haccepts
      rw [DecodedGame.decode, decodeBlackjackDeck, if_neg hdecks]
      dsimp only
      rw [length_sortedShoe, (reads_swapLoop _ _ _ _).run'_eq, Functor.map_map]
      rfl
  | staking maxRounds =>
      have hrounds : ¬ maxRounds ≤ 0 := not_le.mpr haccepts
      rw [DecodedGame.decode, decodeStakingDuel, if_neg hrounds,
        (reads_stakingLoop _ _).run'_eq, Functor.map_map]
      rfl
  | raffle ticketCount =>
      have htickets : 3 ≤ ticketCount := haccepts
      have hsteps : ticketCount.toNat - max 1 (ticketCount.toNat - 3) =
          min 3 (ticketCount.toNat - 1) := by
        omega
      have hreads := reads_fisherYatesPartial (by decide : 0 < 3)
        (by omega : 3 ≤ ticketCount.toNat) (nextByte crypto out)
      rw [hsteps] at hreads
      rw [DecodedGame.decode, decodeRaffleWinners, if_neg (not_lt.mpr htickets), hreads.run'_eq,
        Functor.map_map]
      rfl

theorem decode_eq_extended (hdigest : ∀ input, (crypto.sha256 input).length = 32)
    (haccepts : game.Accepts) (hdirect : game.direct ≤ out.length) :
    game.decode crypto out = game.outcomeOf <$> extended crypto out game.byteCount := by
  rw [decode_eq haccepts hdirect, pull_byteStream hdigest]

/-! ## Draws of other lengths -/

/-- A shorter extension begins a longer one. -/
theorem extended_take (hdigest : ∀ input, (crypto.sha256 input).length = 32) {count n : ℕ}
    (hle : n ≤ count) (hbytes : extended crypto out count = .ok bytes) :
    extended crypto out n = .ok (bytes.take n) := by
  rw [← pull_byteStream hdigest] at hbytes ⊢
  exact pull_run'_take hle hbytes

theorem length_extended (hdigest : ∀ input, (crypto.sha256 input).length = 32) {count : ℕ}
    (hbytes : extended crypto out count = .ok bytes) : bytes.length = count := by
  rw [← pull_byteStream hdigest] at hbytes
  obtain ⟨stream, hrun⟩ := run'_eq_ok.mp hbytes
  exact length_of_pull hrun

/-- A decoder sees no more of an extension than a shorter one. -/
theorem extended_extended (hdigest : ∀ input, (crypto.sha256 input).length = 32) {count n : ℕ}
    (hle : n ≤ count) (hbytes : extended crypto out count = .ok bytes) :
    extended crypto bytes n = extended crypto out n := by
  rw [extended_take hdigest hle hbytes, extended, extend,
    if_pos (by rwa [length_extended hdigest hbytes])]

/-- What makes a draw good for a decoder, whatever its length. -/
structure DecodesAlike (crypto : Crypto) (out : Bytes) : Prop where
  stream : ∀ count,
    (pull (nextByte crypto out) count).run' (byteStream out) = extended crypto out count
  decode : ∀ game : DecodedGame, game.Accepts → game.direct ≤ out.length →
    ∀ count ≥ game.byteCount, ∀ bytes, extended crypto out count = .ok bytes →
      game.decode crypto bytes = game.decode crypto out

theorem decodesAlike (hdigest : ∀ input, (crypto.sha256 input).length = 32) (out : Bytes) :
    DecodesAlike crypto out := by
  refine ⟨pull_byteStream hdigest out, ?_⟩
  intro game haccepts hdirect count hcount bytes hbytes
  have hdirect' : game.direct ≤ bytes.length := by
    rw [length_extended hdigest hbytes]
    exact game.direct_le.trans hcount
  rw [decode_eq_extended hdigest haccepts hdirect', decode_eq_extended hdigest haccepts hdirect,
    extended_extended hdigest hcount hbytes]

/-- A decoder does the same on a draw and on its extensions, as long as the draw has the
bytes that the decoder takes without a stream. A game's ticket is such an extension. -/
theorem decodes_alike (hdigest : ∀ input, (crypto.sha256 input).length = 32) :
    (∀ out, DecodesAlike crypto out) ∧
    ∀ (draw : Draw) (ticket : FairnessTicket) (game : DecodedGame),
      (compute crypto draw.rawSeed draw.clientSeed draw.nonce).length = 64 →
      draw.ticket crypto = some ticket → game.Accepts → game.byteCount ≤ draw.byteCount.toNat →
      game.decode crypto ticket.hmacBytes =
        game.decode crypto (compute crypto draw.rawSeed draw.clientSeed draw.nonce) := by
  refine ⟨decodesAlike hdigest, fun draw ticket game hlength hticket haccepts hcount => ?_⟩
  obtain ⟨bytes, hbytes, hticket⟩ := Option.bind_eq_some_iff.mp hticket
  cases hticket
  refine (decodesAlike hdigest _).decode game haccepts ?_ _ hcount bytes (by rw [extended, hbytes])
  rw [hlength]
  cases game <;> simp [DecodedGame.direct, DecodedGame.byteCount]

/-- The first digest of the chain of one HMAC. -/
def chainCrypto : Crypto :=
  { sampleCrypto with
    sha256 input :=
      if input = sampleCrypto.hmacSha512 (List.replicate 32 1) (encodeUtf8 "0001020304050607:0") ++
          [0, 0, 0, 1] then
        [64, 0, 140, 76, 112, 177, 207, 225, 24, 223, 33, 190, 248, 151, 164, 121, 151, 36, 123,
          252, 68, 178, 183, 218, 67, 169, 147, 164, 226, 65, 126, 238]
      else List.replicate 32 0 }

theorem length_chainCrypto (input : Bytes) : (chainCrypto.sha256 input).length = 32 := by
  simp only [chainCrypto]
  split
  · rfl
  · rfl

def chainDraw : Draw := ⟨96, List.replicate 32 1, [], "0001020304050607", 0⟩

/-- A ticket of 96 bytes serves a duel of 40 rounds as the HMAC does. -/
theorem decodes_alike_staking :
    ∃ ticket, chainDraw.ticket chainCrypto = some ticket ∧
      (DecodedGame.staking 40).decode chainCrypto ticket.hmacBytes =
        (DecodedGame.staking 40).decode chainCrypto
          (compute chainCrypto chainDraw.rawSeed chainDraw.clientSeed chainDraw.nonce) := by
  have hreturns : (chainDraw.ticket chainCrypto).isSome := by
    decide +kernel
  obtain ⟨ticket, hticket⟩ := Option.isSome_iff_exists.mp hreturns
  exact ⟨ticket, hticket, (decodes_alike length_chainCrypto).2 chainDraw ticket (.staking 40)
    (by decide +kernel) hticket (by decide : (0 : ℤ) < 40) (by decide +kernel)⟩

/-- A draw of one byte is not enough for the dice, which take four without a stream. -/
theorem decodes_short_draw :
    ¬ ∀ crypto : Crypto, (∀ input, (crypto.sha256 input).length = 32) → ∀ out ≠ [],
      ∀ game : DecodedGame, game.Accepts → ∀ count ≥ game.byteCount, ∀ bytes,
        extended crypto out count = .ok bytes →
          game.decode crypto bytes = game.decode crypto out := by
  intro hall
  have halike := hall chainCrypto length_chainCrypto [1] (by decide) .dice trivial 4 le_rfl
    [1, 0, 0, 0] (by decide +kernel)
  exact absurd halike (by decide +kernel)

end DeathRoll
