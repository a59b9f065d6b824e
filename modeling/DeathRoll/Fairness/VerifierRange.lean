import DeathRoll.Fairness.Verifiers

/-! # How far the verifiers go

The games on which both verifiers reproduce the bot: those that use at most 4096 bytes and
whose arrays JavaScript can hold. Beyond, digests that tell the two chains apart lead the
verifiers to another outcome.
-/

namespace DeathRoll

open Sampling

variable {crypto : Crypto} {out : Bytes} {game : DecodedGame}

/-- The bytes of `main` and the arrays of `verify.js` are enough. -/
theorem reproduced_of_within (haccepts : game.Accepts) (hbytes : game.byteCount ≤ 4096)
    (hlength : game.arrayLength < 2 ^ 32) : game.Reproduced := by
  intro crypto hhmac hdigest serverSeed clientSeed nonce hnonneg hnonce outcome hok
  obtain ⟨out, hout⟩ := (extended_ok_iff hdigest).mpr
    (by rw [compute, hhmac]; decide : 4096 ≤
      (compute crypto serverSeed clientSeed nonce).length + 32 * (2 ^ 32 - 1))
  have hdirect : game.direct ≤ (compute crypto serverSeed clientSeed nonce).length := by
    rw [compute, hhmac]
    cases game <;> simp [DecodedGame.direct, DecodedGame.byteCount]
  have hdecode : game.decode crypto out = .ok outcome :=
    ((decodesAlike hdigest _).decode game haccepts hdirect 4096 hbytes out hout).trans hok
  constructor
  · rw [VerifyPy.main, hout]
    exact (VerifyPy.decode_eq crypto out game).trans hdecode
  · rw [VerifyJs.main, VerifyJs.parseInt_eq (by omega), hout]
    exact VerifyJs.dispatch_eq haccepts hlength (by rw [length_extended hdigest hout]; decide) hdecode

/-! ## Digests that tell the chains apart -/

/-- Chunks that are all the same. -/
theorem extendLoop_chunks {count counter fuel m : ℕ} {sofar chunk : Bytes}
    (hchunk : chunk.length = 32) (hroom : sofar.length + 32 * m ≤ count)
    (hchunks : ∀ c, counter < c → c ≤ counter + m →
      ∃ suffix, counterBytes c = some suffix ∧ crypto.sha256 (out ++ suffix) = chunk) :
    extendLoop crypto out count (fuel + m) counter sofar =
      extendLoop crypto out count fuel (counter + m)
        (sofar ++ (List.replicate m chunk).flatten) := by
  induction m generalizing counter sofar with
  | zero => simp
  | succ m ih =>
      obtain ⟨suffix, hsuffix, hdigest⟩ := hchunks (counter + 1) (by omega) (by omega)
      rw [← Nat.add_assoc, extendLoop, if_pos (by omega), hsuffix]
      simp only [Option.bind_eq_bind, Option.bind_some]
      rw [hdigest, ih (by rw [List.length_append]; omega)
        fun c hlt hle => hchunks c (by omega) (by omega)]
      rw [List.append_assoc, List.replicate_succ, List.flatten_cons, Nat.add_right_comm,
        Nat.add_assoc]

/-- The bytes on which the two chains agree. -/
def commonBytes : Bytes := [0, 0, 0, 2] ++ List.replicate 4092 0

/-- After 4096 bytes the chain of the HMAC goes on with one word, that of the verifiers with
another. -/
def splitCrypto (bot verifier : Bytes) : Crypto where
  hmacSha512 _ _ := [0, 0, 0, 2] ++ List.replicate 60 0
  sha256 input :=
    if input.length = 4100 then verifier ++ List.replicate 28 0
    else if input.getLast? = some 127 then bot ++ List.replicate 28 0
    else List.replicate 32 0

section Split

variable {bot verifier : Bytes}

theorem split_digest (hbot : bot.length = 4) (hverifier : verifier.length = 4) (input : Bytes) :
    ((splitCrypto bot verifier).sha256 input).length = 32 := by
  simp only [splitCrypto]
  split_ifs <;> simp [hbot, hverifier]

/-- One more chunk, the last that is needed. -/
theorem extendLoop_last {count counter fuel : ℕ} {sofar chunk suffix word : Bytes}
    (hmore : sofar.length < count) (hsuffix : counterBytes (counter + 1) = some suffix)
    (hdigest : crypto.sha256 (out ++ suffix) = chunk) (henough : count ≤ sofar.length + chunk.length)
    (hword : (sofar ++ chunk).take count = word) :
    extendLoop crypto out count (fuel + 1) counter sofar = some word := by
  rw [extendLoop, if_pos hmore, hsuffix]
  simp only [Option.bind_eq_bind, Option.bind_some]
  rw [hdigest]
  unfold extendLoop
  rw [if_neg (by rw [List.length_append]; omega), hword]

theorem length_commonBytes : commonBytes.length = 4096 := by
  rw [commonBytes, List.length_append, List.length_replicate]
  rfl

theorem take_common {word : Bytes} (hword : word.length = 4) (rest : Bytes) :
    (commonBytes ++ (word ++ rest)).take 4100 = commonBytes ++ word := by
  rw [← List.append_assoc, List.take_left' (by rw [List.length_append, length_commonBytes, hword])]

/-- The bytes that the bot gets. -/
theorem extended_bot (hbot : bot.length = 4) :
    extended (splitCrypto bot verifier) ([0, 0, 0, 2] ++ List.replicate 60 0) 4100 =
      .ok (commonBytes ++ bot) := by
  have hdigest : ∀ c, 0 < c → c < 2 ^ 8 → ∃ suffix, counterBytes c = some suffix ∧
      (splitCrypto bot verifier).sha256 (([0, 0, 0, 2] ++ List.replicate 60 0) ++ suffix) =
        if c = 127 then bot ++ List.replicate 28 0 else List.replicate 32 0 := by
    intro c hpos hlt
    have hlast : UInt8.ofNat c = 127 ↔ c = 127 := by
      rw [← UInt8.toNat_inj, UInt8.toNat_ofNat', Nat.mod_eq_of_lt hlt]
      rfl
    refine ⟨_, if_pos (by omega), ?_⟩
    simp [splitCrypto, hlast]
  have hsame : ∀ c, 0 < c → c ≤ 0 + 126 → ∃ suffix, counterBytes c = some suffix ∧
      (splitCrypto bot verifier).sha256 (([0, 0, 0, 2] ++ List.replicate 60 0) ++ suffix) =
        List.replicate 32 0 := by
    intro c hpos hle
    obtain ⟨suffix, hsuffix, hchunk⟩ := hdigest c hpos (by omega)
    exact ⟨suffix, hsuffix, by rwa [if_neg (by omega)] at hchunk⟩
  obtain ⟨suffix, hsuffix, hchunk⟩ := hdigest 127 (by decide) (by decide)
  rw [if_pos rfl] at hchunk
  have hloop := @extendLoop_chunks (splitCrypto bot verifier)
    ([0, 0, 0, 2] ++ List.replicate 60 0) 4100 0 3974 126 ([0, 0, 0, 2] ++ List.replicate 60 0)
    (List.replicate 32 0) (by decide) (by decide) hsame
  have hcommon : [0, 0, 0, 2] ++ List.replicate 60 0 ++
      (List.replicate 126 (List.replicate 32 (0 : UInt8))).flatten = commonBytes := by
    rw [List.flatten_replicate_replicate, List.append_assoc, List.replicate_append_replicate,
      commonBytes]
  rw [hcommon] at hloop
  have hend : extendLoop (splitCrypto bot verifier) ([0, 0, 0, 2] ++ List.replicate 60 0) 4100 3974
      126 commonBytes = some (commonBytes ++ bot) := by
    refine extendLoop_last (by rw [length_commonBytes]; decide) hsuffix hchunk ?_ (take_common hbot _)
    rw [length_commonBytes, List.length_append, List.length_replicate, hbot]
    decide
  have hextend : extend (splitCrypto bot verifier) ([0, 0, 0, 2] ++ List.replicate 60 0) 4100 =
      some (commonBytes ++ bot) := by
    rw [extend, if_neg (by decide), ← hend]
    exact hloop
  rw [extended, hextend]

/-- The bytes that the verifiers get. -/
theorem extended_verifier (hverifier : verifier.length = 4) :
    extended (splitCrypto bot verifier) commonBytes 4100 = .ok (commonBytes ++ verifier) := by
  have hdigest : (splitCrypto bot verifier).sha256 (commonBytes ++ [0, 0, 0, 1]) =
      verifier ++ List.replicate 28 0 := by
    simp only [splitCrypto]
    rw [if_pos (by rw [List.length_append, length_commonBytes]; rfl)]
  have hend : extendLoop (splitCrypto bot verifier) commonBytes 4100 (4099 + 1) 0 commonBytes =
      some (commonBytes ++ verifier) := by
    refine extendLoop_last (by rw [length_commonBytes]; decide) rfl hdigest ?_
      (take_common hverifier _)
    rw [length_commonBytes, List.length_append, List.length_replicate, hverifier]
    decide
  rw [extended, extend, if_neg (by rw [length_commonBytes]; decide), hend]

end Split

/-- Two strings of bytes, told apart by nothing in the first 4096, that reproduction would
have to map to one outcome. -/
theorem exists_split (bot verifier : Bytes) (haccepts : game.Accepts) (hmany : 4096 < game.byteCount)
    (hserved : game.byteCount ≤ 64 + 32 * (2 ^ 32 - 1)) (hreproduced : game.Reproduced)
    (hbot : bot.length = 4) (hverifier : verifier.length = 4) :
    ∃ b v : Bytes, game.outcomeOf b = game.outcomeOf v ∧
      ∀ m, m ≤ 4100 → m ≤ game.byteCount →
        b.take m = (commonBytes ++ bot).take m ∧ v.take m = (commonBytes ++ verifier).take m := by
  have hdigest := split_digest hbot hverifier
  have hhead : ([0, 0, 0, 2] ++ List.replicate 60 (0 : UInt8)).length = 64 := by decide
  obtain ⟨b, hb⟩ := (extended_ok_iff hdigest).mpr (hhead.symm ▸ hserved)
  obtain ⟨v, hv⟩ := (extended_ok_iff hdigest).mpr
    (by rw [length_commonBytes]; omega : game.byteCount ≤ commonBytes.length + 32 * (2 ^ 32 - 1))
  have hcommon : extended (splitCrypto bot verifier) ([0, 0, 0, 2] ++ List.replicate 60 0) 4096 =
      .ok commonBytes := by
    rw [extended_take hdigest (by decide) (extended_bot hbot), ← length_commonBytes,
      List.take_left]
  have hdirect : game.direct = 0 := by
    cases game with
    | mines | blackjack | staking | raffle => rfl
    | _ => simp [DecodedGame.byteCount] at hmany
  refine ⟨b, v, ?_, fun m hm hcount => ⟨?_, ?_⟩⟩
  · have hoff : game.decode (splitCrypto bot verifier) ([0, 0, 0, 2] ++ List.replicate 60 0) =
        .ok (game.outcomeOf b) := by
      rw [decode_eq_extended hdigest haccepts (by omega), hb]
      rfl
    have hhmac : ∀ key message, ((splitCrypto bot verifier).hmacSha512 key message).length = 64 :=
      fun _ _ => hhead
    have hmain := (hreproduced _ hhmac hdigest [] "" 0 le_rfl (by decide) _ hoff).1
    have hverified : VerifyPy.main (splitCrypto bot verifier) game [] "" 0 =
        .ok (game.outcomeOf v) := by
      rw [VerifyPy.main]
      change (extended (splitCrypto bot verifier) ([0, 0, 0, 2] ++ List.replicate 60 0) 4096 >>=
        fun out => VerifyPy.decode (splitCrypto bot verifier) out game) = _
      rw [hcommon]
      change VerifyPy.decode (splitCrypto bot verifier) commonBytes game = _
      rw [VerifyPy.decode_eq, decode_eq_extended hdigest haccepts (by omega), hv]
      rfl
    exact Except.ok.inj (hmain.symm.trans hverified)
  · have htake := (extended_take hdigest hcount hb).symm.trans
      (extended_take hdigest hm (extended_bot hbot))
    exact Except.ok.inj htake
  · have htake := (extended_take hdigest hcount hv).symm.trans
      (extended_take hdigest hm (extended_verifier hverifier))
    exact Except.ok.inj htake

theorem getElem?_roundsOf {rounds t : ℕ} (ht : t < rounds) (bytes : Bytes) :
    (roundsOf rounds bytes)[t]? = some ⟨(bytes.getD (2 * t) 0).toNat % 12 + 1,
      (bytes.getD (2 * t + 1) 0).toNat % 12 + 1⟩ := by
  induction rounds generalizing t bytes with
  | zero => cases ht
  | succ rounds ih =>
      cases t with
      | zero => rfl
      | succ t =>
          rw [roundsOf, List.getElem?_cons_succ, ih (Nat.lt_of_succ_lt_succ ht)]
          simp only [List.getD_eq_getElem?_getD, List.getElem?_drop]
          rw [Nat.mul_succ, Nat.add_comm 2, Nat.add_right_comm, Nat.add_comm 2]

/-- The bytes after the common ones. -/
theorem getElem?_split {bytes word : Bytes} (hbytes : bytes.take 4097 = (commonBytes ++ word).take 4097) :
    bytes[4096]? = word[0]? := by
  have hlt : 4096 < 4097 := by decide
  rw [← List.getElem?_take_of_lt hlt, hbytes, List.getElem?_take_of_lt hlt,
    List.getElem?_append_right length_commonBytes.le, length_commonBytes]

theorem word_split {bytes word : Bytes} (hword : word.length = 4)
    (hbytes : bytes.take 4100 = (commonBytes ++ word).take 4100) :
    (bytes.drop 4096).take 4 = word := by
  have hdrop : (bytes.drop 4096).take 4 = (bytes.take 4100).drop 4096 := by
    rw [List.drop_take]
  rw [hdrop, hbytes, List.drop_take, List.drop_left' length_commonBytes]
  exact List.take_of_length_le hword.le

/-- The words before. -/
theorem word_common {bytes word : Bytes} {t : ℕ} (ht : t < 1024)
    (hbytes : bytes.take 4100 = (commonBytes ++ word).take 4100) :
    (bytes.drop (4 * t)).take 4 = if t = 0 then [0, 0, 0, 2] else [0, 0, 0, 0] := by
  have hdrop : ∀ bytes : Bytes,
      (bytes.drop (4 * t)).take 4 = ((bytes.take 4100).drop (4 * t)).take 4 := by
    intro bytes
    rw [List.drop_take, List.take_take, Nat.min_eq_left (by omega)]
  rw [hdrop, hbytes, ← hdrop,
    List.drop_append_of_le_length (by rw [length_commonBytes]; omega),
    List.take_append_of_le_length (by rw [List.length_drop, length_commonBytes]; omega),
    commonBytes]
  split_ifs with hzero
  · subst hzero
    exact List.take_left' rfl
  · have hfront : ([0, 0, 0, 2] : Bytes).drop (4 * t) = [] :=
      List.drop_eq_nil_of_le (by rw [show ([0, 0, 0, 2] : Bytes).length = 4 from rfl]; omega)
    rw [List.drop_append, hfront, List.nil_append, List.drop_replicate, List.take_replicate,
      Nat.min_eq_left (by rw [show ([0, 0, 0, 2] : Bytes).length = 4 from rfl]; omega)]
    rfl

theorem not_reproduced_staking {maxRounds : ℤ} (haccepts : (DecodedGame.staking maxRounds).Accepts)
    (hmany : 4096 < (DecodedGame.staking maxRounds).byteCount)
    (hserved : (DecodedGame.staking maxRounds).byteCount ≤ 64 + 32 * (2 ^ 32 - 1)) :
    ¬ (DecodedGame.staking maxRounds).Reproduced := by
  intro hreproduced
  obtain ⟨b, v, heq, hsplit⟩ := exists_split [1, 0, 0, 0] [2, 0, 0, 0] haccepts hmany hserved
    hreproduced rfl rfl
  obtain ⟨hb, hv⟩ := hsplit 4097 (by decide) hmany
  have hrounds : 2048 < maxRounds.toNat := by
    simp only [DecodedGame.byteCount] at hmany
    omega
  have hround : (roundsOf maxRounds.toNat b)[2048]? = (roundsOf maxRounds.toNat v)[2048]? :=
    congrArg (·[2048]?) (Outcome.rounds.inj heq)
  rw [getElem?_roundsOf hrounds, getElem?_roundsOf hrounds] at hround
  have hroll := congrArg (Option.map StakingRound.playerRoll) hround
  simp only [Option.map_some, Option.some.injEq, List.getD_eq_getElem?_getD, getElem?_split hb,
    getElem?_split hv] at hroll
  exact absurd hroll (by decide)

/-- The picks for the 1025th swap differ. -/
theorem pickOf_split {i : ℕ} (hi : 1 ≤ i) : pickOf i [0, 0, 0, 1] ≠ pickOf i [0, 0, 0, 2] := by
  have hone : fromBytes [0, 0, 0, 1] = 1 := rfl
  have htwo : fromBytes [0, 0, 0, 2] = 2 := rfl
  rw [pickOf, pickOf, hone, htwo]
  rcases Nat.lt_or_ge i 2 with hlt | hge
  · obtain rfl : i = 1 := by omega
    decide
  · rw [Nat.mod_eq_of_lt (by omega), Nat.mod_eq_of_lt (by omega)]
    decide

/-- A pick made of bytes is within its bound. -/
theorem picksOf_le {steps i t j : ℕ} {bytes : Bytes}
    (hj : (picksOf pickOf 4 steps i bytes)[t]? = some j) : j ≤ i - t := by
  have hlt := (List.getElem?_eq_some_iff.mp hj).1
  rw [length_picksOf] at hlt
  rw [getElem?_picksOf _ _ hlt, Option.some.injEq] at hj
  rw [← hj]
  exact Nat.le_of_lt_succ (Nat.mod_lt _ (Nat.succ_pos _))

theorem not_reproduced_mines {minesCount gridSize : ℤ}
    (haccepts : (DecodedGame.mines minesCount gridSize).Accepts)
    (hmany : 4096 < (DecodedGame.mines minesCount gridSize).byteCount)
    (hserved : (DecodedGame.mines minesCount gridSize).byteCount ≤ 64 + 32 * (2 ^ 32 - 1)) :
    ¬ (DecodedGame.mines minesCount gridSize).Reproduced := by
  intro hreproduced
  obtain ⟨b, v, heq, hsplit⟩ := exists_split [0, 0, 0, 1] [0, 0, 0, 2] haccepts hmany hserved
    hreproduced rfl rfl
  obtain ⟨hmin, hmax⟩ := haccepts
  simp only [DecodedGame.byteCount] at hmany hsplit
  obtain ⟨hb, hv⟩ := hsplit 4100 le_rfl (by omega)
  have hpicks : ∀ bytes, picksOf pickOf 4 minesCount.toNat (gridSize.toNat - 1) bytes ∈
      ChoiceSequences gridSize.toNat minesCount.toNat :=
    fun bytes => ⟨by rw [length_picksOf]; omega, fun t j ht => picksOf_le ht⟩
  have hsame := (partialOf_bijOn (by omega) (by omega)).injOn (hpicks b) (hpicks v)
    (Outcome.numbers.inj heq)
  have hpick := congrArg (·[1024]?) hsame
  simp only [getElem?_picksOf pickOf 4 (by omega : 1024 < minesCount.toNat)] at hpick
  rw [word_split rfl hb, word_split rfl hv] at hpick
  exact pickOf_split (by omega) (Option.some.inj hpick)

/-- The ends of a shoe. -/
theorem sortedShoe_ends {decks : ℕ} (hdecks : 2 ≤ decks) :
    (sortedShoe decks)[1]? = some 0 ∧ (sortedShoe decks).getLast? = some 51 := by
  constructor
  · rw [sortedShoe, List.range_succ_eq_map, List.flatMap_cons,
      List.getElem?_append_left (by rw [List.length_replicate]; omega), List.getElem?_replicate,
      if_pos (by omega)]
  · rw [sortedShoe, List.range_succ, List.flatMap_append, List.flatMap_singleton,
      List.getLast?_append, List.getLast?_replicate, if_neg (by omega)]
    rfl

theorem choices_shoe (decks : ℕ) (bytes : Bytes) :
    Choices (sortedShoe decks).length
      (picksOf pickOf 4 (52 * decks - 1) (52 * decks - 1) bytes) := by
  rw [length_sortedShoe]
  refine choices_iff.mpr fun t j ht => ?_
  have hlt := (List.getElem?_eq_some_iff.mp ht).1
  rw [length_picksOf] at hlt
  have := picksOf_le ht
  omega

/-- What the 1025th swap picks from: the first has moved the last card into the third place,
and the others have taken the first card each. -/
theorem remaining_split {decks : ℕ} (hdecks : 20 ≤ decks) {bytes word : Bytes}
    (hbytes : bytes.take 4100 = (commonBytes ++ word).take 4100) :
    remaining (sortedShoe decks)
        ((picksOf pickOf 4 (52 * decks - 1) (52 * decks - 1) bytes).take 1024) =
      remaining (fillHole (sortedShoe decks) 2) (List.replicate 1023 0) := by
  have hpicks : (picksOf pickOf 4 (52 * decks - 1) (52 * decks - 1) bytes).take 1024 =
      2 :: List.replicate 1023 0 := by
    refine List.ext_getElem? fun t => ?_
    rcases Nat.lt_or_ge t 1024 with ht | ht
    · rw [List.getElem?_take_of_lt ht, getElem?_picksOf _ _ (by omega), word_common ht hbytes]
      cases t with
      | zero =>
          have htwo : fromBytes [0, 0, 0, 2] = 2 := rfl
          rw [if_pos rfl, pickOf, htwo, Nat.mod_eq_of_lt (by omega)]
          rfl
      | succ t =>
          have hzero : fromBytes [0, 0, 0, 0] = 0 := rfl
          rw [if_neg (Nat.succ_ne_zero t), pickOf, hzero, Nat.zero_mod, List.getElem?_cons_succ,
            List.getElem?_replicate, if_pos (by omega)]
    · rw [List.getElem?_eq_none (by rw [List.length_take]; omega), List.getElem?_eq_none
        (by rw [List.length_cons, List.length_replicate]; omega)]
  rw [hpicks, remaining]

theorem not_reproduced_blackjack {decks : ℤ} (haccepts : (DecodedGame.blackjack decks).Accepts)
    (hmany : 4096 < (DecodedGame.blackjack decks).byteCount)
    (hserved : (DecodedGame.blackjack decks).byteCount ≤ 64 + 32 * (2 ^ 32 - 1)) :
    ¬ (DecodedGame.blackjack decks).Reproduced := by
  intro hreproduced
  obtain ⟨b, v, heq, hsplit⟩ := exists_split [0, 0, 0, 1] [0, 0, 0, 2] haccepts hmany hserved
    hreproduced rfl rfl
  have hdecks : 20 ≤ decks.toNat := by
    simp only [DecodedGame.byteCount] at hmany
    omega
  obtain ⟨hb, hv⟩ := hsplit 4100 le_rfl (by simp only [DecodedGame.byteCount]; omega)
  have hsettled := select_of_swaps (choices_shoe _ b) (choices_shoe _ v)
    (by rw [length_picksOf, length_picksOf])
    (by rw [length_sortedShoe]; exact Outcome.numbers.inj heq)
  have hcard := congrArg (·[1024]?) hsettled
  rw [getElem?_select (choices_shoe _ _), getElem?_select (choices_shoe _ _),
    remaining_split hdecks hb, remaining_split hdecks hv, getElem?_picksOf _ _ (by omega),
    getElem?_picksOf _ _ (by omega), word_split rfl hb, word_split rfl hv] at hcard
  have hone : pickOf (52 * decks.toNat - 1 - 1024) [0, 0, 0, 1] = 1 :=
    Nat.mod_eq_of_lt (by rw [show fromBytes [0, 0, 0, 1] = 1 from rfl]; omega)
  have htwo : pickOf (52 * decks.toNat - 1 - 1024) [0, 0, 0, 2] = 2 :=
    Nat.mod_eq_of_lt (by rw [show fromBytes [0, 0, 0, 2] = 2 from rfl]; omega)
  obtain ⟨hfirst, hlast⟩ := @sortedShoe_ends decks.toNat (by omega)
  have hzero : ∀ p, p ≠ 0 → ∀ j ∈ List.replicate 1023 0, j ≠ p := by
    intro p hp j hj
    rw [List.eq_of_mem_replicate hj]
    exact hp.symm
  simp only [hone, htwo, Option.bind_some] at hcard
  rw [getElem?_remaining (hzero 1 (by decide))
      (by rw [length_fillHole, length_sortedShoe, List.length_replicate]; omega),
    getElem?_remaining (hzero 2 (by decide))
      (by rw [length_fillHole, length_sortedShoe, List.length_replicate]; omega),
    getElem?_fillHole (by rw [length_sortedShoe]; omega),
    getElem?_fillHole (by rw [length_sortedShoe]; omega), if_neg (by decide), if_pos rfl, hfirst,
    hlast] at hcard
  exact absurd hcard (by decide)

/-! ## Arrays that JavaScript cannot hold -/

namespace VerifyJs

theorem parseInt_ge {n : ℤ} (hn : 2 ^ 32 ≤ n) : 2 ^ 32 ≤ parseInt n := by
  rcases Nat.lt_or_ge n.natAbs (2 ^ 53) with hlt | hge
  · rwa [parseInt_eq hlt]
  -- Rounding goes down by less than a unit, and a number has `2 ^ 52` of them.
  have hunit : 2 ^ 52 * 2 ^ (n.natAbs.log2 - 52) ≤ n.natAbs := by
    have hlog : 53 ≤ n.natAbs.log2 := (Nat.le_log2 (by omega)).mpr hge
    rw [← Nat.pow_add, Nat.add_sub_cancel' (by omega)]
    exact Nat.log2_self_le (by omega)
  have hdouble : 2 ^ 32 ≤ toDouble n.natAbs := by
    have hround := Nat.div_add_mod n.natAbs (2 ^ (n.natAbs.log2 - 52))
    have hmod := Nat.mod_lt n.natAbs (Nat.two_pow_pos (n.natAbs.log2 - 52))
    rw [Nat.mul_comm] at hround
    unfold toDouble
    dsimp only
    split_ifs
    · omega
    · rw [Nat.add_one_mul]
      omega
  rw [parseInt, if_neg (by omega)]
  exact_mod_cast hdouble

/-- Whatever the bytes, `verify.js` throws. -/
theorem dispatch_raises (haccepts : game.Accepts) (hbytes : game.byteCount ≤ 4096)
    (hlength : 2 ^ 32 ≤ game.arrayLength) (crypto : Crypto) (out : Bytes) :
    dispatch crypto out game = .error .overflowError := by
  cases game with
  | mines minesCount gridSize =>
      obtain ⟨hmin, hmax⟩ := haccepts
      simp only [DecodedGame.byteCount] at hbytes
      simp only [DecodedGame.arrayLength] at hlength
      have hgrid : 2 ^ 32 ≤ parseInt gridSize := parseInt_ge (by omega)
      rw [dispatch, parseInt_eq (by omega : minesCount.natAbs < 2 ^ 53), decodeMinesPositions,
        if_neg (by omega), fisherYatesPartial_raises (by omega)]
      rfl
  | raffle ticketCount =>
      simp only [DecodedGame.arrayLength] at hlength
      have htickets : 2 ^ 32 ≤ parseInt ticketCount := parseInt_ge (by omega)
      rw [dispatch, decodeRaffleWinners, if_neg (by omega), fisherYatesPartial_raises (by omega)]
      rfl
  | blackjack decks =>
      simp only [DecodedGame.byteCount] at hbytes
      simp only [DecodedGame.arrayLength] at hlength
      omega
  | staking maxRounds =>
      simp only [DecodedGame.byteCount] at hbytes
      simp only [DecodedGame.arrayLength] at hlength
      omega
  | _ => cases hlength

end VerifyJs

theorem not_reproduced_array (haccepts : game.Accepts) (hbytes : game.byteCount ≤ 4096)
    (hlength : 2 ^ 32 ≤ game.arrayLength) : ¬ game.Reproduced := by
  intro hreproduced
  have hdigest := @split_digest [0, 0, 0, 1] [0, 0, 0, 2] rfl rfl
  have hhmac : ∀ key message,
      ((splitCrypto [0, 0, 0, 1] [0, 0, 0, 2]).hmacSha512 key message).length = 64 :=
    fun _ _ => by rw [splitCrypto, List.length_append, List.length_replicate]; rfl
  have hdirect : game.direct = 0 := by
    cases game with
    | mines | blackjack | staking | raffle => rfl
    | _ => cases hlength
  generalize splitCrypto [0, 0, 0, 1] [0, 0, 0, 2] = crypto at hdigest hhmac
  have hhead : (compute crypto [] "" 0).length = 64 := hhmac _ _
  obtain ⟨b, hb⟩ := (extended_ok_iff hdigest).mpr
    (by rw [hhead]; omega : game.byteCount ≤ (compute crypto [] "" 0).length + 32 * (2 ^ 32 - 1))
  have hok : game.decode crypto (compute crypto [] "" 0) = .ok (game.outcomeOf b) := by
    rw [decode_eq_extended hdigest haccepts (hdirect.le.trans (Nat.zero_le _)), hb]
    rfl
  have hmain : VerifyJs.main crypto game [] "" 0 = .ok (game.outcomeOf b) :=
    (hreproduced crypto hhmac hdigest [] "" 0 le_rfl (by decide) _ hok).2
  obtain ⟨out, hout⟩ := (extended_ok_iff hdigest).mpr
    (by rw [hhead]; decide : 4096 ≤ (compute crypto [] "" 0).length + 32 * (2 ^ 32 - 1))
  rw [VerifyJs.main, VerifyJs.parseInt_eq (by decide), hout] at hmain
  have hraises := VerifyJs.dispatch_raises haccepts hbytes hlength crypto out
  cases hraises.symm.trans hmain

/-! ## The games in range -/

/-- Without a byte that the bot's chain can give, there is nothing to reproduce. -/
theorem reproduced_of_raises (haccepts : game.Accepts)
    (hmany : 64 + 32 * (2 ^ 32 - 1) < game.byteCount) : game.Reproduced := by
  intro crypto hhmac hdigest serverSeed clientSeed nonce _ _ outcome hok
  have hhead : (compute crypto serverSeed clientSeed nonce).length = 64 := hhmac _ _
  have hdirect : game.direct ≤ (compute crypto serverSeed clientSeed nonce).length := by
    rw [hhead]
    cases game <;> simp [DecodedGame.direct, DecodedGame.byteCount]
  rw [decode_eq_extended hdigest haccepts hdirect] at hok
  obtain ⟨bytes, hbytes, -⟩ := except_map_eq_ok.mp hok
  have hserved := (extended_ok_iff hdigest).mp ⟨bytes, hbytes⟩
  omega

/-- The verifiers reproduce the bot on the games that use at most the 4096 bytes of `main` and
whose arrays JavaScript can hold, and where the bot itself runs out of bytes. -/
theorem reproduced_iff (haccepts : game.Accepts) :
    game.Reproduced ↔
      game.byteCount ≤ 4096 ∧ game.arrayLength < 2 ^ 32 ∨
        64 + 32 * (2 ^ 32 - 1) < game.byteCount := by
  constructor
  · intro hreproduced
    by_contra hrange
    obtain ⟨hwithin, hserved⟩ := not_or.mp hrange
    rcases Nat.lt_or_ge 4096 game.byteCount with hmany | hfew
    · cases game with
      | mines => exact not_reproduced_mines haccepts hmany (not_lt.mp hserved) hreproduced
      | blackjack => exact not_reproduced_blackjack haccepts hmany (not_lt.mp hserved) hreproduced
      | staking => exact not_reproduced_staking haccepts hmany (not_lt.mp hserved) hreproduced
      | _ =>
          simp only [DecodedGame.byteCount] at hmany
          omega
    · exact not_reproduced_array haccepts hfew
        (not_lt.mp fun hlength => hwithin ⟨hfew, hlength⟩) hreproduced
  · rintro (⟨hbytes, hlength⟩ | hmany)
    · exact reproduced_of_within haccepts hbytes hlength
    · exact reproduced_of_raises haccepts hmany

/-- Six decks. -/
theorem reproduced_iff_shoe : (DecodedGame.blackjack 6).Reproduced :=
  (@reproduced_iff (.blackjack 6) (by decide : (0 : ℤ) < 6)).mpr
    (.inl ⟨by decide, by decide⟩)

/-- A duel of 2049 rounds is over the 4096 bytes. -/
theorem not_reproduced_duel :
    (DecodedGame.staking 2049).Accepts ∧ ¬ (DecodedGame.staking 2049).Reproduced := by
  have haccepts : (DecodedGame.staking 2049).Accepts := (by decide : (0 : ℤ) < 2049)
  exact ⟨haccepts, not_reproduced_staking haccepts (by decide) (by decide)⟩

end DeathRoll
