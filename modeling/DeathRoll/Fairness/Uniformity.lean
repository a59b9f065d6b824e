import DeathRoll.Fairness.Shuffling
import DeathRoll.Sampling.Uniform
import Mathlib.Data.FinEnum

/-! # How even the outcomes are

Every decoder takes remainders of numbers made of bytes. If all bytes of a draw are equally
likely, an outcome is as likely as the number of draws that it comes from: each value of a
remainder comes from the whole part of its share or from one more, and an outcome from the
product over the numbers that its game takes.
-/

namespace DeathRoll

open Sampling

variable {bytes : Bytes} {game : DecodedGame} {outcome : Outcome}

/-- A round that two dice can roll. -/
def StakingRound.Rolled (round : StakingRound) : Prop :=
  (1 ≤ round.playerRoll ∧ round.playerRoll ≤ 12) ∧ 1 ≤ round.botRoll ∧ round.botRoll ≤ 12

instance (round : StakingRound) : Decidable round.Rolled := instDecidableAnd

namespace DecodedGame

/-- The numbers that a decoder takes: the bytes of each, and how many values are left of it. -/
def parts : DecodedGame → List (ℕ × ℕ)
  | .coinflip => [(1, 2)]
  | .dice => [(4, 10000)]
  | .ninetyNineX => [(1, 100)]
  | .hotcold => [(2, 10000)]
  | .roulette => [(2, 37)]
  | .mines minesCount gridSize =>
      (List.range minesCount.toNat).map fun t => (4, gridSize.toNat - 1 - t + 1)
  | .blackjack decks =>
      (List.range (52 * decks.toNat - 1)).map fun t => (4, 52 * decks.toNat - 1 - t + 1)
  | .diceduel => [(1, 12), (1, 12)]
  | .staking maxRounds => List.replicate (2 * maxRounds.toNat) (1, 12)
  | .raffle ticketCount =>
      (List.range (min 3 (ticketCount.toNat - 1))).map fun t => (4, ticketCount.toNat - 1 - t + 1)

/-- In how many ways the numbers make an outcome. -/
def weight : DecodedGame → Outcome → ℕ
  | .coinflip, .side _ => 1
  | .dice, .number n => if n < 10000 then 1 else 0
  | .ninetyNineX, .number n => if 1 ≤ n ∧ n ≤ 100 then 1 else 0
  | .hotcold, .temperature .rainbow => 500
  | .hotcold, .temperature .hot => 4750
  | .hotcold, .temperature .cold => 4750
  | .roulette, .number n => if n < 37 then 1 else 0
  | .mines minesCount gridSize, .numbers ns =>
      if ns.length = minesCount.toNat ∧ ns.Nodup ∧ ns ⊆ List.range gridSize.toNat then 1 else 0
  | .blackjack decks, .numbers ns =>
      if ns.Perm (sortedShoe decks.toNat) then decks.toNat.factorial ^ 52 else 0
  | .diceduel, .rolls first second =>
      if (1 ≤ first ∧ first ≤ 12) ∧ 1 ≤ second ∧ second ≤ 12 then 1 else 0
  | .staking maxRounds, .rounds rounds =>
      if rounds.length = maxRounds.toNat ∧ ∀ round ∈ rounds, round.Rolled then 1 else 0
  | .raffle ticketCount, .numbers ns =>
      if ns.length = 3 ∧ ns.Nodup ∧ ns ⊆ List.range ticketCount.toNat then 1 else 0
  | _, _ => 0

/-- What each value of each number comes from at least. -/
def least (game : DecodedGame) : ℕ := (game.parts.map fun part => 256 ^ part.1 / part.2).prod

/-- What each value of each number comes from at most. -/
def most (game : DecodedGame) : ℕ := (game.parts.map fun part => 256 ^ part.1 / part.2 + 1).prod

end DecodedGame

/-! ## Numbers -/

theorem toNat_bijOn : Set.BijOn UInt8.toNat Set.univ {d | d < 256} :=
  ⟨fun byte _ => byte.toNat_lt, fun _ _ _ _ heq => UInt8.toNat_inj.mp heq,
    fun d hd => ⟨UInt8.ofNat d, trivial, UInt8.toNat_ofNat_of_lt' hd⟩⟩

/-- How many lists of bytes make a number with a remainder among some. -/
theorem ncard_fromBytes {w m : ℕ} {P : Bytes → Prop} {remainders : Finset ℕ}
    (hlt : ∀ r ∈ remainders, r < m)
    (hiff : ∀ bytes, bytes.length = w → (P bytes ↔ fromBytes bytes % m ∈ remainders)) :
    (Words w P).ncard = ∑ r ∈ remainders, share (256 ^ w) m r := by
  have hunion : Words w P = ⋃ r ∈ (remainders : Set ℕ),
      Words w fun bytes => valueOf 256 UInt8.toNat bytes % m = r := by
    ext bytes
    simp only [Set.mem_iUnion, Finset.mem_coe, exists_prop]
    constructor
    · rintro ⟨hlength, hP⟩
      exact ⟨_, (hiff bytes hlength).mp hP, hlength, rfl⟩
    · rintro ⟨r, hr, hlength, rfl⟩
      exact ⟨hlength, (hiff bytes hlength).mpr hr⟩
  have hdisjoint : (remainders : Set ℕ).PairwiseDisjoint fun r =>
      Words w fun bytes => valueOf 256 UInt8.toNat bytes % m = r := by
    intro r _ s _ hne
    refine Set.disjoint_left.mpr ?_
    rintro bytes ⟨-, hr⟩ ⟨-, hs⟩
    exact hne (hr.symm.trans hs)
  rw [hunion, Set.Finite.ncard_biUnion remainders.finite_toSet (fun _ _ => finite_words _ _)
    hdisjoint, finsum_mem_coe_finset]
  exact Finset.sum_congr rfl fun r hr => ncard_valueOf_mod toNat_bijOn w (hlt r hr)

/-- A count lies between so many times `low` and `high`. -/
def Between (weight low high count : ℕ) : Prop := weight * low ≤ count ∧ count ≤ weight * high

theorem between_fromBytes {w m weight : ℕ} {P : Bytes → Prop} {remainders : Finset ℕ}
    (hlt : ∀ r ∈ remainders, r < m)
    (hiff : ∀ bytes, bytes.length = w → (P bytes ↔ fromBytes bytes % m ∈ remainders))
    (hweight : remainders.card = weight) :
    Between weight (256 ^ w / m) (256 ^ w / m + 1) (Words w P).ncard := by
  rw [ncard_fromBytes hlt hiff, ← hweight]
  constructor
  · exact Finset.card_nsmul_le_sum _ _ _ fun r _ => (share_bounds _ _ _).1
  · exact Finset.sum_le_card_nsmul _ _ _ fun r _ => (share_bounds _ _ _).2

theorem between_append {m n : ℕ} {P Q : Bytes → Prop} {wP lP hP wQ lQ hQ : ℕ}
    (h : Between wP lP hP (Words m P).ncard) (h' : Between wQ lQ hQ (Words n Q).ncard) :
    Between (wP * wQ) (lP * lQ) (hP * hQ)
      (Words (m + n) fun bytes => P (bytes.take m) ∧ Q (bytes.drop m)).ncard := by
  rw [ncard_words_append]
  constructor
  · rw [mul_mul_mul_comm]
    exact Nat.mul_le_mul h.1 h'.1
  · rw [mul_mul_mul_comm]
    exact Nat.mul_le_mul h.2 h'.2

/-- An outcome that a game never has. -/
theorem between_zero {n low high : ℕ} {P : Bytes → Prop} (hnever : ∀ bytes, bytes.length = n → ¬ P bytes) :
    Between 0 low high (Words n P).ncard := by
  have hempty : Words n P = ∅ :=
    Set.eq_empty_iff_forall_notMem.mpr fun bytes hbytes => hnever bytes hbytes.1 hbytes.2
  rw [hempty, Set.ncard_empty]
  exact ⟨(Nat.zero_mul _).le, Nat.zero_le _⟩

/-! ## Picks -/

theorem pickOf_spread :
    Spread pickOf 4 (fun i => 256 ^ 4 / (i + 1)) (fun i => 256 ^ 4 / (i + 1) + 1) := by
  intro i j hj
  have hshare := @ncard_valueOf_mod _ 256 UInt8.toNat toNat_bijOn 4 (i + 1) j (Nat.lt_succ_of_le hj)
  have hwords : (Words 4 fun bytes => pickOf i bytes = j).ncard = share (256 ^ 4) (i + 1) j := hshare
  rw [hwords]
  exact share_bounds _ _ _

theorem pickOf_le (i : ℕ) (bytes : Bytes) : pickOf i bytes ≤ i :=
  Nat.le_of_lt_succ (Nat.mod_lt _ (Nat.succ_pos i))

theorem factors_eq (f : ℕ → ℕ) (steps i : ℕ) :
    factors f steps i = ((List.range steps).map fun t => f (i - t)).prod := by
  induction steps generalizing i with
  | zero => rfl
  | succ steps ih =>
      rw [factors, ih, List.range_succ_eq_map, List.map_cons, List.prod_cons, List.map_map]
      refine congrArg (f i * ·) (congrArg List.prod (List.map_congr_left fun t _ => ?_))
      exact congrArg f (by omega)

/-- Some of the places in a list, taken out one after the other. -/
theorem between_select {n k : ℕ} {P : Bytes → Prop} {ns : List ℕ}
    (hiff : ∀ bytes, bytes.length = 4 * k →
      (P bytes ↔ select (List.range n) (picksOf pickOf 4 k (n - 1) bytes) = ns))
    (hlength : ns.length = k) :
    Between (if ns.Nodup ∧ ns ⊆ List.range n then 1 else 0)
      (factors (fun i => 256 ^ 4 / (i + 1)) k (n - 1))
      (factors (fun i => 256 ^ 4 / (i + 1) + 1) k (n - 1)) (Words (4 * k) P).ncard := by
  have hspread := pickOf_spread.select (List.range n) ns
  rw [waysTo_of_nodup List.nodup_range, List.length_range, hlength] at hspread
  rw [words_congr hiff]
  exact hspread

/-- All elements of a list, taken out one after the other. -/
theorem between_shuffle {arr zs : List ℕ} {weight : ℕ} {P : Bytes → Prop} (hne : arr ≠ [])
    (hiff : ∀ bytes, bytes.length = 4 * (arr.length - 1) →
      (P bytes ↔ select arr
        (picksOf pickOf 4 (arr.length - 1) (arr.length - 1) bytes ++ [0]) = zs))
    (hweight : zs.Perm arr → weight = waysTo arr zs) (hnone : ¬ zs.Perm arr → weight = 0) :
    Between weight (factors (fun i => 256 ^ 4 / (i + 1)) (arr.length - 1) (arr.length - 1))
      (factors (fun i => 256 ^ 4 / (i + 1) + 1) (arr.length - 1) (arr.length - 1))
      (Words (4 * (arr.length - 1)) P).ncard := by
  rw [words_congr hiff]
  by_cases hperm : zs.Perm arr
  · rw [hweight hperm]
    exact pickOf_spread.shuffle pickOf_le hperm hne
  · rw [hnone hperm]
    refine between_zero fun bytes _ hselect => hperm ?_
    have hpos : 0 < arr.length := List.length_pos_iff.mpr hne
    have hlength := length_picksOf pickOf 4 (arr.length - 1) (arr.length - 1) bytes
    have hpicks : Choices arr.length (picksOf pickOf 4 (arr.length - 1) (arr.length - 1) bytes) :=
      choices_picksOf pickOf_le (Nat.sub_le _ _) bytes
    rw [← hselect]
    exact select_perm (choices_concat hpicks (by omega))
      (by rw [List.length_append, hlength, List.length_singleton]; omega)

theorem picksOf_mem (n k : ℕ) (bytes : Bytes) :
    picksOf pickOf 4 (n - max 1 (n - k)) (n - 1) bytes ∈ ChoiceSequences n k := by
  have hchoices : Choices n (picksOf pickOf 4 (n - max 1 (n - k)) (n - 1) bytes) :=
    choices_picksOf pickOf_le (Nat.sub_le _ _) bytes
  refine ⟨length_picksOf _ _ _ _ _, fun t j ht => ?_⟩
  have := choices_iff.mp hchoices t j ht
  omega

theorem perm_range_iff {n : ℕ} {ns : List ℕ} :
    ns.Perm (List.range n) ↔ ns.length = n ∧ ns.Nodup ∧ ns ⊆ List.range n := by
  constructor
  · intro hperm
    exact ⟨hperm.length_eq.trans List.length_range, hperm.nodup_iff.mpr List.nodup_range,
      hperm.subset⟩
  · rintro ⟨hlength, hnodup, hsub⟩
    exact (hnodup.subperm hsub).perm_of_length_le (by rw [List.length_range, hlength])

/-- What a partial shuffle selects. -/
theorem between_partial {n k : ℕ} (hk : 0 < k) (hn : k ≤ n) (ns : List ℕ) :
    Between (if ns.length = k ∧ ns.Nodup ∧ ns ⊆ List.range n then 1 else 0)
      (factors (fun i => 256 ^ 4 / (i + 1)) (n - max 1 (n - k)) (n - 1))
      (factors (fun i => 256 ^ 4 / (i + 1) + 1) (n - max 1 (n - k)) (n - 1))
      (Words (4 * (n - max 1 (n - k))) fun bytes =>
        partialOf n k (picksOf pickOf 4 (n - max 1 (n - k)) (n - 1) bytes) = ns).ncard := by
  have hselect : ∀ bytes, partialOf n k (picksOf pickOf 4 (n - max 1 (n - k)) (n - 1) bytes) =
      select (List.range n)
        (picksOf pickOf 4 (n - max 1 (n - k)) (n - 1) bytes ++ forced n k) :=
    fun bytes => partialOf_eq hk hn (picksOf_mem n k bytes)
  rcases Nat.lt_or_eq_of_le hn with hlt | rfl
  · have hsteps : n - max 1 (n - k) = k := by omega
    have hforced : forced n k = [] := by rw [forced, hsteps, Nat.sub_self, List.replicate_zero]
    simp only [hsteps, hforced, List.append_nil] at hselect ⊢
    by_cases hlength : ns.length = k
    · simp only [hlength, true_and]
      exact between_select (fun bytes _ => by rw [hselect]) hlength
    · rw [if_neg fun h => hlength h.1]
      refine between_zero fun bytes _ heq => hlength ?_
      have hmem := (partialOf_bijOn hk hn).mapsTo (picksOf_mem n k bytes)
      rw [hsteps, heq] at hmem
      exact hmem.1
  · have hsteps : k - max 1 (k - k) = k - 1 := by omega
    have hforced : forced k k = [0] := by
      rw [forced, hsteps, show k - (k - 1) = 1 by omega]
      rfl
    have hne : List.range k ≠ [] := by
      rw [Ne, List.range_eq_nil]
      omega
    simp only [hforced, hsteps] at hselect ⊢
    have hshuffle := @between_shuffle (List.range k) ns
      (if ns.length = k ∧ ns.Nodup ∧ ns ⊆ List.range k then 1 else 0)
      (fun bytes => partialOf k k (picksOf pickOf 4 (k - 1) (k - 1) bytes) = ns) hne
      (fun bytes _ => by rw [hselect, List.length_range])
      (fun hperm => by
        rw [waysTo_of_nodup List.nodup_range, if_pos (perm_range_iff.mp hperm),
          if_pos (perm_range_iff.mp hperm).2])
      (fun hother => if_neg fun h => hother (perm_range_iff.mpr h))
    rwa [List.length_range] at hshuffle

/-! ## Every game -/

/-- A pair of rolls. -/
theorem between_rolls {P : Bytes → Prop} {round : StakingRound}
    (hiff : ∀ bytes, bytes.length = 2 → (P bytes ↔
      (bytes.getD 0 0).toNat % 12 + 1 = round.playerRoll ∧
        (bytes.getD 1 0).toNat % 12 + 1 = round.botRoll)) :
    Between (if round.Rolled then 1 else 0) (21 * 21) (22 * 22) (Words 2 P).ncard := by
  have hroll : ∀ roll, Between (if 1 ≤ roll ∧ roll ≤ 12 then 1 else 0) 21 22
      (Words 1 fun bytes => fromBytes bytes % 12 + 1 = roll).ncard := by
    intro roll
    split
    next hrange =>
      exact @between_fromBytes 1 12 1 _ {roll - 1} (by simp; omega)
        (fun bytes _ => by rw [Finset.mem_singleton]; omega) rfl
    next hrange => exact between_zero fun bytes _ heq => hrange (by omega)
  have hwords : Words 2 P = Words (1 + 1) fun bytes =>
      fromBytes (bytes.take 1) % 12 + 1 = round.playerRoll ∧
        fromBytes (bytes.drop 1) % 12 + 1 = round.botRoll := by
    refine words_congr fun bytes hlength => ?_
    rw [hiff bytes hlength]
    match bytes, hlength with
    | [b, c], _ => simp [fromBytes]
  have hboth := between_append (hroll round.playerRoll) (hroll round.botRoll)
  rw [ite_zero_mul_ite_zero, mul_one] at hboth
  rw [hwords]
  exact hboth

theorem between_rounds (n : ℕ) (rounds : List StakingRound) :
    Between (if rounds.length = n ∧ ∀ round ∈ rounds, round.Rolled then 1 else 0)
      ((21 * 21) ^ n) ((22 * 22) ^ n)
      (Words (2 * n) fun bytes => roundsOf n bytes = rounds).ncard := by
  induction n generalizing rounds with
  | zero =>
      cases rounds with
      | nil =>
          have hnil : (Words (2 * 0) fun bytes => roundsOf 0 bytes = []) = {[]} := by
            ext bytes
            simp [Words, roundsOf]
          rw [hnil, Set.ncard_singleton, if_pos (by simp)]
          exact ⟨le_rfl, le_rfl⟩
      | cons round rest =>
          rw [if_neg (by simp)]
          exact between_zero fun bytes _ heq => by cases heq
  | succ n ih =>
      cases rounds with
      | nil =>
          rw [if_neg (by simp)]
          exact between_zero fun bytes _ heq => by cases heq
      | cons round rest =>
          have hwords : (Words (2 * (n + 1)) fun bytes => roundsOf (n + 1) bytes = round :: rest) =
              Words (2 + 2 * n) fun bytes =>
                (((bytes.take 2).getD 0 0).toNat % 12 + 1 = round.playerRoll ∧
                    ((bytes.take 2).getD 1 0).toNat % 12 + 1 = round.botRoll) ∧
                  roundsOf n (bytes.drop 2) = rest := by
            rw [Nat.mul_succ, Nat.add_comm]
            refine words_congr fun bytes _ => ?_
            cases round
            simp [roundsOf]
          have hfirst := @between_rolls _ round fun _ _ => Iff.rfl
          have hboth := between_append hfirst (ih rest)
          have hrolled : (round.Rolled ∧ rest.length = n ∧ ∀ later ∈ rest, later.Rolled) ↔
              (round :: rest).length = n + 1 ∧ ∀ later ∈ round :: rest, later.Rolled := by
            rw [List.length_cons, List.forall_mem_cons, Nat.add_right_cancel_iff]
            tauto
          rw [ite_zero_mul_ite_zero, mul_one, ← pow_succ', ← pow_succ', ← hwords] at hboth
          rwa [if_congr hrolled rfl rfl] at hboth

/-- A number that a game shows as it is. -/
theorem between_number {w m n : ℕ} {P : Bytes → Prop} (hm : 0 < m)
    (hiff : ∀ bytes, bytes.length = w → (P bytes ↔ fromBytes bytes % m = n)) :
    Between (if n < m then 1 else 0) (256 ^ w / m) (256 ^ w / m + 1) (Words w P).ncard := by
  split
  next hlt =>
    exact @between_fromBytes w m 1 _ {n} (by simpa using hlt)
      (fun bytes hlength => by rw [hiff bytes hlength, Finset.mem_singleton]) rfl
  next hge =>
    refine between_zero fun bytes hlength hP => hge ?_
    rw [← (hiff bytes hlength).mp hP]
    exact Nat.mod_lt _ hm

/-- A number that a game counts from 1. -/
theorem between_count {w m n : ℕ} {P : Bytes → Prop} (hm : 0 < m)
    (hiff : ∀ bytes, bytes.length = w → (P bytes ↔ fromBytes bytes % m + 1 = n)) :
    Between (if 1 ≤ n ∧ n ≤ m then 1 else 0) (256 ^ w / m) (256 ^ w / m + 1) (Words w P).ncard := by
  split
  next hrange =>
    exact @between_fromBytes w m 1 _ {n - 1} (by simp; omega)
      (fun bytes hlength => by rw [hiff bytes hlength, Finset.mem_singleton]; omega) rfl
  next hrange =>
    refine between_zero fun bytes hlength hP => hrange ?_
    have hlt := Nat.mod_lt (fromBytes bytes) hm
    rw [← (hiff bytes hlength).mp hP]
    omega

/-- The remainders modulo 10000 that stand for a temperature. -/
def Temperature.remainders : Temperature → Finset ℕ
  | .rainbow => Finset.range 500
  | .hot => Finset.Ico 500 5250
  | .cold => Finset.Ico 5250 10000

theorem hotcold_iff {bytes : Bytes} (hlength : bytes.length = 2) (temperature : Temperature) :
    decodeHotcold bytes = temperature ↔ fromBytes bytes % 10000 ∈ temperature.remainders := by
  have hlt := Nat.mod_lt (fromBytes bytes) (by decide : 0 < 10000)
  rw [decodeHotcold, List.take_of_length_le hlength.le]
  cases temperature <;> split_ifs <;> simp [Temperature.remainders] <;> omega

theorem prod_parts (f : ℕ × ℕ → ℕ) (steps i : ℕ) :
    (((List.range steps).map fun t => (4, i - t + 1)).map f).prod =
      factors (fun i => f (4, i + 1)) steps i := by
  rw [factors_eq, List.map_map]
  rfl

theorem between_shoe (decks : ℕ) (hdecks : 0 < decks) (ns : List ℕ) :
    Between (if ns.Perm (sortedShoe decks) then decks.factorial ^ 52 else 0)
      (factors (fun i => 256 ^ 4 / (i + 1)) (52 * decks - 1) (52 * decks - 1))
      (factors (fun i => 256 ^ 4 / (i + 1) + 1) (52 * decks - 1) (52 * decks - 1))
      (Words (4 * (52 * decks - 1)) fun bytes =>
        swaps (52 * decks - 1) (picksOf pickOf 4 (52 * decks - 1) (52 * decks - 1) bytes)
          (sortedShoe decks) = ns).ncard := by
  have hlength := length_sortedShoe decks
  have hne : sortedShoe decks ≠ [] := by
    rw [← List.length_pos_iff, hlength]
    omega
  have hreverse : ns.reverse.Perm (sortedShoe decks) ↔ ns.Perm (sortedShoe decks) :=
    (List.reverse_perm ns).congr_left _
  have hshuffle := @between_shuffle (sortedShoe decks) ns.reverse
    (if ns.Perm (sortedShoe decks) then decks.factorial ^ 52 else 0)
    (fun bytes => swaps (52 * decks - 1)
      (picksOf pickOf 4 (52 * decks - 1) (52 * decks - 1) bytes) (sortedShoe decks) = ns) hne
    (fun bytes _ => by
      have hchoices : Choices (sortedShoe decks).length (picksOf pickOf 4
          ((sortedShoe decks).length - 1) ((sortedShoe decks).length - 1) bytes) :=
        choices_picksOf pickOf_le (Nat.sub_le _ _) bytes
      have hswaps := swaps_eq_select hchoices (by rw [length_picksOf]; omega)
      rw [hlength] at hswaps ⊢
      rw [hswaps, List.reverse_eq_iff])
    (fun hperm => by
      have hcards : ∀ card ∈ sortedShoe decks, card ∈ Finset.range 52 := by
        intro card hcard
        obtain ⟨other, hother, hmem⟩ := List.mem_flatMap.mp hcard
        rw [List.eq_of_mem_replicate hmem]
        simpa using hother
      have hcounts : ∀ card ∈ Finset.range 52,
          ((sortedShoe decks).count card).factorial = decks.factorial := fun card hcard => by
        rw [count_sortedShoe decks (Finset.mem_range.mp hcard)]
      rw [if_pos (hreverse.mp hperm), waysTo_of_perm hperm hcards, Finset.prod_congr rfl hcounts,
        Finset.prod_const, Finset.card_range])
    (fun hother => if_neg fun h => hother (hreverse.mpr h))
  rwa [hlength] at hshuffle

/-- Of the bytes that a decoder uses, an outcome comes from nearly as many as any other. -/
theorem between_words (haccepts : game.Accepts) (outcome : Outcome) :
    Between (game.weight outcome) game.least game.most
      (Words game.byteCount fun bytes => game.outcomeOf bytes = outcome).ncard := by
  cases game with
  | coinflip =>
      cases outcome with
      | side side =>
          refine @between_fromBytes 1 2 1 _ (match side with | .heads => {0} | .tails => {1}) ?_
            (fun bytes hlength => ?_) ?_
          · cases side <;> simp
          · match bytes, hlength with
            | [byte], _ => cases side <;> simp [DecodedGame.outcomeOf, fromBytes, Nat.and_one_is_mod]
          · cases side <;> rfl
      | _ => exact between_zero fun bytes _ heq => by cases heq
  | dice =>
      cases outcome with
      | number n =>
          refine @between_number 4 10000 n _ (by decide) fun bytes hlength => ?_
          rw [DecodedGame.outcomeOf, decodeDice, List.take_of_length_le (le_of_eq hlength),
            Outcome.number.injEq]
      | _ => exact between_zero fun bytes _ heq => by cases heq
  | ninetyNineX =>
      cases outcome with
      | number n =>
          refine @between_count 1 100 n _ (by decide) fun bytes hlength => ?_
          match bytes, hlength with
          | [byte], _ => simp [DecodedGame.outcomeOf, fromBytes]
      | _ => exact between_zero fun bytes _ heq => by cases heq
  | hotcold =>
      cases outcome with
      | temperature temperature =>
          refine @between_fromBytes 2 10000 _ _ temperature.remainders ?_ (fun bytes hlength => ?_) ?_
          · cases temperature <;> simp [Temperature.remainders] <;> omega
          · rw [DecodedGame.outcomeOf, Outcome.temperature.injEq]
            exact hotcold_iff hlength temperature
          · cases temperature <;> simp [DecodedGame.weight, Temperature.remainders]
      | _ => exact between_zero fun bytes _ heq => by cases heq
  | roulette =>
      cases outcome with
      | number n =>
          refine @between_number 2 37 n _ (by decide) fun bytes hlength => ?_
          rw [DecodedGame.outcomeOf, decodeRouletteEu, List.take_of_length_le (le_of_eq hlength),
            Outcome.number.injEq]
      | _ => exact between_zero fun bytes _ heq => by cases heq
  | mines minesCount gridSize =>
      cases outcome with
      | numbers ns =>
          obtain ⟨hmin, hmax⟩ := haccepts
          have hpartial := between_partial (by omega : 0 < minesCount.toNat)
            (by omega : minesCount.toNat ≤ gridSize.toNat) ns
          rw [show gridSize.toNat - max 1 (gridSize.toNat - minesCount.toNat) = minesCount.toNat by
            omega] at hpartial
          rw [DecodedGame.least, DecodedGame.most, DecodedGame.parts, prod_parts, prod_parts]
          simp only [DecodedGame.outcomeOf, Outcome.numbers.injEq]
          exact hpartial
      | _ => exact between_zero fun bytes _ heq => by cases heq
  | blackjack decks =>
      cases outcome with
      | numbers ns =>
          have hshoe := between_shoe decks.toNat (Int.pos_iff_toNat_pos.mp haccepts) ns
          rw [DecodedGame.least, DecodedGame.most, DecodedGame.parts, prod_parts, prod_parts]
          simp only [DecodedGame.outcomeOf, Outcome.numbers.injEq]
          exact hshoe
      | _ => exact between_zero fun bytes _ heq => by cases heq
  | diceduel =>
      cases outcome with
      | rolls first second =>
          refine @between_rolls _ ⟨first, second⟩ fun bytes _ => ?_
          simp [DecodedGame.outcomeOf]
      | _ => exact between_zero fun bytes _ heq => by cases heq
  | staking maxRounds =>
      cases outcome with
      | rounds rounds =>
          have hrounds := between_rounds maxRounds.toNat rounds
          rw [← pow_two, ← pow_two, ← pow_mul, ← pow_mul] at hrounds
          simp only [DecodedGame.least, DecodedGame.most, DecodedGame.parts, List.map_replicate,
            List.prod_replicate, DecodedGame.outcomeOf, Outcome.rounds.injEq]
          exact hrounds
      | _ => exact between_zero fun bytes _ heq => by cases heq
  | raffle ticketCount =>
      cases outcome with
      | numbers ns =>
          have htickets : 3 ≤ ticketCount := haccepts
          have hpartial := between_partial (by decide : 0 < 3)
            (by omega : 3 ≤ ticketCount.toNat) ns
          rw [show ticketCount.toNat - max 1 (ticketCount.toNat - 3) =
            min 3 (ticketCount.toNat - 1) by omega] at hpartial
          rw [DecodedGame.least, DecodedGame.most, DecodedGame.parts, prod_parts, prod_parts]
          simp only [DecodedGame.outcomeOf, Outcome.numbers.injEq]
          exact hpartial
      | _ => exact between_zero fun bytes _ heq => by cases heq

/-! ## Draws -/

/-- The draws of a length that a game decodes to an outcome. -/
def DecodedGame.draws (game : DecodedGame) (crypto : Crypto) (n : ℕ) (outcome : Outcome) :
    Set Bytes :=
  {out | out.length = n ∧ game.decode crypto out = .ok outcome}

theorem ncard_bytes (n : ℕ) : (Words n fun _ : Bytes => True).ncard = 256 ^ n := by
  have hshare := @ncard_valueOf_mod _ 256 UInt8.toNat toNat_bijOn n 1 0 Nat.zero_lt_one
  have hwords : (Words n fun bytes => valueOf 256 UInt8.toNat bytes % 1 = 0) =
      Words n fun _ : Bytes => True :=
    words_congr fun _ _ => by simp [Nat.mod_one]
  rw [← hwords, hshare, share, Nat.div_one, Nat.mod_one, if_neg (Nat.lt_irrefl 0), Nat.add_zero]

/-- A draw that is long enough is decoded by its first bytes. -/
theorem ncard_draws (haccepts : game.Accepts) (crypto : Crypto) {n : ℕ} (hn : game.byteCount ≤ n)
    (outcome : Outcome) :
    (game.draws crypto n outcome).ncard =
      (Words game.byteCount fun bytes => game.outcomeOf bytes = outcome).ncard *
        256 ^ (n - game.byteCount) := by
  have hwords : game.draws crypto n outcome = Words (game.byteCount + (n - game.byteCount))
      fun out => game.outcomeOf (out.take game.byteCount) = outcome ∧ True := by
    rw [Nat.add_sub_cancel' hn]
    refine words_congr fun out hlength => ?_
    rw [decode_eq haccepts (game.direct_le.trans (hn.trans hlength.ge)), byteStream,
      StateT.run'_eq, pull_pending (hn.trans hlength.ge), and_true]
    simp [Functor.map, Except.map]
  rw [hwords, ncard_words_append game.byteCount _ (fun bytes => game.outcomeOf bytes = outcome)
    fun _ => True, ncard_bytes]

/-- All outcomes of a game come from nearly the same number of draws, once for each way in
which its numbers make them. -/
theorem decode_near_uniform (haccepts : game.Accepts) (crypto : Crypto) {n : ℕ}
    (hn : game.byteCount ≤ n) (outcome : Outcome) :
    Between (game.weight outcome) (game.least * 256 ^ (n - game.byteCount))
      (game.most * 256 ^ (n - game.byteCount)) (game.draws crypto n outcome).ncard := by
  have hwords := between_words haccepts outcome
  rw [ncard_draws haccepts crypto hn]
  constructor
  · rw [← Nat.mul_assoc]
    exact Nat.mul_le_mul_right _ hwords.1
  · rw [← Nat.mul_assoc]
    exact Nat.mul_le_mul_right _ hwords.2

theorem decode_near_uniform_mines :
    Between 1 ((256 ^ 4 / 25 * (256 ^ 4 / 24 * (256 ^ 4 / 23 * 1))) * 256 ^ (64 - 12))
      (((256 ^ 4 / 25 + 1) * ((256 ^ 4 / 24 + 1) * ((256 ^ 4 / 23 + 1) * 1))) * 256 ^ (64 - 12))
      ((DecodedGame.mines 3 25).draws sampleCrypto 64 (.numbers [4, 8, 17])).ncard :=
  @decode_near_uniform (.mines 3 25) ⟨by decide, by decide⟩ sampleCrypto 64 (by decide)
    (.numbers [4, 8, 17])

/-! ## Hot and cold -/

theorem sum_share (total m a b : ℕ) :
    ∑ r ∈ Finset.Ico a b, share total m r =
      (b - a) * (total / m) + (min b (total % m) - a) := by
  simp only [share, Finset.sum_add_distrib, Finset.sum_const, Nat.card_Ico, smul_eq_mul,
    ← Finset.card_filter, Finset.Ico_filter_lt]

theorem ncard_hotcold (temperature : Temperature) :
    (Words 2 fun bytes => decodeHotcold bytes = temperature).ncard =
      ∑ r ∈ temperature.remainders, share (256 ^ 2) 10000 r := by
  refine ncard_fromBytes ?_ fun bytes hlength => hotcold_iff hlength temperature
  cases temperature <;> simp [Temperature.remainders] <;> omega

/-- 65536 is not a multiple of 10000: hot, which has the smaller remainders, comes from 33250
of the values of two bytes and cold from 28786, though each has 4750 remainders. -/
theorem hotcold_draws (crypto : Crypto) {n : ℕ} (hn : 2 ≤ n) :
    (DecodedGame.hotcold.draws crypto n (.temperature .rainbow)).ncard = 3500 * 256 ^ (n - 2) ∧
    (DecodedGame.hotcold.draws crypto n (.temperature .hot)).ncard = 33250 * 256 ^ (n - 2) ∧
    (DecodedGame.hotcold.draws crypto n (.temperature .cold)).ncard = 28786 * 256 ^ (n - 2) := by
  have hdraws : ∀ temperature,
      (DecodedGame.hotcold.draws crypto n (.temperature temperature)).ncard =
        (∑ r ∈ temperature.remainders, share (256 ^ 2) 10000 r) * 256 ^ (n - 2) := by
    intro temperature
    rw [← ncard_hotcold, @ncard_draws .hotcold trivial crypto n hn]
    simp only [DecodedGame.outcomeOf, Outcome.temperature.injEq]
    rfl
  refine ⟨?_, ?_, ?_⟩
  · rw [hdraws, Temperature.remainders, Finset.range_eq_Ico, sum_share]
    exact congrArg (· * 256 ^ (n - 2)) (by decide)
  · rw [hdraws, Temperature.remainders, sum_share]
    exact congrArg (· * 256 ^ (n - 2)) (by decide)
  · rw [hdraws, Temperature.remainders, sum_share]
    exact congrArg (· * 256 ^ (n - 2)) (by decide)

/-- A digest of 64 bytes. -/
theorem hotcold_draws_digest :
    (DecodedGame.hotcold.draws sampleCrypto 64 (.temperature .rainbow)).ncard = 3500 * 256 ^ 62 ∧
    (DecodedGame.hotcold.draws sampleCrypto 64 (.temperature .hot)).ncard = 33250 * 256 ^ 62 ∧
    (DecodedGame.hotcold.draws sampleCrypto 64 (.temperature .cold)).ncard = 28786 * 256 ^ 62 :=
  hotcold_draws sampleCrypto (by decide : 2 ≤ 64)

end DeathRoll
