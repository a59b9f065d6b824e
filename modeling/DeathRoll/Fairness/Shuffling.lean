import DeathRoll.Fairness.Decoding

/-! # What the shuffles select

The picks of `_fisher_yates_partial` and its results correspond one to one. The three swap
loops agree: the partial shuffle is the end of the full one, and the shoe is what the full
one does to its sorted cards.
-/

namespace DeathRoll

open Sampling

variable {n k : ℕ} {js ks : List ℕ} {σ : Type} {next : Pulling σ DecodeError UInt8}

/-! ## One selection for each sequence of picks -/

/-- Picks that are given, one after the other. -/
def givenPick (_ : ℕ) : Pulling (List ℕ) DecodeError ℕ
  | [] => .error .stopIteration
  | j :: js => .ok (j, js)

/-- A pick `j` with `0 ≤ j ≤ i` for each `i` from `n - 1` down to `max(1, n - k)`. -/
def ChoiceSequences (n k : ℕ) : Set (List ℕ) :=
  {js | js.length = n - max 1 (n - k) ∧ ∀ t j, js[t]? = some j → j ≤ n - 1 - t}

theorem picks_given (js : List ℕ) (i : ℕ) :
    (picks givenPick js.length i).run' js = .ok js := by
  have hrun : ∀ i, (picks givenPick js.length i).run js = .ok (js, []) := by
    induction js with
    | nil => exact fun _ => rfl
    | cons j js ih =>
        intro i
        refine run_bind_eq_ok.mpr ⟨j, js, rfl, run_bind_eq_ok.mpr ⟨js, [], ih (i - 1), rfl⟩⟩
  exact run'_eq_ok.mpr ⟨[], hrun i⟩

/-- The pick that the loop of a whole shuffle leaves out has no choice. -/
def forced (n k : ℕ) : List ℕ := List.replicate (k - (n - max 1 (n - k))) 0

theorem forced_bijOn (hk : 0 < k) (hn : k ≤ n) :
    Set.BijOn (· ++ forced n k) (ChoiceSequences n k)
      {js | js.length = k ∧ Choices (List.range n).length js} := by
  rw [List.length_range]
  refine ⟨?_, ?_, ?_⟩
  · rintro js ⟨hlength, hbound⟩
    refine ⟨by simp only [forced, List.length_append, List.length_replicate]; omega,
      choices_iff.mpr fun t j ht => ?_⟩
    by_cases hlt : t < js.length
    · rw [List.getElem?_append_left hlt] at ht
      have := hbound t j ht
      omega
    · rw [List.getElem?_append_right (not_lt.mp hlt), forced, List.getElem?_replicate] at ht
      split at ht
      next => cases ht; omega
      next => cases ht
  · intro js _ ks _ heq
    exact List.append_cancel_right heq
  · rintro js ⟨hlength, hchoices⟩
    rw [choices_iff] at hchoices
    refine ⟨js.take (n - max 1 (n - k)), ⟨by rw [List.length_take]; omega, fun t j ht => ?_⟩, ?_⟩
    · rw [List.getElem?_take] at ht
      split at ht
      next =>
        have := hchoices t j ht
        omega
      next => cases ht
    · have hforced : js.drop (n - max 1 (n - k)) = forced n k := by
        refine List.eq_replicate_iff.mpr ⟨by rw [List.length_drop, hlength], fun j hj => ?_⟩
        obtain ⟨t, ht⟩ := List.mem_iff_getElem?.mp hj
        rw [List.getElem?_drop] at ht
        have hlt := (List.getElem?_eq_some_iff.mp ht).1
        have := hchoices _ j ht
        omega
      change js.take _ ++ forced n k = js
      rw [← hforced, List.take_append_drop]

theorem choices_of_mem (hjs : js ∈ ChoiceSequences n k) : Choices n js := by
  obtain ⟨hlength, hbound⟩ := hjs
  refine choices_iff.mpr fun t j ht => ?_
  have hlt := (List.getElem?_eq_some_iff.mp ht).1
  have := hbound t j ht
  omega

/-- The loop takes the picks out of `[0, n)`, first pick first. -/
theorem partialOf_eq (hk : 0 < k) (hn : k ≤ n) (hjs : js ∈ ChoiceSequences n k) :
    partialOf n k js = select (List.range n) (js ++ forced n k) := by
  have hchoices := choices_of_mem hjs
  have hlength := hjs.1
  have harr : (List.range n).length = n := List.length_range
  rw [← harr] at hchoices
  have hswaps := @swaps_eq _ (List.range n) [] js hchoices
  rw [List.append_nil, List.append_nil, harr] at hswaps
  have hleft := length_remaining (List.range n) js
  rw [harr] at hleft
  rw [partialOf, hswaps, forced]
  rcases Nat.lt_or_eq_of_le hn with hlt | rfl
  · rw [List.drop_left' (by omega), List.reverse_reverse, Nat.sub_eq_zero_of_le (by omega),
      List.replicate_zero, List.append_nil]
  · obtain ⟨x, hx⟩ := List.length_eq_one_iff.mp (hleft.trans (by omega))
    rw [Nat.sub_self, List.drop_zero, select_append hchoices, hx,
      show k - (k - max 1 0) = 1 by omega]
    simp [select]

/-- Each selection of `k` indices comes from one sequence of picks. -/
theorem partialOf_bijOn (hk : 0 < k) (hn : k ≤ n) :
    Set.BijOn (partialOf n k) (ChoiceSequences n k) (Selections (List.range n) k) :=
  ((select_bijOn List.nodup_range k).comp (forced_bijOn hk hn)).congr fun _ hjs =>
    (partialOf_eq hk hn hjs).symm

/-- Picks made of bytes are within their bounds. -/
theorem pullPick_le {i j : ℕ} {s s' : σ} (hpick : (pullPick next i).run s = .ok (j, s')) :
    j ≤ i := by
  obtain ⟨value, s₁, -, hvalue⟩ := run_bind_eq_ok.mp hpick
  cases hvalue
  exact Nat.le_of_lt_succ (Nat.mod_lt _ (Nat.succ_pos i))

theorem picks_mem {steps : ℕ} (hsteps : steps = n - max 1 (n - k)) {s s' : σ}
    (hjs : (picks (pullPick next) steps (n - 1)).run s = .ok (js, s')) :
    js ∈ ChoiceSequences n k := by
  have hchoices : Choices n js :=
    choices_of_picks (fun _ _ _ _ hpick => pullPick_le hpick) (by omega) hjs
  refine ⟨(length_of_picks hjs).trans hsteps, fun t j ht => ?_⟩
  have := choices_iff.mp hchoices t j ht
  omega

/-- Whatever the stream, a partial shuffle that returns selects `k` indices. -/
theorem fisherYatesPartial_mem (hk : 0 < k) (hn : k ≤ n) {s : σ} {xs : List ℕ}
    (hxs : (fisherYatesPartial (pullPick next) n k).run' s = .ok xs) :
    xs ∈ Selections (List.range n) k := by
  rw [fisherYatesPartial_eq hk hn] at hxs
  obtain ⟨s', hrun⟩ := run'_eq_ok.mp hxs
  rw [map_eq_pure_bind] at hrun
  obtain ⟨js, s₁, hjs, hvalue⟩ := run_bind_eq_ok.mp hrun
  cases hvalue
  exact (partialOf_bijOn hk hn).mapsTo (picks_mem rfl hjs)

/-- The picks of a partial shuffle and the selections it returns correspond one to one, and
whatever the bytes, mines and winners are such selections. -/
theorem partial_shuffle_selects :
    (∀ n k, 0 < k → k ≤ n →
      Set.BijOn (fun js => (fisherYatesPartial givenPick n k).run' js) (ChoiceSequences n k)
        (Except.ok '' Selections (List.range n) k)) ∧
    (∀ crypto out minesCount gridSize positions,
      decodeMinesPositions crypto out minesCount gridSize = .ok positions →
      positions ∈ Selections (List.range gridSize.toNat) minesCount.toNat) ∧
    ∀ crypto out ticketCount winners, decodeRaffleWinners crypto out ticketCount = .ok winners →
      winners ∈ Selections (List.range ticketCount.toNat) 3 := by
  refine ⟨fun n k hk hn => ?_, fun crypto out minesCount gridSize positions hpositions => ?_,
    fun crypto out ticketCount winners hwinners => ?_⟩
  · have hinj : Function.Injective (Except.ok : List ℕ → Except DecodeError (List ℕ)) :=
      fun _ _ => Except.ok.inj
    refine (hinj.injOn.bijOn_image.comp (partialOf_bijOn hk hn)).congr fun js hjs => ?_
    rw [fisherYatesPartial_eq hk hn, run'_map, ← hjs.1, picks_given]
    rfl
  · unfold decodeMinesPositions at hpositions
    split_ifs at hpositions with hrange
    exact fisherYatesPartial_mem (by omega) (by omega) hpositions
  · unfold decodeRaffleWinners at hwinners
    split_ifs at hwinners with hrange
    exact fisherYatesPartial_mem (by omega) (by omega) hwinners

/-- Three mines among 25 cells. -/
theorem partial_shuffle_selects_mines :
    [4, 8, 17] ∈ Selections (List.range 25) 3 ∧
      Set.BijOn (fun js => (fisherYatesPartial givenPick 25 3).run' js) (ChoiceSequences 25 3)
        (Except.ok '' Selections (List.range 25) 3) := by
  have hpositions : decodeMinesPositions chainCrypto
      (compute chainCrypto chainDraw.rawSeed chainDraw.clientSeed chainDraw.nonce) 3 25 =
        .ok [4, 8, 17] := by
    decide +kernel
  exact ⟨partial_shuffle_selects.2.1 _ _ 3 25 _ hpositions,
    partial_shuffle_selects.1 25 3 (by decide) (by decide)⟩

/-! ## The three swap loops -/

/-- Further swaps leave alone what the first ones have settled. -/
theorem partialOf_append (hjs : js ∈ ChoiceSequences n k) (hchoices : Choices n (js ++ ks))
    (hks : js.length + ks.length = n - 1) :
    partialOf n k js = ((swaps (n - 1) (js ++ ks) (List.range n)).drop (n - k)).reverse := by
  have hlength := hjs.1
  rcases Nat.lt_or_ge k n with hlt | hge
  · have harr : (List.range n).length = n := List.length_range
    obtain ⟨hfirst, hsecond⟩ := choices_append.mp hchoices
    have hswaps := @swaps_eq _ (List.range n) [] js (by rwa [harr])
    rw [List.append_nil, List.append_nil, harr] at hswaps
    have hleft := length_remaining (List.range n) js
    rw [harr] at hleft
    have hrest := @swaps_eq _ (remaining (List.range n) js) (select (List.range n) js).reverse ks
      (by rwa [hleft])
    rw [hleft, Nat.sub_right_comm] at hrest
    have hfront := @length_select _ (remaining (List.range n) js) ks (by rwa [hleft])
    have hback := length_remaining (remaining (List.range n) js) ks
    rw [partialOf, swaps_append, hswaps, hrest, List.drop_left' (by omega),
      List.drop_left' (by rw [List.length_append, List.length_reverse]; omega)]
  · have hnone : ks = [] := List.eq_nil_of_length_eq_zero (by omega)
    rw [hnone, List.append_nil, partialOf]

/-- A partial shuffle returns the end of the full one on the same stream. -/
theorem partial_of_full (hk : 0 < k) (hn : k ≤ n) {s : σ} {arr : List ℕ}
    (harr : (fisherYatesFull (pullPick next) n).run' s = .ok arr) :
    (fisherYatesPartial (pullPick next) n k).run' s = .ok (arr.drop (n - k)).reverse := by
  obtain ⟨s', hrun⟩ := run'_eq_ok.mp harr
  rw [fisherYatesFull, swapLoop_eq, map_eq_pure_bind] at hrun
  obtain ⟨all, s₁, hall, hvalue⟩ := run_bind_eq_ok.mp hrun
  cases hvalue
  have hchoices : Choices n all :=
    choices_of_picks (fun _ _ _ _ hpick => pullPick_le hpick) (by omega) hall
  have hlength := length_of_picks hall
  obtain ⟨rest, hrest⟩ := Nat.exists_eq_add_of_le (by omega : n - max 1 (n - k) ≤ n - 1)
  rw [hrest, picks_add, ← hrest] at hall
  obtain ⟨js, s₂, hjs, hall⟩ := run_bind_eq_ok.mp hall
  rw [map_eq_pure_bind] at hall
  obtain ⟨ks, s₃, hks, hvalue⟩ := run_bind_eq_ok.mp hall
  cases hvalue
  rw [fisherYatesPartial_eq hk hn, run'_map, run'_eq_ok.mpr ⟨s₂, hjs⟩]
  rw [List.length_append] at hlength
  rw [← partialOf_append (picks_mem rfl hjs) hchoices hlength]
  rfl

theorem count_flatMap_replicate (cards : List ℕ) (decks card : ℕ) :
    (cards.flatMap fun c => List.replicate decks c).count card = cards.count card * decks := by
  induction cards with
  | nil => simp
  | cons c cards ih =>
      rw [List.flatMap_cons, List.count_append, ih, List.count_replicate, List.count_cons]
      split
      next => rw [Nat.add_mul, Nat.one_mul, Nat.add_comm]
      next => simp

theorem count_sortedShoe (decks : ℕ) {card : ℕ} (hcard : card < 52) :
    (sortedShoe decks).count card = decks := by
  rw [sortedShoe, count_flatMap_replicate,
    List.count_eq_one_of_mem List.nodup_range (List.mem_range.mpr hcard), Nat.one_mul]

/-- A list with its places in the order of `perm`. -/
def permuted (cards perm : List ℕ) : List ℕ := perm.map fun i => cards.getD i 0

/-- The swaps of a shoe permute it as they permute its places. -/
theorem swaps_permuted (i : ℕ) (js cards : List ℕ) :
    swaps i js cards = permuted cards (swaps i js (List.range cards.length)) := by
  have hcards : cards = (List.range cards.length).map fun i => cards.getD i 0 := by
    refine List.ext_getElem (by simp) fun i hi _ => ?_
    simp [hi]
  rw [permuted, ← swaps_map, ← hcards]

/-- What a blackjack shoe is. -/
structure ShoeOf (crypto : Crypto) (out : Bytes) (decks : ℕ) (cards : List ℕ) : Prop where
  length : cards.length = 52 * decks
  counts : ∀ card < 52, cards.count card = decks
  shuffled : ∃ perm,
    (fisherYatesFull (pullPick (nextByte crypto out)) (52 * decks)).run' (byteStream out) =
        .ok perm ∧
      cards = permuted (sortedShoe decks) perm

theorem shoeOf {crypto : Crypto} {out : Bytes} {decks : ℤ} {cards : List ℕ} (hdecks : 1 ≤ decks)
    (hcards : decodeBlackjackDeck crypto out decks = .ok cards) :
    ShoeOf crypto out decks.toNat cards := by
  rw [decodeBlackjackDeck, if_neg (by omega)] at hcards
  dsimp only at hcards
  rw [length_sortedShoe, swapLoop_eq, run'_map] at hcards
  obtain ⟨js, hjs, rfl⟩ := except_map_eq_ok.mp hcards
  refine ⟨by rw [length_swaps, length_sortedShoe], fun card hcard => ?_,
    swaps (52 * decks.toNat - 1) js (List.range (52 * decks.toNat)), ?_, ?_⟩
  · rw [(swaps_perm _ _ _).count_eq, count_sortedShoe _ hcard]
  · rw [fisherYatesFull, swapLoop_eq, run'_map, hjs]
    rfl
  · rw [swaps_permuted, length_sortedShoe]

/-- A shoe needs four bytes for each swap. -/
theorem shoe_returns_iff {crypto : Crypto} {out : Bytes} {decks : ℤ}
    (hdigest : ∀ input, (crypto.sha256 input).length = 32) (hdecks : 1 ≤ decks) :
    (∃ cards, decodeBlackjackDeck crypto out decks = .ok cards) ↔
      4 * (52 * decks.toNat - 1) ≤ out.length + 32 * (2 ^ 32 - 1) := by
  have heq : Outcome.numbers <$> decodeBlackjackDeck crypto out decks = _ :=
    @decode_eq_extended crypto out (.blackjack decks) hdigest (lt_of_lt_of_le one_pos hdecks)
      (Nat.zero_le _)
  rw [← extended_ok_iff hdigest]
  constructor
  · rintro ⟨cards, hcards⟩
    rw [hcards] at heq
    obtain ⟨bytes, hbytes, -⟩ := except_map_eq_ok.mp heq.symm
    exact ⟨bytes, hbytes⟩
  · rintro ⟨bytes, hbytes⟩
    have hbytes' : extended crypto out (DecodedGame.blackjack decks).byteCount = .ok bytes := hbytes
    rw [hbytes'] at heq
    obtain ⟨cards, hcards, -⟩ := except_map_eq_ok.mp heq
    exact ⟨cards, hcards⟩

/-- The partial shuffle of a stream is the end of its full shuffle, and a shoe that the
counter can serve is the full shuffle of the sorted cards. -/
theorem shuffles_agree {crypto : Crypto} (hdigest : ∀ input, (crypto.sha256 input).length = 32) :
    (∀ (σ : Type) (next : Pulling σ DecodeError UInt8) (s : σ) (n k : ℕ), 0 < k → k ≤ n →
      ((∀ s, ∃ byte s', next.run s = .ok (byte, s')) →
        ∃ arr, (fisherYatesFull (pullPick next) n).run' s = .ok arr) ∧
      ∀ arr, (fisherYatesFull (pullPick next) n).run' s = .ok arr →
        (fisherYatesPartial (pullPick next) n k).run' s = .ok (arr.drop (n - k)).reverse) ∧
    ∀ out (decks : ℤ), 1 ≤ decks →
      ((∃ cards, decodeBlackjackDeck crypto out decks = .ok cards) ↔
        4 * (52 * decks.toNat - 1) ≤ out.length + 32 * (2 ^ 32 - 1)) ∧
      ∀ cards, decodeBlackjackDeck crypto out decks = .ok cards →
        ShoeOf crypto out decks.toNat cards := by
  refine ⟨fun σ next s n k hk hn => ⟨fun hnext => ?_, fun arr => partial_of_full hk hn⟩,
    fun out decks hdecks => ⟨shoe_returns_iff hdigest hdecks, fun cards => shoeOf hdecks⟩⟩
  rw [fisherYatesFull, (reads_swapLoop next _ _ _).run'_eq]
  obtain ⟨bytes, hbytes⟩ := pull_returns hnext (4 * (n - 1)) s
  exact ⟨_, by rw [hbytes]; rfl⟩

/-- One deck. -/
theorem shuffles_agree_deck :
    ∃ cards, decodeBlackjackDeck chainCrypto
        (compute chainCrypto chainDraw.rawSeed chainDraw.clientSeed chainDraw.nonce) 1 =
          .ok cards ∧
      ShoeOf chainCrypto
        (compute chainCrypto chainDraw.rawSeed chainDraw.clientSeed chainDraw.nonce) 1 cards := by
  obtain ⟨hreturns, hshoe⟩ := (shuffles_agree length_chainCrypto).2
    (compute chainCrypto chainDraw.rawSeed chainDraw.clientSeed chainDraw.nonce) 1 le_rfl
  obtain ⟨cards, hcards⟩ := hreturns.mpr (by decide +kernel)
  exact ⟨cards, hcards, hshoe cards hcards⟩

/-- A shoe of `2 ^ 30` decks takes more chunks than the counter has numbers. -/
theorem shoe_overflows :
    ¬ ∀ crypto : Crypto, (∀ input, (crypto.sha256 input).length = 32) →
      ∀ out (decks : ℤ), 1 ≤ decks →
        ∃ cards, decodeBlackjackDeck crypto out decks = .ok cards ∧
          ShoeOf crypto out decks.toNat cards := by
  intro hall
  obtain ⟨cards, hcards, -⟩ := hall chainCrypto length_chainCrypto [0] (2 ^ 30) (by norm_num)
  have hbound := (shoe_returns_iff length_chainCrypto (by norm_num)).mp ⟨cards, hcards⟩
  revert hbound
  decide +kernel

end DeathRoll
