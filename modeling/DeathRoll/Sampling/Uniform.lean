import DeathRoll.Sampling.Pulling
import DeathRoll.Sampling.Shuffle
import Mathlib.Data.Int.CardIntervalMod
import Mathlib.Data.Nat.Factorial.BigOperators
import Mathlib.Data.Set.Card.Arithmetic
import Mathlib.Data.Set.Finite.List

/-! # How evenly picks are made

A list of digits is a number, and a number below `b ^ n` leaves each remainder modulo `m`
as often as any other, or once more. Picks made of their own digits one after the other
multiply, so each selection comes from nearly the same number of lists of digits.
-/

namespace Sampling

variable {α : Type*} {β : Type}

/-! ## Lists of a length -/

/-- The lists of a length with a property. -/
def Words (n : ℕ) (P : List α → Prop) : Set (List α) := {items | items.length = n ∧ P items}

theorem words_congr {n : ℕ} {P Q : List α → Prop}
    (hiff : ∀ items, items.length = n → (P items ↔ Q items)) : Words n P = Words n Q := by
  ext items
  exact and_congr_right (hiff items)

theorem bijOn_append (m n : ℕ) (P Q : List α → Prop) :
    Set.BijOn (fun pair : List α × List α => pair.1 ++ pair.2) (Words m P ×ˢ Words n Q)
      (Words (m + n) fun items => P (items.take m) ∧ Q (items.drop m)) := by
  refine ⟨?_, ?_, ?_⟩
  · rintro ⟨front, back⟩ ⟨⟨hfront, hP⟩, hback, hQ⟩
    refine ⟨by rw [List.length_append, hfront, hback], ?_, ?_⟩
    · rwa [List.take_left' hfront]
    · rwa [List.drop_left' hfront]
  · rintro ⟨front, back⟩ ⟨⟨hfront, -⟩, -⟩ ⟨front', back'⟩ ⟨⟨hfront', -⟩, -⟩ heq
    obtain ⟨rfl, rfl⟩ := List.append_inj heq (hfront.trans hfront'.symm)
    rfl
  · rintro items ⟨hlength, hP, hQ⟩
    refine ⟨(items.take m, items.drop m), ⟨⟨?_, hP⟩, ?_, hQ⟩, List.take_append_drop m items⟩
    · rw [List.length_take]
      omega
    · rw [List.length_drop]
      omega

/-- Properties of the front and of the back multiply. -/
theorem ncard_words_append (m n : ℕ) (P Q : List α → Prop) :
    (Words (m + n) fun items => P (items.take m) ∧ Q (items.drop m)).ncard =
      (Words m P).ncard * (Words n Q).ncard := by
  rw [← (bijOn_append m n P Q).ncard_eq, Set.ncard_prod]

/-! ## Numbers -/

/-- The number with these digits, the first the most significant. -/
def valueOf (b : ℕ) (digit : α → ℕ) (items : List α) : ℕ :=
  items.foldl (fun value item => value * b + digit item) 0

/-- How many of the numbers below `total` leave the remainder `r` modulo `m`. -/
def share (total m r : ℕ) : ℕ := total / m + if r < total % m then 1 else 0

theorem share_bounds (total m r : ℕ) :
    total / m ≤ share total m r ∧ share total m r ≤ total / m + 1 := by
  unfold share
  split
  · exact ⟨Nat.le_succ _, le_rfl⟩
  · exact ⟨le_rfl, Nat.le_succ _⟩

section Digits

variable {b : ℕ} {digit : α → ℕ}

theorem valueOf_concat (front : List α) (last : α) :
    valueOf b digit (front ++ [last]) = valueOf b digit front * b + digit last := by
  simp [valueOf]

theorem valueOf_bijOn (hdigit : Set.BijOn digit Set.univ {d | d < b}) (n : ℕ) :
    Set.BijOn (valueOf b digit) {items | items.length = n} {value | value < b ^ n} := by
  have hlt : ∀ item, digit item < b := fun item => hdigit.mapsTo trivial
  induction n with
  | zero =>
      refine ⟨fun items hitems => ?_, fun items hitems others hothers _ => ?_, fun value hvalue => ?_⟩
      · rw [List.eq_nil_of_length_eq_zero hitems]
        exact Nat.zero_lt_one
      · rw [List.eq_nil_of_length_eq_zero hitems, List.eq_nil_of_length_eq_zero hothers]
      · exact ⟨[], rfl, (Nat.lt_one_iff.mp hvalue).symm⟩
  | succ n ih =>
      refine ⟨fun items hitems => ?_, fun items hitems others hothers heq => ?_, fun value hvalue => ?_⟩
      · obtain rfl | ⟨front, last, rfl⟩ := items.eq_nil_or_concat'
        · cases hitems
        have hfront := ih.mapsTo (show front.length = n by simpa using hitems)
        change valueOf b digit (front ++ [last]) < b ^ (n + 1)
        rw [valueOf_concat, Nat.pow_succ]
        have hlast := hlt last
        have hmul := Nat.mul_le_mul_right b (Nat.succ_le_of_lt hfront)
        rw [Nat.succ_mul] at hmul
        omega
      · obtain rfl | ⟨front, last, rfl⟩ := items.eq_nil_or_concat'
        · cases hitems
        obtain rfl | ⟨front', last', rfl⟩ := others.eq_nil_or_concat'
        · cases hothers
        rw [valueOf_concat, valueOf_concat] at heq
        have hmod := congrArg (· % b) heq
        have hdiv := congrArg (· / b) heq
        have hpos : 0 < b := Nat.zero_lt_of_lt (hlt last)
        simp only [Nat.mul_add_mod_self_right, Nat.mod_eq_of_lt (hlt _)] at hmod
        simp only [Nat.mul_comm _ b, Nat.mul_add_div hpos, Nat.div_eq_of_lt (hlt _),
          Nat.add_zero] at hdiv
        rw [hdigit.injOn trivial trivial hmod, ih.injOn (show front.length = n by simpa using hitems)
          (show front'.length = n by simpa using hothers) hdiv]
      · replace hvalue : value < b ^ n * b := hvalue
        have hpos : 0 < b := Nat.pos_of_ne_zero fun hb => by simp [hb] at hvalue
        obtain ⟨front, hfront, hdiv⟩ := ih.surjOn (Nat.div_lt_of_lt_mul (Nat.mul_comm _ b ▸ hvalue))
        obtain ⟨last, -, hmod⟩ := hdigit.surjOn (Nat.mod_lt value hpos)
        refine ⟨front ++ [last], ?_, ?_⟩
        · exact List.length_append.trans (congrArg (· + 1) hfront)
        · rw [valueOf_concat, hdiv, hmod, Nat.mul_comm]
          exact Nat.div_add_mod value b

/-- Each remainder comes from its share of the lists of digits. -/
theorem ncard_valueOf_mod (hdigit : Set.BijOn digit Set.univ {d | d < b}) (n : ℕ) {m r : ℕ}
    (hr : r < m) : (Words n fun items => valueOf b digit items % m = r).ncard = share (b ^ n) m r := by
  have hbij := valueOf_bijOn hdigit n
  have hvalues : Set.BijOn (valueOf b digit) (Words n fun items => valueOf b digit items % m = r)
      ((Finset.range (b ^ n)).filter (· ≡ r [MOD m])) := by
    refine ⟨fun items hitems => ?_, hbij.injOn.mono fun _ hitems => hitems.1, fun value hvalue => ?_⟩
    · have hlt : valueOf b digit items < b ^ n := hbij.mapsTo hitems.1
      simp only [Finset.coe_filter, Finset.mem_range]
      exact ⟨hlt, hitems.2.trans (Nat.mod_eq_of_lt hr).symm⟩
    · simp only [Finset.coe_filter, Finset.mem_range] at hvalue
      obtain ⟨items, hitems, rfl⟩ := hbij.surjOn hvalue.1
      exact ⟨items, ⟨hitems, Eq.trans hvalue.2 (Nat.mod_eq_of_lt hr)⟩, rfl⟩
  rw [hvalues.ncard_eq, Set.ncard_coe_finset, ← Nat.count_eq_card_filter_range,
    Nat.count_modEq_card _ (Nat.zero_lt_of_lt hr), Nat.mod_eq_of_lt hr, share]

end Digits

/-! ## Selections -/

/-- In how many ways the elements can be taken out of a list one after the other, equal
elements in different places being different. -/
def waysTo [DecidableEq α] : List α → List α → ℕ
  | _, [] => 1
  | arr, y :: ys => arr.count y * waysTo (arr.erase y) ys

/-- The product of `f` at `i`, `i - 1` and so on. -/
def factors (f : ℕ → ℕ) : ℕ → ℕ → ℕ
  | 0, _ => 1
  | steps + 1, i => f i * factors f steps (i - 1)

section Select

variable [DecidableEq α] {arr : List α}

theorem waysTo_perm {arr' : List α} (hperm : arr.Perm arr') (ys : List α) :
    waysTo arr ys = waysTo arr' ys := by
  induction ys generalizing arr arr' with
  | nil => rfl
  | cons y ys ih => rw [waysTo, waysTo, hperm.count_eq, ih (hperm.erase y)]

omit [DecidableEq α] in
theorem select_cons_eq {j : ℕ} {js : List ℕ} {y : α} {ys : List α} :
    select arr (j :: js) = y :: ys ↔ arr[j]? = some y ∧ select (fillHole arr j) js = ys := by
  rw [select]
  split
  next hnone => simp [hnone]
  next x hx => simp [hx]

theorem fillHole_perm_erase {j : ℕ} {y : α} (hj : arr[j]? = some y) :
    (fillHole arr j).Perm (arr.erase y) := by
  obtain ⟨hlt, rfl⟩ := List.getElem?_eq_some_iff.mp hj
  have hperm := (fillHole_perm hlt).erase arr[j]
  rwa [List.erase_cons_head] at hperm

theorem card_places (arr : List α) (y : α) :
    ((Finset.range arr.length).filter fun j => arr[j]? = some y).card = arr.count y := by
  rw [Finset.card_filter]
  induction arr with
  | nil => rfl
  | cons x arr ih =>
      rw [List.length_cons, Finset.sum_range_succ', List.count_cons]
      simp only [List.getElem?_cons_succ, List.getElem?_cons_zero, ih, Option.some.injEq, beq_iff_eq]

variable [Finite β] {width : ℕ} {p : ℕ → List β → ℕ}

theorem finite_words (n : ℕ) (P : List β → Prop) : (Words n P).Finite :=
  (List.finite_length_eq β n).subset fun _ hitems => hitems.1

/-- The lists whose picks select `y` and then `ys`, by the first pick. -/
theorem ncard_select_cons (arr : List α) (y : α) (ys : List α) (steps i : ℕ) :
    (Words (width * (steps + 1)) fun items =>
        select arr (picksOf p width (steps + 1) i items) = y :: ys).ncard =
      ∑ j ∈ (Finset.range arr.length).filter fun j => arr[j]? = some y,
        (Words width fun items => p i items = j).ncard *
          (Words (width * steps) fun items =>
            select (fillHole arr j) (picksOf p width steps (i - 1) items) = ys).ncard := by
  let fiber (j : ℕ) : Set (List β) := Words (width + width * steps) fun items =>
    p i (items.take width) = j ∧
      select (fillHole arr j) (picksOf p width steps (i - 1) (items.drop width)) = ys
  let places := (Finset.range arr.length).filter fun j => arr[j]? = some y
  have hunion : (Words (width * (steps + 1)) fun items =>
      select arr (picksOf p width (steps + 1) i items) = y :: ys) =
        ⋃ j ∈ (places : Set ℕ), fiber j := by
    ext items
    simp only [picksOf, select_cons_eq, Set.mem_iUnion, places, fiber, Finset.mem_coe, Finset.mem_filter,
      Finset.mem_range, Words, Nat.mul_succ, Nat.add_comm _ width, exists_prop]
    constructor
    · rintro ⟨hlength, hy, hys⟩
      exact ⟨_, ⟨(List.getElem?_eq_some_iff.mp hy).1, hy⟩, hlength, rfl, hys⟩
    · rintro ⟨_, ⟨-, hy⟩, hlength, rfl, hys⟩
      exact ⟨hlength, hy, hys⟩
  have hdisjoint : (places : Set ℕ).PairwiseDisjoint fiber := by
    intro j _ k _ hne
    refine Set.disjoint_left.mpr ?_
    rintro items ⟨-, hj, -⟩ ⟨-, hk, -⟩
    exact hne (hj.symm.trans hk)
  rw [hunion, Set.Finite.ncard_biUnion places.finite_toSet (fun _ _ => finite_words _ _) hdisjoint,
    finsum_mem_coe_finset]
  exact Finset.sum_congr rfl fun j _ => ncard_words_append width (width * steps)
    (fun items => p i items = j)
    (fun items => select (fillHole arr j) (picksOf p width steps (i - 1) items) = ys)

/-- Each value that a pick at `i` may have comes from between `low i` and `high i` lists. -/
def Spread (p : ℕ → List β → ℕ) (width : ℕ) (low high : ℕ → ℕ) : Prop :=
  ∀ i j, j ≤ i → low i ≤ (Words width fun items => p i items = j).ncard ∧
    (Words width fun items => p i items = j).ncard ≤ high i

/-- A selection comes from the product of what its picks come from, once for each way to
make it. -/
theorem Spread.select {low high : ℕ → ℕ} (hspread : Spread p width low high) (arr ys : List α) :
    waysTo arr ys * factors low ys.length (arr.length - 1) ≤
        (Words (width * ys.length) fun items =>
          select arr (picksOf p width ys.length (arr.length - 1) items) = ys).ncard ∧
      (Words (width * ys.length) fun items =>
          select arr (picksOf p width ys.length (arr.length - 1) items) = ys).ncard ≤
        waysTo arr ys * factors high ys.length (arr.length - 1) := by
  induction ys generalizing arr with
  | nil =>
      have hnil : (Words (width * 0) fun items : List β =>
          Sampling.select arr (picksOf p width 0 (arr.length - 1) items) = []) = {[]} := by
        ext items
        simp [Words, picksOf, Sampling.select]
      simp only [List.length_nil, hnil, Set.ncard_singleton, waysTo, factors]
      exact ⟨le_rfl, le_rfl⟩
  | cons y ys ih =>
      have hfiber : ∀ j ∈ (Finset.range arr.length).filter fun j => arr[j]? = some y,
          low (arr.length - 1) *
              (waysTo (arr.erase y) ys * factors low ys.length (arr.length - 1 - 1)) ≤
            (Words width fun items => p (arr.length - 1) items = j).ncard *
              (Words (width * ys.length) fun items => Sampling.select (fillHole arr j)
                (picksOf p width ys.length (arr.length - 1 - 1) items) = ys).ncard ∧
          (Words width fun items => p (arr.length - 1) items = j).ncard *
              (Words (width * ys.length) fun items => Sampling.select (fillHole arr j)
                (picksOf p width ys.length (arr.length - 1 - 1) items) = ys).ncard ≤
            high (arr.length - 1) *
              (waysTo (arr.erase y) ys * factors high ys.length (arr.length - 1 - 1)) := by
        intro j hj
        obtain ⟨hlt, hy⟩ := Finset.mem_filter.mp hj
        have hpick := hspread (arr.length - 1) j (Nat.le_pred_of_lt (Finset.mem_range.mp hlt))
        have hrest := ih (fillHole arr j)
        rw [waysTo_perm (fillHole_perm_erase hy), length_fillHole] at hrest
        exact ⟨Nat.mul_le_mul hpick.1 hrest.1, Nat.mul_le_mul hpick.2 hrest.2⟩
      rw [List.length_cons, ncard_select_cons, waysTo, factors, factors, ← card_places]
      constructor
      · have hsum := Finset.card_nsmul_le_sum _ _ _ fun j hj => (hfiber j hj).1
        rw [smul_eq_mul] at hsum
        calc _ = _ := by ring
          _ ≤ _ := hsum
      · have hsum := Finset.sum_le_card_nsmul _ _ _ fun j hj => (hfiber j hj).2
        rw [smul_eq_mul] at hsum
        calc _ ≤ _ := hsum
          _ = _ := by ring

/-! ## Whole shuffles -/

omit [DecidableEq α] [Finite β] in
theorem choices_picksOf (hp : ∀ i items, p i items ≤ i) {n steps : ℕ} (hsteps : steps ≤ n)
    (items : List β) : Choices n (picksOf p width steps (n - 1) items) := by
  induction steps generalizing n items with
  | zero => trivial
  | succ steps ih =>
      exact ⟨Nat.lt_of_le_pred (Nat.zero_lt_of_lt hsteps) (hp _ _), ih (Nat.le_pred_of_lt hsteps) _⟩

omit [DecidableEq α] in
theorem select_append_remaining_perm {js : List ℕ} (hjs : Choices arr.length js) :
    (select arr js ++ remaining arr js).Perm arr := by
  have hswaps := @swaps_eq _ arr [] js hjs
  rw [List.append_nil, List.append_nil] at hswaps
  have hperm := swaps_perm (arr.length - 1) js arr
  rw [hswaps] at hperm
  calc (select arr js ++ remaining arr js).Perm (remaining arr js ++ select arr js) :=
        List.perm_append_comm
    _ |>.Perm (remaining arr js ++ (select arr js).reverse) :=
        (List.reverse_perm _).symm.append_left _
    _ |>.Perm arr := hperm

omit [DecidableEq α] in
theorem select_perm {js : List ℕ} (hjs : Choices arr.length js) (hlength : js.length = arr.length) :
    (select arr js).Perm arr := by
  have hperm := select_append_remaining_perm hjs
  have hnone : remaining arr js = [] :=
    List.eq_nil_of_length_eq_zero (by rw [length_remaining, hlength, Nat.sub_self])
  rwa [hnone, List.append_nil] at hperm

/-- The picks of a whole shuffle and the place that is left. -/
theorem choices_concat {n : ℕ} {js : List ℕ} (hjs : Choices n js) (hlength : js.length + 1 = n) :
    Choices n (js ++ [0]) :=
  choices_append.mpr ⟨hjs, by omega, trivial⟩

omit [DecidableEq α] in
/-- The swaps of a whole shuffle leave what its picks select, last pick first. -/
theorem swaps_eq_select {js : List ℕ} (hjs : Choices arr.length js)
    (hlength : js.length + 1 = arr.length) :
    swaps (arr.length - 1) js arr = (select arr (js ++ [0])).reverse := by
  have hswaps := @swaps_eq _ arr [] js hjs
  rw [List.append_nil, List.append_nil] at hswaps
  obtain ⟨x, hx⟩ := List.length_eq_one_iff.mp ((length_remaining arr js).trans (by omega))
  rw [hswaps, select_append hjs, hx]
  simp [select]

omit [DecidableEq α] in
/-- The last element of a whole shuffle is the one that is left. -/
theorem select_concat_iff {js : List ℕ} (hjs : Choices arr.length js)
    (hlength : js.length + 1 = arr.length) {ys : List α} {z : α} (hperm : (ys ++ [z]).Perm arr) :
    select arr (js ++ [0]) = ys ++ [z] ↔ select arr js = ys := by
  obtain ⟨x, hx⟩ := List.length_eq_one_iff.mp ((length_remaining arr js).trans (by omega))
  rw [select_append hjs, hx]
  constructor
  · intro heq
    exact (List.append_inj' heq rfl).1
  · rintro rfl
    have hleft := select_append_remaining_perm hjs
    rw [hx] at hleft
    have hsame := (List.perm_append_left_iff _).mp (hleft.trans hperm.symm)
    rw [List.singleton_perm_singleton.mp hsame]
    rfl

theorem waysTo_append (ys zs : List α) :
    waysTo arr (ys ++ zs) = waysTo arr ys * waysTo (arr.diff ys) zs := by
  induction ys generalizing arr with
  | nil => rw [List.nil_append, waysTo, List.diff_nil, Nat.one_mul]
  | cons y ys ih => rw [List.cons_append, waysTo, waysTo, ih, List.diff_cons, Nat.mul_assoc]

/-- In as many ways as the places of equal elements can be exchanged. -/
theorem waysTo_of_perm {ys : List α} (hperm : ys.Perm arr) {support : Finset α}
    (hsupport : ∀ x ∈ arr, x ∈ support) :
    waysTo arr ys = ∏ x ∈ support, (arr.count x).factorial := by
  induction ys generalizing arr with
  | nil =>
      rw [List.nil_perm.mp hperm]
      simp [waysTo]
  | cons y ys ih =>
      have hy : y ∈ arr := hperm.mem_iff.mp List.mem_cons_self
      have hrest : ys.Perm (arr.erase y) := List.cons_perm_iff_perm_erase.mp hperm |>.2
      have hothers : ∏ x ∈ support.erase y, ((arr.erase y).count x).factorial =
          ∏ x ∈ support.erase y, (arr.count x).factorial :=
        Finset.prod_congr rfl fun x hx => by
          rw [List.count_erase_of_ne (Finset.ne_of_mem_erase hx)]
      rw [waysTo, ih hrest fun x hx => hsupport x (List.mem_of_mem_erase hx),
        ← Finset.mul_prod_erase support _ (hsupport y hy), hothers, List.count_erase_self,
        ← Nat.mul_assoc, Nat.mul_factorial_pred (List.count_pos_iff.mpr hy).ne',
        Finset.mul_prod_erase support (fun x => (arr.count x).factorial) (hsupport y hy)]

/-- Distinct elements are taken out in one way. -/
theorem waysTo_of_nodup (hnodup : arr.Nodup) (ys : List α) :
    waysTo arr ys = if ys.Nodup ∧ ys ⊆ arr then 1 else 0 := by
  induction ys generalizing arr with
  | nil => simp [waysTo]
  | cons y ys ih =>
      have hiff : (y :: ys).Nodup ∧ y :: ys ⊆ arr ↔ y ∈ arr ∧ ys.Nodup ∧ ys ⊆ arr.erase y := by
        rw [List.nodup_cons, List.cons_subset]
        constructor
        · rintro ⟨⟨hfresh, hdistinct⟩, hy, hsub⟩
          refine ⟨hy, hdistinct, fun x hx => (hnodup.mem_erase_iff).mpr ⟨?_, hsub hx⟩⟩
          rintro rfl
          exact hfresh hx
        · rintro ⟨hy, hdistinct, hsub⟩
          refine ⟨⟨fun hmem => ?_, hdistinct⟩, hy, fun x hx => List.mem_of_mem_erase (hsub hx)⟩
          exact ((hnodup.mem_erase_iff).mp (hsub hmem)).1 rfl
      rw [waysTo, ih (hnodup.erase y), hnodup.count, if_congr hiff rfl rfl]
      by_cases hy : y ∈ arr <;> simp [hy]

/-- A whole shuffle needs no pick for the last element. -/
theorem Spread.shuffle {low high : ℕ → ℕ} (hspread : Spread p width low high)
    (hp : ∀ i items, p i items ≤ i) {zs : List α} (hperm : zs.Perm arr) (hne : arr ≠ []) :
    waysTo arr zs * factors low (arr.length - 1) (arr.length - 1) ≤
        (Words (width * (arr.length - 1)) fun items =>
          Sampling.select arr (picksOf p width (arr.length - 1) (arr.length - 1) items ++ [0]) =
            zs).ncard ∧
      (Words (width * (arr.length - 1)) fun items =>
          Sampling.select arr (picksOf p width (arr.length - 1) (arr.length - 1) items ++ [0]) =
            zs).ncard ≤
        waysTo arr zs * factors high (arr.length - 1) (arr.length - 1) := by
  have hpos : 0 < arr.length := List.length_pos_iff.mpr hne
  obtain rfl | ⟨ys, z, rfl⟩ := zs.eq_nil_or_concat'
  · exact absurd (List.nil_perm.mp hperm) hne
  have hlength : ys.length = arr.length - 1 := by
    have := hperm.length_eq
    rw [List.length_append, List.length_singleton] at this
    omega
  have hlast : waysTo (arr.diff ys) [z] = 1 := by
    have hleft : (arr.diff ys).Perm [z] := by
      have hsub : ∀ x ∈ ys, ys.count x ≤ arr.count x := fun x _ => by
        rw [← hperm.count_eq, List.count_append]
        exact Nat.le_add_right _ _
      exact (List.perm_append_left_iff ys).mp
        ((List.subperm_append_diff_self_of_count_le hsub).trans hperm.symm)
    rw [waysTo_perm hleft]
    simp [waysTo]
  have hwords : (Words (width * (arr.length - 1)) fun items : List β =>
      Sampling.select arr (picksOf p width (arr.length - 1) (arr.length - 1) items ++ [0]) =
        ys ++ [z]) = Words (width * (arr.length - 1)) fun items =>
      Sampling.select arr (picksOf p width (arr.length - 1) (arr.length - 1) items) = ys :=
    words_congr fun items _ => select_concat_iff (choices_picksOf hp (Nat.sub_le _ _) items)
      (by rw [length_picksOf]; omega) hperm
  rw [hwords, waysTo_append, hlast, Nat.mul_one, ← hlength]
  exact hlength ▸ hspread.select arr ys

end Select

end Sampling
