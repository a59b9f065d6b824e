import Mathlib.Data.List.Nodup
import Mathlib.Data.List.Perm.Basic
import Mathlib.Data.Set.Function

/-! # Shuffling by swaps

The swaps of a Fisher-Yates shuffle run from the end of a list to its front, and each settles
one more element at the end. What the picks settle, in the order in which they settle it, is
a selection without repetition: each selection comes from one list of picks.
-/

namespace Sampling

variable {α β : Type*} {arr settled : List α} {i j n : ℕ} {js ks : List ℕ}

/-- `arr[i], arr[j] = arr[j], arr[i]`. -/
def swap (arr : List α) (i j : ℕ) : List α :=
  match arr[i]?, arr[j]? with
  | some x, some y => (arr.set i y).set j x
  | _, _ => arr

/-- Swaps with the picks at `i`, `i - 1` and so on. -/
def swaps : ℕ → List ℕ → List α → List α
  | _, [], arr => arr
  | i, j :: js, arr => swaps (i - 1) js (swap arr i j)

/-- What is left when the last element has moved into the place picked. -/
def fillHole (arr : List α) (j : ℕ) : List α :=
  match arr.getLast? with
  | none => []
  | some last => (arr.set j last).dropLast

/-- What the picks take out, one after the other. -/
def select : List α → List ℕ → List α
  | _, [] => []
  | arr, j :: js =>
      match arr[j]? with
      | none => []
      | some x => x :: select (fillHole arr j) js

/-- What the picks leave. -/
def remaining : List α → List ℕ → List α
  | arr, [] => arr
  | arr, j :: js => remaining (fillHole arr j) js

/-- Each pick is within what the ones before it leave of `n` places. -/
def Choices : ℕ → List ℕ → Prop
  | _, [] => True
  | n, j :: js => j < n ∧ Choices (n - 1) js

/-! ## One swap -/

@[simp] theorem length_swap (arr : List α) (i j : ℕ) : (swap arr i j).length = arr.length := by
  unfold swap
  split <;> simp

@[simp] theorem length_swaps (i : ℕ) (js : List ℕ) (arr : List α) :
    (swaps i js arr).length = arr.length := by
  induction js generalizing i arr with
  | nil => rfl
  | cons j js ih => rw [swaps, ih, length_swap]

theorem swap_perm (arr : List α) (i j : ℕ) : (swap arr i j).Perm arr := by
  unfold swap
  split
  next x y hi hj =>
    obtain ⟨hi, hx⟩ := List.getElem?_eq_some_iff.mp hi
    obtain ⟨hj, hy⟩ := List.getElem?_eq_some_iff.mp hj
    rw [← hx, ← hy]
    exact List.set_set_perm hi hj
  next => exact .refl _

theorem swaps_perm (i : ℕ) (js : List ℕ) (arr : List α) : (swaps i js arr).Perm arr := by
  induction js generalizing i arr with
  | nil => exact .refl _
  | cons j js ih => exact (ih _ _).trans (swap_perm arr i j)

theorem swap_map (f : α → β) (arr : List α) (i j : ℕ) :
    swap (arr.map f) i j = (swap arr i j).map f := by
  unfold swap
  cases hi : arr[i]? <;> cases hj : arr[j]? <;> simp [hi, hj]

theorem swaps_map (f : α → β) (i : ℕ) (js : List ℕ) (arr : List α) :
    swaps i js (arr.map f) = (swaps i js arr).map f := by
  induction js generalizing i arr with
  | nil => rfl
  | cons j js ih => rw [swaps, swap_map, ih, swaps]

@[simp] theorem length_fillHole (arr : List α) (j : ℕ) :
    (fillHole arr j).length = arr.length - 1 := by
  unfold fillHole
  split
  next hlast => simp [List.getLast?_eq_none_iff.mp hlast]
  next => simp

theorem fillHole_concat (front : List α) (last : α) (j : ℕ) :
    fillHole (front ++ [last]) j = if j = front.length then front else front.set j last := by
  unfold fillHole
  rw [List.getLast?_concat]
  dsimp only
  split_ifs with hj
  · subst hj
    simp
  · by_cases hlt : j < front.length
    · rw [List.set_append_left _ _ hlt, List.dropLast_concat]
    · rw [List.set_eq_of_length_le (by simp; omega), List.set_eq_of_length_le (by omega),
        List.dropLast_concat]

/-- A swap settles the pick in the last place that is not settled yet. -/
theorem swap_settles (hj : j < arr.length) :
    swap (arr ++ settled) (arr.length - 1) j = fillHole arr j ++ arr[j] :: settled := by
  obtain rfl | ⟨front, last, rfl⟩ := arr.eq_nil_or_concat'
  · cases hj
  have hle : j ≤ front.length := by simpa [Nat.lt_succ_iff] using hj
  rw [fillHole_concat]
  unfold swap
  split_ifs with hlast
  · subst hlast
    simp
  · have hlt : j < front.length := by omega
    simp [List.getElem?_append_left hlt, List.getElem_append_left hlt, List.set_append_left _ _ hlt,
      hlt]

theorem fillHole_perm (hj : j < arr.length) : (arr[j] :: fillHole arr j).Perm arr := by
  obtain rfl | ⟨front, last, rfl⟩ := arr.eq_nil_or_concat'
  · cases hj
  have hle : j ≤ front.length := by simpa [Nat.lt_succ_iff] using hj
  rw [fillHole_concat]
  split_ifs with hlast
  · subst hlast
    simpa using (List.perm_append_singleton last front).symm
  · have hlt : j < front.length := by omega
    rw [List.getElem_append_left hlt]
    calc (front[j] :: front.set j last).Perm (front[j] :: last :: front.eraseIdx j) :=
          (List.set_perm_cons_eraseIdx hlt last).cons _
      _ |>.Perm (last :: front[j] :: front.eraseIdx j) := .swap _ _ _
      _ |>.Perm (last :: front) := (List.getElem_cons_eraseIdx_perm hlt).cons _
      _ |>.Perm (front ++ [last]) := (List.perm_append_singleton last front).symm

theorem mem_fillHole (hnodup : arr.Nodup) (hj : j < arr.length) {x : α} :
    x ∈ fillHole arr j ↔ x ∈ arr ∧ x ≠ arr[j] := by
  have hperm := fillHole_perm hj
  have hfresh := (List.nodup_cons.mp (hperm.nodup_iff.mpr hnodup)).1
  rw [← hperm.mem_iff, List.mem_cons]
  constructor
  · intro hmem
    exact ⟨.inr hmem, fun heq => hfresh (heq ▸ hmem)⟩
  · rintro ⟨heq | hmem, hne⟩
    · exact absurd heq hne
    · exact hmem

theorem nodup_fillHole (hnodup : arr.Nodup) (hj : j < arr.length) : (fillHole arr j).Nodup :=
  (List.nodup_cons.mp ((fillHole_perm hj).nodup_iff.mpr hnodup)).2

/-! ## All swaps -/

theorem select_cons (hj : j < arr.length) :
    select arr (j :: js) = arr[j] :: select (fillHole arr j) js := by
  rw [select, List.getElem?_eq_getElem hj]

/-- The swaps move what the picks select to the end, last pick first. -/
theorem swaps_eq (hjs : Choices arr.length js) :
    swaps (arr.length - 1) js (arr ++ settled) =
      remaining arr js ++ (select arr js).reverse ++ settled := by
  induction js generalizing arr settled with
  | nil => simp [swaps, remaining, select]
  | cons j js ih =>
      obtain ⟨hj, hjs⟩ : j < arr.length ∧ Choices (arr.length - 1) js := hjs
      rw [← length_fillHole arr j] at hjs
      have hrest := @ih (fillHole arr j) (arr[j] :: settled) hjs
      rw [length_fillHole] at hrest
      rw [swaps, swap_settles hj, hrest, select_cons hj, remaining]
      simp

@[simp] theorem length_remaining (arr : List α) (js : List ℕ) :
    (remaining arr js).length = arr.length - js.length := by
  induction js generalizing arr with
  | nil => rfl
  | cons j js ih => rw [remaining, ih, length_fillHole, List.length_cons, Nat.sub_sub, Nat.add_comm]

theorem length_select (hjs : Choices arr.length js) : (select arr js).length = js.length := by
  induction js generalizing arr with
  | nil => rfl
  | cons j js ih =>
      rw [select_cons hjs.1, List.length_cons, ih (by simpa using hjs.2), List.length_cons]

/-- As many swaps that end alike have selected alike. -/
theorem select_of_swaps (hjs : Choices arr.length js) (hks : Choices arr.length ks)
    (hlength : js.length = ks.length)
    (heq : swaps (arr.length - 1) js arr = swaps (arr.length - 1) ks arr) :
    select arr js = select arr ks := by
  have hswaps : ∀ ls, Choices arr.length ls →
      swaps (arr.length - 1) ls arr = remaining arr ls ++ (select arr ls).reverse := by
    intro ls hls
    simpa using @swaps_eq _ arr [] ls hls
  rw [hswaps js hjs, hswaps ks hks] at heq
  refine List.reverse_injective (List.append_inj_right heq ?_)
  rw [length_remaining, length_remaining, hlength]

theorem choices_append :
    Choices n (js ++ ks) ↔ Choices n js ∧ Choices (n - js.length) ks := by
  induction js generalizing n with
  | nil => simp [Choices]
  | cons j js ih =>
      rw [List.cons_append, Choices, Choices, ih, List.length_cons, and_assoc, Nat.sub_sub,
        Nat.add_comm 1]

/-- Each pick on its own. -/
theorem choices_iff :
    Choices n js ↔ ∀ t j, js[t]? = some j → j + t < n := by
  induction js generalizing n with
  | nil => simp [Choices]
  | cons j js ih =>
      rw [Choices, ih]
      constructor
      · rintro ⟨hj, hjs⟩ (_ | t) j' ht
        · simp only [List.getElem?_cons_zero, Option.some.injEq] at ht
          omega
        · have := hjs t j' ht
          omega
      · intro hall
        refine ⟨by simpa using hall 0 j rfl, fun t j' ht => ?_⟩
        have := hall (t + 1) j' ht
        omega

theorem select_append :
    Choices arr.length js → select arr (js ++ ks) = select arr js ++ select (remaining arr js) ks := by
  intro hjs
  induction js generalizing arr with
  | nil => rfl
  | cons j js ih =>
      rw [List.cons_append, select_cons hjs.1, select_cons hjs.1, ih (by simpa using hjs.2),
        remaining, List.cons_append]

theorem swaps_append (i : ℕ) (js ks : List ℕ) (arr : List α) :
    swaps i (js ++ ks) arr = swaps (i - js.length) ks (swaps i js arr) := by
  induction js generalizing i arr with
  | nil => rfl
  | cons j js ih =>
      rw [List.cons_append, swaps, ih, swaps, List.length_cons, Nat.sub_sub, Nat.add_comm 1]

/-- The hole is filled with the last element, and all else stays in its place. -/
theorem getElem?_fillHole {p : ℕ} (hp : p + 1 < arr.length) :
    (fillHole arr j)[p]? = if p = j then arr.getLast? else arr[p]? := by
  obtain rfl | ⟨front, last, rfl⟩ := arr.eq_nil_or_concat'
  · cases hp
  have hlt : p < front.length := by simpa using hp
  rw [fillHole_concat, List.getLast?_concat, List.getElem?_append_left hlt]
  split_ifs with hj hpj hpj
  · omega
  · rfl
  · subst hpj
    exact List.getElem?_set_self hlt
  · rw [List.getElem?_set_ne (Ne.symm hpj)]

/-- What no pick takes stays in its place, as long as there is room. -/
theorem getElem?_remaining {p : ℕ} (hjs : ∀ j ∈ js, j ≠ p) (hp : p + js.length < arr.length) :
    (remaining arr js)[p]? = arr[p]? := by
  induction js generalizing arr with
  | nil => rfl
  | cons j js ih =>
      rw [List.length_cons] at hp
      rw [remaining, ih (fun j' hj' => hjs j' (List.mem_cons_of_mem _ hj'))
        (by rw [length_fillHole]; omega), getElem?_fillHole (by omega),
        if_neg (Ne.symm (hjs j List.mem_cons_self))]

/-- A pick takes its place in what the picks before it have left. -/
theorem getElem?_select (hjs : Choices arr.length js) (t : ℕ) :
    (select arr js)[t]? = js[t]?.bind fun j => (remaining arr (js.take t))[j]? := by
  induction js generalizing arr t with
  | nil => rfl
  | cons j js ih =>
      obtain ⟨hj, hrest⟩ : j < arr.length ∧ Choices (arr.length - 1) js := hjs
      rw [select_cons hj]
      cases t with
      | zero => simp [remaining, hj]
      | succ t =>
          rw [← length_fillHole arr j] at hrest
          exact ih hrest t

/-! ## Selections -/

/-- Lists of `k` distinct elements of `arr`. -/
def Selections (arr : List α) (k : ℕ) : Set (List α) :=
  {xs | xs.length = k ∧ xs.Nodup ∧ xs ⊆ arr}

theorem select_mem (hnodup : arr.Nodup) (hjs : Choices arr.length js) :
    select arr js ∈ Selections arr js.length := by
  refine ⟨length_select hjs, ?_⟩
  induction js generalizing arr with
  | nil => exact ⟨List.nodup_nil, List.nil_subset _⟩
  | cons j js ih =>
      obtain ⟨hdistinct, hsub⟩ := ih (nodup_fillHole hnodup hjs.1) (by simpa using hjs.2)
      rw [select_cons hjs.1]
      constructor
      · refine List.nodup_cons.mpr ⟨fun hmem => ?_, hdistinct⟩
        exact ((mem_fillHole hnodup hjs.1).mp (hsub hmem)).2 rfl
      · refine List.cons_subset.mpr ⟨List.getElem_mem hjs.1, fun x hx => ?_⟩
        exact ((mem_fillHole hnodup hjs.1).mp (hsub hx)).1

theorem select_injective (hnodup : arr.Nodup) (hjs : Choices arr.length js)
    (hks : Choices arr.length ks) (hlength : js.length = ks.length)
    (heq : select arr js = select arr ks) : js = ks := by
  induction js generalizing arr ks with
  | nil => exact (List.eq_nil_of_length_eq_zero hlength.symm).symm
  | cons j js ih =>
      cases ks with
      | nil => cases hlength
      | cons k ks =>
          rw [select_cons hjs.1, select_cons hks.1, List.cons.injEq] at heq
          obtain rfl : j = k := (hnodup.getElem_inj_iff).mp heq.1
          rw [ih (nodup_fillHole hnodup hjs.1) (by simpa using hjs.2) (by simpa using hks.2)
            (Nat.succ.inj hlength) heq.2]

theorem exists_select (hnodup : arr.Nodup) {xs : List α} (hdistinct : xs.Nodup) (hsub : xs ⊆ arr) :
    ∃ js, js.length = xs.length ∧ Choices arr.length js ∧ select arr js = xs := by
  induction xs generalizing arr with
  | nil => exact ⟨[], rfl, trivial, rfl⟩
  | cons x xs ih =>
      obtain ⟨hx, hxs⟩ := List.cons_subset.mp hsub
      obtain ⟨hfresh, hdistinct⟩ := List.nodup_cons.mp hdistinct
      obtain ⟨j, hj, hpick⟩ := List.getElem_of_mem hx
      have hsub' : xs ⊆ fillHole arr j := by
        intro y hy
        refine (mem_fillHole hnodup hj).mpr ⟨hxs hy, fun heq => hfresh ?_⟩
        rwa [← hpick, ← heq]
      obtain ⟨js, hlength, hjs, hselect⟩ := ih (nodup_fillHole hnodup hj) hdistinct hsub'
      refine ⟨j :: js, by rw [List.length_cons, hlength, List.length_cons],
        ⟨hj, by simpa using hjs⟩, ?_⟩
      rw [select_cons hj, hselect, hpick]

/-- Each selection of `k` elements comes from one list of `k` picks. -/
theorem select_bijOn (hnodup : arr.Nodup) (k : ℕ) :
    Set.BijOn (select arr) {js | js.length = k ∧ Choices arr.length js} (Selections arr k) := by
  refine ⟨?_, ?_, ?_⟩
  · rintro js ⟨rfl, hjs⟩
    exact select_mem hnodup hjs
  · rintro js ⟨hlength, hjs⟩ ks ⟨hlength', hks⟩ heq
    exact select_injective hnodup hjs hks (hlength.trans hlength'.symm) heq
  · rintro xs ⟨rfl, hdistinct, hsub⟩
    obtain ⟨js, hlength, hjs, hselect⟩ := exists_select hnodup hdistinct hsub
    exact ⟨js, ⟨hlength, hjs⟩, hselect⟩

end Sampling
