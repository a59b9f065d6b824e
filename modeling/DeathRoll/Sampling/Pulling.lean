import DeathRoll.Sampling.Shuffle
import Mathlib.Control.Lawful

/-! # Pulling items off a stream

Code that pulls items off a stream, whose state is `σ`, and may raise. Code that pulls the
same number whatever it finds is a function of the items: it does the same on two streams
that begin alike.
-/

namespace Sampling

variable {σ ε : Type} {β α γ : Type}

/-- Code over a stream. -/
abbrev Pulling (σ ε α : Type) := StateT σ (Except ε) α

/-- `n` items of the stream. -/
def pull (next : Pulling σ ε β) : ℕ → Pulling σ ε (List β)
  | 0 => pure []
  | n + 1 => do
      let item ← next
      let rest ← pull next n
      pure (item :: rest)

/-- The code pulls `n` items and makes `f` of them. -/
def Reads (next : Pulling σ ε β) (n : ℕ) (f : List β → α) (x : Pulling σ ε α) : Prop :=
  x = f <$> pull next n

variable {next : Pulling σ ε β} {m n : ℕ} {f : List β → α} {x : Pulling σ ε α}

/-- Code that returns has returned step by step. -/
theorem run_bind_eq_ok {y : α → Pulling σ ε γ} {s s' : σ} {c : γ} :
    (x >>= y).run s = .ok (c, s') ↔
      ∃ a s₁, x.run s = .ok (a, s₁) ∧ (y a).run s₁ = .ok (c, s') := by
  rw [StateT.run_bind]
  cases hx : x.run s with
  | error e => simp [Bind.bind, Except.bind]
  | ok found => exact ⟨fun hy => ⟨found.1, found.2, rfl, hy⟩, fun ⟨_, _, hok, hy⟩ => by cases hok; exact hy⟩

theorem except_map_eq_ok {result : Except ε α} {g : α → γ} {c : γ} :
    g <$> result = .ok c ↔ ∃ a, result = .ok a ∧ g a = c := by
  cases result with
  | error e => simp [Functor.map, Except.map]
  | ok a => simp [Functor.map, Except.map]

theorem run'_map (g : α → γ) (x : Pulling σ ε α) (s : σ) : (g <$> x).run' s = g <$> x.run' s := by
  rw [StateT.run'_eq, StateT.run'_eq, StateT.run_map, Functor.map_map, Functor.map_map]

theorem run'_eq_ok {s : σ} {a : α} : x.run' s = .ok a ↔ ∃ s', x.run s = .ok (a, s') := by
  rw [StateT.run'_eq]
  cases hx : x.run s with
  | error e => simp [Functor.map, Except.map]
  | ok found => simp [Functor.map, Except.map, Prod.ext_iff]

theorem pull_add (next : Pulling σ ε β) (m n : ℕ) :
    pull next (m + n) =
      pull next m >>= fun front => (front ++ ·) <$> pull next n := by
  induction m with
  | zero => simp [pull]
  | succ m ih =>
      rw [Nat.add_right_comm, pull, ih, pull]
      simp

/-- A pull that returns has all its items. -/
theorem length_of_pull {s s' : σ} {items : List β}
    (hpull : (pull next n).run s = .ok (items, s')) : items.length = n := by
  induction n generalizing s items with
  | zero =>
      cases hpull
      rfl
  | succ n ih =>
      obtain ⟨item, s₁, -, hpull⟩ := run_bind_eq_ok.mp hpull
      obtain ⟨rest, s₂, hrest, hpull⟩ := run_bind_eq_ok.mp hpull
      cases hpull
      rw [List.length_cons, ih hrest]

/-- A pull when the stream has an item to give. -/
theorem pull_succ_run {s s₁ : σ} {item : β} (hnext : next.run s = .ok (item, s₁)) :
    (pull next (n + 1)).run s =
      (fun found => (item :: found.1, found.2)) <$> (pull next n).run s₁ := by
  rw [pull, StateT.run_bind, hnext]
  change ((pull next n).run s₁ >>= fun found => pure (item :: found.1, found.2)) = _
  rw [map_eq_pure_bind]

theorem pull_succ_run' {s s₁ : σ} {item : β} (hnext : next.run s = .ok (item, s₁)) :
    (pull next (n + 1)).run' s = List.cons item <$> (pull next n).run' s₁ := by
  rw [StateT.run'_eq, StateT.run'_eq, pull_succ_run hnext, Functor.map_map, Functor.map_map]

/-- A pull when the stream raises. -/
theorem pull_succ_raises {s : σ} {e : ε} (hnext : next.run s = .error e) :
    (pull next (n + 1)).run' s = .error e := by
  rw [StateT.run'_eq, pull, StateT.run_bind, hnext]
  rfl

/-- A pull that returns has the items that a shorter pull returns. -/
theorem pull_run'_take {s : σ} {items : List β} (hle : m ≤ n)
    (hpull : (pull next n).run' s = .ok items) :
    (pull next m).run' s = .ok (items.take m) := by
  obtain ⟨s', hrun⟩ := run'_eq_ok.mp hpull
  obtain ⟨k, rfl⟩ := Nat.exists_eq_add_of_le hle
  rw [pull_add] at hrun
  obtain ⟨front, s₁, hfront, hback⟩ := run_bind_eq_ok.mp hrun
  obtain ⟨back, rfl⟩ : ∃ back, items = front ++ back := by
    rw [map_eq_pure_bind] at hback
    obtain ⟨back, s₂, -, hitems⟩ := run_bind_eq_ok.mp hback
    cases hitems
    exact ⟨back, rfl⟩
  rw [← length_of_pull hfront, List.take_left]
  exact run'_eq_ok.mpr ⟨s₁, by rwa [length_of_pull hfront]⟩

/-- A stream that never raises gives as many items as one pulls. -/
theorem pull_returns (hnext : ∀ s, ∃ item s', next.run s = .ok (item, s')) (n : ℕ) (s : σ) :
    ∃ items, (pull next n).run' s = .ok items := by
  induction n generalizing s with
  | zero => exact ⟨[], rfl⟩
  | succ n ih =>
      obtain ⟨item, s₁, hitem⟩ := hnext s
      obtain ⟨rest, hrest⟩ := ih s₁
      exact ⟨item :: rest, by rw [pull_succ_run' hitem, hrest]; rfl⟩

/-- What follows a pull sees all its items. -/
theorem pull_bind_congr {y z : List β → Pulling σ ε γ}
    (heq : ∀ items, items.length = n → y items = z items) :
    pull next n >>= y = pull next n >>= z := by
  funext s
  change (pull next n >>= y).run s = (pull next n >>= z).run s
  rw [StateT.run_bind, StateT.run_bind]
  cases hpull : (pull next n).run s with
  | error e => rfl
  | ok found =>
      change (y found.1).run found.2 = (z found.1).run found.2
      rw [heq found.1 (length_of_pull hpull)]

namespace Reads

/-- Only what the code makes of as many items as it pulls matters. -/
theorem congr {g : List β → α} (hx : Reads next n f x)
    (heq : ∀ items, items.length = n → f items = g items) : Reads next n g x := by
  rw [Reads, hx, map_eq_pure_bind, map_eq_pure_bind]
  exact pull_bind_congr fun items hitems => by rw [heq items hitems]

theorem pure (next : Pulling σ ε β) (f : List β → α) : Reads next 0 f (Pure.pure (f [])) := by
  simp [Reads, pull]

theorem item [Inhabited β] (next : Pulling σ ε β) : Reads next 1 List.headI next := by
  simp [Reads, pull]

theorem map (hx : Reads next n f x) (g : α → γ) : Reads next n (g ∘ f) (g <$> x) := by
  rw [Reads, hx, comp_map]

theorem bind (hx : Reads next m f x) {y : α → Pulling σ ε γ} {g : α → List β → γ}
    (hy : ∀ a, Reads next n (g a) (y a)) :
    Reads next (m + n) (fun items => g (f (items.take m)) (items.drop m)) (x >>= y) := by
  rw [Reads, hx, pull_add, map_bind, bind_map_left]
  refine pull_bind_congr fun front hfront => ?_
  rw [hy, Functor.map_map]
  simp [← hfront]

/-- What the code returns is made of the items that it pulls. -/
theorem run'_eq (hx : Reads next n f x) (s : σ) : x.run' s = f <$> (pull next n).run' s := by
  rw [hx, run'_map]

end Reads

/-! ## Picks for a swap loop -/

/-- The swaps at `i`, `i - 1` and so on, each with the pick made for it. -/
def swapLoop (pick : ℕ → Pulling σ ε ℕ) : ℕ → ℕ → List α → Pulling σ ε (List α)
  | 0, _, arr => pure arr
  | steps + 1, i, arr => do
      let j ← pick i
      swapLoop pick steps (i - 1) (swap arr i j)

/-- The picks of the loop. -/
def picks (pick : ℕ → Pulling σ ε ℕ) : ℕ → ℕ → Pulling σ ε (List ℕ)
  | 0, _ => pure []
  | steps + 1, i => do
      let j ← pick i
      let js ← picks pick steps (i - 1)
      pure (j :: js)

/-- The picks of the loop, out of the items that they are made of. -/
def picksOf (p : ℕ → List β → ℕ) (width : ℕ) : ℕ → ℕ → List β → List ℕ
  | 0, _, _ => []
  | steps + 1, i, items =>
      p i (items.take width) :: picksOf p width steps (i - 1) (items.drop width)

/-- A pick is made of its own items. -/
theorem getElem?_picksOf (p : ℕ → List β → ℕ) (width : ℕ) {steps t : ℕ} (ht : t < steps) (i : ℕ)
    (items : List β) :
    (picksOf p width steps i items)[t]? =
      some (p (i - t) ((items.drop (width * t)).take width)) := by
  induction steps generalizing t i items with
  | zero => cases ht
  | succ steps ih =>
      cases t with
      | zero => simp [picksOf]
      | succ t =>
          rw [picksOf, List.getElem?_cons_succ, ih (Nat.lt_of_succ_lt_succ ht), List.drop_drop,
            Nat.sub_sub, Nat.add_comm 1, Nat.mul_succ, Nat.add_comm (width * t)]

theorem length_picksOf (p : ℕ → List β → ℕ) (width steps i : ℕ) (items : List β) :
    (picksOf p width steps i items).length = steps := by
  induction steps generalizing i items with
  | zero => rfl
  | succ steps ih => rw [picksOf, List.length_cons, ih]

variable {pick : ℕ → Pulling σ ε ℕ}

theorem swapLoop_eq (pick : ℕ → Pulling σ ε ℕ) (steps i : ℕ) (arr : List α) :
    swapLoop pick steps i arr = (fun js => swaps i js arr) <$> picks pick steps i := by
  induction steps generalizing i arr with
  | zero => simp [swapLoop, picks, swaps]
  | succ steps ih => simp [swapLoop, picks, swaps, ih]

theorem picks_add (pick : ℕ → Pulling σ ε ℕ) (first second i : ℕ) :
    picks pick (first + second) i =
      picks pick first i >>= fun js => (js ++ ·) <$> picks pick second (i - first) := by
  induction first generalizing i with
  | zero => simp [picks]
  | succ first ih =>
      rw [Nat.add_right_comm, picks, ih, picks, Nat.sub_sub, Nat.add_comm 1]
      simp

theorem length_of_picks {steps i : ℕ} {js : List ℕ} {s s' : σ}
    (hjs : (picks pick steps i).run s = .ok (js, s')) : js.length = steps := by
  induction steps generalizing i js s with
  | zero =>
      cases hjs
      rfl
  | succ steps ih =>
      obtain ⟨j, s₁, -, hjs⟩ := run_bind_eq_ok.mp hjs
      obtain ⟨rest, s₂, hrest, hjs⟩ := run_bind_eq_ok.mp hjs
      cases hjs
      rw [List.length_cons, ih hrest]

/-- Picks that are within bounds are choices. -/
theorem choices_of_picks (hpick : ∀ i j s s', (pick i).run s = .ok (j, s') → j ≤ i) {n steps : ℕ}
    (hsteps : steps ≤ n) {js : List ℕ} {s s' : σ}
    (hjs : (picks pick steps (n - 1)).run s = .ok (js, s')) : Choices n js := by
  induction steps generalizing n js s with
  | zero =>
      cases hjs
      trivial
  | succ steps ih =>
      obtain ⟨j, s₁, hj, hjs⟩ := run_bind_eq_ok.mp hjs
      obtain ⟨rest, s₂, hrest, hjs⟩ := run_bind_eq_ok.mp hjs
      cases hjs
      have := hpick _ _ _ _ hj
      exact ⟨by omega, ih (by omega) hrest⟩

theorem Reads.picks {p : ℕ → List β → ℕ} {width : ℕ}
    (hpick : ∀ i, Reads next width (p i) (pick i)) (steps i : ℕ) :
    Reads next (width * steps) (picksOf p width steps i) (picks pick steps i) := by
  induction steps generalizing i with
  | zero => exact .pure next _
  | succ steps ih =>
      have hboth := (hpick i).bind fun j => (ih (i - 1)).map (List.cons j)
      simp only [map_eq_pure_bind] at hboth
      rw [Nat.mul_succ, Nat.add_comm]
      exact hboth

end Sampling
