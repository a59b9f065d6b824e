import DeathRoll.Relational.Run
import Mathlib.Logic.Relation

/-! # Deadlocks

Transactions ask for locks one after the other, wait while another holds one that
conflicts, and let go of everything when they commit or roll back. A level that rises
along every chain of waiting transactions rules cycles out; two transactions that
each hold what the other still wants can always be driven into one.
-/

namespace Relational

/-- The locks that a transaction holds and those it still has to ask for, in order. -/
structure Locking (ι : Type) where
  held : List ι
  wanted : List ι
deriving DecidableEq

/-- What a transaction does next. -/
inductive LockMove (κ : Type) where
  | start (call : κ)
  /-- Take the next lock, or wait for it. -/
  | take (tx : ℕ)
  /-- Commit or roll back: a call may return or raise at any point. -/
  | finish (tx : ℕ)
deriving DecidableEq

namespace Locking

variable {ι κ : Type}

def idle : Locking ι := ⟨[], []⟩

/-- The transactions are numbered as they start. -/
def taskOf (w : List (Locking ι)) (tx : ℕ) : Locking ι := w.getD tx idle

section Step

variable (conflicts : ι → ι → Bool) (locks : κ → List ι)

/-- No other transaction holds a lock that conflicts. -/
def Free (w : List (Locking ι)) (tx : ℕ) (lock : ι) : Prop :=
  ∀ other < w.length, other ≠ tx → ∀ h ∈ (taskOf w other).held, conflicts h lock = false

instance (w : List (Locking ι)) (tx : ℕ) (lock : ι) : Decidable (Free conflicts w tx lock) :=
  inferInstanceAs (Decidable (∀ other < w.length, _))

def step (w : List (Locking ι)) : LockMove κ → List (Locking ι)
  | .start call => w ++ [⟨[], locks call⟩]
  | .take tx =>
      match taskOf w tx with
      | ⟨_, []⟩ => w
      | ⟨held, lock :: rest⟩ =>
          if Free conflicts w tx lock then w.set tx ⟨lock :: held, rest⟩ else w
  | .finish tx => w.set tx idle

/-- The transaction waits for a lock that conflicts with one that the other holds. -/
def WaitsFor (w : List (Locking ι)) (tx other : ℕ) : Prop :=
  tx ≠ other ∧ ∃ lock, (taskOf w tx).wanted.head? = some lock ∧
    ∃ h ∈ (taskOf w other).held, conflicts h lock = true

/-- The waits-for relation has a cycle. -/
def Deadlock (w : List (Locking ι)) : Prop :=
  ∃ tx, Relation.TransGen (WaitsFor conflicts w) tx tx

/-- No lock is held against a conflicting one. -/
def Apart (w : List (Locking ι)) : Prop :=
  ∀ i j, i ≠ j → ∀ h ∈ (taskOf w i).held, ∀ h' ∈ (taskOf w j).held, conflicts h h' = false

/-- Each of the two transactions holds a lock that the other has still to ask for. -/
def Crossed (a b : Locking ι) : Prop :=
  (∃ h ∈ a.held, ∃ lock ∈ b.wanted, conflicts h lock = true) ∧
    ∃ h ∈ b.held, ∃ lock ∈ a.wanted, conflicts h lock = true

end Step

/-- Each lock is asked for as `ok` has it, given those held by then. -/
def InOrder (ok : List ι → ι → Prop) : List ι → List ι → Prop
  | _, [] => True
  | held, lock :: rest => ok held lock ∧ InOrder ok (lock :: held) rest

theorem inOrder_append {ok : List ι → ι → Prop} (held first rest : List ι) :
    InOrder ok held (first ++ rest) ↔
      InOrder ok held first ∧ InOrder ok (first.reverse ++ held) rest := by
  induction first generalizing held with
  | nil => simp [InOrder]
  | cons lock first ih => simp [InOrder, ih, and_assoc]

/-! ## One step -/

section Steps

variable {conflicts : ι → ι → Bool} {locks : κ → List ι} {w : List (Locking ι)} {tx other : ℕ}

theorem taskOf_set (w : List (Locking ι)) (tx other : ℕ) (task : Locking ι) :
    taskOf (w.set tx task) other =
      if tx = other ∧ tx < w.length then task else taskOf w other := by
  unfold taskOf
  rw [List.getD_eq_getElem?_getD, List.getElem?_set, List.getD_eq_getElem?_getD]
  by_cases heq : tx = other
  · subst heq
    by_cases hlt : tx < w.length
    · simp [hlt]
    · simp [hlt]
  · simp [heq]

theorem taskOf_append (w : List (Locking ι)) (task : Locking ι) (other : ℕ) :
    taskOf (w ++ [task]) other = if other = w.length then task else taskOf w other := by
  unfold taskOf
  rw [List.getD_eq_getElem?_getD, List.getD_eq_getElem?_getD]
  rcases Nat.lt_trichotomy other w.length with hlt | rfl | hgt
  · rw [List.getElem?_append_left hlt, if_neg (Nat.ne_of_lt hlt)]
  · simp
  · rw [List.getElem?_eq_none (by simp; omega), List.getElem?_eq_none (Nat.le_of_lt hgt),
      if_neg (Nat.ne_of_gt hgt)]

theorem taskOf_of_length_le (hle : w.length ≤ tx) : taskOf w tx = idle := by
  rw [taskOf, List.getD_eq_getElem?_getD, List.getElem?_eq_none hle]
  rfl

theorem taskOf_finish (w : List (Locking ι)) (tx other : ℕ) :
    taskOf (w.set tx idle) other = if other = tx then idle else taskOf w other := by
  rw [taskOf_set]
  by_cases heq : other = tx
  · subst heq
    by_cases hlt : other < w.length
    · simp [hlt]
    · simp [hlt, taskOf_of_length_le (Nat.le_of_not_lt hlt)]
  · simp [heq, Ne.symm heq]

theorem lt_length_of_wanted (h : (taskOf w tx).wanted ≠ []) : tx < w.length := by
  by_contra hlt
  apply h
  rw [taskOf_of_length_le (Nat.le_of_not_lt hlt)]
  rfl

theorem Free.of_held {lock h : ι} (hfree : Free conflicts w tx lock) (hother : other ≠ tx)
    (hh : h ∈ (taskOf w other).held) : conflicts h lock = false := by
  by_cases hlt : other < w.length
  · exact hfree other hlt hother h hh
  · rw [taskOf_of_length_le (Nat.le_of_not_lt hlt)] at hh
    cases hh

/-- What a move can do to a transaction: start it, give it its next lock or end it. -/
theorem taskOf_step (conflicts : ι → ι → Bool) (locks : κ → List ι) (w : List (Locking ι))
    (move : LockMove κ) (tx : ℕ) :
    taskOf (step conflicts locks w move) tx = taskOf w tx ∨
      (∃ call, move = .start call ∧
        taskOf (step conflicts locks w move) tx = ⟨[], locks call⟩) ∨
      taskOf (step conflicts locks w move) tx = idle ∨
      ∃ held lock rest, move = .take tx ∧ taskOf w tx = ⟨held, lock :: rest⟩ ∧
        Free conflicts w tx lock ∧
        taskOf (step conflicts locks w move) tx = ⟨lock :: held, rest⟩ := by
  cases move with
  | start call =>
      rw [step, taskOf_append]
      split
      · exact .inr (.inl ⟨call, rfl, rfl⟩)
      · exact .inl rfl
  | take taker =>
      rw [step]
      split
      · exact .inl rfl
      next held lock rest htask =>
        split
        next hfree =>
          rw [taskOf_set]
          split
          next htx =>
            obtain ⟨rfl, hlt⟩ := htx
            exact .inr (.inr (.inr ⟨held, lock, rest, rfl, htask, hfree, rfl⟩))
          · exact .inl rfl
        · exact .inl rfl
  | finish done =>
      rw [step, taskOf_set]
      split
      · exact .inr (.inr (.inl rfl))
      · exact .inl rfl

theorem held_step {move : LockMove κ} {h : ι}
    (hh : h ∈ (taskOf (step conflicts locks w move) tx).held) :
    h ∈ (taskOf w tx).held ∨ move = .take tx ∧ Free conflicts w tx h := by
  rcases taskOf_step conflicts locks w move tx with htask | ⟨call, hmove, htask⟩ | htask |
    ⟨held, lock, rest, hmove, hbefore, hfree, htask⟩
  · exact .inl (htask ▸ hh)
  · rw [htask] at hh
    cases hh
  · rw [htask] at hh
    cases hh
  · rw [htask] at hh
    rcases List.mem_cons.mp hh with rfl | hh
    · exact .inr ⟨hmove, hfree⟩
    · exact .inl (hbefore ▸ hh)

theorem Apart.step (hsymm : ∀ a b, conflicts a b = conflicts b a) (hw : Apart conflicts w)
    (move : LockMove κ) : Apart conflicts (step conflicts locks w move) := by
  intro i j hne h hh h' hh'
  rcases held_step hh with hold | ⟨hmove, hfree⟩
  · rcases held_step hh' with hold' | ⟨hmove', hfree'⟩
    · exact hw i j hne h hold h' hold'
    · exact hfree'.of_held hne hold
  · rcases held_step hh' with hold' | ⟨hmove', hfree'⟩
    · rw [hsymm]
      exact hfree.of_held hne.symm hold'
    · rw [hmove] at hmove'
      cases hmove'
      exact (hne rfl).elim

end Steps

/-! ## Whole runs -/

section Runs

variable {conflicts : ι → ι → Bool} {locks : κ → List ι}

theorem apart_run (hsymm : ∀ a b, conflicts a b = conflicts b a) (moves : List (LockMove κ)) :
    Apart conflicts (run (step conflicts locks) [] moves) := by
  have hstep : ∀ (w : List (Locking ι)) (move : LockMove κ), True → Apart conflicts w →
      Apart conflicts (step conflicts locks w move) := fun w move _ hw => hw.step hsymm move
  apply run_invariant hstep
  · intro i j hne h hh
    simp [taskOf, idle] at hh
  · exact fun _ _ => trivial

/-- A transaction in flight is somewhere in the locks of its call. -/
theorem splits_run (conflicts : ι → ι → Bool) (locks : κ → List ι) (moves : List (LockMove κ))
    (tx : ℕ) :
    taskOf (run (step conflicts locks) [] moves) tx = idle ∨
      ∃ call, locks call = (taskOf (run (step conflicts locks) [] moves) tx).held.reverse ++
        (taskOf (run (step conflicts locks) [] moves) tx).wanted := by
  let splits : List (Locking ι) → Prop := fun w =>
    ∀ tx, taskOf w tx = idle ∨ ∃ call, locks call = (taskOf w tx).held.reverse ++ (taskOf w tx).wanted
  have hstep : ∀ (w : List (Locking ι)) (move : LockMove κ), True → splits w →
      splits (step conflicts locks w move) := by
    intro w move _ hw tx
    rcases taskOf_step conflicts locks w move tx with
      htask | ⟨call, -, htask⟩ | htask | ⟨held, lock, rest, -, hbefore, -, htask⟩
    · rw [htask]
      exact hw tx
    · rw [htask]
      exact .inr ⟨call, rfl⟩
    · exact .inl htask
    · rcases hw tx with hidle | ⟨call, hcall⟩
      · rw [hidle] at hbefore
        cases hbefore
      · rw [hbefore] at hcall
        rw [htask]
        exact .inr ⟨call, by simp [hcall]⟩
  have hnone : splits [] := fun tx => .inl rfl
  exact run_invariant hstep hnone (fun _ _ => trivial) tx

/-- What every call does in order, every transaction in flight goes on doing. -/
theorem inOrder_run (conflicts : ι → ι → Bool) {ok : List ι → ι → Prop} (hlocks : ∀ call, InOrder ok [] (locks call))
    (moves : List (LockMove κ)) (tx : ℕ) :
    InOrder ok (taskOf (run (step conflicts locks) [] moves) tx).held
      (taskOf (run (step conflicts locks) [] moves) tx).wanted := by
  rcases splits_run conflicts locks moves tx with hidle | ⟨call, hcall⟩
  · rw [hidle]
    trivial
  · have horder := hlocks call
    rw [hcall, inOrder_append, List.reverse_reverse, List.append_nil] at horder
    exact horder.2

end Runs

/-! ## Cycles -/

section Cycles

variable {conflicts : ι → ι → Bool} {locks : κ → List ι} {w : List (Locking ι)}

/-- If a level rises whenever a transaction waits for one that waits as well, nothing
waits for itself. -/
theorem not_deadlock_of_level (level : ℕ → ℕ)
    (hlevel : ∀ i j k, WaitsFor conflicts w i j → WaitsFor conflicts w j k → level i < level j) :
    ¬ Deadlock conflicts w := by
  rintro ⟨tx, hcycle⟩
  have hrises : ∀ j, Relation.TransGen (WaitsFor conflicts w) tx j →
      ∀ k, WaitsFor conflicts w j k → level tx < level j := by
    intro j hpath
    induction hpath with
    | single hwaits => exact fun k hnext => hlevel _ _ k hwaits hnext
    | tail hpath hwaits ih =>
        exact fun k hnext => Nat.lt_trans (ih _ hwaits) (hlevel _ _ k hwaits hnext)
  obtain ⟨k, hwaits, -⟩ := Relation.TransGen.head'_iff.mp hcycle
  exact Nat.lt_irrefl _ (hrises tx hcycle k hwaits)

/-! A transaction whose lock is free takes it; when another holds what it wants, and
nobody else holds anything, it goes on until it waits for that one. -/

theorem step_take (locks : κ → List ι) {tx : ℕ} {held rest : List ι} {lock : ι}
    (htask : taskOf w tx = ⟨held, lock :: rest⟩) (hfree : Free conflicts w tx lock) (other : ℕ) :
    taskOf (step conflicts locks w (.take tx)) other =
      if other = tx then ⟨lock :: held, rest⟩ else taskOf w other := by
  have hlt : tx < w.length := lt_length_of_wanted (by rw [htask]; exact List.cons_ne_nil _ _)
  rw [step, htask]
  simp only [if_pos hfree]
  rw [taskOf_set]
  by_cases heq : other = tx
  · simp [heq, hlt]
  · simp [heq, Ne.symm heq]

theorem taskOf_finishes (finished : List ℕ) (w : List (Locking ι)) (tx : ℕ) :
    taskOf (run (step conflicts locks) w (finished.map .finish)) tx =
      if tx ∈ finished then idle else taskOf w tx := by
  induction finished generalizing w with
  | nil => simp
  | cons done rest ih =>
      rw [List.map_cons, run_cons, ih, step, taskOf_finish]
      by_cases hrest : tx ∈ rest
      · simp [hrest]
      · simp [hrest]

/-- Only these two transactions hold anything. -/
def Alone (w : List (Locking ι)) (i j : ℕ) : Prop :=
  ∀ k, k ≠ i → k ≠ j → (taskOf w k).held = []

/-- The others can end, and the two are as they were. -/
theorem exists_alone (conflicts : ι → ι → Bool) (locks : κ → List ι) (w : List (Locking ι))
    (i j : ℕ) :
    ∃ moves : List (LockMove κ), Alone (run (step conflicts locks) w moves) i j ∧
      taskOf (run (step conflicts locks) w moves) i = taskOf w i ∧
      taskOf (run (step conflicts locks) w moves) j = taskOf w j := by
  refine ⟨((List.range w.length).filter fun k => k ≠ i ∧ k ≠ j).map .finish, ?_, ?_, ?_⟩
  · intro k hi hj
    rw [taskOf_finishes]
    split
    · rfl
    next hk =>
      have hle : w.length ≤ k := by
        by_contra hlt
        exact hk (by simp; omega)
      rw [taskOf_of_length_le hle]
      rfl
  · simp [taskOf_finishes]
  · simp [taskOf_finishes]

/-- With nobody else about, a transaction that wants what the other holds comes to wait
for it. -/
theorem exists_waits (locks : κ → List ι) {i j : ℕ} (hij : i ≠ j) (halone : Alone w i j) {h lock : ι}
    (hheld : h ∈ (taskOf w j).held) (hwanted : lock ∈ (taskOf w i).wanted)
    (hconflict : conflicts h lock = true) :
    ∃ moves : List (LockMove κ), Alone (run (step conflicts locks) w moves) i j ∧
      taskOf (run (step conflicts locks) w moves) j = taskOf w j ∧
      (taskOf w i).held ⊆ (taskOf (run (step conflicts locks) w moves) i).held ∧
      WaitsFor conflicts (run (step conflicts locks) w moves) i j := by
  obtain ⟨held, wanted, htask⟩ : ∃ held wanted, taskOf w i = ⟨held, wanted⟩ := ⟨_, _, rfl⟩
  simp only [htask] at hwanted ⊢
  induction wanted generalizing w held with
  | nil => cases hwanted
  | cons first rest ih =>
      by_cases hblocked : ∃ h ∈ (taskOf w j).held, conflicts h first = true
      · exact ⟨[], halone, rfl, fun x hx => by rw [run_nil, htask]; exact hx,
          hij, first, by rw [run_nil, htask]; rfl, hblocked⟩
      · have hfree : Free conflicts w i first := by
          intro other _ hother h' hh'
          by_cases heq : other = j
          · subst heq
            by_contra htrue
            exact hblocked ⟨h', hh', by simpa using htrue⟩
          · rw [halone other hother heq] at hh'
            cases hh'
        have htake := step_take locks htask hfree
        have hrest : lock ∈ rest := by
          rcases List.mem_cons.mp hwanted with rfl | hrest
          · exact (hblocked ⟨h, hheld, hconflict⟩).elim
          · exact hrest
        have hi : taskOf (step conflicts locks w (.take i)) i = ⟨first :: held, rest⟩ := by
          rw [htake, if_pos rfl]
        have hj : taskOf (step conflicts locks w (.take i)) j = taskOf w j := by
          rw [htake, if_neg hij.symm]
        have halone' : Alone (step conflicts locks w (.take i)) i j := by
          intro k hki hkj
          rw [htake, if_neg hki]
          exact halone k hki hkj
        obtain ⟨moves, halone'', hj', hgrows, hwaits⟩ :=
          ih halone' (hj ▸ hheld) _ hi hrest
        refine ⟨.take i :: moves, halone'', hj'.trans hj, ?_, hwaits⟩
        exact fun x hx => hgrows (List.mem_cons_of_mem _ hx)

/-- Two transactions that each hold what the other still wants can end in a deadlock. -/
theorem Crossed.deadlocks {i j : ℕ} (hij : i ≠ j)
    (hcrossed : Crossed conflicts (taskOf w i) (taskOf w j)) :
    ∃ moves : List (LockMove κ), Deadlock conflicts (run (step conflicts locks) w moves) := by
  obtain ⟨⟨x, hx, x', hx', hconflict⟩, y, hy, y', hy', hconflict'⟩ := hcrossed
  obtain ⟨moves₁, halone, hi, hj⟩ := exists_alone conflicts locks w i j
  obtain ⟨moves₂, halone₂, hj₂, hheld, hwaits⟩ := exists_waits locks hij halone
    (hj ▸ hy) (hi ▸ hy') hconflict'
  obtain ⟨moves₃, halone₃, hi₃, hheld₃, hwaits₃⟩ := exists_waits locks hij.symm
    (fun k hkj hki => halone₂ k hki hkj) (hheld (hi ▸ hx)) (by rw [hj₂, hj]; exact hx') hconflict
  refine ⟨moves₁ ++ (moves₂ ++ moves₃), i, ?_⟩
  rw [run_append, run_append]
  refine .tail (.single ?_) hwaits₃
  obtain ⟨-, lock, hlock, h, hh, hc⟩ := hwaits
  exact ⟨hij, lock, by rw [hi₃]; exact hlock, h, hheld₃ hh, hc⟩

end Cycles

end Locking

/-! ## Row locks -/

inductive RowMode where
  /-- `FOR KEY SHARE`, the lock of a foreign key check on the row it refers to. -/
  | keyShare
  /-- `FOR NO KEY UPDATE`, the lock of an `UPDATE` that leaves the key alone. -/
  | noKeyUpdate
  | forUpdate
deriving DecidableEq

namespace RowMode

def conflicts : RowMode → RowMode → Bool
  | .forUpdate, _ => true
  | _, .forUpdate => true
  | .noKeyUpdate, .noKeyUpdate => true
  | _, _ => false

/-- Who holds the first mode need not wait for the second. -/
def Covers : RowMode → RowMode → Prop
  | .forUpdate, _ => True
  | .noKeyUpdate, mode => mode ≠ .forUpdate
  | .keyShare, mode => mode = .keyShare

instance : DecidableRel Covers := fun a b => by
  cases a <;> unfold Covers <;> infer_instance

theorem conflicts_comm (a b : RowMode) : conflicts a b = conflicts b a := by
  cases a <;> cases b <;> rfl

theorem Covers.conflicts {a b c : RowMode} (hcovers : Covers a b) (h : c.conflicts b = true) :
    c.conflicts a = true := by
  cases a <;> cases b <;> cases c <;> simp_all [Covers, RowMode.conflicts]

end RowMode

/-- A lock on a row. -/
structure RowRequest (ρ : Type) where
  row : ρ
  mode : RowMode
deriving DecidableEq

namespace RowRequest

variable {ρ : Type} [DecidableEq ρ]

def conflicts (a b : RowRequest ρ) : Bool := decide (a.row = b.row) && a.mode.conflicts b.mode

theorem conflicts_comm (a b : RowRequest ρ) : conflicts a b = conflicts b a := by
  simp [conflicts, RowMode.conflicts_comm a.mode, eq_comm]

/-- The transaction holds the row already, strongly enough. -/
def Covered (held : List (RowRequest ρ)) (lock : RowRequest ρ) : Prop :=
  ∃ h ∈ held, h.row = lock.row ∧ h.mode.Covers lock.mode

/-- A transaction never waits for a lock that it holds already. -/
theorem not_covered_of_waitsFor {w : List (Locking (RowRequest ρ))} {tx other : ℕ}
    {lock : RowRequest ρ} (hw : Locking.Apart conflicts w)
    (hlock : (Locking.taskOf w tx).wanted.head? = some lock)
    (hwaits : Locking.WaitsFor conflicts w tx other) :
    ¬ Covered (Locking.taskOf w tx).held lock := by
  obtain ⟨hne, lock', hlock', h, hh, hconflict⟩ := hwaits
  obtain rfl : lock = lock' := Option.some_inj.mp (hlock.symm.trans hlock')
  obtain ⟨hrow, hmode⟩ : h.row = lock.row ∧ h.mode.conflicts lock.mode = true := by
    simpa [conflicts] using hconflict
  rintro ⟨own, hown, hsame, hcovers⟩
  have hapart := hw other tx hne.symm h hh own hown
  rw [conflicts, hrow, hsame, hcovers.conflicts hmode] at hapart
  simp at hapart

end RowRequest

end Relational
