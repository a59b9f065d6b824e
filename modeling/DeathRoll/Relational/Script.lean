import Mathlib.Data.Set.Insert

/-! # Scripts over locked rows

The body of a stored procedure as a script of row accesses: a plain `SELECT`
looks at what is visible and locks nothing, `SELECT ... FOR UPDATE` locks the row
it finds, an `INSERT` adds a row under a key that is free, and only rows that are
held are written. A script's postcondition is about the rows it finds when it
commits: what a plain `SELECT` has seen may be older by then, but a row that has
been seen is still there, and so is every row that a foreign key refers to.
-/

namespace Relational

/-- The row under each key, if there is one. -/
abbrev Rows {ρ : Type} (σ : ρ → Type) := (r : ρ) → Option (σ r)

/-- What every statement respects: nothing is deleted, a row changes only along
`keeps`, and the rows it refers to are there. -/
structure Schema {ρ : Type} (σ : ρ → Type) where
  keeps : (r : ρ) → σ r → σ r → Prop
  /-- The foreign keys of a row. -/
  refs : (r : ρ) → σ r → Set ρ
  refl : ∀ r row, keeps r row row
  trans : ∀ r a b c, keeps r a b → keeps r b c → keeps r a c

/-- What a `SELECT` reads: the visible rows, and the keys under which a scan
looks for them. -/
structure Snapshot {ρ : Type} (σ : ρ → Type) where
  keys : List ρ
  rows : Rows σ

inductive Script {ρ : Type} (σ : ρ → Type) (ε α : Type) : Type 1 where
  | done (result : α)
  | fail (error : ε)
  /-- A `SELECT` that locks nothing. -/
  | look {β : Type} (query : Snapshot σ → β) (next : β → Script σ ε α)
  /-- `SELECT ... FOR UPDATE`, or the search of an `UPDATE`: lock the row, if there is one. -/
  | select (r : ρ) (next : Option (σ r) → Script σ ε α)
  /-- `INSERT ... ON CONFLICT DO NOTHING`, and whether a row went in. -/
  | insertNew (r : ρ) (row : σ r) (next : Bool → Script σ ε α)
  /-- Write a row that is held. -/
  | write (r : ρ) (row : σ r) (next : Script σ ε α)

namespace Script

variable {ρ : Type} {σ : ρ → Type} {ε α β : Type}

protected def bind : Script σ ε α → (α → Script σ ε β) → Script σ ε β
  | .done result, f => f result
  | .fail error, _ => .fail error
  | .look query next, f => .look query fun b => (next b).bind f
  | .select r next, f => .select r fun row => (next row).bind f
  | .insertNew r row next, f => .insertNew r row fun inserted => (next inserted).bind f
  | .write r row next, f => .write r row (next.bind f)

instance : Monad (Script σ ε) where
  pure := .done
  bind := Script.bind

/-- `SELECT`. -/
def see (query : Snapshot σ → α) : Script σ ε α := .look query .done

/-- `SELECT ... FOR UPDATE`. -/
def lock (r : ρ) : Script σ ε (Option (σ r)) := .select r .done

/-- `INSERT ... ON CONFLICT DO NOTHING`. -/
def add (r : ρ) (row : σ r) : Script σ ε Bool := .insertNew r row .done

def store (r : ρ) (row : σ r) : Script σ ε Unit := .write r row (.done ())

/-- `IF c THEN RAISE e; END IF`. -/
def raiseIf (c : Prop) [Decidable c] (e : ε) : Script σ ε Unit :=
  if c then .fail e else .done ()

/-- Return the value, or raise `e` when there is none. -/
def require (e : ε) : Option α → Script σ ε α
  | some a => .done a
  | none => .fail e

/-- Return the value of a computation that needs no rows, or raise its error. -/
def orThrow : Except ε α → Script σ ε α
  | .ok a => .done a
  | .error e => .fail e

/-- `IF c THEN x; END IF`. -/
def ifDo (c : Prop) [Decidable c] (x : Script σ ε Unit) : Script σ ε Unit :=
  if c then x else .done ()

/-- An `INSERT` into an index: raise `e` when the key is taken. -/
def addOrRaise (r : ρ) (row : σ r) (e : ε) : Script σ ε Unit := do
  let added ← add r row
  raiseIf (added = false) e

/-- A script on some of the rows, those under the keys `f`, which `back` tells from others. -/
def embed {ρ' : Type} (f : ρ' → ρ) (back : ρ → Option ρ') :
    Script (fun r => σ (f r)) ε α → Script σ ε α
  | .done result => .done result
  | .fail error => .fail error
  | .look query next =>
      .look (fun s => query ⟨s.keys.filterMap back, fun r => s.rows (f r)⟩) fun seen =>
        (next seen).embed f back
  | .select r next => .select (f r) fun row => (next row).embed f back
  | .insertNew r row next => .insertNew (f r) row fun inserted => (next inserted).embed f back
  | .write r row next => .write (f r) row (next.embed f back)

/-- What the script raises right away, if it does. -/
def raised : Script σ ε α → Option ε
  | .fail e => some e
  | _ => none

/-- No branch of the script raises `e`, whatever the rows. -/
def Avoids (e : ε) : Script σ ε α → Prop
  | .done _ => True
  | .fail error => error ≠ e
  | .look _ next => ∀ b, (next b).Avoids e
  | .select _ next => ∀ row, (next row).Avoids e
  | .insertNew _ _ next => ∀ inserted, (next inserted).Avoids e
  | .write _ _ next => next.Avoids e

/-! ## Errors -/

section Errors

variable {e error : ε}

theorem avoids_bind {x : Script σ ε α} {f : α → Script σ ε β} (hx : x.Avoids e)
    (hf : ∀ a, (f a).Avoids e) : (x >>= f).Avoids e := by
  change (x.bind f).Avoids e
  induction x with
  | done result => exact hf result
  | fail error => exact hx
  | look query next ih => exact fun b => ih b (hx b)
  | select r next ih => exact fun row => ih row (hx row)
  | insertNew r row next ih => exact fun inserted => ih inserted (hx inserted)
  | write r row next ih => exact ih hx

theorem avoids_see (query : Snapshot σ → α) : (see query : Script σ ε α).Avoids e :=
  fun _ => trivial

theorem avoids_lock (r : ρ) : (lock r : Script σ ε (Option (σ r))).Avoids e := fun _ => trivial

theorem avoids_store (r : ρ) (row : σ r) : (store r row : Script σ ε Unit).Avoids e := trivial

theorem avoids_raiseIf (c : Prop) [Decidable c] (h : error ≠ e) :
    (raiseIf c error : Script σ ε Unit).Avoids e := by
  unfold raiseIf
  split
  · exact h
  · trivial

theorem avoids_require (h : error ≠ e) (o : Option α) :
    (require error o : Script σ ε α).Avoids e := by
  cases o with
  | none => exact h
  | some a => trivial

theorem avoids_orThrow {x : Except ε α} (h : x ≠ .error e) :
    (orThrow x : Script σ ε α).Avoids e := by
  cases x with
  | error error => exact fun heq => h (congrArg Except.error heq)
  | ok a => trivial

theorem avoids_ite (c : Prop) [Decidable c] {x y : Script σ ε α} (hx : x.Avoids e)
    (hy : y.Avoids e) : (if c then x else y).Avoids e := by
  split
  · exact hx
  · exact hy

theorem avoids_ifDo (c : Prop) [Decidable c] {x : Script σ ε Unit} (hx : x.Avoids e) :
    (ifDo c x).Avoids e :=
  avoids_ite c hx trivial

end Errors

/-! ## Postconditions -/

section Post

variable (S : Schema σ)

/-- `seen` may have been visible before `rows`: rows stay, and change only as the
schema lets them. -/
def Older (seen rows : Rows σ) : Prop :=
  ∀ r row, seen r = some row → ∃ row', rows r = some row' ∧ S.keeps r row row'

/-- Every row's foreign keys refer to rows. -/
def Closed (rows : Rows σ) : Prop :=
  ∀ r row, rows r = some row → ∀ k ∈ S.refs r row, rows k ≠ none

/-- The keys with a row. -/
def present (rows : Rows σ) : Set ρ := {r | rows r ≠ none}

variable [DecidableEq ρ]

/-- A script that knows the rows `known` to be there and commits on `rows` changes
them only as the schema lets it and establishes `Q`. It gets past a write only
when it holds the row, and so knows it. -/
def Post (Q : α → Set ρ → Rows σ → Prop) : Script σ ε α → Set ρ → Rows σ → Prop
  | .done result, known, rows => Q result known rows
  | .fail _, _, _ => True
  | .look query next, known, rows =>
      ∀ keys seen, present seen ⊆ {r | r ∈ keys} → known ⊆ present seen → Older S seen rows →
        (next (query ⟨keys, seen⟩)).Post Q (present seen) rows
  | .select r next, known, rows =>
      (r ∉ known → (next none).Post Q known rows) ∧
        ∀ row, rows r = some row → ∀ known', known ⊆ known' → r ∈ known' → S.refs r row ⊆ known' →
          (next (some row)).Post Q known' rows
  | .insertNew r row next, known, rows =>
      (rows r = none → S.refs r row ⊆ known ∧
        (next true).Post Q (insert r known) (Function.update rows r (some row))) ∧
        ∀ known', known ⊆ known' → r ∈ known' → rows r ≠ none → (next false).Post Q known' rows
  | .write r row next, known, rows =>
      r ∈ known → S.refs r row ⊆ known ∧ (∀ old, rows r = some old → S.keeps r old row) ∧
        next.Post Q known (Function.update rows r (some row))

variable {S} {Q Q' : α → Set ρ → Rows σ → Prop} {known : Set ρ} {rows : Rows σ}

theorem post_bind (x : Script σ ε α) (f : α → Script σ ε β) {Q : β → Set ρ → Rows σ → Prop} :
    (x >>= f).Post S Q known rows ↔
      x.Post S (fun a known' rows' => (f a).Post S Q known' rows') known rows := by
  change (x.bind f).Post S Q known rows ↔ _
  induction x generalizing known rows with
  | done result => exact Iff.rfl
  | fail error => exact Iff.rfl
  | look query next ih =>
      apply forall_congr'
      intro keys
      apply forall_congr'
      intro seen
      exact imp_congr_right fun _ => imp_congr_right fun _ => imp_congr_right fun _ =>
        ih (query ⟨keys, seen⟩)
  | select r next ih =>
      apply and_congr (imp_congr_right fun _ => ih none)
      apply forall_congr'
      intro row
      apply imp_congr_right
      intro _
      apply forall_congr'
      intro known'
      exact imp_congr_right fun _ => imp_congr_right fun _ => imp_congr_right fun _ =>
        ih (some row)
  | insertNew r row next ih =>
      apply and_congr (imp_congr_right fun _ => and_congr_right' (ih true))
      apply forall_congr'
      intro known'
      exact imp_congr_right fun _ => imp_congr_right fun _ => imp_congr_right fun _ => ih false
  | write r row next ih =>
      exact imp_congr_right fun _ => and_congr_right' (and_congr_right' ih)

theorem post_pure (a : α) :
    (pure a : Script σ ε α).Post S Q known rows ↔ Q a known rows := Iff.rfl

theorem post_fail (e : ε) : (fail e : Script σ ε α).Post S Q known rows ↔ True := Iff.rfl

theorem post_see (query : Snapshot σ → α) :
    (see query : Script σ ε α).Post S Q known rows ↔
      ∀ keys seen, present seen ⊆ {r | r ∈ keys} → known ⊆ present seen → Older S seen rows →
        Q (query ⟨keys, seen⟩) (present seen) rows := Iff.rfl

theorem post_lock (r : ρ) {Q : Option (σ r) → Set ρ → Rows σ → Prop} :
    (lock r : Script σ ε (Option (σ r))).Post S Q known rows ↔
      (r ∉ known → Q none known rows) ∧
        ∀ row, rows r = some row → ∀ known', known ⊆ known' → r ∈ known' → S.refs r row ⊆ known' →
          Q (some row) known' rows := Iff.rfl

theorem post_add (r : ρ) (row : σ r) {Q : Bool → Set ρ → Rows σ → Prop} :
    (add r row : Script σ ε Bool).Post S Q known rows ↔
      (rows r = none → S.refs r row ⊆ known ∧
        Q true (insert r known) (Function.update rows r (some row))) ∧
        ∀ known', known ⊆ known' → r ∈ known' → rows r ≠ none → Q false known' rows :=
  Iff.rfl

theorem post_store (r : ρ) (row : σ r) {Q : Unit → Set ρ → Rows σ → Prop} :
    (store r row : Script σ ε Unit).Post S Q known rows ↔
      (r ∈ known → S.refs r row ⊆ known ∧ (∀ old, rows r = some old → S.keeps r old row) ∧
        Q () known (Function.update rows r (some row))) :=
  Iff.rfl

theorem post_ite (c : Prop) [Decidable c] (x y : Script σ ε α) :
    (if c then x else y).Post S Q known rows ↔
      (c → x.Post S Q known rows) ∧ (¬ c → y.Post S Q known rows) := by
  by_cases hc : c
  · simp [hc]
  · simp [hc]

theorem post_raiseIf (c : Prop) [Decidable c] (e : ε) {Q : Unit → Set ρ → Rows σ → Prop} :
    (raiseIf c e : Script σ ε Unit).Post S Q known rows ↔ (¬ c → Q () known rows) := by
  by_cases hc : c
  · simp [raiseIf, hc, Post]
  · simp [raiseIf, hc, Post]

theorem post_require (e : ε) (o : Option α) :
    (require e o : Script σ ε α).Post S Q known rows ↔ ∀ a, o = some a → Q a known rows := by
  cases o with
  | none => simp [require, Post]
  | some a => simp [require, Post]

theorem post_orThrow (x : Except ε α) :
    (orThrow x : Script σ ε α).Post S Q known rows ↔ ∀ a, x = .ok a → Q a known rows := by
  cases x with
  | error e => simp [orThrow, Post]
  | ok a => simp [orThrow, Post]

theorem post_ifDo (c : Prop) [Decidable c] (x : Script σ ε Unit)
    {Q : Unit → Set ρ → Rows σ → Prop} :
    (ifDo c x).Post S Q known rows ↔ (c → x.Post S Q known rows) ∧ (¬ c → Q () known rows) :=
  post_ite c x _

theorem post_addOrRaise (r : ρ) (row : σ r) (e : ε) {Q : Unit → Set ρ → Rows σ → Prop} :
    (addOrRaise r row e : Script σ ε Unit).Post S Q known rows ↔
      (rows r = none → S.refs r row ⊆ known ∧
        Q () (insert r known) (Function.update rows r (some row))) := by
  simp only [addOrRaise, post_bind, post_add, post_raiseIf]
  simp

/-- A read whose result does not matter. -/
theorem post_see_of_forall (query : Snapshot σ → α)
    (h : ∀ a known', known ⊆ known' → Q a known' rows) :
    (see query : Script σ ε α).Post S Q known rows :=
  fun _ _ _ hknown _ => h _ _ hknown

theorem post_lock_of_forall (r : ρ) {Q : Option (σ r) → Set ρ → Rows σ → Prop}
    (h : ∀ row known', known ⊆ known' → Q row known' rows) :
    (lock r : Script σ ε (Option (σ r))).Post S Q known rows :=
  ⟨fun _ => h none known subset_rfl, fun row _ known' hgrow _ _ => h (some row) known' hgrow⟩

theorem Post.mono {x : Script σ ε α} (h : x.Post S Q known rows)
    (hQ : ∀ a known' rows', Q a known' rows' → Q' a known' rows') : x.Post S Q' known rows := by
  induction x generalizing known rows with
  | done result => exact hQ result known rows h
  | fail error => trivial
  | look query next ih =>
      exact fun keys seen hkeys hknown hseen => ih _ (h keys seen hkeys hknown hseen)
  | select r next ih =>
      exact ⟨fun hnone => ih none (h.1 hnone),
        fun row hrow known' hgrow hr hrefs => ih (some row) (h.2 row hrow known' hgrow hr hrefs)⟩
  | insertNew r row next ih =>
      exact ⟨fun hfree => ⟨(h.1 hfree).1, ih true (h.1 hfree).2⟩,
        fun known' hgrow hr hrow => ih false (h.2 known' hgrow hr hrow)⟩
  | write r row next ih => exact fun hr => ⟨(h hr).1, (h hr).2.1, ih (h hr).2.2⟩

theorem Post.and {x : Script σ ε α} (h : x.Post S Q known rows) (h' : x.Post S Q' known rows) :
    x.Post S (fun a known' rows' => Q a known' rows' ∧ Q' a known' rows') known rows := by
  induction x generalizing known rows with
  | done result => exact ⟨h, h'⟩
  | fail error => trivial
  | look query next ih =>
      exact fun keys seen hkeys hknown hseen =>
        ih _ (h keys seen hkeys hknown hseen) (h' keys seen hkeys hknown hseen)
  | select r next ih =>
      exact ⟨fun hnone => ih none (h.1 hnone) (h'.1 hnone),
        fun row hrow known' hgrow hr hrefs => ih (some row)
          (h.2 row hrow known' hgrow hr hrefs) (h'.2 row hrow known' hgrow hr hrefs)⟩
  | insertNew r row next ih =>
      exact ⟨fun hfree => ⟨(h.1 hfree).1, ih true (h.1 hfree).2 (h'.1 hfree).2⟩,
        fun known' hgrow hr hrow =>
          ih false (h.2 known' hgrow hr hrow) (h'.2 known' hgrow hr hrow)⟩
  | write r row next ih => exact fun hr => ⟨(h hr).1, (h hr).2.1, ih (h hr).2.2 (h' hr).2.2⟩

/-- What a script knows it goes on knowing. -/
theorem Post.grows {x : Script σ ε α} (h : x.Post S Q known rows) :
    x.Post S (fun a known' rows' => known ⊆ known' ∧ Q a known' rows') known rows := by
  induction x generalizing known rows with
  | done result => exact ⟨subset_rfl, h⟩
  | fail error => trivial
  | look query next ih =>
      intro keys seen hkeys hknown hseen
      refine (ih _ (h keys seen hkeys hknown hseen)).mono fun a known' rows' hout => ?_
      exact ⟨hknown.trans hout.1, hout.2⟩
  | select r next ih =>
      refine ⟨fun hnone => ih none (h.1 hnone), fun row hrow known₁ hgrow hr hrefs => ?_⟩
      refine (ih (some row) (h.2 row hrow known₁ hgrow hr hrefs)).mono fun a known' rows' hout => ?_
      exact ⟨hgrow.trans hout.1, hout.2⟩
  | insertNew r row next ih =>
      refine ⟨fun hfree => ⟨(h.1 hfree).1, ?_⟩, fun known₁ hgrow hr hrow => ?_⟩
      · refine (ih true (h.1 hfree).2).mono fun a known' rows' hout => ?_
        exact ⟨(Set.subset_insert r known).trans hout.1, hout.2⟩
      · refine (ih false (h.2 known₁ hgrow hr hrow)).mono fun a known' rows' hout => ?_
        exact ⟨hgrow.trans hout.1, hout.2⟩
  | write r row next ih => exact fun hr => ⟨(h hr).1, (h hr).2.1, ih (h hr).2.2⟩

end Post

/-! ### What a script leaves alone -/

section Keeps

variable (S : Schema σ) [DecidableEq ρ] (base : Set ρ) {ν : Type*} (view : Rows σ → ν)

/-- A script that commits, and knew the rows `base` to be there, leaves what `view` shows
as it was. -/
def KeepsFrom (x : Script σ ε α) : Prop :=
  ∀ known rows, base ⊆ known →
    x.Post S (fun _ known' rows' => known ⊆ known' ∧ view rows' = view rows) known rows

/-- A script that commits leaves what `view` shows as it was. -/
abbrev Keeps (x : Script σ ε α) : Prop := x.KeepsFrom S ∅ view

variable {S} {base} {view} {known : Set ρ} {rows : Rows σ} {x : Script σ ε α}

/-- The rule of a part of a script that changes nothing in view. -/
theorem post_of_keepsFrom (hx : x.KeepsFrom S base view) (hbase : base ⊆ known)
    {Q : α → Set ρ → Rows σ → Prop}
    (hQ : ∀ a known' rows', known ⊆ known' → view rows' = view rows → Q a known' rows') :
    x.Post S Q known rows :=
  (hx known rows hbase).mono fun a known' rows' h => hQ a known' rows' h.1 h.2

theorem post_of_keeps (hx : x.Keeps S view) {Q : α → Set ρ → Rows σ → Prop}
    (hQ : ∀ a known' rows', known ⊆ known' → view rows' = view rows → Q a known' rows') :
    x.Post S Q known rows :=
  post_of_keepsFrom hx (Set.empty_subset known) hQ

theorem keeps_pure (a : α) : (pure a : Script σ ε α).KeepsFrom S base view :=
  fun _ _ _ => ⟨subset_rfl, rfl⟩

theorem keeps_fail (e : ε) : (fail e : Script σ ε α).KeepsFrom S base view :=
  fun _ _ _ => trivial

theorem keeps_bind {f : α → Script σ ε β} (hx : x.KeepsFrom S base view)
    (hf : ∀ a, (f a).KeepsFrom S base view) : (x >>= f).KeepsFrom S base view := by
  intro known rows hbase
  rw [post_bind]
  refine post_of_keepsFrom hx hbase fun a known₁ rows₁ hgrow₁ hview₁ => ?_
  refine post_of_keepsFrom (hf a) (hbase.trans hgrow₁) fun b known₂ rows₂ hgrow₂ hview₂ => ?_
  exact ⟨hgrow₁.trans hgrow₂, hview₂.trans hview₁⟩

theorem keeps_see (query : Snapshot σ → α) :
    (see query : Script σ ε α).KeepsFrom S base view :=
  fun _ _ _ _ _ _ hknown _ => ⟨hknown, rfl⟩

theorem keeps_lock (r : ρ) : (lock r : Script σ ε (Option (σ r))).KeepsFrom S base view :=
  fun _ _ _ => ⟨fun _ => ⟨subset_rfl, rfl⟩, fun _ _ _ hgrow _ _ => ⟨hgrow, rfl⟩⟩

/-- A row without foreign keys and out of view, which may change in any way. -/
theorem keeps_store {r : ρ} {row : σ r} (hrefs : S.refs r row = ∅)
    (hkeeps : ∀ old, S.keeps r old row)
    (hview : ∀ rows, view (Function.update rows r (some row)) = view rows) :
    (store r row : Script σ ε Unit).KeepsFrom S base view := by
  intro known rows _ _
  rw [hrefs]
  exact ⟨Set.empty_subset known, fun old _ => hkeeps old, subset_rfl, hview rows⟩

theorem keeps_add {r : ρ} {row : σ r} (hrefs : S.refs r row = ∅)
    (hview : ∀ rows, rows r = none → view (Function.update rows r (some row)) = view rows) :
    (add r row : Script σ ε Bool).KeepsFrom S base view := by
  intro known rows _
  constructor
  · intro hnone
    rw [hrefs]
    exact ⟨Set.empty_subset known, Set.subset_insert r known, hview rows hnone⟩
  · exact fun _ hgrow _ _ => ⟨hgrow, rfl⟩

theorem keeps_ite (c : Prop) [Decidable c] {y : Script σ ε α} (hx : x.KeepsFrom S base view)
    (hy : y.KeepsFrom S base view) : (if c then x else y).KeepsFrom S base view := by
  split
  · exact hx
  · exact hy

theorem keeps_raiseIf (c : Prop) [Decidable c] (e : ε) :
    (raiseIf c e : Script σ ε Unit).KeepsFrom S base view :=
  keeps_ite c (keeps_fail e) (keeps_pure ())

theorem keeps_ifDo (c : Prop) [Decidable c] {x : Script σ ε Unit} (hx : x.KeepsFrom S base view) :
    (ifDo c x).KeepsFrom S base view :=
  keeps_ite c hx (keeps_pure ())

theorem keeps_require (e : ε) (o : Option α) :
    (require e o : Script σ ε α).KeepsFrom S base view := by
  cases o with
  | none => exact keeps_fail e
  | some a => exact keeps_pure a

theorem keeps_orThrow (a : Except ε α) :
    (orThrow a : Script σ ε α).KeepsFrom S base view := by
  cases a with
  | error e => exact keeps_fail e
  | ok a => exact keeps_pure a

theorem keeps_addOrRaise {r : ρ} {row : σ r} (e : ε) (hrefs : S.refs r row = ∅)
    (hview : ∀ rows, rows r = none → view (Function.update rows r (some row)) = view rows) :
    (addOrRaise r row e : Script σ ε Unit).KeepsFrom S base view :=
  keeps_bind (keeps_add hrefs hview) fun added => keeps_raiseIf (added = false) e

/-- A script keeps what does not show its rows. -/
theorem keeps_embed {ρ' : Type} {f : ρ' → ρ} (back : ρ → Option ρ')
    (hrefs : ∀ r row, S.refs (f r) row = ∅) (hkeeps : ∀ r old new, S.keeps (f r) old new)
    (hview : ∀ rows r row, view (Function.update rows (f r) (some row)) = view rows)
    (x : Script (fun r => σ (f r)) ε α) : (x.embed f back).KeepsFrom S base view := by
  induction x with
  | done result => exact keeps_pure result
  | fail error => exact keeps_fail error
  | look query next ih => exact keeps_bind (keeps_see _) ih
  | select r next ih => exact keeps_bind (keeps_lock (f r)) ih
  | insertNew r row next ih =>
      exact keeps_bind (keeps_add (hrefs r row) fun rows _ => hview rows r row) ih
  | write r row next ih =>
      exact keeps_bind (keeps_store (hrefs r row) (hkeeps r · row) fun rows => hview rows r row)
        fun _ => ih

end Keeps

/-! ### Errors that do not occur -/

section Spares

variable (S : Schema σ) [DecidableEq ρ] (e : ε)

/-- A script that knows the rows `known` to be there does not raise `e` on `rows`, and
`Q` holds of what it returns. What it writes is not looked into. -/
def Spares (Q : α → Set ρ → Rows σ → Prop) : Script σ ε α → Set ρ → Rows σ → Prop
  | .done result, known, rows => Q result known rows
  | .fail error, _, _ => error ≠ e
  | .look query next, known, rows =>
      ∀ keys seen, present seen ⊆ {r | r ∈ keys} → known ⊆ present seen → Older S seen rows →
        (next (query ⟨keys, seen⟩)).Spares Q (present seen) rows
  | .select r next, known, rows =>
      (r ∉ known → (next none).Spares Q known rows) ∧
        ∀ row, rows r = some row → ∀ known', known ⊆ known' → r ∈ known' → S.refs r row ⊆ known' →
          (next (some row)).Spares Q known' rows
  | .insertNew r row next, known, rows =>
      (rows r = none →
        (next true).Spares Q (insert r known) (Function.update rows r (some row))) ∧
        ∀ known', known ⊆ known' → r ∈ known' → rows r ≠ none → (next false).Spares Q known' rows
  | .write r row next, known, rows =>
      r ∈ known → next.Spares Q known (Function.update rows r (some row))

variable {S e} {Q : α → Set ρ → Rows σ → Prop} {known : Set ρ} {rows : Rows σ}

theorem spares_bind (x : Script σ ε α) (f : α → Script σ ε β)
    {Q : β → Set ρ → Rows σ → Prop} :
    (x >>= f).Spares S e Q known rows ↔
      x.Spares S e (fun a known' rows' => (f a).Spares S e Q known' rows') known rows := by
  change (x.bind f).Spares S e Q known rows ↔ _
  induction x generalizing known rows with
  | done result => exact Iff.rfl
  | fail error => exact Iff.rfl
  | look query next ih =>
      apply forall_congr'
      intro keys
      apply forall_congr'
      intro seen
      exact imp_congr_right fun _ => imp_congr_right fun _ => imp_congr_right fun _ =>
        ih (query ⟨keys, seen⟩)
  | select r next ih =>
      apply and_congr (imp_congr_right fun _ => ih none)
      apply forall_congr'
      intro row
      apply imp_congr_right
      intro _
      apply forall_congr'
      intro known'
      exact imp_congr_right fun _ => imp_congr_right fun _ => imp_congr_right fun _ =>
        ih (some row)
  | insertNew r row next ih =>
      apply and_congr (imp_congr_right fun _ => ih true)
      apply forall_congr'
      intro known'
      exact imp_congr_right fun _ => imp_congr_right fun _ => imp_congr_right fun _ => ih false
  | write r row next ih => exact imp_congr_right fun _ => ih

/-- A script without the error is as good as its postcondition. -/
theorem spares_of_post {x : Script σ ε α} (havoids : x.Avoids e) (hpost : x.Post S Q known rows) :
    x.Spares S e Q known rows := by
  induction x generalizing known rows with
  | done result => exact hpost
  | fail error => exact havoids
  | look query next ih =>
      exact fun keys seen hkeys hknown hseen =>
        ih _ (havoids _) (hpost keys seen hkeys hknown hseen)
  | select r next ih =>
      exact ⟨fun hnone => ih none (havoids none) (hpost.1 hnone),
        fun row hrow known' hgrow hr hrefs =>
          ih (some row) (havoids (some row)) (hpost.2 row hrow known' hgrow hr hrefs)⟩
  | insertNew r row next ih =>
      exact ⟨fun hfree => ih true (havoids true) (hpost.1 hfree).2,
        fun known' hgrow hr hrow => ih false (havoids false) (hpost.2 known' hgrow hr hrow)⟩
  | write r row next ih => exact fun hr => ih havoids (hpost hr).2.2

theorem spares_of_avoids {x : Script σ ε α} (havoids : x.Avoids e) :
    x.Spares S e (fun _ _ _ => True) known rows := by
  induction x generalizing known rows with
  | done result => trivial
  | fail error => exact havoids
  | look query next ih => exact fun _ _ _ _ _ => ih _ (havoids _)
  | select r next ih =>
      exact ⟨fun _ => ih none (havoids none), fun row _ _ _ _ _ => ih (some row) (havoids _)⟩
  | insertNew r row next ih =>
      exact ⟨fun _ => ih true (havoids true), fun _ _ _ _ => ih false (havoids false)⟩
  | write r row next ih => exact fun _ => ih havoids

theorem Spares.mono {x : Script σ ε α} {Q' : α → Set ρ → Rows σ → Prop}
    (h : x.Spares S e Q known rows)
    (hQ : ∀ a known' rows', Q a known' rows' → Q' a known' rows') : x.Spares S e Q' known rows := by
  induction x generalizing known rows with
  | done result => exact hQ result known rows h
  | fail error => exact h
  | look query next ih =>
      exact fun keys seen hkeys hknown hseen => ih _ (h keys seen hkeys hknown hseen)
  | select r next ih =>
      exact ⟨fun hnone => ih none (h.1 hnone),
        fun row hrow known' hgrow hr hrefs => ih (some row) (h.2 row hrow known' hgrow hr hrefs)⟩
  | insertNew r row next ih =>
      exact ⟨fun hfree => ih true (h.1 hfree),
        fun known' hgrow hr hrow => ih false (h.2 known' hgrow hr hrow)⟩
  | write r row next ih => exact fun hr => ih (h hr)

/-- What follows does not raise the error either. -/
theorem spares_bind_of_avoids {x : Script σ ε α} {f : α → Script σ ε β}
    (hx : x.Spares S e (fun _ _ _ => True) known rows) (hf : ∀ a, (f a).Avoids e) :
    (x >>= f).Spares S e (fun _ _ _ => True) known rows :=
  (spares_bind x f).mpr (hx.mono fun a _ _ _ => spares_of_avoids (hf a))

end Spares

section Older

variable {S : Schema σ}

theorem Older.refl (rows : Rows σ) : Older S rows rows :=
  fun r row hrow => ⟨row, hrow, S.refl r row⟩

theorem Older.trans {first second third : Rows σ} (h : Older S first second)
    (h' : Older S second third) : Older S first third := by
  intro r row hrow
  obtain ⟨row', hrow', hkeeps⟩ := h r row hrow
  obtain ⟨row'', hrow'', hkeeps'⟩ := h' r row' hrow'
  exact ⟨row'', hrow'', S.trans r _ _ _ hkeeps hkeeps'⟩

/-- A row that has been seen is still there. -/
theorem Older.present_subset {seen rows : Rows σ} (h : Older S seen rows) :
    present seen ⊆ present rows := by
  intro r hseen
  obtain ⟨row, hrow⟩ := Option.ne_none_iff_exists'.mp hseen
  obtain ⟨row', hrow', -⟩ := h r row hrow
  change rows r ≠ none
  rw [hrow']
  exact Option.some_ne_none row'

variable [DecidableEq ρ]

theorem present_update (rows : Rows σ) (r : ρ) (row : σ r) :
    present (Function.update rows r (some row)) = insert r (present rows) := by
  ext k
  by_cases hk : k = r
  · subst hk
    simp [present]
  · simp [present, hk]

theorem Closed.update {rows : Rows σ} (h : Closed S rows) {r : ρ} {row : σ r}
    (hrefs : S.refs r row ⊆ present rows) : Closed S (Function.update rows r (some row)) := by
  intro k other hother k' hk'
  change k' ∈ present _
  rw [present_update]
  apply Set.mem_insert_of_mem
  by_cases hk : k = r
  · subst hk
    rw [Function.update_self, Option.some.injEq] at hother
    subst hother
    exact hrefs hk'
  · rw [Function.update_of_ne hk] at hother
    exact h k other hother k' hk'

end Older

end Script

end Relational
