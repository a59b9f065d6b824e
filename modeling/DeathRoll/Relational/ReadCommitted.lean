import DeathRoll.Relational.RowLock
import DeathRoll.Relational.Run
import DeathRoll.Relational.Script
import Mathlib.Data.List.Induction

/-! # Scripts interleaved at `READ COMMITTED`

Transactions run scripts one access at a time, in any interleaving, and commit or
roll back. A transaction sees committed rows and its own writes; a row that
another holds makes it wait. Since locks are held to the end, the rows a script
has locked are at its commit what they were when it locked them: every commit
acts on the committed rows as the script does in one go, and nothing but a commit
changes them.
-/

namespace Relational

open Script

variable {ρ : Type} {σ : ρ → Type} {τ κ ε α : Type}

/-- The rows with their locks, the keys under which there have been rows, and the
calls in flight with what is left of them. -/
structure Concurrent (τ κ : Type) {ρ : Type} (σ : ρ → Type) (ε α : Type) where
  keys : List ρ
  rows : (r : ρ) → RowLock τ (Option (σ r)) (Option (σ r))
  running : τ → Option (κ × Script σ ε α)

/-- What a transaction does next. -/
inductive Move (τ κ : Type) where
  | start (tx : τ) (call : κ)
  | next (tx : τ)
  | commit (tx : τ)
  | rollback (tx : τ)

namespace Concurrent

/-- Nobody works on these rows. -/
def quiet (keys : List ρ) (rows : Rows σ) : Concurrent τ κ σ ε α :=
  ⟨keys, fun r => .free (rows r), fun _ => none⟩

def committed (w : Concurrent τ κ σ ε α) : Rows σ := fun r => (w.rows r).committed

section Step

variable [DecidableEq τ] [DecidableEq ρ]

/-- The working values of the rows that a transaction holds. -/
def held (w : Concurrent τ κ σ ε α) (tx : τ) (r : ρ) : Option (Option (σ r)) :=
  (w.rows r).heldBy tx

/-- What a transaction sees. -/
def view (w : Concurrent τ κ σ ε α) (tx : τ) : Rows σ :=
  fun r => (w.held tx r).getD (w.committed r)

/-- Go on with a script. -/
def proceed (w : Concurrent τ κ σ ε α) (tx : τ) (call : κ) (rest : Script σ ε α) :
    Concurrent τ κ σ ε α :=
  { w with running := Function.update w.running tx (some (call, rest)) }

def hold (w : Concurrent τ κ σ ε α) (tx : τ) (r : ρ) (row : Option (σ r)) :
    Concurrent τ κ σ ε α :=
  { w with rows := Function.update w.rows r ((w.rows r).hold tx row) }

/-- A scan meets the key from now on. -/
def enter (w : Concurrent τ κ σ ε α) (r : ρ) : Concurrent τ κ σ ε α :=
  { w with keys := r :: w.keys }

/-- One access of a call in flight; a script that has to wait stays where it is. -/
def advance (w : Concurrent τ κ σ ε α) (tx : τ) (call : κ) : Script σ ε α → Concurrent τ κ σ ε α
  | .done _ => w
  | .fail _ => w
  | .look query next => w.proceed tx call (next (query ⟨w.keys, w.view tx⟩))
  | .select r next =>
      if w.view tx r = none then w.proceed tx call (next none)
      else
        match (w.rows r).session id tx with
        | none => w
        | some row => (w.hold tx r row).proceed tx call (next row)
  | .insertNew r row next =>
      if w.view tx r ≠ none then w.proceed tx call (next false)
      else
        match (w.rows r).session id tx with
        | none => w
        | some _ => ((w.enter r).hold tx r (some row)).proceed tx call (next true)
  | .write r row next =>
      match w.held tx r with
      | none => w
      | some _ => (w.hold tx r (some row)).proceed tx call next

def step (body : κ → Script σ ε α) (w : Concurrent τ κ σ ε α) : Move τ κ → Concurrent τ κ σ ε α
  | .start tx call =>
      match w.running tx with
      | none => w.proceed tx call (body call)
      | some _ => w
  | .next tx =>
      match w.running tx with
      | none => w
      | some (call, rest) => w.advance tx call rest
  | .commit tx =>
      match w.running tx with
      | some (_, .done _) =>
          { w with
            rows := fun r => (w.rows r).publish tx
            running := Function.update w.running tx none }
      | _ => w
  | .rollback tx =>
      { w with
        rows := fun r => (w.rows r).release tx
        running := Function.update w.running tx none }

/-- The call that a move commits, with its result. -/
def commits (w : Concurrent τ κ σ ε α) : Move τ κ → Option (κ × α)
  | .commit tx =>
      match w.running tx with
      | some (call, .done result) => some (call, result)
      | _ => none
  | _ => none

end Step

end Concurrent

/-! ## What a transaction in flight has done -/

section Reaches

/-- The rows with the working values of a transaction in place of its own. -/
def overlay (held : (r : ρ) → Option (Option (σ r))) (rows : Rows σ) : Rows σ :=
  fun r => (held r).getD (rows r)

variable [DecidableEq ρ]

theorem over_update (held : (r : ρ) → Option (Option (σ r))) (rows : Rows σ) (r : ρ)
    (row : Option (σ r)) :
    overlay (Function.update held r (some row)) rows = Function.update (overlay held rows) r row := by
  funext other
  unfold overlay
  by_cases hother : other = r
  · subst hother
    simp
  · simp [hother]

/-- Run on these rows, some of which it knew from the start, the script gets to hold
`held`, to know `known` and to have `rest` left. -/
inductive Reaches (S : Schema σ) (base : Set ρ) (rows : Rows σ) (script : Script σ ε α) :
    ((r : ρ) → Option (Option (σ r))) → Set ρ → Script σ ε α → Prop
  | start : Reaches S base rows script (fun _ => none) base script
  | look {held : (r : ρ) → Option (Option (σ r))} {known : Set ρ} {β : Type}
      {query : Snapshot σ → β} {next : β → Script σ ε α} {keys : List ρ} {seen : Rows σ}
      (h : Reaches S base rows script held known (.look query next))
      (hkeys : present seen ⊆ {r | r ∈ keys}) (hknown : known ⊆ present seen)
      (hseen : Older S seen (overlay held rows)) :
      Reaches S base rows script held (present seen) (next (query ⟨keys, seen⟩))
  | skip {held : (r : ρ) → Option (Option (σ r))} {known : Set ρ} {r : ρ}
      {next : Option (σ r) → Script σ ε α}
      (h : Reaches S base rows script held known (.select r next)) (hr : r ∉ known) :
      Reaches S base rows script held known (next none)
  | select {held : (r : ρ) → Option (Option (σ r))} {known known' : Set ρ} {r : ρ}
      {next : Option (σ r) → Script σ ε α} {row : σ r}
      (h : Reaches S base rows script held known (.select r next))
      (hrow : overlay held rows r = some row) (hgrow : known ⊆ known') (hr : r ∈ known')
      (hrefs : S.refs r row ⊆ known') (hpresent : known' ⊆ present (overlay held rows)) :
      Reaches S base rows script (Function.update held r (some (some row))) known' (next (some row))
  | insertNew {held : (r : ρ) → Option (Option (σ r))} {known : Set ρ} {r : ρ} {row : σ r}
      {next : Bool → Script σ ε α}
      (h : Reaches S base rows script held known (.insertNew r row next))
      (hfree : overlay held rows r = none) :
      Reaches S base rows script (Function.update held r (some (some row))) (insert r known)
        (next true)
  | conflict {held : (r : ρ) → Option (Option (σ r))} {known known' : Set ρ} {r : ρ} {row : σ r}
      {next : Bool → Script σ ε α}
      (h : Reaches S base rows script held known (.insertNew r row next)) (hgrow : known ⊆ known')
      (hr : r ∈ known') (hpresent : known' ⊆ present (overlay held rows)) :
      Reaches S base rows script held known' (next false)
  | write {held : (r : ρ) → Option (Option (σ r))} {known : Set ρ} {r : ρ} {row : σ r}
      {next : Script σ ε α} (h : Reaches S base rows script held known (.write r row next))
      (hheld : held r ≠ none) :
      Reaches S base rows script (Function.update held r (some (some row))) known next

variable {S : Schema σ} {base known : Set ρ} {rows rows' : Rows σ} {script rest : Script σ ε α}
  {held : (r : ρ) → Option (Option (σ r))}

/-- What the script knows to be there is there. -/
theorem Reaches.known_present (h : Reaches S base rows script held known rest)
    (hbase : base ⊆ present rows) : known ⊆ present (overlay held rows) := by
  induction h with
  | start => exact hbase
  | look h hkeys hknown hseen ih => exact hseen.present_subset
  | skip h hr ih => exact ih
  | select h hrow hgrow hr hrefs hpresent ih =>
      rw [over_update, present_update]
      exact hpresent.trans (Set.subset_insert _ _)
  | insertNew h hfree ih =>
      rw [over_update, present_update]
      exact Set.insert_subset_insert ih
  | conflict h hgrow hr hpresent ih => exact hpresent
  | write h hheld ih =>
      rw [over_update, present_update]
      exact ih.trans (Set.subset_insert _ _)

/-- What the script holds it knows to be there. -/
theorem Reaches.known_of_held (h : Reaches S base rows script held known rest) :
    ∀ r, held r ≠ none → r ∈ known := by
  have hupdate : ∀ {held : (r : ρ) → Option (Option (σ r))} {known : Set ρ} (other : ρ)
      (row : Option (σ other)), (∀ r, held r ≠ none → r ∈ known) → other ∈ known →
      ∀ r, Function.update held other (some row) r ≠ none → r ∈ known := by
    intro held known other row ih hother r hheld
    by_cases heq : r = other
    · exact heq ▸ hother
    · rw [Function.update_of_ne heq] at hheld
      exact ih r hheld
  induction h with
  | start => exact fun r hheld => (hheld rfl).elim
  | look h hkeys hknown hseen ih => exact fun r hheld => hknown (ih r hheld)
  | skip h hr ih => exact ih
  | select h hrow hgrow hr hrefs hpresent ih =>
      exact hupdate _ _ (fun r hheld => hgrow (ih r hheld)) hr
  | insertNew h hfree ih =>
      exact hupdate _ _ (fun r hheld => Set.mem_insert_of_mem _ (ih r hheld)) (Set.mem_insert _ _)
  | conflict h hgrow hr hpresent ih => exact fun r hheld => hgrow (ih r hheld)
  | write h hmine ih => exact hupdate _ _ ih (ih _ hmine)

/-- A postcondition of the script is one of what is left of it. -/
theorem Reaches.post (h : Reaches S base rows script held known rest)
    {Q : α → Set ρ → Rows σ → Prop} (hpost : script.Post S Q base rows) :
    rest.Post S Q known (overlay held rows) := by
  induction h with
  | start => exact hpost
  | look h hkeys hknown hseen ih => exact ih _ _ hkeys hknown hseen
  | skip h hr ih => exact ih.1 hr
  | @select held known known' r next row h hrow hgrow hr hrefs hpresent ih =>
      have hover : Function.update (overlay held rows) r (some row) = overlay held rows := by
        rw [← hrow, Function.update_eq_self]
      rw [over_update, hover]
      exact ih.2 row hrow known' hgrow hr hrefs
  | insertNew h hfree ih =>
      rw [over_update]
      exact (ih.1 hfree).2
  | conflict h hgrow hr hpresent ih => exact ih.2 _ hgrow hr (hpresent hr)
  | write h hheld ih =>
      rw [over_update]
      exact (ih (h.known_of_held _ hheld)).2.2

/-- An error that the script does not raise is none of what is left of it. -/
theorem Reaches.spares (h : Reaches S base rows script held known rest) {e : ε}
    {Q : α → Set ρ → Rows σ → Prop} (hspares : script.Spares S e Q base rows) :
    rest.Spares S e Q known (overlay held rows) := by
  induction h with
  | start => exact hspares
  | look h hkeys hknown hseen ih => exact ih _ _ hkeys hknown hseen
  | skip h hr ih => exact ih.1 hr
  | @select held known known' r next row h hrow hgrow hr hrefs hpresent ih =>
      have hover : Function.update (overlay held rows) r (some row) = overlay held rows := by
        rw [← hrow, Function.update_eq_self]
      rw [over_update, hover]
      exact ih.2 row hrow known' hgrow hr hrefs
  | insertNew h hfree ih =>
      rw [over_update]
      exact ih.1 hfree
  | conflict h hgrow hr hpresent ih => exact ih.2 _ hgrow hr (hpresent hr)
  | write h hheld ih =>
      rw [over_update]
      exact ih (h.known_of_held _ hheld)

/-- What the script has written so far is as the schema lets it. -/
theorem Reaches.older (h : Reaches S base rows script held known rest)
    {Q : α → Set ρ → Rows σ → Prop} (hpost : script.Post S Q base rows) :
    Older S rows (overlay held rows) := by
  induction h with
  | start => exact Older.refl rows
  | look h hkeys hknown hseen ih => exact ih
  | skip h hr ih => exact ih
  | select h hrow hgrow hr hrefs hpresent ih =>
      rw [over_update, ← hrow, Function.update_eq_self]
      exact ih
  | @insertNew held known r row next h hfree ih =>
      rw [over_update]
      apply ih.trans
      intro other old hold
      by_cases hother : other = r
      · subst hother
        rw [hfree] at hold
        cases hold
      · exact ⟨old, by rw [Function.update_of_ne hother, hold], S.refl other old⟩
  | conflict h hgrow hr hpresent ih => exact ih
  | @write held known r row next h hheld ih =>
      rw [over_update]
      apply ih.trans
      intro other old hold
      by_cases hother : other = r
      · subst hother
        exact ⟨row, Function.update_self .., (h.post hpost (h.known_of_held _ hheld)).2.1 old hold⟩
      · exact ⟨old, by rw [Function.update_of_ne hother, hold], S.refl other old⟩

/-- The foreign keys of what the script sees refer to rows. -/
theorem Reaches.closed (h : Reaches S base rows script held known rest)
    (hbase : base ⊆ present rows) (hclosed : Closed S rows) {Q : α → Set ρ → Rows σ → Prop}
    (hpost : script.Post S Q base rows) : Closed S (overlay held rows) := by
  induction h with
  | start => exact hclosed
  | look h hkeys hknown hseen ih => exact ih
  | skip h hr ih => exact ih
  | select h hrow hgrow hr hrefs hpresent ih =>
      rw [over_update, ← hrow, Function.update_eq_self]
      exact ih
  | insertNew h hfree ih =>
      rw [over_update]
      apply ih.update
      exact ((h.post hpost).1 hfree).1.trans (h.known_present hbase)
  | conflict h hgrow hr hpresent ih => exact ih
  | write h hheld ih =>
      rw [over_update]
      apply ih.update
      exact (h.post hpost (h.known_of_held _ hheld)).1.trans (h.known_present hbase)

/-- Others may change the rows that the script does not hold, as the schema lets them. -/
theorem Reaches.stable (h : Reaches S base rows script held known rest)
    (hheld : ∀ r, held r ≠ none → rows' r = rows r) (hle : Older S rows rows') :
    Reaches S base rows' script held known rest := by
  -- what the script sees of its own rows is the same, and of the others it sees newer ones
  have hover : ∀ held : (r : ρ) → Option (Option (σ r)),
      (∀ r, held r ≠ none → rows' r = rows r) → Older S (overlay held rows) (overlay held rows') := by
    intro held hheld r row hrow
    unfold overlay at hrow ⊢
    cases hr : held r with
    | none =>
        rw [hr] at hrow
        exact hle r row hrow
    | some mine =>
        rw [hr] at hrow
        exact ⟨row, hrow, S.refl r row⟩
  have hsame : ∀ (held : (r : ρ) → Option (Option (σ r))) (r : ρ) (row : Option (σ r)),
      (∀ other, Function.update held r (some row) other ≠ none → rows' other = rows other) →
      overlay held rows' r = overlay held rows r ∧ ∀ other, held other ≠ none →
        rows' other = rows other := by
    intro held r row hupdate
    refine ⟨?_, fun other hother => hupdate other ?_⟩
    · unfold overlay
      rw [hupdate r (by simp)]
    · by_cases heq : other = r
      · subst heq
        simp
      · rwa [Function.update_of_ne heq]
  -- on the accesses so far; a row that is taken now was not held before, so the hypothesis weakens
  induction h with
  | start => exact .start
  | look h hkeys hknown hseen ih =>
      exact .look (ih hheld) hkeys hknown (hseen.trans (hover _ hheld))
  | skip h hr ih => exact .skip (ih hheld) hr
  | @select held known known' r next row h hrow hgrow hr hrefs hpresent ih =>
      obtain ⟨hsame, hbefore⟩ := hsame held r (some row) hheld
      exact .select (ih hbefore) (hsame.trans hrow) hgrow hr hrefs
        (hpresent.trans (hover _ hbefore).present_subset)
  | @insertNew held known r row next h hfree ih =>
      obtain ⟨hsame, hbefore⟩ := hsame held r (some row) hheld
      exact .insertNew (ih hbefore) (hsame.trans hfree)
  | conflict h hgrow hr hpresent ih =>
      exact .conflict (ih hheld) hgrow hr (hpresent.trans (hover _ hheld).present_subset)
  | @write held known r row next h hmine ih =>
      obtain ⟨-, hbefore⟩ := hsame held r (some row) hheld
      exact .write (ih hbefore) hmine

end Reaches

namespace Concurrent

section Held

variable {w : Concurrent τ κ σ ε α} {tx other : τ} {call : κ} {rest : Script σ ε α} {r : ρ}

section Rows

variable [DecidableEq τ]

theorem running_proceed_self (w : Concurrent τ κ σ ε α) (tx : τ) (call : κ)
    (rest : Script σ ε α) : (w.proceed tx call rest).running tx = some (call, rest) :=
  Function.update_self ..

theorem running_proceed_of_ne (hne : other ≠ tx) :
    (w.proceed tx call rest).running other = w.running other :=
  Function.update_of_ne hne ..

/-- One row has one holder. -/
theorem held_of_ne {row : Option (σ r)} (hheld : w.held tx r = some row) (hne : other ≠ tx) :
    w.held other r = none :=
  RowLock.heldBy_of_ne hheld hne

theorem session_of_held {row : Option (σ r)} (hheld : w.held tx r = some row) :
    (w.rows r).session id tx = some row := by
  unfold held RowLock.heldBy at hheld
  unfold RowLock.session
  split at hheld
  next => cases hheld
  next mine hholder => exact hheld

/-- What a transaction locks is the row as it sees it. -/
theorem session_eq_view {row : Option (σ r)} (hsession : (w.rows r).session id tx = some row) :
    row = w.view tx r := by
  unfold view held committed
  rcases RowLock.session_eq_some hsession with ⟨hholder, hrow⟩ | hheld
  · rw [RowLock.heldBy, hholder]
    exact hrow
  · rw [hheld]
    rfl

end Rows

variable [DecidableEq ρ]

@[simp] theorem committed_hold (w : Concurrent τ κ σ ε α) (tx : τ) (r : ρ) (row : Option (σ r)) :
    (w.hold tx r row).committed = w.committed := by
  funext other
  unfold committed hold
  by_cases hother : other = r
  · subst hother
    simp
  · simp [hother]

variable [DecidableEq τ]

theorem held_hold_self (row : Option (σ r)) :
    (w.hold tx r row).held tx = Function.update (w.held tx) r (some row) := by
  funext other
  unfold held hold
  by_cases hother : other = r
  · subst hother
    simp [RowLock.heldBy_hold]
  · simp [hother]

theorem held_hold_other {before after : Option (σ r)}
    (hsession : (w.rows r).session id tx = some before) (hne : other ≠ tx) :
    (w.hold tx r after).held other = w.held other := by
  funext key
  unfold held hold
  by_cases hkey : key = r
  · subst hkey
    simp [RowLock.heldBy_hold_of_ne hsession hne]
  · simp [hkey]

end Held

/-! ## Commits act in one go -/

variable [DecidableEq τ] [DecidableEq ρ]

/-- Since `base` the rows have changed as the schema lets them, a call in flight has
got where it is on the rows committed now, who is not in flight holds nothing, and a
scan meets every row. -/
structure Sound (S : Schema σ) (base : Rows σ) (body : κ → Script σ ε α)
    (w : Concurrent τ κ σ ε α) : Prop where
  base_older : Older S base w.committed
  closed : Closed S w.committed
  reaches : ∀ tx call rest, w.running tx = some (call, rest) →
    ∃ known, Reaches S (present base) w.committed (body call) (w.held tx) known rest
  idle : ∀ tx, w.running tx = none → w.held tx = fun _ => none
  committed_keys : ∀ r, w.committed r ≠ none → r ∈ w.keys
  held_keys : ∀ tx r, w.held tx r ≠ none → r ∈ w.keys

/-- Rows to start from: a scan meets all of them and their foreign keys refer to
rows. -/
structure Consistent (S : Schema σ) (keys : List ρ) (rows : Rows σ) : Prop where
  keys : ∀ r, rows r ≠ none → r ∈ keys
  closed : Closed S rows

theorem sound_quiet {S : Schema σ} (body : κ → Script σ ε α) {keys : List ρ} {rows : Rows σ}
    (hrows : Consistent S keys rows) :
    (quiet keys rows : Concurrent τ κ σ ε α).Sound S rows body :=
  ⟨Older.refl rows, hrows.closed, fun _ _ _ hrunning => (Option.some_ne_none _ hrunning.symm).elim, fun _ _ => rfl, hrows.keys,
    fun _ _ hheld => (hheld rfl).elim⟩

variable {S : Schema σ} {base : Rows σ} {body : κ → Script σ ε α}
  {w : Concurrent τ κ σ ε α} {tx : τ} {call : κ} {rest : Script σ ε α}

theorem Sound.view_keys (h : w.Sound S base body) (tx : τ) (r : ρ) (hview : w.view tx r ≠ none) :
    r ∈ w.keys := by
  by_cases hheld : w.held tx r = none
  · apply h.committed_keys
    rwa [view, hheld] at hview
  · exact h.held_keys tx r hheld

/-- A step of one transaction that commits nothing and takes nothing from others. -/
theorem Sound.proceed (h : w.Sound S base body) {w' : Concurrent τ κ σ ε α}
    (hcommitted : w'.committed = w.committed) (hrunning : w'.running = w.running)
    (hothers : ∀ other, other ≠ tx → w'.held other = w.held other)
    (hkeys : ∀ r, r ∈ w.keys → r ∈ w'.keys) (hheld : ∀ r, w'.held tx r ≠ none → r ∈ w'.keys)
    {known : Set ρ} (hreaches : Reaches S (present base) w.committed (body call) (w'.held tx) known rest) :
    (w'.proceed tx call rest).Sound S base body := by
  constructor
  · change Older S base w'.committed
    rw [hcommitted]
    exact h.base_older
  · change Closed S w'.committed
    rw [hcommitted]
    exact h.closed
  · intro other call' rest' hother
    change ∃ known, Reaches S (present base) w'.committed (body call') (w'.held other) known rest'
    rw [hcommitted]
    by_cases heq : other = tx
    · subst heq
      rw [running_proceed_self, Option.some.injEq, Prod.mk.injEq] at hother
      obtain ⟨rfl, rfl⟩ := hother
      exact ⟨known, hreaches⟩
    · rw [running_proceed_of_ne heq, hrunning] at hother
      rw [hothers other heq]
      exact h.reaches other call' rest' hother
  · intro other hother
    change w'.held other = _
    by_cases heq : other = tx
    · subst heq
      rw [running_proceed_self] at hother
      cases hother
    · rw [running_proceed_of_ne heq, hrunning] at hother
      rw [hothers other heq]
      exact h.idle other hother
  · intro r hr
    change w'.committed r ≠ none at hr
    rw [hcommitted] at hr
    exact hkeys r (h.committed_keys r hr)
  · intro other r hr
    change w'.held other r ≠ none at hr
    by_cases heq : other = tx
    · subst heq
      exact hheld r hr
    · rw [hothers other heq] at hr
      exact hkeys r (h.held_keys other r hr)

/-- A step that takes a row or writes one that is held. -/
theorem Sound.hold (h : w.Sound S base body) (w' : Concurrent τ κ σ ε α) {r : ρ}
    {before after : Option (σ r)} (hrows : w'.rows = w.rows) (hrunning : w'.running = w.running)
    (hkeys : ∀ other, other ∈ w.keys → other ∈ w'.keys) (hr : r ∈ w'.keys)
    (hsession : (w.rows r).session id tx = some before) {known : Set ρ}
    (hreaches : Reaches S (present base) w.committed (body call)
      (Function.update (w.held tx) r (some after)) known rest) :
    ((w'.hold tx r after).proceed tx call rest).Sound S base body := by
  have hself : (w'.hold tx r after).held tx = Function.update (w.held tx) r (some after) := by
    rw [held_hold_self]
    unfold held
    rw [hrows]
  have hother : ∀ other, other ≠ tx → (w'.hold tx r after).held other = w.held other := by
    intro other hne
    rw [held_hold_other (by rw [hrows]; exact hsession) hne]
    unfold held
    rw [hrows]
  have hcommitted : (w'.hold tx r after).committed = w.committed := by
    rw [committed_hold]
    unfold committed
    rw [hrows]
  have hrunning' : (w'.hold tx r after).running = w.running := hrunning
  apply h.proceed hcommitted hrunning' hother hkeys
  · intro key hkey
    rw [hself] at hkey
    by_cases heq : key = r
    · exact heq ▸ hr
    · rw [Function.update_of_ne heq] at hkey
      exact hkeys key (h.held_keys tx key hkey)
  · rw [hself]
    exact hreaches

theorem Sound.advance (h : w.Sound S base body)
    (hclosed : Closed S (w.view tx)) (hrunning : w.running tx = some (call, rest)) :
    (w.advance tx call rest).Sound S base body := by
  obtain ⟨known, hreaches⟩ := h.reaches tx call rest hrunning
  have hknown : known ⊆ present (w.view tx) :=
    hreaches.known_present h.base_older.present_subset
  cases rest with
  | done result => exact h
  | fail error => exact h
  | look query next =>
      apply h.proceed rfl rfl (fun _ _ => rfl) (fun _ hr => hr) (h.held_keys tx)
      exact .look hreaches (h.view_keys tx) hknown (Older.refl _)
  | select r next =>
      simp only [Concurrent.advance]
      split
      next hnone =>
        apply h.proceed rfl rfl (fun _ _ => rfl) (fun _ hr => hr) (h.held_keys tx)
        exact .skip hreaches fun hr => hknown hr hnone
      -- a row that is there is waited for, and read anew once it is taken
      next hvisible =>
        split
        next => exact h
        next row hsession =>
          obtain ⟨row', hrow'⟩ := Option.ne_none_iff_exists'.mp hvisible
          have hrow : row = some row' := (session_eq_view hsession).trans hrow'
          subst hrow
          apply h.hold w rfl rfl (fun _ hr => hr) (h.view_keys tx r hvisible) hsession
          exact .select hreaches hrow' hknown hvisible (hclosed r row' hrow') subset_rfl
  | insertNew r row next =>
      simp only [Concurrent.advance]
      split
      next hvisible =>
        apply h.proceed rfl rfl (fun _ _ => rfl) (fun _ hr => hr) (h.held_keys tx)
        exact .conflict hreaches hknown hvisible subset_rfl
      next hfree =>
        split
        next => exact h
        next before hsession =>
          apply h.hold (w.enter r) rfl rfl (fun _ hr => List.mem_cons_of_mem r hr)
            List.mem_cons_self hsession
          exact .insertNew hreaches (not_not.mp hfree)
  | write r row next =>
      simp only [Concurrent.advance]
      split
      next => exact h
      next mine hheld =>
        have hmine : w.held tx r ≠ none := by
          rw [hheld]
          exact Option.some_ne_none mine
        apply h.hold w rfl rfl (fun _ hr => hr) (h.held_keys tx r hmine) (session_of_held hheld)
        exact .write hreaches hmine

theorem committed_advance (w : Concurrent τ κ σ ε α) (tx : τ) (call : κ) (rest : Script σ ε α) :
    (w.advance tx call rest).committed = w.committed := by
  cases rest with
  | done result => rfl
  | fail error => rfl
  | look query next => rfl
  | select r next =>
      simp only [Concurrent.advance]
      split
      · rfl
      · split
        · rfl
        · exact committed_hold w tx r _
  | insertNew r row next =>
      simp only [Concurrent.advance]
      split
      · rfl
      · split
        · rfl
        · exact committed_hold (w.enter r) tx r _
  | write r row next =>
      simp only [Concurrent.advance]
      split
      · rfl
      · exact committed_hold w tx r _

/-- What calls do to the committed rows, which were once `base`:
`Q call before result after`. -/
structure Describes (S : Schema σ) (base : Rows σ)
    (Q : κ → Rows σ → α → Rows σ → Prop) (body : κ → Script σ ε α) : Prop where
  post : ∀ call rows, Older S base rows →
    (body call).Post S (fun result _ after => Q call rows result after) (present base) rows

/-- What calls do that commit on these rows: `P call result after`. -/
def DescribesAt (S : Schema σ) (base rows : Rows σ) (P : κ → α → Rows σ → Prop)
    (body : κ → Script σ ε α) : Prop :=
  ∀ call, (body call).Post S (fun result _ after => P call result after) (present base) rows

variable {Q : κ → Rows σ → α → Rows σ → Prop} {P : κ → α → Rows σ → Prop}

omit [DecidableEq τ] in
theorem Describes.at (hbody : Describes S base Q body) {rows : Rows σ} (hrows : Older S base rows) :
    DescribesAt S base rows (fun call => Q call rows) body :=
  fun call => hbody.post call rows hrows

/-- What a commit makes visible goes along `le`. -/
theorem Sound.older_at (h : w.Sound S base body) (hbody : DescribesAt S base w.committed P body)
    (hrunning : w.running tx = some (call, rest)) : Older S w.committed (w.view tx) := by
  obtain ⟨known, hreaches⟩ := h.reaches tx call rest hrunning
  exact hreaches.older (hbody call)

theorem Sound.older (h : w.Sound S base body) (hbody : Describes S base Q body)
    (hrunning : w.running tx = some (call, rest)) : Older S w.committed (w.view tx) :=
  h.older_at (hbody.at h.base_older) hrunning

/-- A transaction sees rows whose foreign keys refer to rows. -/
theorem Sound.view_closed (h : w.Sound S base body)
    (hbody : DescribesAt S base w.committed P body)
    (hrunning : w.running tx = some (call, rest)) : Closed S (w.view tx) := by
  obtain ⟨known, hreaches⟩ := h.reaches tx call rest hrunning
  exact hreaches.closed h.base_older.present_subset h.closed (hbody call)

/-- A transaction that ends lets go of its rows. -/
theorem Sound.finish (h : w.Sound S base body) (tx : τ)
    (hbody : DescribesAt S base w.committed P body) {w' : Concurrent τ κ σ ε α} (hcommitted : w'.committed = w.committed ∨
      w'.committed = w.view tx ∧ w.running tx ≠ none)
    (hrunning : w'.running = Function.update w.running tx none) (hkeys : w'.keys = w.keys)
    (hheld : ∀ other r, w'.held other r = if other = tx then none else w.held other r) :
    w'.Sound S base body := by
  constructor
  · rcases hcommitted with hcommitted | ⟨hcommitted, htx⟩
    · rw [hcommitted]
      exact h.base_older
    · obtain ⟨⟨call, rest⟩, htx⟩ := Option.ne_none_iff_exists'.mp htx
      rw [hcommitted]
      exact h.base_older.trans (h.older_at hbody htx)
  · rcases hcommitted with hcommitted | ⟨hcommitted, htx⟩
    · rw [hcommitted]
      exact h.closed
    · obtain ⟨⟨call, rest⟩, htx⟩ := Option.ne_none_iff_exists'.mp htx
      rw [hcommitted]
      exact h.view_closed hbody htx
  · intro other call rest hother
    rw [hrunning] at hother
    by_cases heq : other = tx
    · subst heq
      rw [Function.update_self] at hother
      cases hother
    · rw [Function.update_of_ne heq] at hother
      have hsame : w'.held other = w.held other := by
        funext r
        rw [hheld, if_neg heq]
      obtain ⟨known, hreaches⟩ := h.reaches other call rest hother
      rw [hsame]
      refine ⟨known, ?_⟩
      rcases hcommitted with hcommitted | ⟨hcommitted, htx⟩
      · rw [hcommitted]
        exact hreaches
      · rw [hcommitted]
        obtain ⟨⟨call', rest'⟩, htx⟩ := Option.ne_none_iff_exists'.mp htx
        -- a row that this transaction holds is not held by the one that commits
        apply hreaches.stable _ (h.older_at hbody htx)
        intro r hmine
        obtain ⟨row, hrow⟩ := Option.ne_none_iff_exists'.mp hmine
        rw [view, held_of_ne hrow (Ne.symm heq)]
        rfl
  · intro other hother
    funext r
    rw [hheld]
    split
    · rfl
    next hne =>
      rw [hrunning, Function.update_of_ne hne] at hother
      rw [h.idle other hother]
  · intro r hr
    rw [hkeys]
    rcases hcommitted with hcommitted | ⟨hcommitted, -⟩
    · rw [hcommitted] at hr
      exact h.committed_keys r hr
    · rw [hcommitted] at hr
      exact h.view_keys tx r hr
  · intro other r hr
    rw [hkeys]
    rw [hheld] at hr
    split at hr
    next => exact (hr rfl).elim
    next => exact h.held_keys other r hr

theorem Sound.step_at (h : w.Sound S base body) (hbody : DescribesAt S base w.committed P body)
    (move : Move τ κ) : (w.step body move).Sound S base body := by
  cases move with
  | start tx call =>
      simp only [Concurrent.step]
      split
      next hidle =>
        apply h.proceed rfl rfl (fun _ _ => rfl) (fun _ hr => hr) (h.held_keys tx)
        rw [h.idle tx hidle]
        exact .start
      next => exact h
  | next tx =>
      simp only [Concurrent.step]
      split
      next => exact h
      next call rest hrunning => exact h.advance (h.view_closed hbody hrunning) hrunning
  | commit tx =>
      simp only [Concurrent.step]
      split
      next call result hrunning =>
        apply h.finish tx hbody
        · right
          refine ⟨?_, by rw [hrunning]; exact Option.some_ne_none _⟩
          funext r
          exact RowLock.publish_committed _ _
        · rfl
        · rfl
        · exact fun other r => RowLock.heldBy_publish _ _ _
      next => exact h
  | rollback tx =>
      apply h.finish tx hbody
      · left
        funext r
        exact RowLock.release_committed _ _
      · rfl
      · rfl
      · exact fun other r => RowLock.heldBy_release _ _ _

theorem Sound.step (h : w.Sound S base body) (hbody : Describes S base Q body) (move : Move τ κ) :
    (w.step body move).Sound S base body :=
  h.step_at (hbody.at h.base_older) move

omit [DecidableEq τ] [DecidableEq ρ] in
theorem commits_eq_some {move : Move τ κ} {result : α}
    (hcommits : w.commits move = some (call, result)) :
    ∃ tx, move = .commit tx ∧ w.running tx = some (call, .done result) := by
  cases move with
  | commit tx =>
      simp only [commits] at hcommits
      split at hcommits
      next call' result' hrunning =>
        cases hcommits
        exact ⟨tx, rfl, hrunning⟩
      next => cases hcommits
  | start tx call => cases hcommits
  | next tx => cases hcommits
  | rollback tx => cases hcommits

/-- Whatever the interleaving, a commit acts on the committed rows as its call does. -/
theorem Sound.commits_acts_at (h : w.Sound S base body)
    (hbody : DescribesAt S base w.committed P body) {move : Move τ κ} {result : α}
    (hcommits : w.commits move = some (call, result)) :
    P call result (w.step body move).committed := by
  obtain ⟨tx, rfl, hrunning⟩ := commits_eq_some hcommits
  obtain ⟨known, hreaches⟩ := h.reaches tx call _ hrunning
  have hafter : (w.step body (.commit tx)).committed = w.view tx := by
    funext r
    simp only [Concurrent.step, hrunning, committed]
    exact RowLock.publish_committed _ _
  rw [hafter]
  exact hreaches.post (hbody call)

theorem Sound.commits_acts (h : w.Sound S base body) (hbody : Describes S base Q body)
    {move : Move τ κ} {result : α} (hcommits : w.commits move = some (call, result)) :
    Q call w.committed result (w.step body move).committed :=
  h.commits_acts_at (hbody.at h.base_older) hcommits

/-- Nothing but the commit of a call that returned changes the committed rows. -/
theorem committed_step_of_commits_eq_none (body : κ → Script σ ε α) {move : Move τ κ}
    (hcommits : w.commits move = none) : (w.step body move).committed = w.committed := by
  cases move with
  | start tx call =>
      simp only [Concurrent.step]
      split
      · rfl
      · rfl
  | next tx =>
      simp only [Concurrent.step]
      split
      · rfl
      · exact committed_advance w tx _ _
  | commit tx =>
      simp only [commits] at hcommits
      simp only [Concurrent.step]
      split
      next call result hrunning =>
        rw [hrunning] at hcommits
        cases hcommits
      next => rfl
  | rollback tx =>
      funext r
      exact RowLock.release_committed _ _

theorem sound_run {keys : List ρ} {rows : Rows σ} (hbody : Describes S rows Q body)
    (hrows : Consistent S keys rows) (moves : List (Move τ κ)) :
    (run (step body) (quiet keys rows) moves).Sound S rows body := by
  have hstep : ∀ (w : Concurrent τ κ σ ε α) (move : Move τ κ), True → w.Sound S rows body →
      (w.step body move).Sound S rows body :=
    fun w move _ h => h.step hbody move
  exact run_invariant hstep (sound_quiet body hrows) fun _ _ => trivial

/-- Every commit of a run acts on the rows committed then. -/
theorem commits_acts_of_mem_steps {keys : List ρ} {rows : Rows σ} (hbody : Describes S rows Q body)
    (hrows : Consistent S keys rows) {moves : List (Move τ κ)} {move : Move τ κ} {result : α}
    (hmem : (w, move) ∈ steps (step body) (quiet keys rows) moves)
    (hcommits : w.commits move = some (call, result)) :
    Q call w.committed result (w.step body move).committed := by
  obtain ⟨first, rest, -, rfl⟩ := exists_split_of_mem_steps (step body) hmem
  exact (sound_run hbody hrows first).commits_acts hbody hcommits

/-- A call does not raise what it would not raise on the rows committed now. -/
theorem Sound.spares (h : w.Sound S base body) {e error : ε}
    (hrunning : w.running tx = some (call, .fail error)) {Q : α → Set ρ → Rows σ → Prop}
    (hspares : (body call).Spares S e Q (present base) w.committed) : error ≠ e := by
  obtain ⟨known, hreaches⟩ := h.reaches tx call _ hrunning
  exact hreaches.spares hspares

/-- The calls in flight are admitted ones. -/
def Runs (admitted : κ → Prop) (w : Concurrent τ κ σ ε α) : Prop :=
  ∀ tx call rest, w.running tx = some (call, rest) → admitted call

/-- A move that starts an admitted call, if it starts one. -/
def Admits (admitted : κ → Prop) : Move τ κ → Prop
  | .start _ call => admitted call
  | _ => True

omit [DecidableEq τ] [DecidableEq ρ] in
theorem admits_of_forall {admitted : κ → Prop} (h : ∀ call, admitted call) (move : Move τ κ) :
    Admits admitted move := by
  cases move with
  | start tx call => exact h call
  | _ => trivial

instance (admitted : κ → Prop) [DecidablePred admitted] (move : Move τ κ) :
    Decidable (Admits admitted move) :=
  match move with
  | .start _ call => inferInstanceAs (Decidable (admitted call))
  | .next _ => .isTrue trivial
  | .commit _ => .isTrue trivial
  | .rollback _ => .isTrue trivial

theorem running_advance (w : Concurrent τ κ σ ε α) (tx : τ) (call : κ) (rest : Script σ ε α)
    (hrunning : w.running tx = some (call, rest)) (other : τ) :
    ((w.advance tx call rest).running other).map Prod.fst = (w.running other).map Prod.fst := by
  have hproceed : ∀ (w' : Concurrent τ κ σ ε α) (rest' : Script σ ε α), w'.running = w.running →
      ((w'.proceed tx call rest').running other).map Prod.fst =
        (w.running other).map Prod.fst := by
    intro w' rest' hsame
    by_cases hother : other = tx
    · subst hother
      rw [running_proceed_self, hrunning]
      rfl
    · rw [running_proceed_of_ne hother, hsame]
  cases rest with
  | done result => rfl
  | fail error => rfl
  | look query next => exact hproceed w _ rfl
  | select r next =>
      simp only [Concurrent.advance]
      split
      · exact hproceed w _ rfl
      · split
        · rfl
        · exact hproceed (w.hold tx r _) _ rfl
  | insertNew r row next =>
      simp only [Concurrent.advance]
      split
      · exact hproceed w _ rfl
      · split
        · rfl
        · exact hproceed ((w.enter r).hold tx r _) _ rfl
  | write r row next =>
      simp only [Concurrent.advance]
      split
      · rfl
      · exact hproceed (w.hold tx r _) _ rfl

theorem Runs.step {admitted : κ → Prop} (h : w.Runs admitted) (body : κ → Script σ ε α)
    {move : Move τ κ} (hmove : Admits admitted move) : (w.step body move).Runs admitted := by
  have hended : ∀ tx other call rest, Function.update w.running tx none other = some (call, rest) →
      admitted call := by
    intro tx other call rest hrunning
    by_cases hother : other = tx
    · subst hother
      simp at hrunning
    · rw [Function.update_of_ne hother] at hrunning
      exact h other call rest hrunning
  cases move with
  | start tx call =>
      simp only [Concurrent.step]
      split
      next =>
        intro other call' rest' hrunning
        by_cases hother : other = tx
        · subst hother
          rw [running_proceed_self] at hrunning
          cases hrunning
          exact hmove
        · rw [running_proceed_of_ne hother] at hrunning
          exact h other call' rest' hrunning
      next => exact h
  | next tx =>
      simp only [Concurrent.step]
      split
      next => exact h
      next call rest htx =>
        intro other call' rest' hrunning
        have hsame := running_advance w tx call rest htx other
        rw [hrunning, Option.map_some, eq_comm, Option.map_eq_some_iff] at hsame
        obtain ⟨⟨before, remaining⟩, hbefore, hcall⟩ := hsame
        change before = call' at hcall
        exact hcall ▸ h other before remaining hbefore
  | commit tx =>
      simp only [Concurrent.step]
      split
      next => exact hended tx
      next => exact h
  | rollback tx => exact hended tx

omit [DecidableEq τ] [DecidableEq ρ] in
theorem Runs.of_commits {admitted : κ → Prop} (h : w.Runs admitted) {move : Move τ κ} {result : α}
    (hcommits : w.commits move = some (call, result)) : admitted call := by
  obtain ⟨tx, rfl, hrunning⟩ := commits_eq_some hcommits
  exact h tx call _ hrunning

omit [DecidableEq τ] [DecidableEq ρ] in
theorem runs_quiet (admitted : κ → Prop) (keys : List ρ) (rows : Rows σ) :
    (quiet keys rows : Concurrent τ κ σ ε α).Runs admitted :=
  fun _ _ _ hrunning => (Option.some_ne_none _ hrunning.symm).elim

/-- The calls of a run are those that its moves start. -/
theorem runs_run {admitted : κ → Prop} (body : κ → Script σ ε α) (keys : List ρ) (rows : Rows σ)
    {moves : List (Move τ κ)} (hmoves : ∀ move ∈ moves, Admits admitted move) :
    (run (step body) (quiet keys rows) moves).Runs admitted := by
  have hstep : ∀ (w : Concurrent τ κ σ ε α) (move : Move τ κ), Admits admitted move →
      w.Runs admitted → (w.step body move).Runs admitted :=
    fun w move hmove h => h.step body hmove
  exact run_invariant hstep (runs_quiet admitted keys rows) hmoves

/-- An invariant that every admitted call keeps is kept by every step. -/
theorem Sound.invariant_step (h : w.Sound S base body) (hbody : Describes S base Q body)
    {admitted : κ → Prop} {inv : Rows σ → Prop} (hruns : w.Runs admitted)
    (hkeep : ∀ call before result after, admitted call → Older S base before →
      Q call before result after → inv before → inv after)
    (hinv : inv w.committed) (move : Move τ κ) : inv (w.step body move).committed := by
  cases hcommits : w.commits move with
  | none =>
      rw [committed_step_of_commits_eq_none body hcommits]
      exact hinv
  | some taken =>
      exact hkeep _ _ _ _ (hruns.of_commits hcommits) h.base_older (h.commits_acts hbody hcommits)
        hinv

/-- An invariant that every admitted call keeps is kept by any interleaving. -/
theorem Sound.invariant_run (h : w.Sound S base body) (hbody : Describes S base Q body)
    {admitted : κ → Prop} {inv : Rows σ → Prop} (hruns : w.Runs admitted)
    (hkeep : ∀ call before result after, admitted call → Older S base before →
      Q call before result after → inv before → inv after)
    (hinv : inv w.committed) {moves : List (Move τ κ)}
    (hmoves : ∀ move ∈ moves, Admits admitted move) :
    inv (run (Concurrent.step body) w moves).committed := by
  have hstep : ∀ (w : Concurrent τ κ σ ε α) (move : Move τ κ), Admits admitted move →
      w.Sound S base body ∧ w.Runs admitted ∧ inv w.committed →
      (w.step body move).Sound S base body ∧ (w.step body move).Runs admitted ∧
        inv (w.step body move).committed :=
    fun w move hmove ⟨hsound, hruns, hinv⟩ => ⟨hsound.step hbody move, hruns.step body hmove,
      hsound.invariant_step hbody hruns hkeep hinv move⟩
  exact (run_invariant hstep ⟨h, hruns, hinv⟩ hmoves).2.2

/-- An invariant that every call keeps holds of the committed rows after any
interleaving. -/
theorem committed_run {keys : List ρ} {rows : Rows σ} (hbody : Describes S rows Q body)
    {inv : Rows σ → Prop}
    (hkeep : ∀ call before result after, Older S rows before → Q call before result after →
      inv before → inv after)
    (hrows : Consistent S keys rows) (hinv : inv rows) (moves : List (Move τ κ)) :
    inv (run (step body) (quiet keys rows : Concurrent τ κ σ ε α) moves).committed := by
  exact (sound_quiet body hrows).invariant_run hbody (runs_quiet (fun _ => True) keys rows)
    (fun call before result after _ => hkeep call before result after) hinv
    fun move _ => admits_of_forall (fun _ => trivial) move

/-- The calls that committed, in this order, each with the committed rows it met. -/
def history (body : κ → Script σ ε α) (w : Concurrent τ κ σ ε α) (moves : List (Move τ κ)) :
    List (κ × Rows σ) :=
  (steps (step body) w moves).filterMap fun taken =>
    (taken.1.commits taken.2).map fun done => (done.1, taken.1.committed)

theorem history_append_singleton (body : κ → Script σ ε α) (w : Concurrent τ κ σ ε α)
    (moves : List (Move τ κ)) (move : Move τ κ) :
    history body w (moves ++ [move]) = history body w moves ++
      (((run (step body) w moves).commits move).map fun done =>
        (done.1, (run (step body) w moves).committed)).toList := by
  rw [history, steps_append, List.filterMap_append, history, steps_cons, steps_nil]
  cases hcommits : (run (step body) w moves).commits move with
  | none => simp [hcommits]
  | some done => simp [hcommits]

/-- An invariant of the committed rows and of the calls that made them: every call
keeps it when it joins them. -/
theorem committed_history {keys : List ρ} {rows : Rows σ} (hbody : Describes S rows Q body)
    {inv : List (κ × Rows σ) → Rows σ → Prop}
    (hkeep : ∀ past call before result after, Q call before result after → inv past before →
      inv (past ++ [(call, before)]) after)
    (hrows : Consistent S keys rows) (hinv : inv [] rows) (moves : List (Move τ κ)) :
    inv (history body (quiet keys rows : Concurrent τ κ σ ε α) moves)
      (run (step body) (quiet keys rows : Concurrent τ κ σ ε α) moves).committed := by
  induction moves using List.reverseRecOn with
  | nil => exact hinv
  | append_singleton moves move ih =>
      have hsound := sound_run hbody hrows moves
      rw [history_append_singleton, run_append, run_cons, run_nil]
      cases hcommits : Concurrent.commits (run (step body) (quiet keys rows) moves) move with
      | none =>
          rw [committed_step_of_commits_eq_none body hcommits, Option.map_none, Option.toList_none,
            List.append_nil]
          exact ih
      | some done =>
          rcases done with ⟨call, result⟩
          rw [Option.map_some, Option.toList_some]
          exact hkeep _ _ _ _ _ (hsound.commits_acts hbody hcommits) ih

/-- The calls that committed, in this order, each with its result. -/
def returned (body : κ → Script σ ε α) (w : Concurrent τ κ σ ε α) (moves : List (Move τ κ)) :
    List (κ × α) :=
  (steps (step body) w moves).filterMap fun taken => taken.1.commits taken.2

theorem returned_append (body : κ → Script σ ε α) (w : Concurrent τ κ σ ε α)
    (moves rest : List (Move τ κ)) :
    returned body w (moves ++ rest) =
      returned body w moves ++ returned body (run (step body) w moves) rest := by
  rw [returned, steps_append, List.filterMap_append, returned, returned]

/-- Only calls that were started return. -/
theorem admitted_returned {admitted : κ → Prop} {keys : List ρ} {rows : Rows σ}
    {moves : List (Move τ κ)} (hmoves : ∀ move ∈ moves, Admits admitted move) :
    ∀ taken ∈ returned body (quiet keys rows) moves, admitted taken.1 := by
  intro taken htaken
  obtain ⟨⟨w, move⟩, hmem, hcommits⟩ := List.mem_filterMap.mp htaken
  obtain ⟨first, rest, rfl, rfl⟩ := exists_split_of_mem_steps _ hmem
  exact (runs_run body keys rows fun move hmove =>
    hmoves move (List.mem_append_left _ hmove)).of_commits hcommits

/-- An invariant of the committed rows and of the calls that returned. -/
theorem committed_returned {keys : List ρ} {rows : Rows σ} (hbody : Describes S rows Q body)
    {inv : List (κ × α) → Rows σ → Prop}
    (hkeep : ∀ past call before result after, Q call before result after → inv past before →
      inv (past ++ [(call, result)]) after)
    (hrows : Consistent S keys rows) (hinv : inv [] rows) (moves : List (Move τ κ)) :
    inv (returned body (quiet keys rows : Concurrent τ κ σ ε α) moves)
      (run (step body) (quiet keys rows : Concurrent τ κ σ ε α) moves).committed := by
  induction moves using List.reverseRecOn with
  | nil => exact hinv
  | append_singleton moves move ih =>
      have hsound := sound_run hbody hrows moves
      rw [returned_append, run_append, run_cons, run_nil]
      cases hcommits : Concurrent.commits (run (step body) (quiet keys rows) moves) move with
      | none =>
          rw [committed_step_of_commits_eq_none body hcommits]
          simpa [returned, hcommits] using ih
      | some done =>
          rcases done with ⟨call, result⟩
          simpa [returned, hcommits] using
            hkeep _ _ _ _ _ (hsound.commits_acts hbody hcommits) ih

/-- What a step adds to an account, when each committed call adds `delta`. -/
def added {M : Type} [Zero M] (body : κ → Script σ ε α) (delta : κ → Rows σ → Rows σ → M)
    (taken : Concurrent τ κ σ ε α × Move τ κ) : M :=
  match taken.1.commits taken.2 with
  | none => 0
  | some (call, _) => delta call taken.1.committed (taken.1.step body taken.2).committed

/-- Accounting: a measure of the committed rows that every call moves by its
`delta` is moved by an interleaving as the committed calls say. -/
theorem committed_accounts {M : Type} [AddCommMonoid M] {keys : List ρ} {rows : Rows σ}
    (hbody : Describes S rows Q body) {inv : Rows σ → Prop}
    (hkeep : ∀ call before result after, Older S rows before → Q call before result after →
      inv before → inv after)
    (measure : Rows σ → M) (delta : κ → Rows σ → Rows σ → M)
    (hdelta : ∀ call before result after, Older S rows before → Q call before result after →
      inv before → measure after = measure before + delta call before after)
    (hrows : Consistent S keys rows) (hinv : inv rows) (moves : List (Move τ κ)) :
    measure (run (step body) (quiet keys rows) moves).committed =
      measure rows + ((steps (step body) (quiet keys rows : Concurrent τ κ σ ε α) moves).map
        (added body delta)).sum := by
  have hstep : ∀ (w : Concurrent τ κ σ ε α) (move : Move τ κ), True →
      w.Sound S rows body ∧ inv w.committed →
      (w.step body move).Sound S rows body ∧ inv (w.step body move).committed :=
    fun w move _ ⟨hsound, hinv⟩ =>
      have hruns : w.Runs fun _ => True := fun _ _ _ _ => trivial
      ⟨hsound.step hbody move, hsound.invariant_step hbody hruns
        (fun call before result after _ => hkeep call before result after) hinv move⟩
  have hmeasure : ∀ (w : Concurrent τ κ σ ε α) (move : Move τ κ), True →
      w.Sound S rows body ∧ inv w.committed →
      measure (w.step body move).committed = measure w.committed + added body delta (w, move) := by
    intro w move _ ⟨hsound, hinv⟩
    unfold added
    cases hcommits : w.commits move with
    | none => simp only [committed_step_of_commits_eq_none body hcommits, add_zero]
    | some taken =>
        exact hdelta _ _ _ _ hsound.base_older (hsound.commits_acts hbody hcommits) hinv
  exact run_accounts (fun w : Concurrent τ κ σ ε α => measure w.committed)
    (fun w move => added body delta (w, move)) hstep hmeasure
    ⟨sound_quiet body hrows, hinv⟩ fun _ _ => trivial

end Concurrent

end Relational
