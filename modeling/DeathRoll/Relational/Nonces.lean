import Mathlib.Data.List.Basic
import Mathlib.Logic.Function.Basic
import Mathlib.Tactic.Ring

/-! # Numbers used once under a key

Every owner has a key in use and a counter. A draw takes the counter's number
under the key and advances it; a renewal retires the key, saying where its
counter stood, and starts another key at zero. A log of draws and renewals that
can be replayed numbers the draws of an owner between two renewals without gap
or repetition, and when no key is ever introduced twice, no key is used twice
with one number by anybody.
-/

namespace Relational

inductive NonceEvent (ι κ : Type*) where
  | draw (owner : ι) (key : κ) (nonce : Int)
  | renew (owner : ι) (old : Option (κ × Int)) (key : κ)

namespace NonceEvent

variable {ι κ : Type*}

/-- The number drawn, under its key. -/
def drawn : NonceEvent ι κ → Option (κ × Int)
  | .draw _ key nonce => some (key, nonce)
  | .renew .. => none

/-- The key introduced. -/
def introduced : NonceEvent ι κ → Option κ
  | .draw .. => none
  | .renew _ _ key => some key

/-- The key retired. -/
def retired : NonceEvent ι κ → Option κ
  | .draw .. => none
  | .renew _ old _ => old.map Prod.fst

/-- The number drawn by one owner. -/
def drawnBy [DecidableEq ι] (owner : ι) : NonceEvent ι κ → Option (κ × Int)
  | .draw other key nonce => if other = owner then some (key, nonce) else none
  | .renew .. => none

/-- The event renews the key of this owner. -/
def Renews (owner : ι) : NonceEvent ι κ → Prop
  | .draw .. => False
  | .renew other _ _ => other = owner

theorem filterMap_retired_renew (owner : ι) (old : Option (κ × Int)) (key : κ)
    (rest : List (NonceEvent ι κ)) :
    (renew owner old key :: rest).filterMap retired =
      (old.map Prod.fst).toList ++ rest.filterMap retired := by
  cases old <;> rfl

end NonceEvent

variable {ι κ : Type*} [DecidableEq ι]

theorem update_eq_some {α : Type*} {cells : ι → Option α} {owner other : ι} {x y : α}
    (h : Function.update cells owner (some x) other = some y) :
    other = owner ∧ x = y ∨ other ≠ owner ∧ cells other = some y := by
  rw [Function.update_apply] at h
  split at h
  next heq => exact .inl ⟨heq, Option.some.inj h⟩
  next hne => exact .inr ⟨hne, h⟩

/-- The log can be replayed from the keys and counters `first`, and leads to `last`. -/
inductive Replays : (ι → Option (κ × Int)) → List (NonceEvent ι κ) →
    (ι → Option (κ × Int)) → Prop
  | nil (cells : ι → Option (κ × Int)) : Replays cells [] cells
  | draw {cells last : ι → Option (κ × Int)} {rest : List (NonceEvent ι κ)} {owner : ι} {key : κ}
      {nonce : Int} (hcell : cells owner = some (key, nonce))
      (hrest : Replays (Function.update cells owner (some (key, nonce + 1))) rest last) :
      Replays cells (.draw owner key nonce :: rest) last
  | renew {cells last : ι → Option (κ × Int)} {rest : List (NonceEvent ι κ)} {owner : ι}
      {key : κ} (hrest : Replays (Function.update cells owner (some (key, 0))) rest last) :
      Replays cells (.renew owner (cells owner) key :: rest) last

namespace Replays

variable {first last : ι → Option (κ × Int)} {log before after : List (NonceEvent ι κ)}
  {owner : ι} {key : κ} {nonce : Int}

theorem append {middle : ι → Option (κ × Int)} (hbefore : Replays first before middle)
    (hafter : Replays middle after last) : Replays first (before ++ after) last := by
  induction hbefore with
  | nil => exact hafter
  | draw hcell _ ih => exact .draw hcell (ih hafter)
  | renew _ ih => exact .renew (ih hafter)

theorem split (h : Replays first (before ++ after) last) :
    ∃ middle, Replays first before middle ∧ Replays middle after last := by
  induction before generalizing first with
  | nil => exact ⟨first, .nil first, h⟩
  | cons event rest ih =>
      cases h with
      | draw hcell hrest =>
          obtain ⟨middle, hbefore, hafter⟩ := ih hrest
          exact ⟨middle, .draw hcell hbefore, hafter⟩
      | renew hrest =>
          obtain ⟨middle, hbefore, hafter⟩ := ih hrest
          exact ⟨middle, .renew hbefore, hafter⟩

/-- While an owner's key is not renewed its draws are numbered on from the counter. -/
theorem segment (h : Replays first log last) (hcell : first owner = some (key, nonce))
    (hkeeps : ∀ event ∈ log, ¬ event.Renews owner) :
    ∃ count : ℕ, last owner = some (key, nonce + count) ∧
      log.filterMap (NonceEvent.drawnBy owner) =
        (List.range count).map fun k : ℕ => (key, nonce + (k : Int)) := by
  induction h generalizing nonce with
  | nil => exact ⟨0, by simpa using hcell, rfl⟩
  | @draw cells last rest other key' nonce' hother hrest ih =>
      have hrestkeeps : ∀ event ∈ rest, ¬ event.Renews owner :=
        fun event hevent => hkeeps event (List.mem_cons_of_mem _ hevent)
      by_cases howner : other = owner
      · subst howner
        rw [hcell, Option.some.injEq, Prod.mk.injEq] at hother
        obtain ⟨rfl, rfl⟩ := hother
        obtain ⟨count, hlast, hdraws⟩ := ih (Function.update_self ..) hrestkeeps
        refine ⟨count + 1, ?_, ?_⟩
        · rw [hlast]
          push_cast
          ring_nf
        · simp only [List.filterMap_cons, NonceEvent.drawnBy, ↓reduceIte, hdraws,
            List.range_succ_eq_map, List.map_cons, List.map_map]
          congr 1
          · simp
          · apply List.map_congr_left
            intro k _
            simp only [Function.comp_apply, Prod.mk.injEq, true_and]
            push_cast
            ring
      · have hsame : Function.update cells other (some (key', nonce' + 1)) owner =
            some (key, nonce) := by
          rw [Function.update_of_ne (Ne.symm howner), hcell]
        obtain ⟨count, hlast, hdraws⟩ := ih hsame hrestkeeps
        refine ⟨count, hlast, ?_⟩
        rw [List.filterMap_cons, NonceEvent.drawnBy, if_neg howner]
        exact hdraws
  | @renew cells last rest other key' hrest ih =>
      have hother : other ≠ owner := hkeeps _ List.mem_cons_self
      have hsame : Function.update cells other (some (key', 0)) owner = some (key, nonce) := by
        rw [Function.update_of_ne hother.symm, hcell]
      obtain ⟨count, hlast, hdraws⟩ :=
        ih hsame fun event hevent => hkeeps event (List.mem_cons_of_mem _ hevent)
      exact ⟨count, hlast, hdraws⟩

/-- Between two renewals of a key the draws of its owner have the numbers from
zero up to the counter that the second one retires. -/
theorem between {old old' : Option (κ × Int)} {key' : κ} {middle : List (NonceEvent ι κ)}
    (h : Replays first (before ++ .renew owner old key :: (middle ++
      .renew owner old' key' :: after)) last)
    (hkeeps : ∀ event ∈ middle, ¬ event.Renews owner) :
    ∃ count : ℕ, old' = some (key, (count : Int)) ∧
      middle.filterMap (NonceEvent.drawnBy owner) =
        (List.range count).map fun k : ℕ => (key, (k : Int)) := by
  obtain ⟨cells, -, hrenew⟩ := h.split
  cases hrenew with
  | renew hrest =>
      obtain ⟨cells', hmiddle, hnext⟩ := hrest.split
      obtain ⟨count, hlast, hdraws⟩ := hmiddle.segment (Function.update_self ..) hkeeps
      rw [zero_add] at hlast
      cases hnext
      exact ⟨count, hlast, by simpa using hdraws⟩

/-- A draw, and the next renewal of its owner: the key drawn under is the one
retired, and the number is below the counter retired with it. -/
theorem until_renewed {old : Option (κ × Int)} {key' : κ} {middle : List (NonceEvent ι κ)}
    (h : Replays first (before ++ .draw owner key nonce :: (middle ++
      .renew owner old key' :: after)) last)
    (hkeeps : ∀ event ∈ middle, ¬ event.Renews owner) :
    ∃ counter, old = some (key, counter) ∧ nonce < counter := by
  obtain ⟨cells, -, hdraw⟩ := h.split
  cases hdraw with
  | draw hcell hrest =>
      obtain ⟨cells', hmiddle, hnext⟩ := hrest.split
      obtain ⟨count, hlast, -⟩ := hmiddle.segment (Function.update_self ..) hkeeps
      cases hnext
      exact ⟨nonce + 1 + count, hlast, by omega⟩

/-- What the owners have in use: nobody shares a key, and none of the keys that
will be introduced is among them. -/
structure Separate (cells : ι → Option (κ × Int)) (log : List (NonceEvent ι κ)) : Prop where
  nodup : (log.filterMap NonceEvent.introduced).Nodup
  new : ∀ owner key nonce, cells owner = some (key, nonce) →
    key ∉ log.filterMap NonceEvent.introduced
  injective : ∀ owner owner' key nonce nonce', cells owner = some (key, nonce) →
    cells owner' = some (key, nonce') → owner = owner'

theorem Separate.draw {cells : ι → Option (κ × Int)} {rest : List (NonceEvent ι κ)}
    (h : Separate cells (.draw owner key nonce :: rest)) (hcell : cells owner = some (key, nonce)) :
    Separate (Function.update cells owner (some (key, nonce + 1))) rest := by
  have hcells : ∀ other key' nonce',
      Function.update cells owner (some (key, nonce + 1)) other = some (key', nonce') →
      ∃ nonce'', cells other = some (key', nonce'') := by
    intro other key' nonce' hother
    rcases update_eq_some hother with ⟨howner, heq⟩ | ⟨-, hbefore⟩
    · cases heq
      exact ⟨nonce, howner ▸ hcell⟩
    · exact ⟨nonce', hbefore⟩
  refine ⟨h.nodup, fun other key' nonce' hother => ?_, fun other other' key' m m' hm hm' => ?_⟩
  · obtain ⟨nonce'', hbefore⟩ := hcells _ _ _ hother
    exact h.new _ _ _ hbefore
  · obtain ⟨_, hbefore⟩ := hcells _ _ _ hm
    obtain ⟨_, hbefore'⟩ := hcells _ _ _ hm'
    exact h.injective _ _ _ _ _ hbefore hbefore'

theorem Separate.renew {cells : ι → Option (κ × Int)} {rest : List (NonceEvent ι κ)}
    {old : Option (κ × Int)} (h : Separate cells (.renew owner old key :: rest)) :
    Separate (Function.update cells owner (some (key, 0))) rest := by
  have hnodup : key ∉ rest.filterMap NonceEvent.introduced ∧
      (rest.filterMap NonceEvent.introduced).Nodup := List.nodup_cons.mp h.nodup
  have hcells : ∀ other key' nonce',
      Function.update cells owner (some (key, 0)) other = some (key', nonce') →
      other = owner ∧ key' = key ∨ other ≠ owner ∧ cells other = some (key', nonce') := by
    intro other key' nonce' hother
    rcases update_eq_some hother with ⟨howner, heq⟩ | hbefore
    · cases heq
      exact .inl ⟨howner, rfl⟩
    · exact .inr hbefore
  have hother : ∀ other key' nonce', cells other = some (key', nonce') →
      key' ∉ key :: rest.filterMap NonceEvent.introduced := h.new
  refine ⟨hnodup.2, fun other key' nonce' hmem => ?_, fun other other' key' m m' hm hm' => ?_⟩
  · rcases hcells _ _ _ hmem with ⟨-, rfl⟩ | ⟨-, hbefore⟩
    · exact hnodup.1
    · exact fun hlater => hother _ _ _ hbefore (List.mem_cons_of_mem _ hlater)
  · rcases hcells _ _ _ hm with ⟨howner, hkey⟩ | ⟨-, hbefore⟩
    · rcases hcells _ _ _ hm' with ⟨howner', -⟩ | ⟨-, hbefore'⟩
      · rw [howner, howner']
      · exact absurd (hkey ▸ List.mem_cons_self) (hother _ _ _ hbefore')
    · rcases hcells _ _ _ hm' with ⟨-, hkey⟩ | ⟨-, hbefore'⟩
      · exact absurd (hkey ▸ List.mem_cons_self) (hother _ _ _ hbefore)
      · exact h.injective _ _ _ _ _ hbefore hbefore'

/-- A key and number drawn are not yet used up: the key is in use with a counter
that is not past the number, or is still to be introduced. -/
theorem mem_drawn (h : Replays first log last) {pair : κ × Int}
    (hpair : pair ∈ log.filterMap NonceEvent.drawn) :
    (∃ owner nonce, first owner = some (pair.1, nonce) ∧ nonce ≤ pair.2) ∨
      pair.1 ∈ log.filterMap NonceEvent.introduced := by
  induction h with
  | nil => simp at hpair
  | @draw cells last rest owner key nonce hcell hrest ih =>
      have hcons : pair = (key, nonce) ∨ pair ∈ rest.filterMap NonceEvent.drawn :=
        List.mem_cons.mp hpair
      rcases hcons with rfl | hlater
      · exact .inl ⟨owner, nonce, hcell, le_rfl⟩
      · rcases ih hlater with ⟨other, nonce', hother, hle⟩ | hnew
        · rcases update_eq_some hother with ⟨-, heq⟩ | ⟨-, hbefore⟩
          · obtain ⟨hkey, rfl⟩ := Prod.mk.inj heq
            exact .inl ⟨owner, nonce, by rw [hcell, hkey], by omega⟩
          · exact .inl ⟨other, nonce', hbefore, hle⟩
        · exact .inr hnew
  | @renew cells last rest owner key hrest ih =>
      rcases ih hpair with ⟨other, nonce', hother, hle⟩ | hnew
      · rcases update_eq_some hother with ⟨-, heq⟩ | ⟨-, hbefore⟩
        · have hkey := (Prod.mk.inj heq).1
          exact .inr (hkey ▸ List.mem_cons_self)
        · exact .inl ⟨other, nonce', hbefore, hle⟩
      · exact .inr (List.mem_cons_of_mem _ hnew)

/-- No key is used twice with one number. -/
theorem drawn_nodup (h : Replays first log last) (hseparate : Separate first log) :
    (log.filterMap NonceEvent.drawn).Nodup := by
  induction h with
  | nil => exact List.nodup_nil
  | @draw cells last rest owner key nonce hcell hrest ih =>
      have hrestseparate := hseparate.draw hcell
      refine List.nodup_cons.mpr ⟨fun hmem => ?_, ih hrestseparate⟩
      rcases hrest.mem_drawn hmem with ⟨other, nonce', hother, hle⟩ | hnew
      · have hsame := hrestseparate.injective _ _ _ _ _ hother (Function.update_self ..)
        subst hsame
        rw [Function.update_self] at hother
        cases hother
        dsimp only at hle
        omega
      · exact hseparate.new _ _ _ hcell hnew
  | renew _ ih => exact ih hseparate.renew

/-- A key retired was in use, or is still to be introduced. -/
theorem mem_retired (h : Replays first log last) {key : κ}
    (hkey : key ∈ log.filterMap NonceEvent.retired) :
    (∃ owner nonce, first owner = some (key, nonce)) ∨
      key ∈ log.filterMap NonceEvent.introduced := by
  induction h with
  | nil => simp at hkey
  | @draw cells last rest owner key' nonce hcell hrest ih =>
      rcases ih hkey with ⟨other, nonce', hother⟩ | hnew
      · rcases update_eq_some hother with ⟨-, heq⟩ | ⟨-, hbefore⟩
        · have hsame := (Prod.mk.inj heq).1
          exact .inl ⟨owner, nonce, by rw [hcell, hsame]⟩
        · exact .inl ⟨other, nonce', hbefore⟩
      · exact .inr hnew
  | @renew cells last rest owner key' hrest ih =>
      rw [NonceEvent.filterMap_retired_renew, List.mem_append, Option.mem_toList,
        Option.map_eq_some_iff] at hkey
      rcases hkey with ⟨cell, hcell, rfl⟩ | hlater
      · exact .inl ⟨owner, cell.2, hcell⟩
      · rcases ih hlater with ⟨other, nonce', hother⟩ | hnew
        · rcases update_eq_some hother with ⟨-, heq⟩ | ⟨-, hbefore⟩
          · have hsame := (Prod.mk.inj heq).1
            exact .inr (hsame ▸ List.mem_cons_self)
          · exact .inl ⟨other, nonce', hbefore⟩
        · exact .inr (List.mem_cons_of_mem _ hnew)

/-- No key is retired twice. -/
theorem retired_nodup (h : Replays first log last) (hseparate : Separate first log) :
    (log.filterMap NonceEvent.retired).Nodup := by
  induction h with
  | nil => exact List.nodup_nil
  | draw hcell _ ih => exact ih (hseparate.draw hcell)
  | @renew cells last rest owner key hrest ih =>
      have hnodup := ih hseparate.renew
      rw [NonceEvent.filterMap_retired_renew]
      cases hcell : cells owner with
      | none => exact hnodup
      | some cell =>
          refine List.nodup_cons.mpr ⟨fun hmem => ?_, hnodup⟩
          have hretired := hseparate.new owner cell.1 cell.2 hcell
          rcases hrest.mem_retired hmem with ⟨other, nonce, hother⟩ | hnew
          · rcases update_eq_some hother with ⟨-, heq⟩ | ⟨hne, hbefore⟩
            · have hsame := (Prod.mk.inj heq).1
              exact hretired (hsame ▸ List.mem_cons_self)
            · exact hne (hseparate.injective _ _ _ _ _ hbefore hcell)
          · exact hretired (List.mem_cons_of_mem _ hnew)

end Replays

end Relational
