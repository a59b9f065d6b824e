import DeathRoll.Relational.Run
import Mathlib.Data.List.Induction
import Mathlib.Logic.Function.Basic

/-! # Rows that are marked as deleted

A map kept in rows that are never removed: dropping a key marks its row, and putting the
key again clears the mark. The revival does not write the value, so a row keeps what its
key was first put with.
-/

namespace Relational

variable {κ ν : Type*} [DecidableEq κ]

/-- A call on a map. -/
inductive MapCall (κ ν : Type*) where
  | put (key : κ) (value : ν)
  | drop (key : κ)
deriving DecidableEq

/-- The map after a call. -/
def MapCall.apply (m : κ → Option ν) : MapCall κ ν → κ → Option ν
  | .put key value => Function.update m key (some value)
  | .drop key => Function.update m key none

/-- What the calls make of the empty map. -/
def folded (calls : List (MapCall κ ν)) : κ → Option ν := run MapCall.apply (fun _ => none) calls

/-- The value a key was first put with. -/
def firstPut (calls : List (MapCall κ ν)) (key : κ) : Option ν :=
  calls.findSome? fun
    | .put k value => if k = key then some value else none
    | .drop _ => none

/-- A row, with whether it is active. -/
structure MarkedRow (ν : Type*) where
  value : ν
  active : Bool
deriving DecidableEq

/-- A call on the rows: an upsert that sets the mark only, or an update of the mark. -/
def MapCall.mark (rows : κ → Option (MarkedRow ν)) : MapCall κ ν → κ → Option (MarkedRow ν)
  | .put key value =>
      Function.update rows key (some ⟨((rows key).map MarkedRow.value).getD value, true⟩)
  | .drop key => Function.update rows key ((rows key).map fun row => ⟨row.value, false⟩)

/-- The active rows as a map. -/
def activeRows (rows : κ → Option (MarkedRow ν)) (key : κ) : Option ν :=
  (rows key).bind fun row => if row.active then some row.value else none

variable {calls : List (MapCall κ ν)} {key : κ} {value : ν}

theorem folded_concat (calls : List (MapCall κ ν)) (call : MapCall κ ν) :
    folded (calls ++ [call]) = call.apply (folded calls) := by
  simp [folded, run_append]

/-- What is in the map was put. -/
theorem exists_firstPut (hfolded : folded calls key = some value) :
    ∃ first, firstPut calls key = some first := by
  induction calls using List.reverseRecOn generalizing value with
  | nil => cases hfolded
  | append_singleton calls call ih =>
      rw [folded_concat] at hfolded
      rw [firstPut, List.findSome?_append, ← firstPut]
      have hbefore : ∀ old, folded calls key = some old → ∃ first, (firstPut calls key).or
          (firstPut [call] key) = some first := by
        intro old hold
        obtain ⟨first, hfirst⟩ := ih hold
        exact ⟨first, by rw [hfirst]; rfl⟩
      cases call with
      | put k v =>
          by_cases heq : key = k
          · cases hfirst : firstPut calls key with
            | some first => exact ⟨first, rfl⟩
            | none => exact ⟨v, by simp [heq]⟩
          · exact hbefore value (by rwa [MapCall.apply, Function.update_of_ne heq] at hfolded)
      | drop k =>
          by_cases heq : key = k
          · simp [MapCall.apply, heq] at hfolded
          · exact hbefore value (by rwa [MapCall.apply, Function.update_of_ne heq] at hfolded)

/-- A row has the first value put under its key, and is active while the map has the key. -/
theorem run_mark (calls : List (MapCall κ ν)) (key : κ) :
    run MapCall.mark (fun _ => none) calls key =
      (firstPut calls key).map fun first => ⟨first, (folded calls key).isSome⟩ := by
  induction calls using List.reverseRecOn with
  | nil => rfl
  | append_singleton calls call ih =>
      rw [run_append, run_cons, run_nil, folded_concat, firstPut, List.findSome?_append,
        ← firstPut]
      cases call with
      | put k v =>
          by_cases heq : key = k
          · subst heq
            cases hfirst : firstPut calls key <;> simp [MapCall.mark, MapCall.apply, ih, hfirst]
          · have hne : k ≠ key := fun h => heq h.symm
            simp [MapCall.mark, MapCall.apply, Function.update_of_ne heq, ih, hne]
      | drop k =>
          by_cases heq : key = k
          · subst heq
            cases hfirst : firstPut calls key <;> simp [MapCall.mark, MapCall.apply, ih, hfirst]
          · simp [MapCall.mark, MapCall.apply, Function.update_of_ne heq, ih]

/-- The active rows are the map where the last put of a key repeats the first. -/
theorem activeRows_eq_some_iff :
    activeRows (run MapCall.mark (fun _ => none) calls) key = some value ↔
      folded calls key ≠ none ∧ firstPut calls key = some value := by
  rw [activeRows, run_mark]
  cases hfolded : folded calls key <;> cases hfirst : firstPut calls key <;> simp

theorem activeRows_ne_none_iff :
    activeRows (run MapCall.mark (fun _ => none) calls) key ≠ none ↔ folded calls key ≠ none := by
  constructor
  · intro hactive
    obtain ⟨value, hvalue⟩ := Option.ne_none_iff_exists'.mp hactive
    exact (activeRows_eq_some_iff.mp hvalue).1
  · intro hfolded
    obtain ⟨last, hlast⟩ := Option.ne_none_iff_exists'.mp hfolded
    obtain ⟨first, hfirst⟩ := exists_firstPut hlast
    rw [activeRows_eq_some_iff.mpr ⟨hfolded, hfirst⟩]
    exact Option.some_ne_none first

theorem activeRows_eq_folded_iff :
    activeRows (run MapCall.mark (fun _ => none) calls) = folded calls ↔
      ∀ key value, folded calls key = some value → firstPut calls key = some value := by
  constructor
  · intro hsame key value hlast
    exact (activeRows_eq_some_iff.mp ((congrFun hsame key).trans hlast)).2
  · intro hrepeats
    funext key
    cases hlast : folded calls key with
    | none =>
        by_contra hactive
        exact activeRows_ne_none_iff.mp hactive hlast
    | some value =>
        exact activeRows_eq_some_iff.mpr
          ⟨hlast ▸ Option.some_ne_none value, hrepeats key value hlast⟩

end Relational
