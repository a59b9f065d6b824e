import Mathlib.Data.List.Basic

/-! # Regular expressions with anchors

Patterns over any alphabet, with character classes and the two anchors. A pattern matches a
piece of a text in its place, since the anchors look at what is before and behind it. The
matcher lists what is left of the text behind every way to match.
-/

namespace Text

variable {α : Type}

inductive Regex (α : Type) where
  /-- One character of a class. -/
  | set (p : α → Bool)
  | seq (r q : Regex α)
  | alt (r q : Regex α)
  | star (r : Regex α)
  /-- `^`. -/
  | atStart
  /-- `$`: the end, or a last newline. -/
  | atEnd (newline : α)

/-- A piece of a text made of matching pieces, each in its place. -/
inductive Iterated (matching : List α → List α → List α → Prop) :
    List α → List α → List α → Prop
  | nil (before after : List α) : Iterated matching before [] after
  | cons {before first rest after : List α} (hfirst : matching before first (rest ++ after))
      (hrest : Iterated matching (before ++ first) rest after) :
      Iterated matching before (first ++ rest) after

/-- What is left after `f`, run up to `n` times. -/
def repeated (f : List α → List (List α)) : ℕ → List α → List (List α)
  | 0, text => [text]
  | n + 1, text => text :: (f text).flatMap (repeated f n)

namespace Regex

/-- A pattern matches what is taken of a text, between what is before and what is after. -/
def Matches : Regex α → List α → List α → List α → Prop
  | .set p, _, taken, _ => ∃ c, taken = [c] ∧ p c
  | .seq r q, before, taken, after =>
      ∃ u v, taken = u ++ v ∧ r.Matches before u (v ++ after) ∧ q.Matches (before ++ u) v after
  | .alt r q, before, taken, after => r.Matches before taken after ∨ q.Matches before taken after
  | .star r, before, taken, after => Iterated r.Matches before taken after
  | .atStart, before, taken, _ => taken = [] ∧ before = []
  | .atEnd newline, _, taken, after => taken = [] ∧ (after = [] ∨ after = [newline])

section Matches

variable {p : α → Bool} {r q : Regex α} {newline : α} {before taken after : List α}

@[simp] theorem matches_set :
    (Regex.set p).Matches before taken after ↔ ∃ c, taken = [c] ∧ p c := Iff.rfl

@[simp] theorem matches_seq :
    (Regex.seq r q).Matches before taken after ↔
      ∃ u v, taken = u ++ v ∧ r.Matches before u (v ++ after) ∧ q.Matches (before ++ u) v after :=
  Iff.rfl

@[simp] theorem matches_alt :
    (Regex.alt r q).Matches before taken after ↔
      r.Matches before taken after ∨ q.Matches before taken after := Iff.rfl

@[simp] theorem matches_atStart :
    (Regex.atStart : Regex α).Matches before taken after ↔ taken = [] ∧ before = [] := Iff.rfl

@[simp] theorem matches_atEnd :
    (Regex.atEnd newline).Matches before taken after ↔
      taken = [] ∧ (after = [] ∨ after = [newline]) := Iff.rfl

/-- Any number of characters of a class. -/
@[simp] theorem matches_star_set :
    (Regex.star (.set p)).Matches before taken after ↔ ∀ c ∈ taken, p c := by
  constructor
  · intro (hiterated : Iterated (Regex.set p).Matches before taken after)
    induction hiterated with
    | nil => simp
    | cons hfirst _ ih =>
        obtain ⟨c, rfl, hc⟩ := hfirst
        simpa using ⟨hc, ih⟩
  · intro hall
    induction taken generalizing before with
    | nil => exact .nil before after
    | cons c rest ih =>
        have hfirst : (Regex.set p).Matches before [c] (rest ++ after) :=
          ⟨c, rfl, hall c List.mem_cons_self⟩
        exact .cons hfirst (ih fun d hd => hall d (List.mem_cons_of_mem c hd))

end Matches

variable [DecidableEq α]

/-- What is left of a text behind every match at its front; `length` is that of the whole. -/
def rests (length : ℕ) : Regex α → List α → List (List α)
  | .set _, [] => []
  | .set p, c :: text => if p c then [text] else []
  | .seq r q, text => (r.rests length text).flatMap (q.rests length)
  | .alt r q, text => r.rests length text ++ q.rests length text
  | .star r, text => repeated (r.rests length) text.length text
  | .atStart, text => if text.length = length then [text] else []
  | .atEnd newline, text => if text = [] ∨ text = [newline] then [text] else []

/-- The pattern matches at the front of a text. -/
def matchesFront (r : Regex α) (text : List α) : Bool := !(r.rests text.length text).isEmpty

/-! ## The matcher finds every match -/

section Repeated

variable {f : List α → List (List α)} {matching : List α → List α → List α → Prop} {length : ℕ}

omit [DecidableEq α] in
theorem iterated_of_mem_repeated
    (hf : ∀ before text rest, length = before.length + text.length → rest ∈ f text →
      ∃ taken, text = taken ++ rest ∧ matching before taken rest)
    {n : ℕ} {before text rest : List α} (hlength : length = before.length + text.length)
    (hmem : rest ∈ repeated f n text) :
    ∃ taken, text = taken ++ rest ∧ Iterated matching before taken rest := by
  induction n generalizing before text with
  | zero =>
      rw [repeated, List.mem_singleton] at hmem
      exact ⟨[], hmem.symm, .nil before rest⟩
  | succ n ih =>
      rw [repeated, List.mem_cons, List.mem_flatMap] at hmem
      rcases hmem with rfl | ⟨middle, hmiddle, hmem⟩
      · exact ⟨[], rfl, .nil before rest⟩
      · obtain ⟨first, rfl, hfirst⟩ := hf before text middle hlength hmiddle
        rw [List.length_append] at hlength
        have hmiddleLength : length = (before ++ first).length + middle.length := by
          rw [List.length_append]
          omega
        obtain ⟨later, rfl, hlater⟩ := ih hmiddleLength hmem
        exact ⟨first ++ later, (List.append_assoc _ _ _).symm, .cons hfirst hlater⟩

omit [DecidableEq α] in
/-- Pieces that take nothing can be left out, so the length of the text bounds the rest. -/
theorem mem_repeated_of_iterated
    (hf : ∀ before taken rest, length = before.length + (taken ++ rest).length →
      matching before taken rest → rest ∈ f (taken ++ rest))
    {before taken rest : List α} (hiterated : Iterated matching before taken rest)
    (hlength : length = before.length + (taken ++ rest).length) {n : ℕ} (hn : taken.length ≤ n) :
    rest ∈ repeated f n (taken ++ rest) := by
  induction hiterated generalizing n with
  | nil before after =>
      cases n with
      | zero => exact List.mem_singleton_self after
      | succ n => exact List.mem_cons_self
  | @cons before first later after hfirst hlater ih =>
      simp only [List.length_append] at hlength ih hn
      cases first with
      | nil => exact ih (by simp at hlength ⊢; omega) (by simpa using hn)
      | cons c first =>
          cases n with
          | zero => simp at hn
          | succ n =>
              rw [repeated, List.mem_cons, List.mem_flatMap]
              refine .inr ⟨later ++ after, ?_, ih (by omega) (by simp at hn; omega)⟩
              rw [List.append_assoc]
              exact hf before _ _ (by simp only [List.length_append]; omega) hfirst

end Repeated

theorem mem_rests (r : Regex α) {before text rest : List α} {length : ℕ}
    (hlength : length = before.length + text.length) :
    rest ∈ r.rests length text ↔ ∃ taken, text = taken ++ rest ∧ r.Matches before taken rest := by
  induction r generalizing before text rest with
  | set p =>
      cases text with
      | nil => simp [rests, Matches]
      | cons c text =>
          by_cases hc : p c
          · simp only [rests, Matches, hc, if_true, List.mem_singleton]
            constructor
            · rintro rfl
              exact ⟨[c], rfl, c, rfl, hc⟩
            · rintro ⟨taken, htext, d, rfl, -⟩
              exact (List.cons.inj htext).2.symm
          · simp only [rests, Matches, hc, Bool.false_eq_true, if_false, List.not_mem_nil, false_iff]
            rintro ⟨taken, htext, d, rfl, hd⟩
            exact hc ((List.cons.inj htext).1 ▸ hd)
  | seq r q ihr ihq =>
      rw [rests, List.mem_flatMap]
      constructor
      · rintro ⟨middle, hmiddle, hrest⟩
        obtain ⟨u, rfl, hu⟩ := (ihr hlength).mp hmiddle
        rw [List.length_append] at hlength
        have hmiddleLength : length = (before ++ u).length + middle.length := by
          rw [List.length_append]
          omega
        obtain ⟨v, rfl, hv⟩ := (ihq hmiddleLength).mp hrest
        exact ⟨u ++ v, (List.append_assoc _ _ _).symm, u, v, rfl, hu, hv⟩
      · rintro ⟨taken, rfl, u, v, rfl, hu, hv⟩
        simp only [List.length_append] at hlength
        refine ⟨v ++ rest, ?_, ?_⟩
        · exact (ihr (by simp only [List.length_append]; omega)).mpr
            ⟨u, List.append_assoc _ _ _, hu⟩
        · exact (ihq (by simp only [List.length_append]; omega)).mpr ⟨v, rfl, hv⟩
  | alt r q ihr ihq =>
      rw [rests, List.mem_append, ihr hlength, ihq hlength, ← exists_or]
      simp only [← and_or_left, Matches]
  | star r ih =>
      simp only [rests, Matches]
      constructor
      · exact iterated_of_mem_repeated (fun _ _ _ hpiece => (ih hpiece).mp) hlength
      · rintro ⟨taken, rfl, hiterated⟩
        refine mem_repeated_of_iterated (fun _ piece _ hpiece hmatch => ?_) hiterated hlength ?_
        · exact (ih hpiece).mpr ⟨piece, rfl, hmatch⟩
        · rw [List.length_append]
          omega
  | atStart =>
      have hbefore : text.length = length ↔ before = [] := by
        rw [hlength, ← List.length_eq_zero_iff]
        omega
      by_cases hstart : before = []
      · simp [rests, Matches, hbefore, hstart, eq_comm]
      · simp [rests, Matches, hbefore, hstart]
  | atEnd newline =>
      by_cases hend : text = [] ∨ text = [newline]
      · simp only [rests, Matches, hend, if_true, List.mem_singleton]
        constructor
        · rintro rfl
          exact ⟨[], rfl, rfl, hend⟩
        · rintro ⟨taken, rfl, rfl, -⟩
          rfl
      · simp only [rests, Matches, hend, if_false, List.not_mem_nil, false_iff]
        rintro ⟨taken, rfl, rfl, hrest⟩
        exact hend hrest

/-- A matcher at the front of a text says whether some beginning of it matches. -/
theorem matchesFront_iff (r : Regex α) (text : List α) :
    r.matchesFront text ↔ ∃ taken rest, text = taken ++ rest ∧ r.Matches [] taken rest := by
  have hmem : ∀ rest, rest ∈ r.rests text.length text ↔
      ∃ taken, text = taken ++ rest ∧ r.Matches [] taken rest :=
    fun rest => r.mem_rests (Nat.zero_add text.length).symm
  rw [matchesFront, Bool.not_eq_true', Bool.eq_false_iff, Ne, List.isEmpty_iff,
    List.eq_nil_iff_forall_not_mem]
  push Not
  simp only [hmem]
  exact exists_comm

end Regex

end Text
